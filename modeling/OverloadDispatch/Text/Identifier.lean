/-!
# Identifiers

An identifier is an ASCII letter or underscore followed by ASCII letters, digits and underscores.
The declared interfaces admit no other letters, so the character tests are those of ASCII.
-/

namespace OverloadDispatch.Text

/-- The characters that may open an identifier. -/
def isWordStart (c : Char) : Bool := c.isAlpha || c == '_'

/-- The characters that may continue an identifier. -/
def isWordPart (c : Char) : Bool := c.isAlphanum || c == '_'

/-- A character that may open an identifier may also continue one. -/
theorem isWordPart_of_isWordStart {c : Char} (h : isWordStart c = true) : isWordPart c = true := by
  simp only [isWordStart, isWordPart, Char.isAlphanum, Bool.or_eq_true] at h ⊢
  exact h.imp_left Or.inl

/-- The texts that are identifiers. -/
def isIdentifier : List Char → Bool
  | [] => false
  | c :: rest => isWordStart c && rest.all isWordPart

/-- An identifier has a character that may open it, and others that may continue it. -/
theorem isIdentifier_iff {s : List Char} :
    isIdentifier s = true ↔
      ∃ c rest, s = c :: rest ∧ isWordStart c = true ∧ ∀ d ∈ rest, isWordPart d = true := by
  cases s with
  | nil => simp [isIdentifier]
  | cons c rest =>
    rw [isIdentifier, Bool.and_eq_true, List.all_eq_true]
    constructor
    · exact fun h => ⟨c, rest, rfl, h⟩
    · rintro ⟨_, _, h, hword⟩
      obtain ⟨rfl, rfl⟩ := List.cons.inj h
      exact hword

/-- All characters of an identifier may continue it. -/
theorem isWordPart_of_isIdentifier {s : List Char} (h : isIdentifier s = true) :
    ∀ c ∈ s, isWordPart c = true := by
  obtain ⟨c, rest, rfl, hc, hrest⟩ := isIdentifier_iff.mp h
  exact List.forall_mem_cons.mpr ⟨isWordPart_of_isWordStart hc, hrest⟩

/-- An identifier may be continued. -/
theorem isIdentifier_append {s more : List Char} (h : isIdentifier s = true)
    (hmore : ∀ c ∈ more, isWordPart c = true) : isIdentifier (s ++ more) = true := by
  obtain ⟨c, rest, rfl, hc, hrest⟩ := isIdentifier_iff.mp h
  exact isIdentifier_iff.mpr
    ⟨c, rest ++ more, rfl, hc, List.forall_mem_append.mpr ⟨hrest, hmore⟩⟩

/-- Identifiers that are joined by underscores make up one. -/
theorem isIdentifier_intercalate {words : List String} (hne : words ≠ [])
    (h : ∀ word ∈ words, isIdentifier word.toList = true) :
    isIdentifier (String.intercalate "_" words).toList = true := by
  induction words with
  | nil => exact absurd rfl hne
  | cons first rest ih =>
    obtain ⟨hfirst, hrest⟩ := List.forall_mem_cons.mp h
    cases rest with
    | nil => simpa using hfirst
    | cons second rest =>
      have hbehind := isWordPart_of_isIdentifier (ih (List.cons_ne_nil _ _) hrest)
      have hmark : ∀ c ∈ "_".toList, isWordPart c = true := by
        intro c hc
        rw [List.mem_singleton.mp hc]
        decide
      rw [String.intercalate_cons_cons, String.append_assoc, String.toList_append,
        String.toList_append]
      exact isIdentifier_append hfirst (List.forall_mem_append.mpr ⟨hmark, hbehind⟩)

/-- A text with a blank in it is not an identifier. -/
theorem isIdentifier_eq_false_of_blank {s : List Char} (h : ' ' ∈ s) : isIdentifier s = false := by
  rw [Bool.eq_false_iff]
  intro hword
  exact absurd (isWordPart_of_isIdentifier hword ' ' h) (by decide)

/-- A text together with the evidence that it is an identifier. -/
structure Identifier where
  /-- The characters as written. -/
  text : String
  /-- The text has the form of an identifier. -/
  valid : isIdentifier text.toList = true
  deriving DecidableEq, Repr

/-- An identifier has at least one character. -/
theorem Identifier.text_ne_empty (w : Identifier) : w.text ≠ "" := by
  intro h
  have hv := w.valid
  rw [h] at hv
  exact absurd hv (by decide)

end OverloadDispatch.Text
