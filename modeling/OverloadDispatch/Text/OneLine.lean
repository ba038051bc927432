import OverloadDispatch.Text.Blank
import OverloadDispatch.Text.Identifier
import OverloadDispatch.Text.Quoted

/-!
# Texts on one line

A text without a line feed ends on the line on which it begins. If its first character is not blank
either, it can stand behind an indentation and does not change it. Identifiers are such texts, and
so are texts that begin with one; quoted literals never break a line, whatever they show.
-/

namespace OverloadDispatch.Text

/-- Whether a text holds no line feed. -/
def OnOneLine (s : String) : Prop := '\n' ∉ s.toList

instance (s : String) : Decidable (OnOneLine s) := inferInstanceAs (Decidable ('\n' ∉ s.toList))

@[simp] theorem onOneLine_append {s t : String} :
    OnOneLine (s ++ t) ↔ OnOneLine s ∧ OnOneLine t := by
  simp [OnOneLine]

/-- A character that stands neither in texts nor between them is not in the joined text. -/
theorem notMem_intercalate {c : Char} {separator : String} {texts : List String}
    (hseparator : c ∉ separator.toList) (h : ∀ s ∈ texts, c ∉ s.toList) :
    c ∉ (String.intercalate separator texts).toList := by
  induction texts with
  | nil => simp
  | cons first rest ih =>
    obtain ⟨hfirst, hrest⟩ := List.forall_mem_cons.mp h
    cases rest with
    | nil => simpa using hfirst
    | cons second rest =>
      rw [String.intercalate_cons_cons, String.toList_append, String.toList_append, List.mem_append,
        List.mem_append, not_or, not_or]
      exact ⟨⟨hfirst, hseparator⟩, ih hrest⟩

/-- Texts on one line are joined on one line. -/
theorem onOneLine_intercalate {separator : String} {texts : List String}
    (hseparator : OnOneLine separator) (h : ∀ s ∈ texts, OnOneLine s) :
    OnOneLine (String.intercalate separator texts) :=
  notMem_intercalate hseparator h

/-- A quoted literal stands on one line: a line feed is not printable. -/
@[simp] theorem onOneLine_quoted (s : String) : OnOneLine (quoted s) := by
  intro h
  rw [toList_quoted] at h
  have hprintable := isPrintable_of_mem_quoteChars h
  rw [isPrintable_of_control (by decide)] at hprintable
  cases hprintable

@[simp] theorem onOneLine_toString_nat (n : Nat) : OnOneLine (toString n) := by
  intro h
  rw [Nat.toString_eq_repr, Nat.toList_repr] at h
  exact absurd (Nat.isDigit_of_mem_toDigits (by decide) (by decide) h) (by decide)

@[simp] theorem onOneLine_toString_int (n : Int) : OnOneLine (toString n) := by
  cases n with
  | ofNat n => exact onOneLine_toString_nat n
  | negSucc n =>
    change OnOneLine ("-" ++ toString (n + 1))
    exact onOneLine_append.mpr ⟨by decide, onOneLine_toString_nat _⟩

/-- Whether a text can stand behind the indentation of a line. -/
structure OpensLine (s : String) : Prop where
  /-- It begins with a character that is not blank. -/
  begins : ∃ c ∈ s.toList.head?, isBlank c = false
  /-- It ends on the same line. -/
  onOneLine : OnOneLine s

theorem begins_iff {s : String} :
    (s.toList.head?.any fun c => !isBlank c) = true ↔ ∃ c ∈ s.toList.head?, isBlank c = false := by
  cases s.toList.head? with
  | none => simp
  | some c => simp

-- Only the first character is looked at; the existence of one is not searched for among all.
instance (s : String) : Decidable (OpensLine s) :=
  decidable_of_iff ((s.toList.head?.any fun c => !isBlank c) = true ∧ OnOneLine s)
    ⟨fun h => ⟨begins_iff.mp h.1, h.2⟩, fun h => ⟨begins_iff.mpr h.begins, h.onOneLine⟩⟩

/-- A text that can stand behind an indentation may be continued. -/
theorem OpensLine.append {s t : String} (h : OpensLine s) (ht : OnOneLine t) :
    OpensLine (s ++ t) := by
  obtain ⟨⟨c, hc, hblank⟩, hline⟩ := h
  refine ⟨⟨c, ?_, hblank⟩, onOneLine_append.mpr ⟨hline, ht⟩⟩
  rw [String.toList_append, List.head?_append, Option.mem_def.mp hc]
  rfl

/-- The first of joined texts stands behind the indentation. -/
theorem opensLine_intercalate {separator first : String} {rest : List String}
    (hfirst : OpensLine first) (hseparator : OnOneLine separator) (h : ∀ s ∈ rest, OnOneLine s) :
    OpensLine (String.intercalate separator (first :: rest)) := by
  cases rest with
  | nil => simpa using hfirst
  | cons second rest =>
    rw [String.intercalate_cons_cons, String.append_assoc]
    exact hfirst.append (onOneLine_append.mpr ⟨hseparator, onOneLine_intercalate hseparator h⟩)

/-- No character of an identifier is blank. -/
theorem isBlank_eq_false_of_isWordPart {c : Char} (h : isWordPart c = true) :
    isBlank c = false := by
  have hranges : (((decide (c.val ≥ 65 ∧ c.val ≤ 90) || (c.val ≥ 97 && c.val ≤ 122)) ||
      (c.val ≥ 48 && c.val ≤ 57)) || c == '_') = true := h
  simp only [Bool.or_eq_true, Bool.and_eq_true, decide_eq_true_eq, beq_iff_eq, ge_iff_le,
    UInt32.le_iff_toNat_le] at hranges
  change (((65 ≤ c.toNat ∧ c.toNat ≤ 90) ∨ (97 ≤ c.toNat ∧ c.toNat ≤ 122)) ∨
    (48 ≤ c.toNat ∧ c.toNat ≤ 57)) ∨ c = '_' at hranges
  rcases hranges with hcode | rfl
  · simp only [isBlank, Bool.or_eq_false_iff, Bool.and_eq_false_iff, decide_eq_false_iff_not,
      beq_eq_false_iff_ne]
    omega
  · decide

/-- Every identifier can stand behind an indentation. -/
theorem opensLine_of_isIdentifier {s : String} (h : isIdentifier s.toList = true) :
    OpensLine s := by
  have hparts := isWordPart_of_isIdentifier h
  obtain ⟨c, rest, hs, hc, -⟩ := isIdentifier_iff.mp h
  refine ⟨⟨c, by rw [hs]; rfl, isBlank_eq_false_of_isWordPart (isWordPart_of_isWordStart hc)⟩, ?_⟩
  intro hnewline
  exact absurd (hparts _ hnewline) (by decide)

end OverloadDispatch.Text
