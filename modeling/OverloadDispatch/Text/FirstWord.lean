import OverloadDispatch.Text.OneLine

/-!
# First words

The first word of a text is what stands behind its leading blanks, up to the first character that
cannot continue an identifier. A text that begins with a word keeps it as its first word, whatever
is written behind the place where the word ends.
-/

namespace OverloadDispatch.Text

/-- The first word of a text, empty if it begins with another character. -/
def firstWord (s : String) : String :=
  String.ofList ((s.toList.dropWhile isBlank).takeWhile isWordPart)

/-- Whether a text begins with a word and goes on behind it. -/
def Leads (word s : String) : Prop :=
  ∃ c rest, s.toList = word.toList ++ c :: rest ∧ isWordPart c = false

/-- The word is a part of the text, and the character behind it cannot continue it. -/
theorem leads_iff {word s : String} :
    Leads word s ↔ word.toList <+: s.toList ∧
      ((s.toList.drop word.toList.length).head?.any fun c => !isWordPart c) = true := by
  constructor
  · rintro ⟨c, rest, hs, hpart⟩
    rw [hs, List.drop_left]
    exact ⟨List.prefix_append _ _, by simp [hpart]⟩
  · rintro ⟨⟨rest, hs⟩, hany⟩
    rw [← hs, List.drop_left] at hany
    cases rest with
    | nil => cases hany
    | cons c rest => exact ⟨c, rest, hs.symm, by simpa using hany⟩

instance (word s : String) : Decidable (Leads word s) := decidable_of_iff _ leads_iff.symm

/-- A word is led by itself where a character follows that cannot continue it. -/
theorem leads_append (word : String) {s : String}
    (h : ∃ c ∈ s.toList.head?, isWordPart c = false) : Leads word (word ++ s) := by
  obtain ⟨c, hc, hpart⟩ := h
  obtain ⟨rest, hs⟩ := List.head?_eq_some_iff.mp hc
  exact ⟨c, rest, by rw [String.toList_append, hs], hpart⟩

/-- What is written behind the word makes no difference. -/
theorem Leads.append {word s : String} (h : Leads word s) (t : String) : Leads word (s ++ t) := by
  obtain ⟨c, rest, hs, hpart⟩ := h
  exact ⟨c, rest ++ t.toList, by rw [String.toList_append, hs, List.append_assoc]; rfl, hpart⟩

/-- The word with which a text begins is its first word. -/
theorem Leads.firstWord_eq {word s : String} (h : Leads word s)
    (hword : isIdentifier word.toList = true) : firstWord s = word := by
  obtain ⟨c, rest, hs, hpart⟩ := h
  have hparts := isWordPart_of_isIdentifier hword
  obtain ⟨first, others, hfirst, hstart, -⟩ := isIdentifier_iff.mp hword
  have hblank := isBlank_eq_false_of_isWordPart (isWordPart_of_isWordStart hstart)
  have hbegins : s.toList.dropWhile isBlank = s.toList := by
    rw [hs, hfirst, List.cons_append, List.dropWhile_cons_of_neg (by simp [hblank])]
  rw [firstWord, hbegins, hs, List.takeWhile_append_of_pos hparts,
    List.takeWhile_cons_of_neg (by simp [hpart]), List.append_nil, String.ofList_toList]

end OverloadDispatch.Text
