/-!
# Positions in a text

A position names a character by its line and its column, both counted from one. It is worked out
from the offset of the character, so a reader has to carry offsets only.
-/

namespace OverloadDispatch.Text

/-- The line and the column of a character. -/
structure Position where
  /-- One more than the number of line feeds before the character. -/
  line : Nat
  /-- One more than the number of characters since the last line feed. -/
  column : Nat
  deriving DecidableEq, Repr

/-- The position of the character at an offset of a text. -/
def Position.ofOffset (s : List Char) (offset : Nat) : Position where
  line := 1 + (s.take offset).count '\n'
  column := 1 + ((s.take offset).reverse.takeWhile (· != '\n')).length

/-- The position of what comes behind a front of a text, told by the lines of the front. -/
structure Position.Follows (p : Position) (front : List Char) : Prop where
  /-- Every line feed of the front has ended a line. -/
  line : p.line = 1 + front.count '\n'
  /-- The column counts the characters of the line that has not been ended. -/
  column : ∃ ended unended, front = ended ++ unended ∧ (ended = [] ∨ ended.getLast? = some '\n') ∧
    '\n' ∉ unended ∧ p.column = 1 + unended.length

/-- The characters behind the last line feed are those of the line that has not been ended. -/
theorem takeWhile_reverse_append {ended unended : List Char}
    (hended : ended = [] ∨ ended.getLast? = some '\n') (hunended : '\n' ∉ unended) :
    (ended ++ unended).reverse.takeWhile (· != '\n') = unended.reverse := by
  have hstop : ended.reverse.takeWhile (· != '\n') = [] := by
    rcases hended with rfl | hlast
    · rfl
    · rw [← List.head?_reverse, List.head?_eq_some_iff] at hlast
      obtain ⟨lines, hlines⟩ := hlast
      rw [hlines, List.takeWhile_cons_of_neg (by decide)]
  rw [List.reverse_append, List.takeWhile_append_of_pos, hstop, List.append_nil]
  intro c hc
  rw [bne_iff_ne]
  rintro rfl
  exact hunended (List.mem_reverse.mp hc)

/-- The position of an offset is that of what comes behind the characters before it. -/
theorem Position.follows_iff {p : Position} {front : List Char} (rest : List Char) :
    p.Follows front ↔ p = Position.ofOffset (front ++ rest) front.length := by
  rw [Position.ofOffset, List.take_left]
  constructor
  · rintro ⟨hline, ended, unended, rfl, hended, hunended, hcolumn⟩
    rw [takeWhile_reverse_append hended hunended, List.length_reverse, ← hline, ← hcolumn]
  · rintro rfl
    refine ⟨rfl, (front.reverse.dropWhile (· != '\n')).reverse,
      (front.reverse.takeWhile (· != '\n')).reverse, ?_, ?_, ?_, ?_⟩
    · rw [← List.reverse_append, List.takeWhile_append_dropWhile, List.reverse_reverse]
    · cases hrest : front.reverse.dropWhile (· != '\n') with
      | nil => exact .inl rfl
      | cons c lines =>
        refine .inr ?_
        have hstop := List.head?_dropWhile_not (· != '\n') front.reverse
        rw [hrest] at hstop
        simpa using hstop
    · intro hmem
      have hpass := List.all_eq_true.mp List.all_takeWhile _ (List.mem_reverse.mp hmem)
      exact absurd hpass (by decide)
    · rw [List.length_reverse]

end OverloadDispatch.Text
