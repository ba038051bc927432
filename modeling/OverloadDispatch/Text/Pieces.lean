/-!
# Pieces between scope marks

A text falls into pieces at every `::`. The marks are taken from the left and do not overlap, so
a third colon in a row belongs to the piece that follows. Joining the pieces again gives the text,
and a text that is joined of parts falls into them again unless one ends with a colon itself.
-/

namespace OverloadDispatch.Text

/-- The mark that stands between two scopes. -/
def scopeMark : List Char := [':', ':']

/-- The pieces of a text before, between and after its scope marks. -/
def pieces : List Char → List (List Char)
  | [] => [[]]
  | ':' :: ':' :: rest => [] :: pieces rest
  | c :: rest => (pieces rest).modifyHead (List.cons c)

/-- Every text has a first piece, which may be empty. -/
theorem pieces_ne_nil (s : List Char) : pieces s ≠ [] := by
  fun_induction pieces s with
  | case1 => simp
  | case2 => simp
  | case3 c rest _ ih =>
    cases h : pieces rest with
    | nil => exact absurd h ih
    | cons p ps => simp [List.modifyHead]

/-- Joining the pieces with the mark restores the text. -/
theorem intercalate_pieces (s : List Char) : scopeMark.intercalate (pieces s) = s := by
  fun_induction pieces s with
  | case1 => rfl
  | case2 rest ih =>
    cases h : pieces rest with
    | nil => exact absurd h (pieces_ne_nil rest)
    | cons p ps => rw [List.intercalate_cons_cons, ← h, ih]; rfl
  | case3 c rest _ ih =>
    cases h : pieces rest with
    | nil => exact absurd h (pieces_ne_nil rest)
    | cons p ps =>
      rw [h] at ih
      cases ps with
      | nil => simpa [List.modifyHead, List.intercalate] using ih
      | cons q qs =>
        rw [List.intercalate_cons_cons] at ih
        simp only [List.modifyHead, List.intercalate_cons_cons, List.cons_append, ih]

/-- Texts behind a first one are joined to it with the separator in front of each. -/
theorem intercalate_cons (separator first : String) (rest : List String) :
    String.intercalate separator (first :: rest) =
      first ++ String.join (rest.map (separator ++ ·)) := by
  induction rest generalizing first with
  | nil => simp
  | cons second rest ih =>
    rw [String.intercalate_cons_cons, ih, List.map_cons, String.join_cons]
    simp only [String.append_assoc]

/-- A character that opens no scope mark is the first one of the first piece. -/
theorem pieces_cons {c : Char} {s : List Char} (h : ¬(c = ':' ∧ s.head? = some ':')) :
    pieces (c :: s) = (pieces s).modifyHead (List.cons c) := by
  rw [pieces.eq_3]
  rintro rest hc rfl
  exact h ⟨hc, rfl⟩

/-- Whether a text holds no scope mark. -/
def Unmarked (s : List Char) : Prop := ¬scopeMark <:+: s

/-- A part of a text holds no more scope marks than the text. -/
theorem Unmarked.of_part {s t : List Char} (h : Unmarked t) (hpart : s <:+: t) : Unmarked s :=
  fun hmark => h (hmark.trans hpart)

/-- A text without a colon holds no scope mark. -/
theorem unmarked_of_notMem {s : List Char} (h : ':' ∉ s) : Unmarked s :=
  fun hmark => h (hmark.subset List.mem_cons_self)

/-- One more character in front makes a scope mark only if it is a colon in front of a colon. -/
theorem unmarked_cons_iff {c : Char} {s : List Char} :
    Unmarked (c :: s) ↔ ¬(c = ':' ∧ s.head? = some ':') ∧ Unmarked s := by
  have hopens : scopeMark <+: c :: s ↔ c = ':' ∧ s.head? = some ':' := by
    cases s with
    | nil => simp [scopeMark]
    | cons d s => simp [scopeMark, List.cons_prefix_cons, eq_comm]
  rw [Unmarked, List.infix_cons_iff, not_or, hopens, Unmarked]

/-- A text without a scope mark is a single piece. -/
theorem pieces_of_unmarked {s : List Char} (h : Unmarked s) : pieces s = [s] := by
  induction s with
  | nil => rfl
  | cons c s ih =>
    obtain ⟨hc, hs⟩ := unmarked_cons_iff.mp h
    rw [pieces_cons hc, ih hs]
    rfl

/-- A piece ends in front of the first scope mark, if it does not end with a colon itself. -/
theorem pieces_append_scopeMark {s : List Char} (h : Unmarked s) (hlast : s.getLast? ≠ some ':')
    (rest : List Char) : pieces (s ++ (scopeMark ++ rest)) = s :: pieces rest := by
  induction s with
  | nil => rfl
  | cons c s ih =>
    obtain ⟨hc, hs⟩ := unmarked_cons_iff.mp h
    have hopens : ¬(c = ':' ∧ (s ++ (scopeMark ++ rest)).head? = some ':') := by
      cases s with
      | nil => simpa [scopeMark] using hlast
      | cons d s => exact hc
    have hlast' : s.getLast? ≠ some ':' := by
      cases s with
      | nil => simp
      | cons d s => rwa [List.getLast?_cons_cons] at hlast
    rw [List.cons_append, pieces_cons hopens, ih hs hlast']
    rfl

/-- The first piece of a text begins like the text, unless it is empty. -/
theorem head?_of_pieces_eq_cons {s piece : List Char} {others : List (List Char)}
    (h : pieces s = piece :: others) : ∀ c, piece.head? = some c → s.head? = some c := by
  intro c hc
  rw [← intercalate_pieces s, h]
  cases others with
  | nil => rwa [List.intercalate_singleton]
  | cons next others =>
    rw [List.intercalate_cons_cons, List.append_assoc, List.head?_append, hc]
    rfl

/-- No piece of a text holds a scope mark. -/
theorem unmarked_of_mem_pieces {s piece : List Char} (h : piece ∈ pieces s) : Unmarked piece := by
  have hempty : Unmarked [] := by simp [Unmarked, scopeMark]
  fun_induction pieces s generalizing piece with
  | case1 => rwa [List.mem_singleton.mp h]
  | case2 rest ih =>
    rcases List.mem_cons.mp h with rfl | hrest
    · exact hempty
    · exact ih hrest
  | case3 c rest hc ih =>
    cases hpieces : pieces rest with
    | nil => exact absurd hpieces (pieces_ne_nil rest)
    | cons first others =>
      rw [hpieces, List.modifyHead_cons] at h
      rw [hpieces] at ih
      rcases List.mem_cons.mp h with rfl | hothers
      · refine unmarked_cons_iff.mpr ⟨?_, ih List.mem_cons_self⟩
        rintro ⟨rfl, hfirst⟩
        have hrest := head?_of_pieces_eq_cons hpieces _ hfirst
        obtain ⟨more, hrest⟩ := List.head?_eq_some_iff.mp hrest
        exact hc more rfl hrest
      · exact ih (List.mem_cons_of_mem _ hothers)

/-- A colon in front of a scope mark is taken for the mark, and leaves a colon behind it. -/
theorem pieces_append_colon_scopeMark {s : List Char} (h : Unmarked (s ++ [':']))
    (rest : List Char) :
    pieces (s ++ [':'] ++ (scopeMark ++ rest)) = s :: pieces (':' :: rest) := by
  have hlast : s.getLast? ≠ some ':' := by
    intro hcolon
    obtain ⟨front, rfl⟩ := List.getLast?_eq_some_iff.mp hcolon
    exact h ⟨front, [], by simp [scopeMark]⟩
  have hs : Unmarked s := h.of_part (List.prefix_append _ _).isInfix
  rw [← pieces_append_scopeMark hs hlast (':' :: rest)]
  simp [scopeMark]

end OverloadDispatch.Text
