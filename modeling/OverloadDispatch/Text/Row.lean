import Mathlib.Data.List.Chain
import OverloadDispatch.Text.OneLine

/-!
# Rows of an indented text

A row is a line without its indentation, with the number of units in front of it. Where the unit is
made of blanks a text is written as rows in at most one way. Rows obey the rule of indentation if a
row that announces a block is followed by one that lies exactly one unit deeper, and no other row by
a deeper one. Blocks obey it: single rows, rows that announce a block in front of one that lies
deeper, and several blocks one after the other.
-/

namespace OverloadDispatch.Text

/-- What may be a unit of indentation. -/
structure IsIndentUnit (unit : String) : Prop where
  /-- It indents. -/
  ne_empty : unit ≠ ""
  /-- Spaces and tabs are not mixed. -/
  uniform : (∀ c ∈ unit.toList, c = ' ') ∨ ∀ c ∈ unit.toList, c = '\t'

/-- A unit is made of blanks. -/
theorem IsIndentUnit.isBlank {unit : String} (h : IsIndentUnit unit) {c : Char}
    (hc : c ∈ unit.toList) : isBlank c = true ∧ c ≠ '\n' := by
  rcases h.uniform with hspace | htab
  · rw [hspace c hc]
    decide
  · rw [htab c hc]
    decide

/-- A line without its indentation, and how deep it is indented. -/
structure Row where
  /-- The number of units in front. -/
  depth : Nat
  /-- What stands behind them. -/
  body : String
  deriving DecidableEq, Repr

namespace Row

/-- The row as it is written, with its line feed. -/
def text (unit : String) (row : Row) : String :=
  String.join (List.replicate row.depth unit) ++ row.body ++ "\n"

/-- Rows as they are written. -/
def texts (unit : String) (rows : List Row) : String := String.join (rows.map (text unit))

/-- Whether the row announces a block. -/
def opens (row : Row) : Bool := row.body.toList.getLast? == some ':'

/-- The rule of indentation for a row and the next one. -/
def Precedes (row next : Row) : Prop :=
  if row.opens then next.depth = row.depth + 1 else next.depth ≤ row.depth

/-- The rule of indentation for rows from a depth on. -/
structure Obey (depth : Nat) (rows : List Row) : Prop where
  /-- The first row lies at the depth. -/
  first : ∃ row ∈ rows.head?, row.depth = depth
  /-- No row lies above it. -/
  least : ∀ row ∈ rows, depth ≤ row.depth
  /-- A row that announces a block is followed by one that lies one unit deeper, no other row by
  a deeper one. -/
  steps : rows.IsChain Precedes
  /-- The last row announces no block. -/
  last : ∀ row ∈ rows.getLast?, row.opens = false

/-- The rows of a text that make up a block at a depth. -/
inductive Block : Nat → List Row → Prop where
  /-- A row that announces nothing. -/
  | simple {row : Row} : OpensLine row.body → row.opens = false → Block row.depth [row]
  /-- A row that announces a block, in front of the block. -/
  | compound {header : Row} {body : List Row} :
    OpensLine header.body → header.opens = true → Block (header.depth + 1) body →
    Block header.depth (header :: body)
  /-- A block in front of another one at the same depth. -/
  | append {depth : Nat} {front back : List Row} :
    Block depth front → Block depth back → Block depth (front ++ back)

namespace Block

variable {depth : Nat} {rows : List Row}

/-- Every row of a block can stand behind its indentation. -/
theorem opensLine (h : Block depth rows) : ∀ row ∈ rows, OpensLine row.body := by
  induction h with
  | simple hrow _ => simpa using hrow
  | compound hheader _ _ ih => exact List.forall_mem_cons.mpr ⟨hheader, ih⟩
  | append _ _ hfront hback => exact List.forall_mem_append.mpr ⟨hfront, hback⟩

/-- A block obeys the rule of indentation. -/
theorem obey (h : Block depth rows) : Obey depth rows := by
  induction h with
  | @simple row _ hopens =>
    exact
      { first := ⟨row, rfl, rfl⟩
        least := by simp
        steps := .singleton row
        last := by simpa using hopens }
  | @compound header body _ hopens _ ih =>
    obtain ⟨first, hfirst, hdepth⟩ := ih.first
    obtain ⟨rest, rfl⟩ := List.head?_eq_some_iff.mp hfirst
    refine ⟨⟨header, rfl, rfl⟩, ?_, ?_, ?_⟩
    · intro row hrow
      rcases List.mem_cons.mp hrow with rfl | hbody
      · exact Nat.le_refl _
      · exact Nat.le_of_succ_le (ih.least row hbody)
    · refine List.isChain_cons_cons.mpr ⟨?_, ih.steps⟩
      rw [Precedes, if_pos hopens]
      exact hdepth
    · rw [List.getLast?_cons_cons]
      exact ih.last
  | @append depth front back _ _ hfront hback =>
    obtain ⟨row, hrow, hdepth⟩ := hfront.first
    refine ⟨⟨row, ?_, hdepth⟩, List.forall_mem_append.mpr ⟨hfront.least, hback.least⟩, ?_, ?_⟩
    · rw [List.head?_append, Option.mem_def.mp hrow]
      rfl
    · refine List.isChain_append.mpr ⟨hfront.steps, hback.steps, ?_⟩
      intro last hlast next hnext
      obtain ⟨first, hfirst, hback⟩ := hback.first
      obtain rfl := Option.some.inj (hfirst.symm.trans hnext)
      have hleast := hfront.least last (List.mem_of_mem_getLast? hlast)
      rw [Precedes, if_neg (by rw [hfront.last last hlast]; exact Bool.false_ne_true), hback]
      exact hleast
    · obtain ⟨first, hfirst, -⟩ := hback.first
      obtain ⟨rest, rfl⟩ := List.head?_eq_some_iff.mp hfirst
      rw [List.getLast?_append_of_ne_nil _ (List.cons_ne_nil _ _)]
      exact hback.last

end Block

/-! ## A text is written as rows in one way -/

/-- What stands in front of the first line feed of a text, and behind it, is told by the text. -/
theorem append_newline_inj {line line' rest rest' : List Char} (hline : '\n' ∉ line)
    (hline' : '\n' ∉ line') (h : line ++ '\n' :: rest = line' ++ '\n' :: rest') :
    line = line' ∧ rest = rest' := by
  have htake : ∀ {s : List Char} (behind : List Char), '\n' ∉ s →
      (s ++ '\n' :: behind).takeWhile (· != '\n') = s := by
    intro s behind hs
    rw [List.takeWhile_append_of_pos (fun c hc => bne_iff_ne.mpr (ne_of_mem_of_not_mem hc hs)),
      List.takeWhile_cons_of_neg (by decide), List.append_nil]
  obtain rfl : line = line' := by rw [← htake rest hline, h, htake rest' hline']
  exact ⟨rfl, (List.cons.inj (List.append_cancel_left h)).2⟩

variable {unit : String}

/-- The characters of a line: its indentation and its body. -/
def chars (unit : String) (row : Row) : List Char :=
  (List.replicate row.depth unit.toList).flatten ++ row.body.toList

theorem toList_texts_cons (row : Row) (rows : List Row) :
    (texts unit (row :: rows)).toList = chars unit row ++ '\n' :: (texts unit rows).toList := by
  simp [texts, text, chars, String.toList_join, List.flatMap_def]

/-- A line ends at its line feed. -/
theorem newline_notMem_chars (hunit : IsIndentUnit unit) {row : Row} (h : OpensLine row.body) :
    '\n' ∉ chars unit row := by
  intro hmem
  rcases List.mem_append.mp hmem with hpad | hbody
  · obtain ⟨copy, hcopy, hc⟩ := List.mem_flatten.mp hpad
    rw [List.eq_of_mem_replicate hcopy] at hc
    exact (hunit.isBlank hc).2 rfl
  · exact h.onOneLine hbody

/-- The blanks in front of a line are its indentation. -/
theorem takeWhile_chars (hunit : IsIndentUnit unit) {row : Row} (h : OpensLine row.body) :
    (chars unit row).takeWhile isBlank = (List.replicate row.depth unit.toList).flatten := by
  obtain ⟨c, hc, hblank⟩ := h.begins
  obtain ⟨rest, hbody⟩ := List.head?_eq_some_iff.mp hc
  rw [chars, List.takeWhile_append_of_pos, hbody,
    List.takeWhile_cons_of_neg (by rw [hblank]; exact Bool.false_ne_true), List.append_nil]
  intro d hd
  obtain ⟨copy, hcopy, hmem⟩ := List.mem_flatten.mp hd
  rw [List.eq_of_mem_replicate hcopy] at hmem
  exact (hunit.isBlank hmem).1

/-- A row is told by its line. -/
theorem chars_inj (hunit : IsIndentUnit unit) {row other : Row} (hrow : OpensLine row.body)
    (hother : OpensLine other.body) (h : chars unit row = chars unit other) : row = other := by
  have hpads := congrArg (List.takeWhile isBlank) h
  rw [takeWhile_chars hunit hrow, takeWhile_chars hunit hother] at hpads
  have hlength : 0 < unit.toList.length := by
    rw [List.length_pos_iff, ne_eq, String.toList_eq_nil_iff]
    exact hunit.ne_empty
  have hdepth : row.depth = other.depth := by
    have hlengths := congrArg List.length hpads
    simp only [List.length_flatten, List.map_replicate, List.sum_replicate_nat] at hlengths
    exact Nat.eq_of_mul_eq_mul_right hlength hlengths
  have hbody : row.body = other.body := by
    rw [chars, chars, hpads] at h
    exact String.toList_inj.mp (List.append_cancel_left h)
  cases row
  cases other
  exact congr (congrArg Row.mk hdepth) hbody

/-- Rows are told by their text. -/
theorem texts_inj (hunit : IsIndentUnit unit) {rows others : List Row}
    (hrows : ∀ row ∈ rows, OpensLine row.body) (hothers : ∀ row ∈ others, OpensLine row.body)
    (h : texts unit rows = texts unit others) : rows = others := by
  induction rows generalizing others with
  | nil =>
    cases others with
    | nil => rfl
    | cons other others =>
      have hchars := congrArg String.toList h
      rw [toList_texts_cons] at hchars
      exact absurd hchars.symm (List.append_ne_nil_of_right_ne_nil _ (List.cons_ne_nil _ _))
  | cons row rows ih =>
    obtain ⟨hrow, hrows⟩ := List.forall_mem_cons.mp hrows
    cases others with
    | nil =>
      have hchars := congrArg String.toList h
      rw [toList_texts_cons] at hchars
      exact absurd hchars (List.append_ne_nil_of_right_ne_nil _ (List.cons_ne_nil _ _))
    | cons other others =>
      obtain ⟨hother, hothers⟩ := List.forall_mem_cons.mp hothers
      have hchars := congrArg String.toList h
      rw [toList_texts_cons, toList_texts_cons] at hchars
      obtain ⟨hline, hrest⟩ := append_newline_inj (newline_notMem_chars hunit hrow)
        (newline_notMem_chars hunit hother) hchars
      rw [chars_inj hunit hrow hother hline, ih hrows hothers (String.toList_inj.mp hrest)]

/-- A text is written as rows in one way only, and they obey the rule from a depth on. -/
def Indented (unit : String) (depth : Nat) (s : String) : Prop :=
  ∃ rows, (∀ row ∈ rows, OpensLine row.body) ∧ s = texts unit rows ∧ Obey depth rows ∧
    ∀ others, (∀ row ∈ others, OpensLine row.body) → s = texts unit others → others = rows

/-- A block is written as an indented text. -/
theorem Block.indented (hunit : IsIndentUnit unit) {depth : Nat} {rows : List Row}
    (h : Block depth rows) : Indented unit depth (texts unit rows) :=
  ⟨rows, h.opensLine, rfl, h.obey, fun _ hothers heq => texts_inj hunit hothers h.opensLine heq.symm⟩

end Row

end OverloadDispatch.Text
