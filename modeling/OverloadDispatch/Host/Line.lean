import OverloadDispatch.Host.Statement
import OverloadDispatch.Word

/-!
# Indented lines

A line is a statement with its depth. The depth is a level, which may be any integer, and a number
of further units that some statements always keep to the one before. A level below zero indents as
little as level zero does. A level is written only if a word holds it and the length of its copies
of the unit, and memory holds the copies. The capacity of memory is not known here but given, and
may be unbounded; `requireLevel_eq_ok_iff` says which levels are written with it.
-/

namespace OverloadDispatch

/-- A statement and its depth. -/
structure Line where
  /-- The level of the block; nothing is indented below level zero. -/
  level : Int
  /-- The units by which the line stands deeper than its block, whatever the level. -/
  nested : Nat := 0
  /-- What the line says. -/
  statement : Statement
  deriving DecidableEq, Repr

namespace Line

/-- A number of copies of the indentation unit; copies of the empty unit are not counted out. -/
def indent (unit : String) (depth : Nat) : String :=
  if unit = "" then "" else String.join (List.replicate depth unit)

/-- The empty unit is no exception to the rule that the unit is copied. -/
theorem indent_eq_join (unit : String) (depth : Nat) :
    indent unit depth = String.join (List.replicate depth unit) := by
  unfold indent
  split
  · next h =>
    subst h
    apply String.toList_inj.mp
    simp [String.toList_join]
  · rfl

/-- The fault of a level that cannot be written, if it cannot. A single copy is the unit itself,
whose length is not bounded; a word must hold the number of copies even when they are empty. -/
def requireLevel (capacity : Option Nat) (unit : String) (level : Int) : Except Fault Unit :=
  if !Word.holds level then .error .levelTooWide
  else if level ≤ 1 then .ok ()
  else if Word.greatest < unit.length * level then .error .indentTooLong
  else if capacity.any fun most => (most : Int) < unit.length * level then .error .indentTooLarge
  else .ok ()

/-- The levels that can be written. -/
theorem requireLevel_eq_ok_iff {capacity : Option Nat} {unit : String} {level : Int} :
    requireLevel capacity unit level = .ok () ↔
      (Word.least ≤ level ∧ level ≤ Word.greatest) ∧
        (level ≤ 1 ∨ unit.length * level ≤ Word.greatest ∧
          ∀ most ∈ capacity, unit.length * level ≤ most) := by
  have hcapacity : (capacity.any fun most => decide ((most : Int) < unit.length * level)) = false ↔
      ∀ most ∈ capacity, unit.length * level ≤ most := by
    cases capacity <;> simp
  rw [← Word.holds_iff, ← hcapacity]
  unfold requireLevel
  cases Word.holds level <;> grind

/-- Where memory is not bounded, only the word bounds the levels that can be written. -/
theorem requireLevel_none_eq_ok_iff {unit : String} {level : Int} :
    requireLevel none unit level = .ok () ↔
      (Word.least ≤ level ∧ level ≤ Word.greatest) ∧
        (level ≤ 1 ∨ unit.length * level ≤ Word.greatest) := by
  rw [requireLevel_eq_ok_iff]
  simp

/-- Every level that a word holds can be written with the empty unit, however small memory is. -/
theorem requireLevel_empty {capacity : Option Nat} {level : Int} (h : Word.holds level = true) :
    requireLevel capacity "" level = .ok () := by
  have hempty : ("".length : Int) * level = 0 := by simp
  refine requireLevel_eq_ok_iff.mpr ⟨Word.holds_iff.mp h, .inr ?_⟩
  rw [hempty]
  exact ⟨by decide, fun most _ => Int.natCast_nonneg most⟩

/-- The number of units in front of the statement. -/
def depth (l : Line) : Nat := l.level.toNat + l.nested

/-- The line as it is written, without its line feed. -/
def text (unit : String) (l : Line) : String := indent unit l.depth ++ l.statement.text

/-- The text of a block of lines, each ended by a line feed. -/
def blockText (unit : String) (lines : List Line) : String :=
  String.join (lines.map fun l => l.text unit ++ "\n")

/-- Blocks are written one after the other. -/
theorem blockText_append (unit : String) (first second : List Line) :
    blockText unit (first ++ second) = blockText unit first ++ blockText unit second := by
  simp [blockText, String.join_append]

end Line

end OverloadDispatch
