import OverloadDispatch.Host.Line

/-!
# Dialects

A guard is written in one of two dialects. They make the same checks and differ in spacing, in the
way in which a wrapped class is checked, and in the conversion of a value that has passed.
-/

namespace OverloadDispatch

/-- The dialects in which guards are written. -/
inductive Dialect where
  /-- The dialect of compiled extension modules, with typed casts. -/
  | compiled
  /-- The plain interpreted dialect. -/
  | interpreted
  deriving DecidableEq, Repr

namespace Dialect

/-- The name under which a dialect is requested. -/
def name : Dialect → String
  | compiled => "cython"
  | interpreted => "python"

/-- The dialects in the order of their names. -/
def all : List Dialect := [compiled, interpreted]

/-- The dialect of a name. -/
def ofName (requested : String) : Except Fault Dialect :=
  match all.find? (·.name == requested) with
  | some d => .ok d
  | none => .error (.unknownDialect requested (all.map name))

/-- Asking for a dialect by its own name finds it. -/
theorem ofName_name (d : Dialect) : ofName d.name = .ok d := by cases d <;> rfl

/-- The usual unit of indentation. -/
def unit : Dialect → String
  | compiled => "\t"
  | interpreted => "    "

/-- The usual level of a guard. -/
def level : Dialect → Int
  | compiled => 2
  | interpreted => 1

/-- Whether the operators in conditions stand between spaces. -/
def spaced : Dialect → Bool
  | compiled => false
  | interpreted => true

/-- The lines that fetch a value and check that it has a wrapped class. -/
def wrappedLines (d : Dialect) (level : Int) (name : String) (t : QualifiedType) : List Line :=
  match d with
  | compiled => [⟨level, 0, .fetchChecked name t.hostSpelling⟩]
  | interpreted =>
    [⟨level, 0, .fetch name⟩, ⟨level, 0, .ifNotInstance name t.hostSpelling⟩,
      ⟨level, 1, .raiseValue name⟩]

/-- The conversion of a value that has passed its host check, if the dialect makes one. -/
def conversion? (d : Dialect) (name : String) (t : QualifiedType) (check : HostCheck) :
    Option Statement :=
  match d with
  | compiled => if t.isBasic then some (.cast name t.hostSpelling) else none
  | interpreted => check.converter.map (.convert name)

/-- A conversion casts the value to its type or hands it to a converter. -/
theorem conversion?_cases {d : Dialect} {name : String} {t : QualifiedType} {check : HostCheck}
    {statement : Statement} (h : d.conversion? name t check = some statement) :
    (∃ typeName, statement = .cast name typeName) ∨
      ∃ converter, statement = .convert name converter := by
  cases d with
  | compiled =>
    obtain ⟨-, hcast⟩ := Option.ite_none_right_eq_some.mp h
    exact .inl ⟨t.hostSpelling, (Option.some.inj hcast).symm⟩
  | interpreted =>
    obtain ⟨converter, -, hconvert⟩ := Option.map_eq_some_iff.mp h
    exact .inr ⟨converter, hconvert.symm⟩

end Dialect

end OverloadDispatch
