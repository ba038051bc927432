import OverloadDispatch.Fault
import OverloadDispatch.QualifiedType.Basic

/-!
# Host checks

A host check tests the class of a value before it is converted to a basic or array type: the value
is an instance of an accepted class and of no rejected one. A table holds the checks of the basic
types; arrays have one check of their own, and wrapped classes are left to the dialect.
-/

namespace OverloadDispatch

/-- The test of a host value and the conversion that follows it. -/
structure HostCheck where
  /-- The classes one of which the value has to have. -/
  accepts : List String
  /-- The conversion of a value that passes. -/
  converter : Option String := none
  /-- The classes none of which the value may have. -/
  rejects : List String := []
  deriving DecidableEq, Repr

namespace HostCheck

/-- A list of classes as the second argument of an instance test. -/
def classes : List String → String
  | [only] => only
  | several => "(" ++ String.intercalate ", " several ++ ")"

/-- The condition under which the value of a variable fails the check. -/
def condition (check : HostCheck) (subject : String) : String :=
  "not isinstance(" ++ subject ++ ", " ++ classes check.accepts ++ ")" ++
    if check.rejects.isEmpty then ""
    else " or isinstance(" ++ subject ++ ", " ++ classes check.rejects ++ ")"

end HostCheck

/-- The checks of the basic types, by the names of the types. -/
abbrev HostTable := List (String × HostCheck)

namespace HostTable

/-- The check of an integer type, which takes no truth value for an integer. -/
def integerCheck : HostCheck where
  accepts := ["int"]
  rejects := ["bool"]

/-- The check of a text type. -/
def textCheck : HostCheck where
  accepts := ["str"]

/-- The checks of the built-in types. -/
def standard : HostTable :=
  [("double", ⟨["int", "float"], some "float", ["bool"]⟩), ("int", integerCheck),
    ("size_t", integerCheck), ("Key", integerCheck), ("unsigned char", integerCheck),
    ("bool", ⟨["bool"], none, []⟩), ("char", textCheck), ("string", textCheck)]

/-- The check of the arrays. -/
def arrayCheck : HostCheck where
  accepts := [QualifiedType.arrayClass]

/-- The check of a type, if it is an array or a basic type of the table. -/
def check? (table : HostTable) (t : QualifiedType) : Option HostCheck :=
  match t.category with
  | .array => some arrayCheck
  | .basic => table.lookup t.name
  | .wrapped => none
  | .void => none

/-- The check of a type, or the fault that none is known. -/
def check (table : HostTable) (t : QualifiedType) : Except Fault HostCheck :=
  match table.check? t with
  | some found => .ok found
  | none => .error (.noHostCheck t.qualified)

/-- A check without a fault is the one that is known for the type. -/
theorem check_eq_ok_iff {table : HostTable} {t : QualifiedType} {found : HostCheck} :
    table.check t = .ok found ↔ table.check? t = some found := by
  unfold check
  cases table.check? t <;> simp

end HostTable

end OverloadDispatch
