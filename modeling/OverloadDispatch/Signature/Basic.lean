import OverloadDispatch.Substitution

/-!
# Signatures

A signature is the ordered list of the parameters of one declaration. The order is that in which
positional arguments are bound, and every operation here keeps it.
-/

namespace OverloadDispatch

/-- A named parameter of a declared type, with the marks of its declaration. -/
structure Parameter where
  /-- The name under which a call may supply it. -/
  name : String
  /-- The declared type. -/
  type : QualifiedType
  /-- Whether it is declared constant. -/
  isConst : Bool := false
  /-- Whether it is passed by reference. -/
  isRef : Bool := false
  /-- Whether it is passed by pointer. -/
  isPtr : Bool := false
  deriving DecidableEq, Repr

namespace Parameter

/-- The sign behind the type; a reference hides a pointer. -/
def mark (p : Parameter) : String :=
  if p.isRef then "&" else if p.isPtr then "*" else ""

/-- The parameter as it is declared. -/
def text (p : Parameter) : String :=
  (if p.isConst then "const " else "") ++ p.type.qualified ++ p.mark ++ " " ++ p.name

/-- The parameter with its type substituted. -/
def expand (s : Substitution) (p : Parameter) : Parameter := { p with type := s.apply p.type }

end Parameter

/-- The parameters of one declaration, in order. -/
abbrev Signature := List Parameter

namespace Signature

/-- The names of the parameters. -/
def names (s : Signature) : List String := s.map Parameter.name

/-- The types of the parameters. -/
def types (s : Signature) : List QualifiedType := s.map Parameter.type

/-- The parameters as they are declared, with commas between them. -/
def body (s : Signature) : String := String.intercalate ", " (s.map Parameter.text)

/-- The signature in parentheses. -/
def text (s : Signature) : String := "(" ++ s.body ++ ")"

/-- The signature with the type of every parameter substituted. -/
def expand (t : Substitution) (s : Signature) : Signature := s.map (Parameter.expand t)

/-- A substitution renames no parameter. -/
@[simp] theorem names_expand (t : Substitution) (s : Signature) :
    (s.expand t).names = s.names := by
  simp [names, expand, Parameter.expand]

/-- A substitution acts on the types one by one. -/
@[simp] theorem types_expand (t : Substitution) (s : Signature) :
    (s.expand t).types = s.types.map t.apply := by
  simp [types, expand, Parameter.expand]

/-- A substitution keeps the number of parameters. -/
@[simp] theorem length_expand (t : Substitution) (s : Signature) :
    (s.expand t).length = s.length := by
  simp [expand]

end Signature

end OverloadDispatch
