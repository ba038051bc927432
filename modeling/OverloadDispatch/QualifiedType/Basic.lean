/-!
# Qualified types

A declared type is a non-empty name inside a chain of namespaces, outermost first, together with
the category that decides how a value of the type is checked on the host side.
-/

namespace OverloadDispatch

/-- How the host treats the values of a type. -/
inductive Category where
  /-- An instance of a wrapped class. -/
  | wrapped
  /-- A dense array of the linear algebra. -/
  | array
  /-- A built-in scalar or string, passed by value. -/
  | basic
  /-- No value at all. -/
  | void
  deriving DecidableEq, Repr

/-- The built-in types that are passed by value. -/
def basicNames : List String :=
  ["string", "bool", "char", "unsigned char", "int", "size_t", "double", "Key"]

/-- The linear algebra types that appear as arrays on the host side. -/
def arrayNames : List String := ["Vector", "Matrix"]

/-- The category of a type by its spelling; inside a namespace every type is a wrapped class. -/
def classify (name : String) (namespaces : List String) : Category :=
  if namespaces ≠ [] then .wrapped
  else if name = "void" then .void
  else if name ∈ basicNames then .basic
  else if name ∈ arrayNames then .array
  else .wrapped

/-- A type name with its namespaces, outermost first. -/
structure QualifiedType where
  /-- The innermost name. -/
  name : String
  /-- The enclosing namespaces. -/
  namespaces : List String := []
  /-- How a value of the type is checked. -/
  category : Category := .wrapped
  /-- A type has a name. -/
  name_ne_empty : name ≠ "" := by decide
  deriving DecidableEq, Repr

namespace QualifiedType

/-- The type with the category that its spelling suggests. -/
def classified (name : String) (namespaces : List String) (h : name ≠ "") : QualifiedType :=
  ⟨name, namespaces, classify name namespaces, h⟩

/-- The namespaces and the name, in the order in which they are written. -/
def components (t : QualifiedType) : List String := t.namespaces ++ [t.name]

/-- The components with a delimiter between them. -/
def joined (t : QualifiedType) (delimiter : String) : String :=
  String.intercalate delimiter t.components

/-- The spelling of the type in a declaration. -/
def qualified (t : QualifiedType) : String := t.joined "::"

/-- Whether the type is built in and passed by value. -/
def isBasic (t : QualifiedType) : Bool := t.category == .basic

/-- The class of the arrays on the host side. -/
def arrayClass : String := "np.ndarray"

/-- The name of the type on the host side. A wrapped class leaves out its outermost namespace and
joins the others to its name by underscores. -/
def hostSpelling (t : QualifiedType) : String :=
  match t.category with
  | .array => arrayClass
  | .wrapped => String.intercalate "_" (t.namespaces.drop 1 ++ [t.name])
  | .basic => t.name
  | .void => t.name

/-- Two types are equal exactly when name, namespaces and category agree. -/
theorem eq_iff {s t : QualifiedType} :
    s = t ↔ s.name = t.name ∧ s.namespaces = t.namespaces ∧ s.category = t.category := by
  cases s
  cases t
  simp

end QualifiedType

end OverloadDispatch
