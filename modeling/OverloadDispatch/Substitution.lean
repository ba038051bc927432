import OverloadDispatch.QualifiedType.Basic

/-!
# Template substitutions

A substitution replaces one placeholder by a concrete type. When a whole class is instantiated,
the placeholder `This` is replaced by the resulting class as well. Only names without namespaces
are placeholders.
-/

namespace OverloadDispatch

/-- The placeholder that stands for the class being instantiated. -/
def thisName : String := "This"

/-- The replacement of a placeholder, and of `This` when a class is given. -/
structure Substitution where
  /-- The placeholder as it is written in the declaration. -/
  placeholder : String
  /-- The type that the placeholder becomes. -/
  target : QualifiedType
  /-- The class that `This` becomes, when a class template is instantiated. -/
  thisClass : Option QualifiedType := none
  deriving DecidableEq, Repr

namespace Substitution

/-- The type that a substitution makes of a type. -/
def apply (s : Substitution) (t : QualifiedType) : QualifiedType :=
  if t.namespaces ≠ [] then t
  else if t.name = s.placeholder then s.target
  else if t.name = thisName then s.thisClass.getD t
  else t

/-- The placeholder and the spelling of its target. -/
def text (s : Substitution) : String := s.placeholder ++ " -> " ++ s.target.qualified

/-- A type inside a namespace is no placeholder. -/
theorem apply_of_namespaces {s : Substitution} {t : QualifiedType} (h : t.namespaces ≠ []) :
    s.apply t = t := by
  simp [apply, h]

/-- The placeholder becomes the target. -/
theorem apply_of_placeholder {s : Substitution} {t : QualifiedType} (h : t.namespaces = [])
    (hn : t.name = s.placeholder) : s.apply t = s.target := by
  simp [apply, h, hn]

end Substitution

end OverloadDispatch
