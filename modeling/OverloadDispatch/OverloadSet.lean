import OverloadDispatch.Guard.Build
import OverloadDispatch.Host.Options

/-!
# Overload sets

An overload set holds the signatures declared for one callable, in the order of declaration. The
declared signatures are kept beside those that are held, so that every instantiation starts from
the declarations and instantiations do not stack.
-/

namespace OverloadDispatch

/-- The signatures of one callable. -/
structure OverloadSet where
  /-- The signatures as they were declared. -/
  declared : List Signature := []
  /-- The signatures as they stand now. -/
  held : List Signature := []
  deriving DecidableEq, Repr

namespace OverloadSet

/-- Add a declaration at the end; a signature that is there already is added again. -/
def push (o : OverloadSet) (s : Signature) : OverloadSet :=
  ⟨o.declared ++ [s], o.held ++ [s]⟩

/-- The declared signatures under a substitution. -/
def expanded (o : OverloadSet) (t : Substitution) : List Signature :=
  o.declared.map (Signature.expand t)

/-- Replace the held signatures by the declared ones under a substitution. -/
def expand (o : OverloadSet) (t : Substitution) : OverloadSet := { o with held := o.expanded t }

/-- A declaration is added to both lists alike. -/
@[simp] theorem declared_push (o : OverloadSet) (s : Signature) :
    (o.push s).declared = o.declared ++ [s] := rfl

/-- A declaration is held as it was declared, whatever was instantiated before. -/
@[simp] theorem held_push (o : OverloadSet) (s : Signature) :
    (o.push s).held = o.held ++ [s] := rfl

/-- An instantiation keeps the declarations. -/
@[simp] theorem declared_expand (o : OverloadSet) (t : Substitution) :
    (o.expand t).declared = o.declared := rfl

/-- An instantiation starts from the declarations. -/
@[simp] theorem held_expand (o : OverloadSet) (t : Substitution) :
    (o.expand t).held = o.declared.map (Signature.expand t) := rfl

/-- The number of held signatures. -/
def size (o : OverloadSet) : Nat := o.held.length

/-- The held signature at an index, which is counted from the front only. -/
def signature (o : OverloadSet) (i : Int) : Except Fault Signature :=
  if i < 0 then .error (.noOverload i o.size)
  else
    match o.held[i.toNat]? with
    | some s => .ok s
    | none => .error (.noOverload i o.size)

/-- The types of all held parameters, signature by signature. -/
def types (o : OverloadSet) : List QualifiedType := o.held.flatMap Signature.types

/-- The spelling of the first held type that is not among the valid ones. -/
def firstMissing? (o : OverloadSet) (valid : List String) : Option String :=
  (o.types.map QualifiedType.qualified).find? fun spelling => !valid.contains spelling

/-- Check that every held type is among the valid spellings, on behalf of the named context. -/
def verify (o : OverloadSet) (valid : List String) (context : String) : Except Issue Unit :=
  match o.firstMissing? valid with
  | some spelling => .error (.missingDependency spelling ("checking argument of " ++ context))
  | none => .ok ()

/-- A check passes exactly if every held type is among the valid spellings, whatever the context. -/
theorem verify_eq_ok_iff {o : OverloadSet} {valid : List String} {context : String} :
    o.verify valid context = .ok () ↔ ∀ type ∈ o.types, type.qualified ∈ valid := by
  have hnone : o.firstMissing? valid = none ↔ ∀ type ∈ o.types, type.qualified ∈ valid := by
    simp [firstMissing?]
  rw [← hnone, verify]
  cases o.firstMissing? valid <;> simp

/-- The lengths that several held signatures share. -/
def duplicateArities (o : OverloadSet) : List Nat := OverloadDispatch.duplicateArities o.held

/-- The check for calls that several held signatures would take. -/
def ambiguityGuard (o : OverloadSet) : Guard := Guard.ambiguity o.held

/-- The entry point of the held signatures. -/
def dispatcher (o : OverloadSet) (name : String) (isVoid : Bool) (callee : String) : Dispatcher :=
  Dispatcher.build name o.held isVoid callee

/-- The options of a fragment for an extension module, at a level. -/
def fragmentOptions (level : Int) : SourceOptions where
  dialectName := Dialect.compiled.name
  level := some level

/-- The source of the ambiguity check as a fragment of an extension module. -/
def ambiguitySource (o : OverloadSet) (level : Int) (capacity : Option Nat) :
    Except Fault String :=
  o.ambiguityGuard.source (fragmentOptions level) capacity

/-- The source of the checks of one signature as a fragment of an extension module. -/
def signatureSource (s : Signature) (isVoid : Bool) (level : Int) (capacity : Option Nat) :
    Except Fault String :=
  (Guard.dispatch s isVoid).source (fragmentOptions level) capacity

/-- The usual level of a fragment. -/
def fragmentLevel : Int := 2

/-- The held signatures, one on each line. -/
def text (o : OverloadSet) : String := String.join (o.held.map fun s => s.text ++ "\n")

end OverloadSet

end OverloadDispatch
