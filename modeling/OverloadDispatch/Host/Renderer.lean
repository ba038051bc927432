import OverloadDispatch.Guard.Node
import OverloadDispatch.Host.Dialect

/-!
# Writing guards

A renderer turns a guard into lines. It decides nothing about calls: what is checked, and in which
order, was fixed when the guard was built. A renderer without a dialect writes what both dialects
share and refuses the rest. A level that cannot be written is the first fault of a node that stands
at it, whatever the node is.
-/

namespace OverloadDispatch

/-- How guards are written. -/
structure Renderer where
  /-- The dialect, if one is chosen. -/
  dialect : Option Dialect
  /-- The unit of indentation. -/
  unit : String
  /-- The level of a guard that is written by itself. -/
  level : Int
  /-- The checks of the basic types. -/
  checks : HostTable
  /-- The most characters that memory holds for the copies of the unit, if memory is bounded. -/
  capacity : Option Nat
  deriving Repr

namespace Renderer

/-- The dialect, or the fault that there is none. -/
def requireDialect (r : Renderer) : Except Fault Dialect :=
  match r.dialect with
  | some d => .ok d
  | none => .error .noDialect

/-- The fault of a level that cannot be written in the renderer's unit, if it cannot. -/
def requireLevel (r : Renderer) (level : Int) : Except Fault Unit :=
  Line.requireLevel r.capacity r.unit level

/-- The lines that check and convert the value of a basic or array type. -/
def checkedLines (r : Renderer) (level : Int) (name : String) (t : QualifiedType) :
    Except Fault (List Line) := do
  let check ← r.checks.check t
  let dialect ← r.requireDialect
  let conversion := (dialect.conversion? name t check).toList
  return [⟨level, 0, .fetch name⟩, ⟨level, 0, .ifFails name check⟩, ⟨level, 1, .raiseValue name⟩] ++
    conversion.map fun statement => ⟨level, 0, statement⟩

/-- The lines that check and convert the value bound to a name. -/
def coercionLines (r : Renderer) (level : Int) (name : String) (t : QualifiedType) :
    Except Fault (List Line) :=
  match t.category with
  | .wrapped => do return (← r.requireDialect).wrappedLines level name t
  | _ => r.checkedLines level name t

/-- A coercion is the test for a wrapped class in one of the dialects, or a host check with the
conversion behind it. -/
theorem coercionLines_cases {r : Renderer} {level : Int} {name : String} {t : QualifiedType}
    {lines : List Line} (h : r.coercionLines level name t = .ok lines) :
    (t.category = .wrapped ∧ ∃ d : Dialect, lines = d.wrappedLines level name t) ∨
      (t.category ≠ .wrapped ∧ ∃ check, ∃ conversion : List Statement,
        r.checks.check t = .ok check ∧
        (∀ statement ∈ conversion, (∃ typeName, statement = .cast name typeName) ∨
          ∃ converter, statement = .convert name converter) ∧
        lines = [⟨level, 0, .fetch name⟩, ⟨level, 0, .ifFails name check⟩,
            ⟨level, 1, .raiseValue name⟩] ++
          conversion.map fun statement => ⟨level, 0, statement⟩) := by
  unfold coercionLines at h
  split at h
  · next hwrapped =>
    obtain ⟨d, -, h⟩ := bind_eq_ok_iff.mp h
    exact .inl ⟨hwrapped, d, (Except.ok.inj h).symm⟩
  · next hcategory =>
    obtain ⟨check, hcheck, h⟩ := bind_eq_ok_iff.mp h
    obtain ⟨d, -, h⟩ := bind_eq_ok_iff.mp h
    refine .inr ⟨hcategory, check, (d.conversion? name t check).toList, hcheck, ?_,
      (Except.ok.inj h).symm⟩
    exact fun statement hstatement => Dialect.conversion?_cases (Option.mem_toList.mp hstatement)

/-- The lines that report a match. -/
def invokeLines (level : Int) (index : Int) (names : List String) (isVoid : Bool)
    (callee : String) : List Line :=
  if isVoid then [⟨level, 0, .call callee index names⟩, ⟨level, 0, .returnMatch⟩]
  else [⟨level, 0, .returnCall callee index names⟩]

mutual

/-- The lines of one node at a level, which is looked at before the node is. -/
def nodeLines (r : Renderer) (level : Int) (node : Node) : Except Fault (List Line) := do
  r.requireLevel level
  match node with
  | .noMatch isVoid => return [⟨level, 0, .returnNoMatch isVoid⟩]
  | .raise exception message => return [⟨level, 0, .raise exception message⟩]
  | .ambiguityCheck arities onHit =>
    let dialect ← r.requireDialect
    let body ← nodeLines r (level + 1) onHit
    return ⟨level, 0, .ifAmbiguous dialect.spaced arities⟩ :: body
  | .arityCheck arity onMismatch =>
    let dialect ← r.requireDialect
    let body ← nodeLines r (level + 1) onMismatch
    return ⟨level, 0, .ifArity dialect.spaced arity⟩ :: body
  | .bindParams names =>
    return [⟨level, 0, .bindNames names⟩, ⟨level, 0, .bindPositional⟩, ⟨level, 0, .bindKeywords⟩]
  | .coerce name type => r.coercionLines level name type
  | .coerceAll coercions onFailure =>
    let body ← guardLines r (level + 1) coercions
    let answer ← nodeLines r (level + 1) onFailure
    return ⟨level, 0, .openTry⟩ :: body ++ ⟨level, 0, .openExcept⟩ :: answer
  | .invoke index names isVoid callee => return invokeLines level index names isVoid callee
  | .placeholder => .error (.unsupportedNode "GuardNode")
  | .fragment _ => .error (.unsupportedNode "Guard")

/-- The lines of a sequence of nodes at a level. -/
def guardLines (r : Renderer) (level : Int) : List Node → Except Fault (List Line)
  | [] => .ok []
  | node :: rest => do
    let first ← nodeLines r level node
    let others ← guardLines r level rest
    return first ++ others

end

/-- The lines of the loop that tries the resolvers in order. -/
def loopLines (level : Int) (isVoid : Bool) (names : List String) : List Line :=
  ⟨level, 0, .openLoop names⟩ ::
    if isVoid then [⟨level + 1, 0, .ifResolved⟩, ⟨level + 1, 1, .leave⟩]
    else
      [⟨level + 1, 0, .resolve⟩, ⟨level + 1, 0, .ifMatched⟩, ⟨level + 1, 1, .leaveWithResult⟩]

/-- The lines of a resolver. -/
def resolverLines (r : Renderer) (level : Int) (resolver : Resolver) :
    Except Fault (List Line) := do
  let guard ← r.guardLines (level + 1) resolver.guard
  let report ← r.nodeLines (level + 1) resolver.invoke
  return ⟨level, 0, .defineResolver resolver.name⟩ :: guard ++ report

/-- The lines of a sequence of resolvers. -/
def resolversLines (r : Renderer) (level : Int) : List Resolver → Except Fault (List Line)
  | [] => .ok []
  | resolver :: rest => do
    let first ← r.resolverLines level resolver
    let others ← resolversLines r level rest
    return first ++ others

/-- The lines of an entry point at a level. The level of the loop's body is looked at last, after
every guard. -/
def dispatcherLines (r : Renderer) (level : Int) (d : Dispatcher) : Except Fault (List Line) := do
  r.requireLevel level
  r.requireLevel (level + 1)
  let ambiguity ← r.guardLines (level + 1) d.ambiguity
  let resolvers ← r.resolversLines (level + 1) d.resolvers
  r.requireLevel (level + 2)
  return ⟨level, 0, .defineEntry d.name⟩ :: ambiguity ++ resolvers ++
    loopLines (level + 1) d.isVoid (d.resolvers.map Resolver.name) ++
    [⟨level + 1, 0, .raiseNoOverload d.name⟩]

/-- The text of a guard at a level, or at the renderer's own level. -/
def guardText (r : Renderer) (g : Guard) (level : Option Int) : Except Fault String := do
  let lines ← r.guardLines (level.getD r.level) g
  return Line.blockText r.unit lines

/-- The text of an entry point at a level. -/
def dispatcherText (r : Renderer) (d : Dispatcher) (level : Int) : Except Fault String := do
  let lines ← r.dispatcherLines level d
  return Line.blockText r.unit lines

end Renderer

end OverloadDispatch
