import OverloadDispatch.Guard.Node
import OverloadDispatch.Sequence.Repeats
import OverloadDispatch.Signature.Basic

/-!
# Guards of declared signatures

Signatures of distinct lengths are told apart by the number of arguments, so the arity check comes
first in the guard of every signature. Signatures that share a length cannot be told apart by
position; for those lengths one ambiguity check stands before all guards, and it alone may abort
the dispatch.
-/

namespace OverloadDispatch

/-- The name under which a module provides its native calls. -/
def nativeCallee : String := "__call_native"

/-- The lengths that several signatures share, by the second signature of each length. -/
def duplicateArities (signatures : List Signature) : List Nat :=
  Sequence.repeats (signatures.map List.length)

namespace Guard

/-- The check for calls that several signatures would take; empty when all lengths differ. -/
def ambiguity (signatures : List Signature) : Guard :=
  match duplicateArities signatures with
  | [] => []
  | arities => [.ambiguityCheck (arities.map Int.ofNat) Node.ambiguousCall]

/-- The coercion of a parameter to its declared type. -/
def coercion (p : Parameter) : Node := .coerce p.name p.type

/-- The checks of one signature: the arity, then binding and coercion of its parameters, if any. -/
def dispatch (s : Signature) (isVoid : Bool) : Guard :=
  .arityCheck s.length (.noMatch isVoid) ::
    match s with
    | [] => []
    | params =>
      [.bindParams (Signature.names params),
        .coerceAll (params.map coercion) (.noMatch isVoid)]

end Guard

/-- The resolver of the signature at an index. -/
def Resolver.build (name : String) (isVoid : Bool) (callee : String) (s : Signature)
    (index : Nat) : Resolver where
  name := name ++ "_" ++ toString index
  guard := Guard.dispatch s isVoid
  invoke := .invoke index s.names isVoid callee

/-- The entry point of a list of signatures, with one resolver each in the order of declaration. -/
def Dispatcher.build (name : String) (signatures : List Signature) (isVoid : Bool)
    (callee : String) : Dispatcher where
  name := name
  isVoid := isVoid
  ambiguity := Guard.ambiguity signatures
  resolvers := signatures.zipIdx.map fun (s, i) => Resolver.build name isVoid callee s i

end OverloadDispatch
