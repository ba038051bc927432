import OverloadDispatch.QualifiedType.Basic

/-!
# Guards

A guard is the sequence of checks that a binding runs, when it is called, to decide whether one
overload takes the arguments. The host knows the number of positional arguments and the names of
the keyword arguments, and every check is phrased in those terms. A node says what is checked and
not how the check is written.
-/

namespace OverloadDispatch

/-- One step of a guard. Where a node has parts, any node may stand as a part. -/
inductive Node where
  /-- Report that the overload does not apply, in the manner of a void or a value callable. -/
  | noMatch (isVoid : Bool)
  /-- Abort the whole dispatch with a host exception. -/
  | raise (exception message : String)
  /-- Run the part when no keyword is supplied and the number of arguments is listed. -/
  | ambiguityCheck (arities : List Int) (onHit : Node)
  /-- Run the part when the number of arguments is another one. -/
  | arityCheck (arity : Int) (onMismatch : Node)
  /-- Bind the positional arguments to the names in order, then the keyword arguments over them. -/
  | bindParams (names : List String)
  /-- Check and convert the value bound to a name. -/
  | coerce (name : String) (type : QualifiedType)
  /-- Run every coercion, and the last part if one of them fails. -/
  | coerceAll (coercions : List Node) (onFailure : Node)
  /-- Report a match by handing the converted values to the native call. -/
  | invoke (index : Int) (names : List String) (isVoid : Bool) (callee : String)
  /-- A step without a meaning, which no dialect can write. -/
  | placeholder
  /-- A whole guard in the place of a step, which no dialect can write. -/
  | fragment (nodes : List Node)
  deriving Repr

/-- A straight sequence of steps. -/
abbrev Guard := List Node

/-- One overload as it is tried: its guard, and the step that reports the match. -/
structure Resolver where
  /-- The name of the resolver. -/
  name : String
  /-- The checks that decide whether the overload applies. -/
  guard : Guard
  /-- The step that reports the match. -/
  invoke : Node
  deriving Repr

/-- The entry point of an overload set: one check for all, then the overloads in order. -/
structure Dispatcher where
  /-- The name of the entry point. -/
  name : String
  /-- Whether the callable returns no value. -/
  isVoid : Bool
  /-- The check that may abort the dispatch before an overload is tried. -/
  ambiguity : Guard
  /-- The overloads in the order in which they are tried. -/
  resolvers : List Resolver
  deriving Repr

namespace Node

/-- The message of an ambiguous call. -/
def ambiguousMessage : String :=
  "Overloads with the same number of arguments exist. " ++
    "Please use keyword arguments to differentiate them!"

/-- The usual part of an ambiguity check. -/
def ambiguousCall : Node := raise "TypeError" ambiguousMessage

/-- Whether an ambiguity check hits a call: no keyword is supplied and the number of all arguments
is listed. Any keyword is taken as enough to tell the overloads apart. -/
def fires (arities : List Int) (positional keywords : Int) : Bool :=
  keywords == 0 && arities.contains (positional + keywords)

/-- Whether an arity check lets a call pass: the number of all arguments is the arity. -/
def accepts (arity positional keywords : Int) : Bool := positional + keywords == arity

/-- Whether the node is an ambiguity check that hits a call. -/
def hits (positional keywords : Int) : Node → Bool
  | ambiguityCheck arities _ => fires arities positional keywords
  | _ => false

/-- Whether the node lets a call pass by its number of arguments. -/
def admits (positional keywords : Int) : Node → Bool
  | arityCheck arity _ => accepts arity positional keywords
  | _ => true

mutual

/-- The types to which the coercions of a node and of its parts convert. -/
def types : Node → List QualifiedType
  | noMatch _ => []
  | raise _ _ => []
  | ambiguityCheck _ onHit => types onHit
  | arityCheck _ onMismatch => types onMismatch
  | bindParams _ => []
  | coerce _ type => [type]
  | coerceAll coercions onFailure => typesAll coercions ++ types onFailure
  | invoke _ _ _ _ => []
  | placeholder => []
  | fragment nodes => typesAll nodes

/-- The types to which the coercions of several nodes convert. -/
def typesAll : List Node → List QualifiedType
  | [] => []
  | node :: rest => types node ++ typesAll rest

end

end Node

namespace Guard

/-- Whether an ambiguity check of the guard hits a call. -/
def hits (g : Guard) (positional keywords : Int) : Bool := g.any (Node.hits positional keywords)

/-- Whether all arity checks of the guard let a call pass. -/
def admits (g : Guard) (positional keywords : Int) : Bool := g.all (Node.admits positional keywords)

end Guard

end OverloadDispatch
