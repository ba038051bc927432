import OverloadDispatch.Guard.Node
import OverloadDispatch.Sequence.Table

/-!
# The meaning of guards

A guard is run against a call: positional values and values under keywords. Coercion is left open
as a partial conversion from host values to native values. A run passes a node, or ends with a
report that the overload does not apply, with a match, or with an exception. A dispatcher aborts
where its ambiguity check does, and otherwise takes the first resolver that reports a match.
-/

namespace OverloadDispatch

/-- What a caller supplies. -/
structure Call (α : Type) where
  /-- The positional values in order. -/
  positional : List α
  /-- The values under keywords. -/
  keywords : Table α
  deriving DecidableEq, Repr

namespace Call

variable {α : Type}

/-- The number of positional values. -/
def positionalCount (call : Call α) : Int := call.positional.length

/-- The number of keywords. -/
def keywordCount (call : Call α) : Int := call.keywords.length

/-- The slots of the given names: the positional values in order, as far as both go, and then all
keyword values over them. A keyword that is none of the names adds a slot of its own. -/
def bind (call : Call α) (names : List String) : Table α :=
  (Table.insertAll [] (names.zip call.positional)).insertAll call.keywords

end Call

/-- The conversion of host values to native values of a declared type, which may refuse a value. -/
abbrev Conversion (α β : Type) := QualifiedType → α → Option β

/-- What a run of a guard has bound and converted so far. -/
structure Frame (α β : Type) where
  /-- The slots of the parameters. -/
  slots : Table α := []
  /-- The converted values. -/
  values : Table β := []
  deriving DecidableEq, Repr

/-- How a step of a guard ends. -/
inductive Outcome (α β : Type) where
  /-- The next step follows. -/
  | next (frame : Frame α β)
  /-- The overload does not apply. -/
  | noMatch
  /-- The overload with the given index is called with the given values. -/
  | matched (index : Int) (values : List β)
  /-- The call is aborted with an exception. -/
  | raised (exception message : String)
  /-- A value is missing or refused, or the step has no meaning. -/
  | failed
  deriving DecidableEq, Repr

namespace Node

variable {α β : Type}

/-- Convert the value in a slot, if there is one. -/
def runCoercion (convert : Conversion α β) (frame : Frame α β) (name : String)
    (type : QualifiedType) : Outcome α β :=
  match (frame.slots.find? name).bind (convert type) with
  | some value => .next { frame with values := frame.values.insert name value }
  | none => .failed

/-- Report a match with the converted values of the given names. -/
def runInvocation (frame : Frame α β) (index : Int) (names : List String) : Outcome α β :=
  match names.mapM frame.values.find? with
  | some values => .matched index values
  | none => .failed

mutual

/-- Run one node. An exception among coercions is answered like a refused value. -/
def run (call : Call α) (convert : Conversion α β) (frame : Frame α β) : Node → Outcome α β
  | .noMatch _ => .noMatch
  | .raise exception message => .raised exception message
  | .ambiguityCheck arities onHit =>
    if fires arities call.positionalCount call.keywordCount then run call convert frame onHit
    else .next frame
  | .arityCheck arity onMismatch =>
    if accepts arity call.positionalCount call.keywordCount then .next frame
    else run call convert frame onMismatch
  | .bindParams names => .next { frame with slots := call.bind names }
  | .coerce name type => runCoercion convert frame name type
  | .coerceAll coercions onFailure =>
    match runAll call convert frame coercions with
    | .next frame => .next frame
    | .noMatch => .noMatch
    | .matched index values => .matched index values
    | .raised _ _ => run call convert frame onFailure
    | .failed => run call convert frame onFailure
  | .invoke index names _ _ => runInvocation frame index names
  | .placeholder => .failed
  | .fragment _ => .failed

/-- Run nodes in order until one of them ends the run. -/
def runAll (call : Call α) (convert : Conversion α β) (frame : Frame α β) :
    List Node → Outcome α β
  | [] => .next frame
  | node :: rest =>
    match run call convert frame node with
    | .next frame => runAll call convert frame rest
    | .noMatch => .noMatch
    | .matched index values => .matched index values
    | .raised exception message => .raised exception message
    | .failed => .failed

end

end Node

namespace Resolver

variable {α β : Type}

/-- Run the guard of a resolver and then its report. -/
def run (call : Call α) (convert : Conversion α β) (r : Resolver) : Outcome α β :=
  Node.runAll call convert {} (r.guard ++ [r.invoke])

end Resolver

/-- How a call of an entry point ends. -/
inductive Verdict (β : Type) where
  /-- The overload with the given index is called with the given values. -/
  | called (index : Int) (values : List β)
  /-- The call is aborted with an exception. -/
  | aborted (exception message : String)
  /-- No overload takes the call. -/
  | noOverload
  /-- A step went wrong outside every answer to a failure. -/
  | broken
  deriving DecidableEq, Repr

namespace Dispatcher

variable {α β : Type}

/-- Try resolvers in order until one of them does more than not apply. -/
def tryAll (call : Call α) (convert : Conversion α β) : List Resolver → Verdict β
  | [] => .noOverload
  | resolver :: rest =>
    match resolver.run call convert with
    | .noMatch => tryAll call convert rest
    | .matched index values => .called index values
    | .raised exception message => .aborted exception message
    | .next _ => .broken
    | .failed => .broken

/-- Run the check that stands before all overloads, and then try the overloads. -/
def run (call : Call α) (convert : Conversion α β) (d : Dispatcher) : Verdict β :=
  match Node.runAll call convert {} d.ambiguity with
  | .next _ => tryAll call convert d.resolvers
  | .raised exception message => .aborted exception message
  | .noMatch => .broken
  | .matched _ _ => .broken
  | .failed => .broken

end Dispatcher

end OverloadDispatch
