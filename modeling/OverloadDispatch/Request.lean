import OverloadDispatch.Callable

/-!
# Requests to a callable

A callable is worked on by requests, one after the other: declarations with and without a
signature, signatures pushed straight to its overload set, and instantiations. The effects of a
request take place one by one, and a fault takes none of them back. That a refused declaration
changes nothing is therefore a fact about the order of its effects, stated by `exec_declare` and
`exec_add`, which also say what the effects come to.
-/

namespace OverloadDispatch

/-- A callable and what the reader has been told about it. -/
structure Session where
  /-- The callable as it stands. -/
  callable : Callable := {}
  /-- The notices in the order in which they were given. -/
  notices : List String := []
  deriving DecidableEq, Repr

/-- Effects on a session; a fault stops them and leaves the session as it has become by then. -/
abbrev Effect (α : Type) := ExceptT Fault (StateM Session) α

namespace Effect

variable {α β : Type}

/-- What effects end with, and the session in which they leave off. -/
def exec (effect : Effect α) (session : Session) : Except Fault α × Session :=
  effect.run.run session

/-- Change the callable. -/
def change (f : Callable → Callable) : Effect Unit :=
  modify fun session => { session with callable := f session.callable }

/-- Tell the reader something. -/
def notify (notice : String) : Effect Unit :=
  modify fun session => { session with notices := session.notices ++ [notice] }

@[simp] theorem exec_pure (a : α) (session : Session) :
    exec (pure a) session = (.ok a, session) := rfl

@[simp] theorem exec_throw (fault : Fault) (session : Session) :
    exec (throw fault : Effect α) session = (.error fault, session) := rfl

@[simp] theorem exec_get (session : Session) : exec get session = (.ok session, session) := rfl

@[simp] theorem exec_change (f : Callable → Callable) (session : Session) :
    exec (change f) session = (.ok (), { session with callable := f session.callable }) := rfl

@[simp] theorem exec_notify (notice : String) (session : Session) :
    exec (notify notice) session =
      (.ok (), { session with notices := session.notices ++ [notice] }) := rfl

/-- What follows a fault does not take place, and what came before it stays. -/
@[simp] theorem exec_bind (effect : Effect α) (next : α → Effect β) (session : Session) :
    exec (effect >>= next) session =
      match effect.exec session with
      | (.ok a, later) => (next a).exec later
      | (.error fault, later) => (.error fault, later) := by
  simp only [exec, ExceptT.run_bind, StateT.run_bind]
  rcases effect.run.run session with ⟨_ | a, later⟩ <;> rfl

/-- A change of the value is no effect. -/
@[simp] theorem exec_map (f : α → β) (effect : Effect α) (session : Session) :
    exec (f <$> effect) session = ((effect.exec session).1.map f, (effect.exec session).2) := by
  rw [map_eq_pure_bind, exec_bind]
  rcases effect.exec session with ⟨_ | a, later⟩ <;> rfl

end Effect

namespace Session

open Effect

/-- Fix the identity, or check a repeated declaration against it; whether it was the first. -/
def declare (name : String) (inst : Option QualifiedType) (isVerbose : Bool) : Effect Bool := do
  if name = "" then throw .unnamedCallable
  let got : Identity := ⟨name, inst⟩
  match (← get).callable.identity with
  | none =>
    change fun c => { c with identity := some got }
    change fun c => { c with isVerbose := isVerbose }
    if isVerbose then notify (Callable.firstNotice name)
    return true
  | some known =>
    if got ≠ known then throw (.issue (.identityConflict name known.text got.text))
    return false

/-- Declare a signature: first the identity, then the signature. -/
def add (name : String) (s : Signature) (inst : Option QualifiedType) (isVerbose : Bool) :
    Effect Bool := do
  let isFirst ← declare name inst isVerbose
  change fun c => c.push s
  return isFirst

/-- The session after a declaration that was accepted or refused, and the answer. -/
def settle (session : Session) : Except Fault Declaration → Except Fault Bool × Session
  | .ok d => (.ok d.isFirst, ⟨d.callable, session.notices ++ d.notices⟩)
  | .error fault => (.error fault, session)

/-- The effects of a declaration come to what the declaration is, and a refusal has none. -/
theorem exec_declare (name : String) (inst : Option QualifiedType) (isVerbose : Bool)
    (session : Session) :
    (declare name inst isVerbose).exec session =
      session.settle (session.callable.declare name inst isVerbose) := by
  rw [declare, Callable.declare]
  by_cases hname : name = ""
  · simp [hname, settle]
  · cases hidentity : session.callable.identity with
    | none => cases isVerbose <;> simp [hname, hidentity, settle, Except.map]
    | some known =>
      by_cases hknown : known = ⟨name, inst⟩
      · simp [hname, hidentity, hknown, settle]
      · simp [hname, hidentity, hknown, Ne.symm hknown, settle]

/-- The effects of declaring a signature come to what that is, and a refusal has none. -/
theorem exec_add (name : String) (s : Signature) (inst : Option QualifiedType)
    (isVerbose : Bool) (session : Session) :
    (add name s inst isVerbose).exec session =
      session.settle (session.callable.add name s inst isVerbose) := by
  rw [add, exec_bind, exec_declare, Callable.add]
  cases session.callable.declare name inst isVerbose <;> rfl

end Session

/-- What may be asked of a callable. -/
inductive Request where
  /-- Declare a signature. -/
  | add (name : String) (s : Signature) (inst : Option QualifiedType) (isVerbose : Bool)
  /-- Fix the identity, or check a declaration against it. -/
  | check (name : String) (inst : Option QualifiedType) (isVerbose : Bool)
  /-- Add a signature straight to the overload set. -/
  | push (s : Signature)
  /-- Instantiate the overload set. -/
  | expand (t : Substitution)
  deriving DecidableEq, Repr

/-- How a request is answered: a declaration is told whether it was the first. -/
abbrev Answer := Except Fault (Option Bool)

namespace Request

/-- The effects of a request. -/
def effect : Request → Effect (Option Bool)
  | add name s inst isVerbose => some <$> Session.add name s inst isVerbose
  | check name inst isVerbose => some <$> Session.declare name inst isVerbose
  | push s => do
    Effect.change fun c => c.push s
    return none
  | expand t => do
    Effect.change fun c => c.expand t
    return none

/-- The identity under which a request declares, and whether it asks for a notice. -/
def declares? : Request → Option (Identity × Bool)
  | add name _ inst isVerbose => some (⟨name, inst⟩, isVerbose)
  | check name inst isVerbose => some (⟨name, inst⟩, isVerbose)
  | push _ => none
  | expand _ => none

/-- What a request declares under a name that is not empty. -/
def named? (r : Request) : Option (Identity × Bool) := r.declares?.filter fun d => d.1.name ≠ ""

/-- Whether a request with the given answer has added a signature. -/
def adds : Request → Answer → Bool
  | add _ _ _ _, answer => answer.toBool
  | check _ _ _, _ => false
  | push _, _ => true
  | expand _, _ => false

end Request

namespace Session

/-- How a request is answered. -/
def answer (session : Session) (r : Request) : Answer := (r.effect.exec session).1

/-- The session after a request. -/
def after (session : Session) (r : Request) : Session := (r.effect.exec session).2

/-- The session after requests to a fresh callable. -/
def run (requests : List Request) : Session := requests.foldl after {}

/-- The answers to requests, one for each. -/
def answers (session : Session) : List Request → List Answer
  | [] => []
  | r :: rest => session.answer r :: (session.after r).answers rest

end Session

end OverloadDispatch
