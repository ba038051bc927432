import OverloadDispatch.OverloadSet
import OverloadDispatch.QualifiedType.Spelling
import OverloadDispatch.Signature.Reader

/-!
# Callables

A callable binds an overload set to an identity: a name and, for an instance of a template, the
type of the instance. The first declaration fixes the identity, and every later one has to agree
with it. A declaration that is refused leaves the callable as it was.
-/

namespace OverloadDispatch

/-- The name and the instance to which an overload set belongs. -/
structure Identity where
  /-- The declared name. -/
  name : String
  /-- The type of the template instance, if there is one. -/
  inst : Option QualifiedType
  deriving DecidableEq, Repr

/-- An identity as it appears in messages. -/
def Identity.text (i : Identity) : String :=
  match i.inst with
  | none => "'" ++ i.name ++ "'"
  | some t => "'" ++ i.name ++ "' with template argument " ++ t.joined ":"

/-- An overload set with the identity that its first declaration gave it. -/
structure Callable where
  /-- The identity, once a declaration has fixed it. -/
  identity : Option Identity := none
  /-- Whether the first declaration asked for a notice. -/
  isVerbose : Bool := false
  /-- The signatures. -/
  overloads : OverloadSet := {}
  deriving DecidableEq, Repr

/-- What a declaration does to a callable. -/
structure Declaration where
  /-- The callable afterwards. -/
  callable : Callable
  /-- Whether it was the first declaration. -/
  isFirst : Bool
  /-- What the reader is told meanwhile. -/
  notices : List String
  deriving DecidableEq, Repr

namespace Callable

/-- The declared name, empty before the first declaration. -/
def name (c : Callable) : String :=
  match c.identity with
  | none => ""
  | some i => i.name

/-- The type of the template instance. -/
def inst (c : Callable) : Option QualifiedType := c.identity.bind Identity.inst

/-- The name under which the callable appears on the host side. -/
def hostName (c : Callable) : String :=
  match c.inst with
  | none => c.name
  | some t => c.name ++ t.name

/-- The notice of a first declaration. -/
def firstNotice (name : String) : String := "Initialized " ++ name

/-- Fix the identity, or check a repeated declaration against it. -/
def declare (c : Callable) (name : String) (inst : Option QualifiedType) (isVerbose : Bool) :
    Except Fault Declaration :=
  if name = "" then .error .unnamedCallable
  else
    match c.identity with
    | none =>
      .ok ⟨{ c with identity := some ⟨name, inst⟩, isVerbose := isVerbose }, true,
        if isVerbose then [firstNotice name] else []⟩
    | some known =>
      if known = ⟨name, inst⟩ then .ok ⟨c, false, []⟩
      else .error (.issue (.identityConflict name known.text (Identity.text ⟨name, inst⟩)))

/-- An accepted declaration has a name, leaves the declared identity and keeps the signatures. -/
theorem accepted_declare {c : Callable} {name : String} {inst : Option QualifiedType}
    {isVerbose : Bool} {d : Declaration} (h : c.declare name inst isVerbose = .ok d) :
    name ≠ "" ∧ d.callable.identity = some ⟨name, inst⟩ ∧ d.callable.overloads = c.overloads := by
  simp only [declare] at h
  split at h
  · cases h
  · next hname =>
    split at h
    · cases h
      exact ⟨hname, rfl, rfl⟩
    · next known hknown =>
      split at h
      · next hsame =>
        cases h
        exact ⟨hname, hknown.trans (congrArg some hsame), rfl⟩
      · cases h

/-- A declaration keeps the signatures. -/
theorem overloads_of_declare {c : Callable} {name : String} {inst : Option QualifiedType}
    {isVerbose : Bool} {d : Declaration} (h : c.declare name inst isVerbose = .ok d) :
    d.callable.overloads = c.overloads :=
  (accepted_declare h).2.2

/-- Add a signature straight to the overload set. -/
def push (c : Callable) (s : Signature) : Callable := { c with overloads := c.overloads.push s }

/-- Declare a signature of the callable. -/
def add (c : Callable) (name : String) (s : Signature) (inst : Option QualifiedType)
    (isVerbose : Bool) : Except Fault Declaration := do
  let declared ← c.declare name inst isVerbose
  return { declared with callable := declared.callable.push s }

/-- An accepted declaration adds its signature to those that were there. -/
theorem overloads_of_add {c : Callable} {name : String} {s : Signature}
    {inst : Option QualifiedType} {isVerbose : Bool} {d : Declaration}
    (h : c.add name s inst isVerbose = .ok d) : d.callable.overloads = c.overloads.push s := by
  rw [add] at h
  cases hd : c.declare name inst isVerbose with
  | error fault =>
    rw [hd] at h
    exact nomatch h
  | ok declared =>
    rw [hd] at h
    cases h
    exact congrArg (OverloadSet.push · s) (overloads_of_declare hd)

/-- Instantiate the overload set. -/
def expand (c : Callable) (t : Substitution) : Callable :=
  { c with overloads := c.overloads.expand t }

/-- Check the held types on behalf of a context, which is the callable's name unless given. -/
def verify (c : Callable) (valid : List String) (context : Option String) : Except Issue Unit :=
  c.overloads.verify valid (context.getD c.name)

/-- The entry point of the callable. -/
def dispatcher (c : Callable) (isVoid : Bool) (callee : String) : Dispatcher :=
  c.overloads.dispatcher c.hostName isVoid callee

/-- The source of the entry point. -/
def source (c : Callable) (isVoid : Bool) (options : SourceOptions) (capacity : Option Nat) :
    Except Fault String :=
  (c.dispatcher isVoid nativeCallee).source options capacity

/-- The name on the host side and the held signatures, one on each line. -/
def text (c : Callable) : String := c.hostName ++ "\n" ++ c.overloads.text

/-- Read and declare further signatures, one after the other. -/
def addTexts (c : Callable) (name : String) (inst : Option QualifiedType) :
    List String → Except Fault Callable
  | [] => .ok c
  | text :: rest => do
    let s ← Signature.ofText text
    let declared ← c.add name s inst false
    declared.callable.addTexts name inst rest

/-- The callable with one declaration for each text. -/
def ofTexts (name : String) (texts : List String) (inst : Option QualifiedType) :
    Except Fault Callable :=
  addTexts {} name inst texts

/-- The callable with one declaration for each text, of the template instance that is spelled, if
one is; the spelling is read before the texts. -/
def ofSpelledTexts (name : String) (texts : List String) (spelling : Option String) :
    Except Fault Callable := do
  let inst ← spelling.mapM QualifiedType.ofSpelling
  ofTexts name texts inst

end Callable

end OverloadDispatch
