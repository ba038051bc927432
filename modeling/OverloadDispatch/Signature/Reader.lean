import OverloadDispatch.Fault
import OverloadDispatch.Signature.Basic

/-!
# Reading signatures

A parameter list is read one token at a time. The reader knows what it has read of the parameter
at hand and holds the parameters that are complete, so at every moment it admits exactly the tokens
that some parameter list may continue with. A parameter is an optional `const`, a type, an optional
reference or pointer mark, and a name; a type is a chain of names, or `unsigned` and a chain of
names that together make one name of several words.
-/

namespace OverloadDispatch.Signature

open Text

/-- A type that has at least one name, as far as it has been read. -/
structure TypeDraft where
  /-- Whether `const` stands in front. -/
  isConst : Bool
  /-- Whether `unsigned` stands in front. -/
  isUnsigned : Bool
  /-- The names before the last one. -/
  scopes : List Identifier
  /-- The last name. -/
  last : Identifier
  deriving DecidableEq, Repr

namespace TypeDraft

/-- The draft with one more name behind a scope mark. -/
def extend (d : TypeDraft) (word : Identifier) : TypeDraft :=
  { d with scopes := d.scopes ++ [d.last], last := word }

/-- The names of the draft in order. -/
def words (d : TypeDraft) : List String := (d.scopes ++ [d.last]).map Identifier.text

/-- The name of a type of several words. -/
def unsignedName (d : TypeDraft) : String :=
  "unsigned" ++ String.join (d.words.map fun word => " " ++ word)

/-- A name of several words is not empty. -/
theorem unsignedName_ne_empty (d : TypeDraft) : d.unsignedName ≠ "" := by
  intro h
  have hl := congrArg String.toList h
  rw [unsignedName, String.toList_append] at hl
  exact absurd (List.append_eq_nil_iff.mp hl).1 (by decide)

/-- The type that the draft spells. -/
def type (d : TypeDraft) : QualifiedType :=
  if d.isUnsigned then .classified d.unsignedName [] d.unsignedName_ne_empty
  else .classified d.last.text (d.scopes.map Identifier.text) d.last.text_ne_empty

end TypeDraft

/-- The mark between a type and the name of its parameter. -/
inductive Mark where
  /-- No mark. -/
  | value
  /-- A reference mark. -/
  | ref
  /-- A pointer mark. -/
  | ptr
  deriving DecidableEq, Repr

/-- The parameter that a type, a mark and a name make up. -/
def TypeDraft.parameter (d : TypeDraft) (m : Mark) (name : Identifier) : Parameter where
  name := name.text
  type := d.type
  isConst := d.isConst
  isRef := m == .ref
  isPtr := m == .ptr

/-- What has been read of the parameter at hand. -/
inductive Stage where
  /-- Nothing, and no parameter has to follow. -/
  | start
  /-- Nothing, and a parameter has to follow. -/
  | comma
  /-- The word `const`. -/
  | const
  /-- The word `unsigned`, behind `const` or not. -/
  | unsigned (isConst : Bool)
  /-- A type that may end here. -/
  | type (draft : TypeDraft)
  /-- A type that goes on behind a scope mark. -/
  | scope (draft : TypeDraft)
  /-- A type and its mark. -/
  | marked (draft : TypeDraft) (mark : Mark)
  /-- All of it. -/
  | complete (parameter : Parameter)
  deriving DecidableEq, Repr

/-- The stage after one more token, if the token may stand there. -/
def Stage.next? : Stage → Token → Option Stage
  | start, .const => some .const
  | start, .unsigned => some (.unsigned false)
  | start, .name word => some (.type ⟨false, false, [], word⟩)
  | comma, .const => some .const
  | comma, .unsigned => some (.unsigned false)
  | comma, .name word => some (.type ⟨false, false, [], word⟩)
  | const, .unsigned => some (.unsigned true)
  | const, .name word => some (.type ⟨true, false, [], word⟩)
  | unsigned isConst, .name word => some (.type ⟨isConst, true, [], word⟩)
  | type draft, .scope => some (.scope draft)
  | type draft, .ref => some (.marked draft .ref)
  | type draft, .ptr => some (.marked draft .ptr)
  | type draft, .name word => some (.complete (draft.parameter .value word))
  | scope draft, .name word => some (.type (draft.extend word))
  | marked draft mark, .name word => some (.complete (draft.parameter mark word))
  | complete _, .comma => some .comma
  | _, _ => none

/-- The parameter that is complete at a stage, if one is. -/
def Stage.completed : Stage → List Parameter
  | complete parameter => [parameter]
  | _ => []

/-- Whether a parameter list may end at a stage. -/
def Stage.isFinal : Stage → Bool
  | start => true
  | complete _ => true
  | _ => false

/-- A reader between two tokens. -/
structure Reader where
  /-- The parameters in front of the last comma. -/
  done : Signature
  /-- What has been read since. -/
  stage : Stage
  deriving DecidableEq, Repr

namespace Reader

/-- The reader that has read nothing. -/
def initial : Reader := ⟨[], .start⟩

/-- The parameters that have been read completely. -/
def parameters (r : Reader) : Signature := r.done ++ r.stage.completed

/-- The reader after one more token, if the token may stand there. -/
def feed? (r : Reader) (t : Token) : Option Reader :=
  (r.stage.next? t).map fun stage =>
    ⟨if stage = .comma then r.parameters else r.done, stage⟩

/-- The reader after a list of tokens, or the first token that may not stand where it does. -/
def run (r : Reader) : List (Located Token) → Except (Located Token) Reader
  | [] => .ok r
  | t :: rest =>
    match r.feed? t.value with
    | some r' => r'.run rest
    | none => .error t

end Reader

/-- The signature that a text spells, or the first place where it cannot be read on. -/
def ofText (text : String) : Except Fault Signature :=
  let chars := text.toList
  let scanned := scan 0 chars
  let refuse (found : Option Token) (offset : Nat) : Except Fault Signature :=
    .error (.unreadable text (.token found (Position.ofOffset chars offset)))
  match Reader.initial.run scanned.tokens with
  | .error t => refuse (some t.value) t.offset
  | .ok r =>
    match scanned.stop with
    | some c => .error (.unreadable text (.character c.value (Position.ofOffset chars c.offset)))
    | none =>
      if r.stage.isFinal then .ok r.parameters
      else refuse none ((scanned.tokens.getLast?.map Located.offset).getD 0)

end OverloadDispatch.Signature
