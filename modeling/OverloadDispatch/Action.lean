import OverloadDispatch.Workspace

/-!
# Actions on a workspace

A workspace changes by single actions: entries are created, signatures are pushed or declared,
overload sets are instantiated in place, and parts of the table are instantiated as copies. An
action on an entry that is not there, or that the entry refuses, leaves the workspace as it was.
-/

namespace OverloadDispatch

namespace Entry

/-- Do to a callable what it may refuse; an overload set by itself refuses it. -/
def declaring (declare : Callable → Except Fault Declaration) : Entry → Option Entry
  | bare _ => none
  | bound c =>
    match declare c with
    | .ok declared => some (bound declared.callable)
    | .error _ => none

/-- Declare a signature of a callable. -/
def add (name : String) (s : Signature) (inst : Option QualifiedType) (isVerbose : Bool) :
    Entry → Option Entry :=
  declaring fun c => c.add name s inst isVerbose

/-- Fix the identity of a callable, or check a declaration against it. -/
def check (name : String) (inst : Option QualifiedType) (isVerbose : Bool) :
    Entry → Option Entry :=
  declaring fun c => c.declare name inst isVerbose

/-- A callable that does not refuse is replaced by the one that it becomes. -/
theorem declaring_eq_some_iff {declare : Callable → Except Fault Declaration} {e f : Entry} :
    e.declaring declare = some f ↔
      ∃ c d, e = bound c ∧ declare c = .ok d ∧ f = bound d.callable := by
  cases e with
  | bare o => simp [declaring]
  | bound c =>
    cases h : declare c with
    | error fault => simp [declaring, h]
    | ok d => simp [declaring, h, eq_comm]

/-- A signature that a callable accepts is pushed to its overload set. -/
theorem overloads_of_add {name : String} {s : Signature} {inst : Option QualifiedType}
    {isVerbose : Bool} {e f : Entry} (h : e.add name s inst isVerbose = some f) :
    f.overloads = e.overloads.push s := by
  obtain ⟨c, d, rfl, hd, rfl⟩ := declaring_eq_some_iff.mp h
  exact Callable.overloads_of_add hd

/-- A declaration that is only checked keeps the overload set. -/
theorem overloads_of_check {name : String} {inst : Option QualifiedType} {isVerbose : Bool}
    {e f : Entry} (h : e.check name inst isVerbose = some f) : f.overloads = e.overloads := by
  obtain ⟨c, d, rfl, hd, rfl⟩ := declaring_eq_some_iff.mp h
  exact Callable.overloads_of_declare hd

@[simp] theorem overloads_push (s : Signature) (e : Entry) :
    (e.push s).overloads = e.overloads.push s := by
  cases e <;> rfl

@[simp] theorem overloads_expand (t : Substitution) (e : Entry) :
    (e.expand t).overloads = e.overloads.expand t := by
  cases e <;> rfl

theorem expand_expand (t u : Substitution) (e : Entry) : (e.expand t).expand u = e.expand u := by
  cases e <;> rfl

end Entry

/-- What may be done to a workspace. -/
inductive Action where
  /-- Put an empty overload set by itself under a key. -/
  | createSet (id : String)
  /-- Put a callable without declarations under a key. -/
  | createCallable (id : String)
  /-- Add a signature straight to an overload set. -/
  | push (id : String) (s : Signature)
  /-- Declare a signature of a callable. -/
  | add (id name : String) (s : Signature) (inst : Option QualifiedType) (isVerbose : Bool)
  /-- Fix the identity of a callable, or check a declaration against it. -/
  | check (id name : String) (inst : Option QualifiedType) (isVerbose : Bool)
  /-- Instantiate an overload set in place. -/
  | expand (id : String) (t : Substitution)
  /-- Instantiate copies of entries, and store them under the old keys with a leading text. -/
  | instantiate (ids : List String) (t : Substitution) (leading : String)
  deriving DecidableEq, Repr

/-- The keys under which an action may store something. -/
def Action.targets : Action → List String
  | createSet id => [id]
  | createCallable id => [id]
  | push id _ => [id]
  | add id _ _ _ _ => [id]
  | check id _ _ _ => [id]
  | expand id _ => [id]
  | instantiate ids _ leading => ids.map (leading ++ ·)

namespace Workspace

/-- The workspace after an action. -/
def act (w : Workspace) : Action → Workspace
  | .createSet id => w.insert id (.bare {})
  | .createCallable id => w.insert id (.bound {})
  | .push id s => w.update id fun e => some (e.push s)
  | .add id name s inst isVerbose => w.update id (Entry.add name s inst isVerbose)
  | .check id name inst isVerbose => w.update id (Entry.check name inst isVerbose)
  | .expand id t => w.update id fun e => some (e.expand t)
  | .instantiate ids t leading => w.storeUnder leading (Workspace.expand (w.select ids) t)

/-- The workspace after a sequence of actions on an empty one. -/
def run (actions : List Action) : Workspace := actions.foldl act []

/-- Storing the instances of a part of a table is storing changed copies. -/
theorem storeUnder_expand_select (w : Workspace) (ids : List String) (t : Substitution)
    (leading : String) :
    w.storeUnder leading (Workspace.expand (w.select ids) t) =
      w.copy ids leading (Entry.expand t) := by
  rw [storeUnder, Workspace.expand, List.map_map]
  rfl

/-- An action changes nothing but what lies under its targets. -/
theorem find?_act_of_not_mem_targets (w : Workspace) {a : Action} {id : String}
    (h : id ∉ a.targets) : (w.act a).find? id = w.find? id := by
  cases a with
  | createSet target => rw [act, Table.find?_insert, if_neg (List.ne_of_not_mem_cons h)]
  | createCallable target => rw [act, Table.find?_insert, if_neg (List.ne_of_not_mem_cons h)]
  | push target s => rw [act, Table.find?_update, if_neg (List.ne_of_not_mem_cons h)]
  | add target name s inst isVerbose =>
    rw [act, Table.find?_update, if_neg (List.ne_of_not_mem_cons h)]
  | check target name inst isVerbose =>
    rw [act, Table.find?_update, if_neg (List.ne_of_not_mem_cons h)]
  | expand target t => rw [act, Table.find?_update, if_neg (List.ne_of_not_mem_cons h)]
  | instantiate ids t leading =>
    rw [act, storeUnder_expand_select]
    exact Table.find?_copy_of_not_mem h _

/-- Instances of instances are instances of the table itself. -/
theorem expand_expand (table : Workspace) (t u : Substitution) :
    Workspace.expand (Workspace.expand table t) u = Workspace.expand table u := by
  rw [Workspace.expand, Workspace.expand, Workspace.expand, List.map_map]
  exact List.map_congr_left fun row _ => congrArg (Prod.mk row.1) (row.2.expand_expand t u)

/-- An instance of a table has the keys of the table, in their order. -/
theorem keys_expand (table : Workspace) (t : Substitution) :
    (Workspace.expand table t).keys = table.keys := by
  rw [Workspace.expand, Table.keys, List.map_map]
  rfl

end Workspace

end OverloadDispatch
