import Mathlib.Data.List.Forall2
import Mathlib.Data.List.Induction
import OverloadDispatch.Action

/-!
# Overload sets along the histories of their entries

Every entry of a workspace has a history: the signatures that were pushed to it and the
substitutions it was instantiated by, in order. A copy continues the history of its source. The
held signatures are determined by the history alone, whatever was done to other entries, and of
all instantiations in a history only the last one counts.
-/

namespace OverloadDispatch

/-- What changes an overload set. -/
inductive Event where
  /-- A signature was added, by itself or by an accepted declaration. -/
  | pushed (s : Signature)
  /-- The held signatures were replaced by the declared ones under a substitution. -/
  | expanded (t : Substitution)
  deriving DecidableEq, Repr

/-- What was done to an overload set, first things first. -/
abbrev History := List Event

namespace History

/-- The signatures that were pushed, in order. -/
def pushes (past : History) : List Signature :=
  past.filterMap fun
    | .pushed s => some s
    | .expanded _ => none

/-- The overload set after one more event. -/
def record (o : OverloadSet) : Event → OverloadSet
  | .pushed s => o.push s
  | .expanded t => o.expand t

/-- The overload set that a history makes of an empty one. -/
def replay (past : History) : OverloadSet := past.foldl record {}

theorem pushes_append (past later : History) :
    pushes (past ++ later) = pushes past ++ pushes later :=
  List.filterMap_append

theorem replay_concat (past : History) (event : Event) :
    replay (past ++ [event]) = record (replay past) event := by
  rw [replay, List.foldl_append]
  rfl

/-- Declared is what was pushed, whatever was instantiated in between. -/
theorem declared_replay (past : History) : (replay past).declared = past.pushes := by
  induction past using List.reverseRecOn with
  | nil => rfl
  | append_singleton past event ih =>
    rw [replay_concat, pushes_append]
    cases event with
    | pushed s =>
      rw [record, OverloadSet.declared_push, ih]
      rfl
    | expanded t =>
      rw [record, OverloadSet.declared_expand, ih]
      exact (List.append_nil (pushes past)).symm

/-- Without an instantiation later signatures are held as they are pushed. -/
theorem held_foldl_of_pushes (o : OverloadSet) {later : History}
    (h : ∀ t, Event.expanded t ∉ later) :
    (later.foldl record o).held = o.held ++ later.pushes := by
  induction later generalizing o with
  | nil => exact (List.append_nil o.held).symm
  | cons event later ih =>
    have htail : ∀ t, Event.expanded t ∉ later := fun t ht => h t (List.mem_cons_of_mem _ ht)
    cases event with
    | pushed s =>
      rw [List.foldl_cons, ih _ htail, record, OverloadSet.held_push, List.append_assoc]
      rfl
    | expanded t => exact absurd List.mem_cons_self (h t)

/-- The last instantiation replaces what was pushed before it, and nothing that came later. -/
theorem held_replay_of_last (before : History) (t : Substitution) {later : History}
    (h : ∀ u, Event.expanded u ∉ later) :
    (replay (before ++ .expanded t :: later)).held =
      before.pushes.map (Signature.expand t) ++ later.pushes := by
  have hbefore : before.foldl record {} = replay before := rfl
  rw [replay, List.foldl_append, List.foldl_cons, held_foldl_of_pushes _ h, hbefore, record,
    OverloadSet.held_expand, declared_replay]

end History

/-- Two signatures that agree in all but the types of their parameters. -/
structure Signature.SameShape (s a : Signature) : Prop where
  /-- There are as many parameters. -/
  arity : s.length = a.length
  /-- They have the same names. -/
  names : s.names = a.names
  /-- They have the same marks. -/
  marks : (s.map fun p => (p.isConst, p.isRef, p.isPtr)) =
    a.map fun p => (p.isConst, p.isRef, p.isPtr)

theorem Signature.SameShape.refl (s : Signature) : s.SameShape s := ⟨rfl, rfl, rfl⟩

theorem Signature.sameShape_expand (t : Substitution) (s : Signature) :
    (s.expand t).SameShape s := by
  refine ⟨s.length_expand t, s.names_expand t, ?_⟩
  rw [expand, List.map_map]
  rfl

/-- Every held signature has the shape of the signature that was pushed in its place. -/
theorem History.sameShape_replay (past : History) :
    List.Forall₂ Signature.SameShape (replay past).held past.pushes := by
  induction past using List.reverseRecOn with
  | nil => exact List.Forall₂.nil
  | append_singleton past event ih =>
    rw [replay_concat, pushes_append]
    cases event with
    | pushed s => exact List.rel_append ih (List.Forall₂.cons (.refl s) List.Forall₂.nil)
    | expanded t =>
      have hnone : pushes [.expanded t] = [] := rfl
      rw [record, OverloadSet.held_expand, declared_replay, hnone, List.append_nil]
      exact List.forall₂_map_left_iff.mpr <|
        List.forall₂_same.mpr fun s _ => Signature.sameShape_expand t s

/-- A workspace with the history of each of its entries. -/
structure Log where
  /-- The entries. -/
  workspace : Workspace := []
  /-- Their histories. -/
  histories : Table History := []
  deriving DecidableEq, Repr

namespace Log

/-- The histories after an action. A copy continues the history of its source. -/
def recorded (l : Log) : Action → Table History
  | .createSet id => l.histories.insert id []
  | .createCallable id => l.histories.insert id []
  | .push id s => l.histories.update id fun past => some (past ++ [.pushed s])
  | .add id name s inst isVerbose =>
    -- A refused declaration pushes nothing.
    match (l.workspace.find? id).bind (Entry.add name s inst isVerbose) with
    | some _ => l.histories.update id fun past => some (past ++ [.pushed s])
    | none => l.histories
  | .check _ _ _ _ => l.histories
  | .expand id t => l.histories.update id fun past => some (past ++ [.expanded t])
  | .instantiate ids t leading => l.histories.copy ids leading (· ++ [.expanded t])

/-- The workspace and the histories after an action. -/
def act (l : Log) (a : Action) : Log := ⟨l.workspace.act a, l.recorded a⟩

/-- The workspace and the histories after a sequence of actions on an empty workspace. -/
def run (actions : List Action) : Log := actions.foldl act {}

/-- Keeping histories does not change what the actions do. -/
theorem workspace_run (actions : List Action) : (run actions).workspace = .run actions := by
  have hfrom (l : Log) : (actions.foldl act l).workspace =
      actions.foldl Workspace.act l.workspace := by
    induction actions generalizing l with
    | nil => rfl
    | cons a actions ih => exact ih (l.act a)
  exact hfrom {}

/-- The overload set of every entry is what its history makes of an empty one. -/
def Consistent (l : Log) : Prop :=
  ∀ id, (l.workspace.find? id).map Entry.overloads = (l.histories.find? id).map History.replay

/-- A fresh entry is in step with the empty history. -/
theorem consistent_insert {l : Log} (h : l.Consistent) (id : String) {e : Entry}
    (he : e.overloads = {}) :
    Consistent ⟨l.workspace.insert id e, l.histories.insert id []⟩ := by
  intro other
  rw [Table.find?_insert, Table.find?_insert]
  by_cases hother : other = id
  · rw [if_pos hother, if_pos hother, Option.map_some, Option.map_some, he]
    rfl
  · rw [if_neg hother, if_neg hother]
    exact h other

/-- A change of one entry and of its history, which are in step, keeps all of them in step. -/
theorem consistent_update {l : Log} (h : l.Consistent) (id : String)
    {changeEntry : Entry → Option Entry} {changeHistory : History → Option History}
    (hchange : ∀ e past, l.workspace.find? id = some e → e.overloads = History.replay past →
      (changeEntry e).map Entry.overloads = (changeHistory past).map History.replay) :
    Consistent ⟨l.workspace.update id changeEntry, l.histories.update id changeHistory⟩ := by
  intro other
  rw [Table.find?_update, Table.find?_update]
  by_cases hother : other = id
  · rw [if_pos hother, if_pos hother]
    have hid := h id
    cases he : l.workspace.find? id with
    | none =>
      rw [he] at hid
      rw [Option.map_eq_none_iff.mp hid.symm]
      rfl
    | some e =>
      rw [he] at hid
      obtain ⟨past, hpast, hreplay⟩ := Option.map_eq_some_iff.mp hid.symm
      rw [hpast, Option.bind_some, Option.bind_some, Option.map_or, Option.map_or,
        hchange e past he hreplay.symm]
      exact congrArg _ (congrArg some hreplay.symm)
  · rw [if_neg hother, if_neg hother]
    exact h other

/-- A change that keeps the overload set of an entry is in step with an unchanged history. -/
theorem consistent_update_workspace {l : Log} (h : l.Consistent) (id : String)
    {change : Entry → Option Entry}
    (hkept : ∀ e f, l.workspace.find? id = some e → change e = some f →
      f.overloads = e.overloads) :
    Consistent ⟨l.workspace.update id change, l.histories⟩ := by
  intro other
  refine Eq.trans ?_ (h other)
  rw [Table.find?_update]
  by_cases hother : other = id
  · rw [if_pos hother, hother]
    cases hfound : l.workspace.find? id with
    | none => rfl
    | some e =>
      rw [Option.bind_some]
      cases hchange : change e with
      | none => rfl
      | some f => exact congrArg some (hkept e f hfound hchange)
  · rw [if_neg hother]

/-- Instances stored as copies are in step with the continued histories of their sources. -/
theorem consistent_copy {l : Log} (h : l.Consistent) (ids : List String) (t : Substitution)
    (leading : String) :
    Consistent ⟨l.workspace.copy ids leading (Entry.expand t),
      l.histories.copy ids leading (· ++ [.expanded t])⟩ := by
  intro other
  by_cases hother : other ∈ ids.map (leading ++ ·)
  · obtain ⟨source, hsource, rfl⟩ := List.mem_map.mp hother
    have hentry : ((l.workspace.find? source).map (Entry.expand t)).map Entry.overloads =
        ((l.workspace.find? source).map Entry.overloads).map (OverloadSet.expand · t) := by
      rw [Option.map_map, Option.map_map]
      exact Option.map_congr fun e _ => Entry.overloads_expand t e
    have hhistory : ((l.histories.find? source).map (· ++ [.expanded t])).map History.replay =
        ((l.histories.find? source).map History.replay).map (OverloadSet.expand · t) := by
      rw [Option.map_map, Option.map_map]
      exact Option.map_congr fun past _ => History.replay_concat past (.expanded t)
    -- A key without a source keeps what was there, which is in step as well.
    rw [Table.find?_copy_of_mem hsource, Table.find?_copy_of_mem hsource, Option.map_or,
      Option.map_or, hentry, hhistory, h source, h (leading ++ source)]
  · rw [Table.find?_copy_of_not_mem hother, Table.find?_copy_of_not_mem hother]
    exact h other

/-- An action keeps every entry in step with its history. -/
theorem Consistent.act {l : Log} (h : l.Consistent) (a : Action) : (l.act a).Consistent := by
  cases a with
  | createSet id => exact consistent_insert h id rfl
  | createCallable id => exact consistent_insert h id rfl
  | push id s =>
    refine consistent_update h id fun e past _ he => ?_
    rw [Option.map_some, Option.map_some, Entry.overloads_push, History.replay_concat, he]
    rfl
  | add id name s inst isVerbose =>
    rw [Log.act, recorded]
    cases haccepted : (l.workspace.find? id).bind (Entry.add name s inst isVerbose) with
    | none =>
      refine consistent_update_workspace h id fun e f hfound hadd => ?_
      rw [hfound, Option.bind_some, hadd] at haccepted
      exact absurd haccepted (Option.some_ne_none f)
    | some f =>
      refine consistent_update h id fun e past hfound he => ?_
      have hadd : e.add name s inst isVerbose = some f := by
        rw [hfound] at haccepted
        exact haccepted
      rw [hadd, Option.map_some, Option.map_some, Entry.overloads_of_add hadd,
        History.replay_concat, he]
      rfl
  | check id name inst isVerbose =>
    exact consistent_update_workspace h id fun e f _ hcheck => Entry.overloads_of_check hcheck
  | expand id t =>
    refine consistent_update h id fun e past _ he => ?_
    rw [Option.map_some, Option.map_some, Entry.overloads_expand, History.replay_concat, he]
    rfl
  | instantiate ids t leading =>
    rw [Log.act, recorded, Workspace.act, Workspace.storeUnder_expand_select]
    exact consistent_copy h ids t leading

/-- After every run all entries are in step with their histories. -/
theorem consistent_run (actions : List Action) : (run actions).Consistent := by
  have hfrom (l : Log) (h : l.Consistent) : (actions.foldl act l).Consistent := by
    induction actions generalizing l with
    | nil => exact h
    | cons a actions ih => exact ih (l.act a) (h.act a)
  exact hfrom {} fun _ => rfl

theorem run_concat (actions : List Action) (a : Action) :
    run (actions ++ [a]) = (run actions).act a := by
  rw [run, List.foldl_append]
  rfl

/-- An action adds to no history but those of its targets. -/
theorem find?_recorded_of_not_mem_targets (l : Log) {a : Action} {id : String}
    (h : id ∉ a.targets) : (l.recorded a).find? id = l.histories.find? id := by
  cases a with
  | createSet target => rw [recorded, Table.find?_insert, if_neg (List.ne_of_not_mem_cons h)]
  | createCallable target => rw [recorded, Table.find?_insert, if_neg (List.ne_of_not_mem_cons h)]
  | push target s => rw [recorded, Table.find?_update, if_neg (List.ne_of_not_mem_cons h)]
  | add target name s inst isVerbose =>
    rw [recorded]
    cases (l.workspace.find? target).bind (Entry.add name s inst isVerbose) with
    | none => rfl
    | some f => exact (Table.find?_update _ _ _ _).trans (if_neg (List.ne_of_not_mem_cons h))
  | check target name inst isVerbose => rfl
  | expand target t => rw [recorded, Table.find?_update, if_neg (List.ne_of_not_mem_cons h)]
  | instantiate ids t leading =>
    rw [recorded]
    exact Table.find?_copy_of_not_mem h _

/-- What an entry that is in step with its history holds. -/
structure Determines (past : History) (o : OverloadSet) : Prop where
  /-- Declared is what was pushed. -/
  declared : o.declared = past.pushes
  /-- The last instantiation replaced what was pushed before it. -/
  held_of_last : ∀ (before : History) t later, past = before ++ .expanded t :: later →
    (∀ u, Event.expanded u ∉ later) →
    o.held = (past.pushes.take before.pushes.length).map (Signature.expand t) ++
      past.pushes.drop before.pushes.length
  /-- Without an instantiation held is what was pushed. -/
  held_of_none : (∀ u, Event.expanded u ∉ past) → o.held = past.pushes
  /-- One more instantiation starts from what was pushed. -/
  held_expand : ∀ t, (o.expand t).held = past.pushes.map (Signature.expand t)
  /-- Only types are ever replaced. -/
  shape : List.Forall₂ Signature.SameShape o.held past.pushes

/-- A history determines what it makes of an empty overload set. -/
theorem determines_replay (past : History) : Determines past (History.replay past) where
  declared := History.declared_replay past
  held_of_last := by
    intro before t later hpast hlater
    subst hpast
    have hpushes : History.pushes (before ++ .expanded t :: later) =
        before.pushes ++ History.pushes later := History.pushes_append before _
    rw [History.held_replay_of_last before t hlater, hpushes, List.take_left, List.drop_left]
  held_of_none := fun h => History.held_foldl_of_pushes {} h
  held_expand := by
    intro t
    rw [OverloadSet.held_expand, History.declared_replay]
  shape := History.sameShape_replay past

/-- After every run the history of an entry determines what it holds. A copy continues the history
of its source, and nothing that is done under other keys changes the source. -/
theorem run_determined_by_histories (actions : List Action) :
    (∀ id entry, (Workspace.run actions).find? id = some entry →
      ∃ past, (run actions).histories.find? id = some past ∧
        Determines past entry.overloads) ∧
    (∀ ids t leading, ∀ source ∈ ids, ∀ past,
      (run actions).histories.find? source = some past →
      (run (actions ++ [.instantiate ids t leading])).histories.find? (leading ++ source) =
        some (past ++ [.expanded t])) ∧
    (∀ (a : Action) (id : String), id ∉ a.targets →
      (Workspace.run (actions ++ [a])).find? id = (Workspace.run actions).find? id ∧
      (run (actions ++ [a])).histories.find? id = (run actions).histories.find? id) ∧
    ∀ (table : Workspace) (t u : Substitution),
      Workspace.expand (Workspace.expand table t) u = Workspace.expand table u ∧
      (Workspace.expand table u).keys = table.keys := by
  refine ⟨?_, ?_, ?_, fun table t u => ⟨table.expand_expand t u, table.keys_expand u⟩⟩
  · intro id entry hentry
    have hstep := consistent_run actions id
    rw [workspace_run, hentry] at hstep
    obtain ⟨past, hpast, hreplay⟩ := Option.map_eq_some_iff.mp hstep.symm
    exact ⟨past, hpast, hreplay ▸ determines_replay past⟩
  · intro ids t leading source hsource past hpast
    rw [run_concat, act, recorded, Table.find?_copy_of_mem hsource, hpast]
    rfl
  · intro a id htargets
    rw [← workspace_run, ← workspace_run, run_concat]
    exact ⟨Workspace.find?_act_of_not_mem_targets _ htargets,
      find?_recorded_of_not_mem_targets _ htargets⟩

/-- A signature of one parameter of an unqualified type. -/
def unary (name type : String) (h : type ≠ "" := by decide) : Signature :=
  [{ name := name, type := { name := type, name_ne_empty := h } }]

/-- The placeholder `T` becomes an unqualified type. -/
def replacingT (type : String) (h : type ≠ "" := by decide) : Substitution where
  placeholder := "T"
  target := { name := type, name_ne_empty := h }

/-- A callable is instantiated, refuses a name, is copied under another type, and the copy grows. -/
def copiedRun : List Action :=
  [.createCallable "f", .add "f" "f" (unary "a" "T") none false, .expand "f" (replacingT "Pose"),
    .add "f" "g" (unary "x" "T") none false, .push "f" (unary "b" "T"),
    .instantiate ["f"] (replacingT "Point") "new.", .push "new.f" (unary "c" "T")]

/-- The copy holds both earlier signatures under its own substitution, and the later one as is. -/
theorem copiedRun_held :
    ∃ e, (Workspace.run copiedRun).find? "new.f" = some e ∧
      e.overloads.held = [unary "a" "Point", unary "b" "Point", unary "c" "T"] := by
  obtain ⟨e, he⟩ : ∃ e, (Workspace.run copiedRun).find? "new.f" = some e := ⟨_, rfl⟩
  obtain ⟨past, hpast, h⟩ := (run_determined_by_histories copiedRun).1 "new.f" e he
  have hevents : past = [.pushed (unary "a" "T"), .expanded (replacingT "Pose"),
      .pushed (unary "b" "T")] ++ .expanded (replacingT "Point") :: [.pushed (unary "c" "T")] :=
    Option.some.inj (hpast.symm.trans (by decide))
  refine ⟨e, he, (h.held_of_last _ _ _ hevents (by simp)).trans ?_⟩
  rw [hevents]
  decide

end Log

end OverloadDispatch
