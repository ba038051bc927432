import Mathlib.Data.List.Nodup
import Mathlib.Data.List.Perm.Subperm
import OverloadDispatch.Guard.Build
import OverloadDispatch.Guard.Meaning

/-!
# Exactness of binding

A guard never compares keywords with the names of its signature. It counts, binds positional
values by a zip that stops at the shorter side, lays all keyword values over them and looks every
name up. The count makes these look-ups succeed only where the keywords are exactly the names
behind the positional ones: distinct names that are all keywords, and as many, are all keywords
there are.
-/

namespace OverloadDispatch

/-- All elements are mapped to a value exactly when each one is. -/
theorem Sequence.mapM_eq_some_iff {α β : Type} {f : α → Option β} {xs : List α} {ys : List β} :
    xs.mapM f = some ys ↔ xs.map f = ys.map some := by
  induction xs generalizing ys with
  | nil => cases ys <;> simp
  | cons x xs ih =>
    rw [List.mapM_cons, List.map_cons]
    cases hx : f x with
    | none => cases ys <;> simp
    | some y =>
      cases ys with
      | nil => cases xs.mapM f <;> simp
      | cons z zs =>
        rw [List.map_cons, List.cons.injEq, ← ih]
        cases xs.mapM f <;> simp

/-- A list holds values and nothing else exactly when each of its elements is one. -/
theorem Sequence.exists_eq_map_some_iff {α : Type} {xs : List (Option α)} :
    (∃ ys : List α, xs = ys.map some) ↔ ∀ x ∈ xs, x.isSome := by
  induction xs with
  | nil => exact iff_of_true ⟨[], rfl⟩ fun x hx => absurd hx List.not_mem_nil
  | cons x xs ih =>
    rw [List.forall_mem_cons, ← ih]
    constructor
    · rintro ⟨ys, hys⟩
      cases ys with
      | nil => exact absurd hys (List.cons_ne_nil x xs)
      | cons y ys =>
        obtain ⟨rfl, rfl⟩ := List.cons.inj hys
        exact ⟨rfl, ys, rfl⟩
    · rintro ⟨hx, ys, rfl⟩
      obtain ⟨y, rfl⟩ := Option.isSome_iff_exists.mp hx
      exact ⟨y :: ys, rfl⟩

namespace Call

variable {α β : Type}

/-- What a call means for the slots of the given names: the positional values in order, and the
keyword values of the names behind them. -/
def slots (call : Call α) (names : List String) : List (Option α) :=
  call.positional.map some ++
    (names.drop call.positional.length).map call.keywords.find?

/-- What the slots of a signature convert to, each by the declared type of its parameter. -/
def converted (call : Call α) (convert : Conversion α β) (s : Signature) : List (Option β) :=
  List.zipWith (fun type slot => slot.bind (convert type)) s.types (call.slots s.names)

/-- What a guard hands over: the conversions of all bound slots, if the call has as many values. -/
def arguments (call : Call α) (convert : Conversion α β) (s : Signature) : Option (List β) :=
  if call.positional.length + call.keywords.length = s.length then
    s.mapM fun p => ((call.bind s.names).find? p.name).bind (convert p.type)
  else none

/-- A zip finds the value at the position of a name. -/
theorem find?_zip {names : List String} (hn : names.Nodup) (values : List α) {j : Nat}
    (hj : j < names.length) : Table.find? (names.zip values) names[j] = values[j]? := by
  induction names generalizing values j with
  | nil => exact absurd hj (Nat.not_lt_zero j)
  | cons name names ih =>
    rw [List.nodup_cons] at hn
    cases values with
    | nil => rfl
    | cons value values =>
      rw [List.zip_cons_cons, Table.find?_cons]
      cases j with
      | zero => rw [List.getElem_cons_zero, if_pos rfl, List.getElem?_cons_zero]
      | succ j =>
        have hj' : j < names.length := Nat.lt_of_succ_lt_succ hj
        have hne : names[j] ≠ name := fun e => hn.1 (e ▸ List.getElem_mem hj')
        rw [List.getElem_cons_succ, if_neg hne, List.getElem?_cons_succ]
        exact ih hn.2 values hj'

theorem keys_zip (names : List String) (values : List α) :
    Table.keys (names.zip values) = names.take values.length := by
  induction names generalizing values with
  | nil => exact List.take_nil.symm
  | cons name names ih =>
    cases values with
    | nil => rfl
    | cons value values =>
      rw [List.zip_cons_cons, Table.keys_cons, ih, List.length_cons, List.take_succ_cons]

/-- The slot of a name holds the keyword value, or else the positional value at its position. -/
theorem find?_bind {call : Call α} {names : List String} (hn : names.Nodup)
    (hk : call.keywords.keys.Nodup) {j : Nat} (hj : j < names.length) :
    (call.bind names).find? names[j] =
      (call.keywords.find? names[j]).or call.positional[j]? := by
  have hzip : (Table.keys (names.zip call.positional)).Nodup := by
    rw [keys_zip]
    exact hn.sublist (List.take_sublist _ _)
  rw [bind, Table.find?_insertAll_of_nodup hk, Table.find?_insertAll_of_nodup hzip,
    Table.find?_nil, Option.or_none, find?_zip hn _ hj]

theorem mem_keys_of_isSome {call : Call α} {names : List String} (hn : names.Nodup)
    (hk : call.keywords.keys.Nodup) {j : Nat} (hj : j < names.length)
    (hp : call.positional.length ≤ j) (h : ((call.bind names).find? names[j]).isSome) :
    names[j] ∈ call.keywords.keys := by
  rw [find?_bind hn hk hj, List.getElem?_eq_none hp, Option.or_none] at h
  exact Table.isSome_find?_iff.mp h

/-- Where a call has as many values as there are names and every slot is filled, the keywords are
the names behind the positional ones, for these are distinct and as many. -/
theorem mem_keys_iff_of_filled {call : Call α} {names : List String} (hn : names.Nodup)
    (hk : call.keywords.keys.Nodup)
    (hcount : call.positional.length + call.keywords.length = names.length)
    (hfilled : ∀ name ∈ names, ((call.bind names).find? name).isSome) (key : String) :
    key ∈ call.keywords.keys ↔ key ∈ names.drop call.positional.length := by
  have hsub : names.drop call.positional.length ⊆ call.keywords.keys := by
    intro name hname
    obtain ⟨i, hi, rfl⟩ := List.mem_iff_getElem.mp hname
    rw [List.length_drop] at hi
    rw [List.getElem_drop]
    have hj : call.positional.length + i < names.length := by omega
    exact mem_keys_of_isSome hn hk hj (Nat.le_add_right _ _)
      (hfilled _ (List.getElem_mem hj))
  have hle : call.keywords.keys.length ≤ (names.drop call.positional.length).length := by
    rw [Table.keys, List.length_map, List.length_drop]
    omega
  have hperm := (List.subperm_of_subset (hn.sublist (List.drop_sublist _ _)) hsub).perm_of_length_le
    hle
  exact hperm.mem_iff.symm

/-- Where the keywords are the names behind the positional ones, no slot is filled twice. -/
theorem map_find?_bind {call : Call α} {names : List String} (hn : names.Nodup)
    (hk : call.keywords.keys.Nodup)
    (hcount : call.positional.length + call.keywords.length = names.length)
    (hkeys : ∀ key, key ∈ call.keywords.keys ↔ key ∈ names.drop call.positional.length) :
    names.map (call.bind names).find? = call.slots names := by
  have hlength : (call.slots names).length = names.length := by
    rw [slots, List.length_append, List.length_map, List.length_map, List.length_drop]
    omega
  refine List.ext_getElem (by rw [List.length_map, hlength]) fun j hj hj' => ?_
  have hjn : j < names.length := by rwa [List.length_map] at hj
  rw [List.getElem_map, find?_bind hn hk hjn]
  by_cases hp : j < call.positional.length
  · have hnone : call.keywords.find? names[j] = none := by
      rw [Table.find?_eq_none_iff, hkeys]
      intro hmem
      obtain ⟨i, hi, he⟩ := List.mem_iff_getElem.mp hmem
      rw [List.length_drop] at hi
      rw [List.getElem_drop] at he
      have : call.positional.length + i = j := (hn.getElem_inj_iff).mp he
      omega
    rw [hnone, Option.none_or, List.getElem?_eq_getElem hp]
    simp only [slots]
    rw [List.getElem_append_left (by rwa [List.length_map]), List.getElem_map]
  · have hle : call.positional.length ≤ j := Nat.le_of_not_lt hp
    rw [List.getElem?_eq_none hle, Option.or_none]
    simp only [slots]
    rw [List.getElem_append_right (by rwa [List.length_map]), List.getElem_map, List.getElem_drop]
    congr 2
    rw [List.length_map]
    omega

theorem length_of_arguments {call : Call α} {convert : Conversion α β} {s : Signature}
    {values : List β} (h : call.arguments convert s = some values) :
    call.positional.length + call.keywords.length = s.length := by
  rw [arguments] at h
  by_contra hcount
  rw [if_neg hcount] at h
  exact Option.some_ne_none values h.symm

/-- A guard hands over what the slots convert to, where the keywords fit and all converts. -/
theorem arguments_eq_some_iff {call : Call α} {s : Signature} (hn : s.names.Nodup)
    (hk : call.keywords.keys.Nodup) {convert : Conversion α β} {values : List β} :
    call.arguments convert s = some values ↔
      call.positional.length + call.keywords.length = s.length ∧
      (∀ key, key ∈ call.keywords.keys ↔ key ∈ s.names.drop call.positional.length) ∧
      call.converted convert s = values.map some := by
  have hnames : s.names.length = s.length := List.length_map _
  -- Each parameter is paired with what the bound slots hold under its name.
  have hpair : (s.map fun p => ((call.bind s.names).find? p.name).bind (convert p.type)) =
      List.zipWith (fun type slot => slot.bind (convert type)) s.types
        (s.names.map (call.bind s.names).find?) := by
    rw [Signature.types, Signature.names, List.map_map, List.zipWith_map, List.zipWith_self]
    rfl
  rw [arguments]
  by_cases hcount : call.positional.length + call.keywords.length = s.length
  · have hcount' := hcount.trans hnames.symm
    rw [if_pos hcount, Sequence.mapM_eq_some_iff, hpair]
    constructor
    · intro hvalues
      have hfilled : ∀ name ∈ s.names, ((call.bind s.names).find? name).isSome := by
        intro name hname
        obtain ⟨p, hp, rfl⟩ := List.mem_map.mp hname
        rw [← hpair] at hvalues
        obtain ⟨value, -, hvalue⟩ := List.mem_map.mp (hvalues ▸ List.mem_map_of_mem hp)
        obtain ⟨slot, hslot, -⟩ := Option.bind_eq_some_iff.mp hvalue.symm
        rw [hslot]
        rfl
      have hkeys := mem_keys_iff_of_filled hn hk hcount' hfilled
      refine ⟨hcount, hkeys, ?_⟩
      rw [converted, ← map_find?_bind hn hk hcount' hkeys]
      exact hvalues
    · rintro ⟨-, hkeys, hvalues⟩
      rw [map_find?_bind hn hk hcount' hkeys]
      exact hvalues
  · rw [if_neg hcount]
    exact iff_of_false (Option.some_ne_none values).symm fun h => hcount h.1

end Call

namespace Node

variable {α β : Type} (call : Call α) (convert : Conversion α β)

/-- Coercions convert all slots, and store the values under the names, or fail at one of them. -/
theorem runAll_coercions (frame : Frame α β) (params : List Parameter) :
    runAll call convert frame (params.map Guard.coercion) =
      match params.mapM fun p => (frame.slots.find? p.name).bind (convert p.type) with
      | some values =>
        .next { frame with
          values := frame.values.insertAll ((Signature.names params).zip values) }
      | none => .failed := by
  induction params generalizing frame with
  | nil => rfl
  | cons p params ih =>
    rw [List.map_cons, runAll, Guard.coercion, run, runCoercion, List.mapM_cons]
    cases hp : (frame.slots.find? p.name).bind (convert p.type) with
    | none => rfl
    | some value =>
      simp only [Option.bind_eq_bind, Option.bind_some]
      rw [ih]
      cases params.mapM fun p => (frame.slots.find? p.name).bind (convert p.type) with
      | none => rfl
      | some values => rfl

/-- Values stored under distinct names are read back in the order of the names. -/
theorem mapM_find?_insertAll_zip {names : List String} (hn : names.Nodup) {values : List β}
    (hlength : values.length = names.length) :
    names.mapM (Table.find? (Table.insertAll [] (names.zip values))) = some values := by
  have hkeys : (Table.keys (names.zip values)).Nodup := by
    rw [Call.keys_zip]
    exact hn.sublist (List.take_sublist _ _)
  rw [Sequence.mapM_eq_some_iff]
  refine List.ext_getElem (by simp only [List.length_map, hlength]) fun j hj hj' => ?_
  rw [List.length_map] at hj hj'
  rw [List.getElem_map, List.getElem_map, Table.find?_insertAll_of_nodup hkeys, Table.find?_nil,
    Option.or_none, Call.find?_zip hn _ hj, List.getElem?_eq_getElem hj']

end Node

namespace Resolver

variable {α β : Type}

/-- A resolver takes a call when its run ends with a match. -/
def Matches (r : Resolver) (call : Call α) (convert : Conversion α β) : Prop :=
  ∃ index values, r.run call convert = .matched index values

/-- A resolver that is built for a signature matches with the arguments of the call, if any. -/
theorem run_build {s : Signature} (hn : s.names.Nodup) (call : Call α)
    (convert : Conversion α β) (name callee : String) (isVoid : Bool) (index : Nat) :
    (build name isVoid callee s index).run call convert =
      match call.arguments convert s with
      | some values => .matched index values
      | none => .noMatch := by
  have haccepts : Node.accepts s.length call.positionalCount call.keywordCount = true ↔
      call.positional.length + call.keywords.length = s.length := by
    rw [Node.accepts, beq_iff_eq, Call.positionalCount, Call.keywordCount]
    omega
  simp only [run, build, Guard.dispatch, List.cons_append, Node.runAll, Node.run, haccepts,
    Call.arguments]
  by_cases hcount : call.positional.length + call.keywords.length = s.length
  · rw [if_pos hcount, if_pos hcount]
    cases s with
    | nil => rfl
    | cons q params =>
      simp only [List.cons_append, List.nil_append, Node.runAll, Node.run,
        Node.runAll_coercions]
      cases hvalues : (q :: params).mapM fun p =>
          ((call.bind (Signature.names (q :: params))).find? p.name).bind (convert p.type) with
      | none => rfl
      | some values =>
        have hlength : values.length = (Signature.names (q :: params)).length := by
          have := congrArg List.length (Sequence.mapM_eq_some_iff.mp hvalues)
          simpa only [List.length_map, Signature.names] using this.symm
        simp only [Node.runInvocation, Node.mapM_find?_insertAll_zip hn hlength]
  · rw [if_neg hcount, if_neg hcount]

/-- A resolver matches with values, under its own index, exactly when these are the arguments. -/
theorem run_build_eq_matched_iff {s : Signature} (hn : s.names.Nodup) (call : Call α)
    (convert : Conversion α β) (name callee : String) (isVoid : Bool) (index : Nat) {i : Int}
    {values : List β} :
    (build name isVoid callee s index).run call convert = .matched i values ↔
      i = index ∧ call.arguments convert s = some values := by
  rw [run_build hn]
  cases call.arguments convert s with
  | none => simp only [reduceCtorEq, and_false]
  | some found => simp only [Outcome.matched.injEq, Option.some.injEq, eq_comm]

/-- A resolver takes a call exactly when there are arguments to hand over. -/
theorem matches_build_iff {s : Signature} (hn : s.names.Nodup) (call : Call α)
    (convert : Conversion α β) (name callee : String) (isVoid : Bool) (index : Nat) :
    (build name isVoid callee s index).Matches call convert ↔
      ∃ values, call.arguments convert s = some values := by
  simp only [Matches, run_build_eq_matched_iff hn, exists_and_left, exists_and_right,
    exists_eq, true_and]

theorem not_matches_build_iff {s : Signature} (hn : s.names.Nodup) (call : Call α)
    (convert : Conversion α β) (name callee : String) (isVoid : Bool) (index : Nat) :
    ¬(build name isVoid callee s index).Matches call convert ↔
      call.arguments convert s = none := by
  rw [matches_build_iff hn, not_exists, Option.eq_none_iff_forall_ne_some]

/-- A resolver takes a call exactly when the keywords are the names behind the positional values and
every slot converts. It then hands over what the slots convert to, under its own index. -/
theorem build_matches_iff_keywords_fill_rest {s : Signature} (hn : s.names.Nodup)
    (call : Call α) (hk : call.keywords.keys.Nodup) (convert : Conversion α β)
    (name callee : String) (isVoid : Bool) (index : Nat) :
    ((build name isVoid callee s index).Matches call convert ↔
      call.positional.length + call.keywords.length = s.length ∧
      (∀ key, key ∈ call.keywords.keys ↔ key ∈ s.names.drop call.positional.length) ∧
      ∀ value ∈ call.converted convert s, value.isSome) ∧
    (∀ i values, (build name isVoid callee s index).run call convert = .matched i values →
      i = index ∧ call.converted convert s = values.map some) ∧
    (¬(build name isVoid callee s index).Matches call convert →
      (build name isVoid callee s index).run call convert = .noMatch) := by
  refine ⟨?_, ?_, ?_⟩
  · simp only [matches_build_iff hn, Call.arguments_eq_some_iff hn hk,
      ← Sequence.exists_eq_map_some_iff, exists_and_left]
  · intro i values h
    obtain ⟨hi, harguments⟩ := (run_build_eq_matched_iff hn _ _ _ _ _ _).mp h
    exact ⟨hi, ((Call.arguments_eq_some_iff hn hk).mp harguments).2.2⟩
  · intro hnone
    rw [not_matches_build_iff hn] at hnone
    rw [run_build hn, hnone]

/-- Three numbers, of which a call may give the later ones by keyword. -/
def threeNumbers : Signature :=
  [{ name := "x", type := { name := "int", category := .basic } },
    { name := "y", type := { name := "double", category := .basic } },
    { name := "z", type := { name := "int", category := .basic } }]

/-- The first number by position, and the others by keyword in another order. -/
def reorderedCall : Call Nat := ⟨[1], [("z", 3), ("y", 2)]⟩

/-- A conversion that takes every value and tells the type it was asked for. -/
def labelling : Conversion Nat (String × Nat) := fun type value => some (type.name, value)

/-- Keywords in another order than the names fill the slots behind the positional value. -/
theorem reorderedCall_matches_threeNumbers :
    threeNumbers.names.Nodup ∧ reorderedCall.keywords.keys.Nodup ∧
      (build "f" false nativeCallee threeNumbers 4).Matches reorderedCall labelling ∧
      (build "f" false nativeCallee threeNumbers 4).run reorderedCall labelling =
        .matched 4 [("int", 1), ("double", 2), ("int", 3)] := by
  have hn : threeNumbers.names.Nodup := by decide
  have hk : reorderedCall.keywords.keys.Nodup := by decide
  have hexact := build_matches_iff_keywords_fill_rest hn reorderedCall hk labelling "f"
    nativeCallee false 4
  refine ⟨hn, hk, hexact.1.mpr ⟨rfl, fun key => ?_, by decide⟩, by decide⟩
  simp [reorderedCall, threeNumbers, Table.keys, Signature.names, or_comm]

end Resolver

end OverloadDispatch
