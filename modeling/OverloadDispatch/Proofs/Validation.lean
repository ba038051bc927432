import OverloadDispatch.Inspection

/-!
# The first violation in a table

A parameter stands at a place of a table: in a callable, in one of the signatures held there, at a
position of the signature. Places are ordered by the callable first, then by the signature, then by
the position. Where every type is known a table passes. Otherwise there is a first parameter of an
unknown type, and the one issue that is found names its type and its callable, whether the issue
stops the work or is kept as a diagnostic.
-/

namespace OverloadDispatch

/-! ## Positions in lists -/

/-- A list is what stands in front of an element, the element, and what stands behind it. -/
theorem eq_take_append_cons_drop {α : Type} {xs : List α} {i : Nat} {x : α}
    (h : xs[i]? = some x) : xs = xs.take i ++ x :: xs.drop (i + 1) := by
  obtain ⟨hi, hx⟩ := List.getElem?_eq_some_iff.mp h
  rw [← hx, ← List.drop_eq_getElem_cons hi, List.take_append_drop]

/-- What stands in front of a position stands at a smaller one. -/
theorem exists_getElem?_of_mem_take {α : Type} {xs : List α} {i : Nat} {x : α}
    (h : x ∈ xs.take i) : ∃ j < i, xs[j]? = some x := by
  obtain ⟨j, hj, hx⟩ := List.mem_take_iff_getElem.mp h
  exact ⟨j, by omega, List.getElem?_eq_some_iff.mpr ⟨by omega, hx⟩⟩

/-- Of the elements with a property one stands first. -/
theorem exists_first {α : Type} {xs : List α} {P : α → Prop} (h : ∃ x ∈ xs, P x) :
    ∃ (i : Nat) (x : α), xs[i]? = some x ∧ P x ∧
      ∀ (j : Nat) (y : α), j < i → xs[j]? = some y → ¬P y := by
  classical
  obtain ⟨x, hx, hPx⟩ := h
  have hsome : (xs.find? (P ·)).isSome := List.find?_isSome.mpr ⟨x, hx, by simpa using hPx⟩
  obtain ⟨y, hy⟩ := Option.isSome_iff_exists.mp hsome
  obtain ⟨hPy, i, hi, hxs, hbefore⟩ := List.find?_eq_some_iff_getElem.mp hy
  refine ⟨i, y, List.getElem?_eq_some_iff.mpr ⟨hi, hxs⟩, by simpa using hPy, ?_⟩
  intro j z hj hz
  obtain ⟨hlt, rfl⟩ := List.getElem?_eq_some_iff.mp hz
  simpa using hbefore j hj

/-! ## Places in a table -/

/-- Where a parameter stands in a table. -/
structure Place where
  /-- The position of the callable. -/
  entry : Nat
  /-- The position of the signature among those that the callable holds. -/
  signature : Nat
  /-- The position of the parameter in the signature. -/
  parameter : Nat
  deriving DecidableEq, Repr

/-- The order of the table, then of the signatures, then of the parameters. -/
def Place.Before (a b : Place) : Prop :=
  a.entry < b.entry ∨ a.entry = b.entry ∧
    (a.signature < b.signature ∨ a.signature = b.signature ∧ a.parameter < b.parameter)

/-- Whether the types of all parameters that a callable holds are among the valid spellings. -/
def Callable.Known (valid : List String) (c : Callable) : Prop :=
  ∀ s ∈ c.overloads.held, ∀ p ∈ s, p.type.qualified ∈ valid

namespace OverloadSet

variable {valid : List String}

/-- Spellings that are known are passed over. -/
theorem firstUnknown?_append {front : List String} (h : ∀ spelling ∈ front, spelling ∈ valid)
    (back : List String) :
    firstUnknown? valid (front ++ back) = firstUnknown? valid back := by
  have hfront : front.find? (fun spelling => !valid.contains spelling) = none := by
    apply List.find?_eq_none.mpr
    intro spelling hspelling
    simp [h spelling hspelling]
  rw [firstUnknown?, List.find?_append, hfront, Option.none_or]
  rfl

theorem firstUnknown?_cons {spelling : String} (h : spelling ∉ valid) (back : List String) :
    firstUnknown? valid (spelling :: back) = some spelling :=
  List.find?_cons_of_pos (by simpa using h)

/-- An overload set that holds known types only passes. -/
theorem verify_of_known {o : OverloadSet} {context : String}
    (h : ∀ s ∈ o.held, ∀ p ∈ s, p.type.qualified ∈ valid) : o.verify valid context = .ok () := by
  have hspellings : ∀ spelling ∈ o.types.map QualifiedType.qualified, spelling ∈ valid := by
    simp only [types, Signature.types, List.mem_map, List.mem_flatMap]
    rintro _ ⟨_, ⟨s, hs, p, hp, rfl⟩, rfl⟩
    exact h s hs p hp
  have hnone := firstUnknown?_append hspellings []
  rw [List.append_nil] at hnone
  rw [verify, show o.firstMissing? valid = none from hnone]

/-- An overload set does not pass where an unknown type stands behind known ones. -/
theorem verify_of_unknown {o : OverloadSet} (context : String) {front back : List Signature}
    {before after : Signature} {p : Parameter}
    (hheld : o.held = front ++ (before ++ p :: after) :: back)
    (hfront : ∀ s ∈ front, ∀ q ∈ s, q.type.qualified ∈ valid)
    (hbefore : ∀ q ∈ before, q.type.qualified ∈ valid) (hp : p.type.qualified ∉ valid) :
    o.verify valid context =
      .error (.missingDependency p.type.qualified ("checking argument of " ++ context)) := by
  let spellings (s : Signature) : List String := s.map (QualifiedType.qualified ∘ Parameter.type)
  have hknown : ∀ spelling ∈ front.flatMap spellings ++ spellings before, spelling ∈ valid := by
    intro spelling hspelling
    rcases List.mem_append.mp hspelling with hspelling | hspelling
    · obtain ⟨s, hs, hspelling⟩ := List.mem_flatMap.mp hspelling
      obtain ⟨q, hq, rfl⟩ := List.mem_map.mp hspelling
      exact hfront s hs q hq
    · obtain ⟨q, hq, rfl⟩ := List.mem_map.mp hspelling
      exact hbefore q hq
  have hsplit : o.types.map QualifiedType.qualified =
      (front.flatMap spellings ++ spellings before) ++
        p.type.qualified :: (spellings after ++ back.flatMap spellings) := by
    simp [types, hheld, spellings, Signature.types, List.map_flatMap]
  have hfound := firstUnknown?_append hknown
    (p.type.qualified :: (spellings after ++ back.flatMap spellings))
  rw [← hsplit, firstUnknown?_cons hp] at hfound
  rw [verify, show o.firstMissing? valid = some p.type.qualified from hfound]

end OverloadSet

namespace Workspace

/-- Whether a parameter stands at a place of a table, in the given callable. -/
def Stands (table : Table Callable) (place : Place) (c : Callable) (p : Parameter) : Prop :=
  ∃ key s, table[place.entry]? = some (key, c) ∧ c.overloads.held[place.signature]? = some s ∧
    s[place.parameter]? = some p

/-- The first parameter of a table whose type is not among the valid spellings. -/
structure FirstUnknown (valid : List String) (table : Table Callable) (place : Place)
    (c : Callable) (p : Parameter) : Prop where
  /-- It stands at its place. -/
  stands : Stands table place c p
  /-- Its type is unknown. -/
  unknown : p.type.qualified ∉ valid
  /-- The types of all parameters before it are known. -/
  known : ∀ other d q, other.Before place → Stands table other d q → q.type.qualified ∈ valid

variable {valid : List String} {table : Table Callable}

/-- Where a type is unknown, one of the parameters of unknown types stands first. -/
theorem exists_firstUnknown (h : ∃ row ∈ table, ¬row.2.Known valid) :
    ∃ place c p, FirstUnknown valid table place c p := by
  obtain ⟨i, ⟨key, c⟩, hrow, hunknown, hrows⟩ := exists_first h
  have hsignature : ∃ s ∈ c.overloads.held, ¬∀ p ∈ s, p.type.qualified ∈ valid := by
    simpa [Callable.Known] using hunknown
  obtain ⟨j, s, hs, hunknown, hsignatures⟩ := exists_first hsignature
  have hparameter : ∃ p ∈ s, p.type.qualified ∉ valid := by simpa using hunknown
  obtain ⟨k, p, hp, hunknown, hparameters⟩ := exists_first hparameter
  refine ⟨⟨i, j, k⟩, c, p, ⟨key, s, hrow, hs, hp⟩, hunknown, ?_⟩
  rintro ⟨i', j', k'⟩ d q hbefore ⟨key', s', hrow', hs', hq⟩
  simp only [Place.Before] at hbefore hrow' hs' hq
  have hmem' := List.mem_of_getElem? hs'
  have hmem := List.mem_of_getElem? hq
  rcases hbefore with hentry | ⟨rfl, hrest⟩
  · exact Classical.not_not.mp (hrows i' _ hentry hrow') s' hmem' q hmem
  · obtain rfl := (Prod.mk.inj (Option.some.inj (hrow.symm.trans hrow'))).2
    rcases hrest with hsignature | ⟨rfl, hparameter⟩
    · exact Classical.not_not.mp (hsignatures j' s' hsignature hs') q hmem
    · obtain rfl := Option.some.inj (hs.symm.trans hs')
      exact Classical.not_not.mp (hparameters k' q hparameter hq)

/-- Where a table passes in front, it is verified like the rest. -/
theorem verify_append {front : Table Callable} (h : verify valid front = .ok ())
    (back : Table Callable) : verify valid (front ++ back) = verify valid back := by
  rw [verify_eq_forM] at h
  rw [verify_eq_forM, verify_eq_forM, List.forM_append, h]
  rfl

/-- A table of known types passes. -/
theorem verify_of_known (h : ∀ row ∈ table, row.2.Known valid) : verify valid table = .ok () := by
  induction table with
  | nil => rfl
  | cons row table ih =>
    obtain ⟨hrow, htable⟩ := List.forall_mem_cons.mp h
    rw [verify, Callable.verify, OverloadSet.verify_of_known hrow]
    exact ih htable

/-- The issue of the first parameter of an unknown type is found. -/
theorem FirstUnknown.verify_eq {place : Place} {c : Callable} {p : Parameter}
    (h : FirstUnknown valid table place c p) :
    verify valid table =
      .error (.missingDependency p.type.qualified ("checking argument of " ++ c.name)) := by
  obtain ⟨⟨key, s, hrow, hs, hp⟩, hunknown, hknown⟩ := h
  have hrows : ∀ row ∈ table.take place.entry, row.2.Known valid := by
    rintro ⟨key', d⟩ hrow' s' hs' q hq
    obtain ⟨i, hi, hrow'⟩ := exists_getElem?_of_mem_take hrow'
    obtain ⟨j, hs'⟩ := List.getElem?_of_mem hs'
    obtain ⟨k, hq⟩ := List.getElem?_of_mem hq
    exact hknown ⟨i, j, k⟩ d q (.inl hi) ⟨key', s', hrow', hs', hq⟩
  have hsignatures : ∀ s' ∈ c.overloads.held.take place.signature, ∀ q ∈ s',
      q.type.qualified ∈ valid := by
    intro s' hs' q hq
    obtain ⟨j, hj, hs'⟩ := exists_getElem?_of_mem_take hs'
    obtain ⟨k, hq⟩ := List.getElem?_of_mem hq
    exact hknown ⟨place.entry, j, k⟩ c q (.inr ⟨rfl, .inl hj⟩) ⟨key, s', hrow, hs', hq⟩
  have hparameters : ∀ q ∈ s.take place.parameter, q.type.qualified ∈ valid := by
    intro q hq
    obtain ⟨k, hk, hq⟩ := exists_getElem?_of_mem_take hq
    exact hknown ⟨place.entry, place.signature, k⟩ c q (.inr ⟨rfl, .inr ⟨rfl, hk⟩⟩)
      ⟨key, s, hrow, hs, hq⟩
  have hheld := eq_take_append_cons_drop hs
  rw [eq_take_append_cons_drop hp] at hheld
  have hfound := OverloadSet.verify_of_unknown c.name hheld hsignatures hparameters hunknown
  rw [eq_take_append_cons_drop hrow, verify_append (verify_of_known hrows), verify, Callable.verify,
    Option.getD_none, hfound]

/-- A table passes exactly if all its types are known. -/
theorem verify_eq_ok_iff :
    verify valid table = .ok () ↔ ∀ row ∈ table, row.2.Known valid := by
  refine ⟨fun h => Classical.byContradiction fun hunknown => ?_, verify_of_known⟩
  have hsome : ∃ row ∈ table, ¬row.2.Known valid := by simpa using hunknown
  obtain ⟨place, c, p, hfirst⟩ := exists_firstUnknown hsome
  rw [hfirst.verify_eq] at h
  cases h

/-- A walk over a table passes exactly if all its types are known. Otherwise it stops with the issue
of the first unknown type on behalf of that callable's own name; collecting reports that issue. -/
theorem inspection_finds_first_unknown (valid : List String) (table : Table Callable) :
    ((inspect valid).exec table = (.ok (), table) ↔ ∀ row ∈ table, row.2.Known valid) ∧
    ((∀ row ∈ table, row.2.Known valid) → (collect valid).exec table = (.ok [], table)) ∧
    ((∃ row ∈ table, ¬row.2.Known valid) → ∃ place c p, FirstUnknown valid table place c p) ∧
    ∀ place c p, FirstUnknown valid table place c p →
      let issue : Issue := .missingDependency p.type.qualified ("checking argument of " ++ c.name)
      (inspect valid).exec table = (.error issue, table) ∧
      ∃ found, (collect valid).exec table = (.ok [found], table) ∧
        found.phase = some "validate" ∧ found.text = "error: " ++ issue.text := by
  refine ⟨?_, fun h => ?_, exists_firstUnknown, fun place c p h => ?_⟩
  · rw [exec_inspect, ← verify_eq_ok_iff, Prod.mk.injEq]
    exact and_iff_left rfl
  · rw [exec_collect, diagnostics, verify_of_known h]
  · intro issue
    have hfound : verify valid table = .error issue := h.verify_eq
    refine ⟨by rw [exec_inspect, hfound], issue.diagnostic (some validationPhase), ?_, rfl, ?_⟩
    · rw [exec_collect, diagnostics, hfound]
    · have hreason : issue.reason = "dependency-missing" := rfl
      exact issue.text_diagnostic _ (by rw [hreason]; decide)

/-- A count. -/
def countParameter : Parameter := { name := "n", type := ⟨"size_t", [], .basic, by decide⟩ }

/-- A frame, of a class in a namespace. -/
def frameParameter : Parameter :=
  { name := "f", type := ⟨"Frame", ["geometry"], .wrapped, by decide⟩ }

/-- A callable that has been instantiated. -/
def movingCallable : Callable where
  identity := some ⟨"move", none⟩
  overloads :=
    ⟨[[], [countParameter, { frameParameter with type := ⟨"Value", [], .wrapped, by decide⟩ }]],
      [[], [countParameter, frameParameter]]⟩

/-- Two callables under keys that are not their names. -/
def renamedCallables : Table Callable :=
  [("first", { identity := some ⟨"resize", none⟩,
               overloads := ⟨[[countParameter]], [[countParameter]]⟩ }),
    ("second", movingCallable)]

/-- The class is reported on behalf of the second callable's own name. -/
theorem renamedCallables_found :
    FirstUnknown ["size_t"] renamedCallables ⟨1, 1, 1⟩ movingCallable frameParameter ∧
    (inspect ["size_t"]).exec renamedCallables =
      (.error (.missingDependency "geometry::Frame" "checking argument of move"),
        renamedCallables) := by
  have hfirst : FirstUnknown ["size_t"] renamedCallables ⟨1, 1, 1⟩ movingCallable
      frameParameter := by
    refine ⟨⟨"second", [countParameter, frameParameter], rfl, rfl, rfl⟩, by decide, ?_⟩
    rintro ⟨i, j, k⟩ d q hbefore ⟨key, s, hrow, hs, hq⟩
    have hcount : countParameter.type.qualified ∈ ["size_t"] := by decide
    simp only [Place.Before] at hbefore hrow hs hq
    rcases hbefore with hi | ⟨rfl, hj | ⟨rfl, hk⟩⟩
    · obtain rfl : i = 0 := by omega
      obtain ⟨-, rfl⟩ := Prod.mk.inj (Option.some.inj hrow)
      have hmem := List.mem_of_getElem? hs
      obtain rfl := List.mem_singleton.mp hmem
      obtain rfl := List.mem_singleton.mp (List.mem_of_getElem? hq)
      exact hcount
    · obtain rfl : j = 0 := by omega
      obtain ⟨-, rfl⟩ := Prod.mk.inj (Option.some.inj hrow)
      obtain rfl := Option.some.inj hs
      cases hq
    · obtain rfl : k = 0 := by omega
      obtain ⟨-, rfl⟩ := Prod.mk.inj (Option.some.inj hrow)
      obtain rfl := Option.some.inj hs
      obtain rfl := Option.some.inj hq
      exact hcount
  obtain ⟨-, -, -, hfound⟩ := inspection_finds_first_unknown ["size_t"] renamedCallables
  exact ⟨hfirst, (hfound _ _ _ hfirst).1⟩

end Workspace

end OverloadDispatch
