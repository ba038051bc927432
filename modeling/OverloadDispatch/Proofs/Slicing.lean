import Mathlib.Data.List.FinRange
import Mathlib.Data.List.Range
import OverloadDispatch.Sequence.Slice
import OverloadDispatch.Signature.Basic

/-!
# What a slice selects

A slice walks from its first place in equal steps and stops in front of its limit. Both were moved
to the ends of the list, so every place on the walk is a position in the list, whatever the bounds
were. A front and a back that are cut at one bound make up the list, a walk backward over all of it
is its reverse, and what is done to the elements one by one may be done before or after.
-/

namespace OverloadDispatch

namespace Sequence.Slice

variable {α β : Type} {s : Slice}

/-! ## Bounds -/

theorem least_le_greatest (s : Slice) (size : Nat) : s.least ≤ s.greatest size := by
  unfold least greatest
  split <;> omega

/-- A bound is moved between the least and the greatest one. -/
theorem clamp_bounds (s : Slice) (size : Nat) (bound : Int) :
    s.least ≤ s.clamp size bound ∧ s.clamp size bound ≤ s.greatest size := by
  unfold clamp least greatest
  split <;> split <;> omega

theorem first_bounds (s : Slice) (size : Nat) :
    s.least ≤ s.first size ∧ s.first size ≤ s.greatest size := by
  have hends := s.least_le_greatest size
  unfold first
  split
  · exact s.clamp_bounds size _
  · split
    · exact ⟨hends, Int.le_refl _⟩
    · exact ⟨Int.le_refl _, hends⟩

theorem limit_bounds (s : Slice) (size : Nat) :
    s.least ≤ s.limit size ∧ s.limit size ≤ s.greatest size := by
  have hends := s.least_le_greatest size
  unfold limit
  split
  · exact s.clamp_bounds size _
  · split
    · exact ⟨Int.le_refl _, hends⟩
    · exact ⟨hends, Int.le_refl _⟩

/-- A walk forward is bounded by the front and the place behind the end. -/
theorem ends_of_pos (h : 0 < s.stride) (size : Nat) : s.least = 0 ∧ s.greatest size = size :=
  ⟨if_neg (by omega), if_neg (by omega)⟩

/-- A walk backward is bounded by the place before the front and the last one. -/
theorem ends_of_neg (h : s.stride < 0) (size : Nat) :
    s.least = -1 ∧ s.greatest size = size - 1 :=
  ⟨if_pos h, if_pos h⟩

/-! ## Places -/

/-- The place to which a number of steps leads. -/
def place (s : Slice) (size k : Nat) : Int := s.first size + k * s.stride

/-- Whether a walk would come by the first of two places before it comes by the second. -/
def Before (s : Slice) (i j : Int) : Prop := 0 < s.stride ∧ i < j ∨ s.stride < 0 ∧ j < i

theorem before_of_pos (h : 0 < s.stride) {i j : Int} : s.Before i j ↔ i < j := by
  unfold Before
  omega

theorem before_of_neg (h : s.stride < 0) {i j : Int} : s.Before i j ↔ j < i := by
  unfold Before
  omega

/-- The number of steps between two bounds, rounded up, is that of the steps that begin before the
stop. -/
theorem lt_steps_iff {start stop stride : Int} (h : 0 < stride) (k : Nat) :
    (k < if start < stop then ((stop - start - 1) / stride + 1).toNat else 0) ↔
      start + k * stride < stop := by
  split
  · have hsteps : (k : Int) ≤ (stop - start - 1) / stride ↔ k * stride ≤ stop - start - 1 :=
      Int.le_ediv_iff_mul_le h
    omega
  · have hforward : 0 ≤ k * stride := Int.mul_nonneg (Int.natCast_nonneg k) (Int.le_of_lt h)
    omega

/-- A place is on the walk exactly if it comes before the limit. -/
theorem lt_count_iff (h : s.stride ≠ 0) (size k : Nat) :
    k < s.count size ↔ s.Before (s.place size k) (s.limit size) := by
  rcases Int.lt_or_gt_of_ne h with hneg | hpos
  · have hback : 0 < -s.stride := by omega
    rw [count, if_neg (by omega), lt_steps_iff hback, before_of_neg hneg, place, Int.mul_neg]
    omega
  · rw [count, if_pos hpos, lt_steps_iff hpos, before_of_pos hpos, place]

/-- Every place on the walk is a position in the list. -/
theorem place_bounds (h : s.stride ≠ 0) {size k : Nat} (hk : k < s.count size) :
    0 ≤ s.place size k ∧ s.place size k < size := by
  have hfirst := s.first_bounds size
  have hlimit := s.limit_bounds size
  have hk := (lt_count_iff h size k).mp hk
  have hsteps : 0 ≤ (k : Int) := Int.natCast_nonneg k
  rcases Int.lt_or_gt_of_ne h with hneg | hpos
  · obtain ⟨hleast, hgreatest⟩ := ends_of_neg hneg size
    have hbackward : k * s.stride ≤ 0 :=
      Int.mul_nonpos_of_nonneg_of_nonpos hsteps (Int.le_of_lt hneg)
    rw [before_of_neg hneg] at hk
    unfold place at hk ⊢
    omega
  · obtain ⟨hleast, hgreatest⟩ := ends_of_pos hpos size
    have hforward : 0 ≤ k * s.stride := Int.mul_nonneg hsteps (Int.le_of_lt hpos)
    rw [before_of_pos hpos] at hk
    unfold place at hk ⊢
    omega

/-- The positions at the places of the walk. -/
def indices (s : Slice) (h : s.stride ≠ 0) (size : Nat) : List (Fin size) :=
  (List.finRange (s.count size)).map fun k : Fin (s.count size) =>
    ⟨(s.place size k).toNat, (Int.toNat_lt (place_bounds h k.isLt).1).mpr (place_bounds h k.isLt).2⟩

/-- The positions are those to which some number of steps leads before the limit. -/
theorem mem_indices_iff (h : s.stride ≠ 0) {size : Nat} {i : Fin size} :
    i ∈ s.indices h size ↔
      ∃ k : Nat, (i : Int) = s.place size k ∧ s.Before (s.place size k) (s.limit size) := by
  rw [indices, List.mem_map]
  constructor
  · rintro ⟨k, -, rfl⟩
    have hposition := Int.toNat_of_nonneg (place_bounds h k.isLt).1
    exact ⟨k, hposition, (lt_count_iff h size k).mp k.isLt⟩
  · rintro ⟨k, hi, hbefore⟩
    refine ⟨⟨k, (lt_count_iff h size k).mpr hbefore⟩, List.mem_finRange _, Fin.ext ?_⟩
    change (s.place size k).toNat = i
    rw [← hi, Int.toNat_natCast]

/-- As integers the positions are the places of the walk, in the same order. -/
theorem map_coe_indices (h : s.stride ≠ 0) (size : Nat) :
    (s.indices h size).map (fun i : Fin size => (i : Int)) = s.places size := by
  rw [indices, places, ← List.map_coe_finRange_eq_range, List.map_map, List.map_map]
  refine List.map_congr_left fun k _ => ?_
  exact Int.toNat_of_nonneg (place_bounds h k.isLt).1

/-- The elements at the places of the walk are those at the positions; none is missing. -/
theorem pick_eq_map_get (h : s.stride ≠ 0) (xs : List α) :
    s.pick xs = (s.indices h xs.length).map xs.get := by
  rw [pick, ← map_coe_indices h, List.filterMap_map, ← List.filterMap_eq_map]
  refine List.filterMap_congr fun i _ => ?_
  simp

/-! ## Progressions -/

/-- What is known of the positions that a slice selects from a list of a given size. -/
structure Selects (s : Slice) (size : Nat) (positions : List (Fin size)) : Prop where
  /-- From each position one step leads to the next one. -/
  steps : positions.IsChain fun i j : Fin size => (j : Int) = i + s.stride
  /-- A walk forward comes to greater positions. -/
  forward : 0 < s.stride → positions.Pairwise (· < ·)
  /-- A walk backward comes to lesser positions. -/
  backward : s.stride < 0 → positions.Pairwise (· > ·)
  /-- The positions are those to which steps lead from the first place before the limit. -/
  reached : ∀ i : Fin size, i ∈ positions ↔
    ∃ k : Nat, (i : Int) = s.place size k ∧ s.Before (s.place size k) (s.limit size)

/-- The places of a walk are one step apart. -/
theorem isChain_places (s : Slice) (size : Nat) :
    (s.places size).IsChain fun i j => j = i + s.stride := by
  rw [places, List.isChain_map, List.isChain_range]
  intro k _
  rw [Nat.succ_eq_add_one, Int.natCast_add, Int.add_mul]
  omega

theorem selects_indices (h : s.stride ≠ 0) (size : Nat) : s.Selects size (s.indices h size) := by
  have hsteps : (s.indices h size).IsChain fun i j : Fin size => (j : Int) = i + s.stride := by
    have hplaces := s.isChain_places size
    rwa [← map_coe_indices h, List.isChain_map] at hplaces
  refine ⟨hsteps, fun hpos => ?_, fun hneg => ?_, fun i => mem_indices_iff h⟩
  · have hless : (s.indices h size).IsChain (· < ·) := by
      refine hsteps.imp fun i j hstep => ?_
      rw [Fin.lt_def]
      omega
    exact hless.pairwise
  · have hmore : (s.indices h size).IsChain (· > ·) := by
      refine hsteps.imp fun i j hstep => ?_
      rw [gt_iff_lt, Fin.lt_def]
      omega
    exact hmore.pairwise

/-! ## Laws of slices -/

/-- Only a step of zero is refused. -/
theorem apply_eq_ok (h : s.stride ≠ 0) (xs : List α) : s.apply xs = .ok (s.pick xs) := if_neg h

/-- A step that is absent or not zero leads from one place to another. -/
theorem stride_ne_zero (h : s.step ≠ some 0) : s.stride ≠ 0 := by
  unfold stride
  cases hstep : s.step with
  | none => decide
  | some step => simpa [hstep] using h

/-- What is made of the elements one by one is made of those that are selected. -/
theorem pick_map (s : Slice) (f : α → β) (xs : List α) : s.pick (xs.map f) = (s.pick xs).map f := by
  rw [pick, pick, List.length_map, List.map_filterMap]
  simp only [List.getElem?_map]

/-- Behind as many others as there are steps stands the element to which they lead. -/
theorem getElem?_pick (h : s.stride ≠ 0) (xs : List α) (k : Nat) :
    (s.pick xs)[k]? =
      if k < s.count xs.length then xs[(s.place xs.length k).toNat]? else none := by
  rw [pick_eq_map_get h, indices, List.map_map, List.getElem?_map]
  split
  · next hk => simp [hk]
  · next hk => simp [hk]

/-- Steps of one forward select the elements between the first place and the limit. -/
theorem pick_of_stride_one (h : s.stride = 1) (xs : List α) :
    s.pick xs = (xs.take (s.limit xs.length).toNat).drop (s.first xs.length).toNat := by
  have hpos : 0 < s.stride := by omega
  have hne : s.stride ≠ 0 := by omega
  have hfirst : 0 ≤ s.first xs.length :=
    (ends_of_pos hpos xs.length).1 ▸ (s.first_bounds xs.length).1
  apply List.ext_getElem?
  intro k
  have hplace : s.place xs.length k = s.first xs.length + k := by rw [place, h, Int.mul_one]
  have hcount : k < s.count xs.length ↔ s.first xs.length + k < s.limit xs.length := by
    rw [lt_count_iff hne, before_of_pos hpos, hplace]
  have hposition : (s.first xs.length + k).toNat = (s.first xs.length).toNat + k := by omega
  rw [getElem?_pick hne, hplace, hposition, List.getElem?_drop, List.getElem?_take]
  by_cases hk : k < s.count xs.length
  · rw [if_pos hk, if_pos (by omega)]
  · rw [if_neg hk, if_neg (by omega)]

/-- The front of a list up to a bound and its back from there make up the list. -/
theorem pick_append_pick (bound : Int) (xs : List α) :
    pick { stop := some bound } xs ++ pick { start := some bound } xs = xs := by
  let front : Slice := { stop := some bound }
  let back : Slice := { start := some bound }
  have hfront : front.pick xs = xs.take (front.limit xs.length).toNat :=
    pick_of_stride_one rfl xs
  have hback : back.pick xs = xs.drop (back.first xs.length).toNat := by
    have hall : back.limit xs.length = xs.length := rfl
    rw [pick_of_stride_one rfl, hall, Int.toNat_natCast, List.take_length]
  -- The bound is moved to the same place where it ends the front and where it begins the back.
  have hbound : front.limit xs.length = back.first xs.length := rfl
  rw [hfront, hback, hbound, List.take_append_drop]

/-- Steps of one backward over the whole list reverse it. -/
theorem pick_backward (xs : List α) : pick { step := some (-1) } xs = xs.reverse := by
  let s : Slice := { step := some (-1) }
  have hneg : s.stride < 0 := by decide
  have hne : s.stride ≠ 0 := by decide
  have hplace (k : Nat) : s.place xs.length k = xs.length - 1 - k := by
    change (xs.length - 1 : Int) + k * -1 = _
    omega
  apply List.ext_getElem?
  intro k
  have hcount : k < s.count xs.length ↔ k < xs.length := by
    have hlimit : s.limit xs.length = -1 := rfl
    rw [lt_count_iff hne, before_of_neg hneg, hplace, hlimit]
    omega
  rw [getElem?_pick hne, hplace]
  by_cases hk : k < xs.length
  · have hposition : (xs.length - 1 - k : Int).toNat = xs.length - 1 - k := by omega
    rw [if_pos (hcount.mpr hk), List.getElem?_reverse hk, hposition]
  · rw [if_neg (mt hcount.mp hk), List.getElem?_eq_none (by rw [List.length_reverse]; omega)]

end Sequence.Slice

namespace Signature

open Sequence

/-- The names, the types and the instances of what is selected are selected alike. -/
theorem pick_names (s : Slice) (l : Signature) : s.pick l.names = names (s.pick l) :=
  s.pick_map Parameter.name l

theorem pick_types (s : Slice) (l : Signature) : s.pick l.types = types (s.pick l) :=
  s.pick_map Parameter.type l

theorem pick_expand (s : Slice) (t : Substitution) (l : Signature) :
    s.pick (l.expand t) = expand t (s.pick l) :=
  s.pick_map (Parameter.expand t) l

/-- A slice with any bounds, and any step but zero, selects the parameters at the positions of an
arithmetic progression, and so it does with the names, the types and the instances. -/
theorem slices_select_progressions (l : Signature) :
    (∀ s : Slice, s.step ≠ some 0 → ∃ positions part,
      s.Selects l.length positions ∧ s.apply l = .ok part ∧ part = positions.map l.get ∧
      s.apply l.names = .ok (names part) ∧ s.apply l.types = .ok (types part) ∧
      ∀ t, s.apply (l.expand t) = .ok (expand t part)) ∧
    (∀ bound, ∃ front back, Slice.apply { stop := some bound } l = .ok front ∧
      Slice.apply { start := some bound } l = .ok back ∧ front ++ back = l) ∧
    ∃ backward, Slice.apply { step := some (-1) } l = .ok backward ∧ backward = l.reverse ∧
      Slice.apply { step := some (-1) } backward = .ok l := by
  refine ⟨fun s hstep => ?_, fun bound => ?_, ?_⟩
  · have h := Slice.stride_ne_zero hstep
    refine ⟨s.indices h l.length, s.pick l, Slice.selects_indices h l.length,
      Slice.apply_eq_ok h l, Slice.pick_eq_map_get h l, ?_, ?_, fun t => ?_⟩
    · rw [Slice.apply_eq_ok h, pick_names]
    · rw [Slice.apply_eq_ok h, pick_types]
    · rw [Slice.apply_eq_ok h, pick_expand]
  · have hforward {s : Slice} (hstep : s.step = none) : s.apply l = .ok (s.pick l) :=
      Slice.apply_eq_ok (Slice.stride_ne_zero (by simp [hstep])) l
    exact ⟨_, _, hforward rfl, hforward rfl, Slice.pick_append_pick bound l⟩
  · have hbackward (k : Signature) : Slice.apply { step := some (-1) } k = .ok k.reverse := by
      rw [Slice.apply_eq_ok (by decide), Slice.pick_backward]
    refine ⟨l.reverse, hbackward l, rfl, ?_⟩
    rw [hbackward, List.reverse_reverse]

/-- Bounds far beyond both ends are moved to the ends, and a walk backward leaves places out. -/
theorem farBounds_selected :
    let z : Parameter := { name := "z", type := { name := "Pose3", namespaces := ["gtsam"] } }
    let y : Parameter := { name := "y", type := { name := "Point3", namespaces := ["gtsam"] } }
    let x : Parameter := { name := "x", type := { name := "Rot3", namespaces := ["gtsam"] } }
    let s : Slice :=
      { start := some 1000000000000000000000000000000,
        stop := some (-1000000000000000000000000000000), step := some (-2) }
    (∃ positions, s.Selects 3 positions ∧ positions.map [x, y, z].get = [z, x] ∧
      s.apply (names [x, y, z]) = .ok ["z", "x"]) ∧
    ∃ front back, Slice.apply { stop := some (-1) } [x, y, z] = .ok front ∧
      Slice.apply { start := some (-1) } [x, y, z] = .ok back ∧ front ++ back = [x, y, z] := by
  intro z y x s
  obtain ⟨hslices, hparts, -⟩ := slices_select_progressions [x, y, z]
  obtain ⟨positions, part, hselects, hpart, hpositions, hnames, -⟩ := hslices s (by decide)
  have hends : s.apply [x, y, z] = .ok [z, x] := eq_ok_of_toOption (by decide)
  obtain rfl : part = [z, x] := Except.ok.inj (hpart.symm.trans hends)
  exact ⟨⟨positions, hselects, hpositions.symm, hnames⟩, hparts (-1)⟩

end Signature

end OverloadDispatch
