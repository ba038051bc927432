/-!
# Repeated elements

The repeated elements of a list are those that occur at least twice. Each is listed once, in the
order in which the second occurrences come. They are found by one scan, which remembers what it
has met and what it has met again.
-/

namespace OverloadDispatch.Sequence

variable {α : Type} [DecidableEq α]

/-- What a scan of a list has met so far. -/
structure Scan (α : Type) where
  /-- The elements that were met, each once. -/
  seen : List α := []
  /-- The elements that were met again, by their second occurrences. -/
  again : List α := []
  deriving DecidableEq, Repr

/-- Meet one more element. -/
def Scan.meet (s : Scan α) (x : α) : Scan α :=
  if x ∈ s.seen then
    if x ∈ s.again then s else { s with again := s.again ++ [x] }
  else { s with seen := x :: s.seen }

/-- Meet the elements of a list in order. -/
def scan (xs : List α) : Scan α := xs.foldl Scan.meet {}

/-- The elements that occur at least twice, by their second occurrences. -/
def repeats (xs : List α) : List α := (scan xs).again

/-- What a scan remembers of the elements it has met, in whatever order they came. -/
structure Scan.Covers (s : Scan α) (xs : List α) : Prop where
  /-- The elements that were met are remembered, and no others. -/
  seen : ∀ x, x ∈ s.seen ↔ x ∈ xs
  /-- Those that were met at least twice are listed, and no others. -/
  again : ∀ x, x ∈ s.again ↔ 2 ≤ xs.count x
  /-- None of them is listed twice. -/
  nodup : s.again.Nodup

theorem Scan.covers_nil : ({} : Scan α).Covers [] :=
  ⟨fun _ => Iff.rfl, fun x => by simp, List.nodup_nil⟩

/-- What a scan does with one more element depends on how often it was met before. -/
theorem Scan.Covers.meet_eq {s : Scan α} {xs : List α} (h : s.Covers xs) (x : α) :
    s.meet x =
      if xs.count x = 0 then { s with seen := x :: s.seen }
      else if xs.count x = 1 then { s with again := s.again ++ [x] }
      else s := by
  have hseen : x ∈ s.seen ↔ 1 ≤ xs.count x := (h.seen x).trans List.one_le_count_iff.symm
  have hagain := h.again x
  by_cases hx : x ∈ s.seen
  · have hone := hseen.mp hx
    by_cases ha : x ∈ s.again
    · have htwo := hagain.mp ha
      rw [Scan.meet, if_pos hx, if_pos ha, if_neg (by omega), if_neg (by omega)]
    · have htwo : ¬2 ≤ xs.count x := fun hc => ha (hagain.mpr hc)
      rw [Scan.meet, if_pos hx, if_neg ha, if_neg (by omega), if_pos (by omega)]
  · have hone : ¬1 ≤ xs.count x := fun hc => hx (hseen.mpr hc)
    rw [Scan.meet, if_neg hx, if_pos (by omega)]

/-- Meeting one more element keeps what a scan remembers in step with the elements met. -/
theorem Scan.Covers.meet {s : Scan α} {xs : List α} (h : s.Covers xs) (x : α) :
    (s.meet x).Covers (xs ++ [x]) := by
  have hmem (y : α) : y ∈ xs ++ [x] ↔ y ∈ xs ∨ y = x := by
    rw [List.mem_append, List.mem_singleton]
  have hcount (y : α) : (xs ++ [x]).count y = xs.count y + if x = y then 1 else 0 := by
    simp only [List.count_append, List.count_singleton, beq_iff_eq]
  -- Only the second occurrence of an element brings its count to two.
  have hkept (hx : xs.count x ≠ 1) (y : α) : y ∈ s.again ↔ 2 ≤ (xs ++ [x]).count y := by
    rw [h.again y, hcount y]
    by_cases hy : x = y
    · subst y
      rw [if_pos rfl]
      omega
    · rw [if_neg hy, Nat.add_zero]
  have hseen (hx : xs.count x ≠ 0) (y : α) : y ∈ s.seen ↔ y ∈ xs ++ [x] := by
    have hin : x ∈ xs := List.one_le_count_iff.mp (by omega)
    rw [h.seen y, hmem y]
    exact ⟨Or.inl, fun hy => hy.elim id fun e => e ▸ hin⟩
  rw [h.meet_eq x]
  by_cases hzero : xs.count x = 0
  · rw [if_pos hzero]
    refine ⟨fun y => ?_, hkept (by omega), h.nodup⟩
    rw [hmem y, List.mem_cons, h.seen y]
    exact or_comm
  · rw [if_neg hzero]
    by_cases hone : xs.count x = 1
    · rw [if_pos hone]
      refine ⟨hseen hzero, fun y => ?_, ?_⟩
      · rw [List.mem_append, List.mem_singleton, h.again y, hcount y]
        by_cases hy : x = y
        · subst y
          simp only [if_true, or_true, true_iff]
          omega
        · rw [if_neg hy, Nat.add_zero, or_iff_left (Ne.symm hy)]
      · have hx : x ∉ s.again := by
          rw [h.again x]
          omega
        exact List.nodup_append.mpr ⟨h.nodup, List.pairwise_singleton _ x, fun a ha b hb e =>
          hx (List.mem_singleton.mp hb ▸ e ▸ ha)⟩
    · rw [if_neg hone]
      exact ⟨hseen hzero, hkept hone, h.nodup⟩

/-- A scan that goes on remembers all elements of both parts. -/
theorem Scan.Covers.foldl {s : Scan α} {before : List α} (h : s.Covers before) (xs : List α) :
    (xs.foldl Scan.meet s).Covers (before ++ xs) := by
  induction xs generalizing s before with
  | nil => simpa using h
  | cons x xs ih => simpa using ih (h.meet x)

theorem covers_scan (xs : List α) : (scan xs).Covers xs := by
  simpa [scan] using Scan.covers_nil.foldl xs

/-- The repeated elements are those that occur at least twice. -/
theorem mem_repeats {xs : List α} {x : α} : x ∈ repeats xs ↔ 2 ≤ xs.count x :=
  (covers_scan xs).again x

/-- Every repeated element is listed once. -/
theorem nodup_repeats (xs : List α) : (repeats xs).Nodup := (covers_scan xs).nodup

/-- One more element is listed exactly when it occurred once before. -/
theorem repeats_concat (xs : List α) (x : α) :
    repeats (xs ++ [x]) = if xs.count x = 1 then repeats xs ++ [x] else repeats xs := by
  have hstep : scan (xs ++ [x]) = (scan xs).meet x := by simp [scan]
  rw [repeats, hstep, (covers_scan xs).meet_eq x, repeats]
  by_cases hzero : xs.count x = 0
  · rw [if_pos hzero, if_neg (by omega)]
  · rw [if_neg hzero]
    split <;> rfl

end OverloadDispatch.Sequence
