import Mathlib.Data.Finset.Card
import OverloadDispatch.Proofs.Validation

/-!
# Completing the valid spellings

A verification reports one missing spelling at a time. If each reported spelling is added to the
valid ones before the table is verified again, a spelling is never reported twice, so the rounds
come to an end: the measure is the number of held types that are still unknown. What the rounds
report are the distinct unknown spellings in the order in which they first occur.
-/

namespace OverloadDispatch

namespace OverloadSet

variable {valid spellings : List String} {a : String}

/-- The first unknown spelling is one of the unknown spellings. -/
theorem mem_of_firstUnknown?_eq_some (h : firstUnknown? valid spellings = some a) :
    a ∈ spellings ∧ a ∉ valid := by
  refine ⟨List.mem_of_find?_eq_some h, ?_⟩
  have hunknown := List.find?_some h
  simpa using hunknown

/-- No other unknown spelling occurs in front of the first one. -/
theorem idxOf_lt_of_firstUnknown?_eq_some (h : firstUnknown? valid spellings = some a) {b : String}
    (hunknown : b ∉ valid) (hne : b ≠ a) :
    spellings.idxOf a < spellings.idxOf b := by
  obtain ⟨ha, front, back, hsplit, hknown⟩ := List.find?_eq_some_iff_append.mp h
  have hfront : ∀ c ∉ valid, c ∉ front := by
    intro c hc hmem
    have hvalid := hknown c hmem
    simp [hc] at hvalid
  have ha : a ∉ valid := by simpa using ha
  rw [hsplit, List.idxOf_append_of_notMem (hfront a ha),
    List.idxOf_append_of_notMem (hfront b hunknown), List.idxOf_cons_self,
    List.idxOf_cons_ne _ hne.symm]
  omega

end OverloadSet

namespace Workspace

/-- The spellings of all held types, in the order of the table, of the signatures and of the
parameters. -/
def spellings (table : Table Callable) : List String :=
  table.flatMap fun row => row.2.overloads.types.map QualifiedType.qualified

/-- The spelling that a verification reports as missing, if it reports one. -/
def reported? (table : Table Callable) (valid : List String) : Option String :=
  match verify valid table with
  | .error (.missingDependency typeName _) => some typeName
  | _ => none

/-- What is reported is the first unknown spelling. -/
theorem reported?_eq (table : Table Callable) (valid : List String) :
    reported? table valid = OverloadSet.firstUnknown? valid (spellings table) := by
  induction table with
  | nil => rfl
  | cons row table ih =>
    have hsplit : OverloadSet.firstUnknown? valid (spellings (row :: table)) =
        (row.2.overloads.firstMissing? valid).or
          (OverloadSet.firstUnknown? valid (spellings table)) :=
      List.find?_append
    rw [hsplit, ← ih, reported?, verify, Callable.verify, OverloadSet.verify]
    cases row.2.overloads.firstMissing? valid <;> rfl

/-- The held types that are still unknown, with their repetitions. -/
def unknown (table : Table Callable) (valid : List String) : List String :=
  (spellings table).filter fun spelling => !valid.contains spelling

/-- How a sequence of verifications ends. -/
structure Repair where
  /-- The spellings that were reported, one in each round that did not pass. -/
  reported : List String
  /-- The valid spellings in the end. -/
  valid : List String
  deriving DecidableEq, Repr

/-- What a sequence of verifications has reported when it ends. -/
structure Repair.Complete (table : Table Callable) (valid : List String) (run : Repair) : Prop where
  /-- Reported are the unknown spellings. -/
  mem_reported : ∀ a, a ∈ run.reported ↔ a ∈ spellings table ∧ a ∉ valid
  /-- They are reported in the order in which they first occur. -/
  ordered : run.reported.Pairwise fun a b => (spellings table).idxOf a < (spellings table).idxOf b
  /-- They are all that is added. -/
  valid_eq : run.valid = valid ++ run.reported
  /-- In the end the table passes. -/
  passes : verify run.valid table = .ok ()

/-- A round that reports a spelling, in front of a sequence that starts with the spelling added. -/
theorem Repair.Complete.cons {table : Table Callable} {valid : List String} {a : String}
    (h : reported? table valid = some a) {later : Repair}
    (hlater : Complete table (valid ++ [a]) later) :
    Complete table valid { later with reported := a :: later.reported } := by
  rw [reported?_eq] at h
  obtain ⟨hmem, hunknown⟩ := OverloadSet.mem_of_firstUnknown?_eq_some h
  refine ⟨fun b => ?_, List.pairwise_cons.mpr ⟨fun b hb => ?_, hlater.ordered⟩, ?_, hlater.passes⟩
  · rw [List.mem_cons, hlater.mem_reported, List.mem_append, List.mem_singleton, not_or]
    by_cases hb : b = a
    · subst hb
      simp [hmem, hunknown]
    · simp [hb]
  · obtain ⟨-, hb⟩ := (hlater.mem_reported b).mp hb
    rw [List.mem_append, List.mem_singleton, not_or] at hb
    exact OverloadSet.idxOf_lt_of_firstUnknown?_eq_some h hb.1 hb.2
  · rw [hlater.valid_eq, List.append_assoc]
    rfl

/-- No spelling is reported twice. -/
theorem Repair.Complete.nodup {table : Table Callable} {valid : List String} {run : Repair}
    (h : Complete table valid run) : run.reported.Nodup := by
  refine h.ordered.imp fun {a b} hlt hab => ?_
  subst hab
  exact Nat.lt_irrefl _ hlt

end Workspace

end OverloadDispatch
