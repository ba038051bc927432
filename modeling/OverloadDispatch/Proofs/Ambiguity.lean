import Mathlib.Data.List.Duplicate
import Mathlib.Data.List.Forall2
import Mathlib.Data.List.Induction
import Mathlib.Data.List.NodupEquivFin
import OverloadDispatch.Guard.Build

/-!
# Exactness of the ambiguity check

The shared lengths of a list of signatures are listed by the positions of their second
occurrences. The check built from them hits a call exactly when the arity checks of two
signatures at different positions let the call pass and no keyword could tell these apart.
-/

namespace OverloadDispatch

namespace Sequence

variable {α : Type} [DecidableEq α]

/-- The second occurrence of an element: it stands at the place, and once before. -/
def SecondAt (xs : List α) (x : α) (i : Nat) : Prop := xs[i]? = some x ∧ (xs.take i).count x = 1

theorem SecondAt.lt_length {xs : List α} {x : α} {i : Nat} (h : SecondAt xs x i) :
    i < xs.length :=
  (List.getElem?_eq_some_iff.mp h.1).1

theorem SecondAt.append {xs : List α} {x : α} {i : Nat} (h : SecondAt xs x i) (ys : List α) :
    SecondAt (xs ++ ys) x i := by
  have hi := h.lt_length
  refine ⟨?_, ?_⟩
  · rw [List.getElem?_append_left hi]
    exact h.1
  · rw [List.take_append_of_le_length hi.le]
    exact h.2

theorem secondAt_concat {xs : List α} {x : α} (h : xs.count x = 1) :
    SecondAt (xs ++ [x]) x xs.length := by
  refine ⟨List.getElem?_concat_length, ?_⟩
  rw [List.take_left]
  exact h

/-- The repeated elements stand in the order of their second occurrences. -/
theorem exists_secondAt_repeats (xs : List α) :
    ∃ places : List Nat, places.Pairwise (· < ·) ∧
      List.Forall₂ (SecondAt xs) (repeats xs) places := by
  induction xs using List.reverseRecOn with
  | nil => exact ⟨[], List.Pairwise.nil, List.Forall₂.nil⟩
  | append_singleton xs x ih =>
    obtain ⟨places, hlt, hsecond⟩ := ih
    have hkept : List.Forall₂ (SecondAt (xs ++ [x])) (repeats xs) places :=
      hsecond.imp fun _ _ h => h.append [x]
    rw [repeats_concat]
    by_cases hone : xs.count x = 1
    · rw [if_pos hone]
      refine ⟨places ++ [xs.length], ?_, ?_⟩
      · refine List.pairwise_append.mpr ⟨hlt, List.pairwise_singleton _ _, ?_⟩
        intro i hi j hj
        obtain ⟨y, hy⟩ : ∃ y, SecondAt xs y i := by
          obtain ⟨k, hk, rfl⟩ := List.mem_iff_getElem.mp hi
          exact ⟨_, hsecond.get (hsecond.length_eq ▸ hk) hk⟩
        rw [List.mem_singleton.mp hj]
        exact hy.lt_length
      · exact List.rel_append hkept (List.Forall₂.cons (secondAt_concat hone) List.Forall₂.nil)
    · rw [if_neg hone]
      exact ⟨places, hlt, hkept⟩

end Sequence

/-- A length is shared when at least two signatures have it. -/
theorem mem_duplicateArities {signatures : List Signature} {n : Nat} :
    n ∈ duplicateArities signatures ↔ 2 ≤ (signatures.map List.length).count n :=
  Sequence.mem_repeats

theorem duplicateArities_eq_nil_iff {signatures : List Signature} :
    duplicateArities signatures = [] ↔ (signatures.map List.length).Nodup := by
  rw [List.eq_nil_iff_forall_not_mem, List.nodup_iff_forall_not_duplicate]
  exact forall_congr' fun n => not_congr
    (mem_duplicateArities.trans List.duplicate_iff_two_le_count.symm)

/-- A length is shared when signatures at two different positions have it. -/
theorem mem_duplicateArities_iff_exists {signatures : List Signature} {n : Nat} :
    n ∈ duplicateArities signatures ↔
      ∃ (i j : Nat) (s t : Signature), i < j ∧ signatures[i]? = some s ∧
        signatures[j]? = some t ∧ s.length = n ∧ t.length = n := by
  rw [mem_duplicateArities, ← List.duplicate_iff_two_le_count,
    List.duplicate_iff_exists_distinct_get]
  constructor
  · rintro ⟨i, j, hij, hi, hj⟩
    have hlen : (signatures.map List.length).length = signatures.length := List.length_map _
    refine ⟨i, j, _, _, hij, List.getElem?_eq_getElem (hlen ▸ i.isLt),
      List.getElem?_eq_getElem (hlen ▸ j.isLt), ?_, ?_⟩
    · rw [hi, List.get_eq_getElem, List.getElem_map]
    · rw [hj, List.get_eq_getElem, List.getElem_map]
  · rintro ⟨i, j, s, t, hij, hi, hj, hs, ht⟩
    obtain ⟨hil, rfl⟩ := List.getElem?_eq_some_iff.mp hi
    obtain ⟨hjl, rfl⟩ := List.getElem?_eq_some_iff.mp hj
    refine ⟨⟨i, by rwa [List.length_map]⟩, ⟨j, by rwa [List.length_map]⟩, hij, ?_, ?_⟩
    · rw [List.get_eq_getElem, List.getElem_map, hs]
    · rw [List.get_eq_getElem, List.getElem_map, ht]

/-- Signatures of a length that is not shared stand at one position. -/
theorem index_unique_of_not_mem {signatures : List Signature} {n : Nat}
    (h : n ∉ duplicateArities signatures) {i j : Nat} {s t : Signature}
    (hi : signatures[i]? = some s) (hj : signatures[j]? = some t) (hs : s.length = n)
    (ht : t.length = n) : i = j := by
  rw [mem_duplicateArities_iff_exists] at h
  rcases Nat.lt_trichotomy i j with hlt | heq | hgt
  · exact absurd ⟨i, j, s, t, hlt, hi, hj, hs, ht⟩ h
  · exact heq
  · exact absurd ⟨j, i, t, s, hgt, hj, hi, ht, hs⟩ h

theorem count_map_length (signatures : List Signature) (n : Nat) :
    (signatures.map List.length).count n = signatures.countP fun s => s.length = n := by
  rw [List.count, List.countP_map]
  rfl

namespace Guard

/-- A guard lets a call pass by number: one of its nodes is an arity check that accepts it. -/
def PassesArity (g : Guard) (positional keywords : Int) : Prop :=
  ∃ arity onMismatch, Node.arityCheck arity onMismatch ∈ g ∧
    Node.accepts arity positional keywords = true

/-- The guard of a signature lets exactly the calls pass that have as many arguments. -/
theorem passesArity_dispatch {s : Signature} {isVoid : Bool} {positional keywords : Int} :
    (dispatch s isVoid).PassesArity positional keywords ↔
      positional + keywords = s.length := by
  constructor
  · rintro ⟨arity, onMismatch, hmem, haccepts⟩
    have harity : arity = s.length := by
      cases s with
      | nil => exact (Node.arityCheck.inj (List.mem_singleton.mp hmem)).1
      | cons q params =>
        simp only [dispatch, List.mem_cons, Node.arityCheck.injEq, reduceCtorEq, List.not_mem_nil,
          or_false] at hmem
        exact hmem.1
    rw [Node.accepts, beq_iff_eq, harity] at haccepts
    exact haccepts
  · intro h
    exact ⟨s.length, .noMatch isVoid, List.mem_cons_self, by rw [Node.accepts, beq_iff_eq, h]⟩

/-- The check of a list of signatures lists the shared lengths, if there are any. -/
theorem ambiguity_eq (signatures : List Signature) :
    ambiguity signatures =
      if duplicateArities signatures = [] then []
      else [.ambiguityCheck ((duplicateArities signatures).map Int.ofNat) Node.ambiguousCall] := by
  rw [ambiguity]
  cases h : duplicateArities signatures with
  | nil => rfl
  | cons n rest => rw [if_neg (List.cons_ne_nil n rest)]

/-- The check hits the calls without keywords that have a shared number of arguments. -/
theorem hits_ambiguity {signatures : List Signature} {positional keywords : Nat} :
    (ambiguity signatures).hits positional keywords = true ↔
      keywords = 0 ∧ positional ∈ duplicateArities signatures := by
  rw [ambiguity_eq]
  by_cases hnil : duplicateArities signatures = []
  · rw [if_pos hnil, hnil]
    simp [hits]
  · rw [if_neg hnil]
    simp only [hits, List.any_cons, List.any_nil, Bool.or_false, Node.hits, Node.fires,
      Bool.and_eq_true, beq_iff_eq, List.contains_iff_mem, List.mem_map]
    constructor
    · rintro ⟨hk, n, hn, he⟩
      have hp : n = positional := by
        have : (n : Int) = positional + keywords := he
        omega
      exact ⟨by omega, hp ▸ hn⟩
    · rintro ⟨rfl, hp⟩
      exact ⟨rfl, positional, hp, by simp⟩

/-- The check hits a call exactly when it has no keyword and passes two guards by number. -/
theorem hits_ambiguity_iff_exists {signatures : List Signature} {positional keywords : Nat}
    (isVoid : Bool) :
    (ambiguity signatures).hits positional keywords = true ↔
      keywords = 0 ∧ ∃ (i j : Nat) (s t : Signature), i < j ∧
        signatures[i]? = some s ∧ signatures[j]? = some t ∧
        (dispatch s isVoid).PassesArity positional keywords ∧
        (dispatch t isVoid).PassesArity positional keywords := by
  rw [hits_ambiguity]
  refine and_congr_right fun hk => ?_
  have hlength (s : Signature) : s.length = positional ↔
      (dispatch s isVoid).PassesArity positional keywords := by
    rw [passesArity_dispatch, hk]
    omega
  simp only [mem_duplicateArities_iff_exists, hlength]

/-- Where the check misses a call without keywords, at most one guard lets it pass by number. -/
theorem index_unique_of_not_hits {signatures : List Signature} {positional keywords : Nat}
    {isVoid : Bool} (hmiss : (ambiguity signatures).hits positional keywords = false)
    (hk : keywords = 0) {i j : Nat} {s t : Signature} (hi : signatures[i]? = some s)
    (hj : signatures[j]? = some t) (hs : (dispatch s isVoid).PassesArity positional keywords)
    (ht : (dispatch t isVoid).PassesArity positional keywords) : i = j := by
  have hmem : positional ∉ duplicateArities signatures := fun h =>
    Bool.eq_false_iff.mp hmiss (hits_ambiguity.mpr ⟨hk, h⟩)
  rw [passesArity_dispatch] at hs ht
  exact index_unique_of_not_mem hmem hi hj (by omega) (by omega)

/-- One more signature shares its length anew exactly when one signature had that length. -/
theorem duplicateArities_concat (signatures : List Signature) (s : Signature) :
    duplicateArities (signatures ++ [s]) =
      if signatures.countP (fun t => t.length = s.length) = 1 then
        duplicateArities signatures ++ [s.length]
      else duplicateArities signatures := by
  rw [duplicateArities, List.map_append, List.map_singleton, Sequence.repeats_concat,
    count_map_length]
  rfl

/-- The ambiguity check lists the shared lengths, each once, by their second occurrences, and hits a
call exactly when two arity checks accept it. -/
theorem ambiguity_agrees_with_arities (signatures : List Signature) (isVoid : Bool) :
    (ambiguity signatures = [] ↔ (signatures.map List.length).Nodup) ∧
    (ambiguity signatures ≠ [] → ambiguity signatures =
      [.ambiguityCheck ((duplicateArities signatures).map Int.ofNat) Node.ambiguousCall]) ∧
    ((∀ n, n ∈ duplicateArities signatures ↔ 2 ≤ (signatures.map List.length).count n) ∧
      (duplicateArities signatures).Nodup ∧
      ∃ places : List Nat, places.Pairwise (· < ·) ∧
        List.Forall₂ (Sequence.SecondAt (signatures.map List.length))
          (duplicateArities signatures) places) ∧
    (∀ positional keywords : Nat,
      ((ambiguity signatures).hits positional keywords = true ↔
        keywords = 0 ∧ ∃ (i j : Nat) (s t : Signature), i < j ∧
          signatures[i]? = some s ∧ signatures[j]? = some t ∧
          (dispatch s isVoid).PassesArity positional keywords ∧
          (dispatch t isVoid).PassesArity positional keywords) ∧
      ((ambiguity signatures).hits positional keywords = false → keywords = 0 →
        ∀ (i j : Nat) (s t : Signature), signatures[i]? = some s → signatures[j]? = some t →
          (dispatch s isVoid).PassesArity positional keywords →
          (dispatch t isVoid).PassesArity positional keywords → i = j)) ∧
    ∀ s : Signature, duplicateArities (signatures ++ [s]) =
      if signatures.countP (fun t => t.length = s.length) = 1 then
        duplicateArities signatures ++ [s.length]
      else duplicateArities signatures := by
  refine ⟨?_, ?_, ⟨fun n => mem_duplicateArities, Sequence.nodup_repeats _,
    Sequence.exists_secondAt_repeats _⟩, fun positional keywords =>
      ⟨hits_ambiguity_iff_exists isVoid, ?_⟩, duplicateArities_concat signatures⟩
  · rw [← duplicateArities_eq_nil_iff, ambiguity_eq]
    by_cases hnil : duplicateArities signatures = []
    · simp only [hnil, if_true]
    · rw [if_neg hnil]
      exact iff_of_false (List.cons_ne_nil _ _) hnil
  · rw [ambiguity_eq]
    by_cases hnil : duplicateArities signatures = []
    · rw [if_pos hnil]
      exact absurd rfl
    · rw [if_neg hnil]
      exact fun _ => rfl
  · intro hmiss hk i j s t hi hj hs ht
    exact index_unique_of_not_hits hmiss hk hi hj hs ht

/-- Overloads of one, no, and again one matrix. -/
def twoOfOneMatrix : List Signature :=
  [[{ name := "x", type := { name := "Matrix" } }], [],
    [{ name := "y", type := { name := "Matrix" } }]]

/-- The one shared length makes the check, and a call by position with one value is hit. -/
theorem ambiguity_twoOfOneMatrix :
    ambiguity twoOfOneMatrix ≠ [] ∧
    ambiguity twoOfOneMatrix = [.ambiguityCheck [1] Node.ambiguousCall] ∧
    (ambiguity twoOfOneMatrix).hits 1 0 = true := by
  have hne : ambiguity twoOfOneMatrix ≠ [] := by decide
  obtain ⟨-, hcheck, -, hhits, -⟩ := ambiguity_agrees_with_arities twoOfOneMatrix true
  refine ⟨hne, hcheck hne, (hhits 1 0).1.mpr ⟨rfl, 0, 2, _, _, by decide, rfl, rfl, ?_, ?_⟩⟩
  · exact passesArity_dispatch.mpr rfl
  · exact passesArity_dispatch.mpr rfl

end Guard

end OverloadDispatch
