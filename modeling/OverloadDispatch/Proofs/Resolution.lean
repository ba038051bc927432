import Mathlib.Data.List.FinRange
import OverloadDispatch.Proofs.Ambiguity
import OverloadDispatch.Proofs.Binding

/-!
# Overload resolution by the decision cascade

An entry point looks at the ambiguity check and then tries its resolvers one after the other.
Together they choose the first overload whose resolver takes the call. Where the check misses a
call without keywords, at most one overload has the right number of parameters, so the choice
does not depend on the order of declaration.
-/

namespace OverloadDispatch.Dispatcher

variable {α β : Type}

/-- The resolvers of signatures, numbered from a first index on. -/
def resolversFrom (name : String) (isVoid : Bool) (callee : String) (signatures : List Signature)
    (first : Nat) : List Resolver :=
  (signatures.zipIdx first).map fun (s, i) => Resolver.build name isVoid callee s i

section

variable (call : Call α) (convert : Conversion α β) (name callee : String) (isVoid : Bool)

private theorem tryAll_resolversFrom_cons {s : Signature} (hn : s.names.Nodup)
    (rest : List Signature) (first : Nat) :
    tryAll call convert (resolversFrom name isVoid callee (s :: rest) first) =
      match call.arguments convert s with
      | some values => .called first values
      | none => tryAll call convert (resolversFrom name isVoid callee rest (first + 1)) := by
  rw [resolversFrom, List.zipIdx_cons, List.map_cons, tryAll, Resolver.run_build hn]
  cases call.arguments convert s <;> rfl

/-- The cascade calls the first signature that has arguments to hand over. -/
theorem tryAll_eq_called_iff {signatures : List Signature}
    (hn : ∀ s ∈ signatures, s.names.Nodup) (first : Nat) {i : Int} {values : List β} :
    tryAll call convert (resolversFrom name isVoid callee signatures first) = .called i values ↔
      ∃ (j : Nat) (s : Signature), i = (first + j : Nat) ∧ signatures[j]? = some s ∧
        call.arguments convert s = some values ∧
        ∀ k < j, ∀ t, signatures[k]? = some t → call.arguments convert t = none := by
  induction signatures generalizing first with
  | nil => simp [resolversFrom, tryAll]
  | cons s rest ih =>
    rw [List.forall_mem_cons] at hn
    rw [tryAll_resolversFrom_cons call convert name callee isVoid hn.1]
    cases hs : call.arguments convert s with
    | some found =>
      simp only [Verdict.called.injEq]
      constructor
      · rintro ⟨rfl, rfl⟩
        exact ⟨0, s, rfl, rfl, hs, fun k hk => absurd hk (Nat.not_lt_zero k)⟩
      · rintro ⟨j, t, rfl, hj, ht, hbefore⟩
        cases j with
        | zero =>
          rw [List.getElem?_cons_zero, Option.some.injEq] at hj
          subst t
          exact ⟨rfl, Option.some.inj (hs.symm.trans ht)⟩
        | succ j =>
          have hnone := hbefore 0 (Nat.succ_pos j) s rfl
          rw [hs] at hnone
          exact absurd hnone (Option.some_ne_none found)
    | none =>
      refine (ih hn.2 (first + 1)).trans ?_
      constructor
      · rintro ⟨j, t, rfl, hj, ht, hbefore⟩
        refine ⟨j + 1, t, by omega, hj, ht, fun k hk u hu => ?_⟩
        cases k with
        | zero =>
          rw [List.getElem?_cons_zero, Option.some.injEq] at hu
          exact hu ▸ hs
        | succ k => exact hbefore k (Nat.lt_of_succ_lt_succ hk) u hu
      · rintro ⟨j, t, rfl, hj, ht, hbefore⟩
        cases j with
        | zero =>
          rw [List.getElem?_cons_zero, Option.some.injEq] at hj
          subst t
          rw [hs] at ht
          exact absurd ht.symm (Option.some_ne_none values)
        | succ j =>
          exact ⟨j, t, by omega, hj, ht, fun k hk u hu =>
            hbefore (k + 1) (Nat.succ_lt_succ hk) u hu⟩

/-- The cascade calls an overload, or else it ends without one where no signature has arguments. -/
theorem tryAll_called_or_noOverload {signatures : List Signature}
    (hn : ∀ s ∈ signatures, s.names.Nodup) (first : Nat) :
    (∃ i values, tryAll call convert (resolversFrom name isVoid callee signatures first) =
      .called i values) ∨
    tryAll call convert (resolversFrom name isVoid callee signatures first) = .noOverload ∧
      ∀ s ∈ signatures, call.arguments convert s = none := by
  induction signatures generalizing first with
  | nil => exact Or.inr ⟨rfl, fun s hs => absurd hs List.not_mem_nil⟩
  | cons s rest ih =>
    rw [List.forall_mem_cons] at hn
    rw [tryAll_resolversFrom_cons call convert name callee isVoid hn.1]
    cases hs : call.arguments convert s with
    | some values => exact Or.inl ⟨first, values, rfl⟩
    | none =>
      rcases ih hn.2 (first + 1) with hcalled | ⟨hnone, hall⟩
      · exact Or.inl hcalled
      · refine Or.inr ⟨hnone, ?_⟩
        rw [List.forall_mem_cons]
        exact ⟨hs, hall⟩

/-- The ambiguity check raises its exception where it hits the call, and passes otherwise. -/
theorem runAll_ambiguity (frame : Frame α β) (signatures : List Signature) :
    Node.runAll call convert frame (Guard.ambiguity signatures) =
      if (Guard.ambiguity signatures).hits call.positionalCount call.keywordCount then
        .raised "TypeError" Node.ambiguousMessage
      else .next frame := by
  rw [Guard.ambiguity_eq]
  by_cases hnil : duplicateArities signatures = []
  · rw [if_pos hnil]
    rfl
  · rw [if_neg hnil, Node.runAll, Node.run]
    simp only [Guard.hits, List.any_cons, List.any_nil, Bool.or_false, Node.hits]
    cases Node.fires ((duplicateArities signatures).map Int.ofNat) call.positionalCount
      call.keywordCount <;> rfl

/-- A call that several overloads would take: it has no keyword, and two of them have as many
parameters as it has values. -/
def Ambiguous (signatures : List Signature) : Prop :=
  call.keywords = [] ∧ 2 ≤ signatures.countP fun s => s.length = call.positional.length

instance (signatures : List Signature) : Decidable (Ambiguous call signatures) :=
  inferInstanceAs (Decidable (call.keywords = [] ∧ _))

/-- The ambiguity check hits exactly the ambiguous calls. -/
theorem hits_ambiguity_iff_ambiguous (signatures : List Signature) :
    (Guard.ambiguity signatures).hits call.positionalCount call.keywordCount = true ↔
      Ambiguous call signatures := by
  rw [Call.positionalCount, Call.keywordCount, Guard.hits_ambiguity, mem_duplicateArities,
    count_map_length, List.length_eq_zero_iff, Ambiguous]

/-- An entry point aborts an ambiguous call, and tries its resolvers on any other. -/
theorem run_build (signatures : List Signature) :
    (build name signatures isVoid callee).run call convert =
      if Ambiguous call signatures then .aborted "TypeError" Node.ambiguousMessage
      else tryAll call convert (resolversFrom name isVoid callee signatures 0) := by
  rw [run, build, runAll_ambiguity]
  simp only [hits_ambiguity_iff_ambiguous]
  by_cases h : Ambiguous call signatures
  · rw [if_pos h, if_pos h]
  · rw [if_neg h, if_neg h]
    rfl

variable {signatures : List Signature}

/-- No other call is aborted. -/
theorem run_build_eq_aborted_iff (hn : ∀ s ∈ signatures, s.names.Nodup)
    {exception message : String} :
    (build name signatures isVoid callee).run call convert = .aborted exception message ↔
      Ambiguous call signatures ∧ exception = "TypeError" ∧ message = Node.ambiguousMessage := by
  rw [run_build]
  by_cases h : Ambiguous call signatures
  · rw [if_pos h, and_iff_right h, Verdict.aborted.injEq, eq_comm, @eq_comm _ _ message]
  · rw [if_neg h]
    rcases tryAll_called_or_noOverload call convert name callee isVoid hn 0 with
      ⟨i, values, he⟩ | ⟨he, -⟩
    · rw [he]
      exact iff_of_false nofun fun haborted => h haborted.1
    · rw [he]
      exact iff_of_false nofun fun haborted => h haborted.1

/-- Any other call is without an overload exactly when no signature has arguments for it. -/
theorem run_build_eq_noOverload_iff (hn : ∀ s ∈ signatures, s.names.Nodup) :
    (build name signatures isVoid callee).run call convert = .noOverload ↔
      ¬Ambiguous call signatures ∧ ∀ s ∈ signatures, call.arguments convert s = none := by
  rw [run_build]
  by_cases h : Ambiguous call signatures
  · rw [if_pos h]
    exact iff_of_false nofun fun hnone => hnone.1 h
  · rw [if_neg h, and_iff_right h]
    rcases tryAll_called_or_noOverload call convert name callee isVoid hn 0 with
      ⟨i, values, he⟩ | ⟨he, hnone⟩
    · obtain ⟨j, s, -, hj, hs, -⟩ :=
        (tryAll_eq_called_iff call convert name callee isVoid hn 0).mp he
      rw [he]
      refine iff_of_false nofun fun hall => ?_
      exact Option.some_ne_none values (hs.symm.trans (hall s (List.mem_of_getElem? hj)))
    · exact iff_of_true he hnone

/-- Any other call goes to the first signature that has arguments for it. -/
theorem run_build_eq_called_iff (hn : ∀ s ∈ signatures, s.names.Nodup) {i : Int}
    {values : List β} :
    (build name signatures isVoid callee).run call convert = .called i values ↔
      ¬Ambiguous call signatures ∧ ∃ (j : Nat) (s : Signature), i = j ∧ signatures[j]? = some s ∧
        call.arguments convert s = some values ∧
        ∀ k < j, ∀ t, signatures[k]? = some t → call.arguments convert t = none := by
  rw [run_build]
  by_cases h : Ambiguous call signatures
  · rw [if_pos h]
    exact iff_of_false nofun fun hcalled => hcalled.1 h
  · rw [if_neg h, and_iff_right h, tryAll_eq_called_iff call convert name callee isVoid hn 0]
    simp only [Nat.zero_add]

/-- Without keywords the first signature that has arguments is the only one. -/
theorem run_build_eq_called_iff_of_positional (hn : ∀ s ∈ signatures, s.names.Nodup)
    (hk : call.keywords = []) {i : Int} {values : List β} :
    (build name signatures isVoid callee).run call convert = .called i values ↔
      ¬Ambiguous call signatures ∧ ∃ (j : Nat) (s : Signature), i = j ∧ signatures[j]? = some s ∧
        call.arguments convert s = some values := by
  rw [run_build_eq_called_iff call convert name callee isVoid hn]
  refine and_congr_right fun hunambiguous => exists_congr fun j => exists_congr fun s =>
    and_congr_right fun _ => and_congr_right fun hj => and_iff_left_of_imp fun hs => ?_
  have hshared : call.positional.length ∉ duplicateArities signatures := by
    rw [mem_duplicateArities, count_map_length]
    exact fun h => hunambiguous ⟨hk, h⟩
  intro k hkj t ht
  by_contra hsome
  obtain ⟨others, hothers⟩ := Option.ne_none_iff_exists'.mp hsome
  have hlength {u : Signature} {vs : List β} (hu : call.arguments convert u = some vs) :
      u.length = call.positional.length := by
    have := Call.length_of_arguments hu
    rw [hk, List.length_nil, Nat.add_zero] at this
    exact this.symm
  have := index_unique_of_not_mem hshared ht hj (hlength hothers) (hlength hs)
  omega

end

/-- Signatures in another order; each position is told where its signature comes from. -/
def rearranged (signatures : List Signature) (order : Equiv.Perm (Fin signatures.length)) :
    List Signature :=
  List.ofFn fun k => signatures.get (order k)

theorem perm_rearranged (signatures : List Signature)
    (order : Equiv.Perm (Fin signatures.length)) :
    (rearranged signatures order).Perm signatures := by
  have h := order.ofFn_comp_perm signatures.get
  rw [List.ofFn_get] at h
  exact h

theorem getElem?_rearranged {signatures : List Signature}
    {order : Equiv.Perm (Fin signatures.length)} {j : Nat} {s : Signature} :
    (rearranged signatures order)[j]? = some s ↔
      ∃ h : j < signatures.length, signatures[(order ⟨j, h⟩).val]? = some s := by
  rw [rearranged, List.getElem?_ofFn]
  by_cases h : j < signatures.length
  · simp only [h, dite_true, exists_true_left, List.getElem?_eq_getElem (order ⟨j, h⟩).isLt,
      List.get_eq_getElem]
  · simp only [h, dite_false, reduceCtorEq, IsEmpty.exists_iff]

section

variable {signatures : List Signature} (hn : ∀ s ∈ signatures, s.names.Nodup) (call : Call α)
  (convert : Conversion α β) (name callee : String) (isVoid : Bool)

include hn

/-- The first overload that takes a call is called. -/
theorem run_build_calls_first {i : Int} {values : List β}
    (hunambiguous : ¬Ambiguous call signatures) :
    (build name signatures isVoid callee).run call convert = .called i values ↔
      ∃ (j : Nat) (s : Signature), i = j ∧ signatures[j]? = some s ∧
        (Resolver.build name isVoid callee s j).run call convert = .matched j values ∧
        ∀ k < j, ∀ t, signatures[k]? = some t →
          ¬(Resolver.build name isVoid callee t k).Matches call convert := by
  rw [run_build_eq_called_iff call convert name callee isVoid hn, and_iff_right hunambiguous]
  refine exists_congr fun j => exists_congr fun s => and_congr_right fun _ =>
    and_congr_right fun hj => and_congr ?_ ?_
  · rw [Resolver.run_build_eq_matched_iff (hn s (List.mem_of_getElem? hj)), eq_self, true_and]
  · refine forall_congr' fun k => forall_congr' fun _ => forall_congr' fun t =>
      forall_congr' fun ht => ?_
    rw [Resolver.not_matches_build_iff (hn t (List.mem_of_getElem? ht))]

/-- A call that no overload takes ends without one. -/
theorem run_build_misses_all (hunambiguous : ¬Ambiguous call signatures) :
    (build name signatures isVoid callee).run call convert = .noOverload ↔
      ∀ k t, signatures[k]? = some t →
        ¬(Resolver.build name isVoid callee t k).Matches call convert := by
  rw [run_build_eq_noOverload_iff call convert name callee isVoid hn, and_iff_right hunambiguous]
  constructor
  · intro h k t ht
    have hmem := List.mem_of_getElem? ht
    rw [Resolver.not_matches_build_iff (hn t hmem)]
    exact h t hmem
  · intro h s hs
    obtain ⟨k, hk⟩ := List.mem_iff_getElem?.mp hs
    rw [← Resolver.not_matches_build_iff (hn s hs) call convert name callee isVoid k]
    exact h k s hk

/-- A call without keywords has the same outcome in every order, up to the index of the overload. -/
theorem run_build_rearranged (hk : call.keywords = [])
    (order : Equiv.Perm (Fin signatures.length)) :
    (∀ (k : Fin signatures.length) values,
      (build name (rearranged signatures order) isVoid callee).run call convert =
          .called k.val values ↔
        (build name signatures isVoid callee).run call convert =
          .called (order k).val values) ∧
    ((build name (rearranged signatures order) isVoid callee).run call convert = .noOverload ↔
      (build name signatures isVoid callee).run call convert = .noOverload) ∧
    ∀ exception message,
      (build name (rearranged signatures order) isVoid callee).run call convert =
          .aborted exception message ↔
        (build name signatures isVoid callee).run call convert =
          .aborted exception message := by
  have hperm := perm_rearranged signatures order
  have hn' : ∀ s ∈ rearranged signatures order, s.names.Nodup := fun s hs =>
    hn s (hperm.mem_iff.mp hs)
  have hambiguous : Ambiguous call (rearranged signatures order) ↔ Ambiguous call signatures := by
    rw [Ambiguous, Ambiguous, hperm.countP_eq]
  refine ⟨fun k values => ?_, ?_, fun exception message => ?_⟩
  · rw [run_build_eq_called_iff_of_positional call convert name callee isVoid hn' hk,
      run_build_eq_called_iff_of_positional call convert name callee isVoid hn hk, hambiguous]
    refine and_congr_right fun _ => ?_
    constructor
    · rintro ⟨j, s, hj, hs, harguments⟩
      obtain ⟨hlt, hs'⟩ := getElem?_rearranged.mp hs
      obtain rfl : k = ⟨j, hlt⟩ := Fin.ext (Int.ofNat.inj hj)
      exact ⟨_, s, rfl, hs', harguments⟩
    · rintro ⟨j, s, hj, hs, harguments⟩
      obtain rfl : (order k).val = j := Int.ofNat.inj hj
      exact ⟨k, s, rfl, getElem?_rearranged.mpr ⟨k.isLt, hs⟩, harguments⟩
  · rw [run_build_eq_noOverload_iff call convert name callee isVoid hn',
      run_build_eq_noOverload_iff call convert name callee isVoid hn, hambiguous]
    simp only [hperm.mem_iff]
  · rw [run_build_eq_aborted_iff call convert name callee isVoid hn',
      run_build_eq_aborted_iff call convert name callee isVoid hn, hambiguous]

end

/-- An entry point aborts exactly the ambiguous calls and gives any other to the first overload that
takes it. Without keywords the order of declaration changes no more than the index. -/
theorem build_resolves_overloads {signatures : List Signature}
    (hn : ∀ s ∈ signatures, s.names.Nodup) (call : Call α) (convert : Conversion α β)
    (name callee : String) (isVoid : Bool) :
    (∀ exception message,
      (build name signatures isVoid callee).run call convert = .aborted exception message ↔
        Ambiguous call signatures ∧ exception = "TypeError" ∧
          message = Node.ambiguousMessage) ∧
    (¬Ambiguous call signatures →
      (∀ i values, (build name signatures isVoid callee).run call convert = .called i values ↔
        ∃ (j : Nat) (s : Signature), i = j ∧ signatures[j]? = some s ∧
          (Resolver.build name isVoid callee s j).run call convert = .matched j values ∧
          ∀ k < j, ∀ t, signatures[k]? = some t →
            ¬(Resolver.build name isVoid callee t k).Matches call convert) ∧
      ((build name signatures isVoid callee).run call convert = .noOverload ↔
        ∀ k t, signatures[k]? = some t →
          ¬(Resolver.build name isVoid callee t k).Matches call convert)) ∧
    (call.keywords = [] → ∀ order : Equiv.Perm (Fin signatures.length),
      (∀ (k : Fin signatures.length) values,
        (build name (rearranged signatures order) isVoid callee).run call convert =
            .called k.val values ↔
          (build name signatures isVoid callee).run call convert =
            .called (order k).val values) ∧
      ((build name (rearranged signatures order) isVoid callee).run call convert = .noOverload ↔
        (build name signatures isVoid callee).run call convert = .noOverload) ∧
      ∀ exception message,
        (build name (rearranged signatures order) isVoid callee).run call convert =
            .aborted exception message ↔
          (build name signatures isVoid callee).run call convert =
            .aborted exception message) :=
  ⟨fun _ _ => run_build_eq_aborted_iff call convert name callee isVoid hn,
    fun hunambiguous =>
      ⟨fun _ _ => run_build_calls_first hn call convert name callee isVoid hunambiguous,
        run_build_misses_all hn call convert name callee isVoid hunambiguous⟩,
    fun hk order => run_build_rearranged hn call convert name callee isVoid hk order⟩

/-- Overloads of one, two and three numbers. -/
def numberOverloads : List Signature :=
  [Resolver.threeNumbers.take 1, Resolver.threeNumbers.take 2, Resolver.threeNumbers]

/-- The first two overloads change places. -/
def swapFirstTwo : Equiv.Perm (Fin numberOverloads.length) :=
  Equiv.swap ⟨0, by decide⟩ ⟨1, by decide⟩

/-- A call by position goes to the overload of its length, wherever that is declared. -/
theorem numberOverloads_resolved :
    (∀ s ∈ numberOverloads, s.names.Nodup) ∧
    ¬Ambiguous (⟨[1, 2], []⟩ : Call Nat) numberOverloads ∧
    (build "f" numberOverloads false nativeCallee).run ⟨[1, 2], []⟩ Resolver.labelling =
      .called 1 [("int", 1), ("double", 2)] ∧
    (build "f" (rearranged numberOverloads swapFirstTwo) false nativeCallee).run ⟨[1, 2], []⟩
      Resolver.labelling = .called 0 [("int", 1), ("double", 2)] := by
  have hn : ∀ s ∈ numberOverloads, s.names.Nodup := by decide
  have hunambiguous : ¬Ambiguous (⟨[1, 2], []⟩ : Call Nat) numberOverloads := by decide
  have hresolved := build_resolves_overloads hn ⟨[1, 2], []⟩ Resolver.labelling "f"
    nativeCallee false
  have hcalled : (build "f" numberOverloads false nativeCallee).run ⟨[1, 2], []⟩
      Resolver.labelling = .called 1 [("int", 1), ("double", 2)] := by
    refine ((hresolved.2.1 hunambiguous).1 1 _).mpr ⟨1, _, rfl, rfl, by decide, ?_⟩
    intro k hk t ht
    obtain rfl : k = 0 := by omega
    obtain rfl := Option.some.inj ht
    rw [Resolver.not_matches_build_iff (by decide)]
    rfl
  exact ⟨hn, hunambiguous, hcalled,
    ((hresolved.2.2 rfl swapFirstTwo).1 ⟨0, by decide⟩ _).mpr hcalled⟩

end OverloadDispatch.Dispatcher
