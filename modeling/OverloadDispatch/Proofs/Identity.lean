import Mathlib.Data.List.Induction
import OverloadDispatch.Request

/-!
# The identity of a callable over a run

A run of requests may fail at any of them. The first declaration under a name that is not empty
founds the callable: it alone is told that it is the first, and it fixes the identity, the wish
for a notice and all that is ever told. What a request does is said once, by `Step`; everything
about runs is read off it.
-/

namespace OverloadDispatch

namespace Request

/-- What an accepted request does to the overload set. -/
def change : Request → Callable → Callable
  | add _ s _ _, c => c.push s
  | check _ _ _, c => c
  | push s, c => c.push s
  | expand t, c => c.expand t

@[simp] theorem identity_change (r : Request) (c : Callable) :
    (r.change c).identity = c.identity := by
  cases r <;> rfl

@[simp] theorem isVerbose_change (r : Request) (c : Callable) :
    (r.change c).isVerbose = c.isVerbose := by
  cases r <;> rfl

theorem named?_eq_some_iff {r : Request} {got : Identity} {wants : Bool} :
    r.named? = some (got, wants) ↔ r.declares? = some (got, wants) ∧ got.name ≠ "" := by
  simp [named?, Option.filter_eq_some_iff]

/-- A declaration that is refused adds no signature. -/
theorem adds_error {r : Request} {declared : Identity × Bool} (h : r.declares? = some declared)
    (fault : Fault) : r.adds (.error fault) = false := by
  cases r with
  | add name s inst isVerbose => rfl
  | check name inst isVerbose => rfl
  | push s => cases h
  | expand t => cases h

end Request

namespace Session

/-- Everything that a request can do to a session, with the answer it gets. -/
inductive Step (session : Session) (r : Request) : Answer → Session → Prop where
  /-- A declaration under the empty name is refused. -/
  | unnamed {got : Identity} {wants : Bool} :
    r.declares? = some (got, wants) → got.name = "" →
    Step session r (.error .unnamedCallable) session
  /-- Without an identity a declaration founds it. -/
  | founded {got : Identity} {wants : Bool} :
    r.named? = some (got, wants) → session.callable.identity = none →
    Step session r (.ok (some true))
      ⟨r.change { session.callable with identity := some got, isVerbose := wants },
        session.notices ++ if wants then [Callable.firstNotice got.name] else []⟩
  /-- A declaration that repeats the identity is accepted. -/
  | repeated {got : Identity} {wants : Bool} :
    r.named? = some (got, wants) → session.callable.identity = some got →
    Step session r (.ok (some false)) ⟨r.change session.callable, session.notices⟩
  /-- A declaration of another identity is refused. -/
  | conflict {known got : Identity} {wants : Bool} :
    r.named? = some (got, wants) → session.callable.identity = some known → got ≠ known →
    Step session r (.error (.issue (.identityConflict got.name known.text got.text))) session
  /-- What is no declaration is never refused. -/
  | other :
    r.declares? = none → Step session r (.ok none) ⟨r.change session.callable, session.notices⟩

/-- A declaration with or without a signature declares first and then changes what it declares. -/
theorem exec_effect_of_declares {r : Request} {got : Identity} {wants : Bool}
    (h : r.declares? = some (got, wants)) (session : Session) :
    r.effect.exec session =
      let settled := session.settle <|
        (session.callable.declare got.name got.inst wants).map fun d =>
          { d with callable := r.change d.callable }
      (settled.1.map some, settled.2) := by
  cases r with
  | add name s inst isVerbose =>
    obtain ⟨rfl, rfl⟩ := Prod.mk.inj (Option.some.inj h)
    rw [Request.effect, Effect.exec_map, exec_add, Callable.add]
    rfl
  | check name inst isVerbose =>
    obtain ⟨rfl, rfl⟩ := Prod.mk.inj (Option.some.inj h)
    rw [Request.effect, Effect.exec_map, exec_declare]
    cases session.callable.declare name inst isVerbose <;> rfl
  | push s => cases h
  | expand t => cases h

/-- A request does one of the things that are listed, and nothing else. -/
theorem step_answer_after (session : Session) (r : Request) :
    Step session r (session.answer r) (session.after r) := by
  rw [answer, after]
  cases hdeclares : r.declares? with
  | none =>
    cases r with
    | add name s inst isVerbose => cases hdeclares
    | check name inst isVerbose => cases hdeclares
    | push s => exact .other rfl
    | expand t => exact .other rfl
  | some declared =>
    obtain ⟨got, wants⟩ := declared
    rw [exec_effect_of_declares hdeclares, Callable.declare]
    by_cases hname : got.name = ""
    · rw [if_pos hname]
      exact .unnamed hdeclares hname
    · have hnamed : r.named? = some (got, wants) := Request.named?_eq_some_iff.mpr ⟨hdeclares, hname⟩
      rw [if_neg hname]
      cases hidentity : session.callable.identity with
      | none => exact .founded hnamed hidentity
      | some known =>
        by_cases hknown : known = got
        · subst hknown
          have hstep := Step.repeated hnamed hidentity
          simpa [settle, Except.map] using hstep
        · have hstep := Step.conflict hnamed hidentity (Ne.symm hknown)
          simpa [settle, Except.map, hknown] using hstep

/-- The first declaration under a name that is not empty. -/
def founding? (requests : List Request) : Option (Identity × Bool) :=
  requests.findSome? Request.named?

/-- What the reader is told of a founding declaration. -/
def foundingNotices : Option (Identity × Bool) → List String
  | some (identity, true) => [Callable.firstNotice identity.name]
  | some (_, false) => []
  | none => []

theorem founding?_concat (requests : List Request) (r : Request) :
    founding? (requests ++ [r]) = (founding? requests).or r.named? := by
  rw [founding?, List.findSome?_append, List.findSome?_singleton]
  rfl

/-- A founding declaration has a name. -/
theorem name_ne_empty_of_founding? {requests : List Request} {known : Identity} {wants : Bool}
    (h : founding? requests = some (known, wants)) : known.name ≠ "" := by
  obtain ⟨r, _, hr⟩ := List.exists_of_findSome?_eq_some h
  exact (Request.named?_eq_some_iff.mp hr).2

/-- What a founding declaration leaves in a session, or the lack of one. -/
structure Founded (session : Session) (founding : Option (Identity × Bool)) : Prop where
  /-- The identity is that of the founding declaration. -/
  identity : session.callable.identity = founding.map Prod.fst
  /-- Its wish for a notice is kept. -/
  isVerbose : session.callable.isVerbose = founding.any Prod.snd
  /-- Nothing is told but the notice that it wished for. -/
  notices : session.notices = foundingNotices founding

/-- A request founds a callable that is not founded, and changes nothing of one that is. -/
theorem Founded.after {session : Session} {founding : Option (Identity × Bool)}
    (h : Founded session founding) (r : Request) :
    Founded (session.after r) (founding.or r.named?) := by
  obtain ⟨hidentity, hverbose, hnotices⟩ := h
  have hstep := step_answer_after session r
  generalize session.answer r = answer at hstep
  generalize session.after r = later at hstep
  cases hstep with
  | unnamed hdeclares hname =>
    have hnamed : r.named? = none := by simp [Request.named?, hdeclares, hname]
    rw [hnamed, Option.or_none]
    exact ⟨hidentity, hverbose, hnotices⟩
  | founded hnamed hnone =>
    obtain rfl : founding = none := Option.map_eq_none_iff.mp (hidentity.symm.trans hnone)
    rw [hnamed, Option.none_or]
    refine ⟨by simp, by simp, ?_⟩
    rename_i got wants
    rw [hnotices]
    cases wants <;> rfl
  | repeated hnamed hsome =>
    obtain ⟨known, rfl, -⟩ := Option.map_eq_some_iff.mp (hidentity.symm.trans hsome)
    exact ⟨by simpa using hidentity, by simpa using hverbose, hnotices⟩
  | conflict hnamed hsome hne =>
    obtain ⟨known, rfl, -⟩ := Option.map_eq_some_iff.mp (hidentity.symm.trans hsome)
    exact ⟨hidentity, hverbose, hnotices⟩
  | other hnone =>
    have hnamed : r.named? = none := by simp [Request.named?, hnone]
    rw [hnamed, Option.or_none]
    exact ⟨by simpa using hidentity, by simpa using hverbose, hnotices⟩

theorem run_concat (requests : List Request) (r : Request) :
    run (requests ++ [r]) = (run requests).after r := by
  rw [run, List.foldl_append]
  rfl

/-- A run leaves what its founding declaration leaves. -/
theorem founded_run (requests : List Request) : Founded (run requests) (founding? requests) := by
  induction requests using List.reverseRecOn with
  | nil => exact ⟨rfl, rfl, rfl⟩
  | append_singleton requests r ih =>
    rw [run_concat, founding?_concat]
    exact ih.after r

/-- As many signatures are held as were declared. -/
def Aligned (session : Session) : Prop :=
  session.callable.overloads.declared.length = session.callable.overloads.held.length

/-- What an accepted request does to the number of signatures; an instantiation does not change it
only because as many signatures are held as were declared. -/
theorem length_change (r : Request) (c : Callable) (accepted : Option Bool)
    (h : c.overloads.declared.length = c.overloads.held.length) :
    (r.change c).overloads.declared.length = (r.change c).overloads.held.length ∧
      (r.change c).overloads.held.length =
        c.overloads.held.length + if r.adds (.ok accepted) then 1 else 0 := by
  cases r with
  | add name s inst isVerbose =>
    simp [Request.change, Callable.push, Request.adds, Except.toBool, h]
  | check name inst isVerbose => exact ⟨h, rfl⟩
  | push s => simp [Request.change, Callable.push, Request.adds, h]
  | expand t => simp [Request.change, Callable.expand, Request.adds, h]

/-- A request adds at most one signature, and its answer says whether it does. -/
theorem length_after {session : Session} (h : session.Aligned) (r : Request) :
    (session.after r).Aligned ∧
      (session.after r).callable.overloads.held.length =
        session.callable.overloads.held.length + if r.adds (session.answer r) then 1 else 0 := by
  have hstep := step_answer_after session r
  generalize session.answer r = answer at hstep
  generalize session.after r = later at hstep
  cases hstep with
  | unnamed hdeclares hname =>
    rw [Request.adds_error hdeclares]
    exact ⟨h, rfl⟩
  | founded hnamed hnone =>
    exact length_change r { session.callable with identity := _, isVerbose := _ } (some true) h
  | repeated hnamed hsome => exact length_change r session.callable (some false) h
  | conflict hnamed hsome hne =>
    rw [Request.adds_error (Request.named?_eq_some_iff.mp hnamed).1]
    exact ⟨h, rfl⟩
  | other hnone => exact length_change r session.callable none h

/-- The signatures that are held after a run are those that its requests added. -/
theorem length_held_foldl (requests : List Request) {session : Session} (h : session.Aligned) :
    (requests.foldl after session).callable.overloads.held.length =
      session.callable.overloads.held.length +
        (requests.zip (session.answers requests)).countP fun (r, answer) => r.adds answer := by
  induction requests generalizing session with
  | nil => rfl
  | cons r requests ih =>
    obtain ⟨haligned, hlength⟩ := length_after h r
    rw [List.foldl_cons, ih haligned, hlength, answers, List.zip_cons_cons, List.countP_cons,
      ← Nat.add_assoc]
    exact Nat.add_right_comm _ _ _

theorem getElem?_answers (before : List Request) (r : Request) (later : List Request)
    (session : Session) :
    (session.answers (before ++ r :: later))[before.length]? =
      some ((before.foldl after session).answer r) := by
  induction before generalizing session with
  | nil => rfl
  | cons first before ih => exact ih (session.after first)

/-- Instances agree if both are absent, or if both are types of one name, namespaces and
category. -/
def SameInstance : Option QualifiedType → Option QualifiedType → Prop
  | none, none => True
  | some t, some u => t.name = u.name ∧ t.namespaces = u.namespaces ∧ t.category = u.category
  | none, some _ => False
  | some _, none => False

/-- Two identities are equal exactly when their names are and their instances agree. -/
theorem identity_eq_iff {i j : Identity} :
    i = j ↔ i.name = j.name ∧ SameInstance i.inst j.inst := by
  obtain ⟨name, inst⟩ := i
  obtain ⟨other, instance'⟩ := j
  cases inst <;> cases instance' <;> simp [SameInstance, QualifiedType.eq_iff]

/-- How a request is answered behind the requests before it, and when it leaves no trace. -/
structure Answered (before : List Request) (r : Request) (answer : Answer) : Prop where
  /-- The founding declaration, and no other request, is told that it is the first. -/
  isFirst_iff : answer = .ok (some true) ↔ founding? before = none ∧ r.named?.isSome
  /-- A later declaration is accepted exactly if name and instance are those on record. -/
  repeats_iff : ∀ known notice, founding? before = some (known, notice) →
    ∀ got wants, r.declares? = some (got, wants) →
      (answer = .ok (some false) ↔ got.name = known.name ∧ SameInstance got.inst known.inst)
  /-- The empty name is refused at any time. -/
  unnamed_iff : answer = .error .unnamedCallable ↔
    ∃ got wants, r.declares? = some (got, wants) ∧ got.name = ""
  /-- Any other refusal is a conflict with the identity on record, and shows both. -/
  conflicts_iff : ∀ fault, fault ≠ .unnamedCallable → (answer = .error fault ↔
    ∃ known notice got wants, founding? before = some (known, notice) ∧
      r.named? = some (got, wants) ∧ got ≠ known ∧
      fault = .issue (.identityConflict got.name known.text got.text))
  /-- A refused request changes nothing and tells nothing. -/
  refused : ∀ fault, answer = .error fault → run (before ++ [r]) = run before

/-- Every request is answered by the founding declaration among those before it. -/
theorem answered_run (before : List Request) (r : Request) :
    Answered before r ((run before).answer r) := by
  have hidentity := (founded_run before).identity
  have hstep := step_answer_after (run before) r
  rw [← run_concat] at hstep
  generalize (run before).answer r = answer at hstep
  generalize hlater : run (before ++ [r]) = later at hstep
  cases hstep with
  | unnamed hdeclares hname =>
    have hnamed : r.named? = none := by simp [Request.named?, hdeclares, hname]
    refine ⟨by simp [hnamed], ?_, by simp [hdeclares, hname], ?_, fun _ _ => hlater⟩
    · intro known notice hfounding got' wants' hgot
      obtain ⟨rfl, -⟩ := Prod.mk.inj (Option.some.inj (hdeclares.symm.trans hgot))
      have hknown := name_ne_empty_of_founding? hfounding
      simp [hname, hknown.symm]
    · intro fault hfault
      simp [hnamed, hfault.symm]
  | founded hnamed hnone =>
    have hfounding := Option.map_eq_none_iff.mp (hidentity.symm.trans hnone)
    obtain ⟨hdeclares, hname⟩ := Request.named?_eq_some_iff.mp hnamed
    exact ⟨by simp [hnamed, hfounding], by simp [hfounding], by simp [hdeclares, hname],
      by simp [hfounding], by simp⟩
  | repeated hnamed hsome =>
    obtain ⟨⟨known, notice⟩, hfounding, rfl⟩ :=
      Option.map_eq_some_iff.mp (hidentity.symm.trans hsome)
    obtain ⟨hdeclares, hname⟩ := Request.named?_eq_some_iff.mp hnamed
    refine ⟨by simp [hfounding], ?_, by simp [hdeclares, hname], ?_, by simp⟩
    · simp [hfounding, hdeclares, ← identity_eq_iff]
    · simp [hfounding, hnamed]
  | conflict hnamed hsome hne =>
    obtain ⟨⟨known, notice⟩, hfounding, rfl⟩ :=
      Option.map_eq_some_iff.mp (hidentity.symm.trans hsome)
    obtain ⟨hdeclares, hname⟩ := Request.named?_eq_some_iff.mp hnamed
    refine ⟨by simp [hfounding], ?_, by simp [hdeclares, hname], ?_, fun _ _ => hlater⟩
    · intro known' notice' hfounding' got' wants' hgot
      obtain ⟨rfl, -⟩ := Prod.mk.inj (Option.some.inj (hfounding.symm.trans hfounding'))
      obtain ⟨rfl, -⟩ := Prod.mk.inj (Option.some.inj (hdeclares.symm.trans hgot))
      simp [← identity_eq_iff, hne]
    · intro fault _
      simp [hfounding, hnamed, hne, eq_comm]
  | other hnone =>
    have hnamed : r.named? = none := by simp [Request.named?, hnone]
    exact ⟨by simp [hnamed], by simp [hnone], by simp [hnone], by simp [hnamed], by simp⟩

/-- After every run, whatever failed in it, the first declaration under a name that is not empty
decides the identity, the notices and every answer. -/
theorem run_decided_by_founding (requests : List Request) :
    Founded (run requests) (founding? requests) ∧
    (run requests).callable.overloads.held.length =
      (requests.zip (answers {} requests)).countP (fun (r, answer) => r.adds answer) ∧
    ∀ before r later, requests = before ++ r :: later →
      ∃ answer, (answers {} requests)[before.length]? = some answer ∧
        Answered before r answer := by
  refine ⟨founded_run requests, ?_, ?_⟩
  · have haligned : Aligned {} := rfl
    have hlength := length_held_foldl requests haligned
    rwa [List.length_nil, Nat.zero_add] at hlength
  · rintro before r later rfl
    exact ⟨(run before).answer r, getElem?_answers before r later {}, answered_run before r⟩

/-- A signature comes before any identity, two declarations are refused, one founds and one
repeats. -/
def troubledRequests : List Request :=
  [.push [], .check "" none true, .check "f" none true, .add "g" [] none false,
    .add "f" [] none false]

/-- The callable is founded by the third request, told of once, and holds two signatures. -/
theorem troubledRequests_founded :
    (run troubledRequests).callable.identity = some ⟨"f", none⟩ ∧
    (run troubledRequests).notices = ["Initialized f"] ∧
    (run troubledRequests).callable.overloads.held.length = 2 ∧
    run (troubledRequests.take 4) = run (troubledRequests.take 3) := by
  obtain ⟨hfounded, hlength, hanswered⟩ := run_decided_by_founding troubledRequests
  refine ⟨hfounded.identity.trans (by decide), hfounded.notices.trans (by decide),
    hlength.trans (by decide), ?_⟩
  obtain ⟨answer, hanswer, h⟩ := hanswered (troubledRequests.take 3) _ _ rfl
  exact h.refused _ (Option.some.inj (hanswer.symm.trans (by rfl)))

end Session

end OverloadDispatch
