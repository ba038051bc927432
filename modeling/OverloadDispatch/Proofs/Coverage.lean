import OverloadDispatch.Proofs.Assembly
import OverloadDispatch.Proofs.Dialects
import OverloadDispatch.Proofs.Histories
import OverloadDispatch.Proofs.Reading

/-!
# Types without a host check

An entry point cannot be written where a value is to be checked for which no check is known: a value
of no type at all, or of a basic type that the table of host checks lacks. Beside the levels of its
lines nothing else can be at fault, in either dialect. The table of the built-in types has a check
for everything that a spelling makes a basic type, so there only `void` is left.
-/

namespace OverloadDispatch

/-- The fault of two steps is that of the first, or else that of the second. -/
theorem faultOf?_bind {ε α β : Type} {x : Except ε α} {f : α → Except ε β} {fault : Option ε}
    (h : ∀ a, x = .ok a → faultOf? (f a) = fault) :
    faultOf? (x >>= f) = (faultOf? x).or fault := by
  cases x with
  | error f => rfl
  | ok a => exact h a rfl

/-- What is made of a result changes no fault. -/
theorem faultOf?_bind_pure {ε α β : Type} {x : Except ε α} {f : α → β} :
    faultOf? (x >>= fun a => pure (f a)) = faultOf? x := by
  cases x <;> rfl

/-- The first fault of several is that of the first one, or else the first of the others. -/
theorem findSome?_cons_eq_or {α ε : Type} (f : α → Option ε) (a : α) (rest : List α) :
    (a :: rest).findSome? f = (f a).or (rest.findSome? f) := by
  rw [List.findSome?_cons]
  cases f a <;> rfl

namespace HostTable

variable {checks : HostTable} {t : QualifiedType}

/-- Whether no value of a type can be checked: it is no type of values at all, or a basic type that
is not in the table. -/
def Lacks (checks : HostTable) (t : QualifiedType) : Prop :=
  t.category = .void ∨ t.category = .basic ∧ t.name ∉ checks.map Prod.fst

instance (checks : HostTable) : DecidablePred checks.Lacks := fun t =>
  inferInstanceAs (Decidable (t.category = .void ∨ t.category = .basic ∧
    t.name ∉ checks.map Prod.fst))

/-- The table is looked up only for the types that are not wrapped. -/
theorem check?_eq_none_iff (h : t.category ≠ .wrapped) :
    checks.check? t = none ↔ checks.Lacks t := by
  unfold check? Lacks
  cases hcategory : t.category with
  | wrapped => exact absurd hcategory h
  | array => simp
  | basic =>
    have hkeys : (∀ entry ∈ checks, (t.name != entry.1) = true) ↔
        t.name ∉ checks.map Prod.fst := by
      simp only [bne_iff_ne, List.mem_map, not_exists, not_and]
      exact forall₂_congr fun _ _ => ⟨Ne.symm, Ne.symm⟩
    simp only [List.lookup_eq_none_iff, hkeys]
    simp
  | void => simp

/-- The fault of the first of several types that cannot be checked. -/
def refusal? (checks : HostTable) (types : List QualifiedType) : Option Fault :=
  (types.find? fun t => checks.Lacks t).map fun t => .noHostCheck t.qualified

theorem refusal?_append (first second : List QualifiedType) :
    checks.refusal? (first ++ second) = (checks.refusal? first).or (checks.refusal? second) := by
  rw [refusal?, List.find?_append, Option.map_or]
  rfl

end HostTable

namespace Renderer

variable {r : Renderer} {d : Dialect} {level : Int} {name callee : String} {isVoid : Bool}

/-! ## The faults of single nodes -/

/-- The fault of a level that cannot be written. -/
def levelFault? (r : Renderer) (level : Int) : Option Fault := faultOf? (r.requireLevel level)

/-- A coercion is written unless its type cannot be checked. -/
theorem faultOf?_coercionLines (hd : r.dialect = some d) (t : QualifiedType) :
    faultOf? (r.coercionLines level name t) = r.checks.refusal? [t] := by
  have hdialect : r.requireDialect = .ok d := by rw [requireDialect, hd]
  unfold coercionLines
  split
  · next hwrapped =>
    rw [hdialect]
    simp [faultOf?, HostTable.refusal?, HostTable.Lacks, hwrapped, bind, Except.bind, pure,
      Except.pure]
  · next hcategory =>
    have hlacks : r.checks.check? t = none ↔ r.checks.Lacks t :=
      HostTable.check?_eq_none_iff hcategory
    unfold checkedLines HostTable.check
    rw [hdialect]
    cases hcheck : r.checks.check? t with
    | none => simp [faultOf?, HostTable.refusal?, hlacks.mp hcheck, bind, Except.bind]
    | some check =>
      have hknown : ¬ r.checks.Lacks t := by
        rw [← hlacks, hcheck]
        exact Option.some_ne_none check
      simp [faultOf?, HostTable.refusal?, hknown, bind, Except.bind, pure, Except.pure]

/-- A node is at fault if its level is, and else if what is written there is. -/
theorem faultOf?_nodeLines_coercion (hd : r.dialect = some d) (p : Parameter) :
    faultOf? (r.nodeLines level (Guard.coercion p)) =
      (r.levelFault? level).or (r.checks.refusal? [p.type]) := by
  unfold nodeLines
  exact faultOf?_bind fun _ _ => faultOf?_coercionLines hd p.type

theorem faultOf?_nodeLines_noMatch (r : Renderer) (level : Int) (isVoid : Bool) :
    faultOf? (r.nodeLines level (.noMatch isVoid)) = r.levelFault? level := by
  unfold nodeLines
  exact faultOf?_bind_pure

theorem faultOf?_nodeLines_bindParams (names : List String) :
    faultOf? (r.nodeLines level (.bindParams names)) = r.levelFault? level := by
  unfold nodeLines
  exact faultOf?_bind_pure

theorem faultOf?_nodeLines_arityCheck (hd : r.dialect = some d) (arity : Int) :
    faultOf? (r.nodeLines level (.arityCheck arity (.noMatch isVoid))) =
      (r.levelFault? level).or (r.levelFault? (level + 1)) := by
  have hdialect : r.requireDialect = .ok d := by rw [requireDialect, hd]
  unfold nodeLines
  refine faultOf?_bind fun _ _ => ?_
  rw [hdialect, ← faultOf?_nodeLines_noMatch r (level + 1) isVoid]
  exact faultOf?_bind_pure

/-! ## The faults of guards -/

theorem faultOf?_guardLines_cons (node : Node) (rest : List Node) :
    faultOf? (r.guardLines level (node :: rest)) =
      (faultOf? (r.nodeLines level node)).or (faultOf? (r.guardLines level rest)) := by
  rw [guardLines]
  exact faultOf?_bind fun _ _ => faultOf?_bind_pure

/-- Coercions have the fault of their level, if there are any, or of the first type that cannot be
checked. -/
theorem faultOf?_guardLines_coercions (hd : r.dialect = some d) (s : Signature) :
    faultOf? (r.guardLines level (s.map Guard.coercion)) =
      if s = [] then none else (r.levelFault? level).or (r.checks.refusal? s.types) := by
  induction s with
  | nil => rfl
  | cons p s ih =>
    have htypes : r.checks.refusal? (Signature.types (p :: s)) =
        (r.checks.refusal? [p.type]).or (r.checks.refusal? (Signature.types s)) :=
      HostTable.refusal?_append [p.type] (Signature.types s)
    rw [List.map_cons, faultOf?_guardLines_cons, ih, faultOf?_nodeLines_coercion hd,
      if_neg (List.cons_ne_nil p s), htypes]
    cases r.levelFault? level with
    | some fault => rfl
    | none =>
      cases s with
      | nil => rfl
      | cons q s => rfl

theorem faultOf?_nodeLines_coerceAll (coercions : List Node) :
    faultOf? (r.nodeLines level (.coerceAll coercions (.noMatch isVoid))) =
      (r.levelFault? level).or ((faultOf? (r.guardLines (level + 1) coercions)).or
        (r.levelFault? (level + 1))) := by
  unfold nodeLines
  refine faultOf?_bind fun _ _ => faultOf?_bind fun _ _ => ?_
  rw [← faultOf?_nodeLines_noMatch r (level + 1) isVoid]
  exact faultOf?_bind_pure

/-- The guard of a signature has the fault of one of its two levels, or of the first type that
cannot be checked. -/
theorem faultOf?_guardLines_dispatch (hd : r.dialect = some d) (s : Signature) :
    faultOf? (r.guardLines level (Guard.dispatch s isVoid)) =
      (r.levelFault? level).or ((r.levelFault? (level + 1)).or (r.checks.refusal? s.types)) := by
  unfold Guard.dispatch
  rw [faultOf?_guardLines_cons, faultOf?_nodeLines_arityCheck hd]
  cases s with
  | nil =>
    rw [guardLines, Option.or_assoc]
    rfl
  | cons p s =>
    simp only [faultOf?_guardLines_cons, faultOf?_nodeLines_bindParams,
      faultOf?_nodeLines_coerceAll, faultOf?_guardLines_coercions hd]
    cases r.levelFault? level with
    | some fault => rfl
    | none =>
      cases r.levelFault? (level + 1) with
      | some fault => rfl
      | none =>
        cases r.checks.refusal? (Signature.types (p :: s)) <;> rfl

/-- A check for ambiguous calls has the fault of one of its two levels, if it is there at all. -/
theorem faultOf?_guardLines_ambiguity (hd : r.dialect = some d) (level : Int)
    (signatures : List Signature) :
    faultOf? (r.guardLines level (Guard.ambiguity signatures)) = none ∨
      faultOf? (r.guardLines level (Guard.ambiguity signatures)) =
        (r.levelFault? level).or (r.levelFault? (level + 1)) := by
  have hdialect : r.requireDialect = .ok d := by rw [requireDialect, hd]
  have hraise : faultOf? (r.nodeLines (level + 1) Node.ambiguousCall) =
      r.levelFault? (level + 1) := by
    unfold nodeLines
    exact faultOf?_bind_pure
  unfold Guard.ambiguity
  split
  · exact .inl rfl
  · right
    rw [faultOf?_guardLines_cons, guardLines, ← hraise]
    refine (Option.or_none).trans ?_
    unfold nodeLines
    refine faultOf?_bind fun _ _ => ?_
    rw [hdialect]
    exact faultOf?_bind_pure

/-- The guards of signatures have the fault of their levels, if there are any, or of the first type
that cannot be checked. -/
theorem findSome?_faultOf?_dispatch (hd : r.dialect = some d) (level : Int) (isVoid : Bool)
    (signatures : List Signature) :
    (signatures.map fun s => r.guardText (Guard.dispatch s isVoid) (some level)).findSome?
        faultOf? =
      if signatures = [] then none
      else (r.levelFault? level).or ((r.levelFault? (level + 1)).or
        (r.checks.refusal? (signatures.flatMap Signature.types))) := by
  induction signatures with
  | nil => rfl
  | cons s rest ih =>
    have hguard : faultOf? (r.guardText (Guard.dispatch s isVoid) (some level)) =
        faultOf? (r.guardLines level (Guard.dispatch s isVoid)) := faultOf?_bind_pure
    rw [List.map_cons, List.findSome?_cons, hguard, faultOf?_guardLines_dispatch hd, ih,
      if_neg (List.cons_ne_nil s rest), List.flatMap_cons, HostTable.refusal?_append]
    cases r.levelFault? level with
    | some fault => rfl
    | none =>
      cases r.levelFault? (level + 1) with
      | some fault => rfl
      | none =>
        cases r.checks.refusal? s.types with
        | some fault => rfl
        | none =>
          cases rest with
          | nil => rfl
          | cons other rest => rfl

/-! ## The faults of entry points -/

/-- The levels at which the lines of an entry point stand, in the order in which they are looked at
first. -/
def entryLevels (level : Int) (signatures : List Signature) : List Int :=
  [level, level + 1, level + 2] ++ if signatures = [] then [] else [level + 3]

/-- An entry point has the fault of the first of its levels that cannot be written, and else of the
first type that cannot be checked. -/
theorem faultOf?_dispatcherText (hd : r.dialect = some d) (signatures : List Signature) :
    faultOf? (r.dispatcherText (Dispatcher.build name signatures isVoid callee) level) =
      ((entryLevels level signatures).findSome? r.levelFault?).or
        (r.checks.refusal? (signatures.flatMap Signature.types)) := by
  have hambiguity := faultOf?_guardLines_ambiguity hd (level + 1) signatures
  have hguards := findSome?_faultOf?_dispatch hd (level + 2) isVoid signatures
  have hambiguous : faultOf? (r.guardText (Guard.ambiguity signatures) (some (level + 1))) =
      faultOf? (r.guardLines (level + 1) (Guard.ambiguity signatures)) := faultOf?_bind_pure
  have hone : level + 1 + 1 = level + 2 := by omega
  have htwo : level + 2 + 1 = level + 3 := by omega
  rw [hone] at hambiguity
  rw [htwo] at hguards
  rw [faultOf?_dispatcherText_build, fragments, findSome?_cons_eq_or, hguards, hambiguous]
  change (r.levelFault? level).or ((r.levelFault? (level + 1)).or
    (Option.or _ (r.levelFault? (level + 2)))) = _
  by_cases hnone : signatures = []
  · -- Without signatures there is no check for ambiguous calls either.
    subst hnone
    have hempty : faultOf? (r.guardLines (level + 1) (Guard.ambiguity [])) = none := rfl
    rw [hempty]
    simp [entryLevels, findSome?_cons_eq_or, HostTable.refusal?]
  · rw [entryLevels, if_neg hnone, if_neg hnone]
    simp only [List.cons_append, List.nil_append, findSome?_cons_eq_or, List.findSome?_nil]
    -- The level of the loop's body is looked at again after the guards, where it is no news.
    rcases hambiguity with h | h <;> rw [h] <;>
      cases r.levelFault? level <;> cases r.levelFault? (level + 1) <;>
        cases r.levelFault? (level + 2) <;> simp

end Renderer

/-! ## Types that are spelled -/

namespace QualifiedType

/-- Whether a type has the category that its spelling suggests. -/
def IsClassified (t : QualifiedType) : Prop := t.category = classify t.name t.namespaces

theorem isClassified_of_ofSpelling {spelling : String} {t : QualifiedType}
    (h : ofSpelling spelling = .ok t) : t.IsClassified :=
  (ofSpelling_eq_ok_iff.mp h).2.2

end QualifiedType

/-- The table of the built-in types has a check for every basic type. -/
theorem HostTable.mem_keys_standard : ∀ name ∈ basicNames, name ∈ standard.map Prod.fst := by
  decide

/-- Of the types that are classified by their spelling only `void` cannot be checked. -/
theorem HostTable.lacks_standard_iff {t : QualifiedType} (h : t.IsClassified) :
    standard.Lacks t ↔ t.name = "void" ∧ t.namespaces = [] := by
  have hknown : t.category = .basic → t.name ∈ standard.map Prod.fst := by
    intro hbasic
    refine mem_keys_standard t.name ?_
    rw [h] at hbasic
    unfold classify at hbasic
    grind
  have hvoid : t.category = .void ↔ t.name = "void" ∧ t.namespaces = [] := by
    rw [h]
    unfold classify
    grind
  rw [← hvoid]
  constructor
  · rintro (hnone | ⟨hbasic, hmissing⟩)
    · exact hnone
    · exact absurd (hknown hbasic) hmissing
  · exact .inl

/-- Whether the types that a substitution puts in are spelled. -/
structure Substitution.Spelled (t : Substitution) : Prop where
  /-- The target. -/
  target : ∃ spelling, QualifiedType.ofSpelling spelling = .ok t.target
  /-- The class that `This` becomes, if there is one. -/
  thisClass : ∀ c ∈ t.thisClass, ∃ spelling, QualifiedType.ofSpelling spelling = .ok c

/-- The signatures that are read from texts, and their instances at spelled types. -/
inductive Signature.Spelled : Signature → Prop where
  /-- A text was read. -/
  | read {text : String} {s : Signature} (h : ofText text = .ok s) : Spelled s
  /-- A signature was instantiated. -/
  | expanded {s : Signature} {t : Substitution} (h : Spelled s) (ht : t.Spelled) :
    Spelled (s.expand t)

/-- The type that is drafted while a text is read is classified by its spelling. -/
theorem Signature.TypeDraft.isClassified_type (d : TypeDraft) : d.type.IsClassified := by
  unfold TypeDraft.type
  split <;> rfl

/-- A type that is replaced is classified like the type that replaces it. -/
theorem Substitution.Spelled.isClassified_apply {t : Substitution} (h : t.Spelled)
    {type : QualifiedType} (htype : type.IsClassified) : (t.apply type).IsClassified := by
  obtain ⟨⟨spelling, htarget⟩, hthis⟩ := h
  unfold apply
  split
  · exact htype
  · split
    · exact QualifiedType.isClassified_of_ofSpelling htarget
    · split
      · cases hclass : t.thisClass with
        | none => exact htype
        | some c =>
          obtain ⟨spelling, hc⟩ := hthis c hclass
          exact QualifiedType.isClassified_of_ofSpelling hc
      · exact htype

/-- The types of a spelled signature are classified by their spellings. -/
theorem Signature.Spelled.isClassified {s : Signature} (h : s.Spelled) :
    ∀ p ∈ s, p.type.IsClassified := by
  induction h with
  | read h =>
    obtain ⟨tokens, trees, -, -, rfl⟩ := ofText_eq_ok_iff.mp h
    intro p hp
    obtain ⟨tree, -, rfl⟩ := List.mem_map.mp hp
    exact tree.draft.isClassified_type
  | expanded h ht ih =>
    intro p hp
    obtain ⟨q, hq, rfl⟩ := List.mem_map.mp hp
    exact ht.isClassified_apply (ih q hq)

/-- Whether an event adds a spelled signature, or puts in spelled types. -/
def Event.Spelled : Event → Prop
  | .pushed s => s.Spelled
  | .expanded t => t.Spelled

/-- One more event keeps what is declared and what is held spelled. -/
theorem History.spelled_record {o : OverloadSet} (hdeclared : ∀ s ∈ o.declared, s.Spelled)
    (hheld : ∀ s ∈ o.held, s.Spelled) {event : Event} (h : event.Spelled) :
    (∀ s ∈ (record o event).declared, s.Spelled) ∧ ∀ s ∈ (record o event).held, s.Spelled := by
  cases event with
  | pushed s =>
    have hone : ∀ other ∈ [s], Signature.Spelled other := List.forall_mem_singleton.mpr h
    exact ⟨List.forall_mem_append.mpr ⟨hdeclared, hone⟩, List.forall_mem_append.mpr ⟨hheld, hone⟩⟩
  | expanded t =>
    refine ⟨hdeclared, fun s hs => ?_⟩
    obtain ⟨declared, hmem, rfl⟩ := List.mem_map.mp hs
    exact .expanded (hdeclared declared hmem) h

/-- What is held after spelled events is spelled. -/
theorem History.spelled_replay {past : History} (h : ∀ event ∈ past, event.Spelled) :
    (∀ s ∈ (replay past).declared, s.Spelled) ∧ ∀ s ∈ (replay past).held, s.Spelled := by
  induction past using List.reverseRecOn with
  | nil => exact ⟨List.forall_mem_nil _, List.forall_mem_nil _⟩
  | append_singleton past event ih =>
    obtain ⟨hpast, hevent⟩ := List.forall_mem_append.mp h
    obtain ⟨hdeclared, hheld⟩ := ih hpast
    rw [replay_concat]
    exact spelled_record hdeclared hheld (List.forall_mem_singleton.mp hevent)

/-! ## When an entry point cannot be written -/

namespace HostTable

variable {checks : HostTable} {signatures : List Signature}

/-- There is a refusal exactly if one of the types cannot be checked. -/
theorem exists_refusal?_iff :
    (∃ fault, checks.refusal? (signatures.flatMap Signature.types) = some fault) ↔
      ∃ s ∈ signatures, ∃ p ∈ s, checks.Lacks p.type := by
  rw [← Option.isSome_iff_exists, refusal?, Option.isSome_map, List.find?_isSome]
  simp [Signature.types, and_assoc]

/-- A refusal is about the first type that cannot be checked. -/
theorem refusal?_eq_some_iff {types : List QualifiedType} {fault : Fault} :
    checks.refusal? types = some fault ↔
      ∃ before t after, types = before ++ t :: after ∧ (∀ u ∈ before, ¬checks.Lacks u) ∧
        checks.Lacks t ∧ fault = .noHostCheck t.qualified := by
  simp only [refusal?, Option.map_eq_some_iff, List.find?_eq_some_iff_append]
  constructor
  · rintro ⟨t, ⟨hlacks, before, after, htypes, hbefore⟩, rfl⟩
    exact ⟨before, t, after, htypes, by simpa using hbefore, by simpa using hlacks, rfl⟩
  · rintro ⟨before, t, after, htypes, hbefore, hlacks, rfl⟩
    exact ⟨t, ⟨by simpa using hlacks, before, after, htypes, by simpa using hbefore⟩, rfl⟩

end HostTable

/-- Where all levels can be written, only a type that cannot be checked is at fault. -/
theorem Renderer.faultOf?_dispatcherText_of_levels {r : Renderer} {d : Dialect}
    (hd : r.dialect = some d) {level : Int} {name callee : String} {isVoid : Bool}
    {signatures : List Signature}
    (hlevels : ∀ l ∈ entryLevels level signatures, r.requireLevel l = .ok ()) :
    faultOf? (r.dispatcherText (Dispatcher.build name signatures isVoid callee) level) =
      r.checks.refusal? (signatures.flatMap Signature.types) := by
  have hnone : (entryLevels level signatures).findSome? r.levelFault? = none := by
    refine List.findSome?_eq_none_iff.mpr fun l hl => ?_
    rw [levelFault?, hlevels l hl]
    rfl
  rw [faultOf?_dispatcherText hd, hnone, Option.none_or]

/-- The source of a callable is its entry point in the dialect that is asked for. -/
theorem Callable.source_eq {c : Callable} {isVoid : Bool} {o : SourceOptions} {d : Dialect}
    (h : o.dialectName = d.name) (capacity : Option Nat) :
    c.source isVoid o capacity =
      (d.renderer (o.unit.getD d.unit) (o.level.getD d.level) o.checks capacity).dispatcherText
        (c.dispatcher isVoid nativeCallee) (o.level.getD 0) := by
  rw [source, Dispatcher.source, SourceOptions.renderer, h, Dialect.ofName_name]
  rfl

/-- With the checks of the built-in types and spelled signatures, the source of a callable fails
only for an argument of the type `void`. -/
theorem Callable.source_fails_iff_of_spelled {c : Callable} {isVoid : Bool} {o : SourceOptions}
    {capacity : Option Nat} {d : Dialect} (hspelled : ∀ s ∈ c.overloads.held, s.Spelled)
    (hdialect : o.dialectName = d.name) (hchecks : o.checks = HostTable.standard)
    (hlevels : ∀ l ∈ Renderer.entryLevels (o.level.getD 0) c.overloads.held,
      Line.requireLevel capacity (o.unit.getD d.unit) l = .ok ()) :
    (∃ fault, c.source isVoid o capacity = .error fault) ↔
      ∃ s ∈ c.overloads.held, ∃ p ∈ s, p.type.name = "void" ∧ p.type.namespaces = [] := by
  let r := d.renderer (o.unit.getD d.unit) (o.level.getD d.level) o.checks capacity
  have hfault : faultOf? (r.dispatcherText (c.dispatcher isVoid nativeCallee)
      (o.level.getD 0)) = o.checks.refusal? (c.overloads.held.flatMap Signature.types) :=
    Renderer.faultOf?_dispatcherText_of_levels (d := d) rfl hlevels
  have hlacks : (∃ s ∈ c.overloads.held, ∃ p ∈ s, o.checks.Lacks p.type) ↔
      ∃ s ∈ c.overloads.held, ∃ p ∈ s, p.type.name = "void" ∧ p.type.namespaces = [] := by
    rw [hchecks]
    refine exists_congr fun s => and_congr_right fun hs => ?_
    refine exists_congr fun p => and_congr_right fun hp => ?_
    exact HostTable.lacks_standard_iff ((hspelled s hs).isClassified p hp)
  rw [← hlacks, ← HostTable.exists_refusal?_iff, source_eq hdialect]
  simp only [← faultOf?_eq_some_iff]
  exact exists_congr fun fault => Eq.congr_left hfault

/-- An entry point cannot be written for two reasons only: a level that cannot be written, or a type
that cannot be checked, which of the spelled types only `void` is. -/
theorem Renderer.dispatcherText_fails_iff_lacks_check (d : Dialect) (unit : String) (own : Int)
    (checks : HostTable) (capacity : Option Nat) (level : Int) (name callee : String)
    (isVoid : Bool) (signatures : List Signature) :
    let r := d.renderer unit own checks capacity
    let outcome := r.dispatcherText (Dispatcher.build name signatures isVoid callee) level
    faultOf? outcome = ((entryLevels level signatures).findSome? r.levelFault?).or
      (checks.refusal? (signatures.flatMap Signature.types)) ∧
    ((∀ l ∈ entryLevels level signatures, r.requireLevel l = .ok ()) →
      ((∃ fault, outcome = .error fault) ↔ ∃ s ∈ signatures, ∃ p ∈ s, checks.Lacks p.type) ∧
      ∀ fault, outcome = .error fault ↔ ∃ before t after,
        signatures.flatMap Signature.types = before ++ t :: after ∧
        (∀ u ∈ before, ¬checks.Lacks u) ∧ checks.Lacks t ∧ fault = .noHostCheck t.qualified ∧
        fault.message = "no host check for type '" ++ t.qualified ++ "'") ∧
    ∀ (past : History) (c : Callable) (o : SourceOptions), (∀ event ∈ past, event.Spelled) →
      c.overloads = past.replay → o.dialectName = d.name → o.checks = HostTable.standard →
      (∀ l ∈ entryLevels (o.level.getD 0) c.overloads.held,
        Line.requireLevel capacity (o.unit.getD d.unit) l = .ok ()) →
      ((∃ fault, c.source isVoid o capacity = .error fault) ↔
        ∃ s ∈ c.overloads.held, ∃ p ∈ s, p.type.name = "void" ∧ p.type.namespaces = []) := by
  intro r outcome
  refine ⟨faultOf?_dispatcherText rfl signatures, fun hlevels => ?_, ?_⟩
  · have hfault : faultOf? outcome = checks.refusal? (signatures.flatMap Signature.types) :=
      faultOf?_dispatcherText_of_levels rfl hlevels
    refine ⟨?_, fun fault => ?_⟩
    · simp only [← faultOf?_eq_some_iff, hfault]
      exact HostTable.exists_refusal?_iff
    · rw [← faultOf?_eq_some_iff, hfault, HostTable.refusal?_eq_some_iff]
      constructor
      · rintro ⟨before, t, after, htypes, hbefore, hlacks, rfl⟩
        exact ⟨before, t, after, htypes, hbefore, hlacks, rfl, rfl⟩
      · rintro ⟨before, t, after, htypes, hbefore, hlacks, hfault, -⟩
        exact ⟨before, t, after, htypes, hbefore, hlacks, hfault⟩
  · intro past c o hpast hreplay hdialect hchecks hlevels
    have hspelled : ∀ s ∈ c.overloads.held, s.Spelled := by
      rw [hreplay]
      exact (History.spelled_replay hpast).2
    exact Callable.source_fails_iff_of_spelled hspelled hdialect hchecks hlevels

/-- The plain source of a callable that took a text and was instantiated at `void` fails. -/
theorem Renderer.valueAtVoid_fails :
    ∃ s target, Signature.ofText "double x, T y" = .ok s ∧
      QualifiedType.ofSpelling "void" = .ok target ∧
      let past : History := [.pushed s, .expanded ⟨"T", target, none⟩]
      (∃ fault, Callable.source { overloads := past.replay } false
        { dialectName := Dialect.interpreted.name } none = .error fault) ∧
      (Dialect.interpreted.renderer "    " 1 HostTable.standard none).dispatcherText
        (Dispatcher.build "f" past.replay.held false nativeCallee) 0 =
          .error (.noHostCheck "void") := by
  let s : Signature :=
    [{ name := "x", type := ⟨"double", [], .basic, by decide⟩ },
      { name := "y", type := ⟨"T", [], .wrapped, by decide⟩ }]
  let target : QualifiedType := ⟨"void", [], .void, by decide⟩
  have hread : Signature.ofText "double x, T y" = .ok s := eq_ok_of_toOption (by decide +kernel)
  have hspelled : QualifiedType.ofSpelling "void" = .ok target :=
    eq_ok_of_toOption (by decide +kernel)
  let past : History := [.pushed s, .expanded ⟨"T", target, none⟩]
  have htarget : Substitution.Spelled ⟨"T", target, none⟩ := ⟨⟨_, hspelled⟩, by simp⟩
  have hevents : ∀ event ∈ past, event.Spelled :=
    List.forall_mem_cons.mpr ⟨.read hread, List.forall_mem_singleton.mpr htarget⟩
  have hlevels : ∀ l ∈ entryLevels 0 past.replay.held,
      Line.requireLevel none "    " l = .ok () := by
    have hwritten : ∀ l ∈ entryLevels 0 past.replay.held,
        (Word.least ≤ l ∧ l ≤ Word.greatest) ∧ (l ≤ 1 ∨ "    ".length * l ≤ Word.greatest) := by
      decide
    exact fun l hl => Line.requireLevel_none_eq_ok_iff.mpr (hwritten l hl)
  obtain ⟨-, hlacks, hsource⟩ := dispatcherText_fails_iff_lacks_check .interpreted "    " 1
    HostTable.standard none 0 "f" nativeCallee false past.replay.held
  obtain ⟨-, hfirst⟩ := hlacks hlevels
  refine ⟨s, target, hread, hspelled, ?_, ?_⟩
  · refine (hsource past { overloads := past.replay } { dialectName := Dialect.interpreted.name }
      hevents rfl rfl rfl hlevels).mpr ?_
    decide
  · refine (hfirst _).mpr ⟨[⟨"double", [], .basic, by decide⟩], target, [], ?_⟩
    decide

/-- The deepest lines of an overload stand three levels below its entry point, and fail there first
if the level is no longer held. -/
theorem Renderer.unindented_checkedArgument_fails :
    ∃ s, Signature.ofText "double x" = .ok s ∧ (∀ p ∈ s, ¬HostTable.standard.Lacks p.type) ∧
      unindented.dispatcherText (Dispatcher.build "f" [s] false nativeCallee)
        9223372036854775805 = .error .levelTooWide ∧
      ¬((∃ fault, unindented.dispatcherText (Dispatcher.build "f" [s] false nativeCallee)
          9223372036854775805 = .error fault) ↔
        ∃ t ∈ [s], ∃ p ∈ t, HostTable.standard.Lacks p.type) := by
  let s : Signature := [{ name := "x", type := ⟨"double", [], .basic, by decide⟩ }]
  have hread : Signature.ofText "double x" = .ok s := eq_ok_of_toOption (by decide +kernel)
  have hchecked : ∀ p ∈ s, ¬HostTable.standard.Lacks p.type := by decide
  have hlevel {l : Int} (h : Word.holds l = true) : unindented.levelFault? l = none :=
    congrArg faultOf? (Line.requireLevel_empty h)
  have hentry : unindented.levelFault? 9223372036854775805 = none := hlevel (by decide)
  have hinner : unindented.levelFault? (9223372036854775805 + 1) = none := hlevel (by decide)
  have hbody : unindented.levelFault? (9223372036854775805 + 2) = none := hlevel (by decide)
  have hdeepest : unindented.levelFault? (9223372036854775805 + 3) = some .levelTooWide := rfl
  have hlevels : (entryLevels 9223372036854775805 [s]).findSome? unindented.levelFault? =
      some .levelTooWide := by
    rw [entryLevels, if_neg (List.cons_ne_nil s []), List.cons_append, List.cons_append,
      List.cons_append, findSome?_cons_eq_or, findSome?_cons_eq_or, findSome?_cons_eq_or, hentry,
      hinner, hbody, List.nil_append, findSome?_cons_eq_or, hdeepest]
    rfl
  have hfault : unindented.dispatcherText (Dispatcher.build "f" [s] false nativeCallee)
      9223372036854775805 = .error .levelTooWide := by
    rw [← faultOf?_eq_some_iff, faultOf?_dispatcherText rfl, hlevels]
    rfl
  refine ⟨s, hread, hchecked, hfault, fun h => ?_⟩
  obtain ⟨t, ht, p, hp, hlacks⟩ := h.mp ⟨_, hfault⟩
  obtain rfl := List.mem_singleton.mp ht
  exact hchecked p hp hlacks

end OverloadDispatch
