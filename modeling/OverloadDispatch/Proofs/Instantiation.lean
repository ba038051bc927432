import Mathlib.Data.List.Forall2
import OverloadDispatch.Guard.Build
import OverloadDispatch.Guard.Retype
import OverloadDispatch.Proofs.Histories

/-!
# What an instantiation changes

An instantiation replaces types and nothing else. Guards look at types in their coercions only, so
the entry point of the instantiated signatures is the entry point of the declared ones, retyped. A
check of the instantiated signatures looks at the types that were put in and at those that were left
alone; what was instantiated before has no part in it.
-/

namespace OverloadDispatch

/-! ## The entry point -/

variable (t : Substitution)

/-- Instantiated signatures share the lengths that the declared ones share. -/
theorem duplicateArities_expand (signatures : List Signature) :
    duplicateArities (signatures.map (Signature.expand t)) = duplicateArities signatures := by
  have hlength : List.length ∘ Signature.expand t = List.length :=
    funext fun s => s.length_expand t
  rw [duplicateArities, duplicateArities, List.map_map, hlength]

namespace Guard

/-- The check that stands before all overloads asks for lengths only. -/
theorem ambiguity_expand (signatures : List Signature) :
    ambiguity (signatures.map (Signature.expand t)) = ambiguity signatures := by
  rw [ambiguity, ambiguity, duplicateArities_expand]

/-- The check that stands before all overloads has no types. -/
theorem retype_ambiguity (change : QualifiedType → QualifiedType) (signatures : List Signature) :
    (ambiguity signatures).retype change = ambiguity signatures := by
  unfold ambiguity
  split <;> rfl

/-- The guard of an instantiated signature is that of the declared one, retyped. -/
theorem dispatch_expand (s : Signature) (isVoid : Bool) :
    dispatch (s.expand t) isVoid = (dispatch s isVoid).retype t.apply := by
  cases s with
  | nil => rfl
  | cons p s =>
    have hcoercions : (Signature.expand t (p :: s)).map coercion =
        Node.retypeAll t.apply ((p :: s).map coercion) := by
      rw [Node.retypeAll_eq_map, Signature.expand, List.map_map, List.map_map]
      rfl
    change [Node.arityCheck (Signature.expand t (p :: s)).length (.noMatch isVoid),
      .bindParams (Signature.expand t (p :: s)).names,
      .coerceAll ((Signature.expand t (p :: s)).map coercion) (.noMatch isVoid)] = _
    rw [Signature.length_expand, Signature.names_expand, hcoercions]
    rfl

end Guard

/-- The resolver of an instantiated signature is that of the declared one, retyped. -/
theorem Resolver.build_expand (name : String) (isVoid : Bool) (callee : String) (s : Signature)
    (index : Nat) :
    build name isVoid callee (s.expand t) index =
      (build name isVoid callee s index).retype t.apply := by
  rw [build, Guard.dispatch_expand, Signature.names_expand]
  rfl

namespace Dispatcher

/-- The entry point of instantiated signatures is that of the declared ones, retyped. -/
theorem build_expand (name : String) (signatures : List Signature) (isVoid : Bool)
    (callee : String) :
    build name (signatures.map (Signature.expand t)) isVoid callee =
      (build name signatures isVoid callee).retype t.apply := by
  rw [build, build, retype, Guard.ambiguity_expand, Guard.retype_ambiguity, List.zipIdx_map,
    List.map_map, List.map_map]
  congr 1
  exact List.map_congr_left fun entry _ =>
    Resolver.build_expand t name isVoid callee entry.1 entry.2

/-- The entry point of instantiated signatures is that of the declared ones with the substitution
applied to the types of its coercions, and resolves calls with the values converted accordingly. -/
theorem build_commutes_with_expand (name : String) (signatures : List Signature) (isVoid : Bool)
    (callee : String) (t : Substitution) :
    let declared := build name signatures isVoid callee
    let instantiated := build name (signatures.map (Signature.expand t)) isVoid callee
    instantiated = declared.retype t.apply ∧
    instantiated.name = declared.name ∧ instantiated.isVoid = declared.isVoid ∧
    instantiated.ambiguity = declared.ambiguity ∧
    List.Forall₂ (fun r s : Resolver =>
      r.name = s.name ∧ r.invoke = s.invoke ∧ Guard.SameButTypes r.guard s.guard ∧
      Node.typesAll r.guard = (Node.typesAll s.guard).map t.apply)
      instantiated.resolvers declared.resolvers ∧
    ∀ (α β : Type) (call : Call α) (convert : Conversion α β),
      instantiated.run call convert = declared.run call fun type => convert (t.apply type) := by
  intro declared instantiated
  have hretyped : instantiated = declared.retype t.apply :=
    build_expand t name signatures isVoid callee
  refine ⟨hretyped, rfl, rfl, Guard.ambiguity_expand t signatures, ?_, ?_⟩
  · have hresolvers : instantiated.resolvers = declared.resolvers.map (Resolver.retype t.apply) :=
      congrArg Dispatcher.resolvers hretyped
    rw [hresolvers, List.forall₂_map_left_iff, List.forall₂_same]
    intro r hr
    obtain ⟨⟨s, i⟩, -, rfl⟩ := List.mem_map.mp hr
    exact ⟨rfl, rfl, Guard.sameButTypes_retype t.apply _, Node.typesAll_retypeAll t.apply _⟩
  · intro α β call convert
    rw [hretyped]
    exact run_retype call convert t.apply declared

end Dispatcher

/-! ## The check of known types -/

namespace Substitution

/-- Whether a substitution leaves a type alone, since it stands in a namespace or is none of the
names that are replaced. -/
def Spares (type : QualifiedType) : Prop :=
  type.namespaces ≠ [] ∨
    type.name ≠ t.placeholder ∧ (t.thisClass.isSome → type.name ≠ thisName)

instance (type : QualifiedType) : Decidable (t.Spares type) :=
  inferInstanceAs (Decidable (_ ∨ _))

variable {t}

/-- A type that is left alone stays as it is. -/
theorem apply_of_spares {type : QualifiedType} (h : t.Spares type) : t.apply type = type := by
  rcases h with hnamespaces | ⟨hname, hthis⟩
  · exact apply_of_namespaces hnamespaces
  · unfold apply
    cases hclass : t.thisClass with
    | none => simp [hname]
    | some c => simp [hname, hthis (by rw [hclass]; rfl)]

/-- Where the class is given, `This` becomes the class, unless it is the placeholder. -/
theorem apply_of_thisName {type c : QualifiedType} (h : type.namespaces = [])
    (hname : type.name = thisName) (hplaceholder : t.placeholder ≠ thisName)
    (hclass : t.thisClass = some c) : t.apply type = c := by
  simp [apply, h, hname, hplaceholder.symm, hclass]

/-- A type that is not left alone is the placeholder, or else it is `This` and a class is given. -/
theorem not_spares_iff {type : QualifiedType} :
    ¬t.Spares type ↔ type.namespaces = [] ∧
      (type.name = t.placeholder ∨
        t.placeholder ≠ thisName ∧ type.name = thisName ∧ t.thisClass.isSome) := by
  unfold Spares
  by_cases hname : type.name = t.placeholder
  · simp [hname]
  · grind

/-- What has to be known of declared types so that all of them are known under a substitution. -/
structure KnownIn (t : Substitution) (valid : List String) (types : List QualifiedType) : Prop where
  /-- The types that are left alone. -/
  spared : ∀ type ∈ types, t.Spares type → type.qualified ∈ valid
  /-- The target, if the placeholder is declared. -/
  target : (∃ type ∈ types, type.namespaces = [] ∧ type.name = t.placeholder) →
    t.target.qualified ∈ valid
  /-- The class, if one is given and `This` is declared and is not the placeholder itself. -/
  thisClass : ∀ c ∈ t.thisClass, t.placeholder ≠ thisName →
    (∃ type ∈ types, type.namespaces = [] ∧ type.name = thisName) → c.qualified ∈ valid

/-- Under a substitution all types are known exactly if the types left alone and those that are put
in are known. -/
theorem forall_apply_known_iff {valid : List String} {types : List QualifiedType} :
    (∀ type ∈ types, (t.apply type).qualified ∈ valid) ↔ t.KnownIn valid types := by
  constructor
  · intro h
    refine ⟨fun type htype hspared => ?_, ?_, ?_⟩
    · rw [← apply_of_spares hspared]
      exact h type htype
    · rintro ⟨type, htype, hnamespaces, hname⟩
      rw [← apply_of_placeholder hnamespaces hname]
      exact h type htype
    · rintro c hc hplaceholder ⟨type, htype, hnamespaces, hname⟩
      rw [← apply_of_thisName hnamespaces hname hplaceholder hc]
      exact h type htype
  · intro h type htype
    by_cases hspared : t.Spares type
    · rw [apply_of_spares hspared]
      exact h.spared type htype hspared
    · obtain ⟨hnamespaces, hname | ⟨hplaceholder, hname, hsome⟩⟩ := not_spares_iff.mp hspared
      · rw [apply_of_placeholder hnamespaces hname]
        exact h.target ⟨type, htype, hnamespaces, hname⟩
      · obtain ⟨c, hclass⟩ := Option.isSome_iff_exists.mp hsome
        rw [apply_of_thisName hnamespaces hname hplaceholder hclass]
        exact h.thisClass c hclass hplaceholder ⟨type, htype, hnamespaces, hname⟩

/-- Where all declared types and those that are put in are known, nothing more has to be. -/
theorem knownIn_of_forall_known {valid : List String} {types : List QualifiedType}
    (h : ∀ type ∈ types, type.qualified ∈ valid) (htarget : t.target.qualified ∈ valid)
    (hclass : ∀ c ∈ t.thisClass, c.qualified ∈ valid) : t.KnownIn valid types where
  spared type htype _ := h type htype
  target _ := htarget
  thisClass c hc _ _ := hclass c hc

end Substitution

/-- An instantiation puts the types of all declared signatures under the substitution. -/
theorem OverloadSet.types_expand (o : OverloadSet) :
    (o.expand t).types = (o.declared.flatMap Signature.types).map t.apply := by
  rw [types, held_expand, List.flatMap_map, List.map_flatMap]
  simp only [Signature.types_expand]

namespace History

/-- An instantiation depends on the signatures that were pushed, and on nothing else that was
done. -/
theorem replay_expanded (past : History) :
    replay (past ++ [.expanded t]) = ⟨past.pushes, past.pushes.map (Signature.expand t)⟩ := by
  rw [replay_concat, record, OverloadSet.expand, OverloadSet.expanded, declared_replay]

/-- Signatures that were only pushed are held as they were pushed. -/
theorem held_replay_pushed (signatures : List Signature) :
    (replay (signatures.map .pushed)).held = signatures := by
  have hnone : ∀ u, Event.expanded u ∉ signatures.map .pushed := by simp
  have hpushes : pushes (signatures.map .pushed) = signatures := by
    simp [pushes, List.filterMap_map]
  have hheld := held_foldl_of_pushes {} hnone
  rw [hpushes, List.nil_append] at hheld
  exact hheld

/-- The types that are held after an instantiation. -/
theorem types_replay_expanded (past : History) :
    (replay (past ++ [.expanded t])).types =
      (past.pushes.flatMap Signature.types).map t.apply := by
  rw [replay_concat, record, OverloadSet.types_expand, declared_replay]

/-- Right after an instantiation a check passes exactly if the declared types that are left alone
are known, and the target and the class where they are used. Earlier instantiations do not count. -/
theorem verify_instantiated_iff (past : History) (t : Substitution) (valid : List String) :
    let instantiated := replay (past ++ [.expanded t])
    (∀ context, instantiated.verify valid context = .ok () ↔
      t.KnownIn valid (past.pushes.flatMap Signature.types)) ∧
    (∀ other : History, other.pushes = past.pushes → ∀ context,
      (replay (other ++ [.expanded t])).verify valid context =
        instantiated.verify valid context) ∧
    (∀ context, (replay (past.pushes.map .pushed)).verify valid context = .ok () →
      t.target.qualified ∈ valid → (∀ c ∈ t.thisClass, c.qualified ∈ valid) →
      instantiated.verify valid context = .ok ()) ∧
    ∀ actions id entry,
      (Log.run actions).histories.find? id = some (past ++ [.expanded t]) →
      (Workspace.run actions).find? id = some entry → entry.overloads = instantiated := by
  intro instantiated
  have hknown (context : String) : instantiated.verify valid context = .ok () ↔
      t.KnownIn valid (past.pushes.flatMap Signature.types) := by
    rw [OverloadSet.verify_eq_ok_iff, types_replay_expanded, List.forall_mem_map,
      Substitution.forall_apply_known_iff]
  refine ⟨hknown, ?_, ?_, ?_⟩
  · intro other hpushes context
    have hsame : replay (other ++ [.expanded t]) = instantiated := by
      rw [replay_expanded, hpushes, ← replay_expanded]
    rw [hsame]
  · intro context hdeclared htarget hclass
    rw [OverloadSet.verify_eq_ok_iff, OverloadSet.types, held_replay_pushed] at hdeclared
    exact (hknown context).mpr (Substitution.knownIn_of_forall_known hdeclared htarget hclass)
  · intro actions id entry hpast hentry
    have hstep := Log.consistent_run actions id
    rw [Log.workspace_run, hentry, hpast] at hstep
    exact Option.some.inj hstep

/-- A class of scanners. -/
def scannerClass : QualifiedType := { name := "Scanner" }

/-- The placeholder `T` becomes a cloud in scanners. -/
def cloudInScanner : Substitution where
  placeholder := "T"
  target := { name := "Cloud" }
  thisClass := some scannerClass

/-- The placeholder is a name. -/
theorem placeholder_ne_empty : "T" ≠ "" := by decide

/-- A placeholder, the class itself, a type of the same name in a namespace, and a stamp. -/
def scannerSignature : Signature :=
  [{ name := "cloud", type := ⟨"T", [], .wrapped, placeholder_ne_empty⟩ },
    { name := "other", type := { name := "This" } },
    { name := "token", type := ⟨"T", ["lexer"], .wrapped, placeholder_ne_empty⟩ },
    { name := "stamp", type := { name := "Stamp" } }]

/-- The signature was instantiated before at a type that nothing knows. -/
def scannerHistory : History := [.pushed scannerSignature, .expanded (Log.replacingT "Unknown")]

/-- The same events as actions on a workspace, with the instantiation at the cloud behind them. -/
def scannerRun : List Action :=
  [.createSet "s", .push "s" scannerSignature, .expand "s" (Log.replacingT "Unknown"),
    .expand "s" cloudInScanner]

/-- The types that are put in and those that are left alone are all that has to be known. -/
theorem scannerHistory_verified :
    let spared := ["lexer::T", "Stamp"]
    let known := ["Cloud", "Scanner"] ++ spared
    let instantiated := replay (scannerHistory ++ [.expanded cloudInScanner])
    instantiated.verify known "scan" = .ok () ∧
    instantiated.verify ("Cloud" :: spared) "scan" ≠ .ok () ∧
    (replay [.pushed scannerSignature, .expanded cloudInScanner]).verify known "scan" = .ok () ∧
    instantiated.verify (["T", "This"] ++ known) "scan" = .ok () ∧
    ∃ e, (Workspace.run scannerRun).find? "s" = some e ∧
      e.overloads.verify known "scan" = .ok () := by
  intro spared known instantiated
  obtain ⟨hiff, hother, -, hentries⟩ :=
    verify_instantiated_iff scannerHistory cloudInScanner known
  have hverified : instantiated.verify known "scan" = .ok () :=
    (hiff "scan").mpr ⟨by decide, fun _ => by decide, fun c hc _ _ => by
      obtain rfl := Option.some.inj hc
      decide⟩
  obtain ⟨hfewer, -, -, -⟩ :=
    verify_instantiated_iff scannerHistory cloudInScanner ("Cloud" :: spared)
  have hmissing : ¬cloudInScanner.KnownIn ("Cloud" :: spared)
      (scannerHistory.pushes.flatMap Signature.types) := by
    intro h
    exact absurd (h.thisClass scannerClass rfl (by decide) (by decide)) (by decide)
  refine ⟨hverified, (hfewer "scan").not.mpr hmissing, ?_, ?_, ?_⟩
  · rw [← hverified]
    exact hother [.pushed scannerSignature] rfl "scan"
  · obtain ⟨-, -, hdeclared, -⟩ :=
      verify_instantiated_iff scannerHistory cloudInScanner (["T", "This"] ++ known)
    refine hdeclared "scan" (by decide) (by decide) fun c hc => ?_
    obtain rfl := Option.some.inj hc
    decide
  · obtain ⟨e, he⟩ : ∃ e, (Workspace.run scannerRun).find? "s" = some e := ⟨_, rfl⟩
    refine ⟨e, he, ?_⟩
    rw [hentries scannerRun "s" e (by decide) he]
    exact hverified

end History

end OverloadDispatch
