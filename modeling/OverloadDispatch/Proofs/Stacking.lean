import OverloadDispatch.Proofs.Instantiation

/-!
# Substitutions one on top of the other

A substitution leaves a type alone or replaces it by its target or by its class. What it put in is
safe from a further substitution that keeps both. A substitution that keeps what it puts in itself
does nothing when it is repeated, and two substitutions that replace different names, and each keep
what the other one puts in, can be done in either order. Without these conditions there are
signatures for which it is not so.
-/

namespace OverloadDispatch

namespace Substitution

variable {s t : Substitution} {type : QualifiedType}

/-- Whether a substitution keeps the types that another one puts in. -/
structure Keeps (t s : Substitution) : Prop where
  /-- The target is kept. -/
  target : t.apply s.target = s.target
  /-- The class is kept, if one is given. -/
  thisClass : ∀ c ∈ s.thisClass, t.apply c = c

/-- Whether two substitutions replace different names, and only the first one instantiates a
class. -/
structure Apart (s t : Substitution) : Prop where
  /-- The placeholders differ. -/
  placeholder_ne : s.placeholder ≠ t.placeholder
  /-- The first placeholder is not `This`. -/
  left_ne_this : s.placeholder ≠ thisName
  /-- The second placeholder is not `This`. -/
  right_ne_this : t.placeholder ≠ thisName
  /-- The second substitution gives no class. -/
  classless : t.thisClass = none

/-- What a substitution puts in stays under another one that keeps it. -/
theorem Keeps.apply_apply (h : t.Keeps s) (hreplaced : ¬s.Spares type) :
    t.apply (s.apply type) = s.apply type := by
  obtain ⟨hnamespaces, hname | ⟨hplaceholder, hname, hsome⟩⟩ := not_spares_iff.mp hreplaced
  · rw [apply_of_placeholder hnamespaces hname]
    exact h.target
  · obtain ⟨c, hclass⟩ := Option.isSome_iff_exists.mp hsome
    rw [apply_of_thisName hnamespaces hname hplaceholder hclass]
    exact h.thisClass c hclass

/-- To keep what a substitution puts in is to keep it wherever a type was replaced: the placeholder
and `This` show the target and the class. -/
theorem keeps_iff_forall_replaced (hname : s.placeholder ≠ "") (hthis : s.placeholder ≠ thisName) :
    t.Keeps s ↔ ∀ type, ¬s.Spares type → t.apply (s.apply type) = s.apply type := by
  constructor
  · exact fun h type hreplaced => h.apply_apply hreplaced
  · intro h
    constructor
    · let placeholder : QualifiedType := ⟨s.placeholder, [], .wrapped, hname⟩
      have hreplaced : ¬s.Spares placeholder := not_spares_iff.mpr ⟨rfl, .inl rfl⟩
      have htarget : s.apply placeholder = s.target := apply_of_placeholder rfl rfl
      exact htarget ▸ h placeholder hreplaced
    · intro c hc
      let classPlaceholder : QualifiedType := { name := thisName }
      have hreplaced : ¬s.Spares classPlaceholder :=
        not_spares_iff.mpr ⟨rfl, .inr ⟨hthis, rfl, Option.isSome_of_mem hc⟩⟩
      have hclass : s.apply classPlaceholder = c := apply_of_thisName rfl rfl hthis hc
      exact hclass ▸ h classPlaceholder hreplaced

/-- Without a class there is only a target to be kept. -/
theorem keeps_of_classless (hclass : s.thisClass = none) (htarget : t.apply s.target = s.target) :
    t.Keeps s where
  target := htarget
  thisClass c hc := by
    rw [hclass] at hc
    cases hc

/-- A type that the first of two such substitutions replaces is left alone by the second one. -/
theorem Apart.spares (h : s.Apart t) (hreplaced : ¬s.Spares type) : t.Spares type := by
  refine .inr ⟨?_, fun hsome => ?_⟩
  · obtain ⟨-, hname | ⟨-, hname, -⟩⟩ := not_spares_iff.mp hreplaced
    · rw [hname]
      exact h.placeholder_ne
    · rw [hname]
      exact h.right_ne_this.symm
  · rw [h.classless] at hsome
    cases hsome

/-- A substitution that keeps what it puts in does nothing when it is repeated. -/
theorem apply_apply_self (h : s.Keeps s) (type : QualifiedType) :
    s.apply (s.apply type) = s.apply type := by
  by_cases hspared : s.Spares type
  · rw [apply_of_spares hspared, apply_of_spares hspared]
  · exact h.apply_apply hspared

/-- Substitutions that replace different names, and keep what the other one puts in, can be done in
either order. -/
theorem apply_comm (hapart : s.Apart t) (hts : t.Keeps s) (hst : s.Keeps t)
    (type : QualifiedType) : t.apply (s.apply type) = s.apply (t.apply type) := by
  by_cases hs : s.Spares type
  · by_cases ht : t.Spares type
    · rw [apply_of_spares hs, apply_of_spares ht, apply_of_spares hs]
    · rw [apply_of_spares hs, hst.apply_apply ht]
  · rw [apply_of_spares (hapart.spares hs), hts.apply_apply hs]

end Substitution

namespace Signature

variable {s t : Substitution}

theorem SameShape.trans {a b c : Signature} (hab : a.SameShape b) (hbc : b.SameShape c) :
    a.SameShape c :=
  ⟨hab.arity.trans hbc.arity, hab.names.trans hbc.names, hab.marks.trans hbc.marks⟩

/-- Two substitutions act on each parameter one after the other. -/
theorem expand_expand (s t : Substitution) (l : Signature) :
    (l.expand s).expand t = l.map fun p => { p with type := t.apply (s.apply p.type) } := by
  rw [expand, expand, List.map_map]
  rfl

/-- Instantiating twice is instantiating once if the substitution keeps what it puts in. -/
theorem expand_expand_self (h : s.Keeps s) (l : Signature) : (l.expand s).expand s = l.expand s := by
  rw [expand_expand]
  apply List.map_congr_left
  intro p _
  rw [Substitution.apply_apply_self h]
  rfl

/-- Substitutions that replace different names, and keep what the other one puts in, instantiate in
either order. -/
theorem expand_comm (hapart : s.Apart t) (hts : t.Keeps s) (hst : s.Keeps t) (l : Signature) :
    (l.expand s).expand t = (l.expand t).expand s := by
  rw [expand_expand, expand_expand]
  apply List.map_congr_left
  intro p _
  rw [Substitution.apply_comm hapart hts hst]

/-! ## The conditions are needed -/

/-- The signature of one parameter of a given type. -/
def ofType (type : QualifiedType) : Signature := [{ name := "", type := type }]

theorem expand_ofType (s : Substitution) (type : QualifiedType) :
    (ofType type).expand s = ofType (s.apply type) := rfl

theorem ofType_inj {type other : QualifiedType} : ofType type = ofType other ↔ type = other := by
  simp [ofType]

/-- Instantiating twice is always instantiating once only under a substitution that keeps what it
puts in. -/
theorem expand_expand_self_iff (hname : s.placeholder ≠ "") (hthis : s.placeholder ≠ thisName) :
    (∀ l : Signature, (l.expand s).expand s = l.expand s) ↔ s.Keeps s := by
  constructor
  · intro h
    rw [Substitution.keeps_iff_forall_replaced hname hthis]
    intro type _
    have htwice := h (ofType type)
    rwa [expand_ofType, expand_ofType, ofType_inj] at htwice
  · exact fun h => expand_expand_self h

/-- Substitutions that replace different names always instantiate in either order only if each of
them keeps what the other one puts in. -/
theorem expand_comm_iff (hapart : s.Apart t) (hs : s.placeholder ≠ "") (ht : t.placeholder ≠ "") :
    (∀ l : Signature, (l.expand s).expand t = (l.expand t).expand s) ↔ t.Keeps s ∧ s.Keeps t := by
  constructor
  · intro h
    have happly (type : QualifiedType) : t.apply (s.apply type) = s.apply (t.apply type) := by
      have hcomm := h (ofType type)
      rwa [expand_ofType, expand_ofType, expand_ofType, expand_ofType, ofType_inj] at hcomm
    rw [Substitution.keeps_iff_forall_replaced hs hapart.left_ne_this,
      Substitution.keeps_iff_forall_replaced ht hapart.right_ne_this]
    constructor
    · intro type hreplaced
      rw [happly, Substitution.apply_of_spares (hapart.spares hreplaced)]
    · intro type hreplaced
      have hspared : s.Spares type := by
        by_contra hboth
        exact hreplaced (hapart.spares hboth)
      rw [← happly, Substitution.apply_of_spares hspared]
  · rintro ⟨hts, hst⟩
    exact expand_comm hapart hts hst

/-- Where the first placeholder becomes the second one, the order makes a difference. -/
example :
    let s : Substitution := { placeholder := "T", target := { name := "Stamp" } }
    let t : Substitution := { placeholder := "Stamp", target := { name := "Clock" } }
    let l := ofType { name := "T" }
    (l.expand s).expand t ≠ (l.expand t).expand s := by
  decide

/-! ## Stacked instantiations -/

/-- Instantiating twice is instantiating once under a substitution that keeps its own target and
class. Substitutions for different placeholders commute if they keep what the other one puts in. -/
theorem stacked_expansions_safe (s t : Substitution) :
    (s.Keeps s → ∀ l : Signature, (l.expand s).expand s = l.expand s) ∧
    (s.Apart t → t.Keeps s → s.apply t.target = t.target → ∀ l : Signature,
      (l.expand s).expand t = (l.expand t).expand s) ∧
    ∀ l : Signature, ((l.expand s).expand t).SameShape l := by
  refine ⟨fun hkeeps => expand_expand_self hkeeps, fun hapart hts htarget => ?_, fun l => ?_⟩
  · exact expand_comm hapart hts (Substitution.keeps_of_classless hapart.classless htarget)
  · exact (sameShape_expand t (l.expand s)).trans (sameShape_expand s l)

/-- The placeholder `Stamp` becomes a clock. -/
def clockForStamp : Substitution where
  placeholder := "Stamp"
  target := { name := "Clock" }

/-- A class is instantiated before or behind the placeholder of a method, and once or twice. -/
theorem scannerSignature_stacked :
    let scanner := History.scannerSignature.expand History.cloudInScanner
    scanner.expand History.cloudInScanner = scanner ∧
    scanner.expand clockForStamp =
      (History.scannerSignature.expand clockForStamp).expand History.cloudInScanner ∧
    (scanner.expand clockForStamp).types.map QualifiedType.qualified =
      ["Cloud", "Scanner", "lexer::T", "Clock"] := by
  intro scanner
  have hkeeps {t : Substitution} (htarget : t.apply { name := "Cloud" } = { name := "Cloud" })
      (hclass : t.apply History.scannerClass = History.scannerClass) :
      t.Keeps History.cloudInScanner := by
    refine ⟨htarget, fun c hc => ?_⟩
    obtain rfl := Option.some.inj hc
    exact hclass
  have hapart : History.cloudInScanner.Apart clockForStamp :=
    ⟨by decide, by decide, by decide, rfl⟩
  obtain ⟨htwice, hcomm, -⟩ := stacked_expansions_safe History.cloudInScanner clockForStamp
  refine ⟨?_, ?_, by decide⟩
  · exact htwice (hkeeps (by decide) (by decide)) History.scannerSignature
  · exact hcomm hapart (hkeeps (by decide) (by decide)) (by decide) History.scannerSignature

end Signature

end OverloadDispatch
