import OverloadDispatch.Proofs.Assembly

/-!
# Guards at a deeper level

A level is passed on to the parts of a node and is otherwise only written out, as so many units in
front of a line. So what is written at a deeper level is what is written at the first one with the
further units in front of every line. There is one exception, since not every level can be written:
a level is looked at before the node that stands there, and a deeper one may be refused where the
first is not.
-/

namespace OverloadDispatch

/-! ## Computations that end alike unless one is refused -/

/-- Two computations end alike, unless the second one ends with a fault of some kind. -/
def EndAlikeUnless {ε α β : Type} (P : ε → Prop) (R : α → β → Prop) (x : Except ε α)
    (y : Except ε β) : Prop :=
  (∃ fault, P fault ∧ y = .error fault) ∨ EndAlike R x y

namespace EndAlikeUnless

variable {ε α β α' β' : Type} {P Q : ε → Prop} {R : α → β → Prop} {S : α' → β' → Prop}
  {x : Except ε α} {y : Except ε β}

/-- Results that are related are ends that are alike. -/
theorem result {a : α} {b : β} (h : R a b) : EndAlikeUnless P R (.ok a) (.ok b) :=
  .inr (.result h)

/-- In two steps a fault of the kind may come from either. -/
theorem bind {f : α → Except ε α'} {g : β → Except ε β'} (h : EndAlikeUnless P R x y)
    (hnext : ∀ a b, R a b → EndAlikeUnless P S (f a) (g b)) :
    EndAlikeUnless P S (x >>= f) (y >>= g) := by
  rcases h with ⟨fault, hfault, rfl⟩ | h
  · exact .inl ⟨fault, hfault, rfl⟩
  · cases h with
    | fault fault => exact .inr (.fault fault)
    | result hab => exact hnext _ _ hab

/-- A fault may be of a wider kind. -/
theorem weaken (h : EndAlikeUnless P R x y) (hP : ∀ fault, P fault → Q fault) :
    EndAlikeUnless Q R x y := by
  rcases h with ⟨fault, hfault, hy⟩ | h
  · exact .inl ⟨fault, hP fault hfault, hy⟩
  · exact .inr h

/-- Where no fault is of the kind, both end alike. -/
theorem endAlike (h : EndAlikeUnless P R x y) (hP : ∀ fault, ¬P fault) : EndAlike R x y := by
  rcases h with ⟨fault, hfault, -⟩ | h
  · exact absurd hfault (hP fault)
  · exact h

end EndAlikeUnless

/-! ## Lines with further units in front -/

namespace Line

variable {unit : String} {k : Nat} {level : Int}

/-- Copies of the unit are written one after the other. -/
theorem indent_add (unit : String) (m n : Nat) :
    indent unit (m + n) = indent unit m ++ indent unit n := by
  rw [indent_eq_join, indent_eq_join, indent_eq_join, ← List.replicate_append_replicate,
    String.join_append]

/-- At a deeper level a line has the further units in front. -/
theorem text_deeper (h : 0 ≤ level) (nested : Nat) (statement : Statement) :
    text unit ⟨level + k, nested, statement⟩ =
      indent unit k ++ text unit ⟨level, nested, statement⟩ := by
  have hdepth : depth ⟨level + k, nested, statement⟩ = k + depth ⟨level, nested, statement⟩ := by
    simp only [depth]
    omega
  rw [text, text, hdepth, indent_add, String.append_assoc]

/-- Whether lines are others with so many further units in front of each. -/
def Translated (unit : String) (k : Nat) (lines deeper : List Line) : Prop :=
  deeper.map (text unit) = lines.map fun line => indent unit k ++ line.text unit

/-- Lines are translated part by part. -/
theorem Translated.append {front front' back back' : List Line}
    (hfront : Translated unit k front front') (hback : Translated unit k back back') :
    Translated unit k (front ++ back) (front' ++ back') := by
  simp only [Translated, List.map_append] at *
  rw [hfront, hback]

/-- The lines of a block are translated when its level is. -/
theorem translated_block (h : 0 ≤ level) (block : List (Nat × Statement)) :
    Translated unit k (block.map fun (nested, statement) => ⟨level, nested, statement⟩)
      (block.map fun (nested, statement) => ⟨level + k, nested, statement⟩) := by
  simp only [Translated, List.map_map]
  exact List.map_congr_left fun placed _ => text_deeper h placed.1 placed.2

end Line

/-! ## How deep the parts of a node stand -/

namespace Node

mutual

/-- The number of levels by which the deepest part of a node stands below it. -/
def height : Node → Nat
  | noMatch _ => 0
  | raise _ _ => 0
  | ambiguityCheck _ onHit => height onHit + 1
  | arityCheck _ onMismatch => height onMismatch + 1
  | bindParams _ => 0
  | coerce _ _ => 0
  | coerceAll coercions onFailure => max (heights coercions) (height onFailure) + 1
  | invoke _ _ _ _ => 0
  | placeholder => 0
  | fragment _ => 0

/-- The number of levels by which the deepest part of several nodes stands below them. -/
def heights : List Node → Nat
  | [] => 0
  | node :: rest => max (height node) (heights rest)

end

end Node

/-- The number of levels by which the deepest step of a resolver stands below it. -/
def Resolver.height (resolver : Resolver) : Nat :=
  max (Node.heights resolver.guard) resolver.invoke.height + 1

/-- The number of levels by which the deepest step of several resolvers stands below them. -/
def Resolver.heights : List Resolver → Nat
  | [] => 0
  | resolver :: rest => max resolver.height (heights rest)

/-- The number of levels by which the deepest line of an entry point stands below it; the loop over
the resolvers has a body. -/
def Dispatcher.height (d : Dispatcher) : Nat :=
  max 1 (max (Node.heights d.ambiguity) (Resolver.heights d.resolvers)) + 1

/-! ## Writing at a deeper level -/

/-- Where a level can be written, so can those between it and the top. -/
theorem Line.requireLevel_of_le {capacity : Option Nat} {unit : String} {level deeper : Int}
    (hlevel : 0 ≤ level) (hle : level ≤ deeper) (h : requireLevel capacity unit deeper = .ok ()) :
    requireLevel capacity unit level = .ok () := by
  obtain ⟨⟨-, hgreatest⟩, hcopies⟩ := requireLevel_eq_ok_iff.mp h
  have hleast : Word.least ≤ 0 := by decide
  have hfewer : unit.length * level ≤ unit.length * deeper :=
    Int.mul_le_mul_of_nonneg_left hle (Int.natCast_nonneg _)
  refine requireLevel_eq_ok_iff.mpr ⟨⟨by omega, by omega⟩, ?_⟩
  refine hcopies.imp (by omega) fun ⟨hword, hmemory⟩ => ⟨by omega, fun most hmost => ?_⟩
  exact Int.le_trans hfewer (hmemory most hmost)

namespace Renderer

variable {r : Renderer} {k height bound : Nat} {level : Int}

/-- The faults of a level and of those below it that cannot be written. -/
def TooDeep (r : Renderer) (level : Int) (height : Nat) (fault : Fault) : Prop :=
  ∃ depth : Nat, depth ≤ height ∧ r.requireLevel (level + depth) = .error fault

/-- If the deepest level can be written, so can those above it. -/
theorem not_tooDeep (hlevel : 0 ≤ level) (h : r.requireLevel (level + height) = .ok ())
    (fault : Fault) : ¬r.TooDeep level height fault := by
  rintro ⟨depth, hdepth, hfault⟩
  have hok : r.requireLevel (level + depth) = .ok () :=
    Line.requireLevel_of_le (by omega) (by omega) h
  cases hok.symm.trans hfault

/-- Whether what is written at a level is translated with it, unless a deeper level is refused. -/
def Translates (r : Renderer) (k : Nat) (level : Int) (height : Nat)
    (write : Int → Except Fault (List Line)) : Prop :=
  EndAlikeUnless (r.TooDeep (level + k) height) (Line.Translated r.unit k) (write level)
    (write (level + k))

/-- What is translated at the next level is so below the one in front of it. -/
theorem Translates.below {write : Int → Except Fault (List Line)}
    (h : r.Translates k (level + 1) height write) (hbound : height < bound) :
    r.Translates k level bound fun level => write (level + 1) := by
  have hlevel : level + 1 + k = level + k + 1 := Int.add_right_comm _ _ _
  unfold Translates at h
  rw [hlevel] at h
  refine h.weaken fun fault hdeep => ?_
  obtain ⟨depth, hdepth, hfault⟩ := hdeep
  refine ⟨depth + 1, by omega, ?_⟩
  rw [← hfault]
  congr 1
  omega

/-- What is translated is so with a wider bound on the levels that may be refused. -/
theorem Translates.mono {write : Int → Except Fault (List Line)}
    (h : r.Translates k level height write) (hbound : height ≤ bound) :
    r.Translates k level bound write :=
  EndAlikeUnless.weaken h fun _ hdeep =>
    hdeep.imp fun _ hdepth => ⟨Nat.le_trans hdepth.1 hbound, hdepth.2⟩

/-- A level is refused only where the deeper one is. -/
theorem endAlike_requireLevel_below {depth : Nat} (h : 0 ≤ level) (hdepth : depth ≤ height) :
    EndAlikeUnless (r.TooDeep (level + k) height) (fun _ _ => True)
      (r.requireLevel (level + depth)) (r.requireLevel (level + k + depth)) := by
  cases hdeep : r.requireLevel (level + k + depth) with
  | error fault => exact .inl ⟨fault, ⟨depth, hdepth, hdeep⟩, rfl⟩
  | ok _ =>
    have hok : r.requireLevel (level + depth) = .ok () :=
      Line.requireLevel_of_le (by omega) (by omega) hdeep
    rw [hok]
    exact .result trivial

/-- The first level is refused only where the deeper one is. -/
theorem endAlike_requireLevel (h : 0 ≤ level) (height : Nat) :
    EndAlikeUnless (r.TooDeep (level + k) height) (fun _ _ => True) (r.requireLevel level)
      (r.requireLevel (level + k)) := by
  simpa using endAlike_requireLevel_below (r := r) (k := k) h (Nat.zero_le height)

/-- The dialect has nothing to do with the level. -/
theorem endAlike_requireDialect {P : Fault → Prop} :
    EndAlikeUnless P Eq r.requireDialect r.requireDialect :=
  .inr (.refl (fun _ => rfl) _)

/-- A coercion is translated with its level: the depth of its nested line is counted from there. -/
theorem translates_coercionLines (h : 0 ≤ level) (name : String) (t : QualifiedType) :
    EndAlike (Line.Translated r.unit k) (r.coercionLines level name t)
      (r.coercionLines (level + k) name t) := by
  unfold coercionLines
  split
  · refine (EndAlike.refl (fun _ => rfl) r.requireDialect).bind fun d _ hd => ?_
    subst hd
    refine .result ?_
    cases d with
    | compiled => exact Line.translated_block h [(0, _)]
    | interpreted => exact Line.translated_block h [(0, _), (0, _), (1, _)]
  · refine (EndAlike.refl (fun _ => rfl) (r.checks.check t)).bind fun check _ hcheck => ?_
    refine (EndAlike.refl (fun _ => rfl) r.requireDialect).bind fun d _ hd => ?_
    subst hcheck hd
    refine .result (.append (Line.translated_block h [(0, _), (0, _), (1, _)]) ?_)
    cases d.conversion? name t check with
    | none => exact rfl
    | some statement => exact Line.translated_block h [(0, statement)]

/-- The report of a match is translated with its level. -/
theorem translated_invokeLines (h : 0 ≤ level) (index : Int) (names : List String) (isVoid : Bool)
    (callee : String) :
    Line.Translated r.unit k (invokeLines level index names isVoid callee)
      (invokeLines (level + k) index names isVoid callee) := by
  cases isVoid with
  | true => exact Line.translated_block h [(0, _), (0, _)]
  | false => exact Line.translated_block h [(0, _)]

mutual

/-- A node is translated with its level, and its parts with theirs. -/
theorem translates_nodeLines {level : Int} (h : 0 ≤ level) (node : Node) :
    r.Translates k level node.height (r.nodeLines · node) := by
  have hnext : 0 ≤ level + 1 := by omega
  unfold Translates nodeLines
  refine (endAlike_requireLevel h node.height).bind fun _ _ _ => ?_
  -- Both levels can be written. The parts stand one level below either, so they are translated with
  -- these, and the levels that may be refused there are among those of the whole node.
  cases node with
  | noMatch isVoid => exact .result (Line.translated_block h [(0, _)])
  | raise exception message => exact .result (Line.translated_block h [(0, _)])
  | ambiguityCheck arities onHit =>
    refine endAlike_requireDialect.bind fun d _ hd => ?_
    subst hd
    have honHit := (translates_nodeLines hnext onHit).below (Nat.lt_succ_self _)
    refine honHit.bind fun body body' hbody => ?_
    exact .result (.append (Line.translated_block h [(0, _)]) hbody)
  | arityCheck arity onMismatch =>
    refine endAlike_requireDialect.bind fun d _ hd => ?_
    subst hd
    have honMismatch := (translates_nodeLines hnext onMismatch).below (Nat.lt_succ_self _)
    refine honMismatch.bind fun body body' hbody => ?_
    exact .result (.append (Line.translated_block h [(0, _)]) hbody)
  | bindParams names => exact .result (Line.translated_block h [(0, _), (0, _), (0, _)])
  | coerce name type => exact .inr (translates_coercionLines h name type)
  | coerceAll coercions onFailure =>
    have hcoercions := (translates_guardLines hnext coercions).below
      (Nat.lt_succ_of_le (Nat.le_max_left _ (Node.height onFailure)))
    have honFailure := (translates_nodeLines hnext onFailure).below
      (Nat.lt_succ_of_le (Nat.le_max_right (Node.heights coercions) _))
    refine hcoercions.bind fun body body' hbody => ?_
    refine honFailure.bind fun answer answer' hanswer => ?_
    have htry : Line.Translated r.unit k [⟨level, 0, .openTry⟩] [⟨level + k, 0, .openTry⟩] :=
      Line.translated_block h [(0, _)]
    have hexcept : Line.Translated r.unit k [⟨level, 0, .openExcept⟩]
        [⟨level + k, 0, .openExcept⟩] := Line.translated_block h [(0, _)]
    exact .result ((htry.append hbody).append (hexcept.append hanswer))
  | invoke index names isVoid callee =>
    exact .result (translated_invokeLines h index names isVoid callee)
  | placeholder => exact .inr (.fault _)
  | fragment nodes => exact .inr (.fault _)

/-- A sequence of nodes is translated with its level. -/
theorem translates_guardLines {level : Int} (h : 0 ≤ level) (nodes : List Node) :
    r.Translates k level (Node.heights nodes) (r.guardLines · nodes) := by
  unfold Translates guardLines
  cases nodes with
  | nil => exact .result rfl
  | cons node rest =>
    have hnode := (translates_nodeLines h node).mono (Nat.le_max_left _ (Node.heights rest))
    have hrest := (translates_guardLines h rest).mono (Nat.le_max_right node.height _)
    refine hnode.bind fun first first' hfirst => ?_
    refine hrest.bind fun others others' hothers => ?_
    exact .result (hfirst.append hothers)

end

/-- A resolver is translated with its level. -/
theorem translates_resolverLines (h : 0 ≤ level) (resolver : Resolver) :
    r.Translates k level resolver.height (r.resolverLines · resolver) := by
  have hnext : 0 ≤ level + 1 := by omega
  have hguard := (translates_guardLines (r := r) (k := k) hnext resolver.guard).below
    (Nat.lt_succ_of_le (Nat.le_max_left _ resolver.invoke.height))
  have hreport := (translates_nodeLines (r := r) (k := k) hnext resolver.invoke).below
    (Nat.lt_succ_of_le (Nat.le_max_right (Node.heights resolver.guard) _))
  refine hguard.bind fun guard guard' hlines => ?_
  refine hreport.bind fun report report' hreported => ?_
  have hdefine : Line.Translated r.unit k [⟨level, 0, .defineResolver resolver.name⟩]
      [⟨level + k, 0, .defineResolver resolver.name⟩] := Line.translated_block h [(0, _)]
  exact .result ((hdefine.append hlines).append hreported)

/-- Several resolvers are translated with their level. -/
theorem translates_resolversLines (h : 0 ≤ level) (resolvers : List Resolver) :
    r.Translates k level (Resolver.heights resolvers) (r.resolversLines · resolvers) := by
  induction resolvers with
  | nil => exact .result rfl
  | cons resolver rest ih =>
    have hfirst := (translates_resolverLines (r := r) (k := k) h resolver).mono
      (Nat.le_max_left _ (Resolver.heights rest))
    have hrest := ih.mono (Nat.le_max_right resolver.height _)
    refine hfirst.bind fun first first' hlines => ?_
    refine hrest.bind fun others others' hothers => ?_
    exact .result (hlines.append hothers)

/-- The loop over the resolvers is translated with its level. -/
theorem translated_loopLines (r : Renderer) (h : 0 ≤ level) (isVoid : Bool)
    (names : List String) :
    Line.Translated r.unit k (loopLines level isVoid names)
      (loopLines (level + k) isVoid names) := by
  have hnext : 0 ≤ level + 1 := by omega
  have hopen : Line.Translated r.unit k [⟨level, 0, .openLoop names⟩]
      [⟨level + k, 0, .openLoop names⟩] := Line.translated_block h [(0, _)]
  have hdeeper : level + k + 1 = level + 1 + k := Int.add_right_comm _ _ _
  simp only [loopLines, hdeeper]
  cases isVoid with
  | true => exact hopen.append (Line.translated_block hnext [(0, _), (1, _)])
  | false => exact hopen.append (Line.translated_block hnext [(0, _), (0, _), (1, _)])

/-- An entry point is translated with its level. -/
theorem translates_dispatcherLines (h : 0 ≤ level) (d : Dispatcher) :
    r.Translates k level d.height (r.dispatcherLines · d) := by
  have hnext : 0 ≤ level + 1 := by omega
  have hbound : 2 ≤ d.height ∧ Node.heights d.ambiguity < d.height ∧
      Resolver.heights d.resolvers < d.height := by
    unfold Dispatcher.height
    omega
  obtain ⟨hbody, hguards, hheights⟩ := hbound
  have hambiguity := (translates_guardLines (r := r) (k := k) hnext d.ambiguity).below hguards
  have hresolvers := (translates_resolversLines (r := r) (k := k) hnext d.resolvers).below hheights
  refine (endAlike_requireLevel h d.height).bind fun _ _ _ => ?_
  refine (endAlike_requireLevel_below h (Nat.le_of_succ_le hbody)).bind fun _ _ _ => ?_
  refine hambiguity.bind fun ambiguity ambiguity' hlines => ?_
  refine hresolvers.bind fun resolvers resolvers' hresolved => ?_
  refine (endAlike_requireLevel_below h hbody).bind fun _ _ _ => ?_
  have hdefine : Line.Translated r.unit k [⟨level, 0, .defineEntry d.name⟩]
      [⟨level + k, 0, .defineEntry d.name⟩] := Line.translated_block h [(0, _)]
  have hloop := r.translated_loopLines (k := k) hnext d.isVoid (d.resolvers.map Resolver.name)
  have hlast : Line.Translated r.unit k [⟨level + 1, 0, .raiseNoOverload d.name⟩]
      [⟨level + 1 + k, 0, .raiseNoOverload d.name⟩] := Line.translated_block hnext [(0, _)]
  rw [Int.add_right_comm level 1] at hloop hlast
  exact .result ((((hdefine.append hlines).append hresolved).append hloop).append hlast)

/-- What is written so many levels deeper has the same fault, or the same lines with so many further
units in front of each, unless the fault is that of a deeper level that cannot be written. -/
theorem lines_translated_with_level (r : Renderer) (level k : Nat) :
    (∀ g : Guard, r.Translates k level (Node.heights g) (r.guardLines · g)) ∧
    (∀ d : Dispatcher, r.Translates k level d.height (r.dispatcherLines · d)) ∧
    ∀ height : Nat, r.requireLevel (level + k + height) = .ok () →
      ∀ fault, ¬r.TooDeep (level + k) height fault :=
  ⟨fun g => translates_guardLines (Int.natCast_nonneg level) g,
    fun d => translates_dispatcherLines (Int.natCast_nonneg level) d,
    fun _ h => not_tooDeep (by omega) h⟩

/-- A guard whose parts stand where no guard has them. -/
def crossedGuard : Guard :=
  [.arityCheck 1 (.coerceAll [.bindParams ["x"], .raise "ValueError" "x"]
    (.ambiguityCheck [2] (.noMatch true)))]

/-- Three levels deeper, three tabs stand in front of each line. -/
theorem crossedGuard_translated :
    ∃ lines deeper, (extensionModule none).guardLines 0 crossedGuard = .ok lines ∧
      (extensionModule none).guardLines 3 crossedGuard = .ok deeper ∧ lines.length = 9 ∧
      deeper.map (Line.text "\t") = lines.map fun line => "\t\t\t" ++ line.text "\t" := by
  obtain ⟨hguards, -, hwritten⟩ := lines_translated_with_level (extensionModule none) 0 3
  have hlevels := hwritten (Node.heights crossedGuard) rfl
  have halike : EndAlike (Line.Translated "\t" 3)
      ((extensionModule none).guardLines 0 crossedGuard)
      ((extensionModule none).guardLines 3 crossedGuard) :=
    (hguards crossedGuard).endAlike hlevels
  exact ⟨_, _, rfl, rfl, rfl, halike.related rfl rfl⟩

/-- Without indentation a guard is written at the top, and yet not at a level that no word holds. -/
theorem unindented_refused_deeper :
    unindented.guardLines (0 : Nat) [.noMatch true] = .ok [⟨0, 0, .returnNoMatch true⟩] ∧
    unindented.guardLines ((0 : Nat) + (9223372036854775808 : Nat)) [.noMatch true] =
      .error .levelTooWide ∧
    ¬ ∀ (r : Renderer) (level k : Nat) (g : Guard),
      EndAlike (Line.Translated r.unit k) (r.guardLines level g) (r.guardLines (level + k) g) := by
  have htop : unindented.guardLines (0 : Nat) [.noMatch true] =
      .ok [⟨0, 0, .returnNoMatch true⟩] := rfl
  have hdeep : unindented.guardLines ((0 : Nat) + (9223372036854775808 : Nat)) [.noMatch true] =
      .error .levelTooWide := rfl
  refine ⟨htop, hdeep, fun h => ?_⟩
  have halike := h unindented 0 9223372036854775808 [.noMatch true]
  rw [htop, hdeep] at halike
  cases halike

end Renderer

end OverloadDispatch
