import OverloadDispatch.Host.Renderer

/-!
# Comparing renderers

Two renderers correspond if they write the conditions and the coercions of a guard alike. Then they
write whole guards alike, whatever the nodes are and wherever they stand: they meet the same fault,
or their lines are related.
-/

namespace OverloadDispatch.Renderer

/-- What two renderers have to agree on, for lines in a relation and types of some kind. -/
structure Corresponds (r s : Renderer) (Admits : QualifiedType → Prop)
    (R : List Line → List Line → Prop) : Prop where
  /-- Lines that both write are related to themselves. -/
  refl : ∀ lines, R lines lines
  /-- Lines are related part by part. -/
  append : ∀ {front front' back back'}, R front front' → R back back' →
    R (front ++ back) (front' ++ back')
  /-- The units are the same. -/
  unit : r.unit = s.unit
  /-- So is the memory for them, and with both the levels that can be written. -/
  capacity : r.capacity = s.capacity
  /-- Both have a dialect or none has, and the conditions are related. -/
  conditions : EndAlike (fun d e => ∀ level,
    (∀ arities, R [⟨level, 0, .ifAmbiguous d.spaced arities⟩]
      [⟨level, 0, .ifAmbiguous e.spaced arities⟩]) ∧
    ∀ arity, R [⟨level, 0, .ifArity d.spaced arity⟩] [⟨level, 0, .ifArity e.spaced arity⟩])
    r.requireDialect s.requireDialect
  /-- The coercions to types of the kind are related. -/
  coercions : ∀ level name t, Admits t →
    EndAlike R (r.coercionLines level name t) (s.coercionLines level name t)

namespace Corresponds

variable {r s : Renderer} {Admits : QualifiedType → Prop} {R : List Line → List Line → Prop}

/-- A level can be written by both or by none. -/
theorem requireLevel (h : Corresponds r s Admits R) (level : Int) :
    EndAlike Eq (r.requireLevel level) (s.requireLevel level) := by
  rw [Renderer.requireLevel, Renderer.requireLevel, h.unit, h.capacity]
  exact .refl (fun _ => rfl) _

mutual

/-- Renderers that correspond write a node alike. -/
theorem nodeLines (h : Corresponds r s Admits R) (level : Int) (node : Node)
    (hnode : ∀ t ∈ node.types, Admits t) :
    EndAlike R (r.nodeLines level node) (s.nodeLines level node) := by
  unfold Renderer.nodeLines
  refine (h.requireLevel level).bind fun _ _ _ => ?_
  cases node with
  | noMatch isVoid => exact .result (h.refl _)
  | raise exception message => exact .result (h.refl _)
  | ambiguityCheck arities onHit =>
    refine h.conditions.bind fun d e hconditions => ?_
    refine (nodeLines h (level + 1) onHit hnode).bind fun body body' hbody => ?_
    exact .result (h.append ((hconditions level).1 arities) hbody)
  | arityCheck arity onMismatch =>
    refine h.conditions.bind fun d e hconditions => ?_
    refine (nodeLines h (level + 1) onMismatch hnode).bind fun body body' hbody => ?_
    exact .result (h.append ((hconditions level).2 arity) hbody)
  | bindParams names => exact .result (h.refl _)
  | coerce name type => exact h.coercions level name type (hnode type List.mem_cons_self)
  | coerceAll coercions onFailure =>
    obtain ⟨hcoercions, hfailure⟩ := List.forall_mem_append.mp hnode
    refine (guardLines h (level + 1) coercions hcoercions).bind fun body body' hbody => ?_
    refine (nodeLines h (level + 1) onFailure hfailure).bind fun answer answer' hanswer => ?_
    have hopen := h.refl [⟨level, 0, .openTry⟩]
    have hexcept := h.refl [⟨level, 0, .openExcept⟩]
    exact .result (h.append (h.append hopen hbody) (h.append hexcept hanswer))
  | invoke index names isVoid callee => exact .result (h.refl _)
  | placeholder => exact .fault _
  | fragment nodes => exact .fault _

/-- Renderers that correspond write a sequence of nodes alike. -/
theorem guardLines (h : Corresponds r s Admits R) (level : Int) (nodes : List Node)
    (hnodes : ∀ t ∈ Node.typesAll nodes, Admits t) :
    EndAlike R (r.guardLines level nodes) (s.guardLines level nodes) := by
  unfold Renderer.guardLines
  cases nodes with
  | nil => exact .result (h.refl [])
  | cons node rest =>
    obtain ⟨hnode, hrest⟩ := List.forall_mem_append.mp hnodes
    refine (nodeLines h level node hnode).bind fun first first' hfirst => ?_
    refine (guardLines h level rest hrest).bind fun others others' hothers => ?_
    exact .result (h.append hfirst hothers)

end

end Corresponds

/-- The level of a guard that is written by itself makes no difference at another level. -/
theorem guardLines_withLevel (r : Renderer) (own level : Int) (nodes : List Node) :
    { r with level := own }.guardLines level nodes = r.guardLines level nodes := by
  have h : Corresponds { r with level := own } r (fun _ => True) Eq :=
    { refl := fun _ => rfl
      append := fun hfront hback => by rw [hfront, hback]
      unit := rfl
      capacity := rfl
      conditions := .refl (fun _ _ => ⟨fun _ => rfl, fun _ => rfl⟩) _
      coercions := fun _ _ _ _ => .refl (fun _ => rfl) _ }
  exact (h.guardLines level nodes fun _ _ => trivial).eq

end OverloadDispatch.Renderer
