import Mathlib.Data.List.Forall2
import Mathlib.Data.List.Nodup
import OverloadDispatch.Proofs.Assembly
import OverloadDispatch.Proofs.Indentation

/-!
# How resolvers report

A resolver reports a miss or a match, and the loop that runs it has to know in which manner: without
a result it is a truth value, with one it is a pair. The manner is written down in the checks, in
the report of the match and in the loop, each time by itself. Checks report nothing but misses in
their own manner, whatever their parts are; so a resolver reports its match in one place only, at
its end, and the loop asks in the manner in which every resolver answers.
-/

namespace OverloadDispatch

open Text

/-- Whether a name is an identifier that does not say `return`. -/
def IsOrdinaryName (name : String) : Prop := isIdentifier name.toList = true ∧ name ≠ "return"

instance (name : String) : Decidable (IsOrdinaryName name) :=
  inferInstanceAs (Decidable (isIdentifier name.toList = true ∧ name ≠ "return"))

/-- The resolver that a statement defines, if it defines one. -/
def Statement.definedResolver? : Statement → Option String
  | defineResolver name => some name
  | _ => none

/-- A statement that begins with an ordinary name does not return. -/
theorem firstWord_text_ne_return {s : Statement} (h : IsOrdinaryName s.leading) :
    firstWord s.text ≠ "return" := by
  rw [s.firstWord_text h.1]
  exact h.2

/-! ## Lines of checks -/

/-- Whether a line belongs to checks at a level: it stands there or deeper, it reports nothing but a
miss in the given manner, and it defines no resolver. -/
structure Line.IsCheck (isVoid : Bool) (level : Int) (l : Line) : Prop where
  /-- It does not stand above the level. -/
  level_le : level ≤ l.level
  /-- If it returns it reports a miss. -/
  miss : firstWord l.statement.text = "return" → l.statement = .returnNoMatch isVoid
  /-- It defines no resolver. -/
  defines : l.statement.definedResolver? = none

namespace Line.IsCheck

variable {isVoid : Bool} {level : Int} {l : Line}

/-- A line that begins with an ordinary name does not return. -/
theorem of_leading (hlevel : level ≤ l.level) (hleading : IsOrdinaryName l.statement.leading)
    (hdefines : l.statement.definedResolver? = none) : l.IsCheck isVoid level where
  level_le := hlevel
  miss hreturn := absurd hreturn (firstWord_text_ne_return hleading)
  defines := hdefines

/-- A line of checks at a deeper level belongs to the checks around them. -/
theorem of_deeper (h : l.IsCheck isVoid (level + 1)) : l.IsCheck isVoid level :=
  ⟨by have hle := h.level_le; omega, h.miss, h.defines⟩

end Line.IsCheck

mutual

/-- Whether a node reports nothing but misses in one manner and coerces to ordinary names only. -/
def Node.Misses (isVoid : Bool) : Node → Prop
  | .noMatch manner => manner = isVoid
  | .raise _ _ => True
  | .ambiguityCheck _ onHit => onHit.Misses isVoid
  | .arityCheck _ onMismatch => onMismatch.Misses isVoid
  | .bindParams _ => True
  | .coerce name _ => IsOrdinaryName name
  | .coerceAll coercions onFailure =>
    Node.AllMiss isVoid coercions ∧ onFailure.Misses isVoid
  | .invoke _ _ _ _ => False
  | .placeholder => True
  | .fragment _ => True

/-- Whether several nodes do so. -/
def Node.AllMiss (isVoid : Bool) : List Node → Prop
  | [] => True
  | node :: rest => node.Misses isVoid ∧ Node.AllMiss isVoid rest

end

namespace Renderer

variable {r : Renderer} {name callee : String} {isVoid : Bool} {level : Int}

/-- The lines of a coercion are led by the name of the parameter, or they test or raise. -/
theorem isCheck_coercionLines (hname : IsOrdinaryName name) {t : QualifiedType}
    {lines : List Line} (h : r.coercionLines level name t = .ok lines) :
    ∀ l ∈ lines, l.IsCheck isVoid level := by
  have hordinary (nested : Nat) (statement : Statement)
      (hleading : IsOrdinaryName statement.leading)
      (hdefines : statement.definedResolver? = none) :
      Line.IsCheck isVoid level ⟨level, nested, statement⟩ :=
    .of_leading (Int.le_refl level) hleading hdefines
  have hif : IsOrdinaryName "if" := by decide
  have hraise : IsOrdinaryName "raise" := by decide
  have htested (test : Statement) (htest : Line.IsCheck isVoid level ⟨level, 0, test⟩) :
      ∀ l ∈ [⟨level, 0, .fetch name⟩, ⟨level, 0, test⟩, ⟨level, 1, .raiseValue name⟩],
        Line.IsCheck isVoid level l :=
    List.forall_mem_cons.mpr ⟨hordinary 0 (.fetch name) hname rfl, List.forall_mem_cons.mpr
      ⟨htest, List.forall_mem_singleton.mpr (hordinary 1 (.raiseValue name) hraise rfl)⟩⟩
  rcases coercionLines_cases h with ⟨-, d, rfl⟩ | ⟨-, check, conversion, -, hconversion, rfl⟩
  · cases d with
    | compiled =>
      exact List.forall_mem_singleton.mpr
        (hordinary 0 (.fetchChecked name t.hostSpelling) hname rfl)
    | interpreted => exact htested _ (hordinary 0 (.ifNotInstance name t.hostSpelling) hif rfl)
  · refine List.forall_mem_append.mpr
      ⟨htested _ (hordinary 0 (.ifFails name check) hif rfl), fun l hl => ?_⟩
    obtain ⟨statement, hstatement, rfl⟩ := List.mem_map.mp hl
    rcases hconversion statement hstatement with ⟨typeName, rfl⟩ | ⟨converter, rfl⟩
    · exact hordinary 0 (.cast name typeName) hname rfl
    · exact hordinary 0 (.convert name converter) hname rfl

mutual

/-- A node that reports nothing but misses is written in lines of checks. -/
theorem isCheck_nodeLines (level : Int) (node : Node) {lines : List Line}
    (hnode : node.Misses isVoid) (h : r.nodeLines level node = .ok lines) :
    ∀ l ∈ lines, l.IsCheck isVoid level := by
  have hfixed (statement : Statement) (hleading : IsOrdinaryName statement.leading)
      (hdefines : statement.definedResolver? = none) :
      Line.IsCheck isVoid level ⟨level, 0, statement⟩ :=
    .of_leading (Int.le_refl level) hleading hdefines
  have hif : IsOrdinaryName "if" := by decide
  unfold nodeLines at h
  obtain ⟨_, -, h⟩ := bind_eq_ok_iff.mp h
  cases node with
  | noMatch manner =>
    obtain rfl := hnode
    obtain rfl := Except.ok.inj h
    exact List.forall_mem_singleton.mpr ⟨Int.le_refl level, fun _ => rfl, rfl⟩
  | raise exception message =>
    obtain rfl := Except.ok.inj h
    have hraise : IsOrdinaryName "raise" := by decide
    exact List.forall_mem_singleton.mpr (hfixed (.raise exception message) hraise rfl)
  | ambiguityCheck arities onHit =>
    obtain ⟨d, -, h⟩ := bind_eq_ok_iff.mp h
    obtain ⟨body, hbody, h⟩ := bind_eq_ok_iff.mp h
    obtain rfl := Except.ok.inj h
    have hdeeper := isCheck_nodeLines (level + 1) onHit hnode hbody
    exact List.forall_mem_cons.mpr
      ⟨hfixed (.ifAmbiguous d.spaced arities) hif rfl, fun l hl => (hdeeper l hl).of_deeper⟩
  | arityCheck arity onMismatch =>
    obtain ⟨d, -, h⟩ := bind_eq_ok_iff.mp h
    obtain ⟨body, hbody, h⟩ := bind_eq_ok_iff.mp h
    obtain rfl := Except.ok.inj h
    have hdeeper := isCheck_nodeLines (level + 1) onMismatch hnode hbody
    exact List.forall_mem_cons.mpr
      ⟨hfixed (.ifArity d.spaced arity) hif rfl, fun l hl => (hdeeper l hl).of_deeper⟩
  | bindParams names =>
    obtain rfl := Except.ok.inj h
    have hnames : IsOrdinaryName "__names" := by decide
    have hparams : IsOrdinaryName "__params" := by decide
    have hpositional := hfixed .bindPositional hparams rfl
    have hkeywords := hfixed .bindKeywords hparams rfl
    exact List.forall_mem_cons.mpr ⟨hfixed (.bindNames names) hnames rfl,
      List.forall_mem_cons.mpr ⟨hpositional, List.forall_mem_singleton.mpr hkeywords⟩⟩
  | coerce name type => exact isCheck_coercionLines hnode h
  | coerceAll coercions onFailure =>
    obtain ⟨hcoercions, hfailure⟩ := hnode
    obtain ⟨body, hbody, h⟩ := bind_eq_ok_iff.mp h
    obtain ⟨answer, hanswer, h⟩ := bind_eq_ok_iff.mp h
    obtain rfl := Except.ok.inj h
    have htry : IsOrdinaryName "try" := by decide
    have hexcept : IsOrdinaryName "except" := by decide
    have hcoerced := isCheck_guardLines (level + 1) coercions hcoercions hbody
    have hanswered := isCheck_nodeLines (level + 1) onFailure hfailure hanswer
    refine List.forall_mem_append.mpr ⟨List.forall_mem_cons.mpr ?_, List.forall_mem_cons.mpr ?_⟩
    · exact ⟨hfixed .openTry htry rfl, fun l hl => (hcoerced l hl).of_deeper⟩
    · exact ⟨hfixed .openExcept hexcept rfl, fun l hl => (hanswered l hl).of_deeper⟩
  | invoke index names manner callee => exact hnode.elim
  | placeholder => cases h
  | fragment nodes => cases h

/-- Several nodes that report nothing but misses are written in lines of checks. -/
theorem isCheck_guardLines (level : Int) (nodes : List Node) {lines : List Line}
    (hnodes : Node.AllMiss isVoid nodes) (h : r.guardLines level nodes = .ok lines) :
    ∀ l ∈ lines, l.IsCheck isVoid level := by
  unfold guardLines at h
  cases nodes with
  | nil =>
    obtain rfl := Except.ok.inj h
    exact List.forall_mem_nil _
  | cons node rest =>
    obtain ⟨first, hfirst, h⟩ := bind_eq_ok_iff.mp h
    obtain ⟨others, hothers, h⟩ := bind_eq_ok_iff.mp h
    obtain rfl := Except.ok.inj h
    exact List.forall_mem_append.mpr ⟨isCheck_nodeLines level node hnodes.1 hfirst,
      isCheck_guardLines level rest hnodes.2 hothers⟩

end

end Renderer

/-! ## Resolvers -/

namespace Renderer

variable {r : Renderer} {name callee : String} {isVoid : Bool} {level : Int}

end Renderer

end OverloadDispatch
