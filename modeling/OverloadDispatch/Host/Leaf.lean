import OverloadDispatch.Host.Renderer

/-!
# Steps without parts

A guard is made of steps without parts. The steps with parts only decide which of them are run, and
are written as frames around their lines; so are the definitions and the loop of an entry point.
A property that no frame has is therefore found in the lines of a guard or an entry point exactly if
it is found in the lines of one of its steps without parts, however deep that step stands.
-/

namespace OverloadDispatch

namespace Node

mutual

/-- The steps without parts of which a node is made, in the order in which they are written. -/
def leaves : Node → List Node
  | noMatch isVoid => [noMatch isVoid]
  | raise exception message => [raise exception message]
  | ambiguityCheck _ onHit => leaves onHit
  | arityCheck _ onMismatch => leaves onMismatch
  | bindParams names => [bindParams names]
  | coerce name type => [coerce name type]
  | coerceAll coercions onFailure => leavesAll coercions ++ leaves onFailure
  | invoke index names isVoid callee => [invoke index names isVoid callee]
  | placeholder => [placeholder]
  | fragment nodes => leavesAll nodes

/-- The steps without parts of which several nodes are made. -/
def leavesAll : List Node → List Node
  | [] => []
  | node :: rest => leaves node ++ leavesAll rest

end

end Node

/-- The steps without parts of a resolver. -/
def Resolver.leaves (resolver : Resolver) : List Node :=
  Node.leavesAll resolver.guard ++ resolver.invoke.leaves

/-- The steps without parts of an entry point. -/
def Dispatcher.leaves (d : Dispatcher) : List Node :=
  Node.leavesAll d.ambiguity ++ d.resolvers.flatMap Resolver.leaves

/-- The statements that are written around the lines of steps without parts. -/
def Statement.isFrame : Statement → Bool
  | ifAmbiguous _ _ => true
  | ifArity _ _ => true
  | openTry => true
  | openExcept => true
  | defineEntry _ => true
  | defineResolver _ => true
  | openLoop _ => true
  | ifResolved => true
  | leave => true
  | resolve => true
  | ifMatched => true
  | leaveWithResult => true
  | _ => false

/-- Whether a statement with a property stands in one of the lines. -/
def Line.Hold (P : Statement → Prop) (lines : List Line) : Prop := ∃ l ∈ lines, P l.statement

namespace Line

variable {P : Statement → Prop}

@[simp] theorem hold_nil : Hold P [] ↔ False := by simp [Hold]

@[simp] theorem hold_cons {l : Line} {lines : List Line} :
    Hold P (l :: lines) ↔ P l.statement ∨ Hold P lines := by
  simp [Hold]

@[simp] theorem hold_append {front back : List Line} :
    Hold P (front ++ back) ↔ Hold P front ∨ Hold P back := by
  simp [Hold, or_and_right, exists_or]

end Line

namespace Renderer

open Line

/-- A property of statements that the lines of steps of some kind have, and no frame has. -/
structure Reflects (P : Statement → Prop) (Q : Node → Prop) : Prop where
  /-- No frame has the property. -/
  frame : ∀ s : Statement, s.isFrame = true → ¬P s
  /-- The answers of the two kinds of callables. -/
  noMatch : ∀ isVoid, P (.returnNoMatch isVoid) ↔ Q (.noMatch isVoid)
  /-- An exception. -/
  raise : ∀ exception message, P (.raise exception message) ↔ Q (.raise exception message)
  /-- The three lines that bind parameters. -/
  bindParams : ∀ names,
    P (.bindNames names) ∨ P .bindPositional ∨ P .bindKeywords ↔ Q (.bindParams names)
  /-- The test for a wrapped class, in both dialects. -/
  wrapped : ∀ (d : Dialect) level name type, type.category = .wrapped →
    (Hold P (d.wrappedLines level name type) ↔ Q (.coerce name type))
  /-- The three lines of a host check. -/
  checked : ∀ name type check, type.category ≠ .wrapped →
    (P (.fetch name) ∨ P (.ifFails name check) ∨ P (.raiseValue name) ↔ Q (.coerce name type))
  /-- No conversion has the property. -/
  conversion : ∀ name other, ¬P (.cast name other) ∧ ¬P (.convert name other)
  /-- The lines that report a match. -/
  invoke : ∀ level index names isVoid callee,
    Hold P (invokeLines level index names isVoid callee) ↔ Q (.invoke index names isVoid callee)

namespace Reflects

variable {r : Renderer} {P : Statement → Prop} {Q : Node → Prop}

/-- The lines of a coercion have the property if the coercion is of the kind. -/
theorem hold_coercionLines (h : Reflects P Q) {level : Int} {name : String} {t : QualifiedType}
    {lines : List Line} (hlines : r.coercionLines level name t = .ok lines) :
    Hold P lines ↔ Q (.coerce name t) := by
  rcases coercionLines_cases hlines with ⟨hwrapped, d, rfl⟩ | ⟨hcategory, check, conversion, -,
    hconversion, rfl⟩
  · exact h.wrapped d level name t hwrapped
  · have hnone : ¬Hold P (conversion.map fun statement => ⟨level, 0, statement⟩) := by
      rintro ⟨l, hl, hP⟩
      obtain ⟨statement, hstatement, rfl⟩ := List.mem_map.mp hl
      rcases hconversion statement hstatement with ⟨typeName, rfl⟩ | ⟨converter, rfl⟩
      · exact (h.conversion name typeName).1 hP
      · exact (h.conversion name converter).2 hP
    rw [hold_append, or_iff_left hnone, ← h.checked name t check hcategory]
    simp

mutual

/-- The lines of a node have the property if one of its steps is of the kind. -/
theorem hold_nodeLines (h : Reflects P Q) {level : Int} (node : Node) {lines : List Line}
    (hlines : r.nodeLines level node = .ok lines) :
    Hold P lines ↔ ∃ leaf ∈ node.leaves, Q leaf := by
  unfold nodeLines at hlines
  obtain ⟨-, -, hlines⟩ := bind_eq_ok_iff.mp hlines
  cases node with
  | noMatch isVoid =>
    obtain rfl := Except.ok.inj hlines
    simpa [Node.leaves] using h.noMatch isVoid
  | raise exception message =>
    obtain rfl := Except.ok.inj hlines
    simpa [Node.leaves] using h.raise exception message
  | ambiguityCheck arities onHit =>
    obtain ⟨d, -, hlines⟩ := bind_eq_ok_iff.mp hlines
    obtain ⟨body, hbody, hlines⟩ := bind_eq_ok_iff.mp hlines
    obtain rfl := Except.ok.inj hlines
    have hframe := h.frame (.ifAmbiguous d.spaced arities) rfl
    rw [hold_cons, or_iff_right hframe, Node.leaves]
    exact hold_nodeLines h onHit hbody
  | arityCheck arity onMismatch =>
    obtain ⟨d, -, hlines⟩ := bind_eq_ok_iff.mp hlines
    obtain ⟨body, hbody, hlines⟩ := bind_eq_ok_iff.mp hlines
    obtain rfl := Except.ok.inj hlines
    have hframe := h.frame (.ifArity d.spaced arity) rfl
    rw [hold_cons, or_iff_right hframe, Node.leaves]
    exact hold_nodeLines h onMismatch hbody
  | bindParams names =>
    obtain rfl := Except.ok.inj hlines
    simpa [Node.leaves] using h.bindParams names
  | coerce name type =>
    simpa [Node.leaves] using h.hold_coercionLines hlines
  | coerceAll coercions onFailure =>
    obtain ⟨body, hbody, hlines⟩ := bind_eq_ok_iff.mp hlines
    obtain ⟨answer, hanswer, hlines⟩ := bind_eq_ok_iff.mp hlines
    obtain rfl := Except.ok.inj hlines
    have htry := h.frame .openTry rfl
    have hexcept := h.frame .openExcept rfl
    rw [List.cons_append, hold_cons, hold_append, hold_cons, or_iff_right htry,
      or_iff_right hexcept, hold_guardLines h coercions hbody, hold_nodeLines h onFailure hanswer,
      Node.leaves]
    simp only [List.mem_append, or_and_right, exists_or]
  | invoke index names isVoid callee =>
    obtain rfl := Except.ok.inj hlines
    simpa [Node.leaves] using h.invoke level index names isVoid callee
  | placeholder => cases hlines
  | fragment nodes => cases hlines

/-- The lines of a sequence of nodes have the property if one of their steps is of the kind. -/
theorem hold_guardLines (h : Reflects P Q) {level : Int} (nodes : List Node)
    {lines : List Line} (hlines : r.guardLines level nodes = .ok lines) :
    Hold P lines ↔ ∃ leaf ∈ Node.leavesAll nodes, Q leaf := by
  unfold guardLines at hlines
  cases nodes with
  | nil =>
    obtain rfl := Except.ok.inj hlines
    simp [Node.leavesAll]
  | cons node rest =>
    obtain ⟨first, hfirst, hlines⟩ := bind_eq_ok_iff.mp hlines
    obtain ⟨others, hothers, hlines⟩ := bind_eq_ok_iff.mp hlines
    obtain rfl := Except.ok.inj hlines
    rw [hold_append, hold_nodeLines h node hfirst, hold_guardLines h rest hothers, Node.leavesAll]
    simp only [List.mem_append, or_and_right, exists_or]

end

/-- The lines of a resolver have the property if one of its steps is of the kind. -/
theorem hold_resolverLines (h : Reflects P Q) {level : Int} {resolver : Resolver}
    {lines : List Line} (hlines : r.resolverLines level resolver = .ok lines) :
    Hold P lines ↔ ∃ leaf ∈ resolver.leaves, Q leaf := by
  obtain ⟨guard, hguard, hlines⟩ := bind_eq_ok_iff.mp hlines
  obtain ⟨report, hreport, hlines⟩ := bind_eq_ok_iff.mp hlines
  obtain rfl := Except.ok.inj hlines
  have hframe := h.frame (.defineResolver resolver.name) rfl
  rw [List.cons_append, hold_cons, hold_append, or_iff_right hframe,
    hold_guardLines h resolver.guard hguard, hold_nodeLines h resolver.invoke hreport,
    Resolver.leaves]
  simp only [List.mem_append, or_and_right, exists_or]

/-- The lines of several resolvers have the property if one of their steps is of the kind. -/
theorem hold_resolversLines (h : Reflects P Q) {level : Int} {resolvers : List Resolver}
    {lines : List Line} (hlines : r.resolversLines level resolvers = .ok lines) :
    Hold P lines ↔ ∃ leaf ∈ resolvers.flatMap Resolver.leaves, Q leaf := by
  induction resolvers generalizing lines with
  | nil =>
    obtain rfl := Except.ok.inj hlines
    simp
  | cons resolver rest ih =>
    obtain ⟨first, hfirst, hlines⟩ := bind_eq_ok_iff.mp hlines
    obtain ⟨others, hothers, hlines⟩ := bind_eq_ok_iff.mp hlines
    obtain rfl := Except.ok.inj hlines
    rw [hold_append, hold_resolverLines h hfirst, ih hothers, List.flatMap_cons]
    simp only [List.mem_append, or_and_right, exists_or]

/-- The loop over the resolvers is a frame. -/
theorem not_hold_loopLines (h : Reflects P Q) (level : Int) (isVoid : Bool)
    (names : List String) : ¬Hold P (loopLines level isVoid names) := by
  have hframe : ∀ l ∈ loopLines level isVoid names, l.statement.isFrame = true := by
    cases isVoid <;> simp [loopLines, Statement.isFrame]
  rintro ⟨l, hl, hP⟩
  exact h.frame l.statement (hframe l hl) hP

/-- The lines of an entry point have the property if one of its steps is of the kind, or if the
error in its last line has it. -/
theorem hold_dispatcherLines (h : Reflects P Q) {level : Int} {d : Dispatcher}
    {lines : List Line} (hlines : r.dispatcherLines level d = .ok lines) :
    Hold P lines ↔ (∃ leaf ∈ d.leaves, Q leaf) ∨ P (.raiseNoOverload d.name) := by
  obtain ⟨-, -, hlines⟩ := bind_eq_ok_iff.mp hlines
  obtain ⟨-, -, hlines⟩ := bind_eq_ok_iff.mp hlines
  obtain ⟨ambiguity, hambiguity, hlines⟩ := bind_eq_ok_iff.mp hlines
  obtain ⟨resolvers, hresolvers, hlines⟩ := bind_eq_ok_iff.mp hlines
  obtain ⟨-, -, hlines⟩ := bind_eq_ok_iff.mp hlines
  obtain rfl := Except.ok.inj hlines
  have hframe := h.frame (.defineEntry d.name) rfl
  have hloop := h.not_hold_loopLines (level + 1) d.isVoid (d.resolvers.map Resolver.name)
  simp only [List.cons_append, hold_cons, hold_append, hold_nil, hframe, hloop, false_or, or_false,
    h.hold_guardLines d.ambiguity hambiguity, h.hold_resolversLines hresolvers, Dispatcher.leaves,
    List.mem_append, or_and_right, exists_or]

end Reflects

end Renderer

end OverloadDispatch
