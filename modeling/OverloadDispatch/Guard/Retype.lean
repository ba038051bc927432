import OverloadDispatch.Guard.Meaning

/-!
# Retyping guards

The types of a guard stand in its coercions and nowhere else. Retyping replaces them and touches
nothing besides, in whatever parts of a node they stand. A retyped guard is run like the guard
itself with every value converted to the new type.
-/

namespace OverloadDispatch

namespace Node

mutual

/-- The node with every type to which it or a part of it converts replaced. -/
def retype (change : QualifiedType → QualifiedType) : Node → Node
  | noMatch isVoid => noMatch isVoid
  | raise exception message => raise exception message
  | ambiguityCheck arities onHit => ambiguityCheck arities (retype change onHit)
  | arityCheck arity onMismatch => arityCheck arity (retype change onMismatch)
  | bindParams names => bindParams names
  | coerce name type => coerce name (change type)
  | coerceAll coercions onFailure =>
    coerceAll (retypeAll change coercions) (retype change onFailure)
  | invoke index names isVoid callee => invoke index names isVoid callee
  | placeholder => placeholder
  | fragment nodes => fragment (retypeAll change nodes)

/-- The nodes with the types of each of them replaced. -/
def retypeAll (change : QualifiedType → QualifiedType) : List Node → List Node
  | [] => []
  | node :: rest => retype change node :: retypeAll change rest

end

/-- Nodes in a sequence are retyped one by one. -/
theorem retypeAll_eq_map (change : QualifiedType → QualifiedType) (nodes : List Node) :
    retypeAll change nodes = nodes.map (retype change) := by
  induction nodes with
  | nil => rfl
  | cons node rest ih => rw [retypeAll, List.map_cons, ih]

mutual

/-- Retyping twice is retyping by one replacement after the other. -/
theorem retype_retype (change again : QualifiedType → QualifiedType) (node : Node) :
    retype again (retype change node) = retype (again ∘ change) node := by
  cases node with
  | ambiguityCheck arities onHit => simp only [retype, retype_retype change again onHit]
  | arityCheck arity onMismatch => simp only [retype, retype_retype change again onMismatch]
  | coerceAll coercions onFailure =>
    simp only [retype, retypeAll_retypeAll change again coercions,
      retype_retype change again onFailure]
  | fragment nodes => simp only [retype, retypeAll_retypeAll change again nodes]
  | _ => rfl

theorem retypeAll_retypeAll (change again : QualifiedType → QualifiedType) (nodes : List Node) :
    retypeAll again (retypeAll change nodes) = retypeAll (again ∘ change) nodes := by
  cases nodes with
  | nil => rfl
  | cons node rest =>
    simp only [retypeAll, retype_retype change again node, retypeAll_retypeAll change again rest]

end

mutual

/-- The types of a retyped node are the replacements of its types, in the same order. -/
theorem types_retype (change : QualifiedType → QualifiedType) (node : Node) :
    types (retype change node) = (types node).map change := by
  cases node with
  | ambiguityCheck arities onHit => exact types_retype change onHit
  | arityCheck arity onMismatch => exact types_retype change onMismatch
  | coerceAll coercions onFailure =>
    rw [retype, types, types, List.map_append, typesAll_retypeAll change coercions,
      types_retype change onFailure]
  | fragment nodes => exact typesAll_retypeAll change nodes
  | _ => rfl

theorem typesAll_retypeAll (change : QualifiedType → QualifiedType) (nodes : List Node) :
    typesAll (retypeAll change nodes) = (typesAll nodes).map change := by
  cases nodes with
  | nil => rfl
  | cons node rest =>
    rw [retypeAll, typesAll, typesAll, List.map_append, types_retype change node,
      typesAll_retypeAll change rest]

end

section Run

variable {α β : Type} (call : Call α) (convert : Conversion α β)
  (change : QualifiedType → QualifiedType)

mutual

/-- A retyped node is run like the node itself with values converted to the new types. -/
theorem run_retype (frame : Frame α β) (node : Node) :
    run call convert frame (retype change node) =
      run call (fun t => convert (change t)) frame node := by
  cases node with
  | ambiguityCheck arities onHit => simp only [retype, run, run_retype frame onHit]
  | arityCheck arity onMismatch => simp only [retype, run, run_retype frame onMismatch]
  | coerceAll coercions onFailure =>
    simp only [retype, run, runAll_retypeAll frame coercions, run_retype frame onFailure]
  | _ => rfl

theorem runAll_retypeAll (frame : Frame α β) (nodes : List Node) :
    runAll call convert frame (retypeAll change nodes) =
      runAll call (fun t => convert (change t)) frame nodes := by
  cases nodes with
  | nil => rfl
  | cons node rest =>
    have hrest := fun next => runAll_retypeAll next rest
    simp only [retypeAll, runAll, run_retype frame node, hrest]

end

end Run

end Node

namespace Guard

/-- The guard with every type to which it converts replaced. -/
def retype (change : QualifiedType → QualifiedType) (g : Guard) : Guard :=
  Node.retypeAll change g

/-- Whether two guards become the same when all their types are made the same. -/
def SameButTypes (g h : Guard) : Prop := ∀ t, g.retype (fun _ => t) = h.retype (fun _ => t)

/-- Retyping changes nothing but types. -/
theorem sameButTypes_retype (change : QualifiedType → QualifiedType) (g : Guard) :
    SameButTypes (g.retype change) g :=
  fun t => Node.retypeAll_retypeAll change (fun _ => t) g

end Guard

/-- The resolver with every type to which it converts replaced. -/
def Resolver.retype (change : QualifiedType → QualifiedType) (r : Resolver) : Resolver :=
  { r with guard := r.guard.retype change, invoke := r.invoke.retype change }

/-- A retyped resolver is run like the resolver itself with values converted to the new types. -/
theorem Resolver.run_retype {α β : Type} (call : Call α) (convert : Conversion α β)
    (change : QualifiedType → QualifiedType) (r : Resolver) :
    (r.retype change).run call convert = r.run call fun t => convert (change t) := by
  have hsteps : (r.retype change).guard ++ [(r.retype change).invoke] =
      Node.retypeAll change (r.guard ++ [r.invoke]) := by
    simp only [retype, Guard.retype, Node.retypeAll_eq_map, List.map_append, List.map_cons,
      List.map_nil]
  rw [run, run, hsteps, Node.runAll_retypeAll]

namespace Dispatcher

/-- The entry point with every type to which it converts replaced. -/
def retype (change : QualifiedType → QualifiedType) (d : Dispatcher) : Dispatcher :=
  { d with
    ambiguity := d.ambiguity.retype change
    resolvers := d.resolvers.map (Resolver.retype change) }

section Run

variable {α β : Type} (call : Call α) (convert : Conversion α β)
  (change : QualifiedType → QualifiedType)

theorem tryAll_retype (resolvers : List Resolver) :
    tryAll call convert (resolvers.map (Resolver.retype change)) =
      tryAll call (fun t => convert (change t)) resolvers := by
  induction resolvers with
  | nil => rfl
  | cons r rest ih => rw [List.map_cons, tryAll, tryAll, r.run_retype, ih]

/-- A retyped entry point is run like the entry point itself with values converted to the new
types. -/
theorem run_retype (d : Dispatcher) :
    (d.retype change).run call convert = d.run call fun t => convert (change t) := by
  rw [run, run, retype, Guard.retype, Node.runAll_retypeAll, tryAll_retype]

end Run

end Dispatcher

end OverloadDispatch
