import OverloadDispatch.Workspace

/-!
# Inspections of a table

The types of a table are checked by a walk over its callables, the signatures of a callable and the
parameters of a signature. The walk is run on the table itself and stops at the first parameter of
an unknown type; a walk that collects catches what stops it. That neither changes a callable is
therefore a fact about the walks, stated by `exec_inspect` and `exec_collect`, which also say what
the walks come to.
-/

namespace OverloadDispatch

/-- Effects on a table of callables; an issue stops them and leaves the table as it is by then. -/
abbrev Inspection (α : Type) := ExceptT Issue (StateM (Table Callable)) α

namespace Inspection

variable {α β : Type}

/-- What effects end with, and the table in which they leave off. -/
def exec (effect : Inspection α) (table : Table Callable) : Except Issue α × Table Callable :=
  effect.run.run table

@[simp] theorem exec_pure (a : α) (table : Table Callable) :
    exec (pure a) table = (.ok a, table) := rfl

@[simp] theorem exec_throw (issue : Issue) (table : Table Callable) :
    exec (throw issue : Inspection α) table = (.error issue, table) := rfl

@[simp] theorem exec_get (table : Table Callable) : exec get table = (.ok table, table) := rfl

/-- What follows an issue does not take place, and what came before it stays. -/
@[simp] theorem exec_bind (effect : Inspection α) (next : α → Inspection β)
    (table : Table Callable) :
    exec (effect >>= next) table =
      match effect.exec table with
      | (.ok a, later) => (next a).exec later
      | (.error issue, later) => (.error issue, later) := by
  simp only [exec, ExceptT.run_bind, StateT.run_bind]
  rcases effect.run.run table with ⟨_ | a, later⟩ <;> rfl

/-- An issue that is caught is answered where the effects left off. -/
@[simp] theorem exec_tryCatch (effect : Inspection α) (answer : Issue → Inspection α)
    (table : Table Callable) :
    exec (tryCatch effect answer) table =
      match effect.exec table with
      | (.ok a, later) => (.ok a, later)
      | (.error issue, later) => (answer issue).exec later := by
  change (ExceptT.tryCatch effect answer).run.run table = _
  simp only [ExceptT.tryCatch, exec, ExceptT.run, ExceptT.mk, StateT.run_bind]
  rcases StateT.run effect table with ⟨_ | a, later⟩ <;> rfl

/-- A walk over elements that are only looked at ends with the first issue that is found. -/
theorem exec_forM {step : β → Inspection PUnit} {found : β → Except Issue PUnit}
    {table : Table Callable} (h : ∀ x, (step x).exec table = (found x, table)) (xs : List β) :
    (forM xs step).exec table = (forM xs found, table) := by
  induction xs with
  | nil => rfl
  | cons x xs ih =>
    rw [List.forM_cons, List.forM_cons, exec_bind, h x]
    cases found x with
    | error issue => rfl
    | ok _ => exact ih

end Inspection

namespace Issue

/-- The issue of a spelling that is missing in a context, if one is. -/
def ofMissing (context : String) : Option String → Except Issue Unit
  | some spelling => .error (.missingDependency spelling ("checking argument of " ++ context))
  | none => .ok ()

/-- Of two places the second one counts if nothing is missing at the first. -/
theorem ofMissing_or (context : String) (first second : Option String) :
    ofMissing context (first.or second) =
      (ofMissing context first >>= fun _ => ofMissing context second) := by
  cases first <;> rfl

end Issue

namespace OverloadSet

variable (valid : List String) (context : String) (table : Table Callable)

/-- Look at the type of a parameter, on behalf of the named context. -/
def inspectParameter (p : Parameter) : Inspection Unit := do
  if p.type.qualified ∉ valid then
    throw (.missingDependency p.type.qualified ("checking argument of " ++ context))

/-- Look at the types of all held parameters, signature by signature. -/
def inspect (o : OverloadSet) : Inspection Unit :=
  forM o.held fun s => forM s (inspectParameter valid context)

/-- The first of the spellings that is not among the valid ones. -/
def firstUnknown? (spellings : List String) : Option String :=
  spellings.find? fun spelling => !valid.contains spelling

theorem exec_inspectParameter (p : Parameter) :
    (inspectParameter valid context p).exec table =
      (Issue.ofMissing context (firstUnknown? valid [p.type.qualified]), table) := by
  by_cases h : p.type.qualified ∈ valid <;>
    simp [inspectParameter, firstUnknown?, Issue.ofMissing, h]

/-- The parameters of a signature are looked at up to the first one of an unknown type. -/
theorem exec_inspectParameters (s : Signature) :
    (forM s (inspectParameter valid context)).exec table =
      (Issue.ofMissing context (firstUnknown? valid (s.types.map QualifiedType.qualified)),
        table) := by
  rw [Inspection.exec_forM fun p => exec_inspectParameter valid context table p]
  congr 1
  induction s with
  | nil => rfl
  | cons p s ih =>
    let rest := (Signature.types s).map QualifiedType.qualified
    have hsplit : firstUnknown? valid ([p.type.qualified] ++ rest) =
        (firstUnknown? valid [p.type.qualified]).or (firstUnknown? valid rest) :=
      List.find?_append
    rw [List.forM_cons, ih, ← Issue.ofMissing_or, ← hsplit]
    rfl

/-- The signatures of an overload set are looked at up to the first parameter of an unknown type. -/
theorem exec_inspect (o : OverloadSet) :
    (o.inspect valid context).exec table = (o.verify valid context, table) := by
  have hverify : o.verify valid context = Issue.ofMissing context (o.firstMissing? valid) := by
    rw [verify]
    cases o.firstMissing? valid <;> rfl
  rw [inspect, Inspection.exec_forM fun s => exec_inspectParameters valid context table s, hverify,
    firstMissing?, types]
  congr 1
  induction o.held with
  | nil => rfl
  | cons s held ih =>
    rw [List.forM_cons, ih, List.flatMap_cons, List.map_append, List.find?_append,
      Issue.ofMissing_or]
    rfl

end OverloadSet

namespace Callable

/-- Look at the held types of a callable on behalf of a context, its name unless given. -/
def inspect (valid : List String) (context : Option String) (c : Callable) : Inspection Unit :=
  c.overloads.inspect valid (context.getD c.name)

theorem exec_inspect (valid : List String) (context : Option String) (c : Callable)
    (table : Table Callable) :
    (c.inspect valid context).exec table = (c.verify valid context, table) :=
  OverloadSet.exec_inspect valid (context.getD c.name) table c.overloads

end Callable

namespace Workspace

variable (valid : List String)

/-- Look at every callable of the table on its own behalf, in order. -/
def inspect : Inspection Unit := do
  let table ← get
  forM table fun row => row.2.inspect valid none

/-- Look at every callable, and answer a missing dependency with its diagnostic. -/
def collect : Inspection (List Diagnostic) :=
  tryCatch (do inspect valid; return []) fun issue =>
    match issue with
    | .missingDependency _ _ => return [issue.diagnostic (some validationPhase)]
    | other => throw other

/-- A table is verified row by row, up to the first issue. -/
theorem verify_eq_forM (table : Table Callable) :
    verify valid table = forM table fun row => row.2.verify valid none := by
  induction table with
  | nil => rfl
  | cons row table ih =>
    rw [List.forM_cons, ← ih, verify]
    cases row.2.verify valid none <;> rfl

/-- The walk over a table comes to its verification, and leaves it as it was. -/
theorem exec_inspect (table : Table Callable) :
    (inspect valid).exec table = (verify valid table, table) := by
  have hrow : ∀ row : String × Callable,
      (row.2.inspect valid none).exec table = (row.2.verify valid none, table) :=
    fun row => row.2.exec_inspect valid none table
  rw [inspect, Inspection.exec_bind, Inspection.exec_get, verify_eq_forM]
  exact Inspection.exec_forM hrow table

/-- Only missing dependencies are found. -/
theorem exists_of_verify_eq_error {valid : List String} {table : Table Callable} {issue : Issue}
    (h : verify valid table = .error issue) :
    ∃ typeName context, issue = .missingDependency typeName context := by
  induction table with
  | nil => cases h
  | cons row table ih =>
    rw [verify] at h
    split at h
    · next found hfound =>
      obtain rfl := Except.error.inj h
      rw [Callable.verify, OverloadSet.verify] at hfound
      split at hfound
      · exact ⟨_, _, (Except.error.inj hfound).symm⟩
      · cases hfound
    · exact ih h

/-- The walk that collects comes to the diagnostics, and leaves the table as it was. -/
theorem exec_collect (table : Table Callable) :
    (collect valid).exec table = (.ok (diagnostics valid table), table) := by
  rw [collect, Inspection.exec_tryCatch, Inspection.exec_bind, exec_inspect, diagnostics]
  cases h : verify valid table with
  | ok _ => rfl
  | error issue =>
    obtain ⟨typeName, context, rfl⟩ := exists_of_verify_eq_error h
    rfl

end Workspace

end OverloadDispatch
