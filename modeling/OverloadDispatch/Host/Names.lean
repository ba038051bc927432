import OverloadDispatch.Host.Dialect
import OverloadDispatch.Text.Identifier

/-!
# Names in generated code

A coercion assigns the value of a parameter to a local that has the parameter's own name. The names
of checks, classes, converters and of the native call are spliced into the same lines as they are.
Where a local has one of these names, the lines from there on read the local in its place: the name
is captured.
-/

namespace OverloadDispatch

open Text

/-- The names that the host has to look up for a spliced spelling: of each word the part in front of
the first dot. -/
def rootNames (spelling : String) : List String :=
  (spelling.toList.splitOn ' ').map fun word => String.ofList (word.takeWhile isWordPart)

namespace Statement

/-- The local that a line of a coercion assigns. -/
def coerced? : Statement → Option String
  | fetchChecked name _ => some name
  | fetch name => some name
  | cast name _ => some name
  | convert name _ => some name
  | _ => none

/-- The names that a statement reads in another role than that of a parameter's value. -/
def reads : Statement → List String
  | ifAmbiguous _ _ => ["len", "kwargs", "args"]
  | ifArity _ _ => ["len", "args", "kwargs"]
  | raise exception _ => rootNames exception
  | bindPositional => ["dict", "zip", "__names", "args"]
  | bindKeywords => ["__params", "kwargs"]
  | openExcept => ["Exception"]
  | fetchChecked _ className => "__params" :: rootNames className
  | fetch _ => ["__params"]
  | ifNotInstance _ className => "isinstance" :: rootNames className
  | ifFails _ check => "isinstance" :: (check.accepts ++ check.rejects).flatMap rootNames
  | raiseValue _ => ["TypeError"]
  | cast _ typeName => rootNames typeName
  | convert _ converter => rootNames converter
  | call callee _ _ => rootNames callee
  | returnCall callee _ _ => rootNames callee
  | openLoop names => names.flatMap rootNames
  | ifResolved => ["__resolve", "args", "kwargs"]
  | resolve => ["__resolve", "args", "kwargs"]
  | ifMatched => ["__matched"]
  | leaveWithResult => ["__result"]
  | raiseNoOverload _ => ["TypeError"]
  | returnNoMatch _ => []
  | bindNames _ => []
  | openTry => []
  | returnMatch => []
  | defineEntry _ => []
  | defineResolver _ => []
  | leave => []

/-- The names that one of the statements reads in another role than that of a parameter's value. -/
def readBy (statements : List Statement) : List String := statements.flatMap reads

@[simp] theorem readBy_append (first second : List Statement) :
    readBy (first ++ second) = readBy first ++ readBy second :=
  List.flatMap_append

/-- Whether no local that a coercion assigns is read in another role there or later. -/
structure CaptureFree (statements : List Statement) : Prop where
  /-- Not in the line that assigns it. -/
  own : ∀ statement ∈ statements, ∀ name ∈ statement.coerced?, name ∉ statement.reads
  /-- Not in a later line. -/
  later : statements.Pairwise fun statement other => ∀ name ∈ statement.coerced?, name ∉ other.reads

instance (statements : List Statement) : Decidable (CaptureFree statements) :=
  decidable_of_iff
    ((∀ statement ∈ statements, ∀ name ∈ statement.coerced?, name ∉ statement.reads) ∧
      statements.Pairwise fun statement other => ∀ name ∈ statement.coerced?, name ∉ other.reads)
    ⟨fun h => ⟨h.1, h.2⟩, fun h => ⟨h.own, h.later⟩⟩

/-- Two sequences are free of captures together if each of them is, and if the second reads no local
of the first. -/
theorem captureFree_append {first second : List Statement} :
    CaptureFree (first ++ second) ↔
      CaptureFree first ∧ CaptureFree second ∧
        ∀ statement ∈ first, ∀ name ∈ statement.coerced?, name ∉ readBy second := by
  have hacross : (∀ statement ∈ first, ∀ other ∈ second, ∀ name ∈ statement.coerced?,
      name ∉ other.reads) ↔
        ∀ statement ∈ first, ∀ name ∈ statement.coerced?, name ∉ readBy second := by
    simp only [readBy, List.mem_flatMap, not_exists, not_and]
    exact forall₂_congr fun _ _ => ⟨fun h name hname other hother => h other hother name hname,
      fun h other hother name hname => h name hname other hother⟩
  constructor
  · rintro ⟨own, later⟩
    obtain ⟨hfirst, hsecond⟩ := List.forall_mem_append.mp own
    obtain ⟨hfirst', hsecond', hlater⟩ := List.pairwise_append.mp later
    exact ⟨⟨hfirst, hfirst'⟩, ⟨hsecond, hsecond'⟩, hacross.mp hlater⟩
  · rintro ⟨hfirst, hsecond, hlater⟩
    exact ⟨List.forall_mem_append.mpr ⟨hfirst.own, hsecond.own⟩,
      List.pairwise_append.mpr ⟨hfirst.later, hsecond.later, hacross.mpr hlater⟩⟩

/-- Statements that assign no parameter capture nothing. -/
theorem captureFree_of_forall_eq_none {statements : List Statement}
    (h : ∀ statement ∈ statements, statement.coerced? = none) : CaptureFree statements where
  own statement hstatement name hname := by
    rw [h statement hstatement] at hname
    cases hname
  later := by
    induction statements with
    | nil => exact .nil
    | cons statement rest ih =>
      obtain ⟨hfirst, hrest⟩ := List.forall_mem_cons.mp h
      refine .cons (fun _ _ name hname => ?_) (ih hrest)
      rw [hfirst] at hname
      cases hname

/-- What stands in front and assigns no parameter makes no difference. -/
theorem captureFree_append_of_forall_eq_none {front rest : List Statement}
    (h : ∀ statement ∈ front, statement.coerced? = none) :
    CaptureFree (front ++ rest) ↔ CaptureFree rest := by
  rw [captureFree_append]
  refine ⟨fun hall => hall.2.1, fun hrest => ⟨captureFree_of_forall_eq_none h, hrest, ?_⟩⟩
  intro statement hstatement name hname
  rw [h statement hstatement] at hname
  cases hname

end Statement

namespace Dialect

/-- The conversion that follows a host check, if the dialect makes one, as it is spelled. -/
def conversionNames (d : Dialect) (t : QualifiedType) (check : HostCheck) : List String :=
  match d with
  | compiled => if t.isBasic then rootNames t.hostSpelling else []
  | interpreted => check.converter.toList.flatMap rootNames

/-- The names that the coercion to a type reads. -/
def coercionNames (d : Dialect) (checks : HostTable) (t : QualifiedType) : List String :=
  match t.category with
  | .wrapped =>
    match d with
    | compiled => "__params" :: rootNames t.hostSpelling
    | interpreted => ["__params", "isinstance", "TypeError"] ++ rootNames t.hostSpelling
  | _ =>
    match checks.check? t with
    | none => []
    | some check =>
      ["__params", "isinstance", "TypeError"] ++
        (check.accepts ++ check.rejects).flatMap rootNames ++ d.conversionNames t check

end Dialect

end OverloadDispatch
