import OverloadDispatch.Host.Comparison
import OverloadDispatch.OverloadSet

/-!
# Assembly of entry points

The guards of an overload set are written in two ways, one by one as fragments and as parts of the
entry point. The text of the entry point is made of the texts of the fragments with the lines around
them, and it has the fault of the first fragment that has one. Beside the fragments only the levels
of the lines around them can be at fault.
-/

namespace OverloadDispatch

namespace Renderer

/-! ## The text of an entry point around its fragments -/

/-- The text of one line at a level. -/
def lineText (r : Renderer) (level : Int) (statement : Statement) : String :=
  Line.blockText r.unit [⟨level, 0, statement⟩]

/-- The text of the resolver of a signature around the text of its guard. -/
def resolverText (r : Renderer) (level : Int) (name : String) (isVoid : Bool) (callee : String)
    (s : Signature) (index : Nat) (guard : String) : String :=
  r.lineText level (.defineResolver (name ++ "_" ++ toString index)) ++ guard ++
    Line.blockText r.unit (invokeLines (level + 1) index s.names isVoid callee)

/-- The texts of the resolvers of signatures, numbered from a first index on. -/
def resolversText (r : Renderer) (level : Int) (name : String) (isVoid : Bool) (callee : String)
    (first : Nat) (signatures : List Signature) (guards : List String) : String :=
  String.join (((signatures.zip guards).zipIdx first).map fun ((s, guard), index) =>
    r.resolverText level name isVoid callee s index guard)

/-- The names of the resolvers of so many signatures. -/
def resolverNames (name : String) (count : Nat) : List String :=
  (List.range count).map fun index => name ++ "_" ++ toString index

/-- The text of an entry point around the text of the check that stands before all overloads and
the texts of the guards of the overloads. -/
def entryText (r : Renderer) (level : Int) (name : String) (isVoid : Bool) (callee : String)
    (signatures : List Signature) (ambiguity : String) (guards : List String) : String :=
  r.lineText level (.defineEntry name) ++ ambiguity ++
    r.resolversText (level + 1) name isVoid callee 0 signatures guards ++
    Line.blockText r.unit (loopLines (level + 1) isVoid (resolverNames name signatures.length)) ++
    r.lineText (level + 1) (.raiseNoOverload name)

/-- The fragments of an entry point, each written by itself at the level that it has there. -/
def fragments (r : Renderer) (level : Int) (isVoid : Bool) (signatures : List Signature) :
    List (Except Fault String) :=
  r.guardText (Guard.ambiguity signatures) (some (level + 1)) ::
    signatures.map fun s => r.guardText (Guard.dispatch s isVoid) (some (level + 2))

/-! ## The entry point is its fragments -/

variable {r : Renderer} {level : Int} {name callee : String} {isVoid : Bool}

/-- The guard of a signature is written only where its level can be. -/
theorem requireLevel_of_guardLines_dispatch {s : Signature} {lines : List Line}
    (h : r.guardLines level (Guard.dispatch s isVoid) = .ok lines) :
    r.requireLevel level = .ok () := by
  unfold guardLines Guard.dispatch at h
  obtain ⟨first, hfirst, -⟩ := bind_eq_ok_iff.mp h
  unfold nodeLines at hfirst
  obtain ⟨_, hlevel, -⟩ := bind_eq_ok_iff.mp hfirst
  exact hlevel

/-- A resolver is written like its guard, with its own lines around the text. -/
theorem resolverLines_build (s : Signature) (index : Nat) :
    EndAlike (fun lines guard => Line.blockText r.unit lines =
        r.resolverText level name isVoid callee s index guard)
      (r.resolverLines level (Resolver.build name isVoid callee s index))
      (r.guardText (Guard.dispatch s isVoid) (some (level + 1))) := by
  change EndAlike _ (r.guardLines (level + 1) (Guard.dispatch s isVoid) >>= _)
    (r.guardLines (level + 1) (Guard.dispatch s isVoid) >>= _)
  cases hguard : r.guardLines (level + 1) (Guard.dispatch s isVoid) with
  | error f => exact .fault f
  | ok lines =>
    have hreport : r.nodeLines (level + 1) (Resolver.build name isVoid callee s index).invoke =
        .ok (invokeLines (level + 1) index s.names isVoid callee) := by
      unfold nodeLines
      rw [requireLevel_of_guardLines_dispatch hguard]
      rfl
    change EndAlike _ (r.nodeLines (level + 1) _ >>= _) _
    rw [hreport]
    refine .result ?_
    simp [resolverText, lineText, ← Line.blockText_append, Resolver.build]

/-- The resolvers are written like their guards, up to the first fault. -/
theorem resolversLines_build (signatures : List Signature) (first : Nat) :
    EndAlike (fun lines guards => Line.blockText r.unit lines =
        r.resolversText level name isVoid callee first signatures guards)
      (r.resolversLines level ((signatures.zipIdx first).map fun (s, i) =>
        Resolver.build name isVoid callee s i))
      (signatures.mapM fun s => r.guardText (Guard.dispatch s isVoid) (some (level + 1))) := by
  induction signatures generalizing first with
  | nil => exact .result rfl
  | cons s rest ih =>
    rw [List.zipIdx_cons, List.map_cons, resolversLines, List.mapM_cons]
    refine (resolverLines_build s first).bind fun lines guard hlines => ?_
    refine (ih (first + 1)).bind fun others guards hothers => ?_
    refine .result ?_
    rw [Line.blockText_append, hlines, hothers, resolversText, resolversText, List.zip_cons_cons,
      List.zipIdx_cons, List.map_cons, String.join_cons]

/-- The resolvers of an entry point have the names that its loop lists. -/
theorem map_name_resolvers (signatures : List Signature) :
    (Dispatcher.build name signatures isVoid callee).resolvers.map Resolver.name =
      resolverNames name signatures.length := by
  simp only [Dispatcher.build, List.map_map, resolverNames]
  rw [List.range_eq_range', ← List.zipIdx_map_snd 0 signatures, List.map_map]
  rfl

/-- A guard is written like its lines. -/
theorem guardLines_endAlike_guardText (g : Guard) (level : Int) :
    EndAlike (fun lines text => Line.blockText r.unit lines = text) (r.guardLines level g)
      (r.guardText g (some level)) := by
  change EndAlike _ _ (r.guardLines level g >>= _)
  cases r.guardLines level g with
  | error f => exact .fault f
  | ok lines => exact .result rfl

/-- An entry point is written fragment by fragment, between the checks of its own levels. -/
theorem dispatcherText_build (r : Renderer) (level : Int) (name callee : String) (isVoid : Bool)
    (signatures : List Signature) :
    r.dispatcherText (Dispatcher.build name signatures isVoid callee) level = (do
      r.requireLevel level
      r.requireLevel (level + 1)
      let ambiguity ← r.guardText (Guard.ambiguity signatures) (some (level + 1))
      let guards ← signatures.mapM fun s =>
        r.guardText (Guard.dispatch s isVoid) (some (level + 2))
      r.requireLevel (level + 2)
      return r.entryText level name isVoid callee signatures ambiguity guards) := by
  have hlevel (k : Int) : EndAlike Eq (r.requireLevel k) (r.requireLevel k) := .refl (fun _ => rfl) _
  have hresolvers : EndAlike (fun lines guards => Line.blockText r.unit lines =
        r.resolversText (level + 1) name isVoid callee 0 signatures guards)
      (r.resolversLines (level + 1) (Dispatcher.build name signatures isVoid callee).resolvers)
      (signatures.mapM fun s => r.guardText (Guard.dispatch s isVoid) (some (level + 1 + 1))) :=
    resolversLines_build signatures 0
  rw [Int.add_assoc] at hresolvers
  refine EndAlike.eq ?_
  simp only [dispatcherText, dispatcherLines, bind_assoc, pure_bind]
  refine (hlevel level).bind fun _ _ _ => ?_
  refine (hlevel (level + 1)).bind fun _ _ _ => ?_
  refine (guardLines_endAlike_guardText _ _).bind fun lines ambiguity hambiguity => ?_
  refine hresolvers.bind fun lines guards hguards => ?_
  refine (hlevel (level + 2)).bind fun _ _ _ => ?_
  refine .result ?_
  rw [map_name_resolvers, entryText, ← hambiguity, ← hguards]
  simp only [lineText, ← Line.blockText_append]
  rfl

/-! ## What the fragments say of the entry point -/

/-- The fault of an entry point is the first one among those of its levels and its fragments. -/
theorem faultOf?_dispatcherText_build (r : Renderer) (level : Int) (name callee : String)
    (isVoid : Bool) (signatures : List Signature) :
    faultOf? (r.dispatcherText (Dispatcher.build name signatures isVoid callee) level) =
      (faultOf? (r.requireLevel level)).or ((faultOf? (r.requireLevel (level + 1))).or
        (((r.fragments level isVoid signatures).findSome? faultOf?).or
          (faultOf? (r.requireLevel (level + 2))))) := by
  rw [dispatcherText_build, fragments, List.findSome?_cons, ← faultOf?_mapM]
  cases r.requireLevel level with
  | error f => rfl
  | ok _ =>
    cases r.requireLevel (level + 1) with
    | error f => rfl
    | ok _ =>
      cases r.guardText (Guard.ambiguity signatures) (some (level + 1)) with
      | error f => rfl
      | ok ambiguity =>
        cases signatures.mapM fun s => r.guardText (Guard.dispatch s isVoid) (some (level + 2)) with
        | error f => rfl
        | ok guards => cases r.requireLevel (level + 2) <;> rfl

/-- The renderer of an extension module as it is usually written. -/
def extensionModule (capacity : Option Nat) : Renderer :=
  ⟨some .compiled, Dialect.compiled.unit, Dialect.compiled.level, HostTable.standard, capacity⟩

/-- A guard of an extension module has the text that it has as a fragment of one. -/
theorem guardText_extensionModule (capacity : Option Nat) (g : Guard) (level : Int) :
    (extensionModule capacity).guardText g (some level) =
      g.source (OverloadSet.fragmentOptions level) capacity := by
  have hsource : g.source (OverloadSet.fragmentOptions level) capacity = (do
      let lines ← { extensionModule capacity with level := level }.guardLines level g
      return Line.blockText (extensionModule capacity).unit lines) := rfl
  rw [hsource, guardLines_withLevel]
  rfl

/-- Whether the levels of the lines around the fragments of an entry point can be written. -/
structure Reaches (r : Renderer) (level : Int) : Prop where
  /-- The level of the entry point. -/
  entry : r.requireLevel level = .ok ()
  /-- The level of its resolvers and of its loop. -/
  inner : r.requireLevel (level + 1) = .ok ()
  /-- The level of the loop's body. -/
  body : r.requireLevel (level + 2) = .ok ()

/-- An entry point is written exactly if its levels and its fragments can be, and then its text is
made of theirs with the lines around them. Otherwise the first of these that fails is at fault. -/
theorem dispatcherText_assembles_fragments (r : Renderer) (level : Int) (name callee : String)
    (isVoid : Bool) (signatures : List Signature) :
    (∀ text, r.dispatcherText (Dispatcher.build name signatures isVoid callee) level = .ok text ↔
      r.Reaches level ∧ ∃ ambiguity guards,
        r.fragments level isVoid signatures = (ambiguity :: guards).map .ok ∧
        text = r.entryText level name isVoid callee signatures ambiguity guards) ∧
    faultOf? (r.dispatcherText (Dispatcher.build name signatures isVoid callee) level) =
      (faultOf? (r.requireLevel level)).or ((faultOf? (r.requireLevel (level + 1))).or
        (((r.fragments level isVoid signatures).findSome? faultOf?).or
          (faultOf? (r.requireLevel (level + 2))))) ∧
    (r.Reaches level →
      faultOf? (r.dispatcherText (Dispatcher.build name signatures isVoid callee) level) =
        (r.fragments level isVoid signatures).findSome? faultOf?) ∧
    ∀ (o : OverloadSet) (capacity : Option Nat),
      (extensionModule capacity).fragments level isVoid o.held =
        o.ambiguitySource (level + 1) capacity ::
          o.held.map fun s => OverloadSet.signatureSource s isVoid (level + 2) capacity := by
  have hfault := faultOf?_dispatcherText_build r level name callee isVoid signatures
  refine ⟨fun text => ?_, hfault, fun hreaches => ?_, fun o capacity => ?_⟩
  · simp only [dispatcherText_build, bind_eq_ok_iff, mapM_eq_ok_iff, fragments, List.map_cons,
      List.cons.injEq]
    constructor
    · rintro ⟨_, hentry, _, hinner, ambiguity, hambiguity, guards, hguards, _, hbody, h⟩
      exact ⟨⟨hentry, hinner, hbody⟩, ambiguity, guards, ⟨hambiguity, hguards⟩,
        (Except.ok.inj h).symm⟩
    · rintro ⟨⟨hentry, hinner, hbody⟩, ambiguity, guards, ⟨hambiguity, hguards⟩, rfl⟩
      exact ⟨(), hentry, (), hinner, ambiguity, hambiguity, guards, hguards, (), hbody, rfl⟩
  · rw [hfault, hreaches.entry, hreaches.inner, hreaches.body]
    simp [faultOf?]
  · simp only [fragments, guardText_extensionModule]
    rfl

/-- Overloads of which the second one has a parameter without a value. -/
def valuelessOverloads : List Signature :=
  [[{ name := "flag", type := ⟨"bool", [], .basic, by decide⟩ }],
    [{ name := "nothing", type := ⟨"void", [], .void, by decide⟩ }]]

/-- An entry point at the top level has the fault of its fragment that cannot be written. -/
theorem valuelessOverloads_fault :
    (extensionModule none).Reaches 0 ∧
    faultOf? ((extensionModule none).dispatcherText
        (Dispatcher.build "f" valuelessOverloads false nativeCallee) 0) =
      some (.noHostCheck "void") := by
  have hreaches : (extensionModule none).Reaches 0 := ⟨rfl, rfl, rfl⟩
  obtain ⟨-, -, hfault, -⟩ := dispatcherText_assembles_fragments (extensionModule none) 0 "f"
    nativeCallee false valuelessOverloads
  exact ⟨hreaches, hfault hreaches⟩

/-- The plain dialect without indentation. -/
def unindented : Renderer := ⟨some .interpreted, "", 0, HostTable.standard, none⟩

/-- Without overloads no fragment is at fault where the level of the loop's body is. -/
theorem unindented_fault_without_fragment :
    unindented.fragments 9223372036854775806 false [] = [.ok ""] ∧
    unindented.dispatcherText (Dispatcher.build "f" [] false nativeCallee) 9223372036854775806 =
      .error .levelTooWide ∧
    ¬ (faultOf? (unindented.dispatcherText (Dispatcher.build "f" [] false nativeCallee)
        9223372036854775806) =
      (unindented.fragments 9223372036854775806 false []).findSome? faultOf?) := by
  have hentry : unindented.requireLevel 9223372036854775806 = .ok () :=
    Line.requireLevel_empty (by decide)
  have hinner : unindented.requireLevel (9223372036854775806 + 1) = .ok () :=
    Line.requireLevel_empty (by decide)
  have hbody : unindented.requireLevel (9223372036854775806 + 2) = .error .levelTooWide := rfl
  have hfragments : unindented.fragments 9223372036854775806 false [] = [.ok ""] := rfl
  have hfault := faultOf?_dispatcherText_build unindented 9223372036854775806 "f" nativeCallee
    false []
  rw [hentry, hinner, hfragments, hbody] at hfault
  refine ⟨hfragments, faultOf?_eq_some_iff.mp hfault, ?_⟩
  rw [hfragments, hfault]
  decide

end Renderer

end OverloadDispatch
