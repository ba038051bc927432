import Mathlib.Data.List.Pairwise
import Mathlib.Tactic.Tauto
import OverloadDispatch.Guard.Build
import OverloadDispatch.Host.Names
import OverloadDispatch.Host.Renderer
import OverloadDispatch.Signature.Reader

/-!
# Captured names

The lines of a resolver are the checks in front of its coercions, one block of lines for each
parameter, and the lines behind them. A block assigns the local of its parameter in its first line
and reads the names of its type's coercion; the lines behind the blocks read the name of the
exception and the native call. So whether a name is captured depends on the name of each parameter
and on the types of the same and of later parameters, and nothing else is looked at when a guard is
built: a parameter may have the name of the class that its own check accepts.
-/

namespace OverloadDispatch

open Statement

/-! ## The block of one coercion -/

/-- The lines that coerce the value of one parameter and read the given names. -/
structure IsCoercion (name : String) (names : List String) (block : List Statement) : Prop where
  /-- The first line assigns the local of the parameter. -/
  first : ∃ statement rest, block = statement :: rest ∧ statement.coerced? = some name
  /-- No other local is assigned. -/
  only : ∀ statement ∈ block, ∀ other ∈ statement.coerced?, other = name
  /-- The names are those that are read in another role. -/
  mem_readBy : ∀ other, other ∈ readBy block ↔ other ∈ names

namespace IsCoercion

variable {name : String} {names : List String} {block : List Statement}

/-- Nothing is captured in a block if the name of the parameter is not read in it. -/
theorem captureFree_iff (h : IsCoercion name names block) :
    CaptureFree block ↔ name ∉ names := by
  rw [← h.mem_readBy]
  constructor
  · rintro ⟨own, later⟩ hread
    obtain ⟨statement, rest, rfl, hname⟩ := h.first
    obtain ⟨other, hother, hname'⟩ := List.mem_flatMap.mp hread
    rcases List.mem_cons.mp hother with rfl | hrest
    · exact own other List.mem_cons_self name hname hname'
    · exact (List.pairwise_cons.mp later).1 other hrest name hname hname'
  · intro hname
    have hfree : ∀ statement ∈ block, ∀ other ∈ block, ∀ local' ∈ statement.coerced?,
        local' ∉ other.reads := by
      intro statement hstatement other hother local' hlocal hread
      obtain rfl := h.only statement hstatement local' hlocal
      exact hname (List.mem_flatMap.mpr ⟨other, hother, hread⟩)
    exact ⟨fun statement hstatement => hfree statement hstatement statement hstatement,
      List.pairwise_of_forall_mem_list hfree⟩

/-- The lines behind a block capture nothing of it if they do not read the name of the parameter. -/
theorem captureFree_append_iff (h : IsCoercion name names block) {rest : List Statement} :
    CaptureFree (block ++ rest) ↔ (name ∉ names ∧ name ∉ readBy rest) ∧ CaptureFree rest := by
  have hlocals : (∀ statement ∈ block, ∀ other ∈ statement.coerced?, other ∉ readBy rest) ↔
      name ∉ readBy rest := by
    constructor
    · obtain ⟨statement, others, rfl, hname⟩ := h.first
      exact fun hall => hall statement List.mem_cons_self name hname
    · intro hname statement hstatement other hother
      rwa [h.only statement hstatement other hother]
  rw [captureFree_append, h.captureFree_iff, hlocals]
  tauto

end IsCoercion

/-- A host check and a conversion behind it are a coercion. -/
theorem isCoercion_checked (name : String) (check : HostCheck) {conversion : List Statement}
    (hconversion : ∀ statement ∈ conversion, statement.coerced? = some name) :
    IsCoercion name
      (["__params", "isinstance", "TypeError"] ++ (check.accepts ++ check.rejects).flatMap rootNames ++
        readBy conversion)
      ([fetch name, ifFails name check, raiseValue name] ++ conversion) where
  first := ⟨fetch name, _, rfl, rfl⟩
  only := by
    refine List.forall_mem_append.mpr ⟨by simp [coerced?], fun statement hstatement other hother => ?_⟩
    rw [hconversion statement hstatement] at hother
    exact (Option.some.inj hother).symm
  mem_readBy other := by
    simp only [readBy_append, List.mem_append]
    refine or_congr_left ?_
    simp only [readBy, reads, List.flatMap_cons, List.flatMap_nil, List.mem_append, List.mem_cons,
      List.not_mem_nil]
    tauto

/-- The conversion assigns the local of the parameter and reads its own names. -/
theorem Dialect.conversion?_spec (d : Dialect) (name : String) (t : QualifiedType)
    (check : HostCheck) :
    (∀ statement ∈ (d.conversion? name t check).toList, statement.coerced? = some name) ∧
      readBy (d.conversion? name t check).toList = d.conversionNames t check := by
  cases d with
  | compiled => cases h : t.isBasic <;> simp [conversion?, conversionNames, readBy, reads, coerced?, h]
  | interpreted =>
    cases h : check.converter <;> simp [conversion?, conversionNames, readBy, reads, coerced?, h]

/-- The test for a wrapped class is a coercion. -/
theorem isCoercion_wrapped (d : Dialect) (level : Int) (name : String) {t : QualifiedType}
    (checks : HostTable) (h : t.category = .wrapped) :
    IsCoercion name (d.coercionNames checks t)
      ((d.wrappedLines level name t).map Line.statement) := by
  simp only [Dialect.coercionNames, h]
  cases d with
  | compiled =>
    exact ⟨⟨_, _, rfl, rfl⟩, by simp [Dialect.wrappedLines, coerced?],
      fun other => by simp [Dialect.wrappedLines, readBy, reads]⟩
  | interpreted =>
    refine ⟨⟨_, _, rfl, rfl⟩, by simp [Dialect.wrappedLines, coerced?], fun other => ?_⟩
    simp only [Dialect.wrappedLines, readBy, reads, List.map_cons, List.map_nil,
      List.flatMap_cons, List.flatMap_nil, List.mem_append, List.mem_cons, List.not_mem_nil]
    tauto

namespace Renderer

variable {r : Renderer} {d : Dialect}

theorem requireDialect_eq (hd : r.dialect = some d) : r.requireDialect = .ok d := by
  rw [requireDialect, hd]

/-- A host check that is found makes a coercion. -/
theorem isCoercion_checkedLines (hd : r.dialect = some d) {level : Int} {name : String}
    {t : QualifiedType} {lines : List Line} (hcategory : t.category ≠ .wrapped)
    (h : r.checkedLines level name t = .ok lines) :
    IsCoercion name (d.coercionNames r.checks t) (lines.map Line.statement) := by
  obtain ⟨check, hcheck, h⟩ := bind_eq_ok_iff.mp h
  obtain ⟨d', hd', h⟩ := bind_eq_ok_iff.mp h
  obtain rfl := Except.ok.inj ((requireDialect_eq hd).symm.trans hd')
  obtain rfl := Except.ok.inj h
  obtain ⟨hlocals, hnames⟩ := d.conversion?_spec name t check
  have hfound := HostTable.check_eq_ok_iff.mp hcheck
  have hblock := isCoercion_checked name check hlocals
  rw [hnames] at hblock
  have hcoercion : d.coercionNames r.checks t =
      ["__params", "isinstance", "TypeError"] ++
        (check.accepts ++ check.rejects).flatMap rootNames ++ d.conversionNames t check := by
    unfold Dialect.coercionNames
    split
    · next hwrapped => exact absurd hwrapped hcategory
    · rw [hfound]
  rw [hcoercion]
  simpa [Function.comp_def] using hblock

/-- The lines of a coercion read the names of the coercion to the type. -/
theorem isCoercion_coercionLines (hd : r.dialect = some d) {level : Int} {name : String}
    {t : QualifiedType} {lines : List Line} (h : r.coercionLines level name t = .ok lines) :
    IsCoercion name (d.coercionNames r.checks t) (lines.map Line.statement) := by
  unfold coercionLines at h
  split at h
  · next hwrapped =>
    obtain ⟨d', hd', h⟩ := bind_eq_ok_iff.mp h
    obtain rfl := Except.ok.inj ((requireDialect_eq hd).symm.trans hd')
    obtain rfl := Except.ok.inj h
    exact isCoercion_wrapped d level name r.checks hwrapped
  · next hcategory => exact isCoercion_checkedLines hd hcategory h

/-! ## The lines of a resolver -/

/-- A node is written behind the check of its level. -/
theorem nodeLines_coerce {level : Int} {p : Parameter} {lines : List Line}
    (h : r.nodeLines level (Guard.coercion p) = .ok lines) :
    r.coercionLines level p.name p.type = .ok lines := by
  unfold nodeLines at h
  obtain ⟨-, -, h⟩ := bind_eq_ok_iff.mp h
  exact h

/-- A guard is written node by node. -/
theorem guardLines_cons {level : Int} {node : Node} {rest : List Node} {lines : List Line}
    (h : r.guardLines level (node :: rest) = .ok lines) :
    ∃ first others, lines = first ++ others ∧ r.nodeLines level node = .ok first ∧
      r.guardLines level rest = .ok others := by
  unfold guardLines at h
  obtain ⟨first, hfirst, h⟩ := bind_eq_ok_iff.mp h
  obtain ⟨others, hothers, h⟩ := bind_eq_ok_iff.mp h
  exact ⟨first, others, (Except.ok.inj h).symm, hfirst, hothers⟩

/-- The first of several coercions is written in front of the others. -/
theorem guardLines_coercions_cons {level : Int} {p : Parameter} {s : Signature} {lines : List Line}
    (h : r.guardLines level ((p :: s).map Guard.coercion) = .ok lines) :
    ∃ block rest, lines = block ++ rest ∧ r.coercionLines level p.name p.type = .ok block ∧
      r.guardLines level (s.map Guard.coercion) = .ok rest := by
  obtain ⟨block, rest, hlines, hblock, hrest⟩ := guardLines_cons h
  exact ⟨block, rest, hlines, nodeLines_coerce hblock, hrest⟩

/-- The names that the coercions of a signature read are those of the coercions to its types. -/
theorem mem_readBy_coercions (hd : r.dialect = some d) {level : Int} {s : Signature}
    {lines : List Line} (h : r.guardLines level (s.map Guard.coercion) = .ok lines)
    (name : String) :
    name ∈ readBy (lines.map Line.statement) ↔
      ∃ p ∈ s, name ∈ d.coercionNames r.checks p.type := by
  induction s generalizing lines with
  | nil =>
    obtain rfl := Except.ok.inj h
    simp [readBy]
  | cons p s ih =>
    obtain ⟨block, rest, rfl, hblock, hrest⟩ := guardLines_coercions_cons h
    rw [List.map_append, readBy_append, List.mem_append, ih hrest,
      (isCoercion_coercionLines hd hblock).mem_readBy]
    simp

/-- What the coercions of a signature capture, with the lines behind them. -/
theorem captureFree_coercions (hd : r.dialect = some d) {level : Int} {s : Signature}
    {lines : List Line} (h : r.guardLines level (s.map Guard.coercion) = .ok lines)
    {back : List Statement} (hback : ∀ statement ∈ back, statement.coerced? = none) :
    CaptureFree (lines.map Line.statement ++ back) ↔
      (∀ p ∈ s, p.name ∉ readBy back ∧ p.name ∉ d.coercionNames r.checks p.type) ∧
        s.Pairwise fun p q => p.name ∉ d.coercionNames r.checks q.type := by
  induction s generalizing lines with
  | nil =>
    obtain rfl := Except.ok.inj h
    exact iff_of_true (captureFree_of_forall_eq_none hback) ⟨List.forall_mem_nil _, .nil⟩
  | cons p s ih =>
    obtain ⟨block, rest, rfl, hblock, hrest⟩ := guardLines_coercions_cons h
    have hnames := mem_readBy_coercions hd hrest p.name
    rw [List.map_append, List.append_assoc,
      (isCoercion_coercionLines hd hblock).captureFree_append_iff, ih hrest, readBy_append,
      List.mem_append, hnames, List.forall_mem_cons, List.pairwise_cons]
    simp only [not_or, not_exists, not_and]
    tauto

/-- The statement that reports no match. -/
theorem nodeLines_noMatch {level : Int} {isVoid : Bool} {lines : List Line}
    (h : r.nodeLines level (.noMatch isVoid) = .ok lines) :
    lines.map Line.statement = [returnNoMatch isVoid] := by
  unfold nodeLines at h
  obtain ⟨-, -, h⟩ := bind_eq_ok_iff.mp h
  obtain rfl := Except.ok.inj h
  rfl

/-- The statements of an arity check that reports no match. -/
theorem nodeLines_arityCheck {level arity : Int} {isVoid : Bool} {lines : List Line}
    (h : r.nodeLines level (.arityCheck arity (.noMatch isVoid)) = .ok lines) :
    ∃ spaced, lines.map Line.statement = [ifArity spaced arity, returnNoMatch isVoid] := by
  unfold nodeLines at h
  obtain ⟨-, -, h⟩ := bind_eq_ok_iff.mp h
  obtain ⟨d, -, h⟩ := bind_eq_ok_iff.mp h
  obtain ⟨body, hbody, h⟩ := bind_eq_ok_iff.mp h
  obtain rfl := Except.ok.inj h
  exact ⟨d.spaced, by rw [List.map_cons, nodeLines_noMatch hbody]⟩

/-- The statements that bind parameters. -/
theorem nodeLines_bindParams {level : Int} {names : List String} {lines : List Line}
    (h : r.nodeLines level (.bindParams names) = .ok lines) :
    lines.map Line.statement = [bindNames names, bindPositional, bindKeywords] := by
  unfold nodeLines at h
  obtain ⟨-, -, h⟩ := bind_eq_ok_iff.mp h
  obtain rfl := Except.ok.inj h
  rfl

/-- The statements of coercions that report no match where one fails. -/
theorem nodeLines_coerceAll {level : Int} {coercions : List Node} {isVoid : Bool}
    {lines : List Line} (h : r.nodeLines level (.coerceAll coercions (.noMatch isVoid)) = .ok lines) :
    ∃ body, r.guardLines (level + 1) coercions = .ok body ∧
      lines.map Line.statement =
        openTry :: body.map Line.statement ++ [openExcept, returnNoMatch isVoid] := by
  unfold nodeLines at h
  obtain ⟨-, -, h⟩ := bind_eq_ok_iff.mp h
  obtain ⟨body, hbody, h⟩ := bind_eq_ok_iff.mp h
  obtain ⟨answer, hanswer, h⟩ := bind_eq_ok_iff.mp h
  obtain rfl := Except.ok.inj h
  exact ⟨body, hbody, by simp [nodeLines_noMatch hanswer]⟩

/-- The statements that report a match assign no parameter and read the native call. -/
theorem nodeLines_invoke {level index : Int} {names : List String} {isVoid : Bool}
    {callee : String} {lines : List Line}
    (h : r.nodeLines level (.invoke index names isVoid callee) = .ok lines) :
    (∀ statement ∈ lines.map Line.statement, statement.coerced? = none) ∧
      readBy (lines.map Line.statement) = rootNames callee := by
  unfold nodeLines at h
  obtain ⟨-, -, h⟩ := bind_eq_ok_iff.mp h
  obtain rfl := Except.ok.inj h
  cases isVoid <;> simp [invokeLines, coerced?, readBy, reads]

/-- The statements of the guard of a signature: some that assign no parameter, then the coercions,
and the answer where one fails. -/
theorem guardLines_dispatch {level : Int} {p : Parameter} {s : Signature} {isVoid : Bool}
    {lines : List Line} (h : r.guardLines level (Guard.dispatch (p :: s) isVoid) = .ok lines) :
    ∃ front body, (∀ statement ∈ front, statement.coerced? = none) ∧
      r.guardLines (level + 1) ((p :: s).map Guard.coercion) = .ok body ∧
      lines.map Line.statement =
        front ++ (body.map Line.statement ++ [openExcept, returnNoMatch isVoid]) := by
  obtain ⟨arity, lines, rfl, harity, h⟩ := guardLines_cons h
  obtain ⟨binding, lines, rfl, hbinding, h⟩ := guardLines_cons h
  obtain ⟨coercions, lines, rfl, hcoercions, h⟩ := guardLines_cons h
  obtain rfl := Except.ok.inj h
  obtain ⟨spaced, harity⟩ := nodeLines_arityCheck harity
  have hbinding := nodeLines_bindParams hbinding
  obtain ⟨body, hbody, hcoercions⟩ := nodeLines_coerceAll hcoercions
  refine ⟨[ifArity spaced (p :: s).length, returnNoMatch isVoid] ++
    [bindNames (Signature.names (p :: s)), bindPositional, bindKeywords] ++ [openTry], body,
    by simp [coerced?], hbody, ?_⟩
  simp [harity, hbinding, hcoercions]

/-- The statements of the guard of the empty signature assign no parameter. -/
theorem guardLines_dispatch_nil {level : Int} {isVoid : Bool} {lines : List Line}
    (h : r.guardLines level (Guard.dispatch [] isVoid) = .ok lines) :
    ∀ statement ∈ lines.map Line.statement, statement.coerced? = none := by
  obtain ⟨arity, lines, rfl, harity, h⟩ := guardLines_cons h
  obtain rfl := Except.ok.inj h
  obtain ⟨spaced, harity⟩ := nodeLines_arityCheck harity
  simp [harity, coerced?]

/-- A resolver is free of captures exactly if no parameter has the name of the native call or of the
exception, and the coercions to its own type and to those behind it do not read the name. -/
theorem captureFree_resolverLines_iff (hd : r.dialect = some d) {level : Int}
    {name callee : String} {isVoid : Bool} {s : Signature} {index : Nat} {lines : List Line}
    (h : r.resolverLines level (Resolver.build name isVoid callee s index) = .ok lines) :
    CaptureFree (lines.map Line.statement) ↔
      (∀ p ∈ s, p.name ∉ "Exception" :: rootNames callee ∧
        p.name ∉ d.coercionNames r.checks p.type) ∧
        s.Pairwise fun p q => p.name ∉ d.coercionNames r.checks q.type := by
  obtain ⟨guard, hguard, h⟩ := bind_eq_ok_iff.mp h
  obtain ⟨report, hreport, h⟩ := bind_eq_ok_iff.mp h
  obtain rfl := Except.ok.inj h
  obtain ⟨hquiet, hcallee⟩ := nodeLines_invoke hreport
  have hdefine : ∀ statement ∈ [defineResolver (Resolver.build name isVoid callee s index).name],
      statement.coerced? = none := by simp [coerced?]
  -- Without parameters there are no coercions at all.
  cases s with
  | nil =>
    refine iff_of_true (captureFree_of_forall_eq_none ?_) ⟨List.forall_mem_nil _, .nil⟩
    rw [List.cons_append, List.map_cons, List.map_append]
    exact List.forall_mem_append.mpr
      ⟨hdefine, List.forall_mem_append.mpr ⟨guardLines_dispatch_nil hguard, hquiet⟩⟩
  | cons p s =>
    obtain ⟨front, body, hfront, hbody, hstatements⟩ := guardLines_dispatch hguard
    have hback : ∀ statement ∈ [openExcept, returnNoMatch isVoid] ++ report.map Line.statement,
        statement.coerced? = none := List.forall_mem_append.mpr ⟨by simp [coerced?], hquiet⟩
    have hread : readBy ([openExcept, returnNoMatch isVoid] ++ report.map Line.statement) =
        "Exception" :: rootNames callee := by
      rw [readBy_append, hcallee]
      rfl
    have hcoercions := captureFree_coercions hd hbody hback
    rw [hread] at hcoercions
    rw [← hcoercions, List.cons_append, List.map_cons, List.map_append, hstatements,
      List.append_assoc, List.append_assoc]
    exact captureFree_append_of_forall_eq_none (List.forall_mem_append.mpr ⟨hdefine, hfront⟩)

/-- The plain renderer with the checks of the built-in types. -/
def plain : Renderer := ⟨some .interpreted, "    ", 1, HostTable.standard, none⟩

/-- Names that the lines read in no other role are not captured. -/
theorem plain_textParameter_captureFree :
    ∃ s lines, Signature.ofText "string text, const gtsam::Pose3& pose" = .ok s ∧
      plain.resolverLines 0 (Resolver.build "f" false nativeCallee s 0) = .ok lines ∧
      CaptureFree (lines.map Line.statement) := by
  let s : Signature :=
    [{ name := "text", type := ⟨"string", [], .basic, by decide⟩ },
      { name := "pose", type := ⟨"Pose3", ["gtsam"], .wrapped, by decide⟩, isConst := true,
        isRef := true }]
  have hread : Signature.ofText "string text, const gtsam::Pose3& pose" = .ok s :=
    eq_ok_of_toOption (by decide +kernel)
  obtain ⟨lines, hlines⟩ : ∃ lines, plain.resolverLines 0
      (Resolver.build "f" false nativeCallee s 0) = .ok lines := ⟨_, rfl⟩
  have hclear : (∀ p ∈ s, p.name ∉ "Exception" :: rootNames nativeCallee ∧
      p.name ∉ Dialect.interpreted.coercionNames plain.checks p.type) ∧
        s.Pairwise fun p q => p.name ∉ Dialect.interpreted.coercionNames plain.checks q.type := by
    decide
  exact ⟨s, lines, hread, hlines, (captureFree_resolverLines_iff rfl hlines).mpr hclear⟩

/-- A parameter may have the name of the class that its own check accepts, and captures it. -/
theorem plain_strParameter_captured :
    ∃ s lines, Signature.ofText "string str" = .ok s ∧
      plain.resolverLines 0 (Resolver.build "f" false nativeCallee s 0) = .ok lines ∧
      ifFails "str" HostTable.textCheck ∈ lines.map Line.statement ∧
      (ifFails "str" HostTable.textCheck).text = "if not isinstance(str, str):" ∧
      ¬CaptureFree (lines.map Line.statement) := by
  let s : Signature := [{ name := "str", type := ⟨"string", [], .basic, by decide⟩ }]
  have hread : Signature.ofText "string str" = .ok s := eq_ok_of_toOption (by decide +kernel)
  exact ⟨s, _, hread, rfl, by decide, by decide, by decide⟩

end Renderer

end OverloadDispatch
