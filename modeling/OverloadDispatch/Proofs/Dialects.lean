import Mathlib.Data.List.Forall2
import OverloadDispatch.Host.Comparison

/-!
# Agreement of the dialects

The two dialects refuse the same guards with the same fault. Where no wrapped class is checked they
also write the same lines, apart from conversions of values that have passed their checks: the tests
of the number of arguments differ in their spaces, and all other lines do not differ at all.
-/

namespace OverloadDispatch

/-! ## Texts without their spaces -/

/-- The characters of a text that are no spaces. -/
def unspaced (text : String) : List Char := text.toList.filter (· != ' ')

@[simp] theorem unspaced_append (s t : String) : unspaced (s ++ t) = unspaced s ++ unspaced t := by
  simp [unspaced]

/-- Separators that differ in spaces join texts to texts that differ in spaces. -/
theorem unspaced_intercalate {separator other : String} (h : unspaced separator = unspaced other)
    (texts : List String) :
    unspaced (String.intercalate separator texts) = unspaced (String.intercalate other texts) := by
  induction texts with
  | nil => simp
  | cons first rest ih =>
    cases rest with
    | nil => simp
    | cons second rest => simp only [String.intercalate_cons_cons, unspaced_append, h, ih]

namespace Statement

/-- Whether a line tests the number of arguments. -/
def isCountTest : Statement → Bool
  | ifAmbiguous _ _ => true
  | ifArity _ _ => true
  | _ => false

/-- Whether a line converts a value that has passed its check. -/
def isConversion : Statement → Bool
  | cast _ _ => true
  | convert _ _ => true
  | _ => false

/-- The operators of an ambiguity test may stand between spaces or not. -/
theorem unspaced_text_ifAmbiguous (spaced other : Bool) (arities : List Int) :
    unspaced (ifAmbiguous spaced arities).text = unspaced (ifAmbiguous other arities).text := by
  have htext (spaced : Bool) : unspaced (ifAmbiguous spaced arities).text =
      unspaced "if len(kwargs)==0 and len(args)+len(kwargs) in [" ++
        unspaced (integers "," arities) ++ unspaced "]:" := by
    cases spaced with
    | false =>
      change unspaced (_ ++ integers "," arities ++ "]:") = _
      rw [unspaced_append, unspaced_append]
    | true =>
      have hopen : unspaced "if len(kwargs) == 0 and len(args) + len(kwargs) in [" =
          unspaced "if len(kwargs)==0 and len(args)+len(kwargs) in [" := by decide +kernel
      have hlist : unspaced (integers ", " arities) = unspaced (integers "," arities) :=
        unspaced_intercalate (by decide) _
      change unspaced (_ ++ integers ", " arities ++ "]:") = _
      rw [unspaced_append, unspaced_append, hopen, hlist]
  rw [htext, htext]

/-- The operators of an arity test may stand between spaces or not. -/
theorem unspaced_text_ifArity (spaced other : Bool) (arity : Int) :
    unspaced (ifArity spaced arity).text = unspaced (ifArity other arity).text := by
  have htext (spaced : Bool) : unspaced (ifArity spaced arity).text =
      unspaced "if len(args)+len(kwargs) != " ++ unspaced (toString arity) ++ unspaced ":" := by
    cases spaced with
    | false =>
      change unspaced (_ ++ toString arity ++ ":") = _
      rw [unspaced_append, unspaced_append]
    | true =>
      have hopen : unspaced "if len(args) + len(kwargs) != " =
          unspaced "if len(args)+len(kwargs) != " := by decide +kernel
      change unspaced (_ ++ toString arity ++ ":") = _
      rw [unspaced_append, unspaced_append, hopen]
  rw [htext, htext]

end Statement

/-! ## Lines that make the same checks -/

namespace Line

/-- Whether two lines say the same, up to spaces where they test the number of arguments. -/
structure SaysSame (unit : String) (l m : Line) : Prop where
  /-- They differ in spaces only. -/
  unspaced : unspaced (l.text unit) = unspaced (m.text unit)
  /-- Both test the number of arguments or neither does. -/
  isCountTest : l.statement.isCountTest = m.statement.isCountTest
  /-- Where they do not, they are the same. -/
  text : l.statement.isCountTest = false → l.text unit = m.text unit

theorem SaysSame.refl (unit : String) (l : Line) : SaysSame unit l l := ⟨rfl, rfl, fun _ => rfl⟩

/-- Tests of the number of arguments say the same where their texts differ in spaces only. -/
theorem SaysSame.of_isCountTest {unit : String} {level : Int} {s t : Statement}
    (hs : s.isCountTest = true) (ht : t.isCountTest = true)
    (h : OverloadDispatch.unspaced s.text = OverloadDispatch.unspaced t.text) :
    SaysSame unit ⟨level, 0, s⟩ ⟨level, 0, t⟩ where
  unspaced := by
    simp only [Line.text, unspaced_append, h]
    rfl
  isCountTest := hs.trans ht.symm
  text hnot := by
    rw [hs] at hnot
    cases hnot

/-- The lines without the conversions. -/
def withoutConversions (lines : List Line) : List Line :=
  lines.filter fun l => !l.statement.isConversion

/-- Whether lines without their conversions say the same one by one. -/
def SayAlike (unit : String) (lines others : List Line) : Prop :=
  List.Forall₂ (SaysSame unit) (withoutConversions lines) (withoutConversions others)

theorem SayAlike.refl (unit : String) (lines : List Line) : SayAlike unit lines lines :=
  List.forall₂_same.mpr fun l _ => .refl unit l

theorem SayAlike.append {unit : String} {front front' back back' : List Line}
    (hfront : SayAlike unit front front') (hback : SayAlike unit back back') :
    SayAlike unit (front ++ back) (front' ++ back') := by
  rw [SayAlike, withoutConversions, withoutConversions, List.filter_append, List.filter_append]
  exact List.rel_append hfront hback

/-- Conversions behind the same lines make no difference. -/
theorem SayAlike.append_conversions {unit : String} (front : List Line) {back back' : List Line}
    (hback : ∀ l ∈ back, l.statement.isConversion = true)
    (hback' : ∀ l ∈ back', l.statement.isConversion = true) :
    SayAlike unit (front ++ back) (front ++ back') := by
  refine .append (.refl unit front) ?_
  have hnone {lines : List Line} (h : ∀ l ∈ lines, l.statement.isConversion = true) :
      withoutConversions lines = [] :=
    List.filter_eq_nil_iff.mpr fun l hl => by simp [h l hl]
  rw [SayAlike, hnone hback, hnone hback']
  exact .nil

/-- The lines that look up, test and refuse the value bound to a name. -/
def tested (level : Int) (name : String) (check : HostCheck) : List Line :=
  [⟨level, 0, .fetch name⟩, ⟨level, 0, .ifFails name check⟩, ⟨level, 1, .raiseValue name⟩]

end Line

/-! ## The dialects -/

namespace Dialect

/-- The renderer of a dialect. -/
def renderer (d : Dialect) (unit : String) (level : Int) (checks : HostTable)
    (capacity : Option Nat) : Renderer :=
  ⟨some d, unit, level, checks, capacity⟩

/-- What a dialect adds to a check is a conversion. -/
theorem isConversion_of_mem_conversion? (d : Dialect) (name : String) (t : QualifiedType)
    (check : HostCheck) :
    ∀ s ∈ (d.conversion? name t check).toList, s.isConversion = true := by
  intro s hs
  rcases conversion?_cases (Option.mem_toList.mp hs) with ⟨typeName, rfl⟩ | ⟨converter, rfl⟩
  · rfl
  · rfl

theorem isConversion_of_mem_lines (d : Dialect) (level : Int) (name : String) (t : QualifiedType)
    (check : HostCheck) :
    ∀ l ∈ (d.conversion? name t check).toList.map (Line.mk level 0),
      l.statement.isConversion = true := by
  intro l hl
  obtain ⟨s, hs, rfl⟩ := List.mem_map.mp hl
  exact d.isConversion_of_mem_conversion? name t check s hs

variable (unit : String) (own own' : Int) (checks : HostTable) (capacity : Option Nat)

/-- The lines that look up, test and refuse a value are the same in all dialects. -/
theorem coercionLines_renderer (d : Dialect) {level : Int} {name : String} {t : QualifiedType}
    (ht : t.category ≠ .wrapped) :
    (d.renderer unit own checks capacity).coercionLines level name t =
      (checks.check t).map fun check => Line.tested level name check ++
        (d.conversion? name t check).toList.map (Line.mk level 0) := by
  unfold Renderer.coercionLines
  split
  · next hwrapped => exact absurd hwrapped ht
  · change (checks.check t >>= _) = _
    cases checks.check t <;> rfl

/-- The dialects correspond in whether they write a guard. -/
theorem corresponds_true :
    (compiled.renderer unit own checks capacity).Corresponds
      (interpreted.renderer unit own' checks capacity) (fun _ => True) (fun _ _ => True) where
  refl _ := trivial
  append _ _ := trivial
  unit := rfl
  capacity := rfl
  conditions := .result fun _ => ⟨fun _ => trivial, fun _ => trivial⟩
  coercions level name t _ := by
    by_cases ht : t.category = .wrapped
    · unfold Renderer.coercionLines
      rw [ht]
      exact .result trivial
    · rw [coercionLines_renderer _ _ _ _ _ ht, coercionLines_renderer _ _ _ _ _ ht]
      cases checks.check t with
      | error f => exact .fault f
      | ok check => exact .result trivial

/-- The dialects correspond in what they write where no wrapped class is checked. -/
theorem corresponds_sayAlike :
    (compiled.renderer unit own checks capacity).Corresponds
      (interpreted.renderer unit own' checks capacity) (fun t => t.category ≠ .wrapped)
      (Line.SayAlike unit) where
  refl := .refl unit
  append := .append
  unit := rfl
  capacity := rfl
  conditions := .result fun level => by
    refine ⟨fun arities => ?_, fun arity => ?_⟩
    · exact .cons (.of_isCountTest rfl rfl (Statement.unspaced_text_ifAmbiguous _ _ _)) .nil
    · exact .cons (.of_isCountTest rfl rfl (Statement.unspaced_text_ifArity _ _ _)) .nil
  coercions level name t ht := by
    rw [coercionLines_renderer _ _ _ _ _ ht, coercionLines_renderer _ _ _ _ _ ht]
    cases checks.check t with
    | error f => exact .fault f
    | ok check =>
      refine .result (.append_conversions _ ?_ ?_)
      · exact isConversion_of_mem_lines compiled level name t check
      · exact isConversion_of_mem_lines interpreted level name t check

end Dialect

/-- The dialects meet the same fault in every guard. Without wrapped classes their lines say the
same one by one, up to conversions and spaces. -/
theorem Guard.dialects_make_same_checks (unit : String) (own own' : Int) (checks : HostTable)
    (capacity : Option Nat) (g : Guard) (level : Int) :
    (∀ fault,
      (Dialect.compiled.renderer unit own checks capacity).guardText g (some level) =
          .error fault ↔
        (Dialect.interpreted.renderer unit own' checks capacity).guardText g (some level) =
          .error fault) ∧
    ((∀ t ∈ Node.typesAll g, t.category ≠ .wrapped) → ∀ lines lines',
      (Dialect.compiled.renderer unit own checks capacity).guardLines level g = .ok lines →
      (Dialect.interpreted.renderer unit own' checks capacity).guardLines level g = .ok lines' →
        Line.SayAlike unit lines lines') ∧
    ∀ name (t : QualifiedType), t.category ≠ .wrapped → ∀ block block',
      (Dialect.compiled.renderer unit own checks capacity).coercionLines level name t =
        .ok block →
      (Dialect.interpreted.renderer unit own' checks capacity).coercionLines level name t =
        .ok block' →
        ∃ check, checks.check t = .ok check ∧ ∃ conversion conversion' : Option Statement,
          (∀ s ∈ conversion.toList ++ conversion'.toList, s.isConversion = true) ∧
          block = Line.tested level name check ++ conversion.toList.map (Line.mk level 0) ∧
          block' = Line.tested level name check ++ conversion'.toList.map (Line.mk level 0) := by
  refine ⟨fun fault => ?_, fun hg lines lines' hlines hlines' => ?_, ?_⟩
  · have hlines := (Dialect.corresponds_true unit own own' checks capacity).guardLines level g
      fun _ _ => trivial
    have htexts := hlines.bind fun lines lines' _ => EndAlike.result (ε := Fault)
      (R := fun _ _ => True) (a := Line.blockText unit lines) (b := Line.blockText unit lines') trivial
    exact htexts.error_iff fault
  · have hlines_alike :=
      (Dialect.corresponds_sayAlike unit own own' checks capacity).guardLines level g hg
    exact hlines_alike.related hlines hlines'
  · intro name t ht block block' hblock hblock'
    rw [Dialect.coercionLines_renderer _ _ _ _ _ ht] at hblock hblock'
    cases hcheck : checks.check t with
    | error f =>
      rw [hcheck] at hblock
      cases hblock
    | ok check =>
      rw [hcheck] at hblock hblock'
      obtain rfl := Except.ok.inj hblock
      obtain rfl := Except.ok.inj hblock'
      exact ⟨check, rfl, _, _, List.forall_mem_append.mpr
        ⟨Dialect.compiled.isConversion_of_mem_conversion? name t check,
          Dialect.interpreted.isConversion_of_mem_conversion? name t check⟩, rfl, rfl⟩

/-- The type that a single word names. -/
def QualifiedType.ofWord (word : Text.Identifier) : QualifiedType :=
  .classified word.text [] word.text_ne_empty

/-- The type of the floating-point numbers. -/
def QualifiedType.double : QualifiedType := .ofWord ⟨"double", by decide⟩

/-- A guard that tests the number of arguments and coerces a number and a matrix. -/
def Guard.numberAndMatrix : Guard :=
  [.ambiguityCheck [1, 2] Node.ambiguousCall,
    .coerceAll [.coerce "x" .double, .coerce "m" (.ofWord ⟨"Matrix", by decide⟩)]
      (.arityCheck 2 (.noMatch false))]

/-- Its lines in the two dialects say the same, and so do those of the coercion of the number. -/
theorem Guard.numberAndMatrix_sayAlike :
    (∀ t ∈ Node.typesAll numberAndMatrix, t.category ≠ .wrapped) ∧
    (∃ lines lines',
      (Dialect.compiled.renderer "\t" 2 HostTable.standard none).guardLines 1 numberAndMatrix =
        .ok lines ∧
      (Dialect.interpreted.renderer "\t" 1 HostTable.standard none).guardLines 1 numberAndMatrix =
        .ok lines' ∧ Line.SayAlike "\t" lines lines') ∧
    ∃ block block' check,
      (Dialect.compiled.renderer "\t" 2 HostTable.standard none).coercionLines 1 "x" .double =
        .ok block ∧
      (Dialect.interpreted.renderer "\t" 1 HostTable.standard none).coercionLines 1 "x" .double =
        .ok block' ∧
      Line.tested 1 "x" check <+: block ∧ Line.tested 1 "x" check <+: block' := by
  have htypes : ∀ t ∈ Node.typesAll numberAndMatrix, t.category ≠ .wrapped := by decide
  obtain ⟨-, hlines, hblocks⟩ :=
    dialects_make_same_checks "\t" 2 1 HostTable.standard none numberAndMatrix 1
  obtain ⟨check, -, _, _, -, hblock, hblock'⟩ := hblocks "x" .double (by decide) _ _ rfl rfl
  exact ⟨htypes, ⟨_, _, rfl, rfl, hlines htypes _ _ rfl rfl⟩, _, _, check, rfl, rfl, ⟨_, hblock.symm⟩,
    ⟨_, hblock'.symm⟩⟩

end OverloadDispatch
