import Mathlib.Data.List.Basic
import OverloadDispatch.Host.Options

/-!
# Classes that are spelled alike

The host spelling of a wrapped class keeps the components behind the outermost namespace and joins
them with underscores. It says nothing of where a component ends, only which words stand between
underscores. Two classes therefore collide exactly if they have the same words, and classes of one
outermost namespace without underscores of their own never do. The lines that check for a class show
its spelling and nothing else of it, so they collide where the spellings do.
-/

namespace OverloadDispatch

/-- What stands between the marks of a joined text is what stands between those of its parts. -/
theorem Text.splitOn_intercalate_eq_flatMap {mark : Char} {parts : List (List Char)}
    (h : parts ≠ []) :
    ([mark].intercalate parts).splitOn mark = parts.flatMap (List.splitOn mark) := by
  induction parts with
  | nil => exact absurd rfl h
  | cons first rest ih =>
    cases rest with
    | nil => simp
    | cons second rest =>
      have hcut (back : List Char) :
          (first ++ mark :: back).splitOn mark = first.splitOn mark ++ back.splitOn mark :=
        List.splitOnP_append_cons first back (beq_self_eq_true mark)
      rw [List.intercalate_cons_cons, List.append_assoc, List.singleton_append, hcut,
        ih (List.cons_ne_nil _ _), ← List.flatMap_cons]

namespace QualifiedType

variable {s t : QualifiedType}

/-! ## Words of a spelling -/

/-- The components that the host spelling of a wrapped class keeps. -/
def innerComponents (t : QualifiedType) : List String := t.namespaces.drop 1 ++ [t.name]

/-- The words between the underscores of these components. -/
def innerWords (t : QualifiedType) : List (List Char) :=
  t.innerComponents.flatMap fun component => component.toList.splitOn '_'

/-- Whether there is an underscore in a component behind the outermost namespace. -/
def HasUnderscore (t : QualifiedType) : Prop :=
  ∃ component ∈ t.innerComponents, '_' ∈ component.toList

instance (t : QualifiedType) : Decidable t.HasUnderscore :=
  inferInstanceAs (Decidable (∃ component ∈ t.innerComponents, '_' ∈ component.toList))

/-- The host spelling of a wrapped class joins its inner components. -/
theorem toList_hostSpelling (h : t.category = .wrapped) :
    t.hostSpelling.toList = ['_'].intercalate (t.innerComponents.map String.toList) := by
  rw [hostSpelling, h, String.toList_intercalate]
  rfl

/-- The words of a wrapped class stand between the underscores of its host spelling. -/
theorem splitOn_hostSpelling (h : t.category = .wrapped) :
    t.hostSpelling.toList.splitOn '_' = t.innerWords := by
  have hne : t.innerComponents.map String.toList ≠ [] := by simp [innerComponents]
  rw [toList_hostSpelling h, Text.splitOn_intercalate_eq_flatMap hne, List.flatMap_map]
  rfl

/-- Wrapped classes are spelled alike exactly if they have the same words. -/
theorem hostSpelling_eq_iff (hs : s.category = .wrapped) (ht : t.category = .wrapped) :
    s.hostSpelling = t.hostSpelling ↔ s.innerWords = t.innerWords := by
  rw [← splitOn_hostSpelling hs, ← splitOn_hostSpelling ht, ← String.toList_inj]
  constructor
  · exact fun h => congrArg (List.splitOn '_') h
  · have hjoined (text : List Char) : ['_'].intercalate (text.splitOn '_') = text :=
      List.intercalate_splitOn '_'
    intro h
    rw [← hjoined s.hostSpelling.toList, h, hjoined]

/-- Without underscores the words are the components. -/
theorem innerWords_of_not_hasUnderscore (h : ¬t.HasUnderscore) :
    t.innerWords = t.innerComponents.map String.toList := by
  have hword : ∀ component ∈ t.innerComponents,
      component.toList.splitOn '_' = [component.toList] := by
    intro component hcomponent
    refine List.splitOnP_eq_singleton fun c hc => beq_eq_false_iff_ne.mpr ?_
    rintro rfl
    exact h ⟨component, hcomponent, hc⟩
  rw [innerWords, List.flatMap_congr hword, List.map_eq_flatMap]

/-- Wrapped classes of one outermost namespace are told by their inner components. -/
theorem eq_of_innerComponents_eq (hs : s.category = .wrapped) (ht : t.category = .wrapped)
    (houtermost : s.namespaces.head? = t.namespaces.head?)
    (h : s.innerComponents = t.innerComponents) : s = t := by
  obtain ⟨hdrop, hname⟩ := List.append_inj' h rfl
  have hnamespaces : s.namespaces = t.namespaces := by
    rw [← List.take_append_drop 1 s.namespaces, ← List.take_append_drop 1 t.namespaces, hdrop,
      List.take_one, List.take_one, houtermost]
  exact eq_iff.mpr ⟨(List.cons.inj hname).1, hnamespaces, hs.trans ht.symm⟩

/-- Without underscores wrapped classes of one outermost namespace are told by their spellings. -/
theorem eq_of_hostSpelling_eq (hs : s.category = .wrapped) (ht : t.category = .wrapped)
    (houtermost : s.namespaces.head? = t.namespaces.head?) (hsplain : ¬s.HasUnderscore)
    (htplain : ¬t.HasUnderscore) (h : s.hostSpelling = t.hostSpelling) : s = t := by
  have hwords := (hostSpelling_eq_iff hs ht).mp h
  rw [innerWords_of_not_hasUnderscore hsplain, innerWords_of_not_hasUnderscore htplain] at hwords
  exact eq_of_innerComponents_eq hs ht houtermost
    (List.map_injective_iff.mpr (fun _ _ => String.toList_inj.mp) hwords)

end QualifiedType

/-! ## Lines that check for a class -/

namespace Dialect

/-- The lines that check for a wrapped class show its host spelling at one place. -/
theorem exists_blockText_wrappedLines (d : Dialect) (unit : String) (level : Int) (name : String) :
    ∃ front back : String, ∀ t : QualifiedType,
      Line.blockText unit (d.wrappedLines level name t) = front ++ t.hostSpelling ++ back := by
  let indent := Line.indent unit level.toNat
  let deeper := Line.indent unit (level.toNat + 1)
  cases d with
  | compiled =>
    have htext (className : String) : (Statement.fetchChecked name className).text =
        name ++ " = <" ++ className ++ "?>(" ++ Statement.slot name ++ ")" := rfl
    refine ⟨indent ++ name ++ " = <", "?>(" ++ Statement.slot name ++ ")\n", fun t => ?_⟩
    simp [wrappedLines, Line.blockText, Line.text, Line.depth, htext, String.append_assoc, indent]
  | interpreted =>
    have htext (className : String) : (Statement.ifNotInstance name className).text =
        "if not isinstance(" ++ name ++ ", " ++ className ++ "):" := rfl
    refine ⟨indent ++ (Statement.fetch name).text ++ "\n" ++ indent ++ "if not isinstance(" ++
      name ++ ", ", "):\n" ++ deeper ++ (Statement.raiseValue name).text ++ "\n", fun t => ?_⟩
    simp [wrappedLines, Line.blockText, Line.text, Line.depth, htext, String.append_assoc, indent,
      deeper]

/-- The lines that check for two wrapped classes are the same exactly if the spellings are. -/
theorem blockText_wrappedLines_eq_iff (d : Dialect) (unit : String) (level : Int) (name : String)
    (s t : QualifiedType) :
    Line.blockText unit (d.wrappedLines level name s) =
        Line.blockText unit (d.wrappedLines level name t) ↔
      s.hostSpelling = t.hostSpelling := by
  obtain ⟨front, back, hblock⟩ := d.exists_blockText_wrappedLines unit level name
  rw [hblock, hblock, String.append_left_inj, String.append_right_inj]

end Dialect

/-- A renderer with a dialect writes the lines of the dialect for a wrapped class. -/
theorem Renderer.coercionLines_wrapped {r : Renderer} {d : Dialect} (hd : r.dialect = some d)
    {t : QualifiedType} (ht : t.category = .wrapped) (level : Int) (name : String) :
    r.coercionLines level name t = .ok (d.wrappedLines level name t) := by
  rw [coercionLines, ht, requireDialect, hd]
  rfl

/-- Wrapped classes have one host spelling, and with it the same checks, exactly if the same words
stand between the underscores of their inner components. -/
theorem QualifiedType.classes_collide_iff_words_agree {s t : QualifiedType}
    (hs : s.category = .wrapped) (ht : t.category = .wrapped)
    (houtermost : s.namespaces.head? = t.namespaces.head?) :
    (s.hostSpelling = t.hostSpelling ↔ s.innerWords = t.innerWords) ∧
    (s.hostSpelling = t.hostSpelling → s = t ∨ s.HasUnderscore ∨ t.HasUnderscore) ∧
    ∀ (r : Renderer) (d : Dialect), r.dialect = some d → ∀ level name, ∃ lines others,
      r.coercionLines level name s = .ok lines ∧ r.coercionLines level name t = .ok others ∧
      (Line.blockText r.unit lines = Line.blockText r.unit others ↔
        s.hostSpelling = t.hostSpelling) ∧
      (¬s.HasUnderscore → ¬t.HasUnderscore → s ≠ t →
        Line.blockText r.unit lines ≠ Line.blockText r.unit others) := by
  refine ⟨hostSpelling_eq_iff hs ht, fun h => ?_, fun r d hd level name => ?_⟩
  · by_cases hsplain : s.HasUnderscore
    · exact .inr (.inl hsplain)
    · by_cases htplain : t.HasUnderscore
      · exact .inr (.inr htplain)
      · exact .inl (eq_of_hostSpelling_eq hs ht houtermost hsplain htplain h)
  · have hlines := d.blockText_wrappedLines_eq_iff r.unit level name s t
    refine ⟨d.wrappedLines level name s, d.wrappedLines level name t,
      Renderer.coercionLines_wrapped hd hs level name,
      Renderer.coercionLines_wrapped hd ht level name, hlines,
      fun hsplain htplain hne hblocks => hne ?_⟩
    exact eq_of_hostSpelling_eq hs ht houtermost hsplain htplain (hlines.mp hblocks)

/-- Both dialects show where a namespace ends that has no underscore, but a class whose own name has
one is spelled like a class of a deeper namespace. -/
theorem QualifiedType.nestedClasses_collide_by_underscore :
    let base : QualifiedType := ⟨"Base", ["gtsam", "noiseModel"], .wrapped, by decide⟩
    let modelBase : QualifiedType := ⟨"ModelBase", ["gtsam", "noise"], .wrapped, by decide⟩
    let nested : QualifiedType := ⟨"Base", ["gtsam", "noise", "Model"], .wrapped, by decide⟩
    let joined : QualifiedType := ⟨"Model_Base", ["gtsam", "noise"], .wrapped, by decide⟩
    (∀ d : Dialect, ∃ lines others,
      d.ownRenderer.coercionLines 0 "model" base = .ok lines ∧
      d.ownRenderer.coercionLines 0 "model" modelBase = .ok others ∧
      Line.blockText d.unit lines ≠ Line.blockText d.unit others) ∧
    nested.hostSpelling = joined.hostSpelling ∧ nested ≠ joined := by
  intro base modelBase nested joined
  obtain ⟨-, -, htold⟩ := classes_collide_iff_words_agree (s := base) (t := modelBase) rfl rfl rfl
  obtain ⟨hcollide, -, -⟩ := classes_collide_iff_words_agree (s := nested) (t := joined) rfl rfl rfl
  refine ⟨fun d => ?_, hcollide.mpr (by decide), by decide⟩
  obtain ⟨lines, others, hlines, hothers, -, hne⟩ := htold d.ownRenderer d rfl 0 "model"
  exact ⟨lines, others, hlines, hothers, hne (by decide) (by decide) (by decide)⟩

end OverloadDispatch
