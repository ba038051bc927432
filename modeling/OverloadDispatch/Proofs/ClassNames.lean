import OverloadDispatch.Guard.Build
import OverloadDispatch.Host.Leaf
import OverloadDispatch.Host.Options
import OverloadDispatch.Proofs.Reading

/-!
# Names of wrapped classes

The lines of a resolver splice in the host spellings of its wrapped classes as they are. A chain of
names is spelled as an identifier. A type that is written with `unsigned` keeps the blanks of its
spelling, and all such types but one are taken for wrapped classes: these are the only parameters
whose class the generated code cannot name.
-/

namespace OverloadDispatch

open Text

/-! ## Host spellings of parsed types -/

/-- A name with a blank is that of one basic type; every other one is taken for a class. -/
theorem classify_of_blank {name : String} (h : ' ' ∈ name.toList) :
    classify name [] = if name = "unsigned char" then .basic else .wrapped := by
  have hother (other : String) (hplain : other.toList.contains ' ' = false) : name ≠ other := by
    rintro rfl
    rw [List.contains_iff_mem.mpr h] at hplain
    cases hplain
  have hvoid : name ≠ "void" := hother _ (by decide)
  have harray : name ∉ arrayNames := by
    simp only [arrayNames, List.mem_cons, List.not_mem_nil, or_false, not_or]
    exact ⟨hother _ (by decide), hother _ (by decide)⟩
  have hbasic : name ∈ basicNames ↔ name = "unsigned char" := by
    constructor
    · intro hname
      have hblank : ∀ basic ∈ basicNames, basic.toList.contains ' ' = true →
          basic = "unsigned char" := by decide
      exact hblank name hname (List.contains_iff_mem.mpr h)
    · rintro rfl
      decide
  rw [classify, if_neg (not_not_intro rfl), if_neg hvoid, if_neg harray]
  simp only [hbasic]

/-- The spelling of a wrapped class without namespaces is its name. -/
theorem QualifiedType.hostSpelling_of_namespaces_nil {t : QualifiedType} (h : t.namespaces = [])
    (hcategory : t.category ≠ .array) : t.hostSpelling = t.name := by
  unfold hostSpelling
  split
  · next harray => exact absurd harray hcategory
  · simp [h]
  · rfl
  · rfl

namespace Signature.ParameterTree

/-- How a tree says that the class of its parameter is spelled on the host side. -/
structure SpellsClass (tree : ParameterTree) (p : Parameter) : Prop where
  /-- Behind `unsigned` the spelling is the name of all words, with the blanks between them, and
  only one such name is not taken for that of a class. -/
  several : tree.type.isUnsigned = true → p.type.hostSpelling = p.type.name ∧
    ' ' ∈ p.type.name.toList ∧ (p.type.category = .wrapped ↔ p.type.name ≠ "unsigned char")
  /-- Otherwise no name has a blank, and a class is spelled as an identifier. -/
  chain : tree.type.isUnsigned = false → ' ' ∉ p.type.name.toList ∧
    (p.type.category = .wrapped → isIdentifier p.type.hostSpelling.toList = true)

/-- What a tree says of its parameter tells how the class is spelled. -/
theorem Describes.spellsClass {tree : ParameterTree} {p : Parameter} (h : tree.Describes p) :
    tree.SpellsClass p where
  several hunsigned := by
    obtain ⟨hname, hnamespaces⟩ := h.several hunsigned
    have hblank : ' ' ∈ p.type.name.toList := by
      rw [hname, TypeTree.words, intercalate_cons, List.map_append, List.map_append]
      simp
    have hcategory := h.category
    rw [hnamespaces, classify_of_blank hblank] at hcategory
    refine ⟨QualifiedType.hostSpelling_of_namespaces_nil hnamespaces ?_, hblank, ?_⟩
    · rw [hcategory]
      split <;> simp
    · rw [hcategory]
      split
      · next hchar => simp [hchar]
      · next hchar => simp [hchar]
  chain hunsigned := by
    obtain ⟨hname, hnamespaces⟩ := h.chain hunsigned
    refine ⟨fun hblank => ?_, fun hwrapped => ?_⟩
    · rw [hname] at hblank
      have hvalid := tree.type.last.valid
      rw [isIdentifier_eq_false_of_blank hblank] at hvalid
      cases hvalid
    · rw [QualifiedType.hostSpelling, hwrapped, hname, hnamespaces, ← List.map_drop]
      refine isIdentifier_intercalate (by simp) fun word hword => ?_
      rcases List.mem_append.mp hword with hscope | hlast
      · obtain ⟨scope, -, rfl⟩ := List.mem_map.mp hscope
        exact scope.valid
      · rw [List.mem_singleton.mp hlast]
        exact tree.type.last.valid

/-- The class of a parameter is spelled as an identifier exactly if its name has no blank. -/
theorem SpellsClass.isIdentifier_iff {tree : ParameterTree} {p : Parameter}
    (h : tree.SpellsClass p) (hwrapped : p.type.category = .wrapped) :
    isIdentifier p.type.hostSpelling.toList = true ↔ ' ' ∉ p.type.name.toList := by
  cases hunsigned : tree.type.isUnsigned with
  | true =>
    obtain ⟨hspelling, hblank, -⟩ := h.several hunsigned
    rw [hspelling, isIdentifier_eq_false_of_blank hblank]
    simp [hblank]
  | false =>
    obtain ⟨hplain, hidentifier⟩ := h.chain hunsigned
    exact iff_of_true (hidentifier hwrapped) hplain

end Signature.ParameterTree

/-! ## Class names in generated code -/

/-- The names of wrapped classes that a statement splices in. -/
def Statement.classNames : Statement → List String
  | fetchChecked _ className => [className]
  | ifNotInstance _ className => [className]
  | _ => []

/-- A class name stands as it is in a checked cast or in an instance test. -/
theorem Statement.text_of_mem_classNames {s : Statement} {className : String}
    (h : className ∈ s.classNames) :
    ∃ name, s.text = name ++ " = <" ++ className ++ "?>(" ++ slot name ++ ")" ∨
      s.text = "if not isinstance(" ++ name ++ ", " ++ className ++ "):" := by
  cases s with
  | fetchChecked name other =>
    obtain rfl := List.mem_singleton.mp h
    exact ⟨name, .inl rfl⟩
  | ifNotInstance name other =>
    obtain rfl := List.mem_singleton.mp h
    exact ⟨name, .inr rfl⟩
  | _ => cases h

/-- The names of wrapped classes that the lines of a step without parts splice in. -/
def Node.classNames : Node → List String
  | coerce _ type => if type.category = .wrapped then [type.hostSpelling] else []
  | _ => []

namespace Renderer

/-- The lines of a guard splice in the names of the wrapped classes to which it coerces. -/
theorem reflects_classNames (className : String) :
    Reflects (fun s => className ∈ s.classNames) (fun node => className ∈ node.classNames) where
  frame s hs := by cases s <;> simp [Statement.isFrame, Statement.classNames] at hs ⊢
  noMatch isVoid := Iff.rfl
  raise exception message := Iff.rfl
  bindParams names := by simp [Statement.classNames, Node.classNames]
  wrapped d level name t h := by
    cases d <;> simp [Dialect.wrappedLines, Statement.classNames, Node.classNames, h]
  checked name t check h := by simp [Statement.classNames, Node.classNames, h]
  conversion name other := ⟨List.not_mem_nil, List.not_mem_nil⟩
  invoke level index names isVoid callee := by
    cases isVoid <;> simp [invokeLines, Statement.classNames, Node.classNames]

end Renderer

/-- Coercing to a type splices in its host spelling if it is a wrapped class. -/
theorem Node.mem_classNames_coerce {className name : String} {t : QualifiedType} :
    className ∈ (coerce name t).classNames ↔
      t.category = .wrapped ∧ className = t.hostSpelling := by
  rw [classNames]
  split
  · next hwrapped => simp [hwrapped]
  · next hcategory => simp [hcategory]

/-- The coercions of a signature are steps without parts. -/
theorem Node.leavesAll_coercions (s : Signature) :
    leavesAll (s.map Guard.coercion) = s.map Guard.coercion := by
  induction s with
  | nil => rfl
  | cons p s ih => rw [List.map_cons, leavesAll, ih]; rfl

/-- The steps of a resolver are its coercions, and some that splice in no class name. -/
theorem Resolver.leaves_build (name callee : String) (isVoid : Bool) (s : Signature) (index : Nat) :
    ∃ front back, (Resolver.build name isVoid callee s index).leaves =
        front ++ s.map Guard.coercion ++ back ∧
      ∀ leaf ∈ front ++ back, leaf.classNames = [] := by
  cases s with
  | nil =>
    exact ⟨[.noMatch isVoid], [.invoke index [] isVoid callee], rfl, by simp [Node.classNames]⟩
  | cons p s =>
    refine ⟨[.noMatch isVoid, .bindParams (Signature.names (p :: s))],
      [.noMatch isVoid, .invoke index (Signature.names (p :: s)) isVoid callee], ?_,
      by simp [Node.classNames]⟩
    simp only [leaves, build, Guard.dispatch, Node.leavesAll, Node.leaves,
      Node.leavesAll_coercions]
    simp

/-- The class names of a resolver are the host spellings of its wrapped parameters. -/
theorem Resolver.mem_classNames_build {name callee : String} {isVoid : Bool} {s : Signature}
    {index : Nat} {className : String} :
    (∃ leaf ∈ (Resolver.build name isVoid callee s index).leaves, className ∈ leaf.classNames) ↔
      ∃ p ∈ s, p.type.category = .wrapped ∧ className = p.type.hostSpelling := by
  obtain ⟨front, back, hleaves, hquiet⟩ := leaves_build name callee isVoid s index
  obtain ⟨hfront, hback⟩ := List.forall_mem_append.mp hquiet
  rw [hleaves]
  constructor
  · rintro ⟨leaf, hleaf, hclass⟩
    rcases List.mem_append.mp hleaf with hleaf | hleaf
    · rcases List.mem_append.mp hleaf with hleaf | hleaf
      · rw [hfront leaf hleaf] at hclass
        cases hclass
      · obtain ⟨p, hp, rfl⟩ := List.mem_map.mp hleaf
        exact ⟨p, hp, Node.mem_classNames_coerce.mp hclass⟩
    · rw [hback leaf hleaf] at hclass
      cases hclass
  · rintro ⟨p, hp, hclass⟩
    have hleaf : Guard.coercion p ∈ s.map Guard.coercion := List.mem_map_of_mem hp
    exact ⟨Guard.coercion p, List.mem_append_left _ (List.mem_append_right _ hleaf),
      Node.mem_classNames_coerce.mpr hclass⟩

namespace Signature

/-- The trees of a text that is read tell how the classes of its parameters are spelled. -/
theorem forall₂_spellsClass {trees : List ParameterTree} {s : Signature}
    (h : List.Forall₂ ParameterTree.Describes trees s) :
    List.Forall₂ (fun tree p => tree.Describes p ∧ tree.SpellsClass p) trees s :=
  h.imp fun _ _ hdescribes => ⟨hdescribes, hdescribes.spellsClass⟩

/-- The class of a parameter that is read is spelled as an identifier exactly if its name has no
blank. -/
theorem isIdentifier_hostSpelling_iff {text : String} {s : Signature} (h : ofText text = .ok s)
    {p : Parameter} (hp : p ∈ s) (hwrapped : p.type.category = .wrapped) :
    isIdentifier p.type.hostSpelling.toList = true ↔ ' ' ∉ p.type.name.toList := by
  obtain ⟨tokens, trees, -, -, rfl⟩ := ofText_eq_ok_iff.mp h
  obtain ⟨tree, -, rfl⟩ := List.mem_map.mp hp
  exact tree.describes_parameter.spellsClass.isIdentifier_iff hwrapped

/-- The class names in the lines of a signature that is read are the spellings of its wrapped
parameters. They are all identifiers exactly if none of these is written with `unsigned`. -/
theorem classNames_of_ofText {text : String} {s : Signature} (h : ofText text = .ok s) :
    (∃ tokens trees, Lexed text.toList tokens ∧ Derived tokens trees ∧
      List.Forall₂ (fun tree p => tree.Describes p ∧ tree.SpellsClass p) trees s) ∧
    (∀ (statement : Statement), ∀ className ∈ statement.classNames, ∃ name,
      statement.text = name ++ " = <" ++ className ++ "?>(" ++ Statement.slot name ++ ")" ∨
        statement.text = "if not isinstance(" ++ name ++ ", " ++ className ++ "):") ∧
    ∀ (r : Renderer) level name isVoid callee index lines,
      r.resolverLines level (Resolver.build name isVoid callee s index) = .ok lines →
      (∀ className, Line.Hold (fun statement => className ∈ statement.classNames) lines ↔
        ∃ p ∈ s, p.type.category = .wrapped ∧ className = p.type.hostSpelling) ∧
      ((∀ className, Line.Hold (fun statement => className ∈ statement.classNames) lines →
          isIdentifier className.toList = true) ↔
        ∀ p ∈ s, p.type.category = .wrapped → ' ' ∉ p.type.name.toList) := by
  refine ⟨?_, fun _ _ => Statement.text_of_mem_classNames,
    fun r level name isVoid callee index lines hlines => ?_⟩
  · obtain ⟨tokens, trees, hlexed, hderived, hs⟩ := ofText_eq_ok_iff.mp h
    have htrees := ParameterTree.forall₂_describes_iff.mpr hs
    exact ⟨tokens, trees, hlexed, hderived, forall₂_spellsClass htrees⟩
  · have hnames (className : String) :
        Line.Hold (fun statement => className ∈ statement.classNames) lines ↔
          ∃ p ∈ s, p.type.category = .wrapped ∧ className = p.type.hostSpelling := by
      rw [(Renderer.reflects_classNames className).hold_resolverLines hlines]
      exact Resolver.mem_classNames_build
    refine ⟨hnames, ?_⟩
    constructor
    · intro hall p hp hwrapped
      rw [← isIdentifier_hostSpelling_iff h hp hwrapped]
      exact hall _ ((hnames _).mpr ⟨p, hp, hwrapped, rfl⟩)
    · intro hall className hclass
      obtain ⟨p, hp, hwrapped, rfl⟩ := (hnames _).mp hclass
      exact (isIdentifier_hostSpelling_iff h hp hwrapped).mpr (hall p hp hwrapped)

/-- A nested class and the one basic type of two words are written in code that can be run. -/
theorem nestedClass_named :
    ∃ s lines, ofText "const gtsam::noiseModel::Base& model, unsigned char c" = .ok s ∧
      Dialect.interpreted.ownRenderer.resolverLines 0
        (Resolver.build "f" false nativeCallee s 0) = .ok lines ∧
      Line.Hold (fun statement => "noiseModel_Base" ∈ statement.classNames) lines ∧
      ∀ className, Line.Hold (fun statement => className ∈ statement.classNames) lines →
        isIdentifier className.toList = true := by
  let s : Signature :=
    [{ name := "model", type := ⟨"Base", ["gtsam", "noiseModel"], .wrapped, by decide⟩,
       isConst := true, isRef := true },
      { name := "c", type := ⟨"unsigned char", [], .basic, by decide⟩ }]
  have hread : ofText "const gtsam::noiseModel::Base& model, unsigned char c" = .ok s :=
    eq_ok_of_toOption (by decide +kernel)
  obtain ⟨lines, hlines⟩ : ∃ lines, Dialect.interpreted.ownRenderer.resolverLines 0
      (Resolver.build "f" false nativeCallee s 0) = .ok lines := ⟨_, rfl⟩
  obtain ⟨-, -, hlinesOf⟩ := classNames_of_ofText hread
  obtain ⟨hnames, hidentifiers⟩ := hlinesOf _ _ _ _ _ _ _ hlines
  refine ⟨s, lines, hread, hlines, ?_, ?_⟩
  · exact (hnames "noiseModel_Base").mpr ⟨_, List.mem_cons_self, rfl, by decide⟩
  · exact hidentifiers.mpr (by decide)

/-- An integer type of two words is taken for a class, and no host can read its name. -/
theorem unsignedInteger_unnamed :
    ∃ s, ofText "unsigned int x" = .ok s ∧
      (∃ p ∈ s, p.type.category = .wrapped ∧ p.type.hostSpelling = "unsigned int" ∧
        isIdentifier p.type.hostSpelling.toList = false) ∧
      (∃ lines, Dialect.interpreted.ownRenderer.resolverLines 0
          (Resolver.build "f" false nativeCallee s 0) = .ok lines ∧
        "if not isinstance(x, unsigned int):" ∈ lines.map fun l => l.statement.text) ∧
      ∃ lines, Dialect.compiled.ownRenderer.resolverLines 0
          (Resolver.build "f" false nativeCallee s 0) = .ok lines ∧
        "x = <unsigned int?>(__params['x'])" ∈ lines.map fun l => l.statement.text := by
  let s : Signature := [{ name := "x", type := ⟨"unsigned int", [], .wrapped, by decide⟩ }]
  have hread : ofText "unsigned int x" = .ok s := eq_ok_of_toOption (by decide +kernel)
  exact ⟨s, hread, ⟨_, List.mem_cons_self, rfl, by decide, by decide⟩,
    ⟨_, rfl, by decide⟩, ⟨_, rfl, by decide⟩⟩

end Signature

end OverloadDispatch
