import OverloadDispatch.OverloadSet
import OverloadDispatch.QualifiedType.Spelling

/-!
# Types and their qualified names

The qualified name of a type that was spelled is a spelling of the type again, unless one of its
namespaces ends with a colon: the scope mark behind it is then found one character too early. Among
the other types a name stands for one type only, so a check of the types of an overload set against
names is a check against types.
-/

namespace OverloadDispatch

open Text

/-- Joined parts that hold no scope mark, and no blank at their ends, are found again in the joined
text exactly if no part but the last ends with a colon. -/
theorem Text.map_strip_pieces_intercalate_iff {parts : List (List Char)} (hne : parts ≠ [])
    (hmarks : ∀ part ∈ parts, Unmarked part) (hbare : ∀ part ∈ parts, strip part = part) :
    (pieces (scopeMark.intercalate parts)).map strip = parts ↔
      ∀ part ∈ parts.dropLast, part.getLast? ≠ some ':' := by
  induction parts with
  | nil => exact absurd rfl hne
  | cons part rest ih =>
    obtain ⟨hmark, hmarks⟩ := List.forall_mem_cons.mp hmarks
    obtain ⟨hpart, hbare⟩ := List.forall_mem_cons.mp hbare
    cases rest with
    | nil =>
      rw [List.intercalate_singleton, pieces_of_unmarked hmark, List.map_singleton, hpart]
      simp
    | cons next rest =>
      rw [List.intercalate_cons_cons, List.append_assoc,
        List.dropLast_cons_of_ne_nil (List.cons_ne_nil _ _), List.forall_mem_cons]
      by_cases hcolon : part.getLast? = some ':'
      · obtain ⟨front, rfl⟩ := List.getLast?_eq_some_iff.mp hcolon
        -- The first piece is shorter than the part, and stripping makes it no longer.
        have hshorter : strip front ≠ front ++ [':'] := by
          intro heq
          have hlength := (strip_isPart front).length_le
          rw [heq, List.length_append] at hlength
          exact Nat.not_succ_le_self _ hlength
        rw [pieces_append_colon_scopeMark hmark, List.map_cons]
        constructor
        · exact fun h => absurd (List.cons.inj h).1 hshorter
        · exact fun h => absurd hcolon h.1
      · rw [pieces_append_scopeMark hmark hcolon, List.map_cons, hpart, List.cons_inj_right,
          ih (List.cons_ne_nil _ _) hmarks hbare]
        exact (and_iff_right hcolon).symm

namespace QualifiedType

variable {spelling : String} {t u : QualifiedType}

/-- Whether a namespace ends with a colon, so that three of them stand in a row in the name. -/
def HasTrailingColon (t : QualifiedType) : Prop :=
  ∃ scope ∈ t.namespaces, scope.toList.getLast? = some ':'

instance : DecidablePred HasTrailingColon := fun t =>
  inferInstanceAs (Decidable (∃ scope ∈ t.namespaces, scope.toList.getLast? = some ':'))

/-- What a component of a spelled type is like. -/
theorem component_of_ofSpelling (h : ofSpelling spelling = .ok t) :
    ∀ component ∈ t.components, Unmarked component.toList ∧
      strip component.toList = component.toList := by
  obtain ⟨hcomponents, -⟩ := ofSpelling_eq_ok_iff.mp h
  intro component hcomponent
  rw [← hcomponents] at hcomponent
  obtain ⟨piece, hpiece, rfl⟩ := List.mem_map.mp hcomponent
  rw [String.toList_ofList]
  exact ⟨(unmarked_of_mem_pieces hpiece).of_part (strip_isPart piece), strip_strip piece⟩

/-- The components of a type are found in its qualified name if no namespace ends with a colon. -/
theorem spelledComponents_qualified_iff (h : ofSpelling spelling = .ok t) :
    spelledComponents t.qualified = t.components ↔ ¬t.HasTrailingColon := by
  have hcomponent := component_of_ofSpelling h
  let parts := t.components.map String.toList
  have hqualified : t.qualified.toList = scopeMark.intercalate parts := by
    rw [qualified, joined, String.toList_intercalate]
    rfl
  have hspaces : parts.dropLast = t.namespaces.map String.toList := by
    change (t.components.map String.toList).dropLast = _
    rw [components, List.map_append, List.map_singleton, List.dropLast_concat]
  have hpieces : (pieces t.qualified.toList).map strip = parts ↔
      ∀ scope ∈ t.namespaces.map String.toList, scope.getLast? ≠ some ':' := by
    rw [hqualified, ← hspaces]
    exact map_strip_pieces_intercalate_iff (by simp [parts, components])
      (List.forall_mem_map.mpr fun c hc => (hcomponent c hc).1)
      (List.forall_mem_map.mpr fun c hc => (hcomponent c hc).2)
  rw [spelledComponents_eq_iff, hpieces, List.forall_mem_map, HasTrailingColon]
  simp

/-- A spelled type is spelled by its qualified name exactly if no namespace ends with a colon. -/
theorem ofSpelling_qualified_iff (h : ofSpelling spelling = .ok t) :
    ofSpelling t.qualified = .ok t ↔ ¬t.HasTrailingColon := by
  obtain ⟨-, hnames, hcategory⟩ := ofSpelling_eq_ok_iff.mp h
  rw [ofSpelling_eq_ok_iff, spelledComponents_qualified_iff h]
  exact and_iff_left ⟨hnames, hcategory⟩

/-- Whether a type can be told from its qualified name. -/
structure IsNamed (t : QualifiedType) : Prop where
  /-- It was spelled. -/
  spelled : ∃ spelling, ofSpelling spelling = .ok t
  /-- None of its namespaces ends with a colon. -/
  unambiguous : ¬t.HasTrailingColon

/-- Such types are told apart by their qualified names. -/
theorem IsNamed.qualified_inj (ht : t.IsNamed) (hu : u.IsNamed) :
    t.qualified = u.qualified ↔ t = u := by
  obtain ⟨⟨_, hspelled⟩, hcolon⟩ := ht
  obtain ⟨⟨_, hspelled'⟩, hcolon'⟩ := hu
  constructor
  · intro h
    have hread := (ofSpelling_qualified_iff hspelled).mpr hcolon
    rw [h, (ofSpelling_qualified_iff hspelled').mpr hcolon'] at hread
    exact (Except.ok.inj hread).symm
  · exact congrArg qualified

end QualifiedType

/-- Where all types can be told from their names, known names stand for known types. -/
theorem OverloadSet.verify_map_qualified_iff {o : OverloadSet} {known : List QualifiedType}
    {context : String} (hheld : ∀ t ∈ o.types, t.IsNamed) (hknown : ∀ t ∈ known, t.IsNamed) :
    o.verify (known.map QualifiedType.qualified) context = .ok () ↔ ∀ t ∈ o.types, t ∈ known := by
  rw [verify_eq_ok_iff]
  refine forall₂_congr fun t ht => ?_
  rw [List.mem_map]
  constructor
  · rintro ⟨u, hu, hname⟩
    rwa [← ((hknown u hu).qualified_inj (hheld t ht)).mp hname]
  · exact fun hmem => ⟨t, hmem, rfl⟩

/-- A spelled type is spelled again by its qualified name exactly if none of its namespaces ends
with a colon, and checks by name then are checks by type. -/
theorem QualifiedType.respelled_iff_no_trailing_colon :
    (∀ spelling t, ofSpelling spelling = .ok t →
      (ofSpelling t.qualified = .ok t ↔ ¬t.HasTrailingColon)) ∧
    (∀ t u : QualifiedType, t.IsNamed → u.IsNamed → t.qualified = u.qualified → t = u) ∧
    ∀ (o : OverloadSet) (known : List QualifiedType) (context : String),
      (∀ t ∈ o.types, t.IsNamed) → (∀ t ∈ known, t.IsNamed) →
      (o.verify (known.map qualified) context = .ok () ↔ ∀ t ∈ o.types, t ∈ known) :=
  ⟨fun _ _ => ofSpelling_qualified_iff, fun _ _ ht hu => (ht.qualified_inj hu).mp,
    fun _ _ _ => OverloadSet.verify_map_qualified_iff⟩

/-- Three colons in a row are a scope mark in front of a colon. Of the two types that are named so,
only the one whose last name begins with the colon is spelled again, and told from its name. -/
theorem QualifiedType.leadingColon_respelled :
    ∃ leading trailing : QualifiedType,
      ofSpelling "a ::: b" = .ok leading ∧ ofSpelling leading.qualified = .ok leading ∧
      ofSpelling "a: :: b" = .ok trailing ∧ ¬ofSpelling trailing.qualified = .ok trailing ∧
      ∃ o : OverloadSet, o.types = [leading] ∧
        o.verify ([leading].map qualified) "f" = .ok () := by
  let leading : QualifiedType := ⟨": b", ["a"], .wrapped, by decide⟩
  let trailing : QualifiedType := ⟨"b", ["a:"], .wrapped, by decide⟩
  let o : OverloadSet := { held := [[{ name := "x", type := leading }]] }
  have hleading : ofSpelling "a ::: b" = .ok leading := eq_ok_of_toOption (by decide +kernel)
  have htrailing : ofSpelling "a: :: b" = .ok trailing := eq_ok_of_toOption (by decide +kernel)
  have hcolon : ¬leading.HasTrailingColon := by decide
  have hcolon' : trailing.HasTrailingColon := by decide
  have hnamed : ∀ t ∈ [leading], t.IsNamed :=
    List.forall_mem_singleton.mpr ⟨⟨_, hleading⟩, hcolon⟩
  obtain ⟨hrespelled, -, hverify⟩ := respelled_iff_no_trailing_colon
  exact ⟨leading, trailing, hleading, (hrespelled _ _ hleading).mpr hcolon, htrailing,
    fun h => (hrespelled _ _ htrailing).mp h hcolon', o, rfl,
    (hverify o [leading] "f" hnamed hnamed).mpr (fun _ ht => ht)⟩

end OverloadDispatch
