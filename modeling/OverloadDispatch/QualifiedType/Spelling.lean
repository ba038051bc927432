import OverloadDispatch.Fault
import OverloadDispatch.QualifiedType.Basic
import OverloadDispatch.Text.Blank
import OverloadDispatch.Text.Pieces

/-!
# Types from their spellings

A spelling is cut at its scope marks and every piece is stripped of blanks. The last piece is the
name, the others are the namespaces, and a spelling with an empty piece names no type.
-/

namespace OverloadDispatch.QualifiedType

open Text

/-- The stripped pieces of a spelling. -/
def spelledComponents (spelling : String) : List String :=
  (pieces spelling.toList).map fun piece => String.ofList (strip piece)

/-- Every spelling has at least one piece. -/
theorem spelledComponents_ne_nil (spelling : String) : spelledComponents spelling ≠ [] := by
  simp [spelledComponents, pieces_ne_nil]

/-- The components are told by the characters of the stripped pieces. -/
theorem spelledComponents_eq_iff {spelling : String} {components : List String} :
    spelledComponents spelling = components ↔
      (pieces spelling.toList).map strip = components.map String.toList := by
  rw [spelledComponents]
  constructor
  · rintro rfl
    simp
  · intro h
    have htexts := congrArg (List.map String.ofList) h
    simpa [Function.comp_def] using htexts

/-- The type that a spelling names, with the category that the spelling suggests. -/
def ofSpelling (spelling : String) : Except Fault QualifiedType :=
  let parts := spelledComponents spelling
  if h : "" ∈ parts then .error (.malformedType spelling)
  else
    .ok (classified (parts.getLast (spelledComponents_ne_nil spelling)) parts.dropLast
      fun empty => h (empty ▸ List.getLast_mem _))

/-- The type with the given parts, which have to include a name. -/
def ofParts (name : String) (namespaces : List String) (category : Category) :
    Except Fault QualifiedType :=
  if h : name = "" then .error .unnamedType else .ok ⟨name, namespaces, category, h⟩

/-- The components of a spelled type are the stripped pieces of its spelling. -/
theorem components_of_ofSpelling {spelling : String} {t : QualifiedType}
    (h : ofSpelling spelling = .ok t) : t.components = spelledComponents spelling := by
  simp only [ofSpelling] at h
  split at h
  · exact absurd h (by simp)
  · cases h
    exact List.dropLast_concat_getLast _

/-- The spellings of a type are those whose stripped pieces are its components, if none of them is
empty and the type has the category that they suggest. -/
theorem ofSpelling_eq_ok_iff {spelling : String} {t : QualifiedType} :
    ofSpelling spelling = .ok t ↔
      spelledComponents spelling = t.components ∧ "" ∉ t.components ∧
        t.category = classify t.name t.namespaces := by
  constructor
  · intro h
    have hcomponents := components_of_ofSpelling h
    rw [hcomponents]
    simp only [ofSpelling] at h
    split at h
    · cases h
    · next hempty =>
      cases h
      exact ⟨rfl, hempty, rfl⟩
  · rintro ⟨hcomponents, hempty, hcategory⟩
    simp only [ofSpelling, hcomponents, dif_neg hempty, Except.ok.injEq]
    exact eq_iff.mpr ⟨by simp [classified, components],
      by simp [classified, components], by simp [classified, components, hcategory]⟩

end OverloadDispatch.QualifiedType
