import OverloadDispatch.Proofs.Coverage
import OverloadDispatch.Proofs.Identity
import OverloadDispatch.Text.OneLine

/-!
# What a conflict of identities shows

A refused declaration shows the identity on record and its own. A name is shown as it is, whatever
stands in it, so the text of an identity is taken apart from behind: no apostrophe stands behind the
one that closes the name, provided that there is none in the instance. What is left there is the
instance, and its components are told apart by single colons.
-/

namespace OverloadDispatch

open Text

/-! ## Instances -/

/-- A text is parted in one way at the last of its marks. -/
theorem Text.parted_at_last_inj {mark : Char} {front other back behind : List Char}
    (hback : mark ∉ back) (hbehind : mark ∉ behind)
    (h : front ++ mark :: back = other ++ mark :: behind) : front = other ∧ back = behind := by
  rcases List.append_eq_append_iff.mp h with ⟨more, hother, hmore⟩ | ⟨more, hfront, hmore⟩
  · cases more with
    | nil => exact ⟨by simpa using hother.symm, (List.cons.inj hmore).2⟩
    | cons c more =>
      have hrest : back = more ++ mark :: behind := (List.cons.inj hmore).2
      exact absurd (by simp [hrest]) hback
  · cases more with
    | nil => exact ⟨by simpa using hfront, (List.cons.inj hmore).2.symm⟩
    | cons c more =>
      have hrest : behind = more ++ mark :: back := (List.cons.inj hmore).2
      exact absurd (by simp [hrest]) hbehind

namespace QualifiedType

variable {t u : QualifiedType}

/-- Whether a type can be read off the text of an identity. -/
structure IsLegible (t : QualifiedType) : Prop where
  /-- There is no colon in a component. -/
  colon : ∀ component ∈ t.components, ':' ∉ component.toList
  /-- There is no apostrophe in a component. -/
  apostrophe : ∀ component ∈ t.components, apostrophe ∉ component.toList
  /-- The category is the one that the components suggest. -/
  isClassified : t.IsClassified

/-- A type of identifiers can be read off. -/
theorem IsLegible.of_isIdentifier (hclassified : t.IsClassified)
    (h : ∀ component ∈ t.components, isIdentifier component.toList = true) : t.IsLegible where
  colon component hmem hcolon :=
    absurd (isWordPart_of_isIdentifier (h component hmem) _ hcolon) (by decide)
  apostrophe component hmem hmark :=
    absurd (isWordPart_of_isIdentifier (h component hmem) _ hmark) (by decide)
  isClassified := hclassified

/-- The components of a type determine its name and its namespaces. -/
theorem eq_of_components_eq (ht : t.IsClassified) (hu : u.IsClassified)
    (h : t.components = u.components) : t = u := by
  obtain ⟨hspaces, hname⟩ := List.append_inj' h rfl
  have hname : t.name = u.name := (List.cons.inj hname).1
  exact eq_iff.mpr ⟨hname, hspaces, by rw [ht, hu, hname, hspaces]⟩

/-- Components without colons are found between the single colons that join them. -/
theorem components_eq_splitOn (h : ∀ component ∈ t.components, ':' ∉ component.toList) :
    t.components.map String.toList = (t.joined ":").toList.splitOn ':' := by
  have hjoined : (t.joined ":").toList = [':'].intercalate (t.components.map String.toList) := by
    rw [joined, String.toList_intercalate]
    rfl
  rw [hjoined]
  refine (List.splitOn_intercalate ':' (List.forall_mem_map.mpr h) ?_).symm
  simp [components]

/-- Types that can be read off are told apart by their texts. -/
theorem IsLegible.joined_inj (ht : t.IsLegible) (hu : u.IsLegible)
    (h : t.joined ":" = u.joined ":") : t = u := by
  have hparts := (components_eq_splitOn ht.colon).trans
    ((congrArg (fun text => text.toList.splitOn ':') h).trans (components_eq_splitOn hu.colon).symm)
  exact eq_of_components_eq ht.isClassified hu.isClassified
    (List.map_injective_iff.mpr (fun _ _ => String.toList_inj.mp) hparts)

end QualifiedType

/-! ## Identities -/

namespace Identity

variable {i j : Identity}

/-- Whether the instance of an identity, if there is one, can be read off its text. -/
def IsLegible (i : Identity) : Prop := ∀ t ∈ i.inst, t.IsLegible

/-- What stands behind the name in the text of an identity. -/
def ending (i : Identity) : String :=
  match i.inst with
  | none => ""
  | some t => " with template argument " ++ t.joined ":"

/-- The text of an identity is its name between apostrophes and what stands behind. -/
theorem toList_text (i : Identity) :
    i.text.toList = apostrophe :: (i.name.toList ++ apostrophe :: i.ending.toList) := by
  obtain ⟨name, inst⟩ := i
  cases inst <;> simp [text, ending, apostrophe]

/-- No apostrophe stands behind the one that closes the name. -/
theorem IsLegible.apostrophe_notMem_ending (h : i.IsLegible) : apostrophe ∉ i.ending.toList := by
  obtain ⟨name, inst⟩ := i
  cases inst with
  | none => simp [ending]
  | some t =>
    have hjoined : apostrophe ∉ (t.joined ":").toList :=
      notMem_intercalate (by decide) (h t rfl).apostrophe
    rw [ending, String.toList_append, List.mem_append, not_or]
    exact ⟨by decide, hjoined⟩

/-- The instance is told by what stands behind the name. -/
theorem IsLegible.inst_eq (hi : i.IsLegible) (hj : j.IsLegible) (h : i.ending = j.ending) :
    i.inst = j.inst := by
  obtain ⟨name, inst⟩ := i
  obtain ⟨other, instance'⟩ := j
  have hnonempty (s : String) : " with template argument " ++ s ≠ "" := by simp
  cases inst with
  | none =>
    cases instance' with
    | none => rfl
    | some u => exact absurd h.symm (hnonempty _)
  | some t =>
    cases instance' with
    | none => exact absurd h (hnonempty _)
    | some u =>
      have hjoined : t.joined ":" = u.joined ":" := String.append_right_inj _ |>.mp h
      exact congrArg some ((hi t rfl).joined_inj (hj u rfl) hjoined)

/-- Identities are told apart by their texts, whatever their names are. -/
theorem IsLegible.text_inj (hi : i.IsLegible) (hj : j.IsLegible) : i.text = j.text ↔ i = j := by
  refine ⟨fun h => ?_, congrArg text⟩
  have hchars := congrArg String.toList h
  rw [toList_text, toList_text] at hchars
  -- The name may hold apostrophes, so it is closed by the last one and not by the next one.
  obtain ⟨hname, hending⟩ := parted_at_last_inj hi.apostrophe_notMem_ending
    hj.apostrophe_notMem_ending (List.cons.inj hchars).2
  have hinst := hi.inst_eq hj (String.toList_inj.mp hending)
  cases i
  cases j
  cases String.toList_inj.mp hname
  cases hinst
  rfl

end Identity

/-! ## Refused declarations -/

namespace Session

/-- Whether every declaration among requests is of an identity that can be read off. -/
def DeclareLegibly (requests : List Request) : Prop :=
  ∀ r ∈ requests, ∀ got wants, r.declares? = some (got, wants) → got.IsLegible

/-- The identity on record is one of those that were declared. -/
theorem isLegible_of_founding? {requests : List Request} (hlegible : DeclareLegibly requests)
    {known : Identity} {notice : Bool} (h : founding? requests = some (known, notice)) :
    known.IsLegible := by
  obtain ⟨r, hr, hnamed⟩ := List.exists_of_findSome?_eq_some h
  exact hlegible r hr known notice (Request.named?_eq_some_iff.mp hnamed).1

/-- Identities with legible instances are told apart by their texts. A conflict between such
identities therefore shows two different texts, the founding one and the refused one. -/
theorem conflict_shows_two_identities :
    (∀ i : Identity, (∀ t ∈ i.inst, t.IsClassified ∧
      ∀ component ∈ t.components, isIdentifier component.toList = true) → i.IsLegible) ∧
    (∀ i j : Identity, i.IsLegible → j.IsLegible → i.text = j.text → i = j) ∧
    ∀ before r, DeclareLegibly (before ++ [r]) → ∀ name expected got,
      (run before).answer r = .error (.issue (.identityConflict name expected got)) →
        ∃ known notice asked wants, founding? before = some (known, notice) ∧
          r.named? = some (asked, wants) ∧ asked ≠ known ∧ name = asked.name ∧
          expected = known.text ∧ got = asked.text ∧ expected ≠ got := by
  refine ⟨fun i h t ht => .of_isIdentifier (h t ht).1 (h t ht).2,
    fun i j hi hj => (hi.text_inj hj).mp, ?_⟩
  intro before r hlegible name expected got hanswer
  obtain ⟨known, notice, asked, wants, hfounding, hnamed, hne, hfault⟩ :=
    ((answered_run before r).conflicts_iff _ (by simp)).mp hanswer
  obtain ⟨rfl, rfl, rfl⟩ := Issue.identityConflict.inj (Fault.issue.inj hfault)
  obtain ⟨hbefore, hlast⟩ := List.forall_mem_append.mp hlegible
  have hknown := isLegible_of_founding? hbefore hfounding
  have hasked := List.forall_mem_singleton.mp hlast asked wants
    (Request.named?_eq_some_iff.mp hnamed).1
  exact ⟨known, notice, asked, wants, hfounding, hnamed, hne, rfl, rfl, rfl,
    fun htext => hne ((hknown.text_inj hasked).mp htext).symm⟩

/-- A name may look like the text of another identity, and the conflict still shows two texts. -/
theorem quotedName_conflict_shown :
    ∃ known asked : Identity, asked.name = "f' with template argument a:b" ∧
      asked.text = known.text ++ "'" ∧
      (run [.check known.name known.inst false]).answer (.add asked.name [] asked.inst false) =
        .error (.issue (.identityConflict asked.name known.text asked.text)) ∧
      known.text ≠ asked.text := by
  let inst : QualifiedType := ⟨"b", ["a"], .wrapped, by decide⟩
  let known : Identity := ⟨"f", some inst⟩
  let asked : Identity := ⟨"f' with template argument a:b", none⟩
  obtain ⟨hlegible, -, hshown⟩ := conflict_shows_two_identities
  have hknown : known.IsLegible := by
    refine hlegible known fun t ht => ?_
    obtain rfl : inst = t := Option.some.inj ht
    exact ⟨rfl, by decide⟩
  have hasked : asked.IsLegible := hlegible asked (by simp [asked])
  have hrequests : DeclareLegibly
      ([.check known.name known.inst false] ++ [.add asked.name [] asked.inst false]) := by
    intro r hr got wants hdeclares
    rcases List.mem_append.mp hr with hfirst | hlast
    · obtain rfl := List.mem_singleton.mp hfirst
      obtain ⟨rfl, -⟩ := Prod.mk.inj (Option.some.inj hdeclares)
      exact hknown
    · obtain rfl := List.mem_singleton.mp hlast
      obtain ⟨rfl, -⟩ := Prod.mk.inj (Option.some.inj hdeclares)
      exact hasked
  have hanswer : (run [.check known.name known.inst false]).answer
      (.add asked.name [] asked.inst false) =
        .error (.issue (.identityConflict asked.name known.text asked.text)) := rfl
  obtain ⟨_, _, _, _, -, -, -, -, -, -, hne⟩ := hshown _ _ hrequests _ _ _ hanswer
  exact ⟨known, asked, rfl, by decide, hanswer, hne⟩

end Session

end OverloadDispatch
