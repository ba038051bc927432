import OverloadDispatch.Proofs.Layout

/-!
# Texts joined by a comma

A comma ends a word and begins no scope mark, so a text is lexed on its two sides by itself. Within
the tokens of a list of parameters a comma stands between two parameters and nowhere else: what is
in front of it and what is behind it are the tokens of non-empty lists. Two texts that are joined by
a comma are therefore read exactly if each of them is read as a non-empty list, and the commas of a
text count its parameters.
-/

namespace OverloadDispatch.Signature

open Text

/-! ## Commas between parameters -/

/-- No comma stands within a parameter. -/
theorem DerivedParameter.comma_notMem {tokens : List Token} {tree : ParameterTree}
    (h : DerivedParameter tokens tree) : Token.comma ∉ tokens := by
  rw [derivedParameter_iff.mp h]
  obtain ⟨isConst, ⟨isUnsigned, scopes, last⟩, mark, name⟩ := tree
  cases isConst <;> cases isUnsigned <;> cases mark <;>
    simp [ParameterTree.tokens, TypeTree.tokens, constTokens, unsignedTokens, Mark.tokens,
      chainTokens]

namespace DerivedParameters

variable {front back tokens : List Token} {first second trees : List ParameterTree}

/-- A sequence of parameters is not empty. -/
theorem ne_nil (h : DerivedParameters tokens trees) : trees ≠ [] :=
  (derivedParameters_iff.mp h).1

/-- Two sequences of parameters with a comma between them are a sequence of parameters. -/
theorem append (hfront : DerivedParameters front first) (hback : DerivedParameters back second) :
    DerivedParameters (front ++ .comma :: back) (first ++ second) := by
  induction hfront with
  | single hfirst => exact .cons hfirst hback
  | cons hfirst _ ih =>
    rw [List.append_assoc, List.cons_append]
    exact .cons hfirst ih

/-- A comma parts a sequence of parameters into two sequences. -/
theorem parted (h : DerivedParameters (front ++ .comma :: back) trees) :
    ∃ first second, DerivedParameters front first ∧ DerivedParameters back second ∧
      trees = first ++ second := by
  generalize htokens : front ++ .comma :: back = tokens at h
  induction h generalizing front with
  | single hfirst => exact absurd (htokens ▸ by simp) hfirst.comma_notMem
  | @cons tokens others tree trees hfirst hothers ih =>
    -- The comma is the one behind the first parameter, or it stands behind that one.
    rcases List.append_eq_append_iff.mp htokens with ⟨more, rfl, hmore⟩ | ⟨more, rfl, hmore⟩
    · cases more with
      | nil =>
        obtain ⟨-, rfl⟩ := List.cons.inj hmore
        rw [List.append_nil] at hfirst
        exact ⟨[tree], trees, .single hfirst, hothers, rfl⟩
      | cons t more =>
        obtain ⟨rfl, -⟩ := List.cons.inj hmore
        exact absurd (by simp) hfirst.comma_notMem
    · cases more with
      | nil =>
        obtain ⟨-, rfl⟩ := List.cons.inj hmore
        exact ⟨[tree], trees, .single (by rwa [List.append_nil]), hothers, rfl⟩
      | cons t more =>
        obtain ⟨rfl, hrest⟩ := List.cons.inj hmore
        obtain ⟨first, second, hfront, hback, rfl⟩ := ih hrest.symm
        exact ⟨tree :: first, second, .cons hfirst hfront, hback, rfl⟩

/-- There is one comma less than there are parameters. -/
theorem length_eq (h : DerivedParameters tokens trees) :
    trees.length = tokens.count .comma + 1 := by
  induction h with
  | single hfirst => simp [List.count_eq_zero.mpr hfirst.comma_notMem]
  | cons hfirst _ ih =>
    simp [List.count_eq_zero.mpr hfirst.comma_notMem, ih]

end DerivedParameters

/-- A list of parameters that is not empty is a sequence of parameters. -/
theorem derived_iff_parameters {tokens : List Token} {trees : List ParameterTree}
    (hne : trees ≠ []) : Derived tokens trees ↔ DerivedParameters tokens trees := by
  constructor
  · intro h
    cases h with
    | empty => exact absurd rfl hne
    | sequence hsequence => exact hsequence
  · exact .sequence

/-! ## Commas in a text -/

theorem toList_append_comma (s t : String) :
    (s ++ "," ++ t).toList = s.toList ++ ',' :: t.toList := by
  simp

/-- A comma in a text parts its tokens into those in front of it and those behind it. -/
theorem lexed_append_comma_iff {s t : List Char} {tokens : List Token} :
    Lexed (s ++ ',' :: t) tokens ↔
      ∃ front back, Lexed s front ∧ Lexed t back ∧ tokens = front ++ .comma :: back := by
  have hseam : IsSeam s (',' :: t) := .of_not_isWordPart (by decide) rfl
  have hcomma {back : List Token} :
      Lexed (',' :: t) back ↔ ∃ others, Lexed t others ∧ back = .comma :: others :=
    lexed_token_iff (t := .comma) (Token.isLexeme_of_isWord_eq_false rfl)
      (Token.longest_of_isWord_eq_false rfl t)
  rw [lexed_append_iff hseam]
  constructor
  · rintro ⟨front, _, hfront, hback, rfl⟩
    obtain ⟨back, hothers, rfl⟩ := hcomma.mp hback
    exact ⟨front, back, hfront, hothers, rfl⟩
  · rintro ⟨front, back, hfront, hback, rfl⟩
    exact ⟨front, _, hfront, hcomma.mpr ⟨back, hback, rfl⟩, rfl⟩

/-- The only token that a comma stands in is the comma. -/
theorem Token.count_comma_text (t : Token) :
    t.text.toList.count ',' = if t = .comma then 1 else 0 := by
  cases hword : t.isWord with
  | true =>
    have hnone : ',' ∉ t.text.toList := by
      intro hmem
      exact absurd (isWordPart_of_isIdentifier hword ',' hmem) (by decide)
    have hne : t ≠ .comma := by
      rintro rfl
      exact absurd hword (by decide)
    rw [List.count_eq_zero.mpr hnone, if_neg hne]
  | false => rcases isWord_eq_false_iff.mp hword with rfl | rfl | rfl | rfl <;> decide

/-- The commas of a text are its tokens of this kind. -/
theorem Lexed.count_comma {s : List Char} {tokens : List Token} (h : Lexed s tokens) :
    s.count ',' = tokens.count .comma := by
  induction h with
  | nil => rfl
  | @layout c rest tokens hlayout _ ih =>
    have hne : c ≠ ',' := by
      rintro rfl
      cases hlayout
    rw [List.count_cons_of_ne hne, ih]
  | @token t rest tokens _ _ _ ih =>
    rw [List.count_append, Token.count_comma_text, ih, List.count_cons]
    simp only [beq_iff_eq]
    omega

/-- A text has no tokens exactly if there is nothing but layout in it. -/
theorem lexed_nil_iff {s : List Char} : Lexed s [] ↔ ∀ c ∈ s, isLayout c = true := by
  constructor
  · exact Lexed.isLayout_of_nil
  · intro h
    have hnil := content_gap h []
    rw [List.append_nil, content_nil] at hnil
    exact lexed_iff_content.mpr hnil

/-! ## The parts of a text -/

/-- A text with the tokens of a sequence of parameters is read. -/
theorem ofText_of_parameters {text : String} {tokens : List Token} {trees : List ParameterTree}
    (hlexed : Lexed text.toList tokens) (hparameters : DerivedParameters tokens trees) :
    ofText text = .ok (trees.map ParameterTree.parameter) :=
  ofText_eq_ok_iff.mpr ⟨tokens, trees, hlexed, .sequence hparameters, rfl⟩

/-- A text that is read as a list that is not empty has the tokens of a sequence of parameters. -/
theorem exists_parameters_of_ofText {text : String} {s : Signature} (h : ofText text = .ok s)
    (hne : s ≠ []) :
    ∃ tokens trees, Lexed text.toList tokens ∧ DerivedParameters tokens trees ∧
      trees.map ParameterTree.parameter = s := by
  obtain ⟨tokens, trees, hlexed, hderived, rfl⟩ := ofText_eq_ok_iff.mp h
  have htrees : trees ≠ [] := by simpa using hne
  exact ⟨tokens, trees, hlexed, (derived_iff_parameters htrees).mp hderived, rfl⟩

/-- A text without parameters holds nothing but layout. -/
theorem ofText_eq_ok_nil_iff {text : String} :
    ofText text = .ok [] ↔ ∀ c ∈ text.toList, isLayout c = true := by
  rw [ofText_eq_ok_iff, ← lexed_nil_iff]
  constructor
  · rintro ⟨tokens, trees, hlexed, hderived, hnil⟩
    obtain rfl := List.map_eq_nil_iff.mp hnil
    rwa [derived_iff.mp hderived] at hlexed
  · exact fun hlexed => ⟨[], [], hlexed, .empty, rfl⟩

/-- Two texts that are read as lists that are not empty are read as one list with a comma between
them. -/
theorem ofText_append_comma {s t : String} {first second : Signature} (hfirst : ofText s = .ok first)
    (hne : first ≠ []) (hsecond : ofText t = .ok second) (hne' : second ≠ []) :
    ofText (s ++ "," ++ t) = .ok (first ++ second) := by
  obtain ⟨front, trees, hfront, hderived, rfl⟩ := exists_parameters_of_ofText hfirst hne
  obtain ⟨back, others, hback, hderived', rfl⟩ := exists_parameters_of_ofText hsecond hne'
  have hlexed : Lexed (s ++ "," ++ t).toList (front ++ .comma :: back) := by
    rw [toList_append_comma]
    exact lexed_append_comma_iff.mpr ⟨front, back, hfront, hback, rfl⟩
  rw [ofText_of_parameters hlexed (hderived.append hderived'), List.map_append]

/-- A text that is read is parted by every comma into texts that are read as lists that are not
empty. -/
theorem parted_of_ofText {s t : String} {both : Signature} (h : ofText (s ++ "," ++ t) = .ok both) :
    ∃ first second, ofText s = .ok first ∧ first ≠ [] ∧ ofText t = .ok second ∧ second ≠ [] ∧
      both = first ++ second := by
  have hboth : both ≠ [] := by
    rintro rfl
    have hcomma := ofText_eq_ok_nil_iff.mp h ',' (by simp)
    exact absurd hcomma (by decide)
  obtain ⟨tokens, trees, hlexed, hderived, rfl⟩ := exists_parameters_of_ofText h hboth
  rw [toList_append_comma] at hlexed
  obtain ⟨front, back, hfront, hback, rfl⟩ := lexed_append_comma_iff.mp hlexed
  obtain ⟨first, second, hfirst, hsecond, rfl⟩ := hderived.parted
  exact ⟨_, _, ofText_of_parameters hfront hfirst, by simpa using hfirst.ne_nil,
    ofText_of_parameters hback hsecond, by simpa using hsecond.ne_nil, List.map_append⟩

/-- A text that is read and is not blank has one parameter more than it has commas. -/
theorem length_of_ofText {text : String} {s : Signature} (h : ofText text = .ok s)
    (hblank : ∃ c ∈ text.toList, isLayout c = false) : s.length = text.toList.count ',' + 1 := by
  have hne : s ≠ [] := by
    rintro rfl
    obtain ⟨c, hc, hlayout⟩ := hblank
    cases hlayout.symm.trans (ofText_eq_ok_nil_iff.mp h c hc)
  obtain ⟨tokens, trees, hlexed, hderived, rfl⟩ := exists_parameters_of_ofText h hne
  rw [List.length_map, hderived.length_eq, hlexed.count_comma]

/-- Two texts with a comma between them are read exactly if both are read as lists that are not
empty, and the result is then the one list behind the other. -/
theorem reading_distributes_over_commas (s t : String) :
    (∀ both, ofText (s ++ "," ++ t) = .ok both ↔
      ∃ first second, ofText s = .ok first ∧ first ≠ [] ∧ ofText t = .ok second ∧ second ≠ [] ∧
        both = first ++ second) ∧
    ∀ text list, ofText text = .ok list →
      (list = [] ↔ ∀ c ∈ text.toList, isLayout c = true) ∧
      ((∃ c ∈ text.toList, isLayout c = false) → list.length = text.toList.count ',' + 1) := by
  refine ⟨fun both => ⟨parted_of_ofText, ?_⟩, fun text list h => ⟨?_, length_of_ofText h⟩⟩
  · rintro ⟨first, second, hfirst, hne, hsecond, hne', rfl⟩
    exact ofText_append_comma hfirst hne hsecond hne'
  · constructor
    · rintro rfl
      exact ofText_eq_ok_nil_iff.mp h
    · intro hlayout
      rw [ofText_eq_ok_nil_iff.mpr hlayout] at h
      exact (Except.ok.inj h).symm

/-- A number and a point are read apart and together, and the text has one comma. -/
theorem numberAndPoint_read :
    ∃ first second : Signature, ofText "int a" = .ok first ∧ ofText " gtsam::Point3& p" = .ok second ∧
      ofText ("int a" ++ "," ++ " gtsam::Point3& p") = .ok (first ++ second) ∧
      (first ++ second).length = 2 := by
  have hfirst : (ofText "int a").toOption.map List.length = some 1 := by decide +kernel
  have hsecond : (ofText " gtsam::Point3& p").toOption.map List.length = some 1 := by
    decide +kernel
  obtain ⟨first, hfirst, hone⟩ := Option.map_eq_some_iff.mp hfirst
  obtain ⟨second, hsecond, hone'⟩ := Option.map_eq_some_iff.mp hsecond
  have hread := eq_ok_of_toOption hfirst
  have hread' := eq_ok_of_toOption hsecond
  obtain ⟨hjoined, hcount⟩ := reading_distributes_over_commas "int a" " gtsam::Point3& p"
  have hboth := (hjoined (first ++ second)).mpr
    ⟨first, second, hread, by simp [← List.length_pos_iff, hone], hread',
      by simp [← List.length_pos_iff, hone'], rfl⟩
  refine ⟨first, second, hread, hread', hboth, ?_⟩
  exact (hcount _ _ hboth).2 ⟨'i', by simp, rfl⟩

/-- A comma at the end of a text makes up for no parameter. -/
example : (ofText "int a, ").toOption = none := by
  decide +kernel

end OverloadDispatch.Signature
