import OverloadDispatch.Callable
import OverloadDispatch.Proofs.Layout
import OverloadDispatch.Proofs.RoundTrip
import OverloadDispatch.Text.OneLine

/-!
# Types that are declared and types that are spelled

A type is read in two ways: within a declaration, from its tokens, and by itself, from the pieces of
its spelling. Layout is blank and parts the tokens of a text, so where no `unsigned` stands in front
the pieces are the names that the grammar finds, with layout around them, and both ways lead to the
same type. Behind `unsigned` the words make one name, which is spelled with single blanks.
-/

namespace OverloadDispatch.Signature

open Text QualifiedType

/-! ## Layout between tokens -/

/-- Layout in a text parts its tokens into those in front of it and those behind it. -/
theorem lexed_append_layout_iff {s rest : List Char} {c : Char} {tokens : List Token}
    (hc : isLayout c = true) :
    Lexed (s ++ c :: rest) tokens ↔
      ∃ front back, Lexed s front ∧ Lexed rest back ∧ tokens = front ++ back := by
  rw [lexed_append_iff (.of_layout hc)]
  simp only [lexed_layout_iff hc]

/-! ## The pieces of a chain -/

/-- Layout is blank. -/
theorem isBlank_of_isLayout {c : Char} (h : isLayout c = true) : isBlank c = true := by
  simp only [isLayout, Bool.or_eq_true, beq_iff_eq] at h
  rcases h with (((rfl | rfl) | rfl) | rfl) | rfl <;> decide

/-- A word is left when the layout around it is stripped, and there is no colon in either. -/
theorem strip_padded (word : Identifier) {front back : List Char}
    (hfront : ∀ c ∈ front, isLayout c = true) (hback : ∀ c ∈ back, isLayout c = true) :
    ':' ∉ front ++ (word.text.toList ++ back) ∧
      strip (front ++ (word.text.toList ++ back)) = word.text.toList := by
  have hword := isWordPart_of_isIdentifier word.valid
  refine ⟨?_, ?_⟩
  · simp only [List.mem_append, not_or]
    exact ⟨fun h => absurd (hfront _ h) (by decide), fun h => absurd (hword _ h) (by decide),
      fun h => absurd (hback _ h) (by decide)⟩
  · exact strip_append (fun c hc => isBlank_of_isLayout (hfront c hc))
      (bare_of_forall fun c hc => isBlank_eq_false_of_isWordPart (hword c hc))
      (fun c hc => isBlank_of_isLayout (hback c hc))

/-- The pieces of a text that is lexed into a chain are its names with layout around them. -/
theorem map_strip_pieces_of_lexed_chain {scopes : List Identifier} {last : Identifier}
    {s : List Char} (h : Lexed s (chainTokens scopes last)) :
    (pieces s).map strip = (scopes ++ [last]).map fun word => word.text.toList := by
  -- No colon stands in front of the first scope mark, so the first piece ends where the lexer finds
  -- the mark, and the rest of the chain is behind it.
  induction scopes generalizing s with
  | nil =>
    obtain ⟨front, back, rfl, hfront, hrest⟩ := h.exists_of_cons
    obtain ⟨hcolon, hstrip⟩ := strip_padded last hfront hrest.isLayout_of_nil
    change (pieces (front ++ (last.text.toList ++ _))).map strip = _
    rw [pieces_of_unmarked (unmarked_of_notMem hcolon), List.map_singleton, hstrip]
    rfl
  | cons word scopes ih =>
    obtain ⟨front, rest, rfl, hfront, hrest⟩ := h.exists_of_cons
    obtain ⟨back, behind, rfl, hback, hbehind⟩ := hrest.exists_of_cons
    obtain ⟨hcolon, hstrip⟩ := strip_padded word hfront hback
    have htext : front ++ (word.text.toList ++ (back ++ (scopeMark ++ behind))) =
        front ++ (word.text.toList ++ back) ++ (scopeMark ++ behind) := by simp
    have hlast : (front ++ (word.text.toList ++ back)).getLast? ≠ some ':' :=
      fun hlast => hcolon (List.mem_of_getLast? hlast)
    change (pieces (front ++ (word.text.toList ++ (back ++ (scopeMark ++ behind))))).map strip = _
    rw [htext, pieces_append_scopeMark (unmarked_of_notMem hcolon) hlast, List.map_cons, hstrip,
      ih hbehind]
    rfl

/-! ## The type of a declaration -/

/-- Whether a parameter is declared with a type and a name alone. -/
structure IsPlain (p : Parameter) : Prop where
  /-- It is not constant. -/
  isConst : p.isConst = false
  /-- It is not passed by reference. -/
  isRef : p.isRef = false
  /-- It is not passed by pointer. -/
  isPtr : p.isPtr = false

/-- The name of the parameter with which a type is declared. -/
def declaredName : Identifier := ⟨"x", rfl⟩

/-- The tree of the parameter that is declared with a type. -/
def declaredTree (type : TypeTree) : ParameterTree := ⟨false, type, .value, declaredName⟩

/-- A plain parameter is written without `const` and without a mark. -/
theorem IsPlain.eq_of_tree {tree : ParameterTree} (h : IsPlain tree.parameter) :
    tree.isConst = false ∧ tree.mark = .value := by
  obtain ⟨hconst, href, hptr⟩ := h
  refine ⟨hconst, ?_⟩
  cases hmark : tree.mark with
  | value => rfl
  | ref => exact absurd (tree.describes_parameter.isRef.mpr hmark) (by simp [href])
  | ptr => exact absurd (tree.describes_parameter.isPtr.mpr hmark) (by simp [hptr])

/-- The tokens of a type and of a name make up the tokens of a declaration. -/
theorem listTokens_plain (type : TypeTree) (name : Identifier) :
    listTokens [⟨false, type, .value, name⟩] = type.tokens ++ [.name name] := by
  simp [listTokens, separated, ParameterTree.tokens, constTokens, Mark.tokens]

/-- A spelling declares one plain parameter exactly if it is lexed into the tokens of a type. -/
theorem ofText_declaration_iff {spelling : String} {p : Parameter} :
    ofText (spelling ++ " x") = .ok [p] ∧ IsPlain p ↔
      ∃ type, Lexed spelling.toList (TypeTree.tokens type) ∧ p = (declaredTree type).parameter := by
  have hlexeme : (Token.name declaredName).IsLexeme := Token.isLexeme_name_iff.mpr (by decide)
  have hname : Lexed ['x'] [.name declaredName] := Lexed.nil.word hlexeme endsWord_nil
  have htext : (spelling ++ " x").toList = spelling.toList ++ ' ' :: ['x'] := by simp
  rw [ofText_eq_ok_iff, htext]
  simp only [lexed_append_layout_iff (c := ' ') rfl]
  constructor
  · -- The blank in front of the name parts its token from those of the type.
    rintro ⟨⟨tokens, trees, ⟨front, back, hfront, hback, rfl⟩, hderived, htrees⟩, hplain⟩
    obtain rfl := hback.unique hname
    obtain ⟨tree, rfl, rfl⟩ := List.map_eq_singleton_iff.mp htrees
    obtain ⟨isConst, type, mark, name⟩ := tree
    obtain ⟨rfl, rfl⟩ : isConst = false ∧ mark = .value := hplain.eq_of_tree
    have htokens := (derived_iff.mp hderived).trans (listTokens_plain type name)
    obtain ⟨rfl, hnames⟩ := List.append_inj' htokens rfl
    obtain rfl := Token.name.inj (List.cons.inj hnames).1
    exact ⟨type, hfront, rfl⟩
  · rintro ⟨type, hlexed, rfl⟩
    refine ⟨⟨_, [declaredTree type], ⟨_, _, hlexed, hname, rfl⟩, ?_, rfl⟩, ⟨rfl, rfl, rfl⟩⟩
    exact derived_iff.mpr (listTokens_plain type declaredName).symm

/-! ## The type of a spelling -/

/-- A chain of names spells the type that it declares. -/
theorem ofSpelling_of_lexed_chain {spelling : String} {scopes : List Identifier}
    {last : Identifier} (h : Lexed spelling.toList (chainTokens scopes last)) :
    ofSpelling spelling =
      .ok (.classified last.text (scopes.map Identifier.text) last.text_ne_empty) := by
  have hcomponents : QualifiedType.components
      (.classified last.text (scopes.map Identifier.text) last.text_ne_empty) =
        (scopes ++ [last]).map Identifier.text := by
    rw [List.map_append]
    rfl
  rw [ofSpelling_eq_ok_iff, spelledComponents_eq_iff, hcomponents,
    map_strip_pieces_of_lexed_chain h, List.map_map]
  refine ⟨rfl, ?_, rfl⟩
  intro hempty
  obtain ⟨word, -, hword⟩ := List.mem_map.mp hempty
  exact word.text_ne_empty hword

/-- A word behind `unsigned` and a blank makes up one name with it. -/
theorem ofSpelling_unsigned {word : Identifier} (h : "unsigned " ++ word.text ≠ "") :
    ofSpelling ("unsigned " ++ word.text) = .ok (.classified ("unsigned " ++ word.text) [] h) := by
  have hword := isWordPart_of_isIdentifier word.valid
  have htext : ("unsigned " ++ word.text).toList = "unsigned ".toList ++ word.text.toList :=
    String.toList_append
  have hcolon : ':' ∉ ("unsigned " ++ word.text).toList := by
    rw [htext, List.mem_append, not_or]
    exact ⟨by decide, fun hmem => absurd (hword _ hmem) (by decide)⟩
  have hbare : Bare ("unsigned " ++ word.text).toList := by
    rw [htext]
    rintro c (hfirst | hlast)
    · obtain rfl : 'u' = c := Option.some.inj hfirst
      decide
    · rw [List.getLast?_append_of_ne_nil _ (by simpa using word.text_ne_empty)] at hlast
      exact isBlank_eq_false_of_isWordPart (hword c (List.mem_of_getLast? hlast))
  rw [ofSpelling_eq_ok_iff, spelledComponents_eq_iff,
    pieces_of_unmarked (unmarked_of_notMem hcolon), List.map_singleton, strip_of_bare hbare]
  exact ⟨rfl, by simp [QualifiedType.components, QualifiedType.classified], rfl⟩

/-- The word `unsigned` with a blank and a word behind it is lexed into these two. -/
theorem lexed_unsigned (word : Identifier) :
    Lexed ("unsigned " ++ word.text).toList [.unsigned, .ofWord word] := by
  have hword : Lexed word.text.toList [.ofWord word] := by
    have hends : (Token.ofWord word).Longest [] := Token.longest_iff.mpr fun _ => endsWord_nil
    simpa using Lexed.token (Token.isLexeme_ofWord word) hends .nil
  have hlexed : Lexed (Token.text .unsigned).toList [.unsigned] := by
    simpa using Lexed.nil.reserved (t := .unsigned) (by simp) endsWord_nil
  have htext : ("unsigned " ++ word.text).toList =
      (Token.text .unsigned).toList ++ ' ' :: word.text.toList := by
    rw [String.toList_append]
    rfl
  rw [htext, lexed_append_layout_iff (c := ' ') rfl]
  exact ⟨_, _, hlexed, hword, rfl⟩

/-- The only type that is written with `unsigned` and a word has this word as its last name. -/
theorem eq_of_tokens_unsigned {word : Identifier} {type : TypeTree}
    (h : type.tokens = [.unsigned, .ofWord word]) : type = ⟨true, [], word⟩ := by
  obtain ⟨isUnsigned, scopes, last⟩ := type
  cases isUnsigned with
  | false =>
    obtain ⟨first, hfirst⟩ := head?_chainTokens scopes last
    have hhead : (chainTokens scopes last).head? = some .unsigned := congrArg List.head? h
    cases hfirst.symm.trans hhead
  | true =>
    have hchain : chainTokens scopes last = [.ofWord word] := (List.cons.inj h).2
    cases scopes with
    | nil =>
      have hlast : last.text = word.text := by
        rw [← Token.text_ofWord word, ← (List.cons.inj hchain).1]
        rfl
      cases last
      cases word
      cases hlast
      rfl
    | cons scope scopes => cases (List.cons.inj hchain).2

/-- The type that is declared by `unsigned` and a word is the one that is spelled so. -/
theorem ofSpelling_of_unsigned {word : Identifier} {type : TypeTree}
    (h : Lexed ("unsigned " ++ word.text).toList type.tokens) :
    ofSpelling ("unsigned " ++ word.text) = .ok (declaredTree type).parameter.type := by
  obtain rfl := eq_of_tokens_unsigned (h.unique (lexed_unsigned word))
  have hname : TypeDraft.unsignedName ⟨false, true, [], word⟩ = "unsigned " ++ word.text := by
    simp [TypeDraft.unsignedName, TypeDraft.words, ← String.append_assoc]
  have hne : "unsigned " ++ word.text ≠ "" := hname ▸ TypeDraft.unsignedName_ne_empty _
  have htype : (declaredTree ⟨true, [], word⟩).parameter.type =
      .classified ("unsigned " ++ word.text) [] hne := by
    change QualifiedType.classified (TypeDraft.unsignedName ⟨false, true, [], word⟩) [] _ = _
    simp only [hname]
  rw [htype, ofSpelling_unsigned]

/-- A type that is not written with `unsigned` is the one that is spelled so. -/
theorem ofSpelling_of_lexed {spelling : String} {type : TypeTree}
    (h : Lexed spelling.toList type.tokens) (hfirst : type.tokens.head? ≠ some .unsigned) :
    ofSpelling spelling = .ok (declaredTree type).parameter.type := by
  obtain ⟨isUnsigned, scopes, last⟩ := type
  cases isUnsigned with
  | true => exact absurd rfl hfirst
  | false => exact ofSpelling_of_lexed_chain h

/-! ## What a spelling is used for -/

/-- Whether a type stands for that of a plain parameter wherever types are spelled. -/
structure StandsFor (t : QualifiedType) (p : Parameter) : Prop where
  /-- It is the type of the parameter. -/
  declared : p.type = t
  /-- A placeholder declared in its place becomes the parameter when the type is substituted. -/
  substituted : ∀ (placeholder : Identifier) (thisClass : Option QualifiedType),
    (Token.name placeholder).IsLexeme → ∃ q, ofText (placeholder.text ++ " x") = .ok [q] ∧
      expand ⟨placeholder.text, t, thisClass⟩ [q] = [p]
  /-- A callable that was declared as the instance of the one is that of the other. -/
  instantiated : ∀ (c : Callable) (name : String) (isVerbose again : Bool) (d : Declaration),
    c.declare name (some p.type) isVerbose = .ok d →
      d.callable.declare name (some t) again = .ok ⟨d.callable, false, []⟩
  /-- The parameter is valid exactly if the name of the type is among the valid ones. -/
  verified : ∀ (o : OverloadSet) (valid : List String) (context : String),
    (o.push [p]).verify valid context = .ok () ↔
      o.verify valid context = .ok () ∧ t.qualified ∈ valid

/-- The type of a declaration stands for itself. -/
theorem standsFor_declared (type : TypeTree) :
    StandsFor (declaredTree type).parameter.type (declaredTree type).parameter where
  declared := rfl
  substituted placeholder thisClass hlexeme := by
    have hlexed : Lexed placeholder.text.toList (TypeTree.tokens ⟨false, [], placeholder⟩) := by
      rw [← List.append_nil placeholder.text.toList]
      exact Lexed.nil.word hlexeme endsWord_nil
    refine ⟨_, (ofText_declaration_iff.mpr ⟨_, hlexed, rfl⟩).1, ?_⟩
    have hname := Substitution.apply_of_placeholder
      (s := ⟨placeholder.text, (declaredTree type).parameter.type, thisClass⟩)
      (t := (declaredTree ⟨false, [], placeholder⟩).parameter.type) rfl rfl
    rw [expand, List.map_singleton, Parameter.expand, hname]
    rfl
  instantiated c name isVerbose again d hdeclared := by
    obtain ⟨hname, hidentity, -⟩ := Callable.accepted_declare hdeclared
    rw [Callable.declare, if_neg hname, hidentity]
    exact if_pos rfl
  verified o valid context := by
    simp only [OverloadSet.verify_eq_ok_iff, OverloadSet.types, OverloadSet.held_push,
      List.flatMap_append, List.forall_mem_append]
    simp [types]

/-- A spelling that declares one plain parameter, `unsigned` words with single blanks only, is that
of a type by itself, and this type stands for that of the parameter wherever types are compared. -/
theorem declared_type_stands_spelled {spelling : String} {p : Parameter}
    (hread : ofText (spelling ++ " x") = .ok [p]) (hplain : IsPlain p) :
    ∃ tokens, Lexed spelling.toList tokens ∧
      (tokens.head? ≠ some .unsigned ∨ (∃ word : Identifier, spelling = "unsigned " ++ word.text) →
        ∃ t, ofSpelling spelling = .ok t ∧ StandsFor t p) := by
  obtain ⟨type, hlexed, rfl⟩ := ofText_declaration_iff.mp ⟨hread, hplain⟩
  refine ⟨type.tokens, hlexed, fun hform => ⟨_, ?_, standsFor_declared type⟩⟩
  rcases hform with hfirst | ⟨word, rfl⟩
  · exact ofSpelling_of_lexed hlexed hfirst
  · exact ofSpelling_of_unsigned hlexed

/-- Layout in a chain of names makes no difference, and `unsigned` with a word is one name. -/
theorem padded_chain_stands_spelled :
    (∃ p t, ofText (" gtsam ::\tnoiseModel\n:: Base" ++ " x") = .ok [p] ∧ IsPlain p ∧
      ofSpelling " gtsam ::\tnoiseModel\n:: Base" = .ok t ∧ StandsFor t p) ∧
    ∃ p t, ofText ("unsigned char" ++ " x") = .ok [p] ∧ IsPlain p ∧
      ofSpelling "unsigned char" = .ok t ∧ StandsFor t p := by
  refine ⟨?_, ?_⟩
  · let type : QualifiedType := ⟨"Base", ["gtsam", "noiseModel"], .wrapped, by decide⟩
    let p : Parameter := { name := "x", type }
    have hread : ofText (" gtsam ::\tnoiseModel\n:: Base" ++ " x") = .ok [p] :=
      eq_ok_of_toOption (by decide +kernel)
    have hplain : IsPlain p := ⟨rfl, rfl, rfl⟩
    obtain ⟨tokens, hlexed, hspelled⟩ := declared_type_stands_spelled hread hplain
    have hfirst : tokens.head? ≠ some .unsigned := by
      rw [← (lexed_iff.mp hlexed).2]
      decide +kernel
    obtain ⟨t, ht, hstands⟩ := hspelled (.inl hfirst)
    exact ⟨p, t, hread, hplain, ht, hstands⟩
  · let type : QualifiedType := ⟨"unsigned char", [], .basic, by decide⟩
    let p : Parameter := { name := "x", type }
    have hread : ofText ("unsigned char" ++ " x") = .ok [p] :=
      eq_ok_of_toOption (by decide +kernel)
    have hplain : IsPlain p := ⟨rfl, rfl, rfl⟩
    obtain ⟨tokens, -, hspelled⟩ := declared_type_stands_spelled hread hplain
    obtain ⟨t, ht, hstands⟩ := hspelled (.inr ⟨⟨"char", by decide⟩, rfl⟩)
    exact ⟨p, t, hread, hplain, ht, hstands⟩

end OverloadDispatch.Signature
