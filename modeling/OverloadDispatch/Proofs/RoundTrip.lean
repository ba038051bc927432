import OverloadDispatch.Proofs.Reading

/-!
# Printing and reading

A printed parameter is lexed into the tokens of its tree, except that no scope mark is printed
behind `unsigned`: the name of such a type is made of all words that were written. Where the words
had scope marks between them, the second one is taken for the name of the parameter and what is left
has no place. Reading a printed signature therefore gives the signature back where no such type was
written, and is refused elsewhere.
-/

namespace OverloadDispatch.Signature

open Text

/-! ## The tokens of a printed parameter -/

/-- Whether a type has a scope mark behind `unsigned`. -/
def TypeTree.HasLostScopes (t : TypeTree) : Prop := t.isUnsigned = true ∧ t.scopes ≠ []

/-- The tokens of a type as it is printed. -/
def TypeTree.printedTokens (t : TypeTree) : List Token :=
  if t.isUnsigned then .unsigned :: t.words.map .name else t.tokens

/-- The tokens of a parameter as it is printed. -/
def ParameterTree.printedTokens (p : ParameterTree) : List Token :=
  constTokens p.isConst ++ p.type.printedTokens ++ p.mark.tokens ++ [.name p.name]

/-- A type is printed as it was written where no scope mark is lost. -/
theorem TypeTree.printedTokens_eq {t : TypeTree} (h : ¬t.HasLostScopes) :
    t.printedTokens = t.tokens := by
  obtain ⟨isUnsigned, scopes, last⟩ := t
  cases isUnsigned with
  | true =>
    cases scopes with
    | nil => rfl
    | cons scope scopes => exact absurd ⟨rfl, List.cons_ne_nil _ _⟩ h
  | false => rfl

/-- A parameter is printed as it was written where no scope mark is lost. -/
theorem ParameterTree.printedTokens_eq {p : ParameterTree} (h : ¬p.type.HasLostScopes) :
    p.printedTokens = p.tokens := by
  rw [printedTokens, TypeTree.printedTokens_eq h, tokens]

/-! ## A printed signature is lexed into these tokens -/

/-- A lexeme that is a word is taken where it ends. -/
theorem Lexed.word {word : Identifier} {rest : List Char} {tokens : List Token}
    (h : Lexed rest tokens) (hlexeme : (Token.name word).IsLexeme) (hends : EndsWord rest) :
    Lexed (word.text.toList ++ rest) (.name word :: tokens) :=
  .token hlexeme (Token.longest_iff.mpr fun _ => hends) h

/-- A reserved word is taken where it ends. -/
theorem Lexed.reserved {t : Token} {rest : List Char} {tokens : List Token} (h : Lexed rest tokens)
    (hname : ∀ word, t ≠ .name word) (hends : EndsWord rest) :
    Lexed (t.text.toList ++ rest) (t :: tokens) :=
  .token (fun word hword => absurd hword (hname word)) (Token.longest_iff.mpr fun _ => hends) h

/-- A token that is no word is taken wherever it stands. -/
theorem Lexed.sign {t : Token} {rest : List Char} {tokens : List Token} (h : Lexed rest tokens)
    (hsign : t.isWord = false) : Lexed (t.text.toList ++ rest) (t :: tokens) :=
  .token (Token.isLexeme_of_isWord_eq_false hsign) (Token.longest_of_isWord_eq_false hsign rest) h

/-- A chain is lexed into its names with scope marks between them. -/
theorem Lexed.chain {scopes : List Identifier} {last : Identifier} {rest : List Char}
    {tokens : List Token} (h : Lexed rest tokens) (hends : EndsWord rest)
    (hlexemes : ∀ word ∈ scopes ++ [last], (Token.name word).IsLexeme) :
    Lexed ((String.intercalate "::" ((scopes ++ [last]).map Identifier.text)).toList ++ rest)
      (chainTokens scopes last ++ tokens) := by
  induction scopes with
  | nil =>
    rw [List.nil_append, List.map_singleton, String.intercalate_singleton]
    exact h.word (hlexemes last List.mem_cons_self) hends
  | cons scope scopes ih =>
    obtain ⟨hscope, hrest⟩ := List.forall_mem_cons.mp hlexemes
    rw [List.cons_append, List.map_cons, String.intercalate_cons_of_ne_nil (by simp)]
    simp only [String.toList_append, List.append_assoc]
    have hmark := (ih hrest).sign (t := .scope) rfl
    exact hmark.word hscope (Token.endsWord_append (t := .scope) rfl _)

/-- Words with a blank in front of each are lexed into names. -/
theorem Lexed.words {words : List Identifier} {rest : List Char} {tokens : List Token}
    (h : Lexed rest tokens) (hends : EndsWord rest)
    (hlexemes : ∀ word ∈ words, (Token.name word).IsLexeme) :
    let text := (String.join (words.map fun word => " " ++ word.text)).toList ++ rest
    Lexed text (words.map .name ++ tokens) ∧ EndsWord text := by
  induction words with
  | nil => exact ⟨by simpa using h, by simpa using hends⟩
  | cons word words ih =>
    obtain ⟨hword, hrest⟩ := List.forall_mem_cons.mp hlexemes
    obtain ⟨hlexed, hwords⟩ := ih hrest
    simp only [List.map_cons, String.join_cons, String.toList_append, List.append_assoc]
    exact ⟨.layout rfl (hlexed.word hword hwords), endsWord_cons rfl⟩

/-- A printed type is lexed into its tokens. -/
theorem Lexed.type {tree : ParameterTree} {rest : List Char} {tokens : List Token}
    (h : Lexed rest tokens) (hends : EndsWord rest)
    (hlexemes : ∀ word ∈ tree.type.words, (Token.name word).IsLexeme) :
    Lexed (tree.draft.type.qualified.toList ++ rest)
      (tree.type.printedTokens ++ tokens) := by
  obtain ⟨isConst, ⟨isUnsigned, scopes, last⟩, mark, name⟩ := tree
  cases isUnsigned with
  | true =>
    obtain ⟨hwords, hunsigned⟩ := h.words hends hlexemes
    have hlexed := hwords.reserved (t := .unsigned) (by simp) hunsigned
    have hqualified : QualifiedType.qualified (TypeDraft.type ⟨isConst, true, scopes, last⟩) =
        "unsigned" ++ String.join ((scopes ++ [last]).map fun word => " " ++ word.text) := by
      change String.intercalate "::" [TypeDraft.unsignedName _] = _
      rw [String.intercalate_singleton, TypeDraft.unsignedName, TypeDraft.words, List.map_map]
      rfl
    rw [ParameterTree.draft, hqualified, String.toList_append, List.append_assoc]
    exact hlexed
  | false =>
    have hchain := h.chain hends hlexemes
    rw [List.map_append] at hchain
    exact hchain

/-- A printed mark and name are lexed into their tokens. -/
theorem Lexed.mark {tree : ParameterTree} {rest : List Char} {tokens : List Token}
    (h : Lexed rest tokens) (hends : EndsWord rest) (hlexeme : (Token.name tree.name).IsLexeme) :
    let text := tree.parameter.mark.toList ++ ' ' :: (tree.name.text.toList ++ rest)
    Lexed text (tree.mark.tokens ++ .name tree.name :: tokens) ∧ EndsWord text := by
  obtain ⟨isConst, type, mark, name⟩ := tree
  have hname : Lexed (' ' :: (name.text.toList ++ rest)) (.name name :: tokens) :=
    .layout rfl (h.word hlexeme hends)
  cases mark with
  | value => exact ⟨hname, endsWord_cons rfl⟩
  | ref => exact ⟨hname.sign (t := .ref) rfl, Token.endsWord_append (t := .ref) rfl _⟩
  | ptr => exact ⟨hname.sign (t := .ptr) rfl, Token.endsWord_append (t := .ptr) rfl _⟩

/-- A printed parameter is lexed into its tokens. -/
theorem Lexed.parameter {tree : ParameterTree} {rest : List Char} {tokens : List Token}
    (h : Lexed rest tokens) (hends : EndsWord rest)
    (hlexemes : ∀ word ∈ tree.words, (Token.name word).IsLexeme) :
    Lexed (tree.parameter.text.toList ++ rest) (tree.printedTokens ++ tokens) := by
  obtain ⟨hwords, hname⟩ := List.forall_mem_append.mp hlexemes
  obtain ⟨hmark, hends⟩ := h.mark hends (hname tree.name List.mem_cons_self)
  have htype := hmark.type hends hwords
  cases hconst : tree.isConst with
  | true =>
    have hlayout : Lexed (' ' :: (tree.draft.type.qualified.toList ++ _)) _ := .layout rfl htype
    have hlexed := hlayout.reserved (t := .const) (by simp) (endsWord_cons rfl)
    simpa [ParameterTree.printedTokens, constTokens, Parameter.text, hconst, Token.text]
      using hlexed
  | false =>
    simpa [ParameterTree.printedTokens, constTokens, Parameter.text, hconst] using htype

/-- A printed signature is lexed into the tokens of its parameters with commas between them. -/
theorem lexed_body {trees : List ParameterTree}
    (hlexemes : ∀ tree ∈ trees, ∀ word ∈ tree.words, (Token.name word).IsLexeme) :
    Lexed (body (trees.map ParameterTree.parameter)).toList
      (separated (trees.map ParameterTree.printedTokens)) := by
  induction trees with
  | nil => exact .nil
  | cons tree trees ih =>
    obtain ⟨htree, htrees⟩ := List.forall_mem_cons.mp hlexemes
    cases trees with
    | nil =>
      have hlexed := Lexed.nil.parameter endsWord_nil htree
      simpa [body, separated] using hlexed
    | cons next trees =>
      have hlayout : Lexed (' ' :: (body ((next :: trees).map ParameterTree.parameter)).toList) _ :=
        .layout rfl (ih htrees)
      have hcomma := hlayout.sign (t := .comma) rfl
      have hlexed := hcomma.parameter (Token.endsWord_append (t := .comma) rfl _) htree
      simpa [body, separated, String.intercalate_cons_cons, Token.text] using hlexed

/-! ## Where scope marks are lost -/

namespace ParameterTree

/-- Where scope marks are lost, more than a parameter is printed, and no comma comes behind it. -/
theorem exists_printedTokens_eq {p : ParameterTree} (h : p.type.HasLostScopes) :
    ∃ (q : ParameterTree) (t : Token) (more : List Token),
      t ≠ .comma ∧ p.printedTokens = q.tokens ++ t :: more := by
  obtain ⟨isConst, ⟨isUnsigned, scopes, last⟩, mark, name⟩ := p
  obtain ⟨rfl, hscopes⟩ := h
  obtain ⟨first, scopes, rfl⟩ := List.exists_cons_of_ne_nil hscopes
  -- The second word is taken for the name.
  obtain ⟨second, others, hwords⟩ := List.exists_cons_of_ne_nil (List.concat_ne_nil last scopes)
  obtain ⟨t, more, ht, hmore⟩ : ∃ (t : Token) (more : List Token),
      t ≠ .comma ∧ others.map .name ++ mark.tokens ++ [.name name] = t :: more := by
    cases others with
    | cons word others => exact ⟨.name word, _, by simp, rfl⟩
    | nil =>
      cases mark with
      | value => exact ⟨.name name, _, by simp, rfl⟩
      | ref => exact ⟨.ref, _, by simp, rfl⟩
      | ptr => exact ⟨.ptr, _, by simp, rfl⟩
  refine ⟨⟨isConst, ⟨true, [], first⟩, .value, second⟩, t, more, ht, ?_⟩
  rw [← hmore]
  simp [printedTokens, TypeTree.printedTokens, TypeTree.words, tokens, TypeTree.tokens,
    unsignedTokens, Mark.tokens, hwords]

/-- No scope mark is lost in a parameter whose printed tokens a list of parameters begins with. -/
theorem not_hasLostScopes {p q : ParameterTree} {others : List ParameterTree} {rest : List Token}
    (h : p.tokens ++ (others.map tokens).flatMap (.comma :: ·) = q.printedTokens ++ rest) :
    ¬q.type.HasLostScopes := by
  intro hlost
  obtain ⟨q', t, more, ht, hprinted⟩ := exists_printedTokens_eq hlost
  rw [hprinted, List.append_assoc, List.cons_append] at h
  obtain ⟨-, hrest⟩ := tokens_append_inj h
  cases others with
  | nil => cases hrest
  | cons other others => exact ht (List.cons.inj hrest).1.symm

/-- No scope mark is lost behind commas where the printed tokens are those of parameters. -/
theorem not_hasLostScopes_of_flatMap_comma_eq {trees others : List ParameterTree}
    (h : (others.map tokens).flatMap (.comma :: ·) =
      (trees.map printedTokens).flatMap (.comma :: ·)) :
    ∀ tree ∈ trees, ¬tree.type.HasLostScopes := by
  induction trees generalizing others with
  | nil => exact List.forall_mem_nil _
  | cons tree trees ih =>
    cases others with
    | nil => cases h
    | cons other others =>
      have hparameters := (List.cons.inj h).2
      have hkept := not_hasLostScopes hparameters
      change other.tokens ++ _ = tree.printedTokens ++ _ at hparameters
      rw [printedTokens_eq hkept] at hparameters
      exact List.forall_mem_cons.mpr ⟨hkept, ih (tokens_append_inj hparameters).2⟩

end ParameterTree

/-- No scope mark is lost where the printed tokens have a derivation. -/
theorem not_hasLostScopes_of_derived {trees others : List ParameterTree}
    (h : Derived (separated (trees.map ParameterTree.printedTokens)) others) :
    ∀ tree ∈ trees, ¬tree.type.HasLostScopes := by
  have htokens := (derived_iff.mp h).symm
  cases trees with
  | nil => exact List.forall_mem_nil _
  | cons tree trees =>
    cases others with
    | nil =>
      have hname := (List.append_eq_nil_iff.mp htokens.symm).1
      exact absurd (List.append_eq_nil_iff.mp hname).2 (List.cons_ne_nil _ _)
    | cons other others =>
      -- A comma in front of both sides makes the first parameter one of the others.
      have hcommas : ((other :: others).map ParameterTree.tokens).flatMap (.comma :: ·) =
          ((tree :: trees).map ParameterTree.printedTokens).flatMap (.comma :: ·) :=
        congrArg (Token.comma :: ·) htokens
      exact ParameterTree.not_hasLostScopes_of_flatMap_comma_eq hcommas

/-- A printed signature is read as it is exactly if no scope mark is lost in it. -/
theorem ofText_body_eq_ok_iff {trees : List ParameterTree}
    (hlexemes : ∀ tree ∈ trees, ∀ word ∈ tree.words, (Token.name word).IsLexeme) :
    ofText (body (trees.map ParameterTree.parameter)) = .ok (trees.map ParameterTree.parameter) ↔
      ∀ tree ∈ trees, ¬tree.type.HasLostScopes := by
  have hlexed := lexed_body hlexemes
  constructor
  · intro h
    obtain ⟨tokens, others, hlexed', hderived, -⟩ := ofText_eq_ok_iff.mp h
    obtain rfl := hlexed'.unique hlexed
    exact not_hasLostScopes_of_derived hderived
  · intro hkept
    have hprinted : trees.map ParameterTree.printedTokens = trees.map ParameterTree.tokens :=
      List.map_congr_left fun tree htree => ParameterTree.printedTokens_eq (hkept tree htree)
    rw [hprinted] at hlexed
    exact ofText_eq_ok_iff.mpr ⟨_, trees, hlexed, derived_iff.mpr rfl, rfl⟩

/-- A printed signature in which a scope mark is lost is not read at all. -/
theorem ofText_body_eq_error {trees : List ParameterTree}
    (hlexemes : ∀ tree ∈ trees, ∀ word ∈ tree.words, (Token.name word).IsLexeme)
    (hlost : ∃ tree ∈ trees, tree.type.HasLostScopes) :
    ∃ reason, ofText (body (trees.map ParameterTree.parameter)) =
      .error (.unreadable (body (trees.map ParameterTree.parameter)) reason) := by
  cases h : ofText (body (trees.map ParameterTree.parameter)) with
  | error fault =>
    obtain ⟨reason, rfl⟩ := ofText_eq_error h
    exact ⟨reason, rfl⟩
  | ok s =>
    obtain ⟨tokens, others, hlexed, hderived, -⟩ := ofText_eq_ok_iff.mp h
    obtain rfl := hlexed.unique (lexed_body hlexemes)
    obtain ⟨tree, htree, hscopes⟩ := hlost
    exact absurd hscopes (not_hasLostScopes_of_derived hderived tree htree)

/-! ## Signatures that are read back -/

/-- Whether a text is a name: an identifier that is no reserved word. -/
def IsName (text : String) : Prop :=
  isIdentifier text.toList = true ∧ text ≠ "const" ∧ text ≠ "unsigned"

/-- What a parameter is like that is read back when it is printed. -/
structure IsDeclaration (p : Parameter) : Prop where
  /-- The name of the parameter is a name. -/
  name : IsName p.name
  /-- The type is a chain of names, or `unsigned` and a name outside all namespaces. -/
  type : (∀ component ∈ p.type.components, IsName component) ∨
    p.type.namespaces = [] ∧ ∃ word, IsName word ∧ p.type.name = "unsigned " ++ word
  /-- The category is the one that the name and the namespaces suggest. -/
  category : p.type.category = classify p.type.name p.type.namespaces
  /-- It is not passed in both ways. -/
  mark : ¬(p.isRef = true ∧ p.isPtr = true)

/-- Names are the texts of identifiers that are lexemes. -/
theorem exists_identifier {text : String} (h : IsName text) :
    ∃ word : Identifier, word.text = text ∧ (Token.name word).IsLexeme :=
  ⟨⟨text, h.1⟩, rfl, Token.isLexeme_name_iff.mpr h.2⟩

/-- Lists of names are the texts of lists of identifiers that are lexemes. -/
theorem exists_identifiers {texts : List String} (h : ∀ text ∈ texts, IsName text) :
    ∃ words : List Identifier, words.map Identifier.text = texts ∧
      ∀ word ∈ words, (Token.name word).IsLexeme := by
  induction texts with
  | nil => exact ⟨[], rfl, List.forall_mem_nil _⟩
  | cons text texts ih =>
    obtain ⟨hfirst, hrest⟩ := List.forall_mem_cons.mp h
    obtain ⟨word, rfl, hword⟩ := exists_identifier hfirst
    obtain ⟨words, rfl, hwords⟩ := ih hrest
    exact ⟨word :: words, rfl, List.forall_mem_cons.mpr ⟨hword, hwords⟩⟩

/-- The marks of a parameter that is not passed in both ways are those of a tree. -/
theorem exists_mark {isRef isPtr : Bool} (h : ¬(isRef = true ∧ isPtr = true)) :
    ∃ mark : Mark, (isRef = true ↔ mark = .ref) ∧ (isPtr = true ↔ mark = .ptr) := by
  cases isRef with
  | true =>
    cases isPtr with
    | true => exact absurd ⟨rfl, rfl⟩ h
    | false => exact ⟨.ref, by decide, by decide⟩
  | false =>
    cases isPtr with
    | true => exact ⟨.ptr, by decide, by decide⟩
    | false => exact ⟨.value, by decide, by decide⟩

/-- Such a parameter is that of a tree with no scope mark behind `unsigned`. -/
theorem IsDeclaration.exists_tree {p : Parameter} (h : IsDeclaration p) :
    ∃ tree : ParameterTree, tree.parameter = p ∧ ¬tree.type.HasLostScopes ∧
      ∀ word ∈ tree.words, (Token.name word).IsLexeme := by
  obtain ⟨name, hname, hnameLexeme⟩ := exists_identifier h.name
  obtain ⟨mark, href, hptr⟩ := exists_mark h.mark
  have hwords : ∀ type : TypeTree, (∀ word ∈ type.words, (Token.name word).IsLexeme) →
      ∀ word ∈ (ParameterTree.mk p.isConst type mark name).words, (Token.name word).IsLexeme :=
    fun type htype => List.forall_mem_append.mpr
      ⟨htype, List.forall_mem_singleton.mpr hnameLexeme⟩
  rcases h.type with hchain | ⟨hspaces, word, hword, htype⟩
  · obtain ⟨hscopes, hlast⟩ := List.forall_mem_append.mp hchain
    obtain ⟨scopes, hscopes, hscopesLexeme⟩ := exists_identifiers hscopes
    obtain ⟨last, hlast, hlastLexeme⟩ := exists_identifier (hlast _ List.mem_cons_self)
    let tree : ParameterTree := ⟨p.isConst, ⟨false, scopes, last⟩, mark, name⟩
    have hdescribes : tree.Describes p := {
      name := hname.symm
      isConst := rfl
      isRef := href
      isPtr := hptr
      chain := fun _ => ⟨hlast.symm, hscopes.symm⟩
      several := fun hunsigned => absurd hunsigned Bool.false_ne_true
      category := h.category }
    refine ⟨tree, tree.describes_parameter.eq hdescribes,
      fun hlost => absurd hlost.1 Bool.false_ne_true, hwords _ ?_⟩
    exact List.forall_mem_append.mpr
      ⟨hscopesLexeme, List.forall_mem_singleton.mpr hlastLexeme⟩
  · obtain ⟨last, rfl, hlastLexeme⟩ := exists_identifier hword
    let tree : ParameterTree := ⟨p.isConst, ⟨true, [], last⟩, mark, name⟩
    have hdescribes : tree.Describes p := {
      name := hname.symm
      isConst := rfl
      isRef := href
      isPtr := hptr
      chain := fun hchain => absurd hchain.symm Bool.false_ne_true
      several := fun _ => ⟨htype, hspaces⟩
      category := h.category }
    refine ⟨tree, tree.describes_parameter.eq hdescribes, fun hlost => hlost.2 rfl, hwords _ ?_⟩
    exact List.forall_mem_singleton.mpr hlastLexeme

/-- A signature of such parameters is that of trees with no scope mark behind `unsigned`. -/
theorem exists_trees {s : Signature} (h : ∀ p ∈ s, IsDeclaration p) :
    ∃ trees : List ParameterTree, trees.map ParameterTree.parameter = s ∧
      (∀ tree ∈ trees, ¬tree.type.HasLostScopes) ∧
      ∀ tree ∈ trees, ∀ word ∈ tree.words, (Token.name word).IsLexeme := by
  induction s with
  | nil => exact ⟨[], rfl, List.forall_mem_nil _, List.forall_mem_nil _⟩
  | cons p s ih =>
    obtain ⟨hfirst, hrest⟩ := List.forall_mem_cons.mp h
    obtain ⟨tree, rfl, hkept, hlexeme⟩ := hfirst.exists_tree
    obtain ⟨trees, rfl, hkepts, hlexemes⟩ := ih hrest
    exact ⟨tree :: trees, rfl, List.forall_mem_cons.mpr ⟨hkept, hkepts⟩,
      List.forall_mem_cons.mpr ⟨hlexeme, hlexemes⟩⟩

/-- A text without its first and its last character. -/
def unwrapped (text : String) : String := String.ofList text.toList.tail.dropLast

/-- Without its parentheses a printed signature is its parameters with commas between them. -/
@[simp] theorem unwrapped_text (s : Signature) : unwrapped s.text = s.body := by
  have htext : s.text.toList = '(' :: (s.body.toList ++ [')']) := by
    simp [text, String.toList_append]
  rw [unwrapped, htext, List.tail_cons, List.dropLast_concat, String.ofList_toList]

/-- Whether a text is lexed into tokens from which the trees are derived. -/
def Spells (text : String) (trees : List ParameterTree) : Prop :=
  ∃ tokens, Lexed text.toList tokens ∧ Derived tokens trees

/-- A signature that can be declared is read back when it is printed. One that was read is read back
exactly if its text has no scope mark behind `unsigned`, and is refused otherwise. -/
theorem ofText_unwrapped_text :
    (∀ s : Signature, (∀ p ∈ s, IsDeclaration p) → ofText (unwrapped s.text) = .ok s) ∧
    ∀ text s, ofText text = .ok s →
      (∃ trees, Spells text trees) ∧
      ∀ trees, Spells text trees →
        (ofText (unwrapped s.text) = .ok s ↔ ∀ tree ∈ trees, ¬tree.type.HasLostScopes) ∧
        ((∃ tree ∈ trees, tree.type.HasLostScopes) →
          ∃ reason, ofText (unwrapped s.text) = .error (.unreadable (unwrapped s.text) reason)) := by
  simp only [unwrapped_text]
  constructor
  · intro s hs
    obtain ⟨trees, rfl, hkept, hlexemes⟩ := exists_trees hs
    exact (ofText_body_eq_ok_iff hlexemes).mpr hkept
  · intro text s hs
    obtain ⟨tokens, trees, hlexed, hderived, rfl⟩ := ofText_eq_ok_iff.mp hs
    refine ⟨⟨trees, tokens, hlexed, hderived⟩, ?_⟩
    rintro others ⟨tokens', hlexed', hderived'⟩
    obtain rfl := hlexed'.unique hlexed
    obtain rfl := hderived'.unique hderived
    rw [derived_iff.mp hderived] at hlexed
    have hlexemes : ∀ tree ∈ others, ∀ word ∈ tree.words, (Token.name word).IsLexeme :=
      fun tree htree word hword => hlexed.isLexeme_of_mem htree hword
    exact ⟨ofText_body_eq_ok_iff hlexemes, ofText_body_eq_error hlexemes⟩

/-- The second word of a type is taken for the name, and the name has no place then. -/
example :
    (ofText "unsigned a::b c").toOption.map text = some "(unsigned a b c)" ∧
      (ofText "unsigned a b c").toOption = none := by
  decide +kernel

end OverloadDispatch.Signature
