import Mathlib.Data.List.Forall2
import OverloadDispatch.Proofs.Lexing

/-!
# Reading

A derivation tree is spelled by its tokens, and no two lists of trees are spelled by the same ones.
The reader goes through the tokens of a list of trees and holds the parameters of the trees at the
end. Conversely, what it has read at any moment is a sequence of whole trees with commas behind
them and a part of one more, so the tokens at which it may end are those of a list of trees. The
texts that are read are therefore those of the grammar, each with the meaning of its one derivation.
-/

namespace OverloadDispatch.Signature

open Text

/-! ## The tokens of a tree -/

/-- The tokens of a chain of names. -/
def chainTokens (scopes : List Identifier) (last : Identifier) : List Token :=
  scopes.flatMap (fun word => [.name word, .scope]) ++ [.name last]

/-- The tokens of a type. -/
def TypeTree.tokens (t : TypeTree) : List Token :=
  unsignedTokens t.isUnsigned ++ chainTokens t.scopes t.last

/-- The tokens of a parameter. -/
def ParameterTree.tokens (p : ParameterTree) : List Token :=
  constTokens p.isConst ++ p.type.tokens ++ p.mark.tokens ++ [.name p.name]

/-- Sequences of tokens with commas between them. -/
def separated : List (List Token) → List Token
  | [] => []
  | part :: rest => part ++ rest.flatMap (.comma :: ·)

/-- The tokens of a list of parameters. -/
def listTokens (trees : List ParameterTree) : List Token :=
  separated (trees.map ParameterTree.tokens)

@[simp] theorem chainTokens_nil (last : Identifier) : chainTokens [] last = [.name last] := rfl

@[simp] theorem chainTokens_cons (word : Identifier) (scopes : List Identifier)
    (last : Identifier) :
    chainTokens (word :: scopes) last = .name word :: .scope :: chainTokens scopes last := rfl

/-- A chain goes on behind its last name. -/
theorem chainTokens_concat (scopes : List Identifier) (last word : Identifier) :
    chainTokens (scopes ++ [last]) word = chainTokens scopes last ++ [.scope, .name word] := by
  simp [chainTokens]

/-- Commas in front of all parts but the first are commas behind all but the last. -/
theorem separated_concat (parts : List (List Token)) (last : List Token) :
    separated (parts ++ [last]) = parts.flatMap (· ++ [.comma]) ++ last := by
  cases parts with
  | nil => simp [separated]
  | cons part parts =>
    induction parts generalizing part with
    | nil => simp [separated]
    | cons next parts ih =>
      have h := ih next
      simp only [List.cons_append, separated, List.flatMap_cons, List.append_assoc] at h ⊢
      rw [h]
      simp

/-- A chain is derived from exactly the tokens of its names. -/
theorem chain_iff {tokens : List Token} {scopes : List Identifier} {last : Identifier} :
    Chain tokens (scopes ++ [last]) ↔ tokens = chainTokens scopes last := by
  induction scopes generalizing tokens with
  | nil =>
    constructor
    · intro h
      cases h with
      | single => rfl
      | cons _ htail => cases htail
    · rintro rfl
      exact .single last
  | cons word scopes ih =>
    constructor
    · intro h
      rw [List.cons_append] at h
      cases h' : scopes ++ [last] with
      | nil => exact absurd h' (by simp)
      | cons next words =>
        rw [h'] at h
        cases h with
        | @cons _ tokens _ htail =>
          obtain rfl : tokens = chainTokens scopes last := ih.mp (h' ▸ htail)
          rfl
    · rintro rfl
      exact .cons word (ih.mpr rfl)

/-- A type is derived from exactly its tokens. -/
theorem derivedType_iff {tokens : List Token} {type : TypeTree} :
    DerivedType tokens type ↔ tokens = type.tokens := by
  constructor
  · rintro ⟨isUnsigned, hchain⟩
    rw [chain_iff.mp hchain]
    rfl
  · rintro rfl
    exact .intro type.isUnsigned (chain_iff.mpr rfl)

/-- A parameter is derived from exactly its tokens. -/
theorem derivedParameter_iff {tokens : List Token} {tree : ParameterTree} :
    DerivedParameter tokens tree ↔ tokens = tree.tokens := by
  constructor
  · rintro ⟨isConst, mark, name, htype⟩
    rw [derivedType_iff.mp htype]
    rfl
  · rintro rfl
    exact .intro tree.isConst tree.mark tree.name (derivedType_iff.mpr rfl)

/-- A sequence of parameters is derived from exactly their tokens with commas between them. -/
theorem derivedParameters_iff {tokens : List Token} {trees : List ParameterTree} :
    DerivedParameters tokens trees ↔ trees ≠ [] ∧ tokens = listTokens trees := by
  constructor
  · intro h
    induction h with
    | single hfirst =>
      rw [derivedParameter_iff.mp hfirst]
      exact ⟨List.cons_ne_nil _ _, by simp [listTokens, separated]⟩
    | @cons tokens others tree trees hfirst _ ih =>
      obtain ⟨hne, rfl⟩ := ih
      obtain ⟨next, rest, rfl⟩ := List.exists_cons_of_ne_nil hne
      rw [derivedParameter_iff.mp hfirst]
      exact ⟨List.cons_ne_nil _ _, by simp [listTokens, separated]⟩
  · rintro ⟨hne, rfl⟩
    induction trees with
    | nil => exact absurd rfl hne
    | cons tree trees ih =>
      cases trees with
      | nil =>
        have hsingle := DerivedParameters.single (derivedParameter_iff.mpr (Eq.refl tree.tokens))
        simpa [listTokens, separated] using hsingle
      | cons next rest =>
        have hcons := DerivedParameters.cons (derivedParameter_iff.mpr (Eq.refl tree.tokens))
          (ih (List.cons_ne_nil _ _))
        simpa [listTokens, separated] using hcons

/-- A list of parameters is derived from exactly its tokens. -/
theorem derived_iff {tokens : List Token} {trees : List ParameterTree} :
    Derived tokens trees ↔ tokens = listTokens trees := by
  constructor
  · intro h
    cases h with
    | empty => rfl
    | sequence hsequence => exact (derivedParameters_iff.mp hsequence).2
  · rintro rfl
    cases trees with
    | nil => exact .empty
    | cons tree rest =>
      exact .sequence (derivedParameters_iff.mpr ⟨List.cons_ne_nil _ _, rfl⟩)

/-! ## A tree is told by its tokens -/

/-- Whether an optional token is there can be told when nothing else begins with it. -/
theorem optional_append_inj {t : Token} {isThere isThere' : Bool} {rest rest' : List Token}
    (hrest : rest.head? ≠ some t) (hrest' : rest'.head? ≠ some t)
    (h : (if isThere then [t] else []) ++ rest = (if isThere' then [t] else []) ++ rest') :
    isThere = isThere' ∧ rest = rest' := by
  cases isThere with
  | true =>
    cases isThere' with
    | true => exact ⟨rfl, (List.cons.inj h).2⟩
    | false => exact absurd (congrArg List.head? (Eq.symm h)) hrest'
  | false =>
    cases isThere' with
    | true => exact absurd (congrArg List.head? h) hrest
    | false => exact ⟨rfl, h⟩

/-- A chain is told by its tokens when no scope mark comes behind it. -/
theorem chainTokens_append_inj {scopes scopes' : List Identifier} {last last' : Identifier}
    {rest rest' : List Token} (hrest : rest.head? ≠ some .scope)
    (hrest' : rest'.head? ≠ some .scope)
    (h : chainTokens scopes last ++ rest = chainTokens scopes' last' ++ rest') :
    scopes = scopes' ∧ last = last' ∧ rest = rest' := by
  induction scopes generalizing scopes' with
  | nil =>
    cases scopes' with
    | nil =>
      obtain ⟨hlast, hrests⟩ := List.cons.inj h
      exact ⟨rfl, Token.name.inj hlast, hrests⟩
    | cons word' scopes' =>
      obtain ⟨-, rfl⟩ := List.cons.inj h
      exact absurd rfl hrest
  | cons word scopes ih =>
    cases scopes' with
    | nil =>
      obtain ⟨-, rfl⟩ := List.cons.inj h
      exact absurd rfl hrest'
    | cons word' scopes' =>
      obtain ⟨hword, hchains⟩ := List.cons.inj h
      obtain ⟨hscopes, hlast, hrests⟩ := ih (List.cons.inj hchains).2
      exact ⟨by rw [Token.name.inj hword, hscopes], hlast, hrests⟩

/-- A chain begins with a name. -/
theorem head?_chainTokens (scopes : List Identifier) (last : Identifier) :
    ∃ word, (chainTokens scopes last).head? = some (.name word) := by
  cases scopes with
  | nil => exact ⟨last, rfl⟩
  | cons word scopes => exact ⟨word, rfl⟩

/-- The mark and the name of a parameter are told by their tokens. -/
theorem mark_append_inj {mark mark' : Mark} {name name' : Identifier} {rest rest' : List Token}
    (h : mark.tokens ++ .name name :: rest = mark'.tokens ++ .name name' :: rest') :
    mark = mark' ∧ name = name' ∧ rest = rest' := by
  cases mark <;> cases mark' <;> simp_all [Mark.tokens]

/-- No scope mark stands behind the type of a parameter. -/
theorem head?_mark_append (mark : Mark) (name : Identifier) (rest : List Token) :
    (mark.tokens ++ .name name :: rest).head? ≠ some .scope := by
  cases mark <;> simp [Mark.tokens]

namespace ParameterTree

/-- A parameter is told by its tokens, whatever comes behind them. -/
theorem tokens_append_inj {p q : ParameterTree} {rest rest' : List Token}
    (h : p.tokens ++ rest = q.tokens ++ rest') : p = q ∧ rest = rest' := by
  obtain ⟨isConst, ⟨isUnsigned, scopes, last⟩, mark, name⟩ := p
  obtain ⟨isConst', ⟨isUnsigned', scopes', last'⟩, mark', name'⟩ := q
  simp only [tokens, TypeTree.tokens, List.append_assoc, List.singleton_append] at h
  obtain ⟨word, hword⟩ := head?_chainTokens scopes last
  obtain ⟨word', hword'⟩ := head?_chainTokens scopes' last'
  obtain ⟨rfl, htypes⟩ := optional_append_inj
    (by cases isUnsigned <;> simp [unsignedTokens, hword])
    (by cases isUnsigned' <;> simp [unsignedTokens, hword']) h
  obtain ⟨rfl, hchains⟩ := optional_append_inj (by simp [hword]) (by simp [hword']) htypes
  obtain ⟨rfl, rfl, hmarks⟩ := chainTokens_append_inj (head?_mark_append _ _ _)
    (head?_mark_append _ _ _) hchains
  obtain ⟨rfl, rfl, hrest⟩ := mark_append_inj hmarks
  exact ⟨rfl, hrest⟩

/-- Parameters with a comma in front of each are told by their tokens. -/
theorem eq_of_flatMap_comma_eq {trees others : List ParameterTree}
    (h : (trees.map tokens).flatMap (.comma :: ·) = (others.map tokens).flatMap (.comma :: ·)) :
    trees = others := by
  induction trees generalizing others with
  | nil =>
    cases others with
    | nil => rfl
    | cons other others => cases h
  | cons tree trees ih =>
    cases others with
    | nil => cases h
    | cons other others =>
      obtain ⟨rfl, hrest⟩ := tokens_append_inj (List.cons.inj h).2
      rw [ih hrest]

theorem tokens_ne_nil (p : ParameterTree) : p.tokens ≠ [] := by
  simp [tokens]

end ParameterTree

/-- The parameters of a list are told by its tokens. -/
theorem listTokens_injective {trees others : List ParameterTree}
    (h : listTokens trees = listTokens others) : trees = others := by
  cases trees with
  | nil =>
    cases others with
    | nil => rfl
    | cons other others =>
      exact absurd (List.append_eq_nil_iff.mp h.symm).1 other.tokens_ne_nil
  | cons tree trees =>
    cases others with
    | nil => exact absurd (List.append_eq_nil_iff.mp h).1 tree.tokens_ne_nil
    | cons other others =>
      obtain ⟨rfl, hrest⟩ := ParameterTree.tokens_append_inj h
      rw [ParameterTree.eq_of_flatMap_comma_eq hrest]

/-- Tokens have at most one derivation. -/
theorem Derived.unique {tokens : List Token} {trees others : List ParameterTree}
    (h : Derived tokens trees) (hothers : Derived tokens others) : trees = others :=
  listTokens_injective ((derived_iff.mp h).symm.trans (derived_iff.mp hothers))

/-! ## The reader goes through the tokens of a list of trees -/

namespace Reader

/-- The reader after a list of tokens, if each may stand where it does. -/
def feedAll? (r : Reader) (tokens : List Token) : Option Reader := tokens.foldlM feed? r

@[simp] theorem feedAll?_nil (r : Reader) : r.feedAll? [] = some r := rfl

@[simp] theorem feedAll?_cons (r : Reader) (t : Token) (tokens : List Token) :
    r.feedAll? (t :: tokens) = (r.feed? t).bind fun next => next.feedAll? tokens := rfl

theorem feedAll?_append (r : Reader) (first second : List Token) :
    r.feedAll? (first ++ second) = (r.feedAll? first).bind fun next => next.feedAll? second :=
  List.foldlM_append

/-- Where tokens stand makes no difference to whether they may stand there. -/
theorem run_eq_ok_iff {r last : Reader} {tokens : List (Located Token)} :
    r.run tokens = .ok last ↔ r.feedAll? (tokens.map Located.value) = some last := by
  induction tokens generalizing r with
  | nil => simp [run]
  | cons t rest ih =>
    rw [run, List.map_cons, feedAll?_cons]
    cases r.feed? t.value with
    | none => simp
    | some next => exact ih

variable {done : Signature} {stage next : Stage}

/-- Within a parameter only the stage changes. -/
theorem feed?_eq_some {t : Token} (h : stage.next? t = some next) (hnext : next ≠ .comma) :
    feed? ⟨done, stage⟩ t = some ⟨done, next⟩ := by
  rw [feed?, h, Option.map_some, if_neg hnext]

/-- A chain of names is read from where a name begins a type or goes on with it. -/
theorem feedAll?_chainTokens {isConst isUnsigned : Bool} {before : List Identifier}
    (hstage : ∀ word, stage.next? (.name word) = some (.type ⟨isConst, isUnsigned, before, word⟩))
    (scopes : List Identifier) (last : Identifier) :
    feedAll? ⟨done, stage⟩ (chainTokens scopes last) =
      some ⟨done, .type ⟨isConst, isUnsigned, before ++ scopes, last⟩⟩ := by
  induction scopes generalizing stage before with
  | nil => simp [feed?_eq_some (hstage last) (by simp)]
  | cons word scopes ih =>
    let draft : TypeDraft := ⟨isConst, isUnsigned, before, word⟩
    have hextend : ∀ other, (Stage.scope draft).next? (.name other) =
        some (.type ⟨isConst, isUnsigned, before ++ [word], other⟩) := fun _ => rfl
    have hscope : feed? ⟨done, .type draft⟩ .scope = some ⟨done, .scope draft⟩ := rfl
    have hrest := ih hextend
    rw [List.append_assoc, List.singleton_append] at hrest
    rw [chainTokens_cons, feedAll?_cons, feed?_eq_some (hstage word) (by simp), Option.bind_some,
      feedAll?_cons, hscope, Option.bind_some, hrest]

/-- A type is read from where a name begins one, and so does `unsigned` with a name behind it. -/
theorem feedAll?_type {isConst : Bool}
    (hname : ∀ word, stage.next? (.name word) = some (.type ⟨isConst, false, [], word⟩))
    (hunsigned : stage.next? .unsigned = some (.unsigned isConst)) (type : TypeTree) :
    feedAll? ⟨done, stage⟩ type.tokens =
      some ⟨done, .type ⟨isConst, type.isUnsigned, type.scopes, type.last⟩⟩ := by
  obtain ⟨isUnsigned, scopes, last⟩ := type
  cases isUnsigned with
  | true =>
    change feedAll? _ (.unsigned :: chainTokens scopes last) = _
    have hname' : ∀ word, (Stage.unsigned isConst).next? (.name word) =
        some (.type ⟨isConst, true, [], word⟩) := fun _ => rfl
    rw [feedAll?_cons, feed?_eq_some hunsigned (by simp), Option.bind_some]
    exact feedAll?_chainTokens hname' scopes last
  | false => exact feedAll?_chainTokens hname scopes last

/-- Behind its type a parameter is read to its end. -/
theorem feedAll?_mark (draft : TypeDraft) (mark : Mark) (name : Identifier) :
    feedAll? ⟨done, .type draft⟩ (mark.tokens ++ [.name name]) =
      some ⟨done, .complete (draft.parameter mark name)⟩ := by
  cases mark <;> rfl

/-- A parameter is read to its end from where one may begin. -/
theorem feedAll?_parameter (hstage : stage = .start ∨ stage = .comma) (tree : ParameterTree) :
    feedAll? ⟨done, stage⟩ tree.tokens = some ⟨done, .complete tree.parameter⟩ := by
  have htype : feedAll? ⟨done, stage⟩ (constTokens tree.isConst ++ tree.type.tokens) =
      some ⟨done, .type tree.draft⟩ := by
    obtain ⟨isConst, type, mark, name⟩ := tree
    cases isConst with
    | true =>
      have hconst : stage.next? .const = some .const := by rcases hstage with rfl | rfl <;> rfl
      have hname : ∀ word, Stage.const.next? (.name word) =
          some (.type ⟨true, false, [], word⟩) := fun _ => rfl
      change feedAll? _ (.const :: type.tokens) = _
      rw [feedAll?_cons, feed?_eq_some hconst (by simp), Option.bind_some]
      exact feedAll?_type hname rfl type
    | false =>
      have hname : ∀ word, stage.next? (.name word) = some (.type ⟨false, false, [], word⟩) := by
        rcases hstage with rfl | rfl <;> exact fun _ => rfl
      have hunsigned : stage.next? .unsigned = some (.unsigned false) := by
        rcases hstage with rfl | rfl <;> rfl
      exact feedAll?_type hname hunsigned type
  rw [ParameterTree.tokens, List.append_assoc, feedAll?_append, htype, Option.bind_some]
  exact feedAll?_mark tree.draft tree.mark tree.name

/-- Behind a complete parameter others are read with a comma in front of each. -/
theorem feedAll?_commas (done : Signature) (parameter : Parameter) (trees : List ParameterTree) :
    ∃ r, feedAll? ⟨done, .complete parameter⟩
        ((trees.map ParameterTree.tokens).flatMap (.comma :: ·)) = some r ∧
      r.stage.isFinal = true ∧
      r.parameters = done ++ parameter :: trees.map ParameterTree.parameter := by
  induction trees generalizing done parameter with
  | nil => exact ⟨_, rfl, rfl, rfl⟩
  | cons tree trees ih =>
    obtain ⟨r, hr, hfinal, hparameters⟩ := ih (done ++ [parameter]) tree.parameter
    refine ⟨r, ?_, hfinal, by rw [hparameters]; simp⟩
    rw [List.map_cons, List.flatMap_cons, List.cons_append, feedAll?_cons]
    -- The comma puts the complete parameter to those that are done.
    change (feedAll? ⟨done ++ [parameter], .comma⟩ _) = _
    rw [feedAll?_append, feedAll?_parameter (.inr rfl), Option.bind_some, hr]

/-- The tokens of a list are read to their end, and the parameters of its trees are held then. -/
theorem feedAll?_listTokens (trees : List ParameterTree) :
    ∃ r, initial.feedAll? (listTokens trees) = some r ∧ r.stage.isFinal = true ∧
      r.parameters = trees.map ParameterTree.parameter := by
  cases trees with
  | nil => exact ⟨initial, rfl, rfl, rfl⟩
  | cons tree trees =>
    obtain ⟨r, hr, hrest⟩ := feedAll?_commas [] tree.parameter trees
    refine ⟨r, ?_, hrest⟩
    rw [listTokens, List.map_cons, separated, feedAll?_append, initial,
      feedAll?_parameter (.inl rfl), Option.bind_some, hr]

end Reader

/-! ## What has been read is the part of a list of trees -/

/-- The tokens of a type that has been read with what stands in front. -/
def TypeDraft.tokens (d : TypeDraft) : List Token :=
  constTokens d.isConst ++ TypeTree.tokens ⟨d.isUnsigned, d.scopes, d.last⟩

/-- The tokens since the last comma that lead to a stage. -/
def Stage.Spelled : Stage → List Token → Prop
  | start, part => part = []
  | comma, part => part = []
  | const, part => part = [.const]
  | unsigned isConst, part => part = constTokens isConst ++ [.unsigned]
  | type draft, part => part = draft.tokens
  | scope draft, part => part = draft.tokens ++ [.scope]
  | marked draft mark, part => part = draft.tokens ++ mark.tokens
  | complete parameter, part =>
    ∃ tree : ParameterTree, part = tree.tokens ∧ parameter = tree.parameter

theorem TypeDraft.tokens_extend (d : TypeDraft) (word : Identifier) :
    (d.extend word).tokens = d.tokens ++ [.scope, .name word] := by
  simp only [tokens, extend, TypeTree.tokens, chainTokens_concat, List.append_assoc]

/-- A name behind a type and its mark makes up a parameter. -/
theorem Stage.spelled_complete (draft : TypeDraft) (mark : Mark) (name : Identifier) :
    (complete (draft.parameter mark name)).Spelled
      (draft.tokens ++ mark.tokens ++ [.name name]) :=
  ⟨⟨draft.isConst, ⟨draft.isUnsigned, draft.scopes, draft.last⟩, mark, name⟩, rfl, rfl⟩

/-- One more token within a parameter is one more token of its part. -/
theorem Stage.Spelled.next {stage next : Stage} {t : Token} {part : List Token}
    (hspelled : stage.Spelled part) (h : stage.next? t = some next) (hnext : next ≠ .comma) :
    next.Spelled (part ++ [t]) := by
  cases stage with
  | start =>
    cases hspelled
    cases t <;> cases h <;> rfl
  | comma =>
    cases hspelled
    cases t <;> cases h <;> rfl
  | const =>
    cases hspelled
    cases t <;> cases h <;> rfl
  | unsigned isConst =>
    cases hspelled
    cases t <;> cases h
    cases isConst <;> rfl
  | type draft =>
    cases hspelled
    cases t with
    | name word =>
      cases h
      have hcomplete := spelled_complete draft .value word
      rwa [Mark.tokens, List.append_nil] at hcomplete
    | _ => cases h <;> rfl
  | scope draft =>
    cases hspelled
    cases t with
    | name word =>
      cases h
      rw [List.append_assoc]
      exact (draft.tokens_extend word).symm
    | _ => cases h
  | marked draft mark =>
    cases hspelled
    cases t with
    | name word =>
      cases h
      exact spelled_complete draft mark word
    | _ => cases h
  | complete parameter =>
    cases t with
    | comma =>
      cases h
      exact absurd rfl hnext
    | _ => cases h

/-- A comma comes behind a complete parameter only. -/
theorem Stage.eq_complete_of_next?_eq_comma {stage : Stage} {t : Token}
    (h : stage.next? t = some .comma) : t = .comma ∧ ∃ parameter, stage = .complete parameter := by
  cases stage with
  | complete parameter =>
    cases t with
    | comma => exact ⟨rfl, parameter, rfl⟩
    | _ => cases h
  | _ => cases t <;> cases h

/-- The tokens that lead to a reader: whole trees with commas behind them and a part of one. -/
def Reader.Spelled (r : Reader) (tokens : List Token) : Prop :=
  ∃ (trees : List ParameterTree) (part : List Token),
    r.done = trees.map ParameterTree.parameter ∧ r.stage.Spelled part ∧
      tokens = (trees.map ParameterTree.tokens).flatMap (· ++ [.comma]) ++ part ∧
        (r.stage = .start → trees = [])

/-- Every stage but the first one has been led to by a token. -/
theorem Stage.ne_start_of_next? {stage next : Stage} {t : Token} (h : stage.next? t = some next) :
    next ≠ .start := by
  cases stage <;> cases t <;> cases h <;> simp

/-- One more token leads to the next reader. -/
theorem Reader.Spelled.feed {r next : Reader} {t : Token} {tokens : List Token}
    (hspelled : r.Spelled tokens) (h : r.feed? t = some next) : next.Spelled (tokens ++ [t]) := by
  obtain ⟨trees, part, hdone, hpart, rfl, hstart⟩ := hspelled
  obtain ⟨done, stage⟩ := r
  rw [feed?, Option.map_eq_some_iff] at h
  obtain ⟨stage', hstage', rfl⟩ := h
  have hstarted := Stage.ne_start_of_next? hstage'
  by_cases hcomma : stage' = .comma
  · subst hcomma
    obtain ⟨rfl, parameter, rfl⟩ := Stage.eq_complete_of_next?_eq_comma hstage'
    obtain ⟨tree, rfl, rfl⟩ := hpart
    -- The part has become a whole tree, and a new one has not been begun.
    refine ⟨trees ++ [tree], [], ?_, rfl, by simp, by simp⟩
    rw [if_pos rfl, List.map_append, ← hdone]
    rfl
  · rw [if_neg hcomma]
    exact ⟨trees, part ++ [t], hdone, hpart.next hstage' hcomma, by simp,
      fun h => absurd h hstarted⟩

/-- The tokens that are fed to a reader lead to it behind those before. -/
theorem Reader.Spelled.feedAll {r last : Reader} {tokens before : List Token}
    (hspelled : r.Spelled before) (h : r.feedAll? tokens = some last) :
    last.Spelled (before ++ tokens) := by
  induction tokens generalizing r before with
  | nil =>
    cases h
    simpa using hspelled
  | cons t tokens ih =>
    rw [feedAll?_cons, Option.bind_eq_some_iff] at h
    obtain ⟨next, hnext, hrest⟩ := h
    simpa using ih (hspelled.feed hnext) hrest

/-- The tokens at which a reader may end are those of a list of trees. -/
theorem Reader.Spelled.eq_listTokens {r : Reader} {tokens : List Token}
    (hspelled : r.Spelled tokens) (hfinal : r.stage.isFinal = true) :
    ∃ trees, tokens = listTokens trees ∧ r.parameters = trees.map ParameterTree.parameter := by
  obtain ⟨done, stage⟩ := r
  obtain ⟨trees, part, hdone, hpart, rfl, hstart⟩ := hspelled
  cases stage with
  | start =>
    obtain rfl := hstart rfl
    cases hpart
    refine ⟨[], rfl, ?_⟩
    change done ++ [] = _
    rw [List.append_nil]
    exact hdone
  | complete parameter =>
    obtain ⟨tree, rfl, rfl⟩ := hpart
    refine ⟨trees ++ [tree], ?_, ?_⟩
    · rw [listTokens, List.map_append, List.map_singleton, separated_concat]
    · rw [List.map_append, ← hdone]
      rfl
  | _ => cases hfinal

/-- The reader ends behind exactly the tokens that have a derivation, with its parameters. -/
theorem exists_feedAll?_iff {tokens : List Token} {s : Signature} :
    (∃ r, Reader.initial.feedAll? tokens = some r ∧ r.stage.isFinal = true ∧ r.parameters = s) ↔
      ∃ trees, Derived tokens trees ∧ trees.map ParameterTree.parameter = s := by
  constructor
  · rintro ⟨r, hr, hfinal, rfl⟩
    have hinitial : Reader.initial.Spelled [] := ⟨[], [], rfl, rfl, rfl, fun _ => rfl⟩
    obtain ⟨trees, htokens, hparameters⟩ := (hinitial.feedAll hr).eq_listTokens hfinal
    exact ⟨trees, derived_iff.mpr htokens, hparameters.symm⟩
  · rintro ⟨trees, hderived, rfl⟩
    rw [derived_iff.mp hderived]
    exact Reader.feedAll?_listTokens trees

/-! ## Texts -/

/-- A text is read as a signature exactly if the scan goes to its end and the reader may end. -/
theorem ofText_eq_ok_iff_feedAll? {text : String} {s : Signature} :
    ofText text = .ok s ↔
      (scan 0 text.toList).stop = none ∧
        ∃ r, Reader.initial.feedAll? ((scan 0 text.toList).tokens.map Located.value) = some r ∧
          r.stage.isFinal = true ∧ r.parameters = s := by
  simp only [← Reader.run_eq_ok_iff, ofText]
  cases Reader.initial.run (scan 0 text.toList).tokens with
  | error t => simp
  | ok r =>
    cases (scan 0 text.toList).stop with
    | some c => simp
    | none => cases hfinal : r.stage.isFinal <;> simp [hfinal]

/-- A text is read as a signature exactly if it is lexed into tokens with a derivation. -/
theorem ofText_eq_ok_iff {text : String} {s : Signature} :
    ofText text = .ok s ↔
      ∃ tokens trees, Lexed text.toList tokens ∧ Derived tokens trees ∧
        trees.map ParameterTree.parameter = s := by
  rw [ofText_eq_ok_iff_feedAll?, exists_feedAll?_iff]
  constructor
  · rintro ⟨hstop, trees, hderived, hs⟩
    exact ⟨_, trees, lexed_iff.mpr ⟨hstop, rfl⟩, hderived, hs⟩
  · rintro ⟨tokens, trees, hlexed, hderived, hs⟩
    obtain ⟨hstop, rfl⟩ := lexed_iff.mp hlexed
    exact ⟨hstop, trees, hderived, hs⟩

/-- A text that is not read is reported as it is, with a reason. -/
theorem ofText_eq_error {text : String} {fault : Fault} (h : ofText text = .error fault) :
    ∃ reason, fault = .unreadable text reason := by
  simp only [ofText] at h
  split at h
  · exact ⟨_, (Except.error.inj h).symm⟩
  · split at h
    · exact ⟨_, (Except.error.inj h).symm⟩
    · split at h
      · cases h
      · exact ⟨_, (Except.error.inj h).symm⟩

namespace ParameterTree

/-- What a tree says of its parameter. -/
structure Describes (tree : ParameterTree) (p : Parameter) : Prop where
  /-- The last name is the name. -/
  name : p.name = tree.name.text
  /-- It is constant where it is written so. -/
  isConst : p.isConst = tree.isConst
  /-- It is a reference where the mark of one is written. -/
  isRef : p.isRef = true ↔ tree.mark = .ref
  /-- It is a pointer where the mark of one is written. -/
  isPtr : p.isPtr = true ↔ tree.mark = .ptr
  /-- A chain of names is a name in namespaces. -/
  chain : tree.type.isUnsigned = false →
    p.type.name = tree.type.last.text ∧ p.type.namespaces = tree.type.scopes.map Identifier.text
  /-- Behind `unsigned` all words make up one name. -/
  several : tree.type.isUnsigned = true →
    p.type.name = String.intercalate " " ("unsigned" :: tree.type.words.map Identifier.text) ∧
      p.type.namespaces = []
  /-- The category is the one that the name and the namespaces suggest. -/
  category : p.type.category = classify p.type.name p.type.namespaces

/-- The parameter that is made up of a tree is what the tree says. -/
theorem describes_parameter (tree : ParameterTree) : tree.Describes tree.parameter := by
  obtain ⟨isConst, ⟨isUnsigned, scopes, last⟩, mark, name⟩ := tree
  refine ⟨rfl, rfl, beq_iff_eq, beq_iff_eq, ?_, ?_, ?_⟩
  · rintro rfl
    exact ⟨rfl, rfl⟩
  · rintro rfl
    refine ⟨?_, rfl⟩
    rw [Text.intercalate_cons]
    rfl
  · cases isUnsigned <;> rfl

/-- No other parameter is what the tree says. -/
theorem Describes.eq {tree : ParameterTree} {p q : Parameter} (hp : tree.Describes p)
    (hq : tree.Describes q) : p = q := by
  have htype : p.type.name = q.type.name ∧ p.type.namespaces = q.type.namespaces := by
    cases hunsigned : tree.type.isUnsigned with
    | true =>
      obtain ⟨hpname, hpspaces⟩ := hp.several hunsigned
      obtain ⟨hqname, hqspaces⟩ := hq.several hunsigned
      exact ⟨hpname.trans hqname.symm, hpspaces.trans hqspaces.symm⟩
    | false =>
      obtain ⟨hpname, hpspaces⟩ := hp.chain hunsigned
      obtain ⟨hqname, hqspaces⟩ := hq.chain hunsigned
      exact ⟨hpname.trans hqname.symm, hpspaces.trans hqspaces.symm⟩
  have hcategory : p.type.category = q.type.category := by
    rw [hp.category, hq.category, htype.1, htype.2]
  have htypes : p.type = q.type := QualifiedType.eq_iff.mpr ⟨htype.1, htype.2, hcategory⟩
  have hname : p.name = q.name := hp.name.trans hq.name.symm
  have hconst : p.isConst = q.isConst := hp.isConst.trans hq.isConst.symm
  have href : p.isRef = q.isRef := Bool.eq_iff_iff.mpr (hp.isRef.trans hq.isRef.symm)
  have hptr : p.isPtr = q.isPtr := Bool.eq_iff_iff.mpr (hp.isPtr.trans hq.isPtr.symm)
  cases p
  cases q
  congr

/-- Trees describe the parameters that are made up of them, and no others. -/
theorem forall₂_describes_iff {trees : List ParameterTree} {s : Signature} :
    List.Forall₂ Describes trees s ↔ trees.map parameter = s := by
  constructor
  · intro h
    induction h with
    | nil => rfl
    | cons hfirst _ ih => rw [List.map_cons, ih, hfirst.eq (describes_parameter _)]
  · rintro rfl
    induction trees with
    | nil => exact .nil
    | cons tree trees ih => exact .cons tree.describes_parameter ih

/-- The names of a parameter are among its tokens. -/
theorem name_mem_tokens {tree : ParameterTree} {word : Identifier} (h : word ∈ tree.words) :
    Token.name word ∈ tree.tokens := by
  simp only [words, TypeTree.words, List.append_assoc, List.mem_append, List.mem_singleton] at h
  simp only [tokens, TypeTree.tokens, chainTokens, List.mem_append, List.mem_flatMap,
    List.mem_cons, List.not_mem_nil, or_false]
  rcases h with hscope | rfl | rfl
  · exact .inl (.inl (.inr (.inr (.inl ⟨word, hscope, .inl rfl⟩))))
  · exact .inl (.inl (.inr (.inr (.inr rfl))))
  · exact .inr rfl

end ParameterTree

/-- The tokens of a parameter in a list are among those of the list. -/
theorem mem_listTokens {trees : List ParameterTree} {tree : ParameterTree} (h : tree ∈ trees)
    {t : Token} (ht : t ∈ tree.tokens) : t ∈ listTokens trees := by
  cases trees with
  | nil => cases h
  | cons first rest =>
    simp only [listTokens, List.map_cons, separated, List.mem_append, List.mem_flatMap,
      List.mem_map]
    rcases List.mem_cons.mp h with rfl | hrest
    · exact .inl ht
    · exact .inr ⟨tree.tokens, ⟨tree, hrest, rfl⟩, List.mem_cons_of_mem _ ht⟩

/-- A name is a lexeme exactly if it is none of the reserved words. -/
theorem Token.isLexeme_name_iff {word : Identifier} :
    (Token.name word).IsLexeme ↔ word.text ≠ "const" ∧ word.text ≠ "unsigned" := by
  constructor
  · intro h
    have hlexeme := h word rfl
    unfold ofWord at hlexeme
    split at hlexeme
    · cases hlexeme
    · next hconst =>
      split at hlexeme
      · cases hlexeme
      · next hunsigned => exact ⟨hconst, hunsigned⟩
  · rintro ⟨hconst, hunsigned⟩ other h
    obtain rfl := Token.name.inj h
    rw [ofWord, if_neg hconst, if_neg hunsigned]

/-- Every name of a text that is lexed into the tokens of trees is a lexeme. -/
theorem Lexed.isLexeme_of_mem {text : List Char} {trees : List ParameterTree}
    (hlexed : Lexed text (listTokens trees)) {tree : ParameterTree} (htree : tree ∈ trees)
    {word : Identifier} (hword : word ∈ tree.words) : (Token.name word).IsLexeme :=
  hlexed.isLexeme _ (mem_listTokens htree (tree.name_mem_tokens hword))

/-- A text is read exactly if it is lexed into tokens with a derivation, of which there is then only
one, and the signature is what the trees say. -/
theorem ofText_reads_grammar (text : String) :
    (∀ s, ofText text = .ok s ↔
      ∃ tokens trees, Lexed text.toList tokens ∧ Derived tokens trees ∧
        List.Forall₂ ParameterTree.Describes trees s) ∧
    (∀ fault, ofText text = .error fault → ∃ reason, fault = .unreadable text reason) ∧
    (∀ tokens trees, Lexed text.toList tokens → Derived tokens trees →
      (∀ tokens' trees', Lexed text.toList tokens' → Derived tokens' trees' →
        tokens' = tokens ∧ trees' = trees) ∧
      ∀ tree ∈ trees,
        (∃ p, tree.parameter? = some p ∧ tree.Describes p ∧ ¬(p.isRef = true ∧ p.isPtr = true)) ∧
        ∀ word ∈ tree.words, word.text ≠ "const" ∧ word.text ≠ "unsigned") := by
  refine ⟨fun s => ?_, fun fault => ofText_eq_error, fun tokens trees hlexed hderived => ⟨?_, ?_⟩⟩
  · simp only [ParameterTree.forall₂_describes_iff]
    exact ofText_eq_ok_iff
  · intro tokens' trees' hlexed' hderived'
    obtain rfl := hlexed'.unique hlexed
    exact ⟨rfl, hderived'.unique hderived⟩
  · intro tree htree
    have hdescribes := tree.describes_parameter
    refine ⟨⟨tree.parameter, tree.parameter?_eq_some, hdescribes, ?_⟩, fun word hword => ?_⟩
    · rintro ⟨href, hptr⟩
      cases (hdescribes.isRef.mp href).symm.trans (hdescribes.isPtr.mp hptr)
    · rw [derived_iff.mp hderived] at hlexed
      exact Token.isLexeme_name_iff.mp (hlexed.isLexeme_of_mem htree hword)

/-- A word that only begins like a reserved one is a name. -/
example :
    (ofText "constant& unsignedly").toOption.map text = some "(constant& unsignedly)" := by
  decide +kernel

end OverloadDispatch.Signature
