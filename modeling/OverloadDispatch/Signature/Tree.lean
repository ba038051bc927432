import OverloadDispatch.Signature.Reader
import OverloadDispatch.Text.Pieces

/-!
# Derivation trees of parameters

A tree keeps what was written of a parameter and says nothing of what it means. The meaning is
found by a walk over the children of the parameter's node: the marks, the node of the type and the
name, with commas and scope marks left out. The walk looks for a type and a name, and finds no
parameter where either is missing; at the node of a tree both are there, by `parameter?_eq_some`.
-/

namespace OverloadDispatch.Signature

open Text

/-- A type as it is written: a chain of names, with `unsigned` in front or not. -/
structure TypeTree where
  /-- Whether `unsigned` stands in front. -/
  isUnsigned : Bool
  /-- The names in front of a scope mark. -/
  scopes : List Identifier
  /-- The last name. -/
  last : Identifier
  deriving DecidableEq, Repr

/-- The names of a type in order. -/
def TypeTree.words (t : TypeTree) : List Identifier := t.scopes ++ [t.last]

/-- A parameter as it is written. -/
structure ParameterTree where
  /-- Whether `const` stands in front. -/
  isConst : Bool
  /-- The type. -/
  type : TypeTree
  /-- The mark behind the type. -/
  mark : Mark
  /-- The name. -/
  name : Identifier
  deriving DecidableEq, Repr

/-- All names that a parameter is written with. -/
def ParameterTree.words (p : ParameterTree) : List Identifier := p.type.words ++ [p.name]

/-- The tokens that may stand in front of a type. -/
def constTokens (isConst : Bool) : List Token := if isConst then [.const] else []

/-- The tokens that may open a type. -/
def unsignedTokens (isUnsigned : Bool) : List Token := if isUnsigned then [.unsigned] else []

/-- The tokens that may stand behind a type. -/
def Mark.tokens : Mark → List Token
  | value => []
  | ref => [.ref]
  | ptr => [.ptr]

/-- A child of the node of a parameter. -/
inductive Child where
  /-- The node of the type, with the tokens that are kept in it. -/
  | type (kept : List Token)
  /-- A token beside it. -/
  | token (t : Token)
  deriving DecidableEq, Repr

/-- The tokens that are kept in the node of a type. -/
def TypeTree.kept (t : TypeTree) : List Token := unsignedTokens t.isUnsigned ++ t.words.map .name

/-- The children of the node of a parameter. -/
def ParameterTree.children (p : ParameterTree) : List Child :=
  (constTokens p.isConst).map .token ++ [.type p.type.kept] ++ p.mark.tokens.map .token ++
    [.token (.name p.name)]

/-- The type of a name in namespaces, unless the name is empty. -/
def namedType? (name : String) (namespaces : List String) : Option QualifiedType :=
  if h : name = "" then none else some (.classified name namespaces h)

theorem namedType?_eq_some {name spelled : String} {namespaces scopes : List String}
    (hname : name = spelled) (hscopes : namespaces = scopes) (h : spelled ≠ "") :
    namedType? name namespaces = some (.classified spelled scopes h) := by
  subst hname hscopes
  exact dif_neg h

/-- The type that kept tokens spell: behind `unsigned` one name of all words, else a chain. -/
def keptType? : List Token → Option QualifiedType
  | [] => none
  | .unsigned :: rest =>
    namedType? (String.intercalate " " (Token.text .unsigned :: rest.map Token.text)) []
  | first :: rest =>
    namedType? (rest.getLastD first).text ((first :: rest).dropLast.map Token.text)

/-- What a walk over children has found. -/
structure Findings where
  /-- Whether there was `const`. -/
  isConst : Bool := false
  /-- The last mark. -/
  mark : Mark := .value
  /-- The type of the last node of a type. -/
  type : Option QualifiedType := none
  /-- The last name, empty if there was none. -/
  name : String := ""
  deriving DecidableEq, Repr

namespace Findings

/-- Look at one more child. -/
def look (found : Findings) : Child → Findings
  | .type kept => { found with type := keptType? kept }
  | .token .const => { found with isConst := true }
  | .token .ref => { found with mark := .ref }
  | .token .ptr => { found with mark := .ptr }
  | .token (.name word) => { found with name := word.text }
  | .token .unsigned => found
  | .token .comma => found
  | .token .scope => found

/-- The parameter that was found, unless its type or its name is missing. -/
def parameter? (found : Findings) : Option Parameter :=
  if found.name = "" then none
  else found.type.map fun t =>
    { name := found.name, type := t, isConst := found.isConst, isRef := found.mark == .ref,
      isPtr := found.mark == .ptr }

end Findings

namespace ParameterTree

/-- The parameter that a walk over the children of a tree finds. -/
def parameter? (p : ParameterTree) : Option Parameter :=
  (p.children.foldl Findings.look {}).parameter?

/-- The type of a tree as it is drafted while it is read. -/
def draft (p : ParameterTree) : TypeDraft := ⟨p.isConst, p.type.isUnsigned, p.type.scopes, p.type.last⟩

/-- The parameter of a tree as it is made up when it has been read. -/
def parameter (p : ParameterTree) : Parameter := p.draft.parameter p.mark p.name

@[simp] theorem parameter_name (p : ParameterTree) : p.parameter.name = p.name.text := rfl

@[simp] theorem parameter_isConst (p : ParameterTree) : p.parameter.isConst = p.isConst := rfl

@[simp] theorem parameter_type (p : ParameterTree) : p.parameter.type = p.draft.type := rfl

/-- The tokens kept in the node of a type spell the type. -/
theorem keptType?_kept (p : ParameterTree) : keptType? p.type.kept = some p.draft.type := by
  obtain ⟨isConst, ⟨isUnsigned, scopes, last⟩, mark, name⟩ := p
  cases isUnsigned with
  | true =>
    have hspelled : String.intercalate " " (Token.text .unsigned ::
        ((scopes ++ [last]).map Token.name).map Token.text) =
          TypeDraft.unsignedName ⟨isConst, true, scopes, last⟩ := by
      simp only [Text.intercalate_cons, TypeDraft.unsignedName, TypeDraft.words, List.map_map]
      rfl
    exact namedType?_eq_some hspelled rfl (TypeDraft.unsignedName_ne_empty _)
  | false =>
    cases scopes with
    | nil => exact namedType?_eq_some rfl rfl last.text_ne_empty
    | cons scope scopes =>
      have hlast : (((scopes ++ [last]).map Token.name).getLastD (.name scope)).text = last.text := by
        rw [List.map_append, List.map_singleton, List.getLastD_concat]
        rfl
      have hscopes : (Token.name scope :: (scopes ++ [last]).map Token.name).dropLast.map Token.text =
          (scope :: scopes).map Identifier.text := by
        rw [← List.map_cons, ← List.cons_append, List.map_append, List.map_singleton,
          List.dropLast_concat, List.map_map]
        rfl
      exact namedType?_eq_some hlast hscopes last.text_ne_empty

/-- At every tree the walk finds a type and a name, and they make up the parameter of the tree. -/
theorem parameter?_eq_some (p : ParameterTree) : p.parameter? = some p.parameter := by
  have hkept := p.keptType?_kept
  obtain ⟨isConst, type, mark, name⟩ := p
  cases isConst <;> cases mark <;>
    simp [parameter?, children, constTokens, Mark.tokens, Findings.look, Findings.parameter?,
      name.text_ne_empty, hkept, parameter, TypeDraft.parameter, draft]

end ParameterTree

end OverloadDispatch.Signature
