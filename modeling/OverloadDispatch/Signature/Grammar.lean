import OverloadDispatch.Signature.Tree

/-!
# The grammar of parameter lists

The grammar is stated by derivations and says nothing of how a text is read. A parameter list is
empty or a sequence of parameters with commas between them. A text is lexed into the tokens of the
list with layout in front of, between and behind them; each token is the longest one that stands
there, and a reserved word is not taken for a name.
-/

namespace OverloadDispatch.Signature

open Text

/-- The tokens of a chain of names with scope marks between them. -/
inductive Chain : List Token → List Identifier → Prop where
  /-- A single name. -/
  | single (word : Identifier) : Chain [.name word] [word]
  /-- A name in front of a scope mark and a chain. -/
  | cons (word : Identifier) {tokens : List Token} {words : List Identifier} :
    Chain tokens words → Chain (.name word :: .scope :: tokens) (word :: words)

/-- The tokens of a type. -/
inductive DerivedType : List Token → TypeTree → Prop where
  /-- A chain of names, behind `unsigned` or not. -/
  | intro (isUnsigned : Bool) {tokens : List Token} {scopes : List Identifier}
      {last : Identifier} :
    Chain tokens (scopes ++ [last]) →
    DerivedType (unsignedTokens isUnsigned ++ tokens) ⟨isUnsigned, scopes, last⟩

/-- The tokens of one parameter. -/
inductive DerivedParameter : List Token → ParameterTree → Prop where
  /-- An optional constant mark, a type, an optional reference or pointer mark, and a name. -/
  | intro (isConst : Bool) (mark : Mark) (name : Identifier) {tokens : List Token}
      {type : TypeTree} :
    DerivedType tokens type →
    DerivedParameter (constTokens isConst ++ tokens ++ mark.tokens ++ [.name name])
      ⟨isConst, type, mark, name⟩

/-- The tokens of a sequence of parameters with commas between them. -/
inductive DerivedParameters : List Token → List ParameterTree → Prop where
  /-- A single parameter. -/
  | single {tokens : List Token} {tree : ParameterTree} :
    DerivedParameter tokens tree → DerivedParameters tokens [tree]
  /-- A parameter in front of a comma and a sequence. -/
  | cons {tokens others : List Token} {tree : ParameterTree} {trees : List ParameterTree} :
    DerivedParameter tokens tree → DerivedParameters others trees →
    DerivedParameters (tokens ++ .comma :: others) (tree :: trees)

/-- The tokens of a parameter list. -/
inductive Derived : List Token → List ParameterTree → Prop where
  /-- The empty list. -/
  | empty : Derived [] []
  /-- A sequence of parameters. -/
  | sequence {tokens : List Token} {trees : List ParameterTree} :
    DerivedParameters tokens trees → Derived tokens trees

namespace Token

/-- Whether a token is what its spelling stands for; a reserved word is no name. -/
def IsLexeme (t : Token) : Prop := ∀ word : Identifier, t = .name word → ofWord word = t

/-- Whether no longer token stands in front of the text that a token and the given rest make up. -/
def Longest (t : Token) (rest : List Char) : Prop :=
  ∀ (u : Token) (behind : List Char),
    u.text.toList ++ behind = t.text.toList ++ rest → u.text.length ≤ t.text.length

end Token

/-- A text as the spellings of tokens with layout around them. -/
inductive Lexed : List Char → List Token → Prop where
  /-- No text is left. -/
  | nil : Lexed [] []
  /-- Layout in front. -/
  | layout {c : Char} {rest : List Char} {tokens : List Token} :
    isLayout c = true → Lexed rest tokens → Lexed (c :: rest) tokens
  /-- The longest token in front. -/
  | token {t : Token} {rest : List Char} {tokens : List Token} :
    t.IsLexeme → t.Longest rest → Lexed rest tokens → Lexed (t.text.toList ++ rest) (t :: tokens)

/-- The front of a text as the spellings of tokens with layout around them, when more comes
behind. -/
inductive LexedBefore (behind : List Char) : List Char → List Token → Prop where
  /-- Nothing is left of the front. -/
  | nil : LexedBefore behind [] []
  /-- Layout in front. -/
  | layout {c : Char} {rest : List Char} {tokens : List Token} :
    isLayout c = true → LexedBefore behind rest tokens → LexedBefore behind (c :: rest) tokens
  /-- The longest token in front; what comes behind the front does not go on with it either. -/
  | token {t : Token} {rest : List Char} {tokens : List Token} :
    t.IsLexeme → t.Longest (rest ++ behind) → LexedBefore behind rest tokens →
    LexedBefore behind (t.text.toList ++ rest) (t :: tokens)

/-- A token as it is found in a text, behind a front that is lexed into tokens. -/
inductive FoundBehind (t : Token) (front : List Char) (tokens : List Token) : List Char → Prop where
  /-- It is the longest token there. -/
  | intro {rest : List Char} :
    t.IsLexeme → t.Longest rest → LexedBefore (t.text.toList ++ rest) front tokens →
    FoundBehind t front tokens (front ++ (t.text.toList ++ rest))

/-- Whether a parameter list may begin with the tokens. -/
def Viable (tokens : List Token) : Prop :=
  ∃ more trees, (∀ t ∈ more, t.IsLexeme) ∧ Derived (tokens ++ more) trees

end OverloadDispatch.Signature
