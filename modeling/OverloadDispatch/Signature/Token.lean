import OverloadDispatch.Text.Identifier

/-!
# Tokens of a parameter list

The tokens are words, the two reserved words, reference and pointer marks, commas and scope marks.
A word is taken as long as possible; a reserved word is one only when it is spelled exactly. Layout
separates tokens and has no other meaning. Scanning stops at the first character that opens no
token, and what was scanned before it is kept.
-/

namespace OverloadDispatch.Signature

open Text

/-- The tokens that a parameter list is made of. -/
inductive Token where
  /-- The reserved word that marks a parameter as constant. -/
  | const
  /-- The reserved word that opens a type of several words. -/
  | unsigned
  /-- Any other word. -/
  | name (word : Identifier)
  /-- The mark of a parameter passed by reference. -/
  | ref
  /-- The mark of a parameter passed by pointer. -/
  | ptr
  /-- The separator of parameters. -/
  | comma
  /-- The separator of the scopes of a type. -/
  | scope
  deriving DecidableEq, Repr

namespace Token

/-- A token as it is spelled. -/
def text : Token → String
  | const => "const"
  | unsigned => "unsigned"
  | name word => word.text
  | ref => "&"
  | ptr => "*"
  | comma => ","
  | scope => "::"

/-- The label of a token in error messages. -/
def kind : Token → String
  | const => "CONST"
  | unsigned => "UNSIGNED"
  | name _ => "NAME"
  | ref => "REF"
  | ptr => "REF"
  | comma => "COMMA"
  | scope => "__ANON_0"

/-- The token of a word: a reserved word or a name. -/
def ofWord (word : Identifier) : Token :=
  if word.text = "const" then const
  else if word.text = "unsigned" then unsigned
  else name word

/-- The token of a word is spelled as the word. -/
@[simp] theorem text_ofWord (word : Identifier) : (ofWord word).text = word.text := by
  unfold ofWord
  split
  · next h => exact h.symm
  · split
    · next h => exact h.symm
    · rfl

end Token

/-- The characters that only separate tokens. -/
def isLayout (c : Char) : Bool :=
  c == ' ' || c == '\t' || c == '\x0C' || c == '\r' || c == '\n'

/-- The characters of the longest word at the front of a text form an identifier. -/
theorem isIdentifier_longestWord {c : Char} (h : isWordStart c = true) (rest : List Char) :
    isIdentifier (String.ofList (c :: rest.takeWhile isWordPart)).toList = true := by
  simp [isIdentifier, h, List.all_takeWhile]

/-- The token at the front of a text, and the text behind it. -/
def frontToken? : List Char → Option (Token × List Char)
  | [] => none
  | ',' :: rest => some (.comma, rest)
  | '&' :: rest => some (.ref, rest)
  | '*' :: rest => some (.ptr, rest)
  | ':' :: ':' :: rest => some (.scope, rest)
  | c :: rest =>
    if h : isWordStart c = true then
      some (.ofWord ⟨String.ofList (c :: rest.takeWhile isWordPart), isIdentifier_longestWord h rest⟩,
        rest.dropWhile isWordPart)
    else none

/-- A token is taken off the text exactly as it is spelled. -/
theorem eq_of_frontToken? {s rest : List Char} {t : Token} (h : frontToken? s = some (t, rest)) :
    s = t.text.toList ++ rest := by
  unfold frontToken? at h
  split at h
  · exact absurd h (by simp)
  · cases h; rfl
  · cases h; rfl
  · cases h; rfl
  · cases h; rfl
  · split at h
    · cases h; simp
    · exact absurd h (by simp)

/-- Every token has at least one character. -/
theorem Token.text_toList_length_pos (t : Token) : 0 < t.text.toList.length := by
  cases t with
  | name word =>
    rcases Nat.eq_zero_or_pos word.text.toList.length with h | h
    · have hv := word.valid
      rw [List.length_eq_zero_iff.mp h] at hv
      exact absurd hv (by decide)
    · exact h
  | _ => decide

/-- Taking a token off a text makes the text shorter. -/
theorem length_lt_of_frontToken? {s rest : List Char} {t : Token}
    (h : frontToken? s = some (t, rest)) : rest.length < s.length := by
  have hpos := t.text_toList_length_pos
  rw [eq_of_frontToken? h, List.length_append]
  omega

/-- A value together with the offset at which it stands in the text. -/
structure Located (α : Type) where
  /-- The offset of its first character. -/
  offset : Nat
  /-- What stands there. -/
  value : α
  deriving DecidableEq, Repr

/-- The tokens of a text, and the character that stopped the scan, if one did. -/
structure Scan where
  /-- The tokens before the stop, in order. -/
  tokens : List (Located Token)
  /-- The first character that belongs to no token. -/
  stop : Option (Located Char)
  deriving DecidableEq, Repr

/-- A scan with one more token in front. -/
def Scan.cons (t : Located Token) (s : Scan) : Scan := { s with tokens := t :: s.tokens }

/-- Scan the rest of a text that begins at the given offset. -/
def scan (offset : Nat) (s : List Char) : Scan :=
  match s with
  | [] => ⟨[], none⟩
  | c :: rest =>
    if isLayout c then scan (offset + 1) rest
    else
      match _h : frontToken? (c :: rest) with
      | none => ⟨[], some ⟨offset, c⟩⟩
      | some (t, behind) => (scan (offset + t.text.length) behind).cons ⟨offset, t⟩
termination_by s.length
decreasing_by
  · simp
  · exact length_lt_of_frontToken? _h

end OverloadDispatch.Signature
