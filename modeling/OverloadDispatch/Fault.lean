import OverloadDispatch.Issue
import OverloadDispatch.Signature.Token
import OverloadDispatch.Text.Position
import OverloadDispatch.Text.Quoted

/-!
# Faults

A fault is the reason why an operation has no result. Each constructor is one cause and carries
the facts of its message; the wording stands in `Fault.message` alone.
-/

namespace OverloadDispatch

open Text

/-- Why a text is not a parameter list. -/
inductive ReadError where
  /-- A character opens no token. -/
  | character (found : Char) (place : Position)
  /-- A token, or the end of the text, stands where the grammar does not admit it. -/
  | token (found : Option Signature.Token) (place : Position)
  deriving DecidableEq, Repr

/-- The wording of what is wrong with a parameter list, and where. -/
def ReadError.message : ReadError → String
  | character found place =>
    "No terminal matches '" ++ String.singleton found ++ "' in the current parser context, at line " ++
      toString place.line ++ " col " ++ toString place.column
  | token found place =>
    "Unexpected token Token('" ++ (found.map Signature.Token.kind).getD "$END" ++ "', " ++
      quoted ((found.map Signature.Token.text).getD "") ++ ") at line " ++ toString place.line ++
      ", column " ++ toString place.column ++ "."

/-- Why an operation has no result. -/
inductive Fault where
  /-- A piece of a type spelling is blank. -/
  | malformedType (spelling : String)
  /-- A type has an empty name. -/
  | unnamedType
  /-- A text is not a parameter list. -/
  | unreadable (text : String) (reason : ReadError)
  /-- A callable is declared under an empty name. -/
  | unnamedCallable
  /-- The declared interface is at fault. -/
  | issue (reason : Issue)
  /-- An overload set has no signature at an index. -/
  | noOverload (index size : Int)
  /-- A slice advances by zero. -/
  | zeroStep
  /-- A signature has no parameter at an index. -/
  | noParameter
  /-- An index does not fit the signed 64-bit range of positions. -/
  | indexTooWide
  /-- No host check is known for a type. -/
  | noHostCheck (qualified : String)
  /-- A dialect is requested by a name that no dialect has. -/
  | unknownDialect (requested : String) (known : List String)
  /-- A guard holds a node that no dialect can write. -/
  | unsupportedNode (kind : String)
  /-- A spelling is required of a renderer that has no dialect. -/
  | noDialect
  /-- A level of indentation does not fit the signed 64-bit range of counts. -/
  | levelTooWide
  /-- The length of an indentation does not fit that range. -/
  | indentTooLong
  /-- An indentation is longer than what memory holds. -/
  | indentTooLarge
  deriving DecidableEq, Repr

/-- The wording of a fault. -/
def Fault.message : Fault → String
  | malformedType spelling => "malformed qualified type '" ++ spelling ++ "'"
  | unnamedType => "QualifiedType requires a non-empty name"
  | unreadable text reason => "cannot parse signature " ++ quoted text ++ ": " ++ reason.message
  | unnamedCallable => "OverloadedFunction.initialize_or_check called with empty name"
  | issue reason => reason.text
  | noOverload index size =>
    "overload index " ++ toString index ++ " out of range (have " ++ toString size ++ ")"
  | zeroStep => "slice step cannot be zero"
  | noParameter => "tuple index out of range"
  | indexTooWide => "cannot fit 'int' into an index-sized integer"
  | noHostCheck qualified => "no host check for type '" ++ qualified ++ "'"
  | unknownDialect requested known =>
    "unknown guard back end '" ++ requested ++ "' (expected one of [" ++
      String.intercalate ", " (known.map quoted) ++ "])"
  | unsupportedNode kind => "unsupported guard node " ++ kind
  | noDialect => ""
  | levelTooWide => "cannot fit 'int' into an index-sized integer"
  | indentTooLong => "repeated string is too long"
  | indentTooLarge => ""

/-- A computation of two steps succeeds when both do. -/
theorem bind_eq_ok_iff {ε α β : Type} {x : Except ε α} {f : α → Except ε β} {b : β} :
    (x >>= f) = .ok b ↔ ∃ a, x = .ok a ∧ f a = .ok b := by
  cases x with
  | error fault =>
    constructor
    · intro h
      cases h
    · rintro ⟨a, h, -⟩
      cases h
  | ok a =>
    constructor
    · exact fun h => ⟨a, rfl, h⟩
    · rintro ⟨a', h, hf⟩
      cases h
      exact hf

/-- What is made of a result is made of the result that there is. -/
theorem map_eq_ok_iff {ε α β : Type} {x : Except ε α} {f : α → β} {b : β} :
    x.map f = .ok b ↔ ∃ a, x = .ok a ∧ f a = b := by
  cases x <;> simp [Except.map]

/-- What is made of a result changes no fault. -/
theorem map_eq_error_iff {ε α β : Type} {x : Except ε α} {f : α → β} {fault : ε} :
    x.map f = .error fault ↔ x = .error fault := by
  cases x <;> simp [Except.map]

/-- A computation with a result is told by it. -/
theorem eq_ok_of_toOption {ε α : Type} {x : Except ε α} {a : α} (h : x.toOption = some a) :
    x = .ok a := by
  cases x with
  | error fault => cases h
  | ok b => rw [Option.some.inj h]

/-- The fault with which a computation ends, if it does. -/
def faultOf? {ε α : Type} : Except ε α → Option ε
  | .error f => some f
  | .ok _ => none

theorem faultOf?_eq_some_iff {ε α : Type} {x : Except ε α} {fault : ε} :
    faultOf? x = some fault ↔ x = .error fault := by
  cases x <;> simp [faultOf?]

/-- Several computations have results when each of them has. -/
theorem mapM_eq_ok_iff {ε α β : Type} {f : α → Except ε β} {xs : List α} {ys : List β} :
    xs.mapM f = .ok ys ↔ xs.map f = ys.map .ok := by
  induction xs generalizing ys with
  | nil =>
    cases ys with
    | nil => simp [pure, Except.pure]
    | cons y ys => simp [pure, Except.pure]
  | cons x xs ih =>
    rw [List.mapM_cons, bind_eq_ok_iff]
    simp only [bind_eq_ok_iff, ih]
    constructor
    · rintro ⟨y, hy, others, hothers, h⟩
      obtain rfl := Except.ok.inj h
      rw [List.map_cons, List.map_cons, hy, hothers]
    · intro h
      cases ys with
      | nil => cases h
      | cons y ys =>
        obtain ⟨hy, hothers⟩ := List.cons.inj h
        exact ⟨y, hy, ys, hothers, rfl⟩

/-- Several computations have the fault of the first one that has a fault. -/
theorem faultOf?_mapM {ε α β : Type} (f : α → Except ε β) (xs : List α) :
    faultOf? (xs.mapM f) = (xs.map f).findSome? faultOf? := by
  induction xs with
  | nil => rfl
  | cons x xs ih =>
    rw [List.mapM_cons, List.map_cons, List.findSome?_cons, ← ih]
    cases f x with
    | error fault => rfl
    | ok y => cases xs.mapM f <;> rfl

/-- Two computations end alike: with the same fault, or with results that stand in a relation. -/
inductive EndAlike {ε α β : Type} (R : α → β → Prop) : Except ε α → Except ε β → Prop where
  /-- Both end with the same fault. -/
  | fault (f : ε) : EndAlike R (.error f) (.error f)
  /-- Both have a result. -/
  | result {a : α} {b : β} : R a b → EndAlike R (.ok a) (.ok b)

namespace EndAlike

variable {ε α β α' β' : Type} {R : α → β → Prop} {S : α' → β' → Prop} {x : Except ε α}
  {y : Except ε β}

/-- Computations of two steps end alike when their first steps do, and then their second steps. -/
theorem bind {f : α → Except ε α'} {g : β → Except ε β'} (h : EndAlike R x y)
    (hnext : ∀ a b, R a b → EndAlike S (f a) (g b)) : EndAlike S (x >>= f) (y >>= g) := by
  cases h with
  | fault f => exact .fault f
  | result hab => exact hnext _ _ hab

/-- A computation ends like itself when every result is related to itself. -/
theorem refl {R : α → α → Prop} (hrefl : ∀ a, R a a) (x : Except ε α) : EndAlike R x x := by
  cases x with
  | error f => exact .fault f
  | ok a => exact .result (hrefl a)

/-- The faults are the same. -/
theorem error_iff (h : EndAlike R x y) (fault : ε) : x = .error fault ↔ y = .error fault := by
  cases h with
  | fault f => simp
  | result hab => simp

/-- The results are related. -/
theorem related (h : EndAlike R x y) {a : α} {b : β} (hx : x = .ok a) (hy : y = .ok b) :
    R a b := by
  cases h with
  | fault f => cases hx
  | result hab =>
    cases hx
    cases hy
    exact hab

/-- Computations that end alike with equal results are equal. -/
theorem eq {x y : Except ε α} (h : EndAlike Eq x y) : x = y := by
  cases h with
  | fault f => rfl
  | result hab => rw [hab]

end EndAlike

end OverloadDispatch
