import OverloadDispatch.Signature.Basic
import OverloadDispatch.Text.Quoted

/-!
# Listings of signatures

A listing shows every field of every parameter of a signature, with all texts quoted. It is meant
for a reader who has to see where two signatures differ.
-/

namespace OverloadDispatch

open Text

/-- The label and the number of a category in a listing. -/
def Category.listing : Category → String
  | wrapped => "<TypeCategory.CLASS: 1>"
  | array => "<TypeCategory.EIGEN: 2>"
  | basic => "<TypeCategory.BASIS: 3>"
  | void => "<TypeCategory.VOID: 4>"

/-- A truth value in a listing. -/
def flagListing (b : Bool) : String := if b then "True" else "False"

/-- Texts in a listing; a single one is told from a text in parentheses by its comma. -/
def tupleListing : List String → String
  | [] => "()"
  | [only] => "(" ++ quoted only ++ ",)"
  | several => "(" ++ String.intercalate ", " (several.map quoted) ++ ")"

/-- A type with all its fields. -/
def QualifiedType.listing (t : QualifiedType) : String :=
  "QualifiedType(name=" ++ quoted t.name ++ ", namespaces=" ++ tupleListing t.namespaces ++
    ", category=" ++ t.category.listing ++ ")"

/-- A parameter with all its fields. -/
def Parameter.listing (p : Parameter) : String :=
  "Argument(name=" ++ quoted p.name ++ ", type=" ++ p.type.listing ++ ", is_const=" ++
    flagListing p.isConst ++ ", is_ref=" ++ flagListing p.isRef ++ ", is_ptr=" ++
    flagListing p.isPtr ++ ")"

/-- A signature with all the fields of its parameters. -/
def Signature.listing (s : Signature) : String :=
  "ArgumentList([" ++ String.intercalate ", " (s.map Parameter.listing) ++ "])"

end OverloadDispatch
