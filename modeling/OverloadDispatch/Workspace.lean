import OverloadDispatch.Callable
import OverloadDispatch.Sequence.Table

/-!
# Tables of overload sets

Whole tables of overload sets are built, instantiated and verified at once. Building is all or
nothing, instantiation leaves the table it starts from untouched, and verification stops at the
first violation in the order of the table. Only callables are verified at once, each under its own
name; an overload set by itself has no name and is verified on behalf of a context that is given.
-/

namespace OverloadDispatch

/-- An overload set, bound to an identity or not. -/
inductive Entry where
  /-- An overload set by itself. -/
  | bare (overloads : OverloadSet)
  /-- The overload set of a callable. -/
  | bound (callable : Callable)
  deriving DecidableEq, Repr

namespace Entry

/-- The overload set of an entry. -/
def overloads : Entry → OverloadSet
  | bare o => o
  | bound c => c.overloads

/-- Add a signature to the overload set of an entry. -/
def push (s : Signature) : Entry → Entry
  | bare o => bare (o.push s)
  | bound c => bound (c.push s)

/-- Instantiate the overload set of an entry. -/
def expand (t : Substitution) : Entry → Entry
  | bare o => bare (o.expand t)
  | bound c => bound (c.expand t)

/-- The text of an entry. -/
def text : Entry → String
  | bare o => o.text
  | bound c => c.text

end Entry

/-- Entries under the names by which the work refers to them. -/
abbrev Workspace := Table Entry

namespace Workspace

/-- Instantiate every entry of a table. -/
def expand (table : Workspace) (t : Substitution) : Workspace :=
  table.map fun (key, entry) => (key, entry.expand t)

/-- Check every callable of a table on its own behalf, in order. -/
def verify (valid : List String) : Table Callable → Except Issue Unit
  | [] => .ok ()
  | (_, callable) :: rest =>
    match callable.verify valid none with
    | .error issue => .error issue
    | .ok () => verify valid rest

/-- The phase in which argument types are checked. -/
def validationPhase : String := "validate"

/-- The first violation in a table as a diagnostic, if there is one. -/
def diagnostics (valid : List String) (table : Table Callable) : List Diagnostic :=
  match verify valid table with
  | .error issue => [issue.diagnostic (some validationPhase)]
  | .ok () => []

/-- The callables of a table of names and texts; the first row that fails decides the fault. -/
def callablesOfTexts : List (String × List String) → Except Fault (List (String × Callable))
  | [] => .ok []
  | (name, texts) :: rest => do
    let callable ← Callable.ofTexts name texts none
    let others ← callablesOfTexts rest
    return (name, callable) :: others

/-- The table with one callable for each distinct name. -/
def ofTexts (rows : List (String × List String)) : Except Fault (Table Callable) :=
  callablesOfTexts (Table.insertAll [] rows)

/-- Store every entry of a table under its key with a leading text. -/
def storeUnder (workspace : Workspace) (leading : String) (table : Workspace) : Workspace :=
  workspace.insertAll (table.map fun (key, entry) => (leading ++ key, entry))

end Workspace

end OverloadDispatch
