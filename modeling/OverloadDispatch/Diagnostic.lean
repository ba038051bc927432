/-!
# Diagnostics

A diagnostic is a finding about a declared interface that is kept for a report, where an error
would stop the work. Its text leads with the severity and the reason code and ends with the notes.
-/

namespace OverloadDispatch

/-- A finding with its reason code, the phase of the work and further notes. -/
structure Diagnostic where
  /-- What was found. -/
  message : String
  /-- A stable reason code, when the finding has one. -/
  code : Option String := none
  /-- The phase in which it was found, when it is known. -/
  phase : Option String := none
  /-- How grave the finding is. -/
  severity : String := "error"
  /-- Further lines for the reader. -/
  notes : List String := []
  deriving DecidableEq, Repr

namespace Diagnostic

/-- The reason code in brackets; an absent or empty code leaves no trace. -/
def codeText : Option String → String
  | none => ""
  | some code => if code = "" then "" else "[" ++ code ++ "] "

/-- The heading line of the report. -/
def headline (d : Diagnostic) : String :=
  d.severity ++ ": " ++ codeText d.code ++ d.message

/-- The report: the heading and one indented line for each note. -/
def text (d : Diagnostic) : String :=
  String.intercalate "\n" (d.headline :: d.notes.map ("  note: " ++ ·))

end Diagnostic

end OverloadDispatch
