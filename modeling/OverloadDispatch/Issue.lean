import OverloadDispatch.Diagnostic

/-!
# Issues of a declared interface

An issue is a fault of the interface being wrapped and is meant for its author. Each has a stable
reason code, a message and the named facts behind it, and can be kept as a diagnostic.
-/

namespace OverloadDispatch

/-- What may be wrong with a declared interface. -/
inductive Issue where
  /-- An argument type is not among the types known to the module. -/
  | missingDependency (typeName context : String)
  /-- A repeated declaration disagrees with the identity of the first one. -/
  | identityConflict (name expected got : String)
  /-- An issue that is known by its reason code and message alone. -/
  | general (reason message : String)
  deriving DecidableEq, Repr

namespace Issue

/-- The stable reason code. -/
def reason : Issue → String
  | missingDependency _ _ => "dependency-missing"
  | identityConflict _ _ _ => "identity-conflict"
  | general reason _ => reason

/-- The message for the author of the interface. -/
def message : Issue → String
  | missingDependency typeName context => "Missing dependency '" ++ typeName ++ "' in " ++ context
  | identityConflict name expected got =>
    "overload of '" ++ name ++ "' declared as " ++ got ++ ", expected " ++ expected
  | general _ message => message

/-- The reason code in brackets, then the message. -/
def text (i : Issue) : String := "[" ++ i.reason ++ "] " ++ i.message

/-- The facts that are peculiar to the kind of issue, by name. -/
def facts : Issue → List (String × String)
  | missingDependency typeName context => [("type_name", typeName), ("context", context)]
  | identityConflict name expected got => [("name", name), ("expected", expected), ("got", got)]
  | general _ _ => []

/-- All that is known of the issue, by name. -/
def fields (i : Issue) : List (String × String) :=
  ("reason_code", i.reason) :: ("message", i.message) :: i.facts

/-- The issue as a diagnostic of the given phase. -/
def diagnostic (i : Issue) (phase : Option String) : Diagnostic where
  message := i.message
  code := some i.reason
  phase := phase

/-- The report of the diagnostic is the text of the issue under the heading of an error. -/
theorem text_diagnostic (i : Issue) (phase : Option String) (h : i.reason ≠ "") :
    (i.diagnostic phase).text = "error: " ++ i.text := by
  simp [Diagnostic.text, Diagnostic.headline, Diagnostic.codeText, diagnostic, h, text,
    String.append_assoc]

end Issue

end OverloadDispatch
