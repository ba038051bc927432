import OverloadDispatch.Host.Check

/-!
# Statements of generated code

A statement is one line of the code that a host runs to choose an overload, without its
indentation. Names and classes are spliced in as they are; texts appear as quoted literals.
-/

namespace OverloadDispatch

open Text

/-- The statements of which guards and entry points are made. -/
inductive Statement where
  /-- Test for a call without keywords whose number of arguments is listed. -/
  | ifAmbiguous (spaced : Bool) (arities : List Int)
  /-- Test for a call with another number of arguments. -/
  | ifArity (spaced : Bool) (arity : Int)
  /-- Report that the overload does not apply. -/
  | returnNoMatch (isVoid : Bool)
  /-- Raise an exception with a message. -/
  | raise (exception message : String)
  /-- List the names of the parameters. -/
  | bindNames (names : List String)
  /-- Bind the positional arguments to the names. -/
  | bindPositional
  /-- Bind the keyword arguments over them. -/
  | bindKeywords
  /-- Open the coercions. -/
  | openTry
  /-- Open the answer to a coercion that failed. -/
  | openExcept
  /-- Fetch a bound value through the checked cast to a wrapped class. -/
  | fetchChecked (name className : String)
  /-- Fetch a bound value. -/
  | fetch (name : String)
  /-- Test for a value that is no instance of a wrapped class. -/
  | ifNotInstance (name className : String)
  /-- Test for a value that fails a host check. -/
  | ifFails (name : String) (check : HostCheck)
  /-- Raise the error of a value that failed. -/
  | raiseValue (name : String)
  /-- Cast a value that passed to its declared type. -/
  | cast (name typeName : String)
  /-- Hand a value that passed to a converter. -/
  | convert (name converter : String)
  /-- Run the native call. -/
  | call (callee : String) (index : Int) (names : List String)
  /-- Report a match without a value. -/
  | returnMatch
  /-- Report a match with the value of the native call. -/
  | returnCall (callee : String) (index : Int) (names : List String)
  /-- Open the entry point. -/
  | defineEntry (name : String)
  /-- Open a resolver. -/
  | defineResolver (name : String)
  /-- Open the loop over the resolvers. -/
  | openLoop (names : List String)
  /-- Test whether a resolver reports a match. -/
  | ifResolved
  /-- Leave the entry point without a value. -/
  | leave
  /-- Run a resolver that reports a value. -/
  | resolve
  /-- Test whether it reported a match. -/
  | ifMatched
  /-- Leave the entry point with the value. -/
  | leaveWithResult
  /-- Raise the error of a call that no overload takes. -/
  | raiseNoOverload (name : String)
  deriving DecidableEq, Repr

namespace Statement

/-- Integers with a separator between them. -/
def integers (separator : String) (ns : List Int) : String :=
  String.intercalate separator (ns.map toString)

/-- The native call of an overload with the values of its parameters. -/
def nativeCall (callee : String) (index : Int) (names : List String) : String :=
  callee ++ "(" ++ String.intercalate ", " (toString index :: names) ++ ")"

/-- The slot of a parameter among the bound values. -/
def slot (name : String) : String := "__params[" ++ quoted name ++ "]"

/-- The error of a value that failed, which names the parameter. -/
def typeError (message : String) : String := "raise TypeError(" ++ quoted message ++ ")"

/-- The message of a call that no overload takes. -/
def noOverloadMessage (name : String) : String :=
  name ++ ": no overload matches the supplied arguments"

/-- A statement as it is written. -/
def text : Statement → String
  | ifAmbiguous false arities =>
    "if len(kwargs)==0 and len(args)+len(kwargs) in [" ++ integers "," arities ++ "]:"
  | ifAmbiguous true arities =>
    "if len(kwargs) == 0 and len(args) + len(kwargs) in [" ++ integers ", " arities ++ "]:"
  | ifArity false arity => "if len(args)+len(kwargs) != " ++ toString arity ++ ":"
  | ifArity true arity => "if len(args) + len(kwargs) != " ++ toString arity ++ ":"
  | returnNoMatch true => "return False"
  | returnNoMatch false => "return False, None"
  | raise exception message => "raise " ++ exception ++ "(" ++ quoted message ++ ")"
  | bindNames names => "__names = [" ++ String.intercalate ", " (names.map quoted) ++ "]"
  | bindPositional => "__params = dict(zip(__names, args))"
  | bindKeywords => "__params.update(kwargs)"
  | openTry => "try:"
  | openExcept => "except Exception:"
  | fetchChecked name className => name ++ " = <" ++ className ++ "?>(" ++ slot name ++ ")"
  | fetch name => name ++ " = " ++ slot name
  | ifNotInstance name className => "if not isinstance(" ++ name ++ ", " ++ className ++ "):"
  | ifFails name check => "if " ++ check.condition name ++ ":"
  | raiseValue name => typeError name
  | cast name typeName => name ++ " = <" ++ typeName ++ ">(" ++ name ++ ")"
  | convert name converter => name ++ " = " ++ converter ++ "(" ++ name ++ ")"
  | call callee index names => nativeCall callee index names
  | returnMatch => "return True"
  | returnCall callee index names => "return True, " ++ nativeCall callee index names
  | defineEntry name => "def " ++ name ++ "(*args, **kwargs):"
  | defineResolver name => "def " ++ name ++ "(args, kwargs):"
  | openLoop names =>
    "for __resolve in (" ++ String.intercalate " " (names.map (· ++ ",")) ++ "):"
  | ifResolved => "if __resolve(args, kwargs):"
  | leave => "return"
  | resolve => "__matched, __result = __resolve(args, kwargs)"
  | ifMatched => "if __matched:"
  | leaveWithResult => "return __result"
  | raiseNoOverload name => typeError (noOverloadMessage name)

end Statement

end OverloadDispatch
