import ContrastAudit.Text.Quoted

/-!
# Errors of use

What can be wrong with the arguments of a command, in the words in which it is reported.
-/

namespace ContrastAudit.CommandLine

/-- What is wrong with a value. -/
inductive ValueProblem
  | noPath (path : String)
  | directory (path : String)
  | noChoice (value : String) (choices : List String)
  | noWholeNumber (value : String)
  | belowOne (n : Int)
  | noPair (value : String)
  | noVariable (value : String)
  deriving DecidableEq, Repr

/-- The problem in words. -/
def ValueProblem.message : ValueProblem → String
  | .noPath path => "Path " ++ Text.quoted path ++ " does not exist."
  | .directory path => "File " ++ Text.quoted path ++ " is a directory."
  | .noChoice value choices =>
    Text.quoted value ++ " is not one of " ++ ", ".intercalate (choices.map Text.quoted) ++ "."
  | .noWholeNumber value => Text.quoted value ++ " is not a valid integer range."
  | .belowOne n => toString n ++ " is not in the range x>=1."
  | .noPair value => "expected FOREGROUND,BACKGROUND, got " ++ Text.quoted value
  | .noVariable value => "expected NAME=VALUE, got " ++ Text.quoted value

/-- What is wrong with the arguments of a command. -/
inductive UsageError
  | noSuchOption (name : String)
  | needsArgument (name : String)
  | takesNoValue (name : String)
  | missingArgument (name : String)
  | extraArguments (values : List String)
  | invalidValue (parameter : String) (problem : ValueProblem)
  | missingCommand
  | noSuchCommand (name : String)
  deriving DecidableEq, Repr

/-- The error in words. -/
def UsageError.message : UsageError → String
  | .noSuchOption name => "No such option " ++ Text.quoted name ++ "."
  | .needsArgument name => "Option " ++ Text.quoted name ++ " requires an argument."
  | .takesNoValue name => "Option " ++ Text.quoted name ++ " does not take a value."
  | .missingArgument name => "Missing argument " ++ Text.quoted name ++ "."
  | .extraArguments values =>
    let noun := if values.length = 1 then "argument" else "arguments"
    "Got unexpected extra " ++ noun ++ " (" ++ " ".intercalate values ++ ")"
  | .invalidValue parameter problem =>
    "Invalid value for " ++ parameter ++ ": " ++ problem.message
  | .missingCommand => "Missing command."
  | .noSuchCommand name => "No such command " ++ Text.quoted name ++ "."

end ContrastAudit.CommandLine
