import ContrastAudit.Color.Notation
import ContrastAudit.CommandLine.Check
import ContrastAudit.Property.Substitution

/-!
# The program

The program has two commands: one checks files, and one shows what color a value is.  Its own
options stand before the command.
-/

namespace ContrastAudit.CommandLine

/-- The name of the program with its version. -/
def versionLine : String := "contrastkit, version 0.4.0"

/-- The option for custom properties. -/
def variableSpec : OptionSpec := { long := "--var" }

/-- The value and the custom properties that arguments write. -/
def parseQuery (arguments : List String) : Except UsageError (String × PropertyMap) := do
  let parsed ← parse [variableSpec] true arguments
  let properties ← ((parsed.values variableSpec).mapM variableOf).mapError
    (.invalidValue variableSpec.title)
  match parsed.positional with
  | [] => throw (.missingArgument "VALUE")
  | [value] => return (value, PropertyMap.merge [] properties)
  | _ :: more => throw (.extraArguments more)

/-- The hexadecimal and the functional notation of a color. -/
def colorLine (color : Color) : Except NumericFault String := do
  return (← color.hex) ++ "  " ++ color.text ++ "\n"

/-- The color that a resolved value writes, or none, as a line. -/
def queriedLine? (value : String) : Except NumericFault (Option String) := do
  (← Color.parse value).mapM colorLine

/-- Shows the color of a value. -/
def showColor (value : String) (properties : PropertyMap) (console : Console) : Ending × Console :=
  match Property.resolve properties value 0 with
  | none => (.exit 1, console.complain ("Unresolved custom property in " ++ Text.quoted value))
  | some resolved =>
    match queriedLine? resolved with
    | .error _ => (.crash, console)
    | .ok none => (.exit 1, console.complain ("Not a color: " ++ Text.quoted resolved))
    | .ok (some line) => (.exit 0, console.say line)

/-- Runs the command that shows colors. -/
def queryColor (arguments : List String) (console : Console) : Ending × Console :=
  match parseQuery arguments with
  | .error error => (.usage error, console)
  | .ok (value, properties) => showColor value properties console

/-- The option for the version. -/
def versionSpec : OptionSpec := { long := "--version", takesValue := false }

/-- The option for more messages about the course of the work; there are none. -/
def verboseSpec : OptionSpec := { long := "--verbose", short := some 'v', takesValue := false }

/-- Runs the program. -/
def run (arguments : List String) (console : Console) : Step :=
  match parse [versionSpec, verboseSpec] false arguments with
  | .error error => .done (.usage error) console
  | .ok parsed =>
    if parsed.specs.contains versionSpec then
      .done (.exit 0) (console.say (versionLine ++ "\n"))
    else
      match parsed.positional with
      | [] => .done (.usage .missingCommand) console
      | "check" :: arguments => check arguments console
      | "parse-color" :: arguments =>
        let (ending, console) := queryColor arguments console
        .done ending console
      | name :: _ => .done (.usage (.noSuchCommand name)) console

end ContrastAudit.CommandLine
