import ContrastAudit.CommandLine.Usage
import ContrastAudit.Text.Cut

/-!
# The arguments of a command

Options start with a hyphen and may take a value, which stands in the same argument or in the next
one; a value may look like an option.  Two hyphens alone end the options.  All other arguments are
positional; they may stand between options, or else the first one ends the options.
-/

namespace ContrastAudit.CommandLine

/-- An option of a command. -/
structure OptionSpec where
  long : String
  short : Option Char := none
  takesValue : Bool := true
  deriving DecidableEq, Repr

/-- The name of an option in messages. -/
def OptionSpec.title (spec : OptionSpec) : String :=
  (spec.short.elim "" fun c => Text.quoted (String.ofList ['-', c]) ++ " / ") ++
    Text.quoted spec.long

/-- An option as it is given; the value of an option that takes none is empty. -/
structure Given where
  spec : OptionSpec
  value : String := ""
  deriving DecidableEq, Repr

/-- The options that are given, and the positional arguments. -/
structure Arguments where
  given : List Given := []
  positional : List String := []
  deriving DecidableEq, Repr

/-- What one argument says: the options in it, and the option whose value is in the next one, with
the name by which it is called. -/
structure Reading where
  given : List Given := []
  pending : Option (OptionSpec × String) := none

/-- Reads an argument that starts with two hyphens. -/
def readLong (specs : List OptionSpec) (argument : List Char) : Except UsageError Reading :=
  let (name, value) := match Text.cut '=' argument with
    | some (name, value) => (String.ofList name, some (String.ofList value))
    | none => (String.ofList argument, none)
  match specs.find? (·.long == name) with
  | none => .error (.noSuchOption name)
  | some spec =>
    match spec.takesValue, value with
    | true, some value => .ok { given := [⟨spec, value⟩] }
    | true, none => .ok { pending := some (spec, name) }
    | false, some _ => .error (.takesNoValue name)
    | false, none => .ok { given := [⟨spec, ""⟩] }

/-- Reads the letters behind a single hyphen. -/
def readShort (specs : List OptionSpec) : List Char → Except UsageError Reading
  | [] => .ok {}
  | c :: cs =>
    let name := String.ofList ['-', c]
    match specs.find? (·.short == some c) with
    | none => .error (.noSuchOption name)
    | some spec =>
      if !spec.takesValue then do
        let more ← readShort specs cs
        return { more with given := ⟨spec, ""⟩ :: more.given }
      else if cs.isEmpty then .ok { pending := some (spec, name) }
      else .ok { given := [⟨spec, String.ofList cs⟩] }

/-- Reads an argument, unless it is positional. -/
def readOption? (specs : List OptionSpec) (argument : String) :
    Option (Except UsageError Reading) :=
  match argument.toList with
  | '-' :: '-' :: cs => some (readLong specs ('-' :: '-' :: cs))
  | '-' :: c :: cs => some (readShort specs (c :: cs))
  | _ => none

/-- Reads arguments, the first of which is the value of the `pending` option if there is one. -/
def parseFrom (specs : List OptionSpec) (mixed : Bool) (pending : Option (OptionSpec × String)) :
    List String → Except UsageError Arguments
  | [] =>
    match pending with
    | none => .ok {}
    | some (_, name) => .error (.needsArgument name)
  | argument :: arguments =>
    match pending with
    | some (spec, _) => do
      let more ← parseFrom specs mixed none arguments
      return { more with given := ⟨spec, argument⟩ :: more.given }
    | none =>
      if argument = "--" then .ok { positional := arguments }
      else
        match readOption? specs argument with
        | some reading => do
          let reading ← reading
          let more ← parseFrom specs mixed reading.pending arguments
          return { more with given := reading.given ++ more.given }
        | none =>
          if !mixed then .ok { positional := argument :: arguments }
          else do
            let more ← parseFrom specs mixed none arguments
            return { more with positional := argument :: more.positional }

/-- Reads the arguments of a command.  If `mixed`, positional arguments may stand between
options. -/
def parse (specs : List OptionSpec) (mixed : Bool) (arguments : List String) :
    Except UsageError Arguments :=
  parseFrom specs mixed none arguments

/-- The options that are given, each once, in the order of their first appearance. -/
def Arguments.specs (arguments : Arguments) : List OptionSpec :=
  (arguments.given.map (·.spec)).eraseDups

/-- The values of an option, in order. -/
def Arguments.values (arguments : Arguments) (spec : OptionSpec) : List String :=
  (arguments.given.filter (·.spec == spec)).map (·.value)

end ContrastAudit.CommandLine
