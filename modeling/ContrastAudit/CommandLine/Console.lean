import ContrastAudit.CommandLine.Usage
import ContrastAudit.File.System
import ContrastAudit.Report.Style

/-!
# The console

What a command sees and changes: the file system and the two streams of text that it writes.  Text
keeps its styles only if it goes to a terminal.
-/

namespace ContrastAudit.CommandLine

/-- The file system and what has been written. -/
structure Console where
  files : FileSystem
  terminal : Bool := false
  output : String := ""
  errors : String := ""
  deriving DecidableEq, Repr

namespace Console

/-- A text as it reaches the console. -/
def seen (console : Console) (text : String) : String :=
  if console.terminal then text else Report.Style.strip text

/-- The console with a text written to the output. -/
def say (console : Console) (text : String) : Console :=
  { console with output := console.output ++ console.seen text }

/-- The console with a line written to the errors. -/
def complain (console : Console) (line : String) : Console :=
  { console with errors := console.errors ++ console.seen line ++ "\n" }

end Console

/-- How a command ends: with an exit code, because its arguments are wrong, or because something
happened that it has no words for. -/
inductive Ending
  | exit (code : Nat)
  | usage (error : UsageError)
  | crash
  deriving DecidableEq, Repr

/-- The exit code of an ending. -/
def Ending.code : Ending → Nat
  | .exit code => code
  | .usage _ => 2
  | .crash => 1

end ContrastAudit.CommandLine
