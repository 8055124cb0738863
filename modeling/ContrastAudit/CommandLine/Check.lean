import ContrastAudit.Analysis.Auditor
import ContrastAudit.CommandLine.Console
import ContrastAudit.CommandLine.Syntax
import ContrastAudit.CommandLine.Value
import ContrastAudit.Config.Load
import ContrastAudit.File.Discovery
import ContrastAudit.Report.Annotated
import ContrastAudit.Report.Json
import ContrastAudit.Report.Page
import ContrastAudit.Report.Plain

/-!
# Checking files

The command that audits files: it puts the configuration together from a file and from options,
finds the files to audit, and writes the report to the output or to a file.  It ends with one if a
finding fails the level, and with two if the configuration cannot be used.  It may go on watching
for changes and then audits again after each.
-/

namespace ContrastAudit.CommandLine

/-- The forms of reports. -/
inductive Format
  | text
  | json
  | github
  | html
  deriving DecidableEq, Repr

/-- The names of the forms. -/
def formats : List (String × Format) :=
  [("text", .text), ("json", .json), ("github", .github), ("html", .html)]

/-- The names of the levels. -/
def levels : List (String × Conformance) :=
  Conformance.all.map fun level => (level.name, level)

/-- The options of the command. -/
structure CheckOptions where
  config : Option String := none
  css : List String := []
  tokens : List String := []
  ignore : IgnoreConfig := {}
  format : Format := .text
  output : Option String := none
  level : Option Conformance := none
  noUtilities : Bool := false
  workers : Option Int := none
  all : Bool := false
  watch : Bool := false
  deriving DecidableEq, Repr

namespace CheckOptions

/-- The options as they are given. -/
def specs : List OptionSpec :=
  [{ long := "--config" }, { long := "--css" }, { long := "--tokens" },
   { long := "--ignore-color" }, { long := "--ignore-pair" }, { long := "--ignore-selector" },
   { long := "--format" }, { long := "--output", short := some 'o' }, { long := "--level" },
   { long := "--no-utilities", takesValue := false }, { long := "--workers" },
   { long := "--all", takesValue := false }, { long := "--watch", takesValue := false }]

/-- Sets an option to its values; of an option that is no list the last value counts. -/
def set (fs : FileSystem) (options : CheckOptions) (spec : OptionSpec) (values : List String) :
    Except UsageError CheckOptions :=
  let last := values.getLast?.getD ""
  let checked {α : Type} (result : Except ValueProblem α) : Except UsageError α :=
    result.mapError (.invalidValue spec.title)
  let ignore := options.ignore
  match spec.long with
  | "--config" => do return { options with config := some (← checked (fileName fs last)) }
  | "--css" => .ok { options with css := values }
  | "--tokens" => .ok { options with tokens := values }
  | "--ignore-color" => .ok { options with ignore := { ignore with colors := values } }
  | "--ignore-pair" => do
    return { options with ignore := { ignore with pairs := ← checked (values.mapM colorPair) } }
  | "--ignore-selector" => .ok { options with ignore := { ignore with selectors := values } }
  | "--format" => do return { options with format := ← checked (choice formats last) }
  | "--output" => do return { options with output := some (← checked (fileName fs last)) }
  | "--level" => do return { options with level := some (← checked (choice levels last)) }
  | "--workers" => do return { options with workers := some (← checked (positive last)) }
  | "--no-utilities" => .ok { options with noUtilities := true }
  | "--all" => .ok { options with all := true }
  | "--watch" => .ok { options with watch := true }
  | _ => .ok options

/-- The options and the paths that arguments write. -/
def parse (fs : FileSystem) (arguments : List String) :
    Except UsageError (CheckOptions × List String) := do
  let parsed ← CommandLine.parse specs true arguments
  let options ← parsed.specs.foldlM (fun o spec => o.set fs spec (parsed.values spec)) {}
  if parsed.positional.isEmpty then throw (.missingArgument "PATHS...")
  else
    let paths ← (parsed.positional.mapM (existing fs)).mapError (.invalidValue "'PATHS...'")
    return (options, paths)

end CheckOptions

/-- Why a job stops. -/
inductive JobError
  | audit (error : AuditError)
  | unwritable (error : FileError)
  deriving Repr

/-- The words to report, for an error that the user can mend. -/
def JobError.report? : JobError → Option String
  | .audit error => error.report?
  | .unwritable _ => none

/-- The name of the configuration file that is used without being asked for. -/
def defaultConfigName : String := "contrastkit.json"

/-- The configuration file that counts if none is named. -/
def baseConfig (fs : FileSystem) (name : Option String) : Except ConfigError AuditConfig :=
  match name with
  | some name => AuditConfig.load fs (Path.ofText name)
  | none =>
    let path : Path := ⟨1, fs.here ++ [defaultConfigName]⟩
    if fs.isFile path then AuditConfig.load fs path else .ok {}

/-- The configuration of a file together with that of the options. -/
def configOf (fs : FileSystem) (options : CheckOptions) : Except ConfigError AuditConfig := do
  let base ← baseConfig fs options.config
  base.override {
    cssFiles := some (base.cssFiles ++ options.css)
    tokenFiles := some (base.tokenFiles ++ options.tokens)
    ignore := some (base.ignore.append options.ignore)
    utilityClasses := if options.noUtilities then some false else none
    level := options.level.map fun level => .string level.name
    maxWorkers := options.workers.map .int }

/-- What is audited, and how it is reported. -/
structure Job where
  config : AuditConfig
  paths : List String
  format : Format := .text
  output : Option String := none
  all : Bool := false
  deriving DecidableEq, Repr

namespace Job

/-- The report of some outcomes. -/
def report (job : Job) (here : List String) (outcomes : List Outcome) :
    Except NumericFault String :=
  let level := job.config.level
  match job.format with
  | .text => .ok (Report.plain { all := job.all } level outcomes)
  | .json => (Report.json level outcomes).map (· ++ "\n")
  | .github => .ok (Report.annotated here "" level outcomes)
  | .html => Report.page level outcomes

/-- Writes a report to the output or to a file. -/
def emit (job : Job) (console : Console) (report : String) : Except JobError Console :=
  match job.output with
  | none => .ok (console.say report)
  | some name => do
    let files ← (console.files.writeText (Path.ofText name) report).mapError .unwritable
    return { console with files }.complain ("Report written to " ++ name)

/-- Audits the files once and writes the report.  Whether a finding fails is known unless there are
no files. -/
def run (job : Job) (console : Console) : Except JobError (Option Bool × Console) := do
  let auditor ← (Auditor.ofConfig console.files job.config).mapError .audit
  let files := console.files.discover job.paths job.config.suffixes
  if files.isEmpty then return (none, console.complain "No files to analyze")
  else
    let outcomes ← (auditor.auditFiles console.files files).mapError .audit
    let report ← (job.report console.files.here outcomes).mapError fun fault =>
      .audit (.numeric fault)
    let console ← job.emit console report
    return (some ((Report.Summary.of job.config.level outcomes).failing != 0), console)

/-- Audits the files again after a change.  The result says whether watching goes on. -/
def rerun (job : Job) (console : Console) : Bool × Console :=
  let console := console.complain (({ dim := true } : Report.Style).apply
    "\nChange detected, re-running...")
  match job.run console with
  | .ok (_, console) => (true, console)
  | .error error =>
    match error.report? with
    | some words => (true, console.complain ("Error: " ++ words))
    | none => (false, console)

end Job

/-- A command that has ended, or goes on watching for changes. -/
inductive Step
  | done (ending : Ending) (console : Console)
  | watching (job : Job) (console : Console)

/-- The end of a command by an error. -/
def Step.ofError (error : JobError) (console : Console) : Step :=
  match error.report? with
  | some words => .done (.exit 2) (console.complain ("Error: " ++ words))
  | none => .done .crash console

/-- Runs the command with its options. -/
def checkWith (options : CheckOptions) (paths : List String) (console : Console) : Step :=
  match configOf console.files options with
  | .error error => .ofError (.audit (.config error)) console
  | .ok config =>
    let job : Job := ⟨config, paths, options.format, options.output, options.all⟩
    match job.run console with
    | .error error => .ofError error console
    | .ok (failing, console) =>
      if options.watch then
        .watching job (console.complain "Watching for changes (Ctrl+C to stop)")
      else .done (.exit (if failing == some true then 1 else 0)) console

/-- Runs the command. -/
def check (arguments : List String) (console : Console) : Step :=
  match CheckOptions.parse console.files arguments with
  | .error error => .done (.usage error) console
  | .ok (options, paths) => checkWith options paths console

end ContrastAudit.CommandLine
