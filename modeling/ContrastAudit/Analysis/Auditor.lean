import ContrastAudit.Analysis.Outcome
import ContrastAudit.Config.Basic
import ContrastAudit.Markup.Page
import ContrastAudit.Pairing.Audit
import ContrastAudit.Stylesheet.Linked
import ContrastAudit.Token.Read

/-!
# The auditor

Everything that is shared by all audited files is loaded once: the custom properties of token files,
the configured style sheets with their imports, the ignored pairs and the palette of utility
classes.  Then one file after the other is audited.  Of several sources of styles the later ones
win: tokens, linked style sheets, configured style sheets, and the document itself.
-/

namespace ContrastAudit

/-- Why an audit cannot go on. -/
inductive AuditError
  | config (error : ConfigError)
  | token (error : Token.TokenError)
  | numeric (fault : NumericFault)
  | path (error : PathError)
  | markup (error : Markup.MarkupError)
  deriving Repr

namespace AuditError

/-- An error in words, with its cause. -/
def withCause (message : String) (cause : Option String) : String :=
  match cause with
  | none => message
  | some cause => message ++ ": " ++ cause

/-- The words to report, for an error that the user can mend. -/
def report? : AuditError → Option String
  | .config error =>
    if error.isReported then some (withCause error.message error.cause?) else none
  | .token error =>
    if error.isReported then some (withCause error.message error.cause?) else none
  | .numeric _ | .path _ | .markup _ => none

end AuditError

/-- What is shared by all audited files. -/
structure Auditor where
  tokens : PropertyMap := []
  sheet : Sheet := {}
  ignore : IgnoreFilter := ⟨[], [], []⟩
  palette : Option Utility.Palette := none
  deriving DecidableEq, Repr

namespace Auditor

/-- Adds a configured style sheet and what it imports.  It counts even if it has been met, but its
imports do not. -/
def addSheet (fs : FileSystem) (c : Stylesheet.Collection) (name : String) :
    Except AuditError Stylesheet.Collection := do
  let path ← (fs.resolve (Path.ofText name)).mapError .path
  let source ← (fs.read path).mapError fun error => .config (.unreadableSheet name path error)
  let sheet := Stylesheet.parse source
  let (imported, seen) ← (Stylesheet.loadLinked fs sheet.imports path.parent
    (path :: c.seen)).mapError fun bad => .path bad.error
  return ⟨(c.add sheet).sheet ++ imported, seen⟩

/-- The auditor that is configured. -/
def ofConfig (fs : FileSystem) (config : AuditConfig) : Except AuditError Auditor := do
  let tokens ← (Token.readAll fs [] config.tokenFiles).mapError .token
  let sheets ← config.cssFiles.foldlM (addSheet fs) {}
  let ignore ← (IgnoreFilter.ofConfig config.ignore).mapError .numeric
  let palette := if config.utilityClasses then some Utility.Palette.standard else none
  return ⟨tokens, sheets.sheet, ignore, palette⟩

/-- The styling of a page, given the style sheets that are linked to it. -/
def styling (auditor : Auditor) (page : Markup.Page) (linked : Sheet) : Styling :=
  let properties := PropertyMap.mergeAll
    [auditor.tokens, linked.properties, auditor.sheet.properties, page.sheet.properties]
  .ofRules (linked.rules ++ auditor.sheet.rules ++ page.sheet.rules) properties
    (auditor.palette.map .ofPalette)

/-- The outcome for a page whose links are relative to a directory. -/
def auditPage (auditor : Auditor) (fs : FileSystem) (page : Markup.Page) (file : String)
    (directory : Path) : Except AuditError Outcome := do
  let (linked, _) ← (Stylesheet.loadLinked fs (page.linked ++ page.sheet.imports) directory
    []).mapError fun bad => .path bad.error
  let pairs ← ((auditor.styling page linked).pairs page.document).mapError .numeric
  let verdicts ← pairs.mapM fun pair => return (pair, ← pair.evaluate.mapError .numeric)
  return .ofVerdicts file page.document.size auditor.ignore.ignores verdicts

/-- The outcome for a marked-up text. -/
def auditText (auditor : Auditor) (fs : FileSystem) (source file : String) (directory : Path) :
    Except AuditError Outcome :=
  match Markup.Page.parse source with
  | .error error =>
    if error.isUnclosed then .ok (.unreadable file error.message) else .error (.markup error)
  | .ok page => auditor.auditPage fs page file directory

/-- The outcome for a file. -/
def auditFile (auditor : Auditor) (fs : FileSystem) (path : Path) : Except AuditError Outcome :=
  match fs.read path with
  | .error error => .ok (.unreadable path.text (error.message path))
  | .ok source => auditor.auditText fs source path.text path.parent

/-- The outcomes for some files, in their order. -/
def auditFiles (auditor : Auditor) (fs : FileSystem) (paths : List Path) :
    Except AuditError (List Outcome) :=
  paths.mapM (auditor.auditFile fs)

end Auditor

end ContrastAudit
