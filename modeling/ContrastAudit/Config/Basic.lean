import ContrastAudit.Contrast.Verdict
import ContrastAudit.File.System
import ContrastAudit.Ignore.Filter
import ContrastAudit.Json.Display
import ContrastAudit.Json.Reader

/-!
# Configurations

What an audit is configured with: further style sheets and token files, what is ignored, whether
utility classes count, the level of conformance asked for, how many files are audited at the same
time, and the suffixes of the files to audit.  Single settings can be overridden; a level has to be
known and a number of workers has to be at least one.
-/

namespace ContrastAudit

/-- The name of a level. -/
def Conformance.name : Conformance → String
  | .aa => "aa"
  | .aaa => "aaa"

/-- All levels, the weaker one first. -/
def Conformance.all : List Conformance :=
  [.aa, .aaa]

/-- How many files may be audited at the same time, as it is written. -/
inductive Workers
  | whole (n : Int)
  | flag (b : Bool)
  | fraction (x : Float)
  deriving DecidableEq, Repr

namespace Workers

/-- The number that a value writes. -/
def ofJson? : Json → Option Workers
  | .int n => some (.whole n)
  | .bool b => some (.flag b)
  | .float x => some (.fraction x)
  | _ => none

/-- The value that writes a number. -/
def toJson : Workers → Json
  | .whole n => .int n
  | .flag b => .bool b
  | .fraction x => .float x

/-- Whether a number is not below one. -/
def isEnough : Workers → Bool
  | .whole n => 1 ≤ n
  | .flag b => b
  | .fraction x => !(x < 1.0)

end Workers

/-- Why a configuration cannot be used. -/
inductive ConfigError
  | unreadable (path : Path) (error : FileError)
  | badJson (path : Path) (error : Json.ReadError)
  | notObject (path : Path)
  | unknownKeys (keys : List String)
  | notStrings (key : String)
  | ignoreNotObject
  | unknownIgnoreKeys (keys : List String)
  | badIgnorePair (entry : Json)
  | ignorePairsNotListed
  | utilityClassesNotBool
  | badLevel (value : Json)
  | workersNotWhole
  | workersNotNumber
  | tooFewWorkers (workers : Workers)
  | unreadableSheet (name : String) (path : Path) (error : FileError)
  deriving Repr

namespace ConfigError

/-- The error in words, without its cause. -/
def message : ConfigError → String
  | .unreadable path _ => "Cannot read config file " ++ path.text
  | .badJson path _ => "Invalid JSON in " ++ path.text
  | .notObject path => "Config file " ++ path.text ++ " must contain an object"
  | .unknownKeys keys => "Unknown config keys: " ++ ", ".intercalate keys
  | .notStrings key => key ++ " must be a list of strings"
  | .ignoreNotObject => "ignore must be an object"
  | .unknownIgnoreKeys keys => "Unknown ignore keys: " ++ ", ".intercalate keys
  | .badIgnorePair entry => "Invalid ignore pair: " ++ entry.display
  | .ignorePairsNotListed => "The ignored pairs must be a list"
  | .utilityClassesNotBool => "utility_classes must be true or false"
  | .badLevel value =>
    "level must be one of " ++ ", ".intercalate (Conformance.all.map Conformance.name) ++
      ", got " ++ value.display
  | .workersNotWhole => "max_workers must be an integer"
  | .workersNotNumber => "The number of workers must be a number"
  | .tooFewWorkers workers => "max_workers must be at least 1, got " ++ workers.toJson.display
  | .unreadableSheet name _ _ => "Cannot read CSS file " ++ name

/-- The cause of the error in words. -/
def cause? : ConfigError → Option String
  | .unreadable path error => some (error.message path)
  | .badJson _ error => some error.message
  | .unreadableSheet _ path error => some (error.message path)
  | _ => none

/-- Whether the error is one of the configuration, which its author can mend. -/
def isReported : ConfigError → Bool
  | .badJson _ .longNumber | .ignorePairsNotListed | .workersNotNumber => false
  | _ => true

end ConfigError

/-- The configuration of an audit. -/
structure AuditConfig where
  cssFiles : List String := []
  tokenFiles : List String := []
  ignore : IgnoreConfig := {}
  utilityClasses : Bool := true
  level : Conformance := .aa
  maxWorkers : Option Workers := none
  suffixes : List String := [".astro", ".html", ".htm"]
  deriving DecidableEq, Repr

/-- Settings that take the place of those of a configuration. -/
structure Overrides where
  cssFiles : Option (List String) := none
  tokenFiles : Option (List String) := none
  ignore : Option IgnoreConfig := none
  utilityClasses : Option Bool := none
  level : Option Json := none
  maxWorkers : Option Json := none
  suffixes : Option (List String) := none

/-- The level that a value names. -/
def Conformance.ofJson (value : Json) : Except ConfigError Conformance :=
  match value with
  | .string "aa" => .ok .aa
  | .string "aaa" => .ok .aaa
  | _ => .error (.badLevel value)

/-- The number of workers that a value writes. -/
def Workers.ofJson (value : Json) : Except ConfigError Workers :=
  match Workers.ofJson? value with
  | none => .error .workersNotNumber
  | some workers => if workers.isEnough then .ok workers else .error (.tooFewWorkers workers)

namespace AuditConfig

/-- A configuration with some settings overridden. -/
def override (config : AuditConfig) (o : Overrides) : Except ConfigError AuditConfig := do
  let level ← match o.level with
    | none => .ok config.level
    | some value => Conformance.ofJson value
  let maxWorkers ← match o.maxWorkers with
    | none => .ok config.maxWorkers
    | some value => (Workers.ofJson value).map some
  return {
    cssFiles := o.cssFiles.getD config.cssFiles
    tokenFiles := o.tokenFiles.getD config.tokenFiles
    ignore := o.ignore.getD config.ignore
    utilityClasses := o.utilityClasses.getD config.utilityClasses
    level
    maxWorkers
    suffixes := o.suffixes.getD config.suffixes }

end AuditConfig

end ContrastAudit
