import ContrastAudit.Config.Basic
import ContrastAudit.Text.Case

/-!
# Configuration files

A configuration file holds a JSON object.  Some settings have a second spelling.  The files that it
names are relative to its own directory.
-/

namespace ContrastAudit.AuditConfig

/-- The second spellings of settings. -/
def spellings : List (String × String) :=
  [("cssFiles", "css_files"), ("tokenFiles", "token_files"), ("utilityClasses", "utility_classes"),
   ("maxWorkers", "max_workers")]

/-- The settings that a file may hold. -/
def knownKeys : List String :=
  ["css_files", "token_files", "ignore", "utility_classes", "level", "max_workers", "include"]

/-- The settings of the ignore section. -/
def knownIgnoreKeys : List String :=
  ["colors", "pairs", "selectors"]

/-- The names of fields that are not known, in order. -/
def unknownKeys (known : List String) (fields : List (String × Json)) : List String :=
  ((fields.map (·.1)).filter fun key => !known.contains key).mergeSort fun a b => a ≤ b

/-- The fields with each setting in its first spelling. -/
def respell (fields : List (String × Json)) : List (String × Json) :=
  fields.foldl
    (fun seen (key, value) => Json.setField ((spellings.lookup key).getD key) value seen) []

/-- The texts of a list of strings, which may also be a single one. -/
def stringList? : Json → Option (List String)
  | .string s => some [s]
  | .array items => items.mapM fun
    | .string s => some s
    | _ => none
  | _ => none

/-- A setting that is a list of strings. -/
def strings? (fields : List (String × Json)) (key : String) :
    Except ConfigError (Option (List String)) :=
  match Json.lookup key fields with
  | none => .ok none
  | some value =>
    match stringList? value with
    | none => .error (.notStrings key)
    | some texts => .ok (some texts)

/-- The entries of the list of ignored pairs.  The characters of a text and the names of an object
count as entries, though none of them is a pair. -/
def pairEntries : Json → Except ConfigError (List Json)
  | .array items => .ok items
  | .string s => .ok (s.toList.map fun c => .string (String.ofList [c]))
  | .object fields => .ok (fields.map fun (name, _) => .string name)
  | _ => .error .ignorePairsNotListed

/-- The ignored pair that an entry writes. -/
def ignoredPair (entry : Json) : Except ConfigError (String × String) :=
  match entry with
  | .array [foreground, background] => .ok (foreground.shown, background.shown)
  | .object fields =>
    match Json.lookup "foreground" fields, Json.lookup "background" fields with
    | some foreground, some background => .ok (foreground.shown, background.shown)
    | _, _ => .error (.badIgnorePair entry)
  | _ => .error (.badIgnorePair entry)

/-- The ignore section. -/
def ignoreConfig : Json → Except ConfigError IgnoreConfig
  | .null => .ok {}
  | .object fields => do
    let unknown := unknownKeys knownIgnoreKeys fields
    if !unknown.isEmpty then throw (.unknownIgnoreKeys unknown)
    else
      let pairs ← (← pairEntries ((Json.lookup "pairs" fields).getD (.array []))).mapM ignoredPair
      let colors ← strings? fields "colors"
      let selectors ← strings? fields "selectors"
      return ⟨colors.getD [], pairs, selectors.getD []⟩
  | _ => .error .ignoreNotObject

/-- The setting of utility classes. -/
def utilityClasses? (fields : List (String × Json)) : Except ConfigError (Option Bool) :=
  match Json.lookup "utility_classes" fields with
  | none => .ok none
  | some (.bool b) => .ok (some b)
  | some _ => .error .utilityClassesNotBool

/-- The setting of the number of workers, which has to be whole. -/
def maxWorkers? (fields : List (String × Json)) : Except ConfigError (Option Json) :=
  match Json.lookup "max_workers" fields with
  | none | some .null => .ok none
  | some (.int n) => .ok (some (.int n))
  | some (.bool b) => .ok (some (.bool b))
  | some _ => .error .workersNotWhole

/-- A file name as it is seen from a directory. -/
def fileIn (directory : Path) (name : String) : String :=
  (directory.append (Path.ofText name)).text

/-- The overrides that the fields of a configuration file in a directory hold. -/
def overrides (directory : Path) (fields : List (String × Json)) :
    Except ConfigError Overrides := do
  let cssFiles ← strings? fields "css_files"
  let tokenFiles ← strings? fields "token_files"
  let suffixes ← strings? fields "include"
  let ignore ← (Json.lookup "ignore" fields).mapM ignoreConfig
  let utilityClasses ← utilityClasses? fields
  let level := (Json.lookup "level" fields).map fun value => .string (Text.lowercase value.shown)
  let maxWorkers ← maxWorkers? fields
  return {
    cssFiles := cssFiles.map (·.map (fileIn directory))
    tokenFiles := tokenFiles.map (·.map (fileIn directory))
    ignore, utilityClasses, level, maxWorkers, suffixes }

/-- The configuration that the fields of a configuration file in a directory write. -/
def ofFields (directory : Path) (fields : List (String × Json)) :
    Except ConfigError AuditConfig := do
  let fields := respell fields
  let unknown := unknownKeys knownKeys fields
  if !unknown.isEmpty then throw (.unknownKeys unknown)
  else override {} (← overrides directory fields)

/-- The configuration of a file. -/
def load (fs : FileSystem) (path : Path) : Except ConfigError AuditConfig := do
  let text ← (fs.read path).mapError (.unreadable path)
  match ← (Json.parse text).mapError (.badJson path) with
  | .object fields => ofFields path.parent fields
  | _ => throw (.notObject path)

end ContrastAudit.AuditConfig
