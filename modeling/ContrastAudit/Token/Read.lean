import ContrastAudit.File.System
import ContrastAudit.Json.Reader
import ContrastAudit.Stylesheet.Parse
import ContrastAudit.Text.Case
import ContrastAudit.Token.Flatten
import ContrastAudit.Yaml.Reader

/-!
# Token files

The suffix of a token file says how it is read: a style sheet contributes the custom properties of
its page, and any other file holds a token document, in YAML or in JSON.  An empty document holds no
tokens.  Of several files the later ones win.

**Results.**
* `readAll_append`: files that are read one after the other are read like one list.
-/

namespace ContrastAudit.Token

/-- Why a token file cannot be used. -/
inductive TokenError
  | unreadable (path : Path) (error : FileError)
  | badJson (path : Path) (error : Json.ReadError)
  | badYaml (path : Path) (error : Yaml.ReadError)
  | notObject (path : Path)
  | numeric (fault : NumericFault)
  deriving DecidableEq, Repr

namespace TokenError

/-- The error in words, without its cause. -/
def message : TokenError → String
  | .unreadable path _ => "Cannot read token file " ++ path.text
  | .badJson path _ | .badYaml path _ => "Invalid token file " ++ path.text
  | .notObject path => "Token file " ++ path.text ++ " must contain an object at the top level"
  | .numeric _ => "A color in a token file is out of range"

/-- The cause of the error in words. -/
def cause? : TokenError → Option String
  | .unreadable path error => some (error.message path)
  | .badJson _ error => some error.message
  | .badYaml _ error => some error.message
  | _ => none

/-- Whether the error is one of the file, which its author can mend. -/
def isReported : TokenError → Bool
  | .badJson _ .longNumber | .numeric _ => false
  | _ => true

end TokenError

/-- The custom properties of a token document. -/
def ofDocument (path : Path) : Json → Except TokenError PropertyMap
  | .null => .ok []
  | .object fields => (flatten fields).mapError .numeric
  | _ => .error (.notObject path)

/-- The suffixes of YAML files. -/
def yamlSuffixes : List String :=
  [".yaml", ".yml"]

/-- The custom properties of the text of a token file. -/
def ofText (path : Path) (text : String) : Except TokenError PropertyMap := do
  let suffix := Text.lowercase path.suffix
  if suffix = ".css" then return (Stylesheet.parse text).properties
  else if yamlSuffixes.contains suffix then
    ofDocument path (← (Yaml.parse text).mapError (.badYaml path))
  else ofDocument path (← (Json.parse text).mapError (.badJson path))

/-- The custom properties of a token file. -/
def ofFile (fs : FileSystem) (name : String) : Except TokenError PropertyMap := do
  let path := Path.ofText name
  ofText path (← (fs.read path).mapError (.unreadable path))

/-- The custom properties of several token files, added to others. -/
def readAll (fs : FileSystem) (base : PropertyMap) (names : List String) :
    Except TokenError PropertyMap :=
  names.foldlM (fun map name => return map.merge (← ofFile fs name)) base

theorem readAll_append (fs : FileSystem) (base : PropertyMap) (names more : List String) :
    readAll fs base (names ++ more) =
      (readAll fs base names).bind fun map => readAll fs map more := by
  simp [readAll, bind]

end ContrastAudit.Token
