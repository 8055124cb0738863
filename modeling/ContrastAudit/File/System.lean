import ContrastAudit.File.Path
import ContrastAudit.Text.Newline
import ContrastAudit.Text.Quoted
import ContrastAudit.Text.Utf8

/-!
# File systems

A finite tree of directories and files without links, seen from a current directory.  A path is
followed name by name; every name but the last one has to be a directory, also in front of double
dots.  Files hold bytes and are read as text.

**Results.**
* `entryAt_write`: a written file is found with its content.
* `read_eq`: a file is read from its bytes only.
-/

namespace ContrastAudit

/-- What stands at a place of a file system. -/
inductive Entry
  | file (bytes : List UInt8)
  | directory
  deriving DecidableEq, Repr

/-- Why a file cannot be read. -/
inductive FileError
  | missing
  | directory
  | notDirectory
  | denied
  | undecodable (error : Text.Utf8.DecodeError)
  deriving DecidableEq, Repr

/-- The error in words, for a file of the given path. -/
def FileError.message (path : Path) : FileError → String
  | .missing => "[Errno 2] No such file or directory: " ++ Text.quoted path.text
  | .directory => "[Errno 21] Is a directory: " ++ Text.quoted path.text
  | .notDirectory => "[Errno 20] Not a directory: " ++ Text.quoted path.text
  | .denied => "[Errno 13] Permission denied: " ++ Text.quoted path.text
  | .undecodable error => error.message

/-- Why a path cannot be made absolute. -/
inductive PathError
  /-- A name holds the null character. -/
  | nullCharacter
  deriving DecidableEq, Repr

/-- Directories and files by the names on the way from the root, the places of files that may not be
read, and the current directory, which exists with everything above it. -/
structure FileSystem where
  here : List String
  directories : List (List String) := []
  files : List (List String × List UInt8) := []
  locked : List (List String) := []
  deriving DecidableEq, Repr

namespace FileSystem

/-- What stands at a place. -/
def entryAt (fs : FileSystem) (place : List String) : Option Entry :=
  if place.isPrefixOf fs.here || fs.directories.contains place then some .directory
  else (fs.files.lookup place).map .file

/-- The place that names lead to from another place. -/
def follow (fs : FileSystem) (place : List String) : List String → Except FileError (List String)
  | [] => .ok place
  | name :: names =>
    match fs.entryAt place with
    | none => .error .missing
    | some (.file _) => .error .notDirectory
    | some .directory => fs.follow (if name = ".." then place.dropLast else place ++ [name]) names

/-- The place at the end of a path. -/
def placeAt (fs : FileSystem) (p : Path) : Except FileError (List String) :=
  fs.follow (if p.slashes = 0 then fs.here else []) p.names

/-- What stands at the end of a path. -/
def find (fs : FileSystem) (p : Path) : Except FileError Entry := do
  match fs.entryAt (← fs.placeAt p) with
  | none => .error .missing
  | some entry => .ok entry

/-- The bytes of a file. -/
def bytes (fs : FileSystem) (p : Path) : Except FileError (List UInt8) := do
  let place ← fs.placeAt p
  match fs.entryAt place with
  | none => .error .missing
  | some .directory => .error .directory
  | some (.file bytes) => if fs.locked.contains place then .error .denied else .ok bytes

/-- The text of some bytes of a file. -/
def textOf (bytes : List UInt8) : Except FileError String :=
  match Text.Utf8.decode bytes with
  | .ok text => .ok (String.ofList (Text.unifyLines text.toList))
  | .error e => .error (.undecodable e)

/-- The text of a file. -/
def read (fs : FileSystem) (p : Path) : Except FileError String := do
  textOf (← fs.bytes p)

/-- Whether a path leads to a directory. -/
def isDirectory (fs : FileSystem) (p : Path) : Bool :=
  match fs.find p with
  | .ok .directory => true
  | _ => false

/-- Whether a path leads to a file. -/
def isFile (fs : FileSystem) (p : Path) : Bool :=
  match fs.find p with
  | .ok (.file _) => true
  | _ => false

/-- The absolute path of a path. -/
def absolute (fs : FileSystem) (p : Path) : Path :=
  p.absolute fs.here

/-- The absolute path of a path whose names are looked up on the way. -/
def resolve (fs : FileSystem) (p : Path) : Except PathError Path :=
  if p.isSound then .ok (fs.absolute p) else .error .nullCharacter

/-- The files below a place, by the names that lead there. -/
def filesBelow (fs : FileSystem) (place : List String) : List (List String) :=
  fs.files.filterMap fun (names, _) =>
    if place.isPrefixOf names && place.length < names.length then some (names.drop place.length)
    else none

/-! ## Writing -/

/-- The places above a place, without the root. -/
def placesAbove : List String → List (List String)
  | [] => []
  | [_] => []
  | name :: names => [name] :: (placesAbove names).map (name :: ·)

/-- The file system with a directory and everything above it. -/
def makeDirectory (fs : FileSystem) (place : List String) : FileSystem :=
  { fs with directories := place :: placesAbove place ++ fs.directories }

/-- The file system with the content of a file replaced, which may be a new file. -/
def write (fs : FileSystem) (place : List String) (bytes : List UInt8) : FileSystem :=
  { fs with files := (place, bytes) :: fs.files.filter (·.1 != place) }

/-- The file system with a file and the directories above it. -/
def create (fs : FileSystem) (place : List String) (bytes : List UInt8) : FileSystem :=
  { fs with directories := placesAbove place ++ fs.directories }.write place bytes

/-- The file system with a text written to a file, whose directory has to exist. -/
def writeText (fs : FileSystem) (p : Path) (text : String) : Except FileError FileSystem := do
  let place ← fs.placeAt p
  match fs.entryAt place, fs.entryAt place.dropLast with
  | some .directory, _ => .error .directory
  | _, some .directory => .ok (fs.write place (Text.Utf8.encode text))
  | _, some (.file _) => .error .notDirectory
  | _, none => .error .missing

theorem entryAt_write {fs : FileSystem} {place : List String}
    (h : fs.entryAt place ≠ some .directory) (bytes : List UInt8) :
    (fs.write place bytes).entryAt place = some (.file bytes) := by
  unfold entryAt at h ⊢
  split at h
  · contradiction
  · next hd =>
    rw [if_neg (by simpa [write] using hd)]
    simp [write]

theorem read_eq (fs : FileSystem) (p : Path) : fs.read p = fs.bytes p >>= textOf := rfl

end FileSystem

end ContrastAudit
