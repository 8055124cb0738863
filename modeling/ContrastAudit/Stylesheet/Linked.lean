import ContrastAudit.File.System
import ContrastAudit.Stylesheet.Parse

/-!
# Linked style sheets

A document links to style sheets, and these import others.  All that are local and readable are
collected, each file before the files it imports, and no file twice.  References are relative to the
file that makes them.
-/

namespace ContrastAudit.Stylesheet

/-- The starts of references that lead to no file. -/
def externalStarts : List String :=
  ["http://", "https://", "//", "data:"]

/-- A text up to a character. -/
def upTo (stop : Char) (cs : List Char) : List Char :=
  cs.takeWhile (· != stop)

/-- The file that a reference in a directory leads to, unless the reference is empty or external.
A query and a fragment do not count. -/
def resolveReference (fs : FileSystem) (directory : Path) (reference : String) :
    Except PathError (Option Path) :=
  let reference := Text.strip reference
  if reference = "" || externalStarts.any (Text.startsWith reference) then .ok none
  else
    let file := upTo '#' (upTo '?' reference.toList)
    if file.isEmpty then .ok none
    else (fs.resolve (directory.append (Path.ofText (String.ofList file)))).map some

/-- What is collected: the sheets so far, one after the other, and every path that has been met. -/
structure Collection where
  sheet : Sheet := {}
  seen : List Path := []
  deriving DecidableEq, Repr

/-- The collection with a sheet whose imports are followed elsewhere. -/
def Collection.add (c : Collection) (sheet : Sheet) : Collection :=
  { c with sheet := c.sheet ++ { sheet with imports := [] } }

/-- A reference that cannot be made a path ends the collection; what has been met until then
stays. -/
structure BadReference where
  error : PathError
  seen : List Path
  deriving DecidableEq, Repr

/-- Collects what the references in a directory lead to, where chains of imports may be `depth`
long. -/
def collect (fs : FileSystem) (depth : Nat) (references : List String) (directory : Path)
    (c : Collection) : Except BadReference Collection :=
  match depth, references with
  | _, [] | 0, _ => .ok c
  | depth + 1, reference :: references =>
    match resolveReference fs directory reference with
    | .error error => .error ⟨error, c.seen⟩
    | .ok none => collect fs (depth + 1) references directory c
    | .ok (some path) =>
      if c.seen.contains path then collect fs (depth + 1) references directory c
      else
        let c := { c with seen := c.seen ++ [path] }
        match fs.read path with
        | .error _ => collect fs (depth + 1) references directory c
        | .ok source => do
          let sheet := parse source
          let c ← collect fs depth sheet.imports path.parent (c.add sheet)
          collect fs (depth + 1) references directory c
termination_by (depth, references.length)

/-- The sheets that the references in a directory lead to, without the paths in `seen`, together
with all paths that have been met.  A chain of imports visits no file twice, so that it is never
longer than the number of files. -/
def loadLinked (fs : FileSystem) (references : List String) (directory : Path)
    (seen : List Path) : Except BadReference (Sheet × List Path) :=
  (collect fs (fs.files.length + 1) references directory { seen := seen }).map
    fun c => (c.sheet, c.seen)

theorem loadLinked_nil (fs : FileSystem) (directory : Path) (seen : List Path) :
    loadLinked fs [] directory seen = .ok ({}, seen) := by
  simp [loadLinked, collect, Except.map]

end ContrastAudit.Stylesheet
