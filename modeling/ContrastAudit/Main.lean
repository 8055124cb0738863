import ContrastAudit.CommandLine.Program
import ContrastAudit.Watch.Loop

/-!
# The executable

Reads the files that the program may see, runs it, and writes what it has written.  While it
watches, the files are read again every second.
-/

namespace ContrastAudit.Executable

/-- The names of an absolute path. -/
def placeOf (text : String) : List String :=
  (Path.ofText text).names

/-- The text of a place. -/
def textOf (place : List String) : String :=
  (Path.mk 1 place).text

/-- The deepest directory below a given one that is read. -/
def maxDepth : Nat := 64

/-- Adds a directory and what is below it, given its entries. -/
def readBelow (fs : FileSystem) (place : List String) (entries : Array IO.FS.DirEntry) :
    Nat → IO FileSystem
  | 0 => return fs
  | depth + 1 => do
    let mut fs := fs.makeDirectory place
    for entry in entries do
      let below := place ++ [entry.fileName]
      try
        if ← entry.path.isDir then
          fs ← readBelow fs below (← entry.path.readDir) depth
        else
          fs := fs.create below (← IO.FS.readBinFile entry.path).toList
      catch _ => pure ()
    return fs

/-- The files below the current directory, and those in the directories that the arguments name. -/
def readFiles (arguments : List String) : IO FileSystem := do
  let directory ← IO.currentDir
  let here := placeOf directory.toString
  let mut fs ← readBelow { here } here (← directory.readDir) maxDepth
  for argument in arguments do
    let place := (fs.absolute (Path.ofText argument)).names
    if !here.isPrefixOf place then
      let path := directory / argument
      try
        if ← path.isDir then
          fs ← readBelow fs place (← path.readDir) maxDepth
        else if ← path.pathExists then
          fs := fs.create place (← IO.FS.readBinFile path).toList
      catch _ => pure ()
  return fs

/-- The files that differ between two file systems. -/
def changedFiles (before after : FileSystem) : List (List String) :=
  let differ (a b : FileSystem) : List (List String) :=
    (a.files.filter fun (place, bytes) => b.files.lookup place != some bytes).map (·.1)
  (differ after before ++ differ before after).eraseDups

/-- Writes the files that are not as they were before. -/
def writeFiles (before after : FileSystem) : IO Unit := do
  for place in changedFiles before after do
    if let some bytes := after.files.lookup place then
      IO.FS.writeBinFile (textOf place) (ByteArray.mk bytes.toArray)

/-- Writes what a console has been given, and returns it without that. -/
def flush (before : FileSystem) (console : CommandLine.Console) : IO CommandLine.Console := do
  writeFiles before console.files
  IO.print console.output
  IO.eprint console.errors
  return { console with output := "", errors := "" }

/-- Watches until the program is interrupted. -/
partial def watch (arguments : List String) (job : CommandLine.Job) (state : Watch.State)
    (console : CommandLine.Console) : IO UInt32 := do
  IO.sleep 1000
  let files ← readFiles arguments
  let suffixes := Watch.watchedSuffixes job.config.suffixes
  let roots := (Watch.roots files job.paths).map (·.names)
  let changed := (changedFiles console.files files).filter fun place =>
    roots.any (·.isPrefixOf place)
  let relevant := changed.any fun place =>
    Watch.Change.isRelevant suffixes { isDirectory := false, source := textOf place }
  let state := (state.receive relevant).advance
  if state.phase = .waiting then watch arguments job state { console with files }
  else
    let state := state.advance.advance.advance
    let (goesOn, console) := job.rerun { console with files }
    let console ← flush files console
    if goesOn then watch arguments job state.advance console else return 1

end ContrastAudit.Executable

open ContrastAudit

/-- Runs the program. -/
def main (arguments : List String) : IO UInt32 := do
  let files ← Executable.readFiles arguments
  let terminal ← (← IO.getStdout).isTty
  match CommandLine.run arguments { files, terminal } with
  | .watching job console =>
    let console ← Executable.flush files console
    Executable.watch arguments job {} console
  | .done ending console =>
    let _ ← Executable.flush files console
    match ending with
    | .usage error => IO.eprintln ("Error: " ++ error.message)
    | .crash => IO.eprintln "The program cannot go on."
    | .exit _ => pure ()
    return ending.code.toUInt32
