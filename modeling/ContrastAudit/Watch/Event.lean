import ContrastAudit.File.Discovery

/-!
# Changes of files

While files are watched, every change of a file is reported with its path and, if the file has been
moved, with its new path.  A change is relevant if one of these paths has a watched suffix and leads
through no directory that is not searched.  Style sheets and token files are watched besides the
suffixes asked for.
-/

namespace ContrastAudit.Watch

/-- The suffixes of style sheets and token files. -/
def extraSuffixes : List String :=
  [".css", ".json", ".tokens", ".yaml", ".yml"]

/-- The suffixes that are watched if some are asked for. -/
def watchedSuffixes (suffixes : List String) : List String :=
  (FileSystem.lowerSuffixes suffixes ++ extraSuffixes).eraseDups

/-- A change of a file or directory; a move has a target. -/
structure Change where
  isDirectory : Bool
  source : String
  target : Option String := none
  deriving DecidableEq, Repr

/-- Whether a path is watched. -/
def isWatched (suffixes : List String) (p : Path) : Bool :=
  !p.names.any FileSystem.skippedDirectories.contains &&
    suffixes.contains (Text.lowercase p.suffix)

/-- Whether a change is relevant. -/
def Change.isRelevant (suffixes : List String) (change : Change) : Bool :=
  !change.isDirectory &&
    (change.source :: change.target.toList).any fun text =>
      text != "" && isWatched suffixes (Path.ofText text)

/-- The directories to observe for some paths: those that the paths lead to, and the directories of
the files. -/
def roots (fs : FileSystem) (paths : List String) : List Path :=
  (paths.map fun text =>
    let path := fs.absolute (Path.ofText text)
    if fs.isDirectory path then path else path.parent).eraseDups

end ContrastAudit.Watch
