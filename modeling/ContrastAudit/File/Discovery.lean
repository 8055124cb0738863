import ContrastAudit.File.System
import ContrastAudit.Text.Case

/-!
# Discovery of files

A path that leads to a directory stands for the files below it that have one of the suffixes asked
for, in the order of their names; what is below directories of dependencies and build products does
not count.  A path that leads to a file stands for it whatever its suffix.

**Results.**
* `nodup_discover`: no file is discovered twice.
-/

namespace ContrastAudit.FileSystem

/-- The directories that are not searched. -/
def skippedDirectories : List String :=
  ["node_modules", ".git", "dist", ".astro"]

/-- Suffixes in lower case. -/
def lowerSuffixes (suffixes : List String) : List String :=
  suffixes.map Text.lowercase

/-- Whether a file below a directory, given by the names that lead there, counts. -/
def isWanted (suffixes names : List String) : Bool :=
  suffixes.contains (Text.lowercase (Path.mk 0 names).suffix) &&
    !names.dropLast.any skippedDirectories.contains

/-- The place that a path leads to. -/
def placeOf? (fs : FileSystem) (p : Path) : Option (List String) :=
  (fs.placeAt p).toOption

/-- What one path stands for; the suffixes are in lower case. -/
def filesAt (fs : FileSystem) (suffixes : List String) (p : Path) : List Path :=
  match fs.find p with
  | .error _ => []
  | .ok (.file _) => [p]
  | .ok .directory =>
    let below := ((fs.placeOf? p).map fs.filesBelow).getD []
    ((below.filter (isWanted suffixes)).mergeSort Path.namesLe).map fun names => p.append ⟨0, names⟩

/-- The files that some paths stand for. -/
def discover (fs : FileSystem) (paths suffixes : List String) : List Path :=
  (paths.flatMap fun text => fs.filesAt (lowerSuffixes suffixes) (Path.ofText text)).eraseDups

theorem nodup_eraseDups (paths : List Path) : paths.eraseDups.Nodup := by
  match paths with
  | [] => simp
  | p :: ps =>
    rw [List.eraseDups_cons]
    refine List.nodup_cons.2 ⟨?_, nodup_eraseDups _⟩
    simp [List.mem_eraseDups]
termination_by paths.length
decreasing_by exact Nat.lt_succ_of_le (List.length_filter_le _ _)

theorem nodup_discover (fs : FileSystem) (paths suffixes : List String) :
    (fs.discover paths suffixes).Nodup :=
  nodup_eraseDups _

end ContrastAudit.FileSystem
