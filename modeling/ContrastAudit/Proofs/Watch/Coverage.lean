import ContrastAudit.Proofs.File.Discovery
import ContrastAudit.Watch.Loop

/-!
# Watching what is audited

Files are discovered by paths as they are given, while changes are reported with absolute paths.
Every discovered file lies below one of the observed directories.  Whether a change of it counts is
decided by its suffix alone, unless its absolute path leads through a directory that is not
searched: so a file that is found below a directory is watched, and one that is named itself is
watched if its suffix is.

Here watching and discovery differ.  Discovery looks only at the names below the directory that is
given, so what is in `dist` is audited if `dist` itself is given, or if everything is checked out
below a directory of this name.  Watching looks at every name of the absolute path, so a change of
such a file leaves no mark.

**Results.**
* `exists_root_of_mem_discover`: every discovered file lies below an observed directory.
* `isRelevant_of_mem_discover`: a change of a discovered file counts exactly if its absolute path
  leads through no directory that is not searched, and its suffix is watched.
* `receive_of_skipped`: a change below a directory that is not searched leaves no mark.
* `unmarked_of_isFoundBelow`: nor does it if the file is audited, as it is below a given directory.
* `covers_of_mem_discover`: what watching covers of what is discovered.
* `exists_unwatched`: a file that is named itself need not be watched.
-/

namespace ContrastAudit

namespace Path

/-- A path leads through a directory to something below it. -/
structure IsAbove (directory p : Path) : Prop where
  slashes : directory.slashes = p.slashes
  names : directory.names <+: p.names
  strict : directory.names.length < p.names.length

end Path

namespace FileSystem

variable {fs : FileSystem} {paths suffixes : List String} {p : Path}

/-- A file below a directory that is given, with one of the suffixes that are asked for. -/
structure IsFoundBelow (fs : FileSystem) (suffixes : List String) (directory p : Path) : Prop where
  leads : fs.isDirectory directory = true
  found : p ∈ fs.filesAt (lowerSuffixes suffixes) directory

instance decidableIsFoundBelow (fs : FileSystem) (suffixes : List String) (directory p : Path) :
    Decidable (fs.IsFoundBelow suffixes directory p) :=
  decidable_of_iff (fs.isDirectory directory = true ∧
      p ∈ fs.filesAt (lowerSuffixes suffixes) directory)
    ⟨fun h => ⟨h.1, h.2⟩, fun h => ⟨h.leads, h.found⟩⟩

/-- What is discovered is found below a directory that is given, or is given itself. -/
theorem mem_discover (h : p ∈ fs.discover paths suffixes) :
    ∃ text ∈ paths, fs.IsFoundBelow suffixes (Path.ofText text) p ∨
      (p = Path.ofText text ∧ ∃ bytes, fs.find p = .ok (.file bytes)) := by
  obtain ⟨text, htext, hp⟩ := List.mem_flatMap.1 (List.mem_eraseDups.1 h)
  refine ⟨text, htext, ?_⟩
  cases hfind : fs.find (Path.ofText text) with
  | error error =>
      rw [filesAt, hfind] at hp
      cases hp
  | ok entry =>
      cases entry with
      | directory => exact .inl ⟨isDirectory_iff.2 hfind, hp⟩
      | file bytes =>
          rw [filesAt, hfind] at hp
          obtain rfl := List.mem_singleton.1 hp
          exact .inr ⟨rfl, bytes, hfind⟩

/-- What is found below a directory is a file below its place. -/
theorem IsFoundBelow.exists_names {directory : Path} (h : fs.IsFoundBelow suffixes directory p) :
    ∃ place names bytes, fs.placeAt directory = .ok place ∧ p = directory.append ⟨0, names⟩ ∧
      names ≠ [] ∧ (place ++ names, bytes) ∈ fs.files ∧
      isWanted (lowerSuffixes suffixes) names = true := by
  have hfind := isDirectory_iff.1 h.leads
  obtain ⟨place, hplace, -⟩ := find_eq_ok_iff.1 hfind
  have hfound := h.found
  rw [filesAt_of_directory hplace hfind] at hfound
  obtain ⟨names, hnames, rfl⟩ := List.mem_map.1 hfound
  obtain ⟨hbelow, hwanted⟩ := List.mem_filter.1 ((List.mergeSort_perm _ _).mem_iff.1 hnames)
  obtain ⟨hne, bytes, hfile⟩ := mem_filesBelow_iff.1 hbelow
  exact ⟨place, names, bytes, hplace, rfl, hne, hfile, hwanted⟩

section Proper

variable (hfs : fs.IsProper)

include hfs

theorem IsProper.not_mem_here : ".." ∉ fs.here :=
  fun h => (hfs.here _ h).ne_dots rfl

/-- The absolute path of what is found below a directory goes on from that of the directory. -/
theorem IsProper.absolute_append {directory : Path} {place names : List String}
    (hplace : fs.placeAt directory = .ok place) (hnames : ".." ∉ names) :
    fs.absolute (directory.append ⟨0, names⟩) = ⟨1, place ++ names⟩ := by
  have hdirectory : (fs.absolute directory).names = place :=
    names_absolute_of_placeAt hfs.not_mem_here hplace
  rw [absolute, Path.names_absolute] at hdirectory
  have hwhole : (fs.absolute (directory.append ⟨0, names⟩)).names = place ++ names := by
    rw [absolute, Path.names_absolute, ← Path.walk_of_not_mem hnames, ← hdirectory,
      ← Path.walk_append, Path.append, if_pos rfl]
    dsimp only
    split
    · rw [List.append_assoc]
    · rfl
  exact congrArg (Path.mk 1) hwhole

/-- What is found below a directory is a file below its place, also by its absolute path. -/
theorem IsProper.exists_below {directory : Path} (h : fs.IsFoundBelow suffixes directory p) :
    ∃ place names, fs.absolute directory = ⟨1, place⟩ ∧ fs.absolute p = ⟨1, place ++ names⟩ ∧
      names ≠ [] ∧ (∃ bytes, (place ++ names, bytes) ∈ fs.files) ∧
      isWanted (lowerSuffixes suffixes) names = true := by
  obtain ⟨place, names, bytes, hplace, rfl, hne, hfile, hwanted⟩ := h.exists_names
  have hnames : ".." ∉ names := fun hdots =>
    (hfs.files _ hfile _ (List.mem_append_right _ hdots)).ne_dots rfl
  exact ⟨place, names, congrArg (Path.mk 1) (names_absolute_of_placeAt hfs.not_mem_here hplace),
    hfs.absolute_append hplace hnames, hne, ⟨bytes, hfile⟩, hwanted⟩

/-- The absolute path of a file names its place. -/
theorem IsProper.exists_place {bytes : List UInt8} (h : fs.find p = .ok (.file bytes)) :
    ∃ place, fs.absolute p = ⟨1, place⟩ ∧ fs.entryAt place = some (.file bytes) := by
  obtain ⟨place, hplace, hentry⟩ := find_eq_ok_iff.1 h
  exact ⟨place, congrArg (Path.mk 1) (names_absolute_of_placeAt hfs.not_mem_here hplace), hentry⟩

/-- The absolute path of what is discovered is that of a file. -/
theorem IsProper.absolute_of_mem_discover (h : p ∈ fs.discover paths suffixes) :
    ∃ file ∈ fs.files, fs.absolute p = ⟨1, file.1⟩ := by
  obtain ⟨text, -, hbelow | ⟨-, bytes, hfind⟩⟩ := mem_discover h
  · obtain ⟨place, names, -, habsolute, -, ⟨bytes, hfile⟩, -⟩ := hfs.exists_below hbelow
    exact ⟨_, hfile, habsolute⟩
  · obtain ⟨place, habsolute, hentry⟩ := hfs.exists_place hfind
    exact ⟨_, mem_files_of_entryAt hentry, habsolute⟩

/-- What is found below a directory has one of the suffixes that are asked for. -/
theorem IsProper.suffix_of_isFoundBelow {directory : Path}
    (h : fs.IsFoundBelow suffixes directory p) :
    Text.lowercase (fs.absolute p).suffix ∈ lowerSuffixes suffixes := by
  obtain ⟨place, names, -, habsolute, hne, -, hwanted⟩ := hfs.exists_below h
  rw [isWanted, Bool.and_eq_true, List.contains_iff_mem] at hwanted
  rw [habsolute, Path.suffix_append hne]
  exact hwanted.1

end Proper

/-- The absolute path of a file leads to no directory. -/
theorem isDirectory_of_file {place : List String} {bytes : List UInt8}
    (habsolute : fs.absolute p = ⟨1, place⟩) (hentry : fs.entryAt place = some (.file bytes)) :
    fs.isDirectory ⟨1, place⟩ = false := by
  have hdots : ".." ∉ (fs.absolute p).names := Path.not_mem_absolute _ _
  rw [habsolute] at hdots
  rw [Bool.eq_false_iff, Ne, isDirectory_iff, find_eq_ok_iff]
  rintro ⟨target, htarget, hdirectory⟩
  have hsame : target = place := (follow_eq_walk htarget).trans (Path.walk_of_not_mem hdots)
  rw [hsame, hentry] at hdirectory
  cases hdirectory

end FileSystem

namespace Watch

/-- The change of a file whose content is modified. -/
def Change.modified (p : Path) : Change where
  isDirectory := false
  source := p.text

section Coverage

variable {fs : FileSystem} {paths suffixes : List String} {p : Path}

/-! ## Observed directories -/

/-- What is observed for a path is its absolute path or the directory of that. -/
theorem exists_root (fs : FileSystem) {text : String} (h : text ∈ paths) :
    ∃ root ∈ roots fs paths,
      (root = fs.absolute (Path.ofText text) ∧ fs.isDirectory root = true) ∨
        root = (fs.absolute (Path.ofText text)).parent := by
  refine ⟨_, List.mem_eraseDups.2 (List.mem_map_of_mem h), ?_⟩
  dsimp only
  split
  · next hdirectory => exact .inl ⟨rfl, hdirectory⟩
  · exact .inr rfl

/-- Every discovered file lies below an observed directory. -/
theorem exists_root_of_mem_discover (hfs : fs.IsProper) (h : p ∈ fs.discover paths suffixes) :
    ∃ root ∈ roots fs paths, root.IsAbove (fs.absolute p) := by
  obtain ⟨text, htext, hp⟩ := FileSystem.mem_discover h
  obtain ⟨root, hroot, hkind⟩ := exists_root fs htext
  refine ⟨root, hroot, ?_⟩
  rcases hp with hbelow | ⟨rfl, bytes, hfind⟩
  · obtain ⟨place, names, hdirectory, habsolute, hne, -, -⟩ := hfs.exists_below hbelow
    have hobserved : root.slashes = 1 ∧ root.names <+: place := by
      rw [hdirectory] at hkind
      rcases hkind with ⟨rfl, -⟩ | rfl
      · exact ⟨rfl, List.prefix_refl _⟩
      · exact ⟨rfl, List.dropLast_prefix _⟩
    have hlength := hobserved.2.length_le
    have hpos := List.length_pos_iff.2 hne
    rw [habsolute]
    refine ⟨hobserved.1, hobserved.2.trans (List.prefix_append _ _), ?_⟩
    rw [List.length_append]
    omega
  · obtain ⟨place, habsolute, hentry⟩ := hfs.exists_place hfind
    have hne : place ≠ [] := by
      rintro rfl
      simp [FileSystem.entryAt] at hentry
    rw [habsolute] at hkind ⊢
    rcases hkind with ⟨rfl, hdirectory⟩ | rfl
    · rw [FileSystem.isDirectory_of_file habsolute hentry] at hdirectory
      cases hdirectory
    · have hpos := List.length_pos_iff.2 hne
      refine ⟨rfl, List.dropLast_prefix _, ?_⟩
      dsimp only [Path.parent]
      rw [List.length_dropLast]
      omega

/-! ## Changes that count -/

theorem pending_receive (s : State) (relevant : Bool) :
    (s.receive relevant).pending = (s.pending || relevant) :=
  rfl

theorem mem_watchedSuffixes {suffix : String} :
    suffix ∈ watchedSuffixes suffixes ↔
      suffix ∈ FileSystem.lowerSuffixes suffixes ++ extraSuffixes :=
  List.mem_eraseDups

/-- A change of a file counts exactly if its path is watched. -/
theorem isRelevant_modified {names : List String} (h : ∀ name ∈ names, Path.IsName name) :
    (Change.modified ⟨1, names⟩).isRelevant suffixes = isWatched suffixes ⟨1, names⟩ := by
  have hback : Path.ofText (Path.text ⟨1, names⟩) = ⟨1, names⟩ := Path.ofText_text h
  have hsource : (Path.text ⟨1, names⟩ != "") = true := by
    rw [bne_iff_ne]
    intro hempty
    rw [hempty] at hback
    cases hback
  simp only [Change.isRelevant, Change.modified, Option.toList_none, List.any_cons, List.any_nil,
    Bool.or_false, Bool.not_false, Bool.true_and, hsource, hback]

theorem isWatched_iff {names : List String} :
    isWatched (watchedSuffixes suffixes) ⟨1, names⟩ = true ↔
      (∀ name ∈ names, name ∉ FileSystem.skippedDirectories) ∧
        Text.lowercase (Path.mk 1 names).suffix ∈
          FileSystem.lowerSuffixes suffixes ++ extraSuffixes := by
  rw [isWatched, Bool.and_eq_true, Bool.not_eq_true', List.any_eq_false, List.contains_iff_mem,
    mem_watchedSuffixes]
  simp only [List.contains_iff_mem]

/-- A change of a discovered file counts exactly if its absolute path leads through no directory
that is not searched, and its suffix is watched. -/
theorem isRelevant_of_mem_discover (hfs : fs.IsProper) (h : p ∈ fs.discover paths suffixes) :
    (Change.modified (fs.absolute p)).isRelevant (watchedSuffixes suffixes) = true ↔
      (∀ name ∈ (fs.absolute p).names, name ∉ FileSystem.skippedDirectories) ∧
        Text.lowercase (fs.absolute p).suffix ∈
          FileSystem.lowerSuffixes suffixes ++ extraSuffixes := by
  obtain ⟨file, hfile, habsolute⟩ := hfs.absolute_of_mem_discover h
  rw [habsolute, isRelevant_modified (hfs.files file hfile)]
  exact isWatched_iff

/-- A change of a discovered file leaves no mark if its absolute path leads through a directory that
is not searched. -/
theorem receive_of_skipped (hfs : fs.IsProper) (h : p ∈ fs.discover paths suffixes)
    {name : String} (hname : name ∈ (fs.absolute p).names)
    (hskipped : name ∈ FileSystem.skippedDirectories) (s : State) :
    s.receive ((Change.modified (fs.absolute p)).isRelevant (watchedSuffixes suffixes)) = s := by
  have hirrelevant : (Change.modified (fs.absolute p)).isRelevant (watchedSuffixes suffixes) =
      false := by
    rw [Bool.eq_false_iff, Ne, isRelevant_of_mem_discover hfs h]
    exact fun hrelevant => hrelevant.1 name hname hskipped
  rw [hirrelevant, State.receive, Bool.or_false]

/-- What is found below a given directory is audited, wherever the directory itself is; a change of
it leaves no mark if the directory is one that is not searched, or below one. -/
theorem unmarked_of_isFoundBelow (hfs : fs.IsProper) {text : String} (htext : text ∈ paths)
    (hbelow : fs.IsFoundBelow suffixes (Path.ofText text) p) {name : String}
    (hname : name ∈ (fs.absolute (Path.ofText text)).names)
    (hskipped : name ∈ FileSystem.skippedDirectories) :
    p ∈ fs.discover paths suffixes ∧ ∀ s : State,
      s.receive ((Change.modified (fs.absolute p)).isRelevant (watchedSuffixes suffixes)) = s := by
  have hfound : p ∈ fs.discover paths suffixes :=
    List.mem_eraseDups.2 (List.mem_flatMap.2 ⟨text, htext, hbelow.found⟩)
  obtain ⟨place, names, hdirectory, habsolute, -, -, -⟩ := hfs.exists_below hbelow
  rw [hdirectory] at hname
  refine ⟨hfound, receive_of_skipped hfs hfound ?_ hskipped⟩
  rw [habsolute]
  exact List.mem_append_left names hname

/-- A page is found below `dist` if that is the given directory, but is not watched there. -/
example :
    let fs : FileSystem :=
      { here := ["srv"], directories := [["srv", "dist"]],
        files := [(["srv", "dist", "index.html"], [])] }
    fs.discover ["dist"] [".html"] = [Path.ofText "dist/index.html"] ∧
      (Change.modified (fs.absolute (Path.ofText "dist/index.html"))).isRelevant
        (watchedSuffixes [".html"]) = false := by
  decide +kernel

end Coverage

/-- Watching covers what is audited.  Every discovered file lies below an observed directory.  If no
name of its absolute path is that of a directory that is not searched, a change of it leaves its
mark whenever the file is found below a directory that is given, and otherwise exactly if its suffix
is asked for or that of a style sheet or token file. -/
theorem covers_of_mem_discover {fs : FileSystem} (hfs : fs.IsProper) {paths suffixes : List String}
    {p : Path} (h : p ∈ fs.discover paths suffixes) :
    (∃ root ∈ roots fs paths, root.IsAbove (fs.absolute p)) ∧
    ((∀ name ∈ (fs.absolute p).names, name ∉ FileSystem.skippedDirectories) →
      ((∃ text ∈ paths, fs.IsFoundBelow suffixes (Path.ofText text) p) → ∀ s : State,
        (s.receive ((Change.modified (fs.absolute p)).isRelevant
          (watchedSuffixes suffixes))).pending = true) ∧
      ((∀ text ∈ paths, ¬ fs.IsFoundBelow suffixes (Path.ofText text) p) →
        p ∈ paths.map Path.ofText ∧ ∀ s : State, s.pending = false →
          ((s.receive ((Change.modified (fs.absolute p)).isRelevant
              (watchedSuffixes suffixes))).pending = true ↔
            Text.lowercase (fs.absolute p).suffix ∈
              FileSystem.lowerSuffixes suffixes ++ extraSuffixes))) := by
  refine ⟨exists_root_of_mem_discover hfs h, fun hsearched => ?_⟩
  have hrelevant := (isRelevant_of_mem_discover hfs h).trans (and_iff_right hsearched)
  refine ⟨?_, fun hnamed => ⟨?_, fun s hs => ?_⟩⟩
  · rintro ⟨text, -, hbelow⟩ s
    rw [pending_receive, hrelevant.2 (List.mem_append_left _ (hfs.suffix_of_isFoundBelow hbelow)),
      Bool.or_true]
  · obtain ⟨text, htext, hbelow | ⟨rfl, -⟩⟩ := FileSystem.mem_discover h
    · exact absurd hbelow (hnamed text htext)
    · exact List.mem_map_of_mem htext
  · rw [pending_receive, hs, Bool.false_or]
    exact hrelevant

/-- A site with a page in a directory, a style sheet and a component. -/
def site : FileSystem where
  here := ["srv", "site"]
  directories := [["srv", "site", "pages"]]
  files :=
    [(["srv", "site", "pages", "index.HTML"], []), (["srv", "site", "theme.CSS"], []),
      (["srv", "site", "card.vue"], [])]

theorem covers_of_mem_discover_site :
    site.IsProper ∧
    (Path.ofText "pages/index.HTML" ∈ site.discover ["pages", "theme.CSS"] [".html"] ∧
      (∀ name ∈ (site.absolute (Path.ofText "pages/index.HTML")).names,
        name ∉ FileSystem.skippedDirectories) ∧
      site.IsFoundBelow [".html"] (Path.ofText "pages") (Path.ofText "pages/index.HTML") ∧
      (∃ root ∈ roots site ["pages", "theme.CSS"],
        root.IsAbove (site.absolute (Path.ofText "pages/index.HTML"))) ∧
      ∀ s : State, (s.receive ((Change.modified (site.absolute
        (Path.ofText "pages/index.HTML"))).isRelevant (watchedSuffixes [".html"]))).pending =
          true) ∧
    (Path.ofText "theme.CSS" ∈ site.discover ["pages", "theme.CSS"] [".html"] ∧
      (∀ text ∈ ["pages", "theme.CSS"],
        ¬ site.IsFoundBelow [".html"] (Path.ofText text) (Path.ofText "theme.CSS")) ∧
      (({} : State).receive ((Change.modified (site.absolute
        (Path.ofText "theme.CSS"))).isRelevant (watchedSuffixes [".html"]))).pending = true) := by
  have hproper : site.IsProper := by decide
  have hpage : Path.ofText "pages/index.HTML" ∈ site.discover ["pages", "theme.CSS"] [".html"] := by
    decide +kernel
  have hsearched : ∀ p ∈ ["pages/index.HTML", "theme.CSS"],
      ∀ name ∈ (site.absolute (Path.ofText p)).names, name ∉ FileSystem.skippedDirectories := by
    decide +kernel
  have hbelow : site.IsFoundBelow [".html"] (Path.ofText "pages")
      (Path.ofText "pages/index.HTML") := by
    decide +kernel
  have hsheet : Path.ofText "theme.CSS" ∈ site.discover ["pages", "theme.CSS"] [".html"] := by
    decide +kernel
  have hnot : ∀ text ∈ ["pages", "theme.CSS"],
      ¬ site.IsFoundBelow [".html"] (Path.ofText text) (Path.ofText "theme.CSS") := by
    decide +kernel
  have hsuffix : Text.lowercase (site.absolute (Path.ofText "theme.CSS")).suffix ∈
      FileSystem.lowerSuffixes [".html"] ++ extraSuffixes := by
    decide +kernel
  have hpagePath := hsearched "pages/index.HTML" (by decide)
  obtain ⟨hroot, hmarks⟩ := covers_of_mem_discover hproper hpage
  obtain ⟨-, hnamed⟩ := covers_of_mem_discover hproper hsheet
  refine ⟨hproper, ⟨hpage, hpagePath, hbelow, hroot, ?_⟩, hsheet, hnot, ?_⟩
  · exact (hmarks hpagePath).1 ⟨"pages", List.mem_cons_self, hbelow⟩
  · exact (((hnamed (hsearched "theme.CSS" (by decide))).2 hnot).2 {} rfl).2 hsuffix

/-- A file that is named itself is audited whatever its suffix is, but watched only for some. -/
theorem exists_unwatched :
    Path.ofText "card.vue" ∈ site.discover ["card.vue"] [".html"] ∧
      ∀ s : State, s.pending = false →
        (s.receive ((Change.modified (site.absolute (Path.ofText "card.vue"))).isRelevant
          (watchedSuffixes [".html"]))).pending = false := by
  have hirrelevant : (Change.modified (site.absolute (Path.ofText "card.vue"))).isRelevant
      (watchedSuffixes [".html"]) = false := by
    decide +kernel
  refine ⟨by decide +kernel, fun s hs => ?_⟩
  rw [pending_receive, hirrelevant, hs, Bool.or_false]

end Watch

end ContrastAudit
