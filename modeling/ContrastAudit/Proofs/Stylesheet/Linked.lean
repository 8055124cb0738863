import ContrastAudit.Proofs.File.Place
import ContrastAudit.Proofs.Graph.FirstVisit
import ContrastAudit.Stylesheet.Linked

/-!
# What linked style sheets are collected

The imports of a file system make a graph of paths.  Whatever its shape, cycles included, the
collection is the depth-first search from the references of a document.

**Results.**
* `loadLinked_eq`: the sheets are those of the first visits of the import graph, one after the
  other, and these are exactly the linked paths (`Linked`), none of them twice.
* `exists_loadLinked_iff`: there is a result iff every reference on the way can be made a path, so
  that a single reference with a null character loses all the others.
-/

namespace ContrastAudit

namespace FileSystem

variable {fs : FileSystem}

/-- The absolute paths of the files. -/
def paths (fs : FileSystem) : List Path :=
  fs.files.map fun file => ⟨1, file.1⟩

/-- Only a path of a file can be read. -/
theorem mem_paths_of_read {p : Path} {source : String} (hs : p.slashes = 1) (hd : ".." ∉ p.names)
    (h : fs.read p = .ok source) : p ∈ fs.paths := by
  obtain ⟨bytes, hb, -⟩ := bind_eq_ok_iff.1 h
  obtain ⟨place, hp, hb⟩ := bind_eq_ok_iff.1 hb
  have hplace : place = p.names := by
    rw [placeAt, if_neg (by simp [hs])] at hp
    rw [follow_eq_walk hp, Path.walk_of_not_mem hd, List.nil_append]
  subst hplace
  split at hb
  · cases hb
  · cases hb
  · next found he =>
      refine List.mem_map.2 ⟨_, mem_files_of_entryAt he, ?_⟩
      cases p
      simp_all

end FileSystem

namespace Stylesheet

variable (fs : FileSystem)

/-- The references to follow in the file at a path, none if it cannot be read. -/
def importsAt (p : Path) : List String :=
  match fs.read p with
  | .ok source => (parse source).imports
  | .error _ => []

/-- What the file at a path adds, nothing if it cannot be read. -/
def sheetAt (p : Path) : Sheet :=
  match fs.read p with
  | .ok source => { parse source with imports := [] }
  | .error _ => {}

/-- The paths that some references in a directory lead to. -/
def targets (directory : Path) (references : List String) : List Path :=
  references.filterMap fun reference => ((resolveReference fs directory reference).toOption).join

/-- The paths with the paths that are imported there. -/
def importGraph : Graph Path :=
  ⟨fs.paths, fun p => targets fs p.parent (importsAt fs p)⟩

/-- Paths that some references in a directory lead to, or the imports of readable files at such
paths, along chains that avoid the paths met before. -/
inductive Linked (seen : List Path) (references : List String) (directory : Path) : Path → Prop
  | reference {reference : String} {p : Path} :
      reference ∈ references → resolveReference fs directory reference = .ok (some p) → p ∉ seen →
      Linked seen references directory p
  | imported {p q : Path} {source reference : String} :
      Linked seen references directory p → fs.read p = .ok source →
      reference ∈ (parse source).imports →
      resolveReference fs p.parent reference = .ok (some q) → q ∉ seen →
      Linked seen references directory q

/-- All these references can be made paths. -/
def IsSound (directory : Path) (references : List String) : Prop :=
  ∀ reference ∈ references, ∃ p, resolveReference fs directory reference = .ok p

instance decidableIsSound (directory : Path) (references : List String) :
    Decidable (IsSound fs directory references) :=
  decidable_of_iff (∀ reference ∈ references, (resolveReference fs directory reference).isOk)
    (forall₂_congr fun reference _ => by
      cases resolveReference fs directory reference <;> simp [Except.isOk, Except.toBool])

/-- All references that are met can be made paths. -/
structure LinksAreSound (seen : List Path) (references : List String) (directory : Path) :
    Prop where
  here : IsSound fs directory references
  below : ∀ p, Linked fs seen references directory p → IsSound fs p.parent (importsAt fs p)

variable {fs}

section Targets

variable {directory p : Path} {reference : String} {references : List String}

theorem mem_targets :
    p ∈ targets fs directory references ↔
      ∃ reference ∈ references, resolveReference fs directory reference = .ok (some p) := by
  simp only [targets, List.mem_filterMap]
  refine exists_congr fun reference => and_congr_right fun _ => ?_
  rcases resolveReference fs directory reference with e | _ | q <;> simp [Except.toOption]

theorem targets_cons_none (h : resolveReference fs directory reference = .ok none) :
    targets fs directory (reference :: references) = targets fs directory references := by
  simp [targets, h, Except.toOption]

theorem targets_cons_some (h : resolveReference fs directory reference = .ok (some p)) :
    targets fs directory (reference :: references) = p :: targets fs directory references := by
  simp [targets, h, Except.toOption]

theorem isSound_cons {found : Option Path}
    (h : resolveReference fs directory reference = .ok found) :
    IsSound fs directory (reference :: references) ↔ IsSound fs directory references := by
  simp [IsSound, h]

/-- What a reference leads to is absolute. -/
theorem eq_absolute_of_resolveReference
    (h : resolveReference fs directory reference = .ok (some p)) :
    ∃ q : Path, p = q.absolute fs.here := by
  unfold resolveReference at h
  simp only at h
  split at h
  · cases h
  · split at h
    · cases h
    · rw [map_eq_ok_iff] at h
      obtain ⟨q, hq, hp⟩ := h
      unfold FileSystem.resolve at hq
      split at hq
      · cases hq
        cases hp
        exact ⟨_, rfl⟩
      · cases hq

theorem successors_importGraph (h : resolveReference fs directory reference = .ok (some p)) :
    (importGraph fs).successors p = targets fs p.parent (importsAt fs p) := by
  unfold Graph.successors
  split
  · rfl
  · next hn =>
      have unread : importsAt fs p = [] := by
        unfold importsAt
        split
        · next source hr =>
            obtain ⟨q, rfl⟩ := eq_absolute_of_resolveReference h
            exact absurd (FileSystem.mem_paths_of_read rfl (Path.not_mem_absolute _ _) hr) hn
        · rfl
      rw [unread]
      rfl

end Targets

/-! ## The search -/

section Collect

variable {seen : List Path} {references : List String} {directory : Path}

theorem mem_targets_of_mem_successors {p q : Path} (h : q ∈ (importGraph fs).successors p) :
    q ∈ targets fs p.parent (importsAt fs p) := by
  unfold Graph.successors at h
  split at h
  · exact h
  · simp at h

theorem Linked.exists_reference {p : Path} (h : Linked fs seen references directory p) :
    ∃ d reference, resolveReference fs d reference = .ok (some p) := by
  cases h with
  | reference _ hr _ => exact ⟨_, _, hr⟩
  | imported _ _ _ hr _ => exact ⟨_, _, hr⟩

/-- The linked paths are those that are reached in the import graph. -/
theorem linked_iff_reaches {p : Path} :
    Linked fs seen references directory p ↔
      (importGraph fs).Reaches seen (targets fs directory references) p := by
  constructor
  · intro h
    induction h with
    | reference hm hr hn => exact .start (mem_targets.2 ⟨_, hm, hr⟩) hn
    | imported hp hs hm hr hn ih =>
        obtain ⟨_, _, hpr⟩ := hp.exists_reference
        refine .step ih ?_ hn
        rw [successors_importGraph hpr]
        exact mem_targets.2 ⟨_, by rwa [importsAt, hs], hr⟩
  · intro h
    induction h with
    | start hm hn =>
        obtain ⟨_, hm, hr⟩ := mem_targets.1 hm
        exact .reference hm hr hn
    | step _ hm hn ih =>
        obtain ⟨_, hm, hr⟩ := mem_targets.1 (mem_targets_of_mem_successors hm)
        unfold importsAt at hm
        split at hm
        · next hs => exact .imported ih hs hm hr hn
        · simp at hm

theorem linksAreSound_iff :
    LinksAreSound fs seen references directory ↔
      IsSound fs directory references ∧
        ∀ p, (importGraph fs).Reaches seen (targets fs directory references) p →
          IsSound fs p.parent (importsAt fs p) := by
  simp only [← linked_iff_reaches]
  exact ⟨fun h => ⟨h.here, h.below⟩, fun h => ⟨h.1, h.2⟩⟩

/-- References are sound if they are at some paths that the links do not leave. -/
theorem linksAreSound_of_closed {paths : List Path}
    (hs : targets fs directory references ⊆ paths)
    (hc : ∀ p ∈ paths, targets fs p.parent (importsAt fs p) ⊆ paths)
    (here : IsSound fs directory references)
    (below : ∀ p ∈ paths, IsSound fs p.parent (importsAt fs p)) :
    LinksAreSound fs seen references directory := by
  refine linksAreSound_iff.2 ⟨here, fun p hp => below p ?_⟩
  induction hp with
  | start hm _ => exact hs hm
  | step _ hm _ ih => exact hc _ ih (mem_targets_of_mem_successors hm)

variable {reference : String}

theorem not_linksAreSound_of_error {error : PathError}
    (h : resolveReference fs directory reference = .error error) :
    ¬LinksAreSound fs seen (reference :: references) directory := by
  intro hs
  obtain ⟨_, hr⟩ := hs.here reference List.mem_cons_self
  cases h.symm.trans hr

theorem linksAreSound_cons_none (h : resolveReference fs directory reference = .ok none) :
    LinksAreSound fs seen (reference :: references) directory ↔
      LinksAreSound fs seen references directory := by
  rw [linksAreSound_iff, linksAreSound_iff, isSound_cons h, targets_cons_none h]

theorem linksAreSound_cons_seen {p : Path}
    (h : resolveReference fs directory reference = .ok (some p)) (hp : p ∈ seen) :
    LinksAreSound fs seen (reference :: references) directory ↔
      LinksAreSound fs seen references directory := by
  simp only [linksAreSound_iff, isSound_cons h, targets_cons_some h,
    Graph.Reaches.cons_iff_of_mem hp]

section Visit

variable {p : Path} (h : resolveReference fs directory reference = .ok (some p)) (hp : p ∉ seen)
include h hp

theorem LinksAreSound.imports (hs : LinksAreSound fs seen (reference :: references) directory) :
    LinksAreSound fs (seen ++ [p]) (importsAt fs p) p.parent := by
  rw [linksAreSound_iff, targets_cons_some h] at hs
  have start : (importGraph fs).Reaches seen (p :: targets fs directory references) p :=
    .start List.mem_cons_self hp
  refine linksAreSound_iff.2 ⟨hs.2 p start, fun q hq => hs.2 q ?_⟩
  rw [← successors_importGraph h] at hq
  exact start.trans (List.subset_append_left _ _) hq

omit hp in
theorem LinksAreSound.rest (hs : LinksAreSound fs seen (reference :: references) directory)
    {more : List Path} (hm : seen ⊆ more) : LinksAreSound fs more references directory := by
  rw [linksAreSound_iff, targets_cons_some h] at hs
  refine linksAreSound_iff.2 ⟨(isSound_cons h).1 hs.1, fun q hq => hs.2 q ?_⟩
  exact hq.mono hm (List.subset_cons_self _ _)

/-- Visiting a path, then what it imports, then the rest. -/
theorem visits_cons {below order : List Path}
    (hb : (importGraph fs).Visits (seen ++ [p]) (targets fs p.parent (importsAt fs p)) below)
    (ho : (importGraph fs).Visits (seen ++ [p] ++ below) (targets fs directory references) order) :
    (importGraph fs).Visits seen (targets fs directory (reference :: references))
      (p :: below ++ order) := by
  rw [targets_cons_some h]
  rw [← successors_importGraph h] at hb
  exact .visit hp hb ho

theorem LinksAreSound.cons {below order : List Path}
    (hb : (importGraph fs).Visits (seen ++ [p]) (targets fs p.parent (importsAt fs p)) below)
    (ho : (importGraph fs).Visits (seen ++ [p] ++ below) (targets fs directory references) order)
    (imports : LinksAreSound fs (seen ++ [p]) (importsAt fs p) p.parent)
    (rest : LinksAreSound fs (seen ++ [p] ++ below) references directory) :
    LinksAreSound fs seen (reference :: references) directory := by
  rw [linksAreSound_iff] at imports rest ⊢
  refine ⟨(isSound_cons h).2 rest.1, fun q hq => ?_⟩
  rw [← (visits_cons h hp hb ho).mem_iff] at hq
  rcases List.mem_append.1 hq with hq | hq
  · rcases List.mem_cons.1 hq with rfl | hq
    · exact imports.1
    · exact imports.2 q (hb.mem_iff.1 hq)
  · exact rest.2 q (ho.mem_iff.1 hq)

end Visit

/-- The sheets at some paths behind a sheet. -/
def sheetsAt (fs : FileSystem) (start : Sheet) (paths : List Path) : Sheet :=
  paths.foldl (fun sheet p => sheet ++ sheetAt fs p) start

/-- What becomes of a collection: either the search has visited some paths, and all references on
the way are sound, or they are not. -/
def Collects (fs : FileSystem) (references : List String) (directory : Path) (c : Collection) :
    Except BadReference Collection → Prop
  | .error _ => ¬LinksAreSound fs c.seen references directory
  | .ok c' => LinksAreSound fs c.seen references directory ∧
      ∃ order, (importGraph fs).Visits c.seen (targets fs directory references) order ∧
        c' = ⟨sheetsAt fs c.sheet order, c.seen ++ order⟩

theorem collects_nil (directory : Path) (c : Collection) :
    Collects fs [] directory c (.ok c) := by
  refine ⟨linksAreSound_iff.2 ⟨by simp [IsSound], fun p hp => ?_⟩, [], .nil _, ?_⟩
  · simpa using (Graph.Visits.nil c.seen).mem_iff.2 hp
  · simp [sheetsAt]

theorem Collects.skip_none {c : Collection} {result : Except BadReference Collection}
    (h : resolveReference fs directory reference = .ok none)
    (hr : Collects fs references directory c result) :
    Collects fs (reference :: references) directory c result := by
  unfold Collects at hr ⊢
  simpa only [linksAreSound_cons_none h, targets_cons_none h] using hr

theorem Collects.skip_seen {p : Path} {c : Collection} {result : Except BadReference Collection}
    (h : resolveReference fs directory reference = .ok (some p)) (hp : p ∈ c.seen)
    (hr : Collects fs references directory c result) :
    Collects fs (reference :: references) directory c result := by
  cases result with
  | error bad => exact fun hs => hr ((linksAreSound_cons_seen h hp).1 hs)
  | ok c' =>
      obtain ⟨sound, order, hv, hc⟩ := hr
      refine ⟨(linksAreSound_cons_seen h hp).2 sound, order, ?_, hc⟩
      rw [targets_cons_some h]
      exact .skip hp hv

/-- Collecting what a new path imports, then the rest. -/
theorem Collects.cons {p : Path} {c : Collection} {inner : Except BadReference Collection}
    {next : Collection → Except BadReference Collection}
    (h : resolveReference fs directory reference = .ok (some p)) (hp : p ∉ c.seen)
    (hi : Collects fs (importsAt fs p) p.parent ⟨c.sheet ++ sheetAt fs p, c.seen ++ [p]⟩ inner)
    (hn : ∀ c', inner = .ok c' → Collects fs references directory c' (next c')) :
    Collects fs (reference :: references) directory c (inner >>= next) := by
  cases inner with
  | error bad => exact fun hs => hi (hs.imports h hp)
  | ok c' =>
      obtain ⟨imports, below, hb, rfl⟩ := hi
      have ho := hn _ rfl
      rw [ok_bind]
      cases hc : next ⟨sheetsAt fs (c.sheet ++ sheetAt fs p) below, c.seen ++ [p] ++ below⟩ with
      | error bad =>
          rw [hc] at ho
          exact fun hs => ho (hs.rest h (by simp [List.append_assoc]))
      | ok c'' =>
          rw [hc] at ho
          obtain ⟨rest, order, ho, rfl⟩ := ho
          refine ⟨.cons h hp hb ho imports rest, _, visits_cons h hp hb ho, ?_⟩
          simp [sheetsAt, List.foldl_append]

/-- Collecting is searching, if the depth suffices for the files that have not been met. -/
theorem collects_collect {depth : Nat} {c : Collection}
    (h : (importGraph fs).fresh c.seen < depth) :
    Collects fs references directory c (collect fs depth references directory c) := by
  fun_induction collect fs depth references directory c with
  | case1 => exact collects_nil _ _
  | case2 => exact absurd h (Nat.not_lt_zero _)
  | case3 _ _ _ _ _ _ hr => exact not_linksAreSound_of_error hr
  | case4 _ _ _ _ _ hr ih => exact (ih h).skip_none hr
  | case5 _ _ _ _ _ p hr hp ih => exact (ih h).skip_seen hr (by simpa using hp)
  | case6 directory c depth reference references p hr hp c' error he ih =>
      -- An unreadable path is a file without rules, properties and imports.
      have imports : importsAt fs p = [] := by rw [importsAt, he]
      have sheet : c' = ⟨c.sheet ++ sheetAt fs p, c.seen ++ [p]⟩ := by
        rw [sheetAt, he]
        simp only [Sheet.append_empty, c']
      rw [← ok_bind c' (collect fs (depth + 1) references directory)]
      refine .cons hr (by simpa using hp) ?_ fun d hd => ?_
      · rw [imports, sheet]
        exact collects_nil _ _
      · cases hd
        exact ih (Nat.lt_of_le_of_lt (Graph.fresh_le_of_subset _ (List.subset_append_left _ _)) h)
  | case7 directory c depth reference references p hr hp c' source hs sheet ihi ihr =>
      have imports : importsAt fs p = sheet.imports := by rw [importsAt, hs]
      have added : c'.add sheet = ⟨c.sheet ++ sheetAt fs p, c.seen ++ [p]⟩ := by
        rw [sheetAt, hs]
        rfl
      have isNode : p ∈ (importGraph fs).nodes := by
        obtain ⟨q, rfl⟩ := eq_absolute_of_resolveReference hr
        exact FileSystem.mem_paths_of_read rfl (Path.not_mem_absolute _ _) hs
      have hn : p ∉ c.seen := by simpa using hp
      have fewer : (importGraph fs).fresh (c.seen ++ [p]) < (importGraph fs).fresh c.seen :=
        Graph.fresh_lt_of_mem _ isNode hn (by simp) (by simp)
      have inner := ihi (Nat.lt_of_lt_of_le fewer (Nat.le_of_lt_succ h))
      refine .cons hr hn ?_ fun d hd => ihr d ?_
      · rwa [imports, ← added]
      · rw [hd] at inner
        obtain ⟨-, order, -, rfl⟩ := inner
        refine Nat.lt_of_le_of_lt (Graph.fresh_le_of_subset _ ?_) h
        simp [added, List.append_assoc]

end Collect

/-! ## The result -/

theorem sheetsAt_eq (start : Sheet) (paths : List Path) :
    sheetsAt fs start paths =
      ⟨start.rules ++ paths.flatMap fun p => (sheetAt fs p).rules,
        (paths.map fun p => (sheetAt fs p).properties).foldl .merge start.properties,
        start.imports⟩ := by
  induction paths generalizing start with
  | nil => simp [sheetsAt]
  | cons p paths ih =>
      have imports : (sheetAt fs p).imports = [] := by
        unfold sheetAt
        split <;> rfl
      have step : sheetsAt fs start (p :: paths) = sheetsAt fs (start ++ sheetAt fs p) paths := rfl
      rw [step, ih]
      simp [imports]

variable (fs)

theorem collects_loadLinked (references : List String) (directory : Path) (seen : List Path) :
    Collects fs references directory { seen := seen }
      (collect fs (fs.files.length + 1) references directory { seen := seen }) := by
  apply collects_collect
  have bound : (importGraph fs).fresh seen ≤ fs.paths.length := List.countP_le_length
  simp only [FileSystem.paths, List.length_map] at bound
  exact Nat.lt_succ_of_le bound

/-- Style sheets are loaded iff all references that are met can be made paths. -/
theorem exists_loadLinked_iff (references : List String) (directory : Path) (seen : List Path) :
    (∃ loaded, loadLinked fs references directory seen = .ok loaded) ↔
      LinksAreSound fs seen references directory := by
  have collected := collects_loadLinked fs references directory seen
  simp only [loadLinked, map_eq_ok_iff]
  cases hc : collect fs (fs.files.length + 1) references directory { seen := seen } with
  | error bad =>
      rw [hc] at collected
      exact ⟨by simp, fun hs => absurd hs collected⟩
  | ok c =>
      rw [hc] at collected
      exact ⟨fun _ => collected.1, fun _ => ⟨_, c, rfl, rfl⟩⟩

/-- The sheets that are loaded are those of the first visits of the import graph from the references
of a document, whether or not there are cycles.  These are the linked paths, each of them once; all
of them have been met afterwards, also those that cannot be read. -/
theorem loadLinked_eq (references : List String) (directory : Path) (seen : List Path)
    (h : LinksAreSound fs seen references directory) :
    let visited := (importGraph fs).firstVisits seen (targets fs directory references)
    loadLinked fs references directory seen =
      .ok (⟨visited.flatMap fun p => (sheetAt fs p).rules,
          .mergeAll (visited.map fun p => (sheetAt fs p).properties), []⟩, seen ++ visited) ∧
    visited.Nodup ∧ ∀ p, p ∈ visited ↔ Linked fs seen references directory p := by
  intro visited
  have collected := collects_loadLinked fs references directory seen
  cases hc : collect fs (fs.files.length + 1) references directory { seen := seen } with
  | error bad =>
      rw [hc] at collected
      exact absurd h collected
  | ok c =>
      rw [hc] at collected
      obtain ⟨-, order, hv, rfl⟩ := collected
      have ho : order = visited := hv.eq_firstVisits
      rw [← ho]
      refine ⟨?_, hv.nodup, fun p => hv.mem_iff.trans linked_iff_reaches.symm⟩
      rw [loadLinked, hc, sheetsAt_eq]
      rfl

/-- Two style sheets that import each other, and one that is missing. -/
def ring : FileSystem where
  here := ["site"]
  files :=
    [(["site", "a.css"], Text.Utf8.encode "@import 'b.css'; p { color: red }"),
      (["site", "b.css"], Text.Utf8.encode "@import 'a.css'; @import 'c.css'; q { color: blue }")]

theorem loadLinked_ring :
    LinksAreSound ring [] ["a.css"] ⟨1, ["site"]⟩ ∧
    let visited := (importGraph ring).firstVisits [] (targets ring ⟨1, ["site"]⟩ ["a.css"])
    loadLinked ring ["a.css"] ⟨1, ["site"]⟩ [] =
      .ok (⟨visited.flatMap fun p => (sheetAt ring p).rules,
          .mergeAll (visited.map fun p => (sheetAt ring p).properties), []⟩, [] ++ visited) ∧
    visited.Nodup ∧ ∀ p, p ∈ visited ↔ Linked ring [] ["a.css"] ⟨1, ["site"]⟩ p :=
  have sound : LinksAreSound ring [] ["a.css"] ⟨1, ["site"]⟩ := by
    refine @linksAreSound_of_closed ring [] ["a.css"] ⟨1, ["site"]⟩
      [⟨1, ["site", "a.css"]⟩, ⟨1, ["site", "b.css"]⟩, ⟨1, ["site", "c.css"]⟩] ?_ ?_ ?_ ?_
    all_goals decide +kernel
  ⟨sound, loadLinked_eq ring ["a.css"] ⟨1, ["site"]⟩ [] sound⟩

/-- A reference with a null character loses the sheet that is linked beside it. -/
theorem not_exists_loadLinked_null :
    ¬∃ loaded, loadLinked ring ["a\x00.css", "b.css"] ⟨1, ["site"]⟩ [] = .ok loaded := by
  rw [exists_loadLinked_iff]
  intro sound
  have here : ¬IsSound ring ⟨1, ["site"]⟩ ["a\x00.css", "b.css"] := by decide +kernel
  exact here sound.here

end Stylesheet

end ContrastAudit
