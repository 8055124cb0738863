import Mathlib.Data.String.Basic
import ContrastAudit.File.Discovery
import ContrastAudit.Proofs.File.Place
import ContrastAudit.Proofs.Graph.FirstVisit

/-!
# What is discovered

An argument that leads to a file yields the file; one that leads to a directory yields the files
below it whose suffix is asked for, unless a directory on the way down to them is one that is not
searched.  The name of the argument itself does not matter.

**Results.**
* `mem_filesAt_iff`: what one argument yields.
* `pairwise_eraseDups_flatMap`: in which order the elements of some lists are met.
* `discover_yields`: what some arguments yield, each path once and in order.
-/

namespace ContrastAudit

namespace Path

/-! ## The order of names -/

theorem namesLe_total (names names' : List String) :
    (namesLe names names' || namesLe names' names) = true := by
  induction names generalizing names' with
  | nil => rfl
  | cons name names ih =>
      cases names' with
      | nil => rfl
      | cons name' names' =>
          rcases lt_trichotomy name name' with hlt | rfl | hgt
          · simp [namesLe, hlt, hlt.ne]
          · simpa [namesLe] using ih names'
          · simp [namesLe, hgt, hgt.ne]

theorem namesLe_trans {as bs cs : List String} (hab : namesLe as bs = true)
    (hbc : namesLe bs cs = true) : namesLe as cs = true := by
  induction as generalizing bs cs with
  | nil => rfl
  | cons a as ih =>
      match bs, cs with
      | b :: bs, c :: cs =>
          simp only [namesLe] at hab hbc ⊢
          split_ifs at hab hbc ⊢
          all_goals grind

theorem lt_of_namesLe {names names' : List String} (h : namesLe names names' = true)
    (hne : names ≠ names') : names < names' := by
  induction names generalizing names' with
  | nil =>
      cases names' with
      | nil => exact absurd rfl hne
      | cons name' names' => exact List.nil_lt_cons ..
  | cons name names ih =>
      cases names' with
      | nil => cases h
      | cons name' names' =>
          rw [namesLe] at h
          rw [List.cons_lt_cons_iff]
          split at h
          · next hsame => exact .inr ⟨hsame, ih h fun heq => hne (by rw [hsame, heq])⟩
          · exact .inl (of_decide_eq_true h)

/-- What stands in front of both does not matter to the order of names. -/
theorem namesLe_append (front names names' : List String) :
    namesLe (front ++ names) (front ++ names') = namesLe names names' := by
  induction front with
  | nil => rfl
  | cons name front ih => rw [List.cons_append, List.cons_append, namesLe, if_pos rfl, ih]

theorem suffix_append {names : List String} (hne : names ≠ []) (slashes : ℕ) (front : List String) :
    (Path.mk slashes (front ++ names)).suffix = (Path.mk 0 names).suffix := by
  have hlast : (front ++ names).getLast? = names.getLast? := by
    rw [List.getLast?_append_of_ne_nil _ hne]
  rw [suffix, suffix]
  dsimp only
  rw [hlast]

theorem append_relative (base : Path) (names : List String) :
    base.append ⟨0, names⟩ = ⟨base.slashes, base.names ++ names⟩ :=
  rfl

end Path

/-! ## Elements of some lists -/

section Lists

variable {α β : Type}

/-- The first member of a list that yields something, by its position. -/
structure IsFirst (yields : α → β → Prop) (as : List α) (n : ℕ) (b : β) : Prop where
  here : ∃ a, as[n]? = some a ∧ yields a b
  before : ∀ m < n, ∀ a, as[m]? = some a → ¬ yields a b

section

variable {yields : α → β → Prop} {as : List α} {a : α} {b : β}

theorem isFirst_zero (h : yields a b) : IsFirst yields (a :: as) 0 b :=
  ⟨⟨a, rfl, h⟩, fun _ hm => absurd hm (Nat.not_lt_zero _)⟩

theorem IsFirst.cons {n : ℕ} (h : IsFirst yields as n b) (ha : ¬ yields a b) :
    IsFirst yields (a :: as) (n + 1) b := by
  refine ⟨h.here, fun m hm a' ha' => ?_⟩
  cases m with
  | zero => exact Option.some.inj ha' ▸ ha
  | succ m => exact h.before m (Nat.lt_of_succ_lt_succ hm) a' ha'

theorem exists_isFirst (h : ∃ a ∈ as, yields a b) : ∃ n, IsFirst yields as n b := by
  induction as with
  | nil =>
      obtain ⟨a, ha, -⟩ := h
      cases ha
  | cons a as ih =>
      by_cases ha : yields a b
      · exact ⟨0, isFirst_zero ha⟩
      · obtain ⟨a', hmem, ha'⟩ := h
        rcases List.mem_cons.1 hmem with rfl | hmem
        · exact absurd ha' ha
        · obtain ⟨n, hn⟩ := ih ⟨a', hmem, ha'⟩
          exact ⟨n + 1, hn.cons ha⟩

end

variable [DecidableEq β]

theorem eraseDups_sublist (bs : List β) : bs.eraseDups.Sublist bs := by
  match bs with
  | [] => exact List.Sublist.refl _
  | b :: bs =>
      rw [List.eraseDups_cons]
      exact ((eraseDups_sublist _).trans List.filter_sublist).cons_cons b
termination_by bs.length
decreasing_by exact Nat.lt_succ_of_le (List.length_filter_le _ _)

/-- Of two elements that are met one after the other, the first is met in an earlier list, or in the
same one where it stands in front of the second. -/
theorem pairwise_eraseDups_flatMap {f : α → List β} {r : β → β → Prop} {as : List α}
    (h : ∀ a ∈ as, (f a).Pairwise r) (seen : List β) :
    (Graph.unseen seen (as.flatMap f)).eraseDups.Pairwise fun b c =>
      ∃ m n, IsFirst (fun a b => b ∈ f a) as m b ∧ IsFirst (fun a b => b ∈ f a) as n c ∧
        (m < n ∨ m = n ∧ r b c) := by
  induction as generalizing seen with
  | nil => simp [Graph.unseen]
  | cons a as ih =>
      obtain ⟨ha, has⟩ := List.forall_mem_cons.1 h
      rw [List.flatMap_cons, Graph.eraseDups_unseen_append]
      have hhere : ∀ b ∈ (Graph.unseen seen (f a)).eraseDups, b ∈ f a := fun b hb =>
        List.mem_of_mem_filter (List.mem_eraseDups.1 hb)
      have hlater : ∀ b ∈ (Graph.unseen (seen ++ (Graph.unseen seen (f a)).eraseDups)
          (as.flatMap f)).eraseDups, b ∈ as.flatMap f ∧ b ∉ f a := by
        intro b hb
        obtain ⟨hmem, hnew⟩ := List.mem_filter.1 (List.mem_eraseDups.1 hb)
        rw [decide_eq_true_eq, List.mem_append, not_or] at hnew
        refine ⟨hmem, fun hb => hnew.2 (List.mem_eraseDups.2 ?_)⟩
        exact List.mem_filter.2 ⟨hb, decide_eq_true hnew.1⟩
      have hrest := ih has (seen ++ (Graph.unseen seen (f a)).eraseDups)
      refine List.pairwise_append.2 ⟨?_, ?_, ?_⟩
      · have hsublist := (eraseDups_sublist (Graph.unseen seen (f a))).trans List.filter_sublist
        refine (ha.sublist hsublist).imp_of_mem fun hb hc hr => ?_
        exact ⟨0, 0, isFirst_zero (hhere _ hb), isFirst_zero (hhere _ hc), .inr ⟨rfl, hr⟩⟩
      · refine hrest.imp_of_mem ?_
        rintro b c hb hc ⟨m, n, hm, hn, horder⟩
        refine ⟨m + 1, n + 1, hm.cons (hlater b hb).2, hn.cons (hlater c hc).2, ?_⟩
        exact horder.imp Nat.succ_lt_succ (And.imp_left (congrArg Nat.succ))
      · intro b hb c hc
        obtain ⟨hmem, hnew⟩ := hlater c hc
        obtain ⟨n, hn⟩ := exists_isFirst (List.mem_flatMap.1 hmem)
        exact ⟨0, n + 1, isFirst_zero (hhere b hb), hn.cons hnew, .inl (Nat.succ_pos n)⟩

end Lists

namespace FileSystem

variable {fs : FileSystem}

/-! ## Trees -/

/-- Files have proper names, everything above a file is a directory, and no file is one. -/
structure IsTree (fs : FileSystem) : Prop where
  names : ∀ file ∈ fs.files, ∀ name ∈ file.1, Path.IsName name
  above : ∀ file ∈ fs.files, ∀ n < file.1.length, fs.entryAt (file.1.take n) = some .directory
  leaf : ∀ file ∈ fs.files, fs.entryAt file.1 ≠ some .directory

instance decidableIsTree (fs : FileSystem) : Decidable fs.IsTree :=
  decidable_of_iff ((∀ file ∈ fs.files, ∀ name ∈ file.1, Path.IsName name) ∧
      (∀ file ∈ fs.files, ∀ n < file.1.length, fs.entryAt (file.1.take n) = some .directory) ∧
      ∀ file ∈ fs.files, fs.entryAt file.1 ≠ some .directory)
    ⟨fun h => ⟨h.1, h.2.1, h.2.2⟩, fun h => ⟨h.names, h.above, h.leaf⟩⟩

theorem IsTree.not_mem (h : fs.IsTree) {file : List String × List UInt8} (hfile : file ∈ fs.files) :
    ".." ∉ file.1 :=
  fun hmem => (h.names file hfile _ hmem).ne_dots rfl

theorem follow_append (place names names' : List String) :
    fs.follow place (names ++ names') = fs.follow place names >>= (fs.follow · names') := by
  induction names generalizing place with
  | nil => rfl
  | cons name names ih =>
      rw [List.cons_append, follow, follow]
      cases fs.entryAt place with
      | none => rfl
      | some entry =>
          cases entry with
          | file bytes => rfl
          | directory => exact ih _

/-- Names are followed down through directories. -/
theorem follow_of_directories {place names : List String} (hdots : ".." ∉ names)
    (h : ∀ n < names.length, fs.entryAt (place ++ names.take n) = some .directory) :
    fs.follow place names = .ok (place ++ names) := by
  induction names generalizing place with
  | nil => rw [follow, List.append_nil]
  | cons name names ih =>
      obtain ⟨hname, hnames⟩ := not_or.1 (mt List.mem_cons.2 hdots)
      have hplace := h 0 (Nat.succ_pos _)
      rw [List.take_zero, List.append_nil] at hplace
      have hcons : place ++ name :: names = place ++ [name] ++ names := List.append_cons ..
      rw [follow, hplace, hcons]
      dsimp only
      rw [if_neg (Ne.symm hname)]
      refine ih hnames fun n hn => ?_
      rw [List.append_assoc, List.singleton_append, ← List.take_succ_cons]
      exact h (n + 1) (Nat.succ_lt_succ hn)

theorem placeAt_append {directory : Path} {place : List String}
    (h : fs.placeAt directory = .ok place) (names : List String) :
    fs.placeAt (directory.append ⟨0, names⟩) = fs.follow place names := by
  rw [placeAt] at h
  rw [Path.append_relative, placeAt, follow_append, h]
  rfl

theorem isDirectory_iff {p : Path} : fs.isDirectory p = true ↔ fs.find p = .ok .directory := by
  unfold isDirectory
  split <;> simp_all

theorem isFile_iff {p : Path} :
    fs.isFile p = true ↔ ∃ bytes, fs.find p = .ok (.file bytes) := by
  unfold isFile
  split <;> simp_all

/-- Below a directory, the places of files are those that names lead down to. -/
theorem IsTree.isFile_append_iff (h : fs.IsTree) {directory : Path} {place names : List String}
    (hplace : fs.placeAt directory = .ok place) (hdots : ".." ∉ names) :
    fs.isFile (directory.append ⟨0, names⟩) = true ↔
      ∃ bytes, (place ++ names, bytes) ∈ fs.files := by
  rw [isFile_iff]
  simp only [find_eq_ok_iff, placeAt_append hplace]
  constructor
  · rintro ⟨bytes, target, htarget, hentry⟩
    rw [follow_eq_walk htarget, Path.walk_of_not_mem hdots] at hentry
    exact ⟨bytes, mem_files_of_entryAt hentry⟩
  · rintro ⟨bytes, hfile⟩
    have hfollow : fs.follow place names = .ok (place ++ names) := by
      refine follow_of_directories hdots fun n hn => ?_
      have habove := h.above _ hfile (place.length + n) (by rw [List.length_append]; omega)
      rwa [List.take_length_add_append] at habove
    obtain ⟨found, hfound⟩ : ∃ found, fs.files.lookup (place ++ names) = some found := by
      cases hlookup : fs.files.lookup (place ++ names) with
      | none =>
          rw [List.lookup_eq_none_iff] at hlookup
          simpa using hlookup _ hfile
      | some found => exact ⟨found, rfl⟩
    refine ⟨found, _, hfollow, ?_⟩
    have hleaf := h.leaf _ hfile
    rw [entryAt] at hleaf ⊢
    split at hleaf
    · exact absurd rfl hleaf
    · next hfree => rw [if_neg hfree, hfound, Option.map_some]

/-! ## What one argument yields -/

/-- What an argument stands for: a file for itself, and a directory for the files below it whose
suffix is asked for in either case and which names lead down to without a directory that is not
searched. -/
inductive Yields (fs : FileSystem) (suffixes : List String) (argument : Path) : Path → Prop
  | itself : fs.isFile argument = true → Yields fs suffixes argument argument
  | below {names : List String} :
      fs.isDirectory argument = true →
      names ≠ [] →
      ".." ∉ names →
      fs.isFile (argument.append ⟨0, names⟩) = true →
      Text.lowercase (argument.append ⟨0, names⟩).suffix ∈ suffixes.map Text.lowercase →
      (∀ name ∈ names.dropLast, name ∉ ["node_modules", ".git", "dist", ".astro"]) →
      Yields fs suffixes argument (argument.append ⟨0, names⟩)

theorem mem_filesBelow_iff {place names : List String} :
    names ∈ fs.filesBelow place ↔ names ≠ [] ∧ ∃ bytes, (place ++ names, bytes) ∈ fs.files := by
  rw [filesBelow, List.mem_filterMap]
  constructor
  · rintro ⟨⟨target, bytes⟩, hfile, hnames⟩
    dsimp only at hnames
    split_ifs at hnames with hprefix
    rw [Bool.and_eq_true, List.isPrefixOf_iff_prefix, decide_eq_true_eq] at hprefix
    obtain ⟨⟨rest, rfl⟩, hlonger⟩ := hprefix
    cases hnames
    rw [List.drop_left]
    refine ⟨?_, bytes, hfile⟩
    rintro rfl
    simp at hlonger
  · rintro ⟨hne, bytes, hfile⟩
    refine ⟨_, hfile, ?_⟩
    have hpos := List.length_pos_iff.2 hne
    simp only [List.length_append, List.drop_left]
    rw [if_pos]
    rw [Bool.and_eq_true, List.isPrefixOf_iff_prefix, decide_eq_true_eq]
    exact ⟨List.prefix_append _ _, by omega⟩

theorem isWanted_iff {suffixes names : List String} (hne : names ≠ []) (argument : Path) :
    isWanted (lowerSuffixes suffixes) names = true ↔
      Text.lowercase (argument.append ⟨0, names⟩).suffix ∈ suffixes.map Text.lowercase ∧
        ∀ name ∈ names.dropLast, name ∉ skippedDirectories := by
  rw [isWanted, Path.append_relative, Path.suffix_append hne, Bool.and_eq_true,
    List.contains_iff_mem, lowerSuffixes, Bool.not_eq_true', List.any_eq_false]
  simp only [List.contains_iff_mem]

theorem filesAt_of_directory {argument : Path} {place : List String}
    (hplace : fs.placeAt argument = .ok place) (hfind : fs.find argument = .ok .directory)
    (suffixes : List String) :
    fs.filesAt suffixes argument =
      (((fs.filesBelow place).filter (isWanted suffixes)).mergeSort Path.namesLe).map
        fun names => argument.append ⟨0, names⟩ := by
  rw [filesAt, hfind, placeOf?, hplace]
  rfl

/-- What one argument yields. -/
theorem mem_filesAt_iff (h : fs.IsTree) {suffixes : List String} {argument p : Path} :
    p ∈ fs.filesAt (lowerSuffixes suffixes) argument ↔ fs.Yields suffixes argument p := by
  cases hfind : fs.find argument with
  | error error =>
      rw [filesAt, hfind]
      constructor
      · rintro ⟨⟩
      · intro hp
        cases hp with
        | itself hfile => simp [isFile, hfind] at hfile
        | below hdirectory => simp [isDirectory, hfind] at hdirectory
  | ok entry =>
      cases entry with
      | file bytes =>
          rw [filesAt, hfind]
          have hfile : fs.isFile argument = true := isFile_iff.2 ⟨bytes, hfind⟩
          constructor
          · intro hp
            rw [List.mem_singleton.1 hp]
            exact .itself hfile
          · intro hp
            cases hp with
            | itself _ => exact List.mem_singleton_self _
            | below hdirectory => simp [isDirectory, hfind] at hdirectory
      | directory =>
          have hdirectory : fs.isDirectory argument = true := isDirectory_iff.2 hfind
          obtain ⟨place, hplace, -⟩ := find_eq_ok_iff.1 hfind
          rw [filesAt_of_directory hplace hfind, List.mem_map]
          constructor
          · rintro ⟨names, hnames, rfl⟩
            obtain ⟨hbelow, hwanted⟩ :=
              List.mem_filter.1 ((List.mergeSort_perm _ _).mem_iff.1 hnames)
            obtain ⟨hne, bytes, hfile⟩ := mem_filesBelow_iff.1 hbelow
            have hdots : ".." ∉ names := fun hmem =>
              h.not_mem hfile (List.mem_append_right _ hmem)
            obtain ⟨hsuffix, hsearched⟩ := (isWanted_iff hne argument).1 hwanted
            exact .below hdirectory hne hdots ((h.isFile_append_iff hplace hdots).2 ⟨bytes, hfile⟩)
              hsuffix hsearched
          · intro hp
            cases hp with
            | itself hfile => simp [isFile, hfind] at hfile
            | @below names _ hne hdots hfile hsuffix hsearched =>
                refine ⟨names,
                  (List.mergeSort_perm _ _).mem_iff.2 (List.mem_filter.2 ⟨?_, ?_⟩), rfl⟩
                · exact mem_filesBelow_iff.2 ⟨hne, (h.isFile_append_iff hplace hdots).1 hfile⟩
                · exact (isWanted_iff hne argument).2 ⟨hsuffix, hsearched⟩

/-- What one argument yields is sorted, and it is all absolute or all relative. -/
theorem pairwise_filesAt (suffixes : List String) (argument : Path) :
    (fs.filesAt suffixes argument).Pairwise fun p q =>
      p.slashes = q.slashes ∧ Path.namesLe p.names q.names = true := by
  rw [filesAt]
  split
  · exact List.Pairwise.nil
  · exact List.pairwise_singleton _ _
  · refine List.pairwise_map.2 ?_
    simp only [Path.append_relative, Path.namesLe_append, true_and]
    exact @List.pairwise_mergeSort _ Path.namesLe (fun _ _ _ => Path.namesLe_trans)
      Path.namesLe_total _

/-- An argument that leads nowhere does not matter. -/
theorem discover_of_missing {text : String} (h : ∀ entry, fs.find (Path.ofText text) ≠ .ok entry)
    (front back suffixes : List String) :
    fs.discover (front ++ text :: back) suffixes = fs.discover (front ++ back) suffixes := by
  have hnone : fs.filesAt (lowerSuffixes suffixes) (Path.ofText text) = [] := by
    cases hfind : fs.find (Path.ofText text) with
    | error error => rw [filesAt, hfind]
    | ok entry => exact absurd hfind (h entry)
  rw [discover, discover, List.flatMap_append, List.flatMap_append, List.flatMap_cons, hnone,
    List.nil_append]

/-- What is discovered is what the arguments yield, each path once.  It comes in the order of the
first arguments that yield it, and what one argument is the first to yield comes in the order of
names.  Arguments that lead nowhere do not matter. -/
theorem discover_yields (h : fs.IsTree) (paths suffixes : List String) :
    (fs.discover paths suffixes).Nodup ∧
    (∀ p, p ∈ fs.discover paths suffixes ↔
      ∃ text ∈ paths, fs.Yields suffixes (Path.ofText text) p) ∧
    ((fs.discover paths suffixes).Pairwise fun p q => ∃ m n,
      IsFirst (fun text p => fs.Yields suffixes (Path.ofText text) p) paths m p ∧
      IsFirst (fun text p => fs.Yields suffixes (Path.ofText text) p) paths n q ∧
      (m < n ∨ m = n ∧ p.names < q.names)) ∧
    ∀ front text back, (∀ entry, fs.find (Path.ofText text) ≠ .ok entry) →
      fs.discover (front ++ text :: back) suffixes = fs.discover (front ++ back) suffixes := by
  have hnodup := nodup_discover fs paths suffixes
  refine ⟨hnodup, fun p => ?_, ?_, fun front text back hmissing =>
    discover_of_missing hmissing front back suffixes⟩
  · rw [discover, List.mem_eraseDups, List.mem_flatMap]
    exact exists_congr fun text => and_congr_right fun _ => mem_filesAt_iff h
  · have hsorted := @pairwise_eraseDups_flatMap String Path _
      (fun text => fs.filesAt (lowerSuffixes suffixes) (Path.ofText text)) _ paths
      (fun text _ => pairwise_filesAt (lowerSuffixes suffixes) (Path.ofText text)) []
    have hall : Graph.unseen [] (paths.flatMap fun text =>
        fs.filesAt (lowerSuffixes suffixes) (Path.ofText text)) =
          paths.flatMap fun text => fs.filesAt (lowerSuffixes suffixes) (Path.ofText text) :=
      List.filter_eq_self.2 fun _ _ => by simp
    rw [hall, ← discover] at hsorted
    simp only [mem_filesAt_iff h] at hsorted
    refine hsorted.imp₂ ?_ hnodup
    rintro p q ⟨m, n, hm, hn, horder⟩ hne
    refine ⟨m, n, hm, hn, horder.imp_right ?_⟩
    rintro ⟨hsame, hslashes, hle⟩
    refine ⟨hsame, Path.lt_of_namesLe hle fun hnames => hne ?_⟩
    cases p
    cases q
    simp_all

/-- A directory whose own name is not searched, one with such a directory in it, and a note. -/
def shelf : FileSystem where
  here := ["srv"]
  directories := [["srv", "dist"], ["srv", "pages"], ["srv", "pages", "dist"]]
  files :=
    [(["srv", "dist", "a.HTML"], []), (["srv", "pages", "b.html"], []),
      (["srv", "pages", "dist", "c.html"], []), (["srv", "notes.txt"], [])]

theorem discover_yields_shelf :
    shelf.IsTree ∧
      (shelf.discover ["notes.txt", "dist", "pages", "missing", "dist/a.HTML"] [".Html"]).map
        Path.text = ["notes.txt", "dist/a.HTML", "pages/b.html"] ∧
      (∃ text ∈ ["notes.txt", "dist", "pages", "missing", "dist/a.HTML"],
        shelf.Yields [".Html"] (Path.ofText text) (Path.ofText "pages/b.html")) ∧
      (∀ entry, shelf.find (Path.ofText "missing") ≠ .ok entry) ∧
      shelf.discover (["dist"] ++ "missing" :: ["pages"]) [".Html"] =
        shelf.discover (["dist"] ++ ["pages"]) [".Html"] := by
  have htree : shelf.IsTree := by decide +kernel
  have hmissing : ∀ entry, shelf.find (Path.ofText "missing") ≠ .ok entry := by
    have herror : shelf.find (Path.ofText "missing") = .error .missing := by decide +kernel
    intro entry hentry
    rw [herror] at hentry
    cases hentry
  obtain ⟨-, hyields, -, hleft⟩ :=
    discover_yields htree ["notes.txt", "dist", "pages", "missing", "dist/a.HTML"] [".Html"]
  exact ⟨htree, by decide +kernel, (hyields _).1 (by decide +kernel), hmissing,
    hleft ["dist"] "missing" ["pages"] hmissing⟩

end FileSystem

end ContrastAudit
