import ContrastAudit.File.System
import ContrastAudit.Proofs.Number.Fault
import ContrastAudit.Proofs.Text.Pieces

/-!
# Places and absolute paths

The names of a path lead from one place to another, double dots back to where the last name came
from.  An absolute path is where its names lead to, and a file system finds what it finds there.

**Results.**
* `exists_walk_eq`: a walk goes back some way and then on along names of its own.
* `names_absolute_of_placeAt`: a path is followed to the place that its absolute path names.
* `ofText_text`: an absolute path of proper names is read from its text.
-/

namespace ContrastAudit

namespace Path

/-! ## Walks -/

/-- The place that some names lead to. -/
def walk (seen names : List String) : List String :=
  names.foldl (fun seen name => if name = ".." then seen.dropLast else seen ++ [name]) seen

section Walk

variable {seen names : List String}

theorem walk_cons (seen : List String) (name : String) (names : List String) :
    walk seen (name :: names) =
      walk (if name = ".." then seen.dropLast else seen ++ [name]) names :=
  List.foldl_cons ..

theorem walk_append (seen names names' : List String) :
    walk seen (names ++ names') = walk (walk seen names) names' :=
  List.foldl_append

theorem walk_of_not_mem (h : ".." ∉ names) : walk seen names = seen ++ names := by
  induction names generalizing seen with
  | nil => exact (List.append_nil seen).symm
  | cons name names ih =>
      obtain ⟨hname, hnames⟩ := not_or.1 (mt List.mem_cons.2 h)
      rw [walk_cons, if_neg (Ne.symm hname), ih hnames, List.append_assoc, List.singleton_append]

/-- A walk goes back some way and then on, along names of its own. -/
theorem exists_walk_eq (seen names : List String) :
    ∃ (k : Nat) (rest : List String), walk seen names = seen.take k ++ rest ∧ rest ⊆ names := by
  induction names generalizing seen with
  | nil =>
      refine ⟨seen.length, [], ?_, List.Subset.refl _⟩
      rw [List.take_length, List.append_nil]
      rfl
  | cons name names ih =>
      rw [walk_cons]
      by_cases hname : name = ".."
      · rw [if_pos hname]
        obtain ⟨k, rest, hwalk, hrest⟩ := ih seen.dropLast
        refine ⟨min k (seen.length - 1), rest, ?_, List.subset_cons_of_subset _ hrest⟩
        rw [hwalk, List.dropLast_eq_take, List.take_take]
      · rw [if_neg hname]
        obtain ⟨k, rest, hwalk, hrest⟩ := ih (seen ++ [name])
        rcases Nat.lt_or_ge seen.length k with hlong | hshort
        · refine ⟨seen.length, name :: rest, ?_, List.cons_subset_cons _ hrest⟩
          rw [hwalk, List.take_of_length_le (by simp; omega), List.take_length, List.append_assoc,
            List.singleton_append]
        · refine ⟨k, rest, ?_, List.subset_cons_of_subset _ hrest⟩
          rw [hwalk, List.take_append_of_le_length hshort]

/-- An absolute path is where its names lead to, from the root or from the current directory. -/
theorem names_absolute (here : List String) (p : Path) :
    (p.absolute here).names = walk [] (if p.slashes = 0 then here ++ p.names else p.names) :=
  rfl

end Walk

/-! ## Proper names -/

/-- A name of a file or directory. -/
structure IsName (name : String) : Prop where
  ne_empty : name ≠ ""
  ne_dot : name ≠ "."
  ne_dots : name ≠ ".."
  no_slash : '/' ∉ name.toList

instance decidableIsName (name : String) : Decidable (IsName name) :=
  decidable_of_iff (name ≠ "" ∧ name ≠ "." ∧ name ≠ ".." ∧ '/' ∉ name.toList)
    ⟨fun h => ⟨h.1, h.2.1, h.2.2.1, h.2.2.2⟩,
      fun h => ⟨h.ne_empty, h.ne_dot, h.ne_dots, h.no_slash⟩⟩

section Names

variable {source : String} {names : List String}

/-- The names of a path are pieces of its text. -/
theorem mem_pieces_of_mem_names {name : String} (h : name ∈ (ofText source).names) :
    name.toList ∈ Text.pieces '/' source.toList := by
  obtain ⟨piece, hpiece, rfl⟩ := List.mem_map.1 (List.mem_of_mem_filter h)
  rwa [String.toList_ofList]

theorem toList_intercalate_slash (names : List String) :
    ("/".intercalate names).toList = Text.join '/' (names.map String.toList) := by
  rw [String.toList_intercalate]
  generalize names.map String.toList = texts
  induction texts with
  | nil => rfl
  | cons text texts ih =>
      cases texts with
      | nil => exact List.intercalate_singleton
      | cons next rest =>
          rw [List.intercalate_cons_cons, ih, List.append_assoc]
          rfl

theorem toList_text (names : List String) :
    (text ⟨1, names⟩).toList = '/' :: Text.join '/' (names.map String.toList) := by
  rw [text, if_neg (fun hrelative => absurd hrelative.1 Nat.one_ne_zero), String.toList_append,
    toList_intercalate_slash, String.toList_ofList]
  rfl

/-- No name starts with a slash, so that only the slash in front of the first one counts. -/
theorem length_takeWhile_slash (h : ∀ name ∈ names, IsName name) :
    (('/' :: Text.join '/' (names.map String.toList)).takeWhile (· == '/')).length = 1 := by
  cases names with
  | nil => rfl
  | cons name rest =>
      have hname := h name List.mem_cons_self
      obtain ⟨c, cs, hcs⟩ :=
        List.exists_cons_of_ne_nil (mt String.toList_eq_nil_iff.1 hname.ne_empty)
      have hc : c ≠ '/' := by
        rintro rfl
        exact hname.no_slash (hcs ▸ List.mem_cons_self)
      have hjoin : ∃ ds, Text.join '/' ((name :: rest).map String.toList) = c :: ds := by
        rw [List.map_cons, hcs]
        cases rest with
        | nil => exact ⟨cs, rfl⟩
        | cons next rest => exact ⟨_, rfl⟩
      obtain ⟨ds, hds⟩ := hjoin
      rw [hds]
      simp [hc]

/-- Names between slashes are read as they are. -/
theorem names_of_join (h : ∀ name ∈ names, IsName name) :
    ((Text.pieces '/' ('/' :: Text.join '/' (names.map String.toList))).map
      String.ofList).filter (fun name => name != "" && name != ".") = names := by
  rw [Text.pieces_cons_self]
  cases names with
  | nil => rfl
  | cons name rest =>
      have hfree : ∀ cs ∈ (name :: rest).map String.toList, '/' ∉ cs := by
        intro cs hcs
        obtain ⟨other, hother, rfl⟩ := List.mem_map.1 hcs
        exact (h other hother).no_slash
      have hback : ((name :: rest).map String.toList).map String.ofList = name :: rest := by
        rw [List.map_map]
        exact List.map_id'' (fun other => String.ofList_toList) _
      rw [Text.pieces_join hfree (List.cons_ne_nil _ _), List.map_cons, hback,
        List.filter_cons_of_neg (by decide), List.filter_eq_self]
      intro other hother
      simp [(h other hother).ne_empty, (h other hother).ne_dot]

/-- An absolute path of proper names is read from its text. -/
theorem ofText_text (h : ∀ name ∈ names, IsName name) :
    ofText (text ⟨1, names⟩) = ⟨1, names⟩ := by
  rw [ofText, toList_text, length_takeWhile_slash h, names_of_join h]
  rfl

end Names

end Path

/-! ## File systems -/

namespace FileSystem

variable {fs : FileSystem}

/-- The names of files and of the current directory are names. -/
structure IsProper (fs : FileSystem) : Prop where
  here : ∀ name ∈ fs.here, Path.IsName name
  files : ∀ file ∈ fs.files, ∀ name ∈ file.1, Path.IsName name

instance decidableIsProper (fs : FileSystem) : Decidable fs.IsProper :=
  decidable_of_iff ((∀ name ∈ fs.here, Path.IsName name) ∧
      ∀ file ∈ fs.files, ∀ name ∈ file.1, Path.IsName name)
    ⟨fun h => ⟨h.1, h.2⟩, fun h => ⟨h.here, h.files⟩⟩

theorem follow_eq_walk {place names target : List String} (h : fs.follow place names = .ok target) :
    target = Path.walk place names := by
  induction names generalizing place with
  | nil => exact (Except.ok.inj h).symm
  | cons name names ih =>
      rw [follow] at h
      split at h
      · cases h
      · cases h
      · rw [Path.walk_cons]
        exact ih h

theorem mem_files_of_entryAt {place : List String} {bytes : List UInt8}
    (h : fs.entryAt place = some (.file bytes)) : (place, bytes) ∈ fs.files := by
  unfold entryAt at h
  split at h
  · cases h
  · rw [Option.map_eq_some_iff] at h
    obtain ⟨found, hl, hf⟩ := h
    cases hf
    obtain ⟨before, after, hs, -⟩ := List.lookup_eq_some_iff.1 hl
    simp [hs]

theorem find_eq_ok_iff {p : Path} {entry : Entry} :
    fs.find p = .ok entry ↔ ∃ place, fs.placeAt p = .ok place ∧ fs.entryAt place = some entry := by
  rw [find, bind_eq_ok_iff]
  refine exists_congr fun place => and_congr_right fun _ => ?_
  split <;> simp_all

/-- A path is followed to the place that its absolute path names. -/
theorem names_absolute_of_placeAt (hhere : ".." ∉ fs.here) {p : Path} {place : List String}
    (h : fs.placeAt p = .ok place) : (fs.absolute p).names = place := by
  have hstart : Path.walk [] fs.here = fs.here := Path.walk_of_not_mem hhere
  rw [follow_eq_walk h, absolute, Path.names_absolute]
  split
  · rw [Path.walk_append, hstart]
  · rfl

end FileSystem

end ContrastAudit
