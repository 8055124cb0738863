import ContrastAudit.Text.Cut

/-!
# Paths

A path is a list of names behind none, one or two slashes.  Empty names and single dots are dropped
when a path is read; double dots are kept until the path is made absolute.

**Results.**
* `not_mem_absolute`: an absolute path has no double dots.
-/

namespace ContrastAudit

/-- A path: the number of slashes at its start, and its names. -/
structure Path where
  slashes : Nat := 0
  names : List String := []
  deriving DecidableEq, Repr

namespace Path

/-- The path that a text writes.  More than two slashes at the start count as one. -/
def ofText (text : String) : Path :=
  let cs := text.toList
  let slashes := (cs.takeWhile (· == '/')).length
  { slashes := if slashes ≤ 2 then slashes else 1
    names := ((Text.pieces '/' cs).map String.ofList).filter fun name => name != "" && name != "." }

/-- The path as text. -/
def text (p : Path) : String :=
  if p.slashes = 0 ∧ p.names.isEmpty then "."
  else String.ofList (List.replicate p.slashes '/') ++ "/".intercalate p.names

/-- A path as it is seen from another one. -/
def append (base p : Path) : Path :=
  if p.slashes = 0 then { base with names := base.names ++ p.names } else p

/-- The path without its last name. -/
def parent (p : Path) : Path :=
  { p with names := p.names.dropLast }

/-- The position of the last dot in a name that stands neither first nor last. -/
def suffixLength (name : List Char) : Nat :=
  let ending := name.reverse.takeWhile (· != '.')
  if ending.isEmpty || name.length ≤ ending.length + 1 then 0 else ending.length + 1

/-- The end of the last name from its last dot on, unless the dot is the first or the last character
of the name. -/
def suffix (p : Path) : String :=
  let name := (p.names.getLast?.getD "").toList
  String.ofList (name.drop (name.length - suffixLength name))

/-- The names with double dots taken away together with the names before them; at the start they
stand for nothing. -/
def collapse (names : List String) : List String :=
  names.foldl (fun seen name => if name = ".." then seen.dropLast else seen ++ [name]) []

/-- The absolute path, as seen from a directory. -/
def absolute (here : List String) (p : Path) : Path :=
  ⟨1, collapse (if p.slashes = 0 then here ++ p.names else p.names)⟩

/-- Whether no name holds the null character, which a file system cannot look up. -/
def isSound (p : Path) : Bool :=
  p.names.all fun name => !name.toList.contains (Char.ofNat 0)

/-- The order of lists of names: name by name. -/
def namesLe : List String → List String → Bool
  | [], _ => true
  | _ :: _, [] => false
  | a :: as, b :: bs => if a = b then namesLe as bs else a < b

/-- The relative path that leads from one absolute path to another. -/
def relative (start target : List String) : Path :=
  let rec shared : List String → List String → Nat
    | a :: as, b :: bs => if a = b then shared as bs + 1 else 0
    | _, _ => 0
  let n := shared start target
  ⟨0, List.replicate (start.length - n) ".." ++ target.drop n⟩

theorem not_mem_collapse (names : List String) : ".." ∉ collapse names := by
  unfold collapse
  have keep : ∀ (names seen : List String), ".." ∉ seen →
      ".." ∉ names.foldl
        (fun seen name => if name = ".." then seen.dropLast else seen ++ [name]) seen := by
    intro names
    induction names with
    | nil => simp
    | cons name names ih =>
      intro seen h
      rw [List.foldl_cons]
      apply ih
      split
      · exact fun hm => h (List.dropLast_subset _ hm)
      · next hne => simp [h, Ne.symm hne]
  exact keep names [] (by simp)

theorem not_mem_absolute (here : List String) (p : Path) : ".." ∉ (p.absolute here).names :=
  not_mem_collapse _

end Path

end ContrastAudit
