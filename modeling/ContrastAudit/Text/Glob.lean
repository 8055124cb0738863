import ContrastAudit.Text.Cut

/-!
# Wildcard patterns

A pattern describes whole texts: `*` stands for any run of characters, `?` for one character,
`[abc]` and `[a-z]` for one character of a set, `[!abc]` for one character outside of it, and every
other character for itself.  A bracket that is never closed stands for itself, a `]` that comes
first in a set belongs to the set, a set without members matches nothing and its complement
everything.

**Results.**
* `fits_literals`: pieces that are all literal describe one text.
-/

namespace ContrastAudit.Text.Glob

/-- One element of a pattern. -/
inductive Piece
  | any
  | one
  | literal (c : Char)
  | set (negated : Bool) (ranges : List (Char × Char))
  | nothing
  deriving DecidableEq, Repr

/-- The suffixes of a text, longest first. -/
def suffixes : List Char → List (List Char)
  | [] => [[]]
  | c :: cs => (c :: cs) :: suffixes cs

/-- Whether a piece that stands for one character stands for `c`. -/
def Piece.admits (c : Char) : Piece → Bool
  | .any | .nothing => false
  | .one => true
  | .literal d => c == d
  | .set negated ranges => (ranges.any fun r => r.1 ≤ c && c ≤ r.2) != negated

/-- The rest of a text behind the character that a piece stands for. -/
def Piece.behind? (p : Piece) : List Char → Option (List Char)
  | [] => none
  | c :: cs => if p.admits c then some cs else none

/-- What may be left of a text after one more piece, given what may be left before it, longest
first. -/
def step (rests : List (List Char)) : Piece → List (List Char)
  | .any =>
    match rests with
    | [] => []
    | longest :: _ => suffixes longest
  | p => rests.filterMap p.behind?

/-- Whether a text is described by the pieces. -/
def fits (ps : List Piece) (cs : List Char) : Bool :=
  (ps.foldl step [cs]).any List.isEmpty

/-- Cuts the inside of a set at the hyphens that form ranges.  A hyphen forms one only if a
character stands on each side of it that belongs to no earlier range. -/
def chunksFrom (chunk : List Char) (skip : Nat) : List Char → List (List Char)
  | [] => [chunk.reverse]
  | c :: cs =>
    match skip with
    | skip + 1 => chunksFrom (c :: chunk) skip cs
    | 0 => if c = '-' then chunk.reverse :: chunksFrom [] 2 cs else chunksFrom (c :: chunk) 0 cs

/-- A hyphen that ends the set belongs to the chunk on its left. -/
def closeChunks : List (List Char) → List (List Char)
  | [] => []
  | [chunk] => [chunk]
  | [chunk, []] => [chunk ++ ['-']]
  | chunk :: rest => chunk :: closeChunks rest

/-- Joins neighbouring chunks whose range would be empty, dropping its two ends; works from the
right. -/
def dropEmptyRanges : List (List Char) → List (List Char)
  | [] => []
  | chunk :: rest =>
    match dropEmptyRanges rest with
    | [] => [chunk]
    | next :: more =>
      match chunk.getLast?, next with
      | some a, b :: tail =>
        if a > b then (chunk.dropLast ++ tail) :: more else chunk :: next :: more
      | _, _ => chunk :: next :: more

/-- The ranges of a set from its chunks: neighbouring chunks meet in a range, every other
character stands for itself. -/
def rangesOf : List (List Char) → List (Char × Char)
  | [] => []
  | [chunk] => chunk.map fun c => (c, c)
  | chunk :: next :: rest =>
    let own := chunk.map fun c => (c, c)
    match chunk.getLast?, next.head? with
    | some a, some b => own ++ (a, b) :: rangesOf (next :: rest)
    | _, _ => own ++ rangesOf (next :: rest)

/-- The piece for the inside of a pair of brackets. -/
def setPiece (inside : List Char) : Piece :=
  let lead := if inside.head? = some '!' then 2 else 1
  let chunks := dropEmptyRanges (closeChunks (chunksFrom [] lead inside))
  match chunks with
  | [[]] => .nothing
  | [['!']] => .one
  | ['!'] :: rest => .set true (('-', '-') :: rangesOf rest)
  | ('!' :: chunk) :: rest => .set true (rangesOf (chunk :: rest))
  | chunks => .set false (rangesOf chunks)

/-- The inside of a set and the pattern after it, given the pattern after the opening bracket. -/
def splitSet (cs : List Char) : Option (List Char × List Char) :=
  match cs with
  | '!' :: ']' :: cs => (cut ']' cs).map fun (inside, rest) => ('!' :: ']' :: inside, rest)
  | '!' :: cs => (cut ']' cs).map fun (inside, rest) => ('!' :: inside, rest)
  | ']' :: cs => (cut ']' cs).map fun (inside, rest) => (']' :: inside, rest)
  | cs => cut ']' cs

theorem length_lt_of_cut {sep : Char} {cs before after : List Char}
    (h : cut sep cs = some (before, after)) : after.length < cs.length := by
  have := (append_of_cut h).1
  subst this
  simp
  omega

theorem length_lt_of_splitSet {cs inside rest : List Char}
    (h : splitSet cs = some (inside, rest)) : rest.length < cs.length := by
  unfold splitSet at h
  split at h
  · simp only [Option.map_eq_some_iff, Prod.exists, Prod.mk.injEq] at h
    obtain ⟨_, _, h, _, rfl⟩ := h
    have := length_lt_of_cut h
    simp; omega
  · simp only [Option.map_eq_some_iff, Prod.exists, Prod.mk.injEq] at h
    obtain ⟨_, _, h, _, rfl⟩ := h
    have := length_lt_of_cut h
    simp; omega
  · simp only [Option.map_eq_some_iff, Prod.exists, Prod.mk.injEq] at h
    obtain ⟨_, _, h, _, rfl⟩ := h
    have := length_lt_of_cut h
    simp; omega
  · exact length_lt_of_cut h

/-- The pieces of a pattern. -/
def compile : List Char → List Piece
  | [] => []
  | '*' :: cs => .any :: compile cs
  | '?' :: cs => .one :: compile cs
  | '[' :: cs =>
    match h : splitSet cs with
    | some (inside, rest) =>
      have := length_lt_of_splitSet h
      setPiece inside :: compile rest
    | none => .literal '[' :: compile cs
  | c :: cs => .literal c :: compile cs
termination_by cs => cs.length

/-- Whether a pattern describes a string, upper and lower case apart. -/
def describes (pattern text : String) : Bool :=
  fits (compile pattern.toList) text.toList

theorem foldl_step_nil (ps : List Piece) : ps.foldl step [] = [] := by
  induction ps with
  | nil => rfl
  | cons p ps ih => cases p <;> simpa [step] using ih

theorem fits_literals (cs : List Char) (text : List Char) :
    fits (cs.map .literal) text = (text == cs) := by
  induction cs generalizing text with
  | nil => cases text <;> rfl
  | cons c cs ih =>
    cases text with
    | nil =>
      show (List.foldl step [] (cs.map .literal)).any List.isEmpty = _
      rw [foldl_step_nil]
      rfl
    | cons d ds =>
      by_cases h : d = c
      · simpa [fits, step, Piece.behind?, Piece.admits, h] using ih ds
      · have : step [d :: ds] (.literal c) = [] := by simp [step, Piece.behind?, Piece.admits, h]
        simp [fits, this, foldl_step_nil, h]

end ContrastAudit.Text.Glob
