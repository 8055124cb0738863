import ContrastAudit.Json.Basic

/-!
# The source of a document

What is left of a text, with the line and the column where it starts, both counted from zero.
Between tokens there are spaces, line breaks and comments; tabs do not count as space.

**Results.**
* `rest_advance`: advancing takes as many characters away.
-/

namespace ContrastAudit.Yaml

/-- Whether a character ends a line. -/
def isBreak (c : Char) : Bool :=
  c == '\n' || c == '\u0085' || c == '\u2028' || c == '\u2029'

/-- Whether a character separates: a space, a tab or a line break. -/
def isSeparator (c : Char) : Bool :=
  c == ' ' || c == '\t' || isBreak c

/-- A rest of a text and its place. -/
structure Source where
  rest : List Char
  line : Nat := 0
  column : Nat := 0
  deriving DecidableEq, Repr

/-- Why a text is no document: the place where it cannot go on. -/
structure ReadError where
  line : Nat
  column : Nat
  deriving DecidableEq, Repr

/-- The error in words. -/
def ReadError.message (e : ReadError) : String :=
  "no document can go on at line " ++ toString (e.line + 1) ++ ", column " ++
    toString (e.column + 1)

namespace Source

/-- Refuses a text at its current place. -/
def refuse (s : Source) : Except ReadError α :=
  .error ⟨s.line, s.column⟩

/-- The source behind one character. -/
def next (s : Source) : Source :=
  match s.rest with
  | [] => s
  | c :: cs => if isBreak c then ⟨cs, s.line + 1, 0⟩ else ⟨cs, s.line, s.column + 1⟩

/-- The source behind some characters. -/
def advance (s : Source) : Nat → Source
  | 0 => s
  | n + 1 => s.next.advance n

theorem rest_next (s : Source) : s.next.rest = s.rest.drop 1 := by
  unfold next
  split
  · simp_all
  · split <;> simp_all

theorem rest_advance (s : Source) (n : Nat) : (s.advance n).rest = s.rest.drop n := by
  induction n generalizing s with
  | zero => rfl
  | succ n ih => rw [advance, ih, rest_next, List.drop_drop, Nat.add_comm]

/-- The source behind spaces, line breaks and comments, from a text at a place on. -/
def skipFrom (comment : Bool) (line column : Nat) : List Char → Source
  | [] => ⟨[], line, column⟩
  | c :: cs =>
    if isBreak c then skipFrom false (line + 1) 0 cs
    else if comment || c = ' ' then skipFrom comment line (column + 1) cs
    else if c = '#' then skipFrom true line (column + 1) cs
    else ⟨c :: cs, line, column⟩

/-- The source behind spaces, line breaks and comments. -/
def skip (s : Source) : Source :=
  skipFrom false s.line s.column s.rest

/-- Whether nothing or a separator stands at the start of a text. -/
def isSeparated (cs : List Char) : Bool :=
  cs.head?.all isSeparator

/-- Whether a character and then a separator stand here. -/
def isIndicator (s : Source) (c : Char) : Bool :=
  s.rest.head? == some c && isSeparated (s.rest.drop 1)

/-- Whether a text starts with the sign that starts or ends a document. -/
def startsMarker (sign : Char) (cs : List Char) : Bool :=
  cs.take 3 == [sign, sign, sign] && isSeparated (cs.drop 3)

/-- Whether a document starts or ends here. -/
def isMarker (s : Source) : Bool :=
  s.column == 0 && (startsMarker '-' s.rest || startsMarker '.' s.rest)

/-- Whether there is nothing more of a document here. -/
def isEnd (s : Source) : Bool :=
  s.rest.isEmpty || s.isMarker

end Source

end ContrastAudit.Yaml
