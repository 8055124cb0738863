/-!
# Positions

Lines and columns of a text, both counted from one.

**Results.**
* `Position.after_append`: the position after a text and another one is reached in two steps.
-/

namespace ContrastAudit

/-- A place in a text. -/
structure Position where
  line : Nat
  column : Nat
  deriving DecidableEq, Repr

namespace Position

/-- Where a text starts. -/
def start : Position := ⟨1, 1⟩

/-- The position after one more character. -/
def next (p : Position) (c : Char) : Position :=
  if c = '\n' then ⟨p.line + 1, 1⟩ else ⟨p.line, p.column + 1⟩

/-- The position after a text that starts at `p`. -/
def after (p : Position) (cs : List Char) : Position :=
  cs.foldl next p

/-- The position as `line:column`. -/
def text (p : Position) : String :=
  toString p.line ++ ":" ++ toString p.column

theorem after_append (p : Position) (cs ds : List Char) :
    p.after (cs ++ ds) = (p.after cs).after ds := by
  simp [after, List.foldl_append]

end Position

end ContrastAudit
