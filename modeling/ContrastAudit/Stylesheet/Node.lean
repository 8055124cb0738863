import ContrastAudit.Stylesheet.Scan

/-!
# Nested blocks

The items of a style sheet with the bodies of its blocks scanned in turn.

**Results.**
* `parse_eq_map`: the nodes of a text are its items with the nodes of their bodies.
-/

namespace ContrastAudit.Stylesheet

/-- An item with what is nested in it. -/
inductive Node
  | comment (text : List Char)
  | statement (text : List Char)
  | block (prelude : List Char) (body : List Node)
  deriving Repr

namespace Node

/-- The node of an item, given how bodies are read. -/
def ofItem (read : List Char → List Node) : Item → Node
  | .comment text => .comment text
  | .statement text => .statement text
  | .block prelude body => .block prelude (read body)

/-- The nodes of a text. -/
def parse (cs : List Char) : List Node :=
  (scan cs).attach.map fun ⟨item, h⟩ =>
    match item, h with
    | .comment text, _ => .comment text
    | .statement text, _ => .statement text
    | .block prelude body, h =>
      have := length_body_lt h
      .block prelude (parse body)
termination_by cs.length

theorem parse_eq_map (cs : List Char) : parse cs = (scan cs).map (ofItem parse) := by
  rw [parse]
  conv => rhs; rw [← List.attach_map_subtype_val (scan cs), List.map_map]
  apply List.map_congr_left
  intro ⟨item, h⟩ _
  cases item <;> rfl

end Node

end ContrastAudit.Stylesheet
