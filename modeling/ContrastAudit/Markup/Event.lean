import ContrastAudit.Text.Position

/-!
# Events of a document

What is met on the way through a marked-up text: start tags, end tags, text and comments.

**Results.**
* `value?_append_singleton`: of several values for one attribute the last one counts.
-/

namespace ContrastAudit.Markup

/-- The attributes of a start tag in order; an attribute may lack a value. -/
abbrev Attributes := List (String × Option String)

namespace Attributes

/-- Whether there is an attribute of a name. -/
def has (attributes : Attributes) (name : String) : Bool :=
  attributes.any (·.1 == name)

/-- The value of an attribute. -/
def value? (attributes : Attributes) (name : String) : Option String :=
  ((attributes.reverse.find? (·.1 == name)).map (·.2)).join

theorem value?_append_singleton (attributes : Attributes) (name key : String)
    (value : Option String) :
    Attributes.value? (attributes ++ [(key, value)]) name =
      if key = name then value else attributes.value? name := by
  by_cases h : key = name <;> simp [value?, h]

end Attributes

/-- A step through a marked-up text.  A closed start tag is its own end tag. -/
inductive Event
  | startTag (tag : String) (attributes : Attributes) (closed : Bool) (position : Position)
  | endTag (tag : String)
  | text (text : String)
  | comment (text : String)
  deriving DecidableEq, Repr

/-- Why a text cannot be read. -/
inductive MarkupError
  | unclosedFrontmatter (line : Nat)
  | unknownSection
  | unnamedSection
  | longReference
  deriving DecidableEq, Repr

namespace MarkupError

/-- The error in words. -/
def message : MarkupError → String
  | .unclosedFrontmatter _ => "Unterminated frontmatter block"
  | .unknownSection => "Marked section of an unknown kind"
  | .unnamedSection => "Marked section without a name"
  | .longReference => "Character reference with too many digits"

/-- Whether an error is that of a frontmatter without an end, the only one that its author can mend
by the position it has. -/
def isUnclosed : MarkupError → Bool
  | .unclosedFrontmatter _ => true
  | _ => false

end MarkupError

end ContrastAudit.Markup
