/-!
# Component values

A style value is a sequence of components: words, numbers, strings and the like, functions with
their arguments, and parenthesized blocks.  White space and punctuation are components too, so that
a value is written back exactly as it was read.

**Results.**
* `render_append`: writing distributes over concatenation.
-/

namespace ContrastAudit

/-- The kinds of components without parts. -/
inductive LeafKind
  | space
  | comma
  | slash
  | number
  | hash
  | string
  | word
  | delimiter
  deriving DecidableEq, Repr

/-- One component of a value. -/
inductive Component
  | leaf (kind : LeafKind) (text : String)
  | function (name : String) (children : List Component)
  | block (children : List Component)
  deriving Repr, Inhabited

namespace Component

mutual

/-- A component as it is written. -/
def chars : Component → List Char
  | .leaf _ text => text.toList
  | .function name children => name.toList ++ '(' :: (charsOfAll children ++ [')'])
  | .block children => '(' :: (charsOfAll children ++ [')'])

/-- A sequence of components as it is written. -/
def charsOfAll : List Component → List Char
  | [] => []
  | c :: cs => c.chars ++ charsOfAll cs

end

/-- A sequence of components as a string. -/
def render (components : List Component) : String :=
  String.ofList (charsOfAll components)

/-- The text of a leaf or the name of a function; a block has none. -/
def label : Component → String
  | .leaf _ text => text
  | .function name _ => name
  | .block _ => ""

/-- Whether a component is a leaf of a kind. -/
def isLeaf (kind : LeafKind) : Component → Bool
  | .leaf k _ => k == kind
  | _ => false

/-- Whether a component is white space. -/
def isSpace (c : Component) : Bool :=
  c.isLeaf .space

/-- Whether a component is a comma. -/
def isComma (c : Component) : Bool :=
  c.isLeaf .comma

@[simp] theorem charsOfAll_nil : charsOfAll [] = [] := by
  simp [charsOfAll]

@[simp] theorem charsOfAll_cons (c : Component) (cs : List Component) :
    charsOfAll (c :: cs) = c.chars ++ charsOfAll cs := by
  simp [charsOfAll]

@[simp] theorem charsOfAll_append (cs ds : List Component) :
    charsOfAll (cs ++ ds) = charsOfAll cs ++ charsOfAll ds := by
  induction cs with
  | nil => simp
  | cons c cs ih => simp [ih]

theorem render_append (cs ds : List Component) : render (cs ++ ds) = render cs ++ render ds := by
  simp [render]

end Component

end ContrastAudit
