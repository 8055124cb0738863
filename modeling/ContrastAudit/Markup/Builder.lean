import ContrastAudit.Document.Growth
import ContrastAudit.Markup.Event
import ContrastAudit.Markup.StyleAttribute

/-!
# From events to a document

A builder follows the events of a text and keeps the open elements.  Elements that never show text
are left out of the document but stay among the open ones, so that their end tags find them; what
stands directly inside of them counts for nobody.  An element has text if text or another element of
the document stands directly inside of it.

An element is ignored if it carries the mark of ignored elements, or if a comment says so and
nothing but further comments and white space stands between that comment and its start tag.

**Results.**
* `size_le_size_step`: the document only ever grows at its end.
-/

namespace ContrastAudit.Markup

/-- The attribute that marks an ignored element. -/
def ignoreAttribute : String := "data-contrast-ignore"

/-- The comment that marks the next element as ignored. -/
def ignoreComment : String := "contrast-ignore"

/-- The elements that never show text of their own. -/
def skippedTags : List String :=
  ["script", "style", "head", "meta", "link", "title", "base", "br", "hr", "img", "input", "svg",
   "path", "circle", "rect", "line", "polyline", "polygon", "ellipse"]

/-- The elements that have no end tag. -/
def voidTags : List String :=
  ["area", "base", "br", "col", "embed", "hr", "img", "input", "link", "meta", "source", "track",
   "wbr"]

/-- Whether the value of an attribute is an expression in braces, whose value is unknown. -/
def isExpression (value : String) : Bool :=
  (Text.trimStart value.toList).head? == some '\x7b'

/-- The value of an attribute unless it is missing, empty or an expression. -/
def Attributes.literal? (attributes : Attributes) (name : String) : Option String :=
  (attributes.value? name).filter fun value => value != "" && !isExpression value

/-- What the attributes of an element say about it. -/
def Attributes.features (attributes : Attributes) (tag : String) : Features where
  tag := Text.lowercase tag
  classes :=
    (Text.words ((attributes.literal? "class").getD "").toList).map String.ofList
  id := attributes.literal? "id"
  inline := ((attributes.literal? "style").map InlineStyle.parse).getD {}

/-- The style sheet that a link refers to. -/
def Attributes.styleSheet? (attributes : Attributes) : Option String :=
  let relations := Text.words (Text.lower ((attributes.value? "rel").getD "").toList)
  if relations.contains "stylesheet".toList then attributes.literal? "href" else none

/-- An element whose end has not been met, with its place if it is in the document. -/
structure OpenElement where
  tag : String
  place : Option Nat
  deriving DecidableEq, Repr

/-- The state of a builder.  The innermost open element comes first. -/
structure Builder where
  document : Document := .empty
  opened : List OpenElement := []
  styles : List String := []
  links : List String := []
  ignoreNext : Bool := false

namespace Builder

/-- The place of the innermost open element of the document. -/
def nearest? (b : Builder) : Option Nat :=
  b.opened.findSome? (·.place)

/-- The builder with the nearest element marked as having text. -/
def markNearest (b : Builder) : Builder :=
  match b.nearest? with
  | some place => { b with document := b.document.markText place }
  | none => b

/-- The builder after a new element, which is not open yet. -/
def addElement (b : Builder) (tag : String) (attributes : Attributes) (position : Position) :
    Builder :=
  let marked := b.markNearest
  { marked with
    document := marked.document.attach
      { features := attributes.features tag
        ignored := b.ignoreNext || attributes.has ignoreAttribute
        position := position }
      b.nearest? }

/-- The builder after a start tag. -/
def onStartTag (b : Builder) (tag : String) (attributes : Attributes) (closed : Bool)
    (position : Position) : Builder :=
  let skipped := skippedTags.contains tag
  let added := if skipped then b else b.addElement tag attributes position
  { added with
    links := b.links ++ if tag = "link" then attributes.styleSheet?.toList else []
    opened :=
      if closed || voidTags.contains tag then b.opened
      else ⟨tag, if skipped then none else some b.document.size⟩ :: b.opened
    ignoreNext := false }

/-- The open elements after an end tag: it closes the innermost element of its name and everything
inside of it, or nothing if there is none. -/
def close (tag : String) (opened : List OpenElement) : List OpenElement :=
  match opened.dropWhile (·.tag != tag) with
  | [] => opened
  | _ :: outer => outer

/-- The builder after text. -/
def onText (b : Builder) (text : String) : Builder :=
  match b.opened with
  | [] => if Text.allBlank text.toList then b else { b with ignoreNext := false }
  | element :: _ =>
    if element.tag = "style" then { b with styles := b.styles ++ [text] }
    else if Text.allBlank text.toList then b
    else if element.place.isNone then { b with ignoreNext := false }
    else { b.markNearest with ignoreNext := false }

/-- The builder after one more event. -/
def step (b : Builder) : Event → Builder
  | .startTag tag attributes closed position => b.onStartTag tag attributes closed position
  | .endTag tag => { b with opened := close tag b.opened, ignoreNext := false }
  | .text text => b.onText text
  | .comment text =>
    if Text.strip text = ignoreComment then { b with ignoreNext := true } else b

/-- The builder after all events of a text. -/
def run (events : List Event) : Builder :=
  events.foldl step {}

theorem size_markNearest (b : Builder) : b.markNearest.document.size = b.document.size := by
  unfold markNearest
  split <;> simp

theorem size_le_size_step (b : Builder) (event : Event) :
    b.document.size ≤ (b.step event).document.size := by
  cases event with
  | startTag tag attributes closed position =>
    simp only [step, onStartTag]
    split
    · exact Nat.le_refl _
    · simp [addElement, size_markNearest]
  | endTag tag => exact Nat.le_refl _
  | text text =>
    simp only [step, onText]
    split
    · split <;> exact Nat.le_refl _
    · repeat' split
      all_goals simp [size_markNearest]
  | comment text =>
    simp only [step]
    split <;> exact Nat.le_refl _

end Builder

end ContrastAudit.Markup
