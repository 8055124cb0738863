import ContrastAudit.Markup.Builder

/-!
# What an event does to a builder

Each part of a builder changes in its own way, and most events leave most parts alone.  Text goes to
the style sheet if it stands directly in a style element; other text that is not blank counts for
the element that directly contains it, if that is in the document, and stops a comment from marking
the next element.

**Results.**
* `onStartTag_eq`, `onText_eq`: what start tags and texts do to each part.
-/

namespace ContrastAudit.Markup.Builder

/-- Whether text stands directly in a style element. -/
def inStyle (b : Builder) : Bool :=
  b.opened.head?.any (·.tag == "style")

/-- Whether text counts for the element that directly contains it. -/
def credits (b : Builder) (text : String) : Bool :=
  !b.inStyle && !Text.allBlank text.toList && b.opened.head?.any (·.place.isSome)

/-- What an element that starts now has besides its place and its parent. -/
def contentOf (b : Builder) (tag : String) (attributes : Attributes) (position : Position) :
    Content where
  features := attributes.features tag
  ignored := b.ignoreNext || attributes.has ignoreAttribute
  position := position

theorem markNearest_eq (b : Builder) :
    b.markNearest =
      { b with document := b.nearest?.elim b.document b.document.markText } := by
  unfold markNearest
  cases b.nearest? <;> rfl

theorem onStartTag_eq (b : Builder) (tag : String) (attributes : Attributes) (closed : Bool)
    (position : Position) :
    b.onStartTag tag attributes closed position =
      { b with
        document :=
          if skippedTags.contains tag then b.document
          else b.markNearest.document.attach (b.contentOf tag attributes position) b.nearest?
        links := b.links ++ if tag = "link" then attributes.styleSheet?.toList else []
        opened :=
          if closed || voidTags.contains tag then b.opened
          else
            ⟨tag, if skippedTags.contains tag then none else some b.document.size⟩ :: b.opened
        ignoreNext := false } := by
  unfold onStartTag
  by_cases hskipped : skippedTags.contains tag = true
  · simp only [hskipped, if_true]
  · simp only [hskipped, addElement, markNearest_eq, contentOf]
    rfl

theorem onText_eq (b : Builder) (text : String) :
    b.onText text =
      { b with
        document := if b.credits text then b.markNearest.document else b.document
        styles := b.styles ++ if b.inStyle then [text] else []
        ignoreNext := b.ignoreNext && (b.inStyle || Text.allBlank text.toList) } := by
  obtain ⟨document, opened, styles, links, ignoreNext⟩ := b
  cases opened with
  | nil => cases hblank : Text.allBlank text.toList <;> simp [onText, credits, inStyle, hblank]
  | cons element outer =>
      by_cases hstyle : element.tag = "style"
      · simp [onText, credits, inStyle, hstyle]
      · cases hblank : Text.allBlank text.toList with
        | true => simp [onText, credits, inStyle, hstyle, hblank]
        | false =>
            cases hplace : element.place <;>
              simp [onText, credits, inStyle, hstyle, hblank, hplace, markNearest_eq]

end ContrastAudit.Markup.Builder
