import ContrastAudit.Document.Element

/-!
# Outlines

An outline is a document in the making: drafts that are added one by one and may be marked as having
text until the document is built.  Places are counted from zero, negative ones from the end.
-/

namespace ContrastAudit

/-- The place that a number stands for among `size` places. -/
def placeOf? (size : Nat) (i : Int) : Option Nat :=
  let place := if i < 0 then i + size else i
  if 0 ≤ place ∧ place < size then some place.toNat else none

/-- The element at a place, which is counted from the end if it is negative. -/
def Document.at? (doc : Document) (i : Int) : Option Element :=
  (placeOf? doc.size i).bind doc.get?

/-- Drafts in document order. -/
abbrev Outline := Array Draft

namespace Outline

/-- The outline with one more element at its end; tags are in lower case. -/
def add (outline : Outline) (content : Content) (parent : Option Int) : Outline :=
  outline.push
    { content with
      features := { content.features with tag := Text.lowercase content.features.tag }
      index := outline.size
      parent := parent }

/-- The outline with the element at a place marked as having text, if there is such a place. -/
def markText? (outline : Outline) (i : Int) : Option Outline :=
  (placeOf? outline.size i).map fun place =>
    outline.modify place fun d => { d with hasText := true }

/-- The document that an outline describes. -/
def build (outline : Outline) : Except DocumentError Document :=
  Document.ofDrafts outline.toList

end Outline

end ContrastAudit
