import ContrastAudit.Text.Case
import ContrastAudit.Text.Position
import ContrastAudit.Text.Quoted

/-!
# Elements and documents

A document is a list of elements in document order, each with the place of its parent.  What style
rules can see of an element, its features, is kept apart from the rest.  The lineage of an element,
from itself up to its root, is all that matching and inheritance ever look at.

A document is built from drafts, whose places and parents may be any numbers; it is refused unless
every element stands at its own place behind its parent.

**Results.**
* `Document.parent_lt`: in a document a parent stands before its children.
* `Document.lineage_eq_cons`: a lineage starts with its element.
-/

namespace ContrastAudit

/-- The styles of an element's own style attribute. -/
structure InlineStyle where
  color : Option String := none
  background : Option String := none
  fontSize : Option String := none
  fontWeight : Option String := none
  deriving DecidableEq, Repr

/-- Whether no style is set to a text. -/
def InlineStyle.isEmpty (s : InlineStyle) : Bool :=
  [s.color, s.background, s.fontSize, s.fontWeight].all fun v => v.getD "" == ""

/-- What style rules see of an element. -/
structure Features where
  tag : String
  classes : List String := []
  id : Option String := none
  inline : InlineStyle := {}
  deriving DecidableEq, Repr

/-- A short name in selector notation. -/
def Features.label (f : Features) : String :=
  let id := match f.id with
    | none | some "" => ""
    | some id => "#" ++ id
  f.classes.foldl (fun label name => label ++ "." ++ name) (f.tag ++ id)

/-- What an element has besides its place and its parent. -/
structure Content where
  features : Features
  hasText : Bool := false
  ignored : Bool := false
  position : Position := ⟨0, 0⟩
  deriving DecidableEq, Repr

/-- An element of a document. -/
structure Element extends Content where
  index : Nat
  parent : Option Nat
  deriving DecidableEq, Repr

/-- The short name of an element. -/
def Element.label (e : Element) : String :=
  e.features.label

/-- An element before its place and its parent are checked. -/
structure Draft extends Content where
  index : Int
  parent : Option Int
  deriving DecidableEq, Repr

/-- Why drafts make no document. -/
inductive DocumentError
  | misplaced (tag : String) (index : Int) (expected : Nat)
  | badParent (index : Nat) (parent : Int)
  deriving DecidableEq, Repr

/-- The error in words. -/
def DocumentError.message : DocumentError → String
  | .misplaced tag index expected =>
    "Element " ++ Text.quoted tag ++ " has index " ++ toString index ++ ", expected " ++
      toString expected
  | .badParent index parent =>
    "Element " ++ toString index ++ " has invalid parent index " ++ toString parent

/-- Every element stands at its own place behind its parent. -/
def Ordered (elements : Array Element) : Prop :=
  ∀ (i : Nat) (e : Element), elements[i]? = some e →
    e.index = i ∧ ∀ p, e.parent = some p → p < i

/-- Elements in document order. -/
structure Document where
  elements : Array Element
  ordered : Ordered elements

/-- The element that a draft becomes at the next place. -/
def Draft.place (d : Draft) (place : Nat) : Except DocumentError Element :=
  if d.index ≠ place then .error (.misplaced d.features.tag d.index place)
  else
    match d.parent with
    | none => .ok { d.toContent with index := place, parent := none }
    | some p =>
      if 0 ≤ p ∧ p < place then .ok { d.toContent with index := place, parent := some p.toNat }
      else .error (.badParent place p)

theorem Draft.place_ok {d : Draft} {place : Nat} {e : Element} (h : d.place place = .ok e) :
    e.index = place ∧ ∀ p, e.parent = some p → p < place := by
  unfold Draft.place at h
  split at h
  · contradiction
  · split at h
    · cases h; simp
    · split at h
      · next hp =>
        cases h
        refine ⟨rfl, fun p hp' => ?_⟩
        simp at hp'
        omega
      · contradiction

namespace Document

/-- The document without elements. -/
def empty : Document :=
  ⟨#[], by intro i e h; simp at h⟩

/-- A document with one more draft at its end. -/
def add (doc : Document) (d : Draft) : Except DocumentError Document :=
  match h : d.place doc.elements.size with
  | .error e => .error e
  | .ok e => .ok ⟨doc.elements.push e, by
      intro i x hx
      rw [Array.getElem?_push] at hx
      split at hx
      · next hi => cases hx; rw [hi]; exact Draft.place_ok h
      · exact doc.ordered i x hx⟩

/-- The document of some drafts. -/
def ofDrafts (drafts : List Draft) : Except DocumentError Document :=
  drafts.foldlM add empty

/-- The number of elements. -/
def size (doc : Document) : Nat :=
  doc.elements.size

/-- The elements in document order. -/
def toList (doc : Document) : List Element :=
  doc.elements.toList

/-- The element at a place. -/
def get? (doc : Document) (i : Nat) : Option Element :=
  doc.elements[i]?

theorem parent_lt {doc : Document} {i p : Nat} {e : Element} (h : doc.get? i = some e)
    (hp : e.parent = some p) : p < i :=
  (doc.ordered i e h).2 p hp

/-- The parent of an element. -/
def parent? (doc : Document) (e : Element) : Option Element :=
  e.parent.bind doc.get?

/-- The elements from the one at a place up to its root. -/
def lineageAt (doc : Document) (i : Nat) : List Element :=
  match h : doc.get? i with
  | none => []
  | some e =>
    match hp : e.parent with
    | none => [e]
    | some p =>
      have := parent_lt h hp
      e :: lineageAt doc p
termination_by i

/-- The ancestors of an element, nearest first. -/
def ancestors (doc : Document) (e : Element) : List Element :=
  match e.parent with
  | none => []
  | some p => doc.lineageAt p

/-- An element and its ancestors, nearest first. -/
def lineage (doc : Document) (e : Element) : List Element :=
  e :: doc.ancestors e

/-- The children of an element in document order. -/
def children (doc : Document) (e : Element) : List Element :=
  doc.toList.filter fun c => c.parent == some e.index

theorem lineage_eq_cons (doc : Document) (e : Element) :
    doc.lineage e = e :: doc.ancestors e := rfl

theorem lineageAt_of_get? {doc : Document} {i : Nat} {e : Element} (h : doc.get? i = some e) :
    doc.lineageAt i = doc.lineage e := by
  rw [lineageAt]
  split
  · simp_all
  · next e' h' =>
    rw [h] at h'
    cases h'
    split <;> simp_all [lineage, ancestors]

end Document

end ContrastAudit
