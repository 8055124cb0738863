import ContrastAudit.Document.Element

/-!
# Growing documents

A document grows by one element at its end, below an element that is already there or as a root.
Nothing can go wrong: what is below no element is a root.

**Results.**
* `get?_attach`: what a grown document holds.
* `get?_markText`: marking text changes the mark of one element only.
-/

namespace ContrastAudit.Document

/-- The document with one more element, below the one at `parent` if there is one. -/
def attach (doc : Document) (content : Content) (parent : Option Nat) : Document where
  elements := doc.elements.push
    { content with index := doc.size, parent := parent.filter fun p => decide (p < doc.size) }
  ordered := by
    intro i e h
    rw [Array.getElem?_push] at h
    split at h
    · next hi =>
      cases h
      refine ⟨hi.symm, fun p hp => ?_⟩
      obtain ⟨_, hp⟩ := Option.filter_eq_some_iff.1 hp
      have := of_decide_eq_true hp
      simp only [size] at this
      omega
    · exact doc.ordered i e h

/-- The document with the element at a place marked as having text. -/
def markText (doc : Document) (i : Nat) : Document where
  elements := doc.elements.modify i fun e => { e with hasText := true }
  ordered := by
    intro j e h
    rw [Array.getElem?_modify] at h
    split at h
    · obtain ⟨e', he', rfl⟩ := Option.map_eq_some_iff.1 h
      exact doc.ordered j e' he'
    · exact doc.ordered j e h

@[simp] theorem size_attach (doc : Document) (content : Content) (parent : Option Nat) :
    (doc.attach content parent).size = doc.size + 1 := by
  simp [attach, size]

@[simp] theorem size_markText (doc : Document) (i : Nat) : (doc.markText i).size = doc.size := by
  simp [markText, size]

theorem get?_attach (doc : Document) (content : Content) (parent : Option Nat) (i : Nat) :
    (doc.attach content parent).get? i =
      if i = doc.size then
        some { content with
          index := doc.size, parent := parent.filter fun p => decide (p < doc.size) }
      else doc.get? i := by
  simp only [attach, get?, size, Array.getElem?_push]
  rfl

theorem get?_markText (doc : Document) (i j : Nat) :
    (doc.markText i).get? j =
      if i = j then (doc.get? j).map fun e => { e with hasText := true } else doc.get? j := by
  simp [markText, get?, Array.getElem?_modify]

end ContrastAudit.Document
