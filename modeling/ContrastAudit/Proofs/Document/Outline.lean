import Mathlib.Data.List.Induction
import ContrastAudit.Document.Growth
import ContrastAudit.Document.Outline

/-!
# Outlines of documents

Every document has an outline, the drafts of its elements.  Building the outline checks all places
and parents again and finds nothing wrong.  What makes a document grow can be done to its outline as
well, where a place that does not exist is an error instead of being left out.

**Results.**
* `build_outline`: the outline of a document builds the document.
* `edit?_outline_attach`, `edit?_outline_markText`: the outline follows a document that grows.
-/

namespace ContrastAudit

/-- A change of an outline: one more element at its end, or a mark on one that is there. -/
inductive Outline.Edit
  | add (content : Content) (parent : Option Nat)
  | markText (place : Nat)
  deriving DecidableEq, Repr

/-- The outline after a change, if there is such a place. -/
def Outline.edit? (outline : Outline) : Outline.Edit → Option Outline
  | .add content parent => some (outline.add content (parent.map Int.ofNat))
  | .markText place => outline.markText? place

/-- The outline after some changes, if all of their places exist. -/
def Outline.editAll? (outline : Outline) (edits : List Outline.Edit) : Option Outline :=
  edits.foldlM Outline.edit? outline

/-- The draft that says what an element is. -/
def Draft.ofElement (e : Element) : Draft :=
  { e.toContent with index := e.index, parent := e.parent.map Int.ofNat }

namespace Document

/-- The drafts of all elements. -/
def outline (doc : Document) : Outline :=
  (doc.toList.map Draft.ofElement).toArray

theorem ext_toList {doc doc' : Document} (h : doc.toList = doc'.toList) : doc = doc' := by
  obtain ⟨elements, _⟩ := doc
  obtain ⟨elements', _⟩ := doc'
  obtain rfl : elements = elements' := Array.ext' h
  rfl

theorem getElem?_toList (doc : Document) (i : Nat) : doc.toList[i]? = doc.get? i := by
  rw [toList, Array.getElem?_toList, get?]

theorem length_toList (doc : Document) : doc.toList.length = doc.size := by
  rw [toList, Array.length_toList, size]

/-! ## Growing documents as lists -/

theorem toList_attach {doc : Document} {parent : Option Nat} (h : ∀ p ∈ parent, p < doc.size)
    (content : Content) :
    (doc.attach content parent).toList =
      doc.toList ++ [{ content with index := doc.size, parent := parent }] := by
  have hparent : (parent.filter fun p => decide (p < doc.size)) = parent := by
    cases parent with
    | none => rfl
    | some p => exact Option.filter_some_pos (decide_eq_true (h p rfl))
  simp only [attach, toList, Array.toList_push, hparent]

theorem toList_markText (doc : Document) (i : Nat) :
    (doc.markText i).toList = doc.toList.modify i fun e => { e with hasText := true } := by
  simp only [markText, toList, Array.toList_modify]

/-! ## Building -/

theorem place_ofElement {e : Element} {place : Nat} (hindex : e.index = place)
    (hparent : ∀ p, e.parent = some p → p < place) :
    (Draft.ofElement e).place place = .ok e := by
  obtain ⟨content, index, parent⟩ := e
  subst hindex
  have hplace : (Draft.ofElement ⟨content, index, parent⟩).index = index := rfl
  rw [Draft.place, if_neg (not_not_intro hplace)]
  cases parent with
  | none => rfl
  | some p =>
      have hrange : (0 : Int) ≤ (p : Int) ∧ (p : Int) < index :=
        ⟨Int.natCast_nonneg p, Int.ofNat_lt.2 (hparent p rfl)⟩
      exact if_pos hrange

theorem toList_of_add {doc doc' : Document} {d : Draft} {e : Element}
    (hplace : d.place doc.size = .ok e) (h : doc.add d = .ok doc') :
    doc'.toList = doc.toList ++ [e] := by
  rw [size] at hplace
  unfold add at h
  split at h
  · contradiction
  · next heq =>
      rw [hplace, Except.ok.injEq] at heq
      cases h
      simp [toList, heq]

theorem exists_add {doc : Document} {d : Draft} {e : Element} (hplace : d.place doc.size = .ok e) :
    ∃ doc', doc.add d = .ok doc' := by
  rw [size] at hplace
  unfold add
  split
  · next heq =>
      rw [hplace] at heq
      contradiction
  · exact ⟨_, rfl⟩

/-- The drafts of elements that stand at their places behind their parents make a document. -/
theorem exists_ofDrafts (elements : List Element)
    (h : ∀ (i : Nat) (e : Element), elements[i]? = some e →
      e.index = i ∧ ∀ p, e.parent = some p → p < i) :
    ∃ doc, ofDrafts (elements.map Draft.ofElement) = .ok doc ∧ doc.toList = elements := by
  induction elements using List.reverseRecOn with
  | nil => exact ⟨empty, rfl, rfl⟩
  | append_singleton front last ih =>
      obtain ⟨doc, hdoc, hlist⟩ := ih fun i e he =>
        h i e (List.getElem?_append_left (List.getElem?_eq_some_iff.1 he).1 ▸ he)
      have hsize : doc.size = front.length := by rw [← length_toList, hlist]
      obtain ⟨hindex, hparent⟩ := h front.length last (by simp)
      have hplace : (Draft.ofElement last).place doc.size = .ok last :=
        hsize ▸ place_ofElement hindex hparent
      obtain ⟨doc', hadd⟩ := exists_add hplace
      refine ⟨doc', ?_, ?_⟩
      · rw [ofDrafts] at hdoc ⊢
        rw [List.map_append, List.foldlM_append, hdoc]
        exact (bind_pure (doc.add _)).trans hadd
      · rw [toList_of_add hplace hadd, hlist]

/-- An outline builds its document. -/
theorem build_outline (doc : Document) : doc.outline.build = .ok doc := by
  obtain ⟨doc', hbuild, hlist⟩ := exists_ofDrafts doc.toList fun i e he => by
    rw [getElem?_toList] at he
    exact doc.ordered i e he
  rw [Outline.build, outline, List.toList_toArray, hbuild, ext_toList hlist]

/-! ## Changes -/

theorem size_outline (doc : Document) : doc.outline.size = doc.size := by
  rw [outline, List.size_toArray, List.length_map, length_toList]

/-- An element can be added to the outline, where tags are written in lower case. -/
theorem edit?_outline_attach {doc : Document} {parent : Option Nat}
    (h : ∀ p ∈ parent, p < doc.size) (content : Content) :
    doc.outline.edit? (.add content parent) = some (doc.attach
      { content with
        features := { content.features with tag := Text.lowercase content.features.tag } }
      parent).outline := by
  rw [Outline.edit?, Outline.add, size_outline, outline, outline, toList_attach h]
  simp [Draft.ofElement]

/-- An element that is there can be marked in the outline. -/
theorem edit?_outline_markText {doc : Document} {place : Nat} (h : place < doc.size) :
    doc.outline.edit? (.markText place) = some (doc.markText place).outline := by
  have hplace : placeOf? doc.size (place : Int) = some place := by
    have hrange : (0 : Int) ≤ (place : Int) ∧ (place : Int) < doc.size :=
      ⟨Int.natCast_nonneg place, Int.ofNat_lt.2 h⟩
    rw [placeOf?, if_neg (Int.not_lt.2 hrange.1)]
    exact if_pos hrange
  rw [Outline.edit?, Outline.markText?, size_outline, hplace, outline, outline, toList_markText]
  simp only [Option.map_some, Option.some.injEq]
  refine Array.ext' (List.ext_getElem? fun i => ?_)
  rw [Array.toList_modify, List.getElem?_modify, List.getElem?_map, List.getElem?_map,
    List.getElem?_modify]
  cases doc.toList[i]? with
  | none => rfl
  | some e => split <;> rfl

end Document

end ContrastAudit
