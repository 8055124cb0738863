import ContrastAudit.Proofs.Document.Lineage

/-!
# A document below a body

One more element in front of a document, the parent of all its roots.  All other elements move one
place on and keep everything else.

**Results.**
* `lineage_below`: lineages get the new root at their end.
-/

namespace ContrastAudit

/-- An element one place further on, whose parent is one place further on as well or the new first
element. -/
def Element.below (e : Element) : Element :=
  { e with index := e.index + 1, parent := some (e.parent.elim 0 (· + 1)) }

@[simp] theorem Element.features_below (e : Element) : e.below.features = e.features :=
  rfl

namespace Document

/-- A body without attributes and text that comes first in its document. -/
def body : Element :=
  { features := { tag := "body" }, index := 0, parent := none }

/-- The document below a body. -/
def belowBody (doc : Document) : Document where
  elements := (body :: doc.toList.map (·.below)).toArray
  ordered := by
    intro i e h
    rw [List.getElem?_toArray] at h
    cases i with
    | zero =>
        cases h
        exact ⟨rfl, by simp [body]⟩
    | succ i =>
        rw [List.getElem?_cons_succ, List.getElem?_map, Option.map_eq_some_iff] at h
        obtain ⟨e, he, rfl⟩ := h
        obtain ⟨hi, hp⟩ := doc.ordered i e (by simpa [toList] using he)
        refine ⟨congrArg (· + 1) hi, fun p hb => ?_⟩
        cases hparent : e.parent with
        | none =>
            simp only [Element.below, hparent, Option.elim_none, Option.some.injEq] at hb
            omega
        | some q =>
            have hlt := hp q hparent
            simp only [Element.below, hparent, Option.elim_some, Option.some.injEq] at hb
            omega

theorem toList_belowBody (doc : Document) :
    doc.belowBody.toList = body :: doc.toList.map (·.below) := by
  simp [belowBody, toList]

theorem get?_belowBody_zero (doc : Document) : doc.belowBody.get? 0 = some body := by
  simp [belowBody, get?]

theorem get?_belowBody_succ (doc : Document) (i : Nat) :
    doc.belowBody.get? (i + 1) = (doc.get? i).map (·.below) := by
  simp [belowBody, get?, toList]

theorem lineage_body (doc : Document) : doc.belowBody.lineage body = [body] :=
  rfl

/-- What is above an element of a document has the body above it. -/
theorem lineage_below {doc : Document} {i : Nat} {e : Element} (h : doc.get? i = some e) :
    doc.belowBody.lineage e.below = (doc.lineage e).map (·.below) ++ [body] := by
  induction i using Nat.strongRecOn generalizing e with
  | ind i ih =>
      rw [lineage_eq_elim_parent?, lineage_eq_elim_parent? doc]
      cases hp : e.parent with
      | none =>
          have root : doc.belowBody.parent? e.below = some body := by
            simp [parent?, Element.below, hp, get?_belowBody_zero]
          have orphan : doc.parent? e = none := by simp [parent?, hp]
          rw [root, orphan]
          simp [lineage_body]
      | some p =>
          have hlt : p < i := parent_lt h hp
          obtain ⟨parent, hparent⟩ : ∃ parent, doc.get? p = some parent := by
            have hi : i < doc.elements.size := (Array.getElem?_eq_some_iff.1 h).1
            exact ⟨_, Array.getElem?_eq_getElem (Nat.lt_trans hlt hi)⟩
          have above : doc.belowBody.parent? e.below = some parent.below := by
            simp [parent?, Element.below, hp, get?_belowBody_succ, hparent]
          have same : doc.parent? e = some parent := by simp [parent?, hp, hparent]
          rw [above, same]
          simp [ih p hlt hparent]

theorem features_lineage_below {doc : Document} {e : Element} (h : e ∈ doc.toList) :
    (doc.belowBody.lineage e.below).map (·.features) =
      (doc.lineage e).map (·.features) ++ [body.features] := by
  obtain ⟨i, hi⟩ := List.mem_iff_getElem?.1 h
  have place : doc.get? i = some e := by simpa [get?, toList] using hi
  rw [lineage_below place]
  simp

end Document

end ContrastAudit
