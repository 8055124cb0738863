import ContrastAudit.Document.Element

/-!
# Lineages

The ancestors of an element are found by following parents, and every one of them stands in the
document in front of its own ancestors.

**Results.**
* `isPath_chainAt`: the chain that a place starts is such a path.
* `lineage_eq_elim_parent?`: the lineage of an element is the element and the lineage of its parent.
-/

namespace ContrastAudit.Document

/-- The chain that an element with the given parent has above it. -/
def chainAt (doc : Document) : Option Nat → List Element
  | none => []
  | some p => doc.lineageAt p

@[simp] theorem chainAt_some (doc : Document) (p : Nat) :
    doc.chainAt (some p) = doc.lineageAt p :=
  rfl

theorem ancestors_eq_chainAt (doc : Document) (e : Element) :
    doc.ancestors e = doc.chainAt e.parent := by
  unfold ancestors
  cases e.parent <;> rfl

/-- Every element of the list stands in the document, and what follows it are its ancestors. -/
def IsPath (doc : Document) : List Element → Prop
  | [] => True
  | e :: above =>
      doc.get? e.index = some e ∧ doc.ancestors e = above ∧ IsPath doc above

theorem lineageAt_of_get?_eq_none {doc : Document} {i : Nat} (h : doc.get? i = none) :
    doc.lineageAt i = [] := by
  rw [lineageAt]
  split
  · rfl
  · next e he =>
      rw [h] at he
      contradiction

theorem isPath_lineageAt (doc : Document) (i : Nat) :
    doc.IsPath (doc.lineageAt i) := by
  induction i using Nat.strongRecOn with
  | ind i ih =>
      cases h : doc.get? i with
      | none =>
          rw [lineageAt_of_get?_eq_none h]
          trivial
      | some e =>
          have hindex : e.index = i := (doc.ordered i e h).1
          rw [lineageAt_of_get? h, lineage_eq_cons]
          refine ⟨by rw [hindex]; exact h, rfl, ?_⟩
          rw [ancestors_eq_chainAt]
          cases hp : e.parent with
          | none => trivial
          | some p => exact ih p (parent_lt h hp)

/-- The chain above an element is a path of the document. -/
theorem isPath_chainAt (doc : Document) (parent : Option Nat) :
    doc.IsPath (doc.chainAt parent) := by
  cases parent with
  | none => trivial
  | some p => exact doc.isPath_lineageAt p

/-- A path is the chain that starts at its first element. -/
theorem chainAt_of_isPath {doc : Document} {e : Element} {above : List Element}
    (h : doc.IsPath (e :: above)) :
    doc.chainAt (some e.index) = e :: above := by
  obtain ⟨hget, habove, _⟩ := h
  rw [chainAt_some, lineageAt_of_get? hget, lineage_eq_cons, habove]

/-- What stands on a path stands in the document. -/
theorem mem_toList_of_isPath {doc : Document} {chain : List Element} (h : doc.IsPath chain) :
    ∀ e ∈ chain, e ∈ doc.toList := by
  induction chain with
  | nil => simp
  | cons first above ih =>
      obtain ⟨hget, _, habove⟩ := h
      intro e he
      rcases List.mem_cons.1 he with rfl | he
      · exact Array.mem_toList_iff.2 (Array.mem_of_getElem? hget)
      · exact ih habove e he

theorem mem_toList_of_mem_ancestors {doc : Document} {e a : Element} (h : a ∈ doc.ancestors e) :
    a ∈ doc.toList := by
  rw [ancestors_eq_chainAt] at h
  exact mem_toList_of_isPath (doc.isPath_chainAt e.parent) a h

/-- A lineage is found by following parents. -/
theorem lineage_eq_elim_parent? (doc : Document) (e : Element) :
    doc.lineage e = e :: (doc.parent? e).elim [] doc.lineage := by
  rw [lineage_eq_cons, ancestors_eq_chainAt, parent?]
  cases e.parent with
  | none => rfl
  | some p =>
      cases h : doc.get? p with
      | none => simp [lineageAt_of_get?_eq_none h, h]
      | some parent => simp [lineageAt_of_get? h, h]

end ContrastAudit.Document
