import ContrastAudit.Proofs.Pairing.KeptSurfaces

/-!
# Pairs are local

What an engine answers for an element is settled by the chain of parents above it.  Siblings,
descendants and all other elements of the document may differ, and so may the places of the
elements and whatever the engine has answered before.

**Results.**
* `appearance_eq_of_sameChain`: elements with the same chain look the same.
-/

namespace ContrastAudit

namespace Document

/-- Two elements of two documents have chains of parents of the same length that agree in the
features of every element. -/
inductive SameChain (doc doc' : Document) : Element → Element → Prop
  | root {e e' : Element} :
      e.features = e'.features →
      doc.parent? e = none →
      doc'.parent? e' = none →
      SameChain doc doc' e e'
  | child {e e' parent parent' : Element} :
      e.features = e'.features →
      doc.parent? e = some parent →
      doc'.parent? e' = some parent' →
      SameChain doc doc' parent parent' →
      SameChain doc doc' e e'

theorem lineage_features_of_sameChain {doc doc' : Document} {e e' : Element}
    (h : SameChain doc doc' e e') :
    (doc.lineage e).map (·.features) = (doc'.lineage e').map (·.features) := by
  induction h with
  | root hfeatures hnone hnone' =>
      rw [lineage_eq_elim_parent?, lineage_eq_elim_parent?, hnone, hnone']
      simp [hfeatures]
  | child hfeatures hparent hparent' _ ih =>
      rw [lineage_eq_elim_parent?, lineage_eq_elim_parent? doc', hparent, hparent']
      simp only [Option.elim_some, List.map_cons, hfeatures, ih]

end Document

namespace Styling

/-- Two elements with the same chain that agree in whether they have text and whether they are
ignored look the same to any two engines with the same styling, whatever these have answered before:
neither has a pair, or both have pairs with the same colors and the same font. -/
theorem appearance_eq_of_sameChain (styling : Styling) {doc doc' : Document} {e e' : Element}
    (hchain : Document.SameChain doc doc' e e')
    (htext : e.hasText = e'.hasText)
    (hignored : e.ignored = e'.ignored)
    (before before' : List Element) :
    (styling.answerAfter doc before e).map (Option.map (·.appearance)) =
      (styling.answerAfter doc' before' e').map (Option.map (·.appearance)) := by
  have hshown : isShown e = isShown e' := by
    rw [isShown, isShown, htext, hignored]
  rw [answerAfter_eq, answerAfter_eq, hshown, Document.lineage_features_of_sameChain hchain]
  cases styling.appearance? (isShown e') ((doc'.lineage e').map (·.features)) with
  | error fault => rfl
  | ok look =>
      cases look with
      | none => rfl
      | some a => rfl

end Styling

namespace Panel

/-- The panel behind a heading. -/
def laterPanel : Element :=
  { panel with index := 1 }

/-- The note on the later panel. -/
def laterNote : Element :=
  { note with index := 3, parent := some 1 }

/-- A heading, the panel, and on the panel a list that the note follows. -/
def crowded : Document :=
  (((Document.empty.attach { features := { tag := "h1" }, hasText := true } none).attach
    laterPanel.toContent none).attach
    { features := { tag := "ul", inline := { background := some "red" } } } (some 1)).attach
    laterNote.toContent (some 1)

theorem appearance_eq_note_laterNote :
    Document.SameChain document crowded note laterNote ∧
      (Styling.bare.answerAfter document [] note).map (Option.map (·.appearance)) =
        (Styling.bare.answerAfter crowded [laterPanel, laterNote] laterNote).map
          (Option.map (·.appearance)) := by
  have hparents : Document.SameChain document crowded panel laterPanel :=
    .root rfl (by decide) (by decide)
  have hchain : Document.SameChain document crowded note laterNote :=
    .child rfl (by decide) (by decide) hparents
  exact ⟨hchain, Styling.appearance_eq_of_sameChain Styling.bare hchain rfl rfl [] _⟩

end Panel

end ContrastAudit
