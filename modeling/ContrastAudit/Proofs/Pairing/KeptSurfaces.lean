import ContrastAudit.Document.Growth
import ContrastAudit.Proofs.Pairing.Appearance

/-!
# Kept surfaces never change an answer

One engine answers for many elements of a document and keeps the surfaces that it has found.  What
it keeps is sound if every kept surface is the one that would be found again.

**Results.**
* `answers_eq_map_of_fresh`: nothing that is kept can be told from the answers, and the background
  of every pair is painted from the root of its element down.
-/

namespace ContrastAudit

/-- Every kept surface is the one behind the elements with that parent. -/
def Surfaces.Sound (styling : Styling) (doc : Document) (surfaces : Surfaces) : Prop :=
  ∀ parent surface, surfaces.get? parent = some surface →
    styling.surfaceBehind ((doc.chainAt parent).map (·.features)) = .ok surface

/-- A computation has a certain outcome whatever sound surfaces are kept, and keeps sound ones. -/
def SurfaceM.Yields (styling : Styling) (doc : Document) {α : Type} (m : SurfaceM α)
    (outcome : Except NumericFault α) : Prop :=
  ∀ surfaces : Surfaces, surfaces.Sound styling doc →
    (m.run.run surfaces).1 = outcome ∧ (m.run.run surfaces).2.Sound styling doc

section Soundness

variable {styling : Styling} {doc : Document}

theorem Surfaces.sound_nil :
    Surfaces.Sound styling doc [] := by
  intro parent surface h
  simp [Surfaces.get?] at h

theorem Surfaces.Sound.insert {surfaces : Surfaces} (h : surfaces.Sound styling doc)
    {parent : Option Nat} {surface : ColorInfo}
    (hs : styling.surfaceBehind ((doc.chainAt parent).map (·.features)) = .ok surface) :
    (surfaces.insert parent surface).Sound styling doc := by
  intro key found hfound
  rw [Surfaces.get?_insert] at hfound
  by_cases hk : parent = key
  · rw [if_pos hk, Option.some.injEq] at hfound
    rw [← hk, ← hfound]
    exact hs
  · rw [if_neg hk] at hfound
    exact h key found hfound

namespace SurfaceM

variable {α β : Type}

theorem yields_pure (a : α) :
    Yields styling doc (pure a) (.ok a) :=
  fun _ h => ⟨rfl, h⟩

/-- What looks at no kept surface yields what it is. -/
theorem yields_lift (x : Except NumericFault α) :
    Yields styling doc (liftM x) x :=
  fun _ h => ⟨rfl, h⟩

theorem run_bind (m : SurfaceM α) (f : α → SurfaceM β) (surfaces : Surfaces) :
    (m >>= f).run.run surfaces =
      match m.run.run surfaces with
      | (.ok a, rest) => (f a).run.run rest
      | (.error fault, rest) => (.error fault, rest) := by
  show (match m.run.run surfaces with
    | (outcome, rest) => (ExceptT.bindCont f outcome).run rest) = _
  cases m.run.run surfaces with
  | mk outcome rest => cases outcome <;> rfl

theorem Yields.bind {m : SurfaceM α} {x : Except NumericFault α} {f : α → SurfaceM β}
    {g : α → Except NumericFault β} (hm : m.Yields styling doc x)
    (hf : ∀ a, x = .ok a → (f a).Yields styling doc (g a)) :
    Yields styling doc (m >>= f) (x >>= g) := by
  intro surfaces h
  obtain ⟨houtcome, hsound⟩ := hm surfaces h
  rw [run_bind]
  revert houtcome hsound
  rcases m.run.run surfaces with ⟨outcome, rest⟩
  rintro rfl hsound
  cases outcome with
  | error fault => exact ⟨rfl, hsound⟩
  | ok a => exact hf a rfl rest hsound

theorem yields_mapM {f : α → SurfaceM β} {g : α → Except NumericFault β}
    (h : ∀ a, (f a).Yields styling doc (g a)) (as : List α) :
    (as.mapM f).Yields styling doc (as.mapM g) := by
  induction as with
  | nil => exact yields_pure []
  | cons a as ih =>
      rw [List.mapM_cons, List.mapM_cons]
      exact (h a).bind fun b _ => ih.bind fun bs _ => yields_pure (b :: bs)

theorem run_keeping (parent : Option Nat) (find : SurfaceM ColorInfo) (surfaces : Surfaces) :
    (keeping parent find).run.run surfaces =
      match surfaces.get? parent with
      | some surface => (.ok surface, surfaces)
      | none =>
        match find.run.run surfaces with
        | (.ok surface, rest) => (.ok surface, Surfaces.insert rest parent surface)
        | (.error fault, rest) => (.error fault, rest) := by
  have hget : (get : SurfaceM Surfaces).run.run surfaces = (.ok surfaces, surfaces) := rfl
  rw [keeping, run_bind, hget]
  dsimp only
  cases surfaces.get? parent with
  | some surface => rfl
  | none =>
      dsimp only
      rw [run_bind]
      rcases find.run.run surfaces with ⟨outcome, rest⟩
      cases outcome <;> rfl

/-- Looking a surface up and keeping it yields what finding it does. -/
theorem yields_keeping {parent : Option Nat} {find : SurfaceM ColorInfo}
    (hfind : find.Yields styling doc
      (styling.surfaceBehind ((doc.chainAt parent).map (·.features)))) :
    (keeping parent find).Yields styling doc
      (styling.surfaceBehind ((doc.chainAt parent).map (·.features))) := by
  intro surfaces h
  rw [run_keeping]
  cases hk : surfaces.get? parent with
  | some surface => exact ⟨(h parent surface hk).symm, h⟩
  | none =>
      obtain ⟨houtcome, hsound⟩ := hfind surfaces h
      revert houtcome hsound
      rcases find.run.run surfaces with ⟨outcome, rest⟩
      intro houtcome hsound
      cases outcome with
      | error fault => exact ⟨houtcome, hsound⟩
      | ok surface => exact ⟨houtcome, hsound.insert houtcome.symm⟩

end SurfaceM

namespace Styling

/-- The kept surface behind the elements of a path is the surface behind them. -/
theorem yields_keptSurfaceBehind (styling : Styling) (doc : Document) :
    ∀ chain : List Element, doc.IsPath chain →
      (styling.keptSurfaceBehind chain).Yields styling doc
        (styling.surfaceBehind (chain.map (·.features)))
  | [], _ => @SurfaceM.yields_keeping _ _ none _ (SurfaceM.yields_lift styling.pageSurface)
  | e :: above, hpath => by
      have ih := yields_keptSurfaceBehind styling doc above hpath.2.2
      have hchain := Document.chainAt_of_isPath hpath
      -- a surface is kept under a parent, so the path must be the one that the parent has
      rw [keptSurfaceBehind, ← hchain]
      apply SurfaceM.yields_keeping
      rw [hchain]
      refine (SurfaceM.yields_lift _).bind fun specified _ => ?_
      cases specified with
      | none => exact ih
      | some specified =>
          refine (SurfaceM.yields_lift _).bind fun info _ => ?_
          exact ih.bind fun behind _ => SurfaceM.yields_lift (info.paint behind)

theorem yields_background {specified : Option SpecifiedColor} {m : SurfaceM ColorInfo}
    {behind : Except NumericFault ColorInfo} (hm : m.Yields styling doc behind) :
    (background specified m).Yields styling doc (backgroundOn specified behind) := by
  cases specified with
  | none => exact hm
  | some specified =>
      refine (SurfaceM.yields_lift _).bind fun info _ => ?_
      by_cases hf : info.isFinal = true
      · rw [if_pos hf, if_pos hf]
        exact SurfaceM.yields_pure info
      · rw [if_neg hf, if_neg hf]
        exact hm.bind fun surface _ => SurfaceM.yields_lift (info.paint surface)

/-- What one engine finds for an element is how the element looks. -/
theorem yields_pairOf? (styling : Styling) (doc : Document) (e : Element) :
    (styling.pairOf? doc e).Yields styling doc
      ((styling.appearance? (isShown e) ((doc.lineage e).map (·.features))).map
        (Option.map (·.pairOf e))) := by
  have hsurface := yields_keptSurfaceBehind styling doc (doc.ancestors e)
    (by rw [Document.ancestors_eq_chainAt]; exact doc.isPath_chainAt e.parent)
  rw [pairOf?, pair?, appearance?, Document.lineage_eq_cons]
  by_cases hshown : (!isShown e) = true
  · rw [if_pos hshown, if_pos hshown]
    exact SurfaceM.yields_pure none
  · rw [if_neg hshown, if_neg hshown, map_bind]
    refine (SurfaceM.yields_lift _).bind fun fg _ => ?_
    rw [map_bind]
    refine (SurfaceM.yields_lift _).bind fun bg _ => ?_
    by_cases hnone : (fg.isNone && bg.isNone) = true
    · rw [if_pos hnone, if_pos hnone]
      exact SurfaceM.yields_pure none
    · rw [if_neg hnone, if_neg hnone, map_bind]
      refine (yields_background hsurface).bind fun behind _ => ?_
      rw [map_bind]
      refine (SurfaceM.yields_lift _).bind fun front _ => ?_
      rw [map_bind]
      exact (SurfaceM.yields_lift _).bind fun weight _ => SurfaceM.yields_pure _

end Styling

end Soundness

namespace Styling

/-! ## One engine and many questions -/

/-- What an engine that keeps some surfaces answers for a sequence of elements, and what it keeps
afterwards.  A fault ends one answer only. -/
def answersFrom (styling : Styling) (doc : Document) :
    List Element → Surfaces → List (Except NumericFault (Option ContrastPair)) × Surfaces
  | [], surfaces => ([], surfaces)
  | e :: es, surfaces =>
    let (answer, surfaces) := (styling.pairOf? doc e).run.run surfaces
    let (answers, surfaces) := styling.answersFrom doc es surfaces
    (answer :: answers, surfaces)

/-- What an engine answers for an element after it has answered for some others. -/
def answerAfter (styling : Styling) (doc : Document) (before : List Element) (e : Element) :
    Except NumericFault (Option ContrastPair) :=
  ((styling.pairOf? doc e).run.run (styling.answersFrom doc before []).2).1

/-- What a fresh engine answers for an element. -/
def freshAnswer (styling : Styling) (doc : Document) (e : Element) :
    Except NumericFault (Option ContrastPair) :=
  styling.answerAfter doc [] e

/-- Whatever sound surfaces an engine keeps, it answers how the elements look and keeps sound
ones. -/
theorem answersFrom_of_sound (styling : Styling) (doc : Document) :
    ∀ (es : List Element) (surfaces : Surfaces), surfaces.Sound styling doc →
      (styling.answersFrom doc es surfaces).1 = es.map (fun e =>
        (styling.appearance? (isShown e) ((doc.lineage e).map (·.features))).map
          (Option.map (·.pairOf e))) ∧
      (styling.answersFrom doc es surfaces).2.Sound styling doc
  | [], surfaces, h => ⟨rfl, h⟩
  | e :: es, surfaces, h => by
      obtain ⟨hanswer, hsound⟩ := yields_pairOf? styling doc e surfaces h
      obtain ⟨hanswers, hrest⟩ := answersFrom_of_sound styling doc es _ hsound
      refine ⟨?_, hrest⟩
      rw [List.map_cons, ← hanswer, ← hanswers]
      rfl

/-- What an engine has answered before does not matter. -/
theorem answerAfter_eq (styling : Styling) (doc : Document) (before : List Element) (e : Element) :
    styling.answerAfter doc before e =
      (styling.appearance? (isShown e) ((doc.lineage e).map (·.features))).map
        (Option.map (·.pairOf e)) := by
  have hsound := (answersFrom_of_sound styling doc before [] Surfaces.sound_nil).2
  exact (yields_pairOf? styling doc e _ hsound).1

/-- The pair of an element that looks the way it does. -/
def lookedPair? (styling : Styling) (doc : Document) (e : Element) :
    Except NumericFault (Option ContrastPair) :=
  (styling.appearance? (isShown e) ((doc.lineage e).map (·.features))).map (Option.map (·.pairOf e))

/-- The pairs of a document are those of how its elements look. -/
theorem pairs_eq_mapM (styling : Styling) (doc : Document) :
    styling.pairs doc = (doc.toList.mapM (styling.lookedPair? doc)).map (·.filterMap id) := by
  have looks := SurfaceM.yields_mapM (fun e => yields_pairOf? styling doc e) doc.toList
  exact congrArg (·.map (·.filterMap id)) (looks [] Surfaces.sound_nil).1

/-- Whoever is answered a pair for looks like that pair. -/
theorem appearance?_of_freshAnswer {styling : Styling} {doc : Document} {e : Element}
    {pair : ContrastPair} (h : styling.freshAnswer doc e = .ok (some pair)) :
    styling.appearance? (isShown e) ((doc.lineage e).map (·.features)) =
      .ok (some pair.appearance) := by
  rw [freshAnswer, answerAfter_eq, map_eq_ok_iff] at h
  obtain ⟨look, hlook, h⟩ := h
  obtain ⟨a, rfl, rfl⟩ := Option.map_eq_some_iff.1 h
  exact hlook

/-- An engine that answers for any sequence of elements answers for each of them what a fresh engine
does, and the background of every pair is what painting the backgrounds from the root of its
element down to the element itself ends with. -/
theorem answers_eq_map_of_fresh (styling : Styling) (doc : Document) (es : List Element) :
    (styling.answersFrom doc es []).1 = es.map (styling.freshAnswer doc) ∧
      ∀ e ∈ es, ∀ pair, styling.freshAnswer doc e = .ok (some pair) →
        styling.backdrop doc (doc.lineage e).reverse = .ok pair.background.color := by
  constructor
  · rw [(answersFrom_of_sound styling doc es [] Surfaces.sound_nil).1]
    exact List.map_congr_left fun e _ => (styling.answerAfter_eq doc [] e).symm
  · intro e _ pair hpair
    exact backdrop_of_appearance? (appearance?_of_freshAnswer hpair)

/-- Nothing but the attributes of the elements themselves. -/
def bare : Styling :=
  ⟨[], [], none⟩

end Styling

namespace Panel

/-- A blue panel. -/
def panel : Element :=
  { features := { tag := "div", inline := { background := some "#336699" } }
    index := 0
    parent := none }

/-- A translucent note on the panel. -/
def note : Element :=
  { features :=
      { tag := "p"
        inline := { color := some "white", background := some "rgb(0 0 0 / 50%)" } }
    hasText := true
    index := 1
    parent := some 0 }

/-- The panel with its note. -/
def document : Document :=
  (Document.empty.attach panel.toContent none).attach note.toContent (some 0)

/-- The pair of the note, whose background is painted on the panel. -/
def notePair : ContrastPair where
  element := note
  foreground := ⟨"white", some Color.white, .inline, "inline", none⟩
  background :=
    ⟨"rgb(0 0 0 / 50%)", some ⟨26, 51, 77, none⟩, .inline, "inline",
      some ⟨0, 0, 0, some 0.5⟩⟩

theorem freshAnswer_note :
    Styling.bare.freshAnswer document note = .ok (some notePair) := by
  decide +kernel

/-- The note twice, with the panel between, from one engine. -/
theorem answers_note_panel_note :
    (Styling.bare.answersFrom document [note, panel, note] []).1 =
        [note, panel, note].map (Styling.bare.freshAnswer document) ∧
      Styling.bare.backdrop document (document.lineage note).reverse =
        .ok (some ⟨26, 51, 77, none⟩) := by
  obtain ⟨hanswers, hbackground⟩ :=
    Styling.answers_eq_map_of_fresh Styling.bare document [note, panel, note]
  exact ⟨hanswers, hbackground note (by simp) notePair freshAnswer_note⟩

end Panel

end ContrastAudit
