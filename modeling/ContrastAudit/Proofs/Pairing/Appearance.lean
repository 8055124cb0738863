import ContrastAudit.Pairing.Audit
import ContrastAudit.Proofs.Document.Lineage
import ContrastAudit.Proofs.Number.Fault

/-!
# How an element looks

The colors and the font of an element, found without keeping any surface: a function of whether the
element is shown and of the features of its lineage, and of nothing else.

The color behind an element can also be told from its root down.  The page is painted first, then
the background of every element on the path, each one over what has been painted so far.

**Results.**
* `backdrop_of_appearance?`: where an element has a look at all, its background is the color that
  painting from the root down ends with.
-/

namespace ContrastAudit

/-- What a pair says besides the element that it is about. -/
structure Appearance where
  foreground : ColorInfo
  background : ColorInfo
  fontSize : Option Float
  fontWeight : Option Int
  deriving DecidableEq, Repr

/-- The pair of an element that looks so. -/
def Appearance.pairOf (a : Appearance) (e : Element) : ContrastPair :=
  ⟨e, a.foreground, a.background, a.fontSize, a.fontWeight⟩

/-- How the element of a pair looks. -/
def ContrastPair.appearance (pair : ContrastPair) : Appearance :=
  ⟨pair.foreground, pair.background, pair.fontSize, pair.fontWeight⟩

namespace Styling

/-- The background of an element, given what is behind it. -/
def backgroundOn (specified : Option SpecifiedColor) (behind : Except NumericFault ColorInfo) :
    Except NumericFault ColorInfo :=
  match specified with
  | none => behind
  | some specified => do
    let info ← specified.info .background specified.selector
    if info.isFinal then return info else info.paint (← behind)

/-- How the first element of a lineage looks, if it is audited. -/
def appearance? (styling : Styling) (shown : Bool) (lineage : List Features) :
    Except NumericFault (Option Appearance) := do
  if !shown then return none
  else
    let fg ← styling.specified? lineage .foreground
    let bg ← styling.specified? lineage .background
    if fg.isNone && bg.isNone then return none
    else
      let background ← backgroundOn bg (styling.surfaceBehind lineage.tail)
      let foreground ← foreground fg background
      let size := Font.size? (styling.fontSize? lineage)
      let weight ← Font.weight? (styling.fontWeight? lineage)
      return some ⟨foreground, background, size, weight⟩

/-! ## Painting from the root down -/

/-- A color painted on a surface: an opaque color hides the surface, and a color that is not known
leaves a surface that is not known.  Only a translucent color asks what the surface is. -/
def coat (color : Option Color) (surface : Except NumericFault (Option Color)) :
    Except NumericFault (Option Color) :=
  match color with
  | none => .ok none
  | some color =>
    if color.isSolid then .ok (some color)
    else do
      match ← surface with
      | none => return none
      | some behind => return some (← color.onto behind)

/-- The surface after the background of one more element, which may have none of its own. -/
def layer (specified : Option SpecifiedColor) (surface : Except NumericFault (Option Color)) :
    Except NumericFault (Option Color) :=
  match specified with
  | none => surface
  | some specified => do coat (← specified.materialize .background) surface

/-- The surface after the background of an element of a document. -/
def paintedBy (styling : Styling) (doc : Document) (surface : Except NumericFault (Option Color))
    (e : Element) : Except NumericFault (Option Color) := do
  layer (← styling.specified? ((doc.lineage e).map (·.features)) .background) surface

/-- The color of the page with the backgrounds of some elements painted on it in order. -/
def backdrop (styling : Styling) (doc : Document) (path : List Element) :
    Except NumericFault (Option Color) :=
  path.foldl (styling.paintedBy doc) (styling.pageSurface.map (·.color))

theorem backdrop_append_singleton (styling : Styling) (doc : Document) (path : List Element)
    (e : Element) :
    styling.backdrop doc (path ++ [e]) = styling.paintedBy doc (styling.backdrop doc path) e := by
  simp [backdrop]

/-- Painting a background gives the color that its own color makes of the surface. -/
theorem coat_of_paint {info surface painted : ColorInfo}
    (h : info.paint surface = .ok painted) :
    coat info.color (.ok surface.color) = .ok painted.color := by
  unfold ColorInfo.paint at h
  unfold coat
  cases hc : info.color with
  | none =>
      simp only [hc, Except.ok.injEq] at h
      rw [← h, hc]
  | some color =>
      simp only [hc] at h ⊢
      by_cases hs : color.isSolid = true
      · rw [if_pos hs] at h ⊢
        cases h
        rw [hc]
      · rw [if_neg hs] at h ⊢
        rw [ok_bind]
        cases hb : surface.color with
        | none =>
            simp only [hb, Except.ok.injEq] at h
            rw [← h]
            rfl
        | some behind =>
            simp only [hb, bind_eq_ok_iff, return_eq_ok_iff] at h ⊢
            obtain ⟨painted, hpainted, rfl⟩ := h
            exact ⟨painted, hpainted, rfl⟩

/-- A final background does not depend on the surface, not even on a fault below it. -/
theorem coat_of_isFinal {info : ColorInfo} (h : info.isFinal = true)
    (surface : Except NumericFault (Option Color)) :
    coat info.color surface = .ok info.color := by
  unfold coat
  cases hc : info.color with
  | none => rfl
  | some color =>
      have hs : color.isSolid = true := by simpa [ColorInfo.isFinal, hc] using h
      simp [hs]

/-- The color that is known of a side is the one that its value stands for. -/
theorem materialize_of_info {specified : SpecifiedColor} {side : Side} {label : String}
    {info : ColorInfo} (h : specified.info side label = .ok info) :
    specified.materialize side = .ok info.color := by
  simp only [SpecifiedColor.info, bind_eq_ok_iff, return_eq_ok_iff] at h
  obtain ⟨color, hcolor, rfl⟩ := h
  exact hcolor

section Layers

variable {behind : Except NumericFault ColorInfo} {surface : Except NumericFault (Option Color)}
  (hs : ∀ known, behind = .ok known → surface = .ok known.color)
include hs

theorem coat_of_paint_behind {own info : ColorInfo}
    (h : (do own.paint (← behind)) = .ok info) :
    coat own.color surface = .ok info.color := by
  obtain ⟨known, hknown, hpaint⟩ := bind_eq_ok_iff.1 h
  rw [hs known hknown]
  exact coat_of_paint hpaint

theorem layer_of_backgroundOn {specified : Option SpecifiedColor} {info : ColorInfo}
    (h : backgroundOn specified behind = .ok info) :
    layer specified surface = .ok info.color := by
  cases specified with
  | none => exact hs info h
  | some specified =>
      obtain ⟨own, hown, h⟩ := bind_eq_ok_iff.1 h
      rw [layer, materialize_of_info hown, ok_bind]
      by_cases hf : own.isFinal = true
      · rw [if_pos hf, return_eq_ok_iff] at h
        rw [← h]
        exact coat_of_isFinal hf surface
      · rw [if_neg hf] at h
        exact coat_of_paint_behind hs h

theorem layer_of_surfaceOn {styling : Styling} {f : Features} {above : List Features}
    {info : ColorInfo}
    (h : styling.surfaceOn (f :: above) behind = .ok info) :
    (do layer (← styling.specified? (f :: above) .background) surface) = .ok info.color := by
  obtain ⟨specified, hspecified, h⟩ := bind_eq_ok_iff.1 h
  rw [hspecified, ok_bind]
  cases specified with
  | none => exact hs info h
  | some specified =>
      obtain ⟨own, hown, h⟩ := bind_eq_ok_iff.1 h
      rw [layer, materialize_of_info hown, ok_bind]
      exact coat_of_paint_behind hs h

end Layers

/-- The surface behind an element is what painting its ancestors from the root down ends with. -/
theorem backdrop_of_surfaceBehind (styling : Styling) {doc : Document} :
    ∀ (chain : List Element) (info : ColorInfo), doc.IsPath chain →
      styling.surfaceBehind (chain.map (·.features)) = .ok info →
      styling.backdrop doc chain.reverse = .ok info.color
  | [], info, _, h => by
      have hp : styling.pageSurface = .ok info := h
      simp [backdrop, hp, Except.map]
  | e :: above, info, hpath, h => by
      have hlineage : (doc.lineage e).map (·.features) = (e :: above).map (·.features) := by
        rw [Document.lineage_eq_cons, hpath.2.1]
      rw [List.reverse_cons, backdrop_append_singleton, paintedBy, hlineage]
      refine layer_of_surfaceOn (fun known hk => ?_) h
      exact backdrop_of_surfaceBehind styling above known hpath.2.2 hk

/-- Whoever looks like something has a background, painted on the surface behind it. -/
theorem background_of_appearance? {styling : Styling} {shown : Bool} {lineage : List Features}
    {a : Appearance} (h : styling.appearance? shown lineage = .ok (some a)) :
    ∃ specified, styling.specified? lineage .background = .ok specified ∧
      backgroundOn specified (styling.surfaceBehind lineage.tail) = .ok a.background := by
  unfold appearance? at h
  split at h
  · simp [pure, Except.pure] at h
  · obtain ⟨fg, _, h⟩ := bind_eq_ok_iff.1 h
    obtain ⟨bg, hbg, h⟩ := bind_eq_ok_iff.1 h
    split at h
    · simp [pure, Except.pure] at h
    · obtain ⟨background, hbackground, h⟩ := bind_eq_ok_iff.1 h
      obtain ⟨foreground, _, h⟩ := bind_eq_ok_iff.1 h
      obtain ⟨weight, _, h⟩ := bind_eq_ok_iff.1 h
      rw [return_eq_ok_iff, Option.some.injEq] at h
      exact ⟨bg, hbg, by rw [← h]; exact hbackground⟩

/-- Where an element has a look, the color behind it is what painting from its root down to the
element itself ends with. -/
theorem backdrop_of_appearance? {styling : Styling} {doc : Document} {e : Element} {shown : Bool}
    {a : Appearance}
    (h : styling.appearance? shown ((doc.lineage e).map (·.features)) = .ok (some a)) :
    styling.backdrop doc (doc.lineage e).reverse = .ok a.background.color := by
  have hchain : doc.IsPath (doc.ancestors e) := by
    rw [Document.ancestors_eq_chainAt]
    exact doc.isPath_chainAt e.parent
  obtain ⟨specified, hspecified, hbackground⟩ := background_of_appearance? h
  rw [Document.lineage_eq_cons, List.reverse_cons, backdrop_append_singleton, paintedBy,
    hspecified, ok_bind]
  refine layer_of_backgroundOn (fun known hk => ?_) hbackground
  exact backdrop_of_surfaceBehind styling _ known hchain hk

end Styling

end ContrastAudit
