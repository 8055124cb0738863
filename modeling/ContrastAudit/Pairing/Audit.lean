import ContrastAudit.Pairing.Surface

/-!
# The pairs of a document

An element is audited if it has text, is not ignored, and has a color or a background of its own.
Its background is painted over the surface behind it, its text over that background.
-/

namespace ContrastAudit.Styling

/-- The background of an element, given what is behind it. -/
def background (specified : Option SpecifiedColor) (behind : SurfaceM ColorInfo) :
    SurfaceM ColorInfo :=
  match specified with
  | none => behind
  | some specified => do
    let info ← specified.info .background specified.selector
    if info.isFinal then return info else info.paint (← behind)

/-- The color of text on a background; over an unknown background it stays as it is written. -/
def foreground (specified : Option SpecifiedColor) (background : ColorInfo) :
    Except NumericFault ColorInfo :=
  match specified with
  | none => .ok ColorInfo.defaultForeground
  | some specified => do
    let info ← specified.info .foreground specified.selector
    if background.color.isNone then return info else info.paint background

/-- Whether an element shows text that counts. -/
def isShown (e : Element) : Bool :=
  e.hasText && !e.ignored

/-- The pair of an element with the given ancestors, if it is audited. -/
def pair? (styling : Styling) (e : Element) (ancestors : List Element) :
    SurfaceM (Option ContrastPair) := do
  if !isShown e then return none
  else
    let lineage := (e :: ancestors).map (·.features)
    let fg ← styling.specified? lineage .foreground
    let bg ← styling.specified? lineage .background
    if fg.isNone && bg.isNone then return none
    else
      let background ← background bg (styling.keptSurfaceBehind ancestors)
      let foreground ← foreground fg background
      let size := Font.size? (styling.fontSize? lineage)
      let weight ← Font.weight? (styling.fontWeight? lineage)
      return some ⟨e, foreground, background, size, weight⟩

/-- The pair of an element of a document. -/
def pairOf? (styling : Styling) (doc : Document) (e : Element) : SurfaceM (Option ContrastPair) :=
  styling.pair? e (doc.ancestors e)

/-- The pairs of a document in the order of their elements. -/
def pairs (styling : Styling) (doc : Document) : Except NumericFault (List ContrastPair) :=
  ((doc.toList.mapM (styling.pairOf? doc)).run.run []).1.map (·.filterMap id)

end ContrastAudit.Styling
