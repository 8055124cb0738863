import ContrastAudit.Pairing.Styling

/-!
# Surfaces

What is behind an element: the backgrounds of its ancestors, painted one over the other from the
page background on.  An opaque background hides what is behind it, and where a background is not
understood nothing on it is known.

The surface behind an element only depends on its ancestors, so it is kept for the next element with
the same parent.

**Results.**
* `paint_of_solid`: painting leaves opaque and unknown backgrounds as they are, so what a background
  is painted over counts only where it is translucent.
-/

namespace ContrastAudit

namespace ColorInfo

/-- Whether a background shows nothing of what is behind it, or is not known itself. -/
def isFinal (info : ColorInfo) : Bool :=
  info.color.all (·.isSolid)

/-- A background as it shows over a surface. -/
def paint (info surface : ColorInfo) : Except NumericFault ColorInfo :=
  match info.color, surface.color with
  | none, _ => .ok info
  | some color, behind =>
    if color.isSolid then .ok info
    else
      match behind with
      | none => .ok { info with color := none, authored := some color }
      | some behind => do
        return { info with color := some (← color.onto behind), authored := some color }

theorem paint_of_solid {info : ColorInfo} (h : info.isFinal = true) (surface : ColorInfo) :
    info.paint surface = .ok info := by
  unfold paint
  cases hc : info.color with
  | none => rfl
  | some color =>
    have : color.isSolid = true := by simpa [isFinal, hc] using h
    simp [this]

end ColorInfo

namespace SpecifiedColor

/-- What is known of a side after its specified color is read. -/
def info (specified : SpecifiedColor) (side : Side) (label : String) :
    Except NumericFault ColorInfo := do
  return ⟨specified.written, ← specified.materialize side, specified.source, label, none⟩

/-- The label of a background that an element owes to an ancestor. -/
def inheritedLabel (specified : SpecifiedColor) (ancestor : Features) : String :=
  "inherited:" ++
    (if specified.source = .inline then ancestor.tag else specified.selector)

end SpecifiedColor

namespace Styling

/-- The background of the page, painted over the default one. -/
def pageSurface (styling : Styling) : Except NumericFault ColorInfo :=
  match Cascade.pageBackground styling.rules with
  | none => .ok ColorInfo.defaultBackground
  | some winner => do
    let info ← (SpecifiedColor.ofWinner winner).info .background ("inherited:" ++ winner.selector)
    info.paint ColorInfo.defaultBackground

/-- The surface that an element makes of the surface behind it, as its descendants see it. -/
def surfaceOn (styling : Styling) (lineage : List Features)
    (behind : Except NumericFault ColorInfo) : Except NumericFault ColorInfo :=
  match lineage with
  | [] => behind
  | f :: _ => do
    match ← styling.specified? lineage .background with
    | none => behind
    | some specified =>
      let info ← specified.info .background (specified.inheritedLabel f)
      info.paint (← behind)

/-- The surface behind an element with the given ancestors, nearest first. -/
def surfaceBehind (styling : Styling) : List Features → Except NumericFault ColorInfo
  | [] => styling.pageSurface
  | f :: above => styling.surfaceOn (f :: above) (styling.surfaceBehind above)

end Styling

/-! ## Kept surfaces -/

/-- The surfaces that are known already, by the place of the parent of the element in front. -/
abbrev Surfaces := List (Option Nat × ColorInfo)

namespace Surfaces

/-- The surface in front of a parent, or of the page. -/
def get? (surfaces : Surfaces) (parent : Option Nat) : Option ColorInfo :=
  (surfaces.find? (·.1 == parent)).map (·.2)

/-- The surfaces with one more. -/
def insert (surfaces : Surfaces) (parent : Option Nat) (surface : ColorInfo) : Surfaces :=
  (parent, surface) :: surfaces

theorem get?_insert (surfaces : Surfaces) (parent key : Option Nat) (surface : ColorInfo) :
    (surfaces.insert key surface).get? parent =
      if key = parent then some surface else surfaces.get? parent := by
  by_cases h : key = parent <;> simp [get?, insert, h]

end Surfaces

/-- What may look up and keep surfaces; the ones that are kept stay after a fault. -/
abbrev SurfaceM := ExceptT NumericFault (StateM Surfaces)

/-- A surface that is looked up if it is known, and found and kept otherwise. -/
def keeping (parent : Option Nat) (find : SurfaceM ColorInfo) : SurfaceM ColorInfo := do
  match (← get).get? parent with
  | some surface => return surface
  | none =>
    let surface ← find
    modify (·.insert parent surface)
    return surface

namespace Styling

/-- The surface behind an element with the given ancestors, looked up if it is known and kept
otherwise. -/
def keptSurfaceBehind (styling : Styling) : List Element → SurfaceM ColorInfo
  | [] => keeping none (liftM styling.pageSurface)
  | parent :: above => keeping (some parent.index) do
    let lineage := (parent :: above).map (·.features)
    match ← styling.specified? lineage .background with
    | none => styling.keptSurfaceBehind above
    | some specified =>
      let info ← specified.info .background (specified.inheritedLabel parent.features)
      info.paint (← styling.keptSurfaceBehind above)

end Styling

end ContrastAudit
