import ContrastAudit.Color.Mix

/-!
# Contrast ratio

The relative luminance of a color and the contrast ratio of two colors, which does not depend on
their order.  A translucent color is first painted over the other one if that is opaque, and over
white if both are translucent.
-/

namespace ContrastAudit

/-- The relative luminance of the channels; the alpha does not count. -/
def Color.luminance (color : Color) : Except NumericFault Float := do
  let (r, g, b) ← color.toLinear
  return 0.2126 * r + 0.7152 * g + 0.0722 * b

/-- A color as it shows next to, or over, another. -/
def Color.flattened (color other : Color) : Except NumericFault Color :=
  if color.isSolid then .ok color
  else color.onto (if other.isSolid then other else Color.white)

/-- The ratio of two luminances, the greater one on top. -/
def luminanceRatio (l1 l2 : Float) : Float :=
  (Number.pickMax l1 l2 + 0.05) / (Number.pickMin l1 l2 + 0.05)

/-- The contrast ratio of two colors. -/
def contrastRatio (foreground background : Color) : Except NumericFault Float := do
  let l1 ← (← foreground.flattened background).luminance
  let l2 ← (← background.flattened foreground).luminance
  return luminanceRatio l1 l2

end ContrastAudit
