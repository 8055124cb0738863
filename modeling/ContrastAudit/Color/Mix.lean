import ContrastAudit.Color.Space

/-!
# Mixing colors

Two ways to combine colors: interpolation with percentages in a color space, and painting one color
over another.

**Results.**
* `isSolid_onto`: what is painted over an opaque color is opaque.
-/

namespace ContrastAudit.Color

/-- The weights of two optional percentages.  Without percentages both weigh the same, one missing
percentage is what the other leaves of a hundred, and two are divided by their sum.  There are no
weights if the sum is not positive. -/
def weights (p1 p2 : Option Float) : Option (Float × Float) :=
  let (p1, p2) : Float × Float := match p1, p2 with
    | none, none => (50.0, 50.0)
    | some p1, none => (p1, 100.0 - p1)
    | none, some p2 => (100.0 - p2, p2)
    | some p1, some p2 => (p1, p2)
  let total := p1 + p2
  if total ≤ 0.0 then none else some (p1 / total, p2 / total)

/-- The color between two colors in a space; hues take the shorter arc.  An alpha is interpolated as
well if one of the colors has one. -/
def mixIn (space : Space) (c1 : Color) (w1 : Float) (c2 : Color) (w2 : Float) :
    Except NumericFault Color := do
  let (x1, y1, z1) ← c1.coordinates space
  let (x2, y2, z2) ← c2.coordinates space
  let blend (a b : Float) : Float := a * w1 + b * w2
  let x := if space = .hsl then lerpHue x1 x2 w2 else blend x1 x2
  let y := blend y1 y2
  let z := if space = .oklch ∨ space = .lch then lerpHue z1 z2 w2 else blend z1 z2
  let mixed ← ofCoordinates x y z space
  if c1.alpha.isNone && c2.alpha.isNone then return mixed
  return { mixed with alpha := some (c1.opacity * w1 + c2.opacity * w2) }

/-- The mixture of two colors in the space of a name, with optional percentages; there is none in
an unknown space or without weights. -/
def mix (space : String) (c1 : Color) (p1 : Option Float) (c2 : Color) (p2 : Option Float) :
    Except NumericFault (Option Color) :=
  match Space.ofName? (Text.lowercase space), weights p1 p2 with
  | some space, some (w1, w2) => some <$> mixIn space c1 w1 c2 w2
  | _, _ => .ok none

/-- One channel of a color painted with opacity `a` over another. -/
def overChannel (a : Float) (front behind : Int) : Except NumericFault Int := do
  let front ← Number.ofInt front
  let behind ← Number.ofInt behind
  Number.roundHalfUp (front * a + behind * (1.0 - a))

/-- A color painted over another. -/
def onto (color behind : Color) : Except NumericFault Color :=
  if color.isSolid then .ok color
  else do
    let a := Number.pickMax 0.0 color.opacity
    let red ← overChannel a color.red behind.red
    let green ← overChannel a color.green behind.green
    let blue ← overChannel a color.blue behind.blue
    return ⟨red, green, blue, none⟩

theorem isSolid_onto {color behind painted : Color} (h : color.onto behind = .ok painted) :
    painted.isSolid = true := by
  unfold onto at h
  split at h
  · next hs => cases h; exact hs
  · simp only [bind, Except.bind] at h
    split at h <;> try contradiction
    split at h <;> try contradiction
    split at h <;> try contradiction
    cases h
    exact isSolid_of_alpha_eq_none rfl

end ContrastAudit.Color
