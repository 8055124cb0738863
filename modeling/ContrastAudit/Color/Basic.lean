import ContrastAudit.Number.Arithmetic
import ContrastAudit.Number.Decimal
import ContrastAudit.Text.Quoted

/-!
# Colors

A color of the screen: three channels, which run from 0 to 255 in every color that is read from
text, and an optional alpha.  A color without alpha is opaque.
-/

namespace ContrastAudit

/-- Red, green and blue, and the alpha if there is one. -/
structure Color where
  red : Int
  green : Int
  blue : Int
  alpha : Option Float
  deriving Repr, DecidableEq

namespace Color

/-- White. -/
def white : Color := ⟨255, 255, 255, none⟩

/-- Black. -/
def black : Color := ⟨0, 0, 0, none⟩

/-- Fully transparent black. -/
def clear : Color := ⟨0, 0, 0, some 0.0⟩

/-- The alpha that counts: a missing one is full. -/
def opacity (color : Color) : Float :=
  color.alpha.getD 1.0

/-- Whether nothing shows through. -/
def isSolid (color : Color) : Bool :=
  1.0 ≤ color.opacity

/-- The channels without the alpha. -/
def solid (color : Color) : Color :=
  { color with alpha := none }

/-- At least two hexadecimal digits of a channel, the sign of a negative one among them. -/
def hexByte (n : Int) : List Char :=
  let ds := Nat.toDigits 16 n.natAbs
  if n < 0 then '-' :: ds else Number.padded 2 ds

/-- The color as `#rrggbb`, followed by `aa` if it has an alpha. -/
def hex (color : Color) : Except NumericFault String := do
  let channels := '#' :: hexByte color.red ++ hexByte color.green ++ hexByte color.blue
  match color.alpha with
  | none => return String.ofList channels
  | some a => return String.ofList (channels ++ hexByte (← Number.roundHalfUp (a * 255.0)))

/-- The color in functional notation. -/
def text (color : Color) : String :=
  let channels := toString color.red ++ ", " ++ toString color.green ++ ", " ++ toString color.blue
  match color.alpha with
  | none => "rgb(" ++ channels ++ ")"
  | some a => "rgba(" ++ channels ++ ", " ++ Number.general a ++ ")"

theorem isSolid_of_alpha_eq_none {color : Color} (h : color.alpha = none) :
    color.isSolid = true := by
  simp only [isSolid, opacity, h, Option.getD_none]
  decide

end Color

end ContrastAudit
