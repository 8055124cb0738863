import ContrastAudit.Color.Basic

/-!
# Color spaces

Conversions between the screen's color space and the spaces in which colors are mixed.  All of them
go through linear light: the screen's channels are companded with an exponent of 2.4 above a short
linear piece, the perceptual spaces take cube roots of mixtures of linear light, and the polar
spaces write their two opponent coordinates as a length and a hue.

Conversions back to the screen clamp every channel to a byte.
-/

namespace ContrastAudit.Color

/-- Three coordinates in some space. -/
abbrev Coordinates := Float × Float × Float

/-- The nearest byte. -/
def clampByte (x : Float) : Int :=
  match Number.roundHalfUp (Number.pickMin 255.0 (Number.pickMax 0.0 x)) with
  | .ok n => n
  | .error _ => 0

/-- A channel divided by 255. -/
def unit (channel : Int) : Except NumericFault Float :=
  Number.quotient channel 255

/-! ## Linear light -/

/-- The linear light of a companded channel between zero and one. -/
def linearize (channel : Float) : Except NumericFault Float :=
  if channel ≤ 0.04045 then .ok (channel / 12.92)
  else Number.gammaPower ((channel + 0.055) / 1.055)

/-- The companded channel of linear light. -/
def compand (light : Float) : Float :=
  if light ≤ 0.0031308 then 12.92 * light
  else 1.055 * Number.gammaRoot light - 0.055

/-- The linear light of a color. -/
def toLinear (color : Color) : Except NumericFault Coordinates := do
  let r ← linearize (← unit color.red)
  let g ← linearize (← unit color.green)
  let b ← linearize (← unit color.blue)
  return (r, g, b)

/-- The color of linear light. -/
def ofLinear (r g b : Float) : Color :=
  ⟨clampByte (compand r * 255.0), clampByte (compand g * 255.0), clampByte (compand b * 255.0),
    none⟩

/-! ## Oklab -/

/-- The Oklab coordinates of a color. -/
def toOklab (color : Color) : Except NumericFault Coordinates := do
  let (r, g, b) ← toLinear color
  let l := Number.cubeRoot (0.4122214708 * r + 0.5363325363 * g + 0.0514459929 * b)
  let m := Number.cubeRoot (0.2119034982 * r + 0.6806995451 * g + 0.1073969566 * b)
  let s := Number.cubeRoot (0.0883024619 * r + 0.2817188376 * g + 0.6299787005 * b)
  return (0.2104542553 * l + 0.7936177850 * m - 0.0040720468 * s,
    1.9779984951 * l - 2.4285922050 * m + 0.4505937099 * s,
    0.0259040371 * l + 0.7827717662 * m - 0.8086757660 * s)

/-- The color of Oklab coordinates. -/
def ofOklab (lightness a b : Float) : Color :=
  let l := lightness + 0.3963377774 * a + 0.2158037573 * b
  let m := lightness - 0.1055613458 * a - 0.0638541728 * b
  let s := lightness - 0.0894841775 * a - 1.2914855480 * b
  let l := l * l * l
  let m := m * m * m
  let s := s * s * s
  ofLinear (4.0767416621 * l - 3.3077115913 * m + 0.2309699292 * s)
    (-1.2684380046 * l + 2.6097574011 * m - 0.3413193965 * s)
    (-0.0041960863 * l - 0.7034186147 * m + 1.7076147010 * s)

/-! ## CIE Lab -/

/-- The reference white's first coordinate, relative to its second. -/
def whiteX : Float := 0.95047

/-- The reference white's third coordinate, relative to its second. -/
def whiteZ : Float := 1.08883

/-- Where the cube root gives way to a linear piece. -/
def labEpsilon : Float := 0.008856

/-- The slope of the linear piece. -/
def labKappa : Float := 903.3

/-- The Lab coordinates of a color. -/
def toLab (color : Color) : Except NumericFault Coordinates := do
  let (r, g, b) ← toLinear color
  let x := (0.4124564 * r + 0.3575761 * g + 0.1804375 * b) / whiteX
  let y := 0.2126729 * r + 0.7151522 * g + 0.0721750 * b
  let z := (0.0193339 * r + 0.1191920 * g + 0.9503041 * b) / whiteZ
  let f (t : Float) : Float :=
    if labEpsilon < t then Number.cubeRoot t else (labKappa * t + 16.0) / 116.0
  return (116.0 * f y - 16.0, 500.0 * (f x - f y), 200.0 * (f y - f z))

/-- The color of Lab coordinates. -/
def ofLab (lightness a b : Float) : Except NumericFault Color := do
  let fy := (lightness + 16.0) / 116.0
  let fx := a / 500.0 + fy
  let fz := fy - b / 200.0
  let fx3 := fx * fx * fx
  let fz3 := fz * fz * fz
  let x := (if labEpsilon < fx3 then fx3 else (116.0 * fx - 16.0) / labKappa) * whiteX
  let y ←
    if labKappa * labEpsilon < lightness then Number.cube ((lightness + 16.0) / 116.0)
    else pure (lightness / labKappa)
  let z := (if labEpsilon < fz3 then fz3 else (116.0 * fz - 16.0) / labKappa) * whiteZ
  return ofLinear (3.2404542 * x - 1.5371385 * y - 0.4985314 * z)
    (-0.9692660 * x + 1.8760108 * y + 0.0415560 * z)
    (0.0556434 * x - 0.2040259 * y + 1.0572252 * z)

/-! ## Hue, saturation and lightness -/

/-- Hue in degrees, saturation and lightness in percent. -/
def toHsl (color : Color) : Except NumericFault Coordinates := do
  let r ← unit color.red
  let g ← unit color.green
  let b ← unit color.blue
  let high := Number.pickMax (Number.pickMax r g) b
  let low := Number.pickMin (Number.pickMin r g) b
  let lightness := (high + low) / 2.0
  if high == low then return (0.0, 0.0, lightness * 100.0)
  let d := high - low
  let saturation ← Number.divide d (if 0.5 < lightness then 2.0 - high - low else high + low)
  let hue :=
    if high == r then ((g - b) / d + (if g < b then 6.0 else 0.0)) / 6.0
    else if high == g then ((b - r) / d + 2.0) / 6.0
    else ((r - g) / d + 4.0) / 6.0
  return (hue * 360.0, saturation * 100.0, lightness * 100.0)

/-- One channel between the extremes `p` and `q` at the position `t` of the color wheel. -/
def wheelChannel (p q t : Float) : Float :=
  let t := if t < 0.0 then t + 1.0 else t
  let t := if 1.0 < t then t - 1.0 else t
  if t < 1.0 / 6.0 then p + (q - p) * 6.0 * t
  else if t < 1.0 / 2.0 then q
  else if t < 2.0 / 3.0 then p + (q - p) * (2.0 / 3.0 - t) * 6.0
  else p

/-- The color of a hue in degrees and of a saturation and a lightness in percent. -/
def ofHsl (hue saturation lightness : Float) : Color :=
  let h := Number.modulo hue 360 / 360.0
  let s := Number.pickMin 100.0 (Number.pickMax 0.0 saturation) / 100.0
  let l := Number.pickMin 100.0 (Number.pickMax 0.0 lightness) / 100.0
  if s == 0.0 then
    let gray := clampByte (l * 255.0)
    ⟨gray, gray, gray, none⟩
  else
    let q := if l < 0.5 then l * (1.0 + s) else l + s - l * s
    let p := 2.0 * l - q
    ⟨clampByte (wheelChannel p q (h + 1.0 / 3.0) * 255.0), clampByte (wheelChannel p q h * 255.0),
      clampByte (wheelChannel p q (h - 1.0 / 3.0) * 255.0), none⟩

/-! ## Polar coordinates -/

/-- Lightness, chroma and hue from a lightness and two opponent coordinates. -/
def toPolar : Coordinates → Coordinates
  | (lightness, a, b) =>
    (lightness, Number.length a b, Number.modulo (Number.degrees (Float.atan2 b a)) 360)

/-- A lightness and two opponent coordinates from lightness, chroma and hue. -/
def ofPolar (lightness chroma hue : Float) : Except NumericFault Coordinates := do
  let angle := Number.radians hue
  let x ← Number.cosine angle
  let y ← Number.sine angle
  return (lightness, chroma * x, chroma * y)

/-- The hue at `t` of the way from `h1` to `h2` along the shorter arc. -/
def lerpHue (h1 h2 t : Float) : Float :=
  let d := h2 - h1
  let d := if 180.0 < d then d - 360.0 else if d < -180.0 then d + 360.0 else d
  Number.modulo (h1 + d * t) 360

/-! ## The spaces by name -/

/-- A space in which colors can be mixed. -/
inductive Space
  | srgb
  | linear
  | oklab
  | oklch
  | lab
  | lch
  | hsl
  deriving DecidableEq, Repr

/-- The space of a lower-case name. -/
def Space.ofName? : String → Option Space
  | "srgb" => some .srgb
  | "srgb-linear" => some .linear
  | "oklab" => some .oklab
  | "oklch" => some .oklch
  | "lab" => some .lab
  | "lch" => some .lch
  | "hsl" => some .hsl
  | _ => none

/-- The coordinates of a color in a space. -/
def coordinates (color : Color) : Space → Except NumericFault Coordinates
  | .srgb => do
    return (← Number.ofInt color.red, ← Number.ofInt color.green, ← Number.ofInt color.blue)
  | .linear => toLinear color
  | .oklab => toOklab color
  | .oklch => toPolar <$> toOklab color
  | .lab => toLab color
  | .lch => toPolar <$> toLab color
  | .hsl => toHsl color

/-- The color of coordinates in a space. -/
def ofCoordinates (x y z : Float) : Space → Except NumericFault Color
  | .srgb => .ok ⟨clampByte x, clampByte y, clampByte z, none⟩
  | .linear => .ok (ofLinear x y z)
  | .oklab => .ok (ofOklab x y z)
  | .oklch => do
    let (l, a, b) ← ofPolar x y z
    return ofOklab l a b
  | .lab => ofLab x y z
  | .lch => do
    let (l, a, b) ← ofPolar x y z
    ofLab l a b
  | .hsl => .ok (ofHsl x y z)

end ContrastAudit.Color
