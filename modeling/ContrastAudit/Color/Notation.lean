import ContrastAudit.Color.Mix
import ContrastAudit.Color.Named
import ContrastAudit.Text.Case
import ContrastAudit.Text.Hexadecimal
import ContrastAudit.Value.Arguments
import ContrastAudit.Value.Parse

/-!
# Reading colors

A color is written as a keyword, as `#` and hexadecimal digits, or as a function: `rgb`, `hsl`, the
perceptual spaces, or `color-mix` of two colors.  Channels are numbers, percentages or the word
`none`.  The older functions take their arguments between commas, and all of them between blanks
with the alpha behind a slash.

Upper and lower case are the same.  `transparent` is no color, like everything else that is not
recognised.
-/

namespace ContrastAudit.Color

/-! ## Numbers with units -/

/-- A number of a color function and its unit. -/
structure Quantity where
  value : Float
  unit : String
  deriving Repr

/-- The units a quantity may have. -/
def Quantity.units : List String :=
  ["", "%", "deg", "rad", "grad", "turn"]

/-- The quantity that a text writes; `none` counts as zero. -/
def Quantity.ofText? (text : String) : Option Quantity :=
  if text = "none" then some ⟨0.0, ""⟩
  else
    let cs := text.toList
    let (negative, cs) := match cs with
      | '+' :: cs => (false, cs)
      | '-' :: cs => (true, cs)
      | cs => (false, cs)
    let n := Token.decimalLength cs
    let unit := String.ofList (cs.drop n)
    if n = 0 || !Quantity.units.contains unit then none
    else
      let number := cs.take n
      let whole := number.takeWhile Text.isDecimal
      let x := Number.ofDigits whole (number.drop (whole.length + 1))
      some ⟨if negative then -x else x, unit⟩

/-- A bare number, or a percentage of `whole`. -/
def scalar? (whole : Float) (text : String) : Option Float := do
  let q ← Quantity.ofText? text
  match q.unit with
  | "" => some q.value
  | "%" => some (q.value / 100.0 * whole)
  | _ => none

/-- An angle in degrees; a bare number is in degrees already. -/
def angle? (text : String) : Option Float := do
  let q ← Quantity.ofText? text
  match q.unit with
  | "" | "deg" => some q.value
  | "rad" => some (Number.degrees q.value)
  | "grad" => some (q.value * 0.9)
  | "turn" => some (q.value * 360.0)
  | _ => none

/-! ## Channels -/

/-- The texts of three channels and of an alpha. -/
structure Channels where
  first : String
  second : String
  third : String
  alpha : Option String
  deriving DecidableEq, Repr

/-- Channels between commas: three or four arguments of one component each. -/
def channelsOfArguments : List (List Component) → Option Channels
  | [[a], [b], [c]] => some ⟨a.label, b.label, c.label, none⟩
  | [[a], [b], [c], [d]] => some ⟨a.label, b.label, c.label, some d.label⟩
  | _ => none

/-- Whether a component can be a channel between blanks. -/
def isChannel (c : Component) : Bool :=
  c.isLeaf .number || c.isLeaf .word

/-- Channels between blanks, with the alpha behind a slash. -/
def channelsOfSequence (components : List Component) : Option Channels :=
  match components.filter fun c => !c.isSpace with
  | [a, b, c] =>
    if isChannel a && isChannel b && isChannel c then some ⟨a.label, b.label, c.label, none⟩
    else none
  | [a, b, c, slash, d] =>
    if isChannel a && isChannel b && isChannel c && slash.isLeaf .slash && isChannel d then
      some ⟨a.label, b.label, c.label, some d.label⟩
    else none
  | _ => none

/-- The channels of a color function. -/
def channels? (children : List Component) : Option Channels :=
  match Component.splitArguments none children with
  | [sequence] => channelsOfSequence sequence
  | arguments => channelsOfArguments arguments

/-- A color with the alpha that a text writes, limited to what lies between zero and one. -/
def withAlpha? (color : Color) : Option String → Option Color
  | none => some color
  | some text =>
    (scalar? 1.0 text).map fun a =>
      { color with alpha := some (Number.pickMin 1.0 (Number.pickMax 0.0 a)) }

/-! ## Functions -/

/-- A color from three bytes or percentages. -/
def ofRgbFunction (children : List Component) : Option Color := do
  let cs ← channels? children
  let r ← scalar? 255.0 cs.first
  let g ← scalar? 255.0 cs.second
  let b ← scalar? 255.0 cs.third
  withAlpha? ⟨clampByte r, clampByte g, clampByte b, none⟩ cs.alpha

/-- A color from a hue, a saturation and a lightness. -/
def ofHslFunction (children : List Component) : Option Color := do
  let cs ← channels? children
  let hue ← angle? cs.first
  let saturation ← scalar? 100.0 cs.second
  let lightness ← scalar? 100.0 cs.third
  withAlpha? (ofHsl hue saturation lightness) cs.alpha

/-- What a hundred percent of the coordinates of a perceptual space are, and whether the third one
is a hue. -/
structure Perceptual where
  lightness : Float
  range : Float
  polar : Bool
  space : Space

/-- The perceptual spaces by the names of their functions. -/
def perceptual? : String → Option Perceptual
  | "oklab" => some ⟨1.0, 0.4, false, .oklab⟩
  | "oklch" => some ⟨1.0, 0.4, true, .oklch⟩
  | "lab" => some ⟨100.0, 125.0, false, .lab⟩
  | "lch" => some ⟨100.0, 150.0, true, .lch⟩
  | _ => none

/-- A color from the coordinates of a perceptual space, which stand between blanks. -/
def ofPerceptual (p : Perceptual) (children : List Component) :
    Except NumericFault (Option Color) :=
  match Component.splitArguments none children with
  | [sequence] =>
    match channelsOfSequence sequence with
    | none => .ok none
    | some cs =>
      let third := if p.polar then angle? cs.third else scalar? p.range cs.third
      match scalar? p.lightness cs.first, scalar? p.range cs.second, third with
      | some x, some y, some z => do
        let color ← ofCoordinates x y z p.space
        return color.withAlpha? cs.alpha
      | _, _, _ => .ok none
  | _ => .ok none

/-- Whether a component is a percentage. -/
def isPercentage (c : Component) : Bool :=
  c.isLeaf .number && c.label.toList.getLast? == some '%'

/-- Takes the percentage off the end, or else off the start, of an argument with more than one
component. -/
def splitPercentage (argument : List Component) : Option Component × List Component :=
  match argument, argument.getLast? with
  | first :: second :: more, some last =>
    if isPercentage last then (some last, (first :: second :: more).dropLast)
    else if isPercentage first then (some first, second :: more)
    else (none, argument)
  | _, _ => (none, argument)

/-- An argument of a mixture: the components of its color, and its percentage. -/
def mixArgument? (argument : List Component) : Option (List Component × Option Float) :=
  match splitPercentage argument with
  | (none, components) => if components.any isPercentage then none else some (components, none)
  | (some percentage, components) =>
    match scalar? 100.0 percentage.label with
    | none => if components.any isPercentage then none else some (components, none)
    | some p => if 0.0 ≤ p && p ≤ 100.0 then some (components, some p) else none

/-- The name of the space of a mixture, from its first argument. -/
def mixSpace? (argument : List Component) : Option String :=
  match (argument.filter fun c => !c.isSpace).map Component.label with
  | ["in", space] | ["in", space, "shorter", "hue"] => some space
  | _ => none

/-! ## All notations -/

/-- The color of three, four, six or eight hexadecimal digits in lower case; with fewer than six
every digit counts twice. -/
def ofHexDigits? (cs : List Char) : Option Color :=
  if cs.all Text.isHexDigit then
    let byte (a b : Char) : Int := Text.natOfHex [a, b]
    let alpha (a b : Char) : Option Float := some (Float.ofInt (byte a b) / 255.0)
    match cs with
    | [r, g, b] => some ⟨byte r r, byte g g, byte b b, none⟩
    | [r, g, b, a] => some ⟨byte r r, byte g g, byte b b, alpha a a⟩
    | [r, r', g, g', b, b'] => some ⟨byte r r', byte g g', byte b b', none⟩
    | [r, r', g, g', b, b', a, a'] => some ⟨byte r r', byte g g', byte b b', alpha a a'⟩
    | _ => none
  else none

/-- The color that a text writes, where mixtures may be nested `fuel` deep. -/
def parseWithin : Nat → String → Except NumericFault (Option Color)
  | 0, _ => .ok none
  | fuel + 1, source =>
    let text := Text.lowercase (Text.strip source)
    if text = "" || text = "transparent" then .ok none
    else
      match named? text with
      | some color => .ok (some color)
      | none =>
        match text.toList with
        | '#' :: cs => .ok (ofHexDigits? cs)
        | _ =>
          match (Component.parse? text).map Component.stripSpace with
          | some [.function name children] =>
            match name with
            | "rgb" | "rgba" => .ok (ofRgbFunction children)
            | "hsl" | "hsla" => .ok (ofHslFunction children)
            | "color-mix" =>
              match Component.splitArguments none children with
              | [method, first, second] =>
                match mixSpace? method with
                | none => .ok none
                | some space => do
                  let read (argument : List Component) := do
                    match mixArgument? argument with
                    | none => return none
                    | some (components, percentage) =>
                      let color ← parseWithin fuel (Component.render components)
                      return color.map fun color => (color, percentage)
                  let first ← read first
                  let second ← read second
                  match first, second with
                  | some (c1, p1), some (c2, p2) => mix space c1 p1 c2 p2
                  | _, _ => return none
              | _ => .ok none
            | name =>
              match perceptual? name with
              | some p => ofPerceptual p children
              | none => .ok none
          | _ => .ok none

/-- The color that a text writes, if it writes one.  Coordinates out of the range of numbers are a
fault. -/
def parse (source : String) : Except NumericFault (Option Color) :=
  parseWithin (source.length + 1) source

end ContrastAudit.Color
