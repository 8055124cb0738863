import ContrastAudit.Number.Decimal
import ContrastAudit.Number.Fault
import ContrastAudit.Text.Cut

/-!
# Font size and weight

What a static font size and a font weight say about how large text is.  Relative sizes refer to a
base of 16 pixels; a size that depends on its context says nothing.
-/

namespace ContrastAudit.Font

/-- The size that relative units refer to. -/
def baseSize : Float := 16.0

/-- A unit of length. -/
inductive Length
  | px
  | pt
  | em
  | percent
  deriving DecidableEq, Repr

/-- The unit that a text names; no text means pixels. -/
def Length.ofText? : List Char → Option Length
  | [] => some .px
  | ['p', 'x'] => some .px
  | ['p', 't'] => some .pt
  | ['r', 'e', 'm'] | ['e', 'm'] => some .em
  | ['%'] => some .percent
  | _ => none

/-- A size in a unit as pixels. -/
def Length.toPixels (x : Float) : Length → Float
  | .px => x
  | .pt => x * 4.0 / 3.0
  | .em => x * baseSize
  | .percent => x * baseSize / 100.0

/-- An unsigned number at the start of a text, and the rest: digits with an optional fraction, or a
fraction alone.  A point without digits after it belongs to the rest. -/
def number? (cs : List Char) : Option (Float × List Char) :=
  let whole := cs.takeWhile Text.isDecimal
  let rest := cs.dropWhile Text.isDecimal
  match rest with
  | '.' :: more =>
    let fraction := more.takeWhile Text.isDecimal
    if fraction.isEmpty then
      if whole.isEmpty then none else some (Number.ofDigits whole [], rest)
    else some (Number.ofDigits whole fraction, more.dropWhile Text.isDecimal)
  | rest => if whole.isEmpty then none else some (Number.ofDigits whole [], rest)

/-- The size in pixels of a font size, if it is static. -/
def size? (value : Option String) : Option Float := do
  let value ← value
  let (x, rest) ← number? (Text.lower (Text.trim value.toList))
  let unit ← Length.ofText? (Text.trimStart rest)
  return unit.toPixels x

/-- The most digits of a weight. -/
def maxDigits : Nat := 4300

/-- The number of a font weight.  Keywords stand for the usual numbers and other texts for the
normal weight; a text of digits without a decimal value, or of too many digits, has no weight. -/
def weight? (value : Option String) : Except NumericFault (Option Int) :=
  match value with
  | none | some "" => .ok none
  | some value =>
    let text := Text.lower (Text.trim value.toList)
    if !text.isEmpty && text.all Text.isDigitLike then
      if text.all Text.isDecimal && text.length ≤ maxDigits then
        .ok (some (Text.natOfDigits text))
      else .error .undefined
    else
      match String.ofList text with
      | "bold" | "bolder" => .ok (some 700)
      | _ => .ok (some 400)

/-- Large text: at least 18 pixels, or at least 14 pixels and bold.  A text of unknown size is not
large, and an unknown weight, or one of zero, is normal. -/
def isLarge (size : Option Float) (weight : Option Int) : Bool :=
  match size with
  | none => false
  | some x =>
    let weight : Int := match weight with
      | none | some 0 => 400
      | some w => w
    18.0 ≤ x || (14.0 ≤ x && 700 ≤ weight)

end ContrastAudit.Font
