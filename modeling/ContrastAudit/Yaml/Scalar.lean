import ContrastAudit.Json.Basic
import ContrastAudit.Number.Decimal
import ContrastAudit.Text.Cut
import ContrastAudit.Text.Digit
import ContrastAudit.Text.Hexadecimal

/-!
# Plain scalars

A scalar without quotes is null, a truth value or a number if it has the form of one, and a text
otherwise.  Whole numbers may be written with base two, eight, ten, sixteen or sixty, and
underscores in them do not count.
-/

namespace ContrastAudit.Yaml

/-- The words for null. -/
def nullWords : List String :=
  ["", "~", "null", "Null", "NULL"]

/-- The words for true. -/
def trueWords : List String :=
  ["yes", "Yes", "YES", "true", "True", "TRUE", "on", "On", "ON"]

/-- The words for false. -/
def falseWords : List String :=
  ["no", "No", "NO", "false", "False", "FALSE", "off", "Off", "OFF"]

/-- The words for infinity. -/
def infinityWords : List String :=
  [".inf", ".Inf", ".INF"]

/-- The words for what is no number. -/
def undefinedWords : List String :=
  [".nan", ".NaN", ".NAN"]

/-- A sign and the text behind it. -/
def splitSign : List Char → Bool × List Char
  | '-' :: cs => (true, cs)
  | '+' :: cs => (false, cs)
  | cs => (false, cs)

/-- A text without underscores. -/
def withoutUnderscores (cs : List Char) : List Char :=
  cs.filter (· != '_')

/-- Digits of a base with underscores between them, as a number. -/
def inBase? (base : Nat) (cs : List Char) : Option Nat :=
  let valid (c : Char) : Bool := c == '_' || (Text.hexValue? c).any (· < base)
  if cs.isEmpty || !cs.all valid then none
  else some ((withoutUnderscores cs).foldl (fun n c => base * n + (Text.hexValue? c).getD 0) 0)

/-- Whether a text is a number below sixty of at most two digits. -/
def isSixtieth : List Char → Bool
  | [d] => Text.isAsciiDigit d
  | [t, d] => '0' ≤ t && t ≤ '5' && Text.isAsciiDigit d
  | _ => false

/-- A whole number with base sixty: a decimal number and then numbers below sixty, with colons
between them. -/
def sexagesimal? (cs : List Char) : Option Nat :=
  match Text.pieces ':' cs with
  | first :: second :: more =>
    if (second :: more).all isSixtieth then do
      let n ← inBase? 10 first
      return (second :: more).foldl (fun n part => 60 * n + Text.natOfDigits part) n
    else none
  | _ => none

/-- The whole number that an unsigned text writes. -/
def magnitude? : List Char → Option Nat
  | ['0'] => some 0
  | '0' :: 'b' :: cs => inBase? 2 cs
  | '0' :: 'x' :: cs => inBase? 16 cs
  | '0' :: cs => inBase? 8 cs
  | '_' :: _ => none
  | cs => (inBase? 10 cs).orElse fun _ => sexagesimal? cs

/-- The whole number that a text writes. -/
def whole? (cs : List Char) : Option Int :=
  let (negative, cs) := splitSign cs
  (magnitude? cs).map fun n => if negative then -(n : Int) else n

/-- Whether a text is nothing, or the letter of a power of ten, a sign and digits. -/
def isPower : List Char → Bool
  | [] => true
  | e :: sign :: ds =>
    (e == 'e' || e == 'E') && (sign == '+' || sign == '-') && !ds.isEmpty &&
      ds.all Text.isAsciiDigit
  | [_] => false

/-- Whether a text is digits and underscores, a point, and then digits, underscores and a power of
ten.  Without digits in front of the point there is no sign, and a digit follows. -/
def isFraction (signed : Bool) (cs : List Char) : Bool :=
  let isPlace (c : Char) : Bool := Text.isAsciiDigit c || c == '_'
  match Text.cut '.' cs with
  | none => false
  | some (whole, rest) =>
    let starts (cs : List Char) : Bool := (cs.head?).any Text.isAsciiDigit
    whole.all isPlace && isPower (rest.dropWhile isPlace) &&
      (starts whole || (whole.isEmpty && !signed && starts rest))

/-- The fractional number that a text writes. -/
def fractional? (cs : List Char) : Option Float :=
  let (negative, unsigned) := splitSign cs
  let signed := unsigned.length < cs.length
  if infinityWords.contains (String.ofList unsigned) then
    some (if negative then -(1.0 / 0.0) else 1.0 / 0.0)
  else if undefinedWords.contains (String.ofList cs) then some (0.0 / 0.0)
  else if isFraction signed unsigned then
    Number.ofText? (String.ofList (withoutUnderscores cs))
  else none

/-- The value of a plain scalar. -/
def resolve (text : String) : Json :=
  if nullWords.contains text then .null
  else if trueWords.contains text then .bool true
  else if falseWords.contains text then .bool false
  else
    match whole? text.toList, fractional? text.toList with
    | some n, _ => .int n
    | none, some x => .float x
    | none, none => .string text

end ContrastAudit.Yaml
