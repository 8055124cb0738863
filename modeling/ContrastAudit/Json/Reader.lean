import ContrastAudit.Json.Basic
import ContrastAudit.Number.Decimal
import ContrastAudit.Text.Hexadecimal
import ContrastAudit.Text.Position
import ContrastAudit.Text.Range

/-!
# Reading JSON

A strict reader with three extra words, `NaN`, `Infinity` and `-Infinity`.  Of two fields with one
name the later value counts.  A text that is no document is refused at the first place where it
cannot go on.  A whole number of more than 4300 digits is refused on its own, since such a number is
well-formed but never meant.

**Results.**
* `offset_le_of_parse`: the place of an error lies in the text.
-/

namespace ContrastAudit.Json

/-- What is wrong at the place of an error. -/
inductive Problem
  | byteOrderMark
  | value
  | propertyName
  | colon
  | comma
  | unterminatedString
  | controlCharacter
  | escape
  | unicodeEscape
  | extraData
  deriving DecidableEq, Repr

/-- The problem in words. -/
def Problem.text : Problem → String
  | .byteOrderMark => "Unexpected UTF-8 BOM (decode using utf-8-sig)"
  | .value => "Expecting value"
  | .propertyName => "Expecting property name enclosed in double quotes"
  | .colon => "Expecting ':' delimiter"
  | .comma => "Expecting ',' delimiter"
  | .unterminatedString => "Unterminated string starting at"
  | .controlCharacter => "Invalid control character at"
  | .escape => "Invalid \\escape"
  | .unicodeEscape => "Invalid \\uXXXX escape"
  | .extraData => "Extra data"

/-- Why a text is refused.  While a text is read, the place of a problem is the number of characters
from there on. -/
inductive Stop
  | problem (problem : Problem) (left : Nat)
  | longNumber
  deriving DecidableEq, Repr

/-- Why a text is refused, and where. -/
inductive ReadError
  | malformed (problem : Problem) (position : Position) (offset : Nat)
  | longNumber
  deriving DecidableEq, Repr

/-- The error in words. -/
def ReadError.message : ReadError → String
  | .malformed problem position offset =>
    problem.text ++ ": line " ++ toString position.line ++ " column " ++
      toString position.column ++ " (char " ++ toString offset ++ ")"
  | .longNumber => "Number with too many digits"

/-- The most digits of a whole number. -/
def maxDigits : Nat := 4300

/-- A problem at the start of a text. -/
def stopAt (problem : Problem) (cs : List Char) : Except Stop α :=
  .error (.problem problem cs.length)

/-- White space between the elements of a document. -/
def skipSpace (cs : List Char) : List Char :=
  cs.dropWhile fun c => c == ' ' || c == '\t' || c == '\n' || c == '\r'

/-- Four hexadecimal digits as a number, and the rest. -/
def hex4? (cs : List Char) : Option (Nat × List Char) :=
  let digits := cs.take 4
  if digits.length = 4 ∧ digits.all Text.isHexDigit then some (Text.natOfHex digits, cs.drop 4)
  else none

/-- The code of an escape, given the text behind its `u`; a string does not end with it. -/
def code (cs : List Char) : Except Stop (Nat × List Char) :=
  match hex4? cs with
  | some (n, c :: rest) => .ok (n, c :: rest)
  | _ => .error (.problem .unicodeEscape (cs.length + 1))

/-- The character of an escape, given the text behind its `u`.  The escape may be a pair of
surrogates; a surrogate on its own stands for no character and is replaced. -/
def unicodeEscape (cs : List Char) : Except Stop (Char × List Char) := do
  let (high, rest) ← code cs
  if 0xD800 ≤ high ∧ high < 0xDC00 then
    match rest with
    | '\\' :: 'u' :: more =>
      if more.length < 5 then return ('\uFFFD', rest)
      else
        let (low, after) ← code more
        if 0xDC00 ≤ low ∧ low < 0xE000 then
          return (Char.ofNat (0x10000 + (high - 0xD800) * 0x400 + (low - 0xDC00)), after)
        else return ('\uFFFD', rest)
    | _ => return ('\uFFFD', rest)
  else if 0xDC00 ≤ high ∧ high < 0xE000 then return ('\uFFFD', rest)
  else return (Char.ofNat high, rest)

/-- The character that a letter behind a backslash stands for. -/
def escaped? : Char → Option Char
  | '"' => some '"'
  | '\\' => some '\\'
  | '/' => some '/'
  | 'b' => some '\x08'
  | 'f' => some '\x0c'
  | 'n' => some '\n'
  | 'r' => some '\r'
  | 't' => some '\t'
  | _ => none

/-- The rest of a string behind its opening quote.  `seen` holds its characters, last one first;
`whole` counts the characters from the quote on. -/
def stringFrom (fuel whole : Nat) (seen : List Char) (cs : List Char) :
    Except Stop (String × List Char) :=
  match fuel with
  | 0 => .error (.problem .unterminatedString whole)
  | fuel + 1 =>
    match cs with
    | [] => .error (.problem .unterminatedString whole)
    | '"' :: cs => .ok (String.ofList seen.reverse, cs)
    | ['\\'] => .error (.problem .unterminatedString whole)
    | '\\' :: 'u' :: cs => do
      let (c, rest) ← unicodeEscape cs
      stringFrom fuel whole (c :: seen) rest
    | '\\' :: c :: rest =>
      match escaped? c with
      | some c => stringFrom fuel whole (c :: seen) rest
      | none => stopAt .escape cs
    | c :: rest =>
      if c.toNat < 0x20 then stopAt .controlCharacter cs else stringFrom fuel whole (c :: seen) rest

/-- The string whose opening quote stands before a text, and the rest. -/
def quotedString (cs : List Char) : Except Stop (String × List Char) :=
  stringFrom cs.length.succ cs.length.succ [] cs

/-- The digits at the start of a text and the rest. -/
def digitRun (cs : List Char) : List Char × List Char :=
  (cs.takeWhile Text.isAsciiDigit, cs.dropWhile Text.isAsciiDigit)

/-- A fraction: a point and at least one digit. -/
def fraction? : List Char → Option (List Char × List Char)
  | '.' :: cs => if (digitRun cs).1.isEmpty then none else some (digitRun cs)
  | _ => none

/-- A power of ten: the letter, an optional sign and at least one digit. -/
def power? : List Char → Option (Int × List Char)
  | c :: cs =>
    if c = 'e' ∨ c = 'E' then
      let (negative, cs) := match cs with
        | '-' :: cs => (true, cs)
        | '+' :: cs => (false, cs)
        | cs => (false, cs)
      let (ds, rest) := digitRun cs
      if ds.isEmpty then none
      else
        let k : Int := Text.natOfDigits ds
        some (if negative then -k else k, rest)
    else none
  | [] => none

/-- A number at the start of a text that starts with a digit, and the rest. -/
def number (negative : Bool) (cs : List Char) : Except Stop (Json × List Char) :=
  let (whole, rest) := match cs with
    | '0' :: cs => (['0'], cs)
    | cs => digitRun cs
  let fraction := fraction? rest
  let afterFraction := match fraction with
    | some (_, rest) => rest
    | none => rest
  let power := power? afterFraction
  if fraction.isNone && power.isNone then
    if maxDigits < whole.length then .error .longNumber
    else
      let n : Int := Text.natOfDigits whole
      .ok (.int (if negative then -n else n), rest)
  else
    let ds := (fraction.map (·.1)).getD []
    let k := (power.map (·.1)).getD 0
    let x := Number.ofDecimal (Text.natOfDigits (whole ++ ds)) (k - ds.length)
    let rest := match power with
      | some (_, rest) => rest
      | none => afterFraction
    .ok (.float (if negative then -x else x), rest)

/-- The words of the format, with their values. -/
def words : List (String × Json) :=
  [("null", .null), ("true", .bool true), ("false", .bool false), ("NaN", .float (0.0 / 0.0)),
   ("Infinity", .float (1.0 / 0.0)), ("-Infinity", .float (-1.0 / 0.0))]

/-- A word or a number, and the rest. -/
def atom (cs : List Char) : Except Stop (Json × List Char) :=
  match words.find? fun w => w.1.toList.isPrefixOf cs with
  | some (word, value) => .ok (value, cs.drop word.length)
  | none =>
    match cs with
    | '-' :: c :: rest =>
      if Text.isAsciiDigit c then number true (c :: rest) else stopAt .value cs
    | c :: rest => if Text.isAsciiDigit c then number false (c :: rest) else stopAt .value cs
    | [] => stopAt .value cs

mutual

/-- A value at the start of a text, and the rest; `fuel` bounds the number of steps. -/
def value (fuel : Nat) (cs : List Char) : Except Stop (Json × List Char) :=
  match fuel with
  | 0 => stopAt .value cs
  | fuel + 1 =>
    match cs with
    | '"' :: cs => do
      let (s, rest) ← quotedString cs
      return (.string s, rest)
    | '[' :: cs =>
      match skipSpace cs with
      | ']' :: rest => .ok (.array [], rest)
      | cs => items fuel [] cs
    | '\x7b' :: cs =>
      match skipSpace cs with
      | '\x7d' :: rest => .ok (.object [], rest)
      | cs => fields fuel [] cs
    | cs => atom cs

/-- The items of an array up to its closing bracket; `seen` holds the earlier ones, last first. -/
def items (fuel : Nat) (seen : List Json) (cs : List Char) : Except Stop (Json × List Char) :=
  match fuel with
  | 0 => stopAt .value cs
  | fuel + 1 => do
    let (item, rest) ← value fuel cs
    match skipSpace rest with
    | ',' :: rest => items fuel (item :: seen) (skipSpace rest)
    | ']' :: rest => return (.array (item :: seen).reverse, rest)
    | rest => stopAt .comma rest

/-- The fields of an object up to its closing brace; `seen` holds the earlier ones. -/
def fields (fuel : Nat) (seen : List (String × Json)) (cs : List Char) :
    Except Stop (Json × List Char) :=
  match fuel with
  | 0 => stopAt .propertyName cs
  | fuel + 1 =>
    match cs with
    | '"' :: cs => do
      let (name, rest) ← quotedString cs
      match skipSpace rest with
      | ':' :: rest =>
        let (item, rest) ← value fuel (skipSpace rest)
        let seen := setField name item seen
        match skipSpace rest with
        | ',' :: rest => fields fuel seen (skipSpace rest)
        | '\x7d' :: rest => return (.object seen, rest)
        | rest => stopAt .comma rest
      | rest => stopAt .colon rest
    | cs => stopAt .propertyName cs

end

/-- The document that a text writes, with the place of a problem counted from the end. -/
def document (cs : List Char) : Except Stop Json :=
  if cs.head? = some '\uFEFF' then stopAt .byteOrderMark cs
  else do
    let (document, rest) ← value (2 * cs.length + 2) (skipSpace cs)
    if (skipSpace rest).isEmpty then return document else stopAt .extraData (skipSpace rest)

/-- The document that a text writes. -/
def parse (text : String) : Except ReadError Json :=
  match document text.toList with
  | .ok document => .ok document
  | .error .longNumber => .error .longNumber
  | .error (.problem problem left) =>
    let offset := text.toList.length - left
    .error (.malformed problem (Position.start.after (text.toList.take offset)) offset)

theorem offset_le_of_parse {text : String} {problem : Problem} {position : Position} {offset : Nat}
    (h : parse text = .error (.malformed problem position offset)) :
    offset ≤ text.toList.length := by
  unfold parse at h
  split at h
  · contradiction
  · simp at h
  · cases h
    exact Nat.sub_le _ _

end ContrastAudit.Json
