import ContrastAudit.Json.Basic
import ContrastAudit.Number.Decimal
import ContrastAudit.Text.Quoted

/-!
# Writing JSON

Documents are written in ASCII: every other character is escaped, by a pair of surrogates if its
code needs more than four digits.  Numbers have the fewest digits that read back.  Two layouts are
offered, one on a single line and one with a line for every item.
-/

namespace ContrastAudit.Json

/-- An escape of four hexadecimal digits. -/
def unitEscape (n : Nat) : List Char :=
  '\\' :: 'u' :: Text.hexDigits 4 n

/-- One character of a string. -/
def stringChar (c : Char) : List Char :=
  if c = '"' then ['\\', '"']
  else if c = '\\' then ['\\', '\\']
  else if c = '\n' then ['\\', 'n']
  else if c = '\r' then ['\\', 'r']
  else if c = '\t' then ['\\', 't']
  else if c = '\x0c' then ['\\', 'f']
  else if c = '\x08' then ['\\', 'b']
  else if ' ' ≤ c ∧ c ≤ '~' then [c]
  else if c.toNat < 0x10000 then unitEscape c.toNat
  else
    let n := c.toNat - 0x10000
    unitEscape (0xD800 + n / 0x400) ++ unitEscape (0xDC00 + n % 0x400)

/-- A string between quotes. -/
def stringText (s : String) : List Char :=
  '"' :: s.toList.flatMap stringChar ++ ['"']

/-- A fractional number. -/
def floatText (x : Float) : List Char :=
  match Number.parts x with
  | .finite .. => (Number.exact x).toList
  | .infinite false => "Infinity".toList
  | .infinite true => "-Infinity".toList
  | .notANumber => "NaN".toList

/-- A line break and the indentation of a level. -/
def lineBreak (level : Nat) : List Char :=
  '\n' :: List.replicate (2 * level) ' '

mutual

/-- A value on one line. -/
def line : Json → List Char
  | .null => "null".toList
  | .bool b => (if b then "true" else "false").toList
  | .int n => (toString n).toList
  | .float x => floatText x
  | .string s => stringText s
  | .array items => '[' :: lineItems items ++ [']']
  | .object fields => '\x7b' :: lineFields fields ++ ['\x7d']

/-- The items of an array on one line. -/
def lineItems : List Json → List Char
  | [] => []
  | [item] => line item
  | item :: items => line item ++ ',' :: lineItems items

/-- The fields of an object on one line. -/
def lineFields : List (String × Json) → List Char
  | [] => []
  | [(name, value)] => stringText name ++ ':' :: line value
  | (name, value) :: fields => stringText name ++ ':' :: line value ++ ',' :: lineFields fields

end

mutual

/-- A value that starts at a level of indentation of two blanks each, an item or field a line. -/
def block (level : Nat) : Json → List Char
  | .array [] => ['[', ']']
  | .array items => '[' :: blockItems (level + 1) items ++ lineBreak level ++ [']']
  | .object [] => ['\x7b', '\x7d']
  | .object fields => '\x7b' :: blockFields (level + 1) fields ++ lineBreak level ++ ['\x7d']
  | value => line value

/-- The items of an array, a line each. -/
def blockItems (level : Nat) : List Json → List Char
  | [] => []
  | [item] => lineBreak level ++ block level item
  | item :: items => lineBreak level ++ block level item ++ ',' :: blockItems level items

/-- The fields of an object, a line each. -/
def blockFields (level : Nat) : List (String × Json) → List Char
  | [] => []
  | [(name, value)] => lineBreak level ++ stringText name ++ ':' :: ' ' :: block level value
  | (name, value) :: fields =>
    lineBreak level ++ stringText name ++ ':' :: ' ' :: block level value ++
      ',' :: blockFields level fields

end

/-- A document on one line. -/
def compact (document : Json) : String :=
  String.ofList document.line

/-- A document with a line for every item. -/
def pretty (document : Json) : String :=
  String.ofList (document.block 0)

end ContrastAudit.Json
