import ContrastAudit.Markup.NamedCharacter
import ContrastAudit.Text.Digit

/-!
# Character references

A reference starts with an ampersand and stands for a character by its code, in decimal or
hexadecimal digits, or by its name.  The final semicolon of a code may be missing, that of a name
only for some names, and such a name is then also found in front of further letters.  What is no
reference stands for itself.

Codes of control characters stand for what the usual code page has in their place, or for nothing;
a code outside of the range of characters stands for the replacement character.  A decimal code of
more than 4300 digits is refused.

**Results.**
* `decode_of_no_ampersand`: a text without ampersands stands for itself.
-/

namespace ContrastAudit.Markup.CharacterReference

/-- The most digits of a decimal code. -/
def maxDigits : Nat := 4300

/-- What the codes from 128 to 159 stand for. -/
def controlCodes : List Nat :=
  [0x20ac, 0x81, 0x201a, 0x192, 0x201e, 0x2026, 0x2020, 0x2021, 0x2c6, 0x2030, 0x160, 0x2039,
   0x152, 0x8d, 0x17d, 0x8f, 0x90, 0x2018, 0x2019, 0x201c, 0x201d, 0x2022, 0x2013, 0x2014, 0x2dc,
   0x2122, 0x161, 0x203a, 0x153, 0x9d, 0x17e, 0x178]

/-- Whether a code stands for nothing. -/
def isVoidCode (n : Nat) : Bool :=
  (0x1 ≤ n && n ≤ 0x8) || n == 0xb || (0xe ≤ n && n ≤ 0x1f) || n == 0x7f ||
    (0xfdd0 ≤ n && n ≤ 0xfdef) || 0xfffe ≤ n % 0x10000

/-- The text that a code stands for. -/
def codeText (n : Nat) : List Char :=
  if n = 0 ∨ (0xd800 ≤ n ∧ n ≤ 0xdfff) ∨ 0x10ffff < n then ['\uFFFD']
  else if 0x80 ≤ n ∧ n ≤ 0x9f then [Char.ofNat (controlCodes.getD (n - 0x80) n)]
  else if isVoidCode n then []
  else [Char.ofNat n]

/-- What a reference turns out to be. -/
inductive Reading
  /-- Its text and the number of characters behind the ampersand that belong to it. -/
  | text (text : List Char) (length : Nat)
  | tooLong
  | none
  deriving DecidableEq, Repr

/-- The number of semicolons, none or one, that end a reference. -/
def semicolons (cs : List Char) : Nat :=
  if cs.head? = some ';' then 1 else 0

/-- The reading of a reference by code, given the text behind the number sign. -/
def readCode (cs : List Char) : Reading :=
  let decimal := cs.takeWhile Text.isAsciiDigit
  let hexadecimal := cs.tail.takeWhile Text.isHexDigit
  if maxDigits < decimal.length then .tooLong
  else if !decimal.isEmpty then
    .text (codeText (Text.natOfDigits decimal))
      (1 + decimal.length + semicolons (cs.drop decimal.length))
  else if (cs.head? = some 'x' ∨ cs.head? = some 'X') ∧ !hexadecimal.isEmpty then
    .text (codeText (Text.natOfHex hexadecimal))
      (2 + hexadecimal.length + semicolons (cs.drop (1 + hexadecimal.length)))
  else .none

/-- The most characters of a name. -/
def maxName : Nat := 32

/-- Whether a character may stand in a name. -/
def isNameChar (c : Char) : Bool :=
  !(c == '\t' || c == '\n' || c == '\x0c' || c == ' ' || c == '<' || c == '&' || c == '#' ||
    c == ';')

/-- The text for a name that may end in a semicolon. -/
def nameText? (name : List Char) : Option (List Char) :=
  if name.getLast? = some ';' then (NamedCharacter.find? name.dropLast).map (·.text)
  else (NamedCharacter.find? name).bind fun entry => if entry.bare then some entry.text else none

/-- The text for the longest name among the first `length` characters and fewer, down to two, with
the characters behind it. -/
def longestName (name : List Char) : Nat → Option (List Char)
  | length + 3 =>
    match nameText? (name.take (length + 2)) with
    | some text => some (text ++ name.drop (length + 2))
    | none => longestName name (length + 2)
  | _ => none

/-- The reading of a reference by name. -/
def readName (cs : List Char) : Reading :=
  let letters := (cs.takeWhile isNameChar).take maxName
  let name := letters ++ (cs.drop letters.length).take (semicolons (cs.drop letters.length))
  if letters.isEmpty then .none
  else
    match nameText? name with
    | some text => .text text name.length
    | none =>
      match longestName name name.length with
      | some text => .text text name.length
      | none => .text ('&' :: name) name.length

/-- The reading of what stands behind an ampersand. -/
def read (cs : List Char) : Reading :=
  match cs with
  | '#' :: rest => readCode rest
  | _ => readName cs

/-- A text with its references replaced, or nothing if one of them is too long. -/
def decode (cs : List Char) : Option (List Char) :=
  match cs with
  | [] => some []
  | '&' :: cs =>
    match read cs with
    | .text text length => do
      return text ++ (← decode (cs.drop length))
    | .tooLong => none
    | .none => do
      return '&' :: (← decode cs)
  | c :: cs => do
    return c :: (← decode cs)
termination_by cs.length

theorem decode_of_no_ampersand {cs : List Char} (h : '&' ∉ cs) : decode cs = some cs := by
  induction cs with
  | nil => simp [decode]
  | cons c cs ih =>
    simp only [List.mem_cons, not_or] at h
    rw [decode, ih h.2]
    · rfl
    · exact fun heq => h.1 heq.symm

end ContrastAudit.Markup.CharacterReference
