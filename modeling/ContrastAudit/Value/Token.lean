import ContrastAudit.Text.Blank
import ContrastAudit.Text.Digit
import ContrastAudit.Text.Range
import ContrastAudit.Value.Component

/-!
# Tokens of component values

A value is cut into tokens from left to right.  At every place the kinds of tokens are tried in a
fixed order and the first that fits is taken, however long it is: the start of a function, a
number, a word, a string, a hash, white space, and single characters.  A lone `#` and a quote that
is never closed start no token.

Every rule measures how many characters it takes, and takes none where it does not fit.

**Results.**
* `append_of_scan`, `length_lt_of_scan`: a token is a nonempty piece of the text.
* `text_tokens`: the tokens of a text put together are the text up to the place where no token
  starts.
-/

namespace ContrastAudit

/-- What a token opens, closes or is. -/
inductive TokenKind
  | function
  | opening
  | closing
  | leaf (kind : LeafKind)
  deriving DecidableEq, Repr

/-- A token with its characters. -/
structure Token where
  kind : TokenKind
  chars : List Char
  deriving DecidableEq, Repr

namespace Token

/-- The length of the run of characters of a class at the start of a text. -/
def run (p : Char → Bool) (cs : List Char) : Nat :=
  (cs.takeWhile p).length

/-- The length of `front` plus what a rule takes after it, or nothing if the rule takes nothing. -/
def after (front taken : Nat) : Nat :=
  if taken = 0 then 0 else front + taken

/-- A name: a letter or an underscore, then name characters. -/
def nameLength : List Char → Nat
  | [] => 0
  | c :: cs => if Text.isNameStart c then 1 + run Text.isNameChar cs else 0

/-- The start of a function: at most two hyphens, a name, and an opening parenthesis. -/
def functionLength (cs : List Char) : Nat :=
  let hyphens := run (· == '-') cs
  let name := nameLength (cs.drop hyphens)
  if hyphens ≤ 2 && name != 0 && (cs.drop (hyphens + name)).head? == some '(' then
    hyphens + name + 1
  else 0

/-- A decimal: digits with an optional point and more digits, or a point and digits. -/
def decimalLength (cs : List Char) : Nat :=
  let whole := run Text.isDecimal cs
  match cs.drop whole with
  | '.' :: rest =>
    let fraction := run Text.isDecimal rest
    if whole = 0 && fraction = 0 then 0 else whole + 1 + fraction
  | _ => whole

/-- A unit: a percent sign or letters, if there are any. -/
def unitLength : List Char → Nat
  | '%' :: _ => 1
  | cs => run Text.isAsciiLetter cs

/-- A sign, if there is one. -/
def signLength : List Char → Nat
  | '+' :: _ | '-' :: _ => 1
  | _ => 0

/-- A number: an optional sign, a decimal and an optional unit. -/
def numberLength (cs : List Char) : Nat :=
  let sign := signLength cs
  let decimal := decimalLength (cs.drop sign)
  if decimal = 0 then 0 else sign + decimal + unitLength (cs.drop (sign + decimal))

/-- A word: two hyphens and at least one name character, or an optional hyphen and a name. -/
def wordLength (cs : List Char) : Nat :=
  let custom := match cs with
    | '-' :: '-' :: rest => after 2 (run Text.isNameChar rest)
    | _ => 0
  if custom ≠ 0 then custom
  else
    match cs with
    | '-' :: rest => after 1 (nameLength rest)
    | cs => nameLength cs

/-- The rest of a string up to its closing quote; a backslash takes the next character, which must
not be a line break. -/
def stringRest (quote : Char) : List Char → Nat
  | [] => 0
  | c :: cs =>
    if c = quote then 1
    else if c = '\\' then
      match cs with
      | [] => 0
      | d :: ds => if d = '\n' then 0 else after 2 (stringRest quote ds)
    else after 1 (stringRest quote cs)

/-- A string between two quotes of one kind. -/
def stringLength : List Char → Nat
  | c :: cs => if c = '"' ∨ c = '\'' then after 1 (stringRest c cs) else 0
  | [] => 0

/-- A hash: the sign and at least one name character. -/
def hashLength : List Char → Nat
  | '#' :: cs => after 1 (run Text.isNameChar cs)
  | _ => 0

/-- The kind of a single character that is a token of its own. -/
def single? (c : Char) : Option TokenKind :=
  if c = '(' then some .opening
  else if c = ')' then some .closing
  else if c = ',' then some (.leaf .comma)
  else if c = '/' then some (.leaf .slash)
  else if c = '"' ∨ c = '\'' ∨ c = '#' ∨ Text.isBlank c then none
  else some (.leaf .delimiter)

/-- The kind and the length of the token at the start of a text. -/
def classify (cs : List Char) : Option (TokenKind × Nat) :=
  if functionLength cs ≠ 0 then some (.function, functionLength cs)
  else if numberLength cs ≠ 0 then some (.leaf .number, numberLength cs)
  else if wordLength cs ≠ 0 then some (.leaf .word, wordLength cs)
  else if stringLength cs ≠ 0 then some (.leaf .string, stringLength cs)
  else if hashLength cs ≠ 0 then some (.leaf .hash, hashLength cs)
  else if run Text.isBlank cs ≠ 0 then some (.leaf .space, run Text.isBlank cs)
  else (cs.head?.bind single?).map fun kind => (kind, 1)

/-- The token at the start of a text, and the rest. -/
def scan (cs : List Char) : Option (Token × List Char) :=
  match cs, classify cs with
  | [], _ | _, none | _, some (_, 0) => none
  | _ :: _, some (kind, n + 1) => some (⟨kind, cs.take (n + 1)⟩, cs.drop (n + 1))

theorem append_of_scan {cs rest : List Char} {t : Token} (h : scan cs = some (t, rest)) :
    cs = t.chars ++ rest := by
  unfold scan at h
  split at h <;> try contradiction
  cases h
  simp

theorem length_lt_of_scan {cs rest : List Char} {t : Token} (h : scan cs = some (t, rest)) :
    rest.length < cs.length := by
  unfold scan at h
  split at h <;> try contradiction
  cases h
  rw [List.length_drop, List.length_cons]
  omega

/-- The tokens of a text from left to right, and the rest in which no token starts. -/
def tokens (cs : List Char) : List Token × List Char :=
  match h : scan cs with
  | none => ([], cs)
  | some (t, rest) =>
    have := length_lt_of_scan h
    (t :: (tokens rest).1, (tokens rest).2)
termination_by cs.length

/-- Tokens as they are written. -/
def text (ts : List Token) : List Char :=
  ts.flatMap chars

theorem text_tokens (cs : List Char) : text (tokens cs).1 ++ (tokens cs).2 = cs := by
  fun_induction tokens cs with
  | case1 cs h => simp [text]
  | case2 cs t rest h _ ih =>
    conv => rhs; rw [append_of_scan h, ← ih]
    simp [text]

end Token

end ContrastAudit
