import ContrastAudit.Text.Hexadecimal
import ContrastAudit.Yaml.Source

/-!
# Scalars of several lines

The texts of scalars, with and without quotes.  A line break inside of a scalar counts as a space
together with the spaces around it; of several line breaks the first one does not count.
-/

namespace ContrastAudit.Yaml

/-- What some line breaks count as. -/
def fold : List Char → List Char
  | [] => []
  | ['\n'] => [' ']
  | '\n' :: breaks => breaks
  | breaks => breaks

/-- A line break as it is kept. -/
def keptBreak (c : Char) : Char :=
  if c = '\u0085' then '\n' else c

/-- The line breaks in a run of blanks, the number of characters in the run, and whether a document
starts or ends at the start of one of its lines. -/
def breaksIn (isBlank : Char → Bool) : List Char → List Char × Nat × Bool
  | [] => ([], 0, false)
  | c :: cs =>
    if isBreak c then
      if Source.startsMarker '-' cs || Source.startsMarker '.' cs then ([keptBreak c], 1, true)
      else
        let (breaks, count, marked) := breaksIn isBlank cs
        (keptBreak c :: breaks, count + 1, marked)
    else if isBlank c then
      let (breaks, count, marked) := breaksIn isBlank cs
      (breaks, count + 1, marked)
    else ([], 0, false)

/-! ## Plain scalars -/

/-- Whether a character has a meaning in flow collections. -/
def isFlowSign (c : Char) : Bool :=
  [',', '[', ']', '\x7b', '\x7d'].contains c

/-- The characters that may not start a plain scalar without more ado. -/
def indicators : List Char :=
  ['-', '?', ':', ',', '[', ']', '\x7b', '\x7d', '#', '&', '*', '!', '|', '>', '\'', '"', '%', '@',
   '\x60']

/-- Whether a plain scalar starts here. -/
def startsPlain (flow : Bool) : List Char → Bool
  | [] => false
  | c :: cs =>
    !(isSeparator c || indicators.contains c) ||
      (!Source.isSeparated cs && (c == '-' || (!flow && (c == '?' || c == ':'))))

/-- The number of characters of the word of a plain scalar at the start of a text. -/
def wordLength (flow : Bool) : List Char → Nat
  | [] => 0
  | c :: cs =>
    if isSeparator c then 0
    else if flow && (isFlowSign c || c == '?') then 0
    else if c == ':' && (Source.isSeparated cs || (flow && cs.head?.any isFlowSign)) then 0
    else wordLength flow cs + 1

/-- The text of a plain scalar, and what is behind it and the blanks after it.  Further lines start
at the column `least` or behind it.  `seen` is the text up to here with what stands between it and
the next word, both reversed; at most `fuel` words follow. -/
def plainFrom (flow : Bool) (least : Nat) (fuel : Nat) (seen : List Char) (s : Source) :
    List Char × Source :=
  match fuel with
  | 0 => (seen, s)
  | fuel + 1 =>
    let count := wordLength flow s.rest
    let seen := (s.rest.take count).reverse ++ seen
    let s := s.advance count
    let spaces := s.rest.takeWhile (· == ' ')
    let (breaks, blanks, marked) := breaksIn (· == ' ') s.rest
    let behind := s.advance blanks
    let between := if breaks.isEmpty then spaces else fold breaks
    if between.isEmpty || marked || behind.rest.head? == some '#' ||
        (!flow && !breaks.isEmpty && behind.column < least) ||
        wordLength flow behind.rest == 0 then
      (seen, behind)
    else plainFrom flow least fuel (between.reverse ++ seen) behind

/-- The text of a plain scalar, and what is behind it and the blanks after it. -/
def plain (flow : Bool) (least : Nat) (s : Source) : String × Source :=
  let (seen, behind) := plainFrom flow least s.rest.length [] s
  (String.ofList seen.reverse, behind)

/-! ## Quoted scalars -/

/-- What the letter of an escape stands for. -/
def escapes : List (Char × Char) :=
  [('0', '\x00'), ('a', '\x07'), ('b', '\x08'), ('t', '\t'), ('\t', '\t'), ('n', '\n'),
   ('v', '\x0b'), ('f', '\x0c'), ('r', '\r'), ('e', '\x1b'), (' ', ' '), ('"', '"'), ('\\', '\\'),
   ('/', '/'), ('N', '\u0085'), ('_', '\u00a0'), ('L', '\u2028'), ('P', '\u2029')]

/-- How many hexadecimal digits follow the letter of an escape. -/
def codeLengths : List (Char × Nat) :=
  [('x', 2), ('u', 4), ('U', 8)]

/-- The character of an escape and the number of its characters behind the backslash. -/
def escape? : List Char → Option (Char × Nat)
  | [] => none
  | c :: cs =>
    match escapes.lookup c, codeLengths.lookup c with
    | some value, _ => some (value, 1)
    | none, some count =>
      let ds := cs.take count
      if ds.length = count && ds.all Text.isHexDigit then
        some (Char.ofNat (Text.natOfHex ds), count + 1)
      else none
    | none, none => none

/-- Whether a character is a space or a tab. -/
def isSpace (c : Char) : Bool :=
  c == ' ' || c == '\t'

/-- The text up to the closing quote and what is behind it; `seen` is the text up to here,
reversed, and at most `fuel` steps follow. -/
def quotedFrom (quote : Char) (fuel : Nat) (seen : List Char) (s : Source) :
    Except ReadError (List Char × Source) :=
  match fuel, s.rest with
  | 0, _ | _, [] => s.refuse
  | fuel + 1, c :: cs =>
    if c = quote then
      if quote = '\'' ∧ cs.head? = some '\'' then quotedFrom quote fuel ('\'' :: seen) (s.advance 2)
      else .ok (seen, s.next)
    else if isSpace c || isBreak c then
      let spaces := s.rest.takeWhile isSpace
      let (breaks, blanks, marked) := breaksIn isSpace s.rest
      let between := if breaks.isEmpty then spaces else fold breaks
      if marked then (s.advance blanks).refuse
      else quotedFrom quote fuel (between.reverse ++ seen) (s.advance blanks)
    else if quote = '"' ∧ c = '\\' then
      if cs.head?.any isBreak then
        let (breaks, blanks, marked) := breaksIn isSpace cs
        if marked then (s.advance (blanks + 1)).refuse
        else quotedFrom quote fuel ((breaks.drop 1).reverse ++ seen) (s.advance (blanks + 1))
      else
        match escape? cs with
        | some (value, count) => quotedFrom quote fuel (value :: seen) (s.advance (count + 1))
        | none => s.refuse
    else quotedFrom quote fuel (c :: seen) s.next

/-- The text of a scalar whose opening quote stands here, and what is behind it. -/
def quoted (quote : Char) (s : Source) : Except ReadError (String × Source) := do
  let (seen, behind) ← quotedFrom quote (s.rest.length + 1) [] s.next
  return (String.ofList seen.reverse, behind)

end ContrastAudit.Yaml
