import ContrastAudit.Selector.Basic
import ContrastAudit.Selector.Normal
import ContrastAudit.Text.Range

/-!
# Reading selectors

A selector in normal form is cut into simple selectors and combinators.  Attribute selectors and
pseudo-classes are read and dropped.  A selector is refused where a piece is out of place or none
starts, and, if it ends behind a combinator, at that combinator.

**Results.**
* `append_of_scan`: a piece is a nonempty part of the text.
-/

namespace ContrastAudit

/-- Why and where a selector is refused. -/
structure SelectorError where
  source : String
  position : Position
  deriving DecidableEq, Repr

/-- The error in words. -/
def SelectorError.message (e : SelectorError) : String :=
  "Invalid selector " ++ Text.quoted e.source

namespace Selector

/-- What a piece of a selector says. -/
inductive Meaning
  | tag (name : String)
  | universal
  | class (name : String)
  | id (name : String)
  | dropped
  | combinator (c : Combinator)
  deriving DecidableEq, Repr

/-- A piece of a selector with its characters. -/
structure Piece where
  meaning : Meaning
  chars : List Char
  deriving DecidableEq, Repr

/-! ## Lengths of pieces -/

/-- The length of a tag at the start of a text. -/
def tagLength : List Char → Nat
  | '-' :: c :: cs =>
    if Text.isNameStart c then 2 + (cs.takeWhile Text.isNameChar).length else 0
  | c :: cs => if Text.isNameStart c then 1 + (cs.takeWhile Text.isNameChar).length else 0
  | [] => 0

/-- The length of a run of name characters and escapes; an escape takes any character but a line
break. -/
def nameLength : List Char → Nat
  | [] => 0
  | '\\' :: d :: cs => if d = '\n' then 0 else 2 + nameLength cs
  | c :: cs => if Text.isNameChar c then 1 + nameLength cs else 0

/-- The length of an attribute selector behind its bracket, or zero if it is never closed. -/
def bracketLength (cs : List Char) : Nat :=
  let inside := (cs.takeWhile (· != ']')).length
  if inside < cs.length then inside + 1 else 0

/-- The length of an argument behind its parenthesis up to its own closing one, where parentheses
may be nested once; zero if it is not closed so. -/
def argumentLength (nested : Bool) : List Char → Nat
  | [] => 0
  | c :: cs =>
    let more (rest : Nat) : Nat := if rest = 0 then 0 else rest + 1
    if c = ')' then if nested then more (argumentLength false cs) else 1
    else if c = '(' then if nested then 0 else more (argumentLength true cs)
    else more (argumentLength nested cs)

/-- The length of a pseudo-class or pseudo-element: one or two colons, a name, and an argument if
there is one that is closed. -/
def pseudoLength (cs : List Char) : Nat :=
  let colons := if cs.take 2 = [':', ':'] then 2 else if cs.head? = some ':' then 1 else 0
  let name := ((cs.drop colons).takeWhile Text.isNameChar).length
  if colons = 0 || name = 0 then 0
  else
    match cs.drop (colons + name) with
    | '(' :: rest =>
      let argument := argumentLength false rest
      colons + name + (if argument = 0 then 0 else 1 + argument)
    | _ => colons + name

/-- A name without the backslashes of its escapes. -/
def unescape : List Char → List Char
  | '\\' :: c :: cs => c :: unescape cs
  | c :: cs => c :: unescape cs
  | [] => []

/-! ## Pieces -/

/-- What the piece at the start of a text says, and its length, which may be zero. -/
def classify (cs : List Char) : Option (Meaning × Nat) :=
  match cs with
  | [] => none
  | c :: rest =>
    if c = ' ' then some (.combinator .descendant, 1)
    else if c = '>' then some (.combinator .child, 1)
    else if c = '+' ∨ c = '~' then some (.combinator .sibling, 1)
    else if c = '*' then some (.universal, 1)
    else if c = '.' then
      let n := nameLength rest
      some (.class (String.ofList (unescape (rest.take n))), if n = 0 then 0 else n + 1)
    else if c = '#' then
      let n := nameLength rest
      some (.id (String.ofList (unescape (rest.take n))), if n = 0 then 0 else n + 1)
    else if c = '[' then
      let n := bracketLength rest
      some (.dropped, if n = 0 then 0 else n + 1)
    else if c = ':' then some (.dropped, pseudoLength cs)
    else some (.tag (Text.lowercase (String.ofList (cs.take (tagLength cs)))), tagLength cs)

/-- The piece at the start of a text, and the rest. -/
def scan (cs : List Char) : Option (Piece × List Char) :=
  match cs, classify cs with
  | [], _ | _, none | _, some (_, 0) => none
  | _ :: _, some (meaning, n + 1) => some (⟨meaning, cs.take (n + 1)⟩, cs.drop (n + 1))

theorem append_of_scan {cs rest : List Char} {p : Piece} (h : scan cs = some (p, rest)) :
    cs = p.chars ++ rest := by
  unfold scan at h
  split at h <;> try contradiction
  cases h
  simp

theorem length_lt_of_scan {cs rest : List Char} {p : Piece} (h : scan cs = some (p, rest)) :
    rest.length < cs.length := by
  unfold scan at h
  split at h <;> try contradiction
  cases h
  rw [List.length_drop, List.length_cons]
  omega

/-- The pieces of a text from left to right, and the rest in which no piece starts. -/
def pieces (cs : List Char) : List Piece × List Char :=
  match h : scan cs with
  | none => ([], cs)
  | some (p, rest) =>
    have := length_lt_of_scan h
    (p :: (pieces rest).1, (pieces rest).2)
termination_by cs.length

/-! ## Assembly -/

/-- A compound with one more simple selector. -/
def Meaning.extend (c : Compound) : Meaning → Compound
  | .tag name => { c with tag := some name }
  | .universal => { c with universal := true }
  | .class name => { c with classes := c.classes ++ [name] }
  | .id name => { c with ids := c.ids ++ [name] }
  | .dropped | .combinator _ => c

/-- Assembles pieces.  `context` holds what is complete to the left, `current` the compound under
way if it has begun, `last` and `offset` the numbers of characters before the last and before the
next piece.  An error is the offset at which the selector is refused. -/
def assemble (stuck : Bool) (context : List (Combinator × Compound)) (current : Option Compound)
    (last offset : Nat) : List Piece → Except Nat (Compound × List (Combinator × Compound))
  | [] =>
    if stuck then .error offset
    else
      match current with
      | some target => .ok (target, context)
      | none => .error last
  | p :: ps =>
    let next := offset + p.chars.length
    match p.meaning, current with
    | .combinator c, some left => assemble stuck ((c, left) :: context) none offset next ps
    | .combinator _, none => .error offset
    | simple, current =>
      assemble stuck context (some (simple.extend (current.getD {}))) offset next ps

/-- The target and the context of a selector in normal form, or the offset at which it is
refused. -/
def parseChars (cs : List Char) : Except Nat (Compound × List (Combinator × Compound)) :=
  let (ps, rest) := pieces cs
  assemble (!rest.isEmpty) [] none 0 0 ps

/-- The selector that a text writes. -/
def parse (source : String) : Except SelectorError Selector :=
  let normal := normalChars source.toList
  match parseChars normal with
  | .ok (target, context) => .ok ⟨String.ofList normal, target, context⟩
  | .error offset => .error ⟨source, Position.start.after (normal.take offset)⟩

/-- The selector that a text writes, if it can be read and its target has a constraint; only such
a selector ever applies to an element. -/
def compile? (source : String) : Option Selector :=
  match parse source with
  | .ok s => if s.target.isEmpty then none else some s
  | .error _ => none

end Selector

end ContrastAudit
