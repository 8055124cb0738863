import ContrastAudit.Text.Blank
import ContrastAudit.Text.Range

/-!
# Start tags

A start tag is a name and attributes up to a closing angle bracket.  Attributes follow blanks,
slashes or the quote of the attribute before; each is a name, or a name and a value between which
stand one or more equals signs.  A value is enclosed in quotes of one kind, or it lasts until a
blank or the angle bracket.

A quote that is never closed is no quote.  If a blank stands between it and the equals sign, the
value is empty and the quote starts the next name; else, if there are several equals signs, the last
one of them starts the value; else the name has no value.

**Results.**
* `append_of_attributes`: the attributes and what follows them make up the text.
-/

namespace ContrastAudit.Markup.StartTag

/-- An attribute as it is written, without the quotes around its value. -/
structure Attribute where
  name : List Char
  value : Option (List Char)
  deriving DecidableEq, Repr

/-- Whether a character belongs to the name of a tag. -/
def isTagChar (c : Char) : Bool :=
  !(c == '\t' || c == '\n' || c == '\r' || c == '\x0c' || c == ' ' || c == '/' || c == '>' ||
    c == '\x00')

/-- The number of blanks and slashes at the start of a text, without a slash that closes the tag. -/
def gapLength : List Char → Nat
  | [] => 0
  | c :: cs =>
    if Text.isBlank c || (c == '/' && cs.head? != some '>') then 1 + gapLength cs else 0

/-- Whether a character is a quote. -/
def isQuote (c : Char) : Bool :=
  c == '"' || c == '\''

/-- Whether an attribute may start with `c` behind the character `before`. -/
def startsAttribute (before c : Char) : Bool :=
  (isQuote before || Text.isBlank before || before == '/') &&
    !(Text.isBlank c || c == '/' || c == '>')

/-- The text between the quote that starts a text and the next such quote. -/
def quoted? : List Char → Option (List Char)
  | [] => none
  | q :: cs =>
    let inside := cs.takeWhile (· != q)
    if isQuote q && inside.length < cs.length then some inside else none

/-- The bare value at the start of a text. -/
def bare (cs : List Char) : List Char :=
  cs.takeWhile fun c => !(Text.isBlank c || c == '>')

/-- The value behind the name of an attribute, with the number of characters up to its end. -/
def value? (cs : List Char) : Option (List Char × Nat) :=
  let lead := (cs.takeWhile Text.isBlank).length
  let signs := ((cs.drop lead).takeWhile (· == '=')).length
  let behind := cs.drop (lead + signs)
  let gap := (behind.takeWhile Text.isBlank).length
  let text := behind.drop gap
  if signs = 0 then none
  else
    match quoted? text with
    | some inside => some (inside, lead + signs + gap + inside.length + 2)
    | none =>
      if !text.head?.any isQuote then some (bare text, lead + signs + gap + (bare text).length)
      else if gap ≠ 0 then some ([], lead + signs + gap - 1)
      else if signs ≠ 1 then some ('=' :: bare text, lead + signs + (bare text).length)
      else none

/-- The attribute that starts with `c`, with the number of characters behind `c` up to the next
attribute. -/
def attributeFrom (c : Char) (cs : List Char) : Attribute × Nat :=
  let name := cs.takeWhile fun c => !(Text.isBlank c || c == '/' || c == '=' || c == '>')
  let rest := cs.drop name.length
  let value := value? rest
  let length := match value with
    | some (_, length) => length
    | none => 0
  (⟨c :: name, value.map (·.1)⟩, name.length + length + gapLength (rest.drop length))

/-- The attributes at the start of a text that stands behind the character `before`, and the
rest. -/
def attributes (before : Char) (cs : List Char) : List Attribute × List Char :=
  match cs with
  | [] => ([], [])
  | c :: cs =>
    if startsAttribute before c then
      let (first, length) := attributeFrom c cs
      let (more, rest) := attributes ((cs.take length).getLast?.getD c) (cs.drop length)
      (first :: more, rest)
    else ([], c :: cs)
termination_by cs.length

theorem append_of_attributes (before : Char) (cs : List Char) :
    ∃ consumed, cs = consumed ++ (attributes before cs).2 := by
  fun_induction attributes before cs with
  | case1 => exact ⟨[], rfl⟩
  | case2 before c cs _ a length ha more rest hr ih =>
    obtain ⟨consumed, h⟩ := ih
    refine ⟨c :: cs.take length ++ consumed, ?_⟩
    rw [hr] at h
    simp [← h]
  | case3 => exact ⟨[], rfl⟩

/-- How a start tag ends. -/
inductive Ending
  /-- With an angle bracket, or a slash and one; the length is that of the whole tag. -/
  | complete (attributes : List Attribute) (closed : Bool) (length : Nat)
  /-- Not at all. -/
  | incomplete
  /-- Before a character that cannot stand in a tag. -/
  | broken (length : Nat)
  deriving DecidableEq, Repr

/-- The name of a tag, given the text behind the angle bracket. -/
def name (cs : List Char) : List Char :=
  cs.takeWhile isTagChar

/-- How the tag whose name is at the start of a text ends; the lengths do not count the angle
bracket that opens it. -/
def ending (cs : List Char) : Ending :=
  let name := name cs
  let gap := gapLength (cs.drop name.length)
  let lead := cs.take (name.length + gap)
  let (attributes, rest) := attributes (lead.getLast?.getD '<') (cs.drop lead.length)
  let length := cs.length - rest.length
  match rest with
  | '>' :: _ => .complete attributes false (length + 1)
  | '/' :: '>' :: _ => .complete attributes true (length + 2)
  | [] => .incomplete
  | c :: _ => if Text.isAsciiLetter c || c == '=' || c == '/' then .incomplete else .broken length

end ContrastAudit.Markup.StartTag
