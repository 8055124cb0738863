import ContrastAudit.Markup.CharacterReference
import ContrastAudit.Markup.Event
import ContrastAudit.Markup.StartTag
import ContrastAudit.Text.Case
import ContrastAudit.Text.Cut
import ContrastAudit.Text.Fold

/-!
# Scanning marked-up text

A marked-up text is read from left to right, one construct at a time: text up to the next angle
bracket, tags, comments, and declarations, instructions and marked sections, which say nothing.
After the start tag of a script or a style sheet everything is raw text up to the matching end tag;
if there is none, it is dropped.

A construct that is not complete when the text ends is text up to the next closing bracket, or else
up to the next opening bracket.

**Results.**
* `length_rest_lt`: a construct ends behind where it starts, so that scanning goes on.
-/

namespace ContrastAudit.Markup

/-- One construct at the start of a text: what it says, its length, and the raw text element in
whose content the following text stands. -/
structure Construct where
  event : Option Event
  length : Nat
  raw : Option (List Char) := none
  deriving DecidableEq, Repr

namespace Construct

/-- Text in which character references count. -/
def ofText (cs : List Char) : Except MarkupError Construct :=
  match CharacterReference.decode cs with
  | some text => .ok ⟨some (.text (String.ofList text)), cs.length, none⟩
  | none => .error .longReference

/-- The elements whose content is raw text. -/
def rawTags : List String :=
  ["script", "style"]

/-- The value of an attribute with its character references replaced. -/
def decodeValue : Option (List Char) → Except MarkupError (Option String)
  | none => .ok none
  | some value =>
    match CharacterReference.decode value with
    | some text => .ok (some (String.ofList text))
    | none => .error .longReference

/-- An attribute with its name in lower case and its value decoded. -/
def decodeAttribute (a : StartTag.Attribute) : Except MarkupError (String × Option String) := do
  return (Text.lowercase (String.ofList a.name), ← decodeValue a.value)

/-- A start tag that stands at a position, given the text behind its bracket. -/
def startTag (position : Position) (cs : List Char) : Except MarkupError (Option Construct) :=
  let tag := Text.lowercase (String.ofList (StartTag.name cs))
  match StartTag.ending cs with
  | .incomplete => .ok none
  | .broken length =>
    .ok (some ⟨some (.text (String.ofList ('<' :: cs.take length))), length + 1, none⟩)
  | .complete attributes closed length => do
    let attributes ← attributes.mapM decodeAttribute
    let raw := if !closed && rawTags.contains tag then some tag.toList else none
    return some ⟨some (.startTag tag attributes closed position), length + 1, raw⟩

/-- The name in an end tag that holds nothing but a name and blanks, given the text between `</` and
the closing bracket. -/
def plainName? (inside : List Char) : Option (List Char) :=
  let isChar (c : Char) : Bool :=
    Text.isNameChar c || c == '.' || c == ':'
  match Text.trim inside with
  | [] => none
  | c :: cs => if Text.isAsciiLetter c && cs.all isChar then some (c :: cs) else none

/-- An end tag, or what stands in place of one, given the text behind `</`. -/
def endTag (cs : List Char) : Option Construct :=
  match Text.cut '>' cs with
  | none => none
  | some (inside, _) =>
    let event : Option Event :=
      match plainName? inside, inside with
      | some name, _ => some (.endTag (Text.lowercase (String.ofList name)))
      | none, [] => none
      | none, c :: _ =>
        if Text.isAsciiLetter c then
          some (.endTag (Text.lowercase (String.ofList (StartTag.name inside))))
        else some (.comment (String.ofList inside))
    some ⟨event, inside.length + 3, none⟩

/-! ## Comments and sections -/

/-- The length of some characters at the start of a text, with blanks before each of them. -/
def spacedLength? : List Char → List Char → Option Nat
  | [], _ => some 0
  | mark :: marks, cs =>
    let gap := (cs.takeWhile Text.isBlank).length
    match cs.drop gap with
    | c :: rest =>
      if c = mark then (spacedLength? marks rest).map fun length => gap + 1 + length else none
    | [] => none

/-- How a comment or section is closed: some characters, and further ones with blanks before
them. -/
structure Closer where
  tight : List Char
  spaced : List Char
  deriving DecidableEq, Repr

/-- The closer of comments. -/
def Closer.comment : Closer := ⟨['-', '-'], ['>']⟩

/-- The closer of most marked sections. -/
def Closer.section : Closer := ⟨[']'], [']', '>']⟩

/-- The closer of conditional sections. -/
def Closer.conditional : Closer := ⟨[']'], ['>']⟩

/-- The length of a closer at the start of a text. -/
def Closer.length? (closer : Closer) (cs : List Char) : Option Nat :=
  if closer.tight.isPrefixOf cs then
    (spacedLength? closer.spaced (cs.drop closer.tight.length)).map fun length =>
      closer.tight.length + length
  else none

/-- The number of characters before the first closer, and its length. -/
def Closer.find? (closer : Closer) : List Char → Option (Nat × Nat)
  | [] => none
  | c :: cs =>
    match closer.length? (c :: cs) with
    | some length => some (0, length)
    | none => (find? closer cs).map fun (before, length) => (before + 1, length)

/-- A comment, given the text behind its opening. -/
def comment (cs : List Char) : Option Construct :=
  (Closer.comment.find? cs).map fun (before, length) =>
    ⟨some (.comment (String.ofList (cs.take before))), 4 + before + length, none⟩

/-- The closer of a kind of marked section. -/
def sectionCloser? (kind : String) : Option Closer :=
  if ["temp", "cdata", "ignore", "include", "rcdata"].contains kind then some .section
  else if ["if", "else", "endif"].contains kind then some .conditional
  else none

/-- A marked section, given the text behind its opening. -/
def markedSection (cs : List Char) : Except MarkupError (Option Construct) :=
  match cs with
  | [] => .ok none
  | c :: rest =>
    if Text.isAsciiLetter c then
      let name := c :: rest.takeWhile fun c => Text.isNameChar c || c == '.'
      if Text.allBlank (cs.drop name.length) then .ok none
      else
        match sectionCloser? (String.ofList (name.map Char.toLower)) with
        | none => .error .unknownSection
        | some closer =>
          .ok ((closer.find? cs).map fun (before, length) => ⟨none, 3 + before + length, none⟩)
    else .error .unnamedSection

/-- What ends at the next closing bracket and says nothing; `lead` counts the characters before the
text. -/
def skipped (lead : Nat) (cs : List Char) : Option Construct :=
  (Text.cut '>' cs).map fun (inside, _) => ⟨none, lead + inside.length + 1, none⟩

/-- A declaration, given the text behind `<!`; what is none is a comment. -/
def declaration (cs : List Char) : Option Construct :=
  if Text.lower (cs.take 7) = "doctype".toList then skipped 9 (cs.drop 7)
  else
    (Text.cut '>' cs).map fun (inside, _) =>
      ⟨some (.comment (String.ofList inside)), inside.length + 3, none⟩

/-! ## Constructs -/

/-- The construct that starts with a bracket, given the text behind the bracket, if it is
complete. -/
def bracketed (position : Position) (cs : List Char) : Except MarkupError (Option Construct) :=
  match cs with
  | '/' :: cs => .ok (endTag cs)
  | '!' :: '-' :: '-' :: cs => .ok (comment cs)
  | '!' :: '[' :: cs => markedSection cs
  | '!' :: cs => .ok (declaration cs)
  | '?' :: cs => .ok (skipped 2 cs)
  | c :: cs =>
    if Text.isAsciiLetter c then startTag position (c :: cs)
    else .ok (some ⟨some (.text "<"), 1, none⟩)
  | [] => .ok (some ⟨some (.text "<"), 1, none⟩)

/-- What an incomplete construct amounts to, given the text behind its bracket. -/
def incomplete (cs : List Char) : Except MarkupError Construct :=
  match Text.cut '>' cs with
  | some (inside, _) => ofText ('<' :: inside ++ ['>'])
  | none => if cs.contains '<' then ofText ('<' :: cs.takeWhile (· != '<')) else ofText ['<']

/-- The construct at the start of a text. -/
def next (position : Position) (c : Char) (cs : List Char) : Except MarkupError Construct :=
  if c = '<' then do
    match ← bracketed position cs with
    | some construct => return construct
    | none => incomplete cs
  else ofText (c :: cs.takeWhile (· != '<'))

/-! ## Raw text -/

/-- Whether an end tag of the given name, up to case, starts a text. -/
def startsEndTag (name : List Char) : List Char → Bool
  | '<' :: '/' :: cs =>
    match Text.restAfterWord? name (Text.trimStart cs) with
    | some rest => (Text.trimStart rest).head? == some '>'
    | none => false
  | _ => false

/-- The number of characters before the first end tag of the given name. -/
def rawLength? (name : List Char) : List Char → Option Nat
  | [] => none
  | c :: cs => if startsEndTag name (c :: cs) then some 0 else (rawLength? name cs).map (· + 1)

/-- The construct at the start of raw text; an end tag whose name has letters that are only equal up
to case folding belongs to the text. -/
def nextRaw? (name : List Char) (cs : List Char) : Option Construct :=
  match rawLength? name cs with
  | none => none
  | some 0 =>
    match Text.cut '>' (cs.drop 2) with
    | none => none
    | some (inside, _) =>
      match plainName? inside with
      | some _ => some ⟨some (.endTag (String.ofList name)), inside.length + 3, none⟩
      | none =>
        some ⟨some (.text (String.ofList (cs.take (inside.length + 3)))), inside.length + 3,
          some name⟩
  | some n => some ⟨some (.text (String.ofList (cs.take n))), n, some name⟩

/-- The construct at the start of a text whose first character is `c`, or nothing if the rest is
dropped. -/
def read (position : Position) (raw : Option (List Char)) (c : Char) (cs : List Char) :
    Except MarkupError (Option Construct) :=
  match raw with
  | some name => .ok (nextRaw? name (c :: cs))
  | none => (next position c cs).map some

/-- The characters of a construct behind its first one. -/
def behind (construct : Construct) (cs : List Char) : List Char :=
  cs.take (construct.length - 1)

/-- The text behind a construct. -/
def rest (construct : Construct) (cs : List Char) : List Char :=
  cs.drop (construct.length - 1)

theorem length_rest_lt (construct : Construct) (c : Char) (cs : List Char) :
    (construct.rest cs).length < (c :: cs).length := by
  rw [rest, List.length_drop, List.length_cons]
  omega

end Construct

/-- The events of a text that stands at a position, inside of a raw text element or not. -/
def eventsFrom (position : Position) (raw : Option (List Char)) (cs : List Char) :
    Except MarkupError (List Event) :=
  match cs with
  | [] => .ok []
  | c :: cs => do
    match ← Construct.read position raw c cs with
    | none => return []
    | some construct =>
      let after := position.after (c :: construct.behind cs)
      let events ← eventsFrom after construct.raw (construct.rest cs)
      return construct.event.toList ++ events
termination_by cs.length
decreasing_by exact construct.length_rest_lt c cs

/-- The events of a text. -/
def events (cs : List Char) : Except MarkupError (List Event) :=
  eventsFrom Position.start none cs

end ContrastAudit.Markup
