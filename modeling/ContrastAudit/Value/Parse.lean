import ContrastAudit.Text.Position
import ContrastAudit.Text.Quoted
import ContrastAudit.Value.Token

/-!
# Reading component values

The tokens of a value are assembled into components.  A function or a block lasts until its closing
parenthesis.  A value is refused at a closing parenthesis that closes nothing, at a place where no
token starts, and, if it ends inside of a function or block, at its last token.
-/

namespace ContrastAudit

/-- Why and where a value is refused. -/
structure ValueError where
  source : String
  position : Position
  deriving DecidableEq, Repr

/-- The error in words. -/
def ValueError.message (e : ValueError) : String :=
  "Invalid value " ++ Text.quoted e.source

namespace Component

/-- A function or block under way: its name if it is a function, and the components before it, last
one first. -/
structure Frame where
  name : Option String
  before : List Component

/-- The component that a frame becomes with its children. -/
def Frame.close (frame : Frame) (children : List Component) : Component :=
  match frame.name with
  | some name => .function name children
  | none => .block children

/-- The text of a frame up to its opening parenthesis. -/
def Frame.chars (frame : Frame) : List Char :=
  charsOfAll frame.before.reverse ++ (frame.name.getD "").toList ++ ['(']

/-- The text of the open frames, innermost first. -/
def charsOfFrames (frames : List Frame) : List Char :=
  frames.reverse.flatMap Frame.chars

/-- Assembles tokens.  `frames` holds what is open, innermost first, `current` the components read
since then, last one first, and `offset` the number of characters before the next token; `last` is
the offset of the token before it, and `stuck` tells that no token starts after the last one.  An
error is the offset at which the value is refused. -/
def assemble (stuck : Bool) (frames : List Frame) (current : List Component) (last offset : Nat) :
    List Token → Except Nat (List Component)
  | [] =>
    if stuck then .error offset
    else if frames.isEmpty then .ok current.reverse
    else .error last
  | t :: ts =>
    let next := offset + t.chars.length
    match t.kind with
    | .function =>
      assemble stuck (⟨some (String.ofList t.chars.dropLast), current⟩ :: frames) [] offset next ts
    | .opening => assemble stuck (⟨none, current⟩ :: frames) [] offset next ts
    | .closing =>
      match frames with
      | [] => .error offset
      | frame :: frames =>
        assemble stuck frames (frame.close current.reverse :: frame.before) offset next ts
    | .leaf kind =>
      assemble stuck frames (.leaf kind (String.ofList t.chars) :: current) offset next ts

/-- The components of a text, or the offset at which it is refused. -/
def parseChars (cs : List Char) : Except Nat (List Component) :=
  let (ts, rest) := Token.tokens cs
  assemble (!rest.isEmpty) [] [] 0 0 ts

/-- The components of a value. -/
def parse (source : String) : Except ValueError (List Component) :=
  match parseChars source.toList with
  | .ok components => .ok components
  | .error offset => .error ⟨source, Position.start.after (source.toList.take offset)⟩

/-- The components of a value, if it can be read. -/
def parse? (source : String) : Option (List Component) :=
  (parse source).toOption

end Component

end ContrastAudit
