import ContrastAudit.Text.Blank

/-!
# Normal form of selector texts

In normal form a selector has single blanks only where it relates an element to its descendants:
white space is gone from its ends and around `>`, `+` and `~`, and every other run of white space is
one blank.
-/

namespace ContrastAudit.Selector

/-- A text with every run of white space made one blank. -/
def collapse : List Char → List Char
  | [] => []
  | c :: cs =>
    if Text.isBlank c then
      match collapse cs with
      | ' ' :: rest => ' ' :: rest
      | rest => ' ' :: rest
    else c :: collapse cs

/-- The characters that join compounds without blanks. -/
def isJoint (c : Char) : Bool :=
  c == '>' || c == '+' || c == '~'

/-- A text without the blanks next to the joining characters; `joined` tells that one was just
read. -/
def tighten (joined : Bool) : List Char → List Char
  | [] => []
  | c :: cs =>
    if c = ' ' then
      if joined || (cs.head?.any isJoint) then tighten joined cs
      else ' ' :: tighten false cs
    else c :: tighten (isJoint c) cs

/-- The normal form of a selector. -/
def normalChars (cs : List Char) : List Char :=
  tighten false (collapse (Text.trim cs))

/-- The normal form of a selector text. -/
def normalize (text : String) : String :=
  String.ofList (normalChars text.toList)

end ContrastAudit.Selector
