import Mathlib.Algebra.GroupWithZero.Nat
import ContrastAudit.Selector.Parse

/-!
# How selectors are written

A written selector is a sequence of compounds with a combinator between each two of them, together
with the white space it is written with.  It has a text, and it says which compounds and combinators
it stands for.  The constructors admit well-formed parts only, so every written selector has to be
read back as what it stands for.
-/

namespace ContrastAudit.Selector

/-- A character of a class name or an id as it is written: by itself, or behind a backslash. -/
inductive Letter
  | plain (c : Char) (isNameChar : Text.isNameChar c = true)
  | escaped (c : Char) (notBlank : Text.isBlank c = false) (notJoint : isJoint c = false)

namespace Letter

def chars : Letter → List Char
  | plain c _ => [c]
  | escaped c _ _ => ['\\', c]

/-- The character meant. -/
def char : Letter → Char
  | plain c _ => c
  | escaped c _ _ => c

end Letter

/-- The name of a class or an id. -/
structure Name where
  letters : List Letter
  ne_nil : letters ≠ []

namespace Name

def chars (n : Name) : List Char :=
  n.letters.flatMap Letter.chars

/-- The name without its escapes. -/
def value (n : Name) : String :=
  String.ofList (n.letters.map Letter.char)

end Name

/-- The name of a tag, which may start with a hyphen. -/
structure TagName where
  hyphen : Bool
  first : Char
  others : List Char
  isNameStart_first : Text.isNameStart first = true
  isNameChar_others : ∀ c ∈ others, Text.isNameChar c = true

namespace TagName

def chars (t : TagName) : List Char :=
  (if t.hyphen then ['-'] else []) ++ t.first :: t.others

/-- The name in lower case. -/
def value (t : TagName) : String :=
  String.ofList (t.chars.map Char.toLower)

end TagName

/-- What may come first in a compound. -/
inductive Head
  | tag (name : TagName)
  | universal

def Head.chars : Head → List Char
  | tag name => name.chars
  | universal => ['*']

/-- A class or an id. -/
inductive Simple
  | class (name : Name)
  | id (name : Name)

namespace Simple

def chars : Simple → List Char
  | .class name => '.' :: name.chars
  | id name => '#' :: name.chars

def class? : Simple → Option String
  | .class name => some name.value
  | id _ => none

def id? : Simple → Option String
  | .class _ => none
  | id name => some name.value

/-- What a class or an id counts. -/
def weight : Simple → Nat
  | .class _ => 10
  | id _ => 100

end Simple

/-- A compound that is not empty. -/
structure Conjunct where
  head : Option Head
  simples : List Simple
  nonempty : head = none → simples ≠ []

namespace Conjunct

def chars (c : Conjunct) : List Char :=
  c.head.elim [] Head.chars ++ c.simples.flatMap Simple.chars

/-- The constraints meant. -/
def compound (c : Conjunct) : Compound where
  tag :=
    match c.head with
    | some (.tag name) => some name.value
    | _ => none
  universal :=
    match c.head with
    | some .universal => true
    | _ => false
  classes := c.simples.filterMap Simple.class?
  ids := c.simples.filterMap Simple.id?

/-- What a compound counts: the weights of its classes and ids, and one for a tag. -/
def weight (c : Conjunct) : Nat :=
  (match c.head with
    | some (.tag _) => 1
    | _ => 0) +
  (c.simples.map Simple.weight).sum

end Conjunct

/-- A run of white space, which may be empty. -/
structure Gap where
  chars : List Char
  allBlank : Text.allBlank chars = true

/-- A combinator that has a sign. -/
inductive Sign
  | child
  | adjacent
  | general

namespace Sign

def char : Sign → Char
  | child => '>'
  | adjacent => '+'
  | general => '~'

/-- The combinator meant; nothing tells apart the two that relate siblings. -/
def combinator : Sign → Combinator
  | child => .child
  | adjacent => .sibling
  | general => .sibling

end Sign

/-- A combinator with the white space it is written with. -/
inductive Joint
  | descendant (gap : Gap) (ne_nil : gap.chars ≠ [])
  | sign (before : Gap) (sign : Sign) (after : Gap)

namespace Joint

def chars : Joint → List Char
  | descendant gap _ => gap.chars
  | sign before s after => before.chars ++ s.char :: after.chars

def combinator : Joint → Combinator
  | descendant _ _ => .descendant
  | sign _ s _ => s.combinator

end Joint

/-- Compounds joined by combinators. -/
structure Chain where
  first : Conjunct
  rest : List (Joint × Conjunct)

namespace Chain

def chars (c : Chain) : List Char :=
  c.first.chars ++ c.rest.flatMap fun link => link.1.chars ++ link.2.chars

/-- The compounds from left to right. -/
def conjuncts (c : Chain) : List Conjunct :=
  c.first :: c.rest.map (·.2)

/-- The combinators from left to right. -/
def combinators (c : Chain) : List Combinator :=
  c.rest.map (·.1.combinator)

end Chain

end ContrastAudit.Selector
