import ContrastAudit.Stylesheet.Declaration
import ContrastAudit.Stylesheet.Node

/-!
# Reading style sheets

The nodes of a style sheet become a flat list of rules.  A selector list becomes one rule for each
selector, a nested rule is joined to every selector around it, and grouping rules such as media
queries count as if their bodies stood in their place.  Only declarations of colors, backgrounds and
font sizes and weights are kept, and custom properties where the page itself is selected.  A marked
comment makes the next rule an ignored one.

Reading never fails: whatever is not understood is dropped.
-/

namespace ContrastAudit.Stylesheet

/-- The comment that marks the next rule as ignored. -/
def ignoreMark : String := "contrast-ignore"

/-- The grouping rules whose bodies count where they stand. -/
def groupingRules : List String :=
  ["media", "supports", "layer", "container", "scope", "document"]

/-- The selectors whose custom properties are kept. -/
def rootSelectors : List String :=
  [":root", "html"]

/-- The pieces of a text between the commas that stand in no bracket; `depth` counts the brackets
that are open. -/
def topPieces (depth : Nat) : List Char → List (List Char)
  | [] => [[]]
  | c :: cs =>
    let keep (depth : Nat) : List (List Char) :=
      match topPieces depth cs with
      | [] => [[c]]
      | piece :: pieces => (c :: piece) :: pieces
    if c = '(' ∨ c = '[' then keep (depth + 1)
    else if c = ')' ∨ c = ']' then keep (depth - 1)
    else if c = ',' ∧ depth = 0 then [] :: topPieces depth cs
    else keep depth

/-- The selectors of a list, trimmed, without blank ones. -/
def splitSelectors (text : List Char) : List String :=
  (((topPieces 0 text).map Text.trim).filter (!·.isEmpty)).map String.ofList

/-- A selector inside of a rule for `parent`: `&` stands for the parent, and without it the selector
means the parent's descendants. -/
def nestIn (parent selector : String) : String :=
  if selector.toList.contains '&' then
    String.ofList (selector.toList.flatMap fun c => if c = '&' then parent.toList else [c])
  else parent ++ " " ++ selector

/-- The selectors of a rule inside of rules for `parents`. -/
def nest (parents selectors : List String) : List String :=
  if parents.isEmpty then selectors
  else parents.flatMap fun parent => selectors.map (nestIn parent)

/-- The name of an at-rule: an optional hyphen, a letter, then letters, digits and hyphens. -/
def atName (prelude : List Char) : String :=
  let nameChar (c : Char) : Bool := Text.isAsciiLetter c || Text.isAsciiDigit c || c == '-'
  match prelude with
  | '@' :: '-' :: c :: cs =>
    if Text.isAsciiLetter c then Text.lowercase (String.ofList ('-' :: c :: cs.takeWhile nameChar))
    else ""
  | '@' :: c :: cs =>
    if Text.isAsciiLetter c then Text.lowercase (String.ofList (c :: cs.takeWhile nameChar)) else ""
  | _ => ""

/-- What a statement directly inside of a rule declares. -/
def declared? : Node → Option (String × String)
  | .statement text => if text.head? = some '@' then none else declaration? text
  | _ => none

/-- Whether a declaration is kept in rules. -/
def isKept (property value : String) : Bool :=
  Declaration.tracked.contains property && !(property == "background" && isImage value.toList)

/-- The rules for some selectors with the declarations that stand directly in a body, and the custom
properties that they set. -/
def rulesOf (selectors : List String) (ignored : Bool) (body : List Node) : Sheet :=
  let declared := body.filterMap declared?
  let custom := declared.filter fun d => isCustom d.1.toList
  let kept := declared.filter fun d => !isCustom d.1.toList && isKept d.1 d.2
  { rules :=
      if kept.isEmpty then []
      else selectors.map fun s => ⟨s, kept.map fun d => { property := d.1, raw := d.2 }, ignored⟩
    properties :=
      if selectors.any rootSelectors.contains then PropertyMap.merge [] custom else [] }

/-- What a statement outside of rules contributes: the target of an import. -/
def statementSheet (text : List Char) : Sheet :=
  if text.head? = some '@' then
    if Text.lower (text.take 7) = "@import".toList then { imports := (importTarget? text).toList }
    else {}
  else {}

mutual

/-- The sheet of a node inside of rules for `parents`; `ignored` tells that it is a marked one. -/
def Node.sheet (parents : List String) (ignored : Bool) : Node → Sheet
  | .comment _ => {}
  | .statement text => statementSheet text
  | .block prelude body =>
    let prelude := clean prelude
    if prelude.head? = some '@' then
      if groupingRules.contains (atName prelude) then
        (if parents.isEmpty then {} else rulesOf parents false body) ++ flatten parents false body
      else {}
    else if prelude.isEmpty then {}
    else
      let selectors := nest parents (splitSelectors prelude)
      rulesOf selectors ignored body ++ flatten selectors false body

/-- The sheet of some nodes inside of rules for `parents`; `ignored` tells that the mark has been
read. -/
def flatten (parents : List String) (ignored : Bool) : List Node → Sheet
  | [] => {}
  | .comment text :: nodes =>
    flatten parents (ignored || String.ofList (Text.trim text) == ignoreMark) nodes
  | node :: nodes => node.sheet parents ignored ++ flatten parents false nodes

end

/-- The sheet that a text writes. -/
def parse (source : String) : Sheet :=
  flatten [] false (Node.parse source.toList)

end ContrastAudit.Stylesheet
