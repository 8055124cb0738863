import ContrastAudit.Pairing.Pair
import ContrastAudit.Style.Cascade
import ContrastAudit.Utility.Resolve

/-!
# Specified colors and fonts

Everything that styles the elements of a document besides their own attributes is the styling: the
rules, the custom properties and, if utility classes count, what they mean.  A color or a font is
looked for in the style attribute first, then among the utility classes, then in the cascade.  Of an
element only its lineage of features is looked at.
-/

namespace ContrastAudit

/-- What styles the elements of a document; the rules are resolved. -/
structure Styling where
  rules : List Rule
  properties : PropertyMap
  utilities : Option Utility.Resolver

/-- A color as it is specified for an element.  The value has its custom properties resolved and is
missing if they cannot be; a shorthand may hold more than a color. -/
structure SpecifiedColor where
  written : String
  value : Option String
  source : ColorSource
  selector : String
  shorthand : Bool := false
  deriving DecidableEq, Repr

namespace SpecifiedColor

/-- The color that a winning declaration specifies. -/
def ofWinner (winner : Winner) : SpecifiedColor where
  written := winner.declaration.raw
  value := winner.declaration.resolved
  source := .stylesheet
  selector := winner.selector
  shorthand := winner.declaration.property == "background"

/-- Whether a text is the keyword for no color at all. -/
def isTransparent (text : String) : Bool :=
  Text.lowercase text == "transparent"

/-- The first of some components that is a color. -/
def firstColor? : List Component → Except NumericFault (Option String)
  | [] => .ok none
  | c :: cs =>
    match c with
    | .leaf .space _ | .leaf .comma _ | .leaf .slash _ => firstColor? cs
    | _ => do
      let text := Component.render [c]
      if isTransparent text then return some text
      else if (← Color.parse text).isSome then return some text
      else firstColor? cs

/-- The component of a shorthand that is a color. -/
def shorthandColor? (value : String) : Except NumericFault (Option String) :=
  match Component.parse? value with
  | none => .ok none
  | some components => firstColor? components

/-- The part of a value that is to be read as a color. -/
def colorText? (specified : SpecifiedColor) : Except NumericFault (Option String) :=
  match specified.value with
  | none => .ok none
  | some value => do
    if specified.shorthand && (← Color.parse value).isNone && !isTransparent (Text.strip value) then
      shorthandColor? value
    else return some value

/-- The color that is specified for a side; only a background may be transparent. -/
def materialize (specified : SpecifiedColor) (side : Side) :
    Except NumericFault (Option Color) := do
  match ← specified.colorText? with
  | none => return none
  | some value =>
    if side = .background ∧ isTransparent (Text.strip value) then return some Color.clear
    else Color.parse value

end SpecifiedColor

namespace Styling

/-- The styling by some rules, whose custom properties are resolved here. -/
def ofRules (rules : List Rule) (properties : PropertyMap) (utilities : Option Utility.Resolver) :
    Styling :=
  ⟨rules.map (Rule.resolve properties), properties, utilities⟩

/-- The value with custom properties resolved. -/
def resolve? (styling : Styling) (value : String) : Option String :=
  Property.resolve styling.properties value

/-- A text that is not empty. -/
def nonempty? (text : Option String) : Option String :=
  text.filter (· != "")

/-- The inline style of a side. -/
def inlineColor? (f : Features) : Side → Option String
  | .foreground => nonempty? f.inline.color
  | .background => nonempty? f.inline.background

/-- The utility class that sets a side, if utility classes count. -/
def utilityColor? (styling : Styling) (f : Features) (side : Side) :
    Except NumericFault (Option Utility.UtilityStyle) :=
  match styling.utilities with
  | none => .ok none
  | some utilities => utilities.color? side f.classes

/-- The color that is specified for a side of the first element of a lineage. -/
def specified? (styling : Styling) (lineage : List Features) (side : Side) :
    Except NumericFault (Option SpecifiedColor) :=
  match lineage with
  | [] => .ok none
  | f :: _ =>
    match inlineColor? f side with
    | some value => .ok (some ⟨value, styling.resolve? value, .inline, "inline", false⟩)
    | none => do
      match ← styling.utilityColor? f side with
      | some style =>
        return some ⟨style.className, styling.resolve? style.value, .stylesheet, style.className,
          false⟩
      | none =>
        return (Cascade.best lineage styling.rules side.property).map SpecifiedColor.ofWinner

/-! ## Fonts -/

/-- The sizes and weights that headings have by default. -/
def headingFonts : List (String × String × String) :=
  [("h1", "32px", "700"), ("h2", "24px", "700"), ("h3", "18.72px", "700"), ("h4", "16px", "700"),
   ("h5", "13.28px", "700"), ("h6", "10.72px", "700")]

/-- A font property of the first element of a lineage: from its style attribute, else from a utility
class, else from the cascade, else by default. -/
def fontProperty? (styling : Styling) (lineage : List Features) (property : String)
    (inline utility default : Option String) : Option String :=
  let cascaded := (Cascade.best lineage styling.rules property).bind (·.declaration.resolved)
  let value := (nonempty? inline).or ((nonempty? utility).or ((nonempty? cascaded).or default))
  value.bind styling.resolve?

/-- The font size of the first element of a lineage. -/
def fontSize? (styling : Styling) (lineage : List Features) : Option String :=
  match lineage with
  | [] => none
  | f :: _ =>
    styling.fontProperty? lineage "font-size" f.inline.fontSize
      (styling.utilities.bind (·.fontSize? f.classes))
      ((headingFonts.find? (·.1 == f.tag)).map (·.2.1))

/-- The font weight of the first element of a lineage. -/
def fontWeight? (styling : Styling) (lineage : List Features) : Option String :=
  match lineage with
  | [] => none
  | f :: _ =>
    styling.fontProperty? lineage "font-weight" f.inline.fontWeight
      (styling.utilities.bind (·.fontWeight? f.classes))
      ((headingFonts.find? (·.1 == f.tag)).map (·.2.2))

end Styling

end ContrastAudit
