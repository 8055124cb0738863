import ContrastAudit.Color.Notation
import ContrastAudit.Contrast.Side
import ContrastAudit.Number.Decimal
import ContrastAudit.Text.Cut
import ContrastAudit.Utility.Palette

/-!
# Utility classes

A utility class stands for one declaration.  `text-…` and `bg-…` name a color of the palette, with
an opacity in percent behind a slash if need be, or hold any value between brackets, in which
underscores stand for blanks.  Some such classes have other meanings, and a bracketed length is a
font size.

**Results.**
* `side_of_color?`: a class names at most one side.
-/

namespace ContrastAudit.Utility

/-- The declaration that a utility class stands for. -/
structure UtilityStyle where
  side : Side
  value : String
  className : String
  deriving DecidableEq, Repr

/-- The classes of the two sides that set no color. -/
def colorless : List String :=
  ["text-left", "text-center", "text-right", "text-justify", "text-start", "text-end", "text-wrap",
   "text-nowrap", "text-balance", "text-pretty", "text-ellipsis", "text-clip", "bg-fixed",
   "bg-local", "bg-scroll", "bg-auto", "bg-cover", "bg-contain", "bg-center", "bg-top",
   "bg-bottom", "bg-left", "bg-right", "bg-repeat", "bg-no-repeat", "bg-repeat-x", "bg-repeat-y",
   "bg-repeat-round", "bg-repeat-space", "bg-clip-border", "bg-clip-padding", "bg-clip-content",
   "bg-clip-text", "bg-origin-border", "bg-origin-padding", "bg-origin-content", "bg-none"] ++
    fontSizes.map (·.1)

/-- The side that a class is about, and the text behind `text-` or `bg-`. -/
def side? (name : List Char) : Option (Side × List Char) :=
  match Text.rest? "text-".toList name with
  | some rest => some (.foreground, rest)
  | none => (Text.rest? "bg-".toList name).map fun rest => (.background, rest)

/-- The text between brackets, which is not empty and has no line break. -/
def bracketed? : List Char → Option (List Char)
  | '[' :: cs =>
    let inside := cs.dropLast
    if cs.getLast? = some ']' ∧ !inside.isEmpty ∧ !inside.contains '\n' then some inside else none
  | _ => none

/-- The units of lengths. -/
def lengthUnits : List String :=
  ["", "px", "pt", "em", "rem", "%", "vw", "vh"]

/-- A number at the start of a text, and the rest. -/
def afterNumber? (cs : List Char) : Option (List Char) :=
  let whole := cs.takeWhile Text.isDecimal
  match cs.drop whole.length with
  | '.' :: rest =>
    let fraction := rest.takeWhile Text.isDecimal
    if whole.isEmpty && fraction.isEmpty then none else some (rest.drop fraction.length)
  | rest => if whole.isEmpty then none else some rest

/-- What marks a value as a length. -/
def lengthHint : List Char := "length:".toList

/-- A text without a leading mark. -/
def withoutHint (hint cs : List Char) : List Char :=
  (Text.rest? hint cs).getD cs

/-- Whether a value is a length: an optional hint, an optional sign, a number and an optional
unit. -/
def isLength (value : List Char) : Bool :=
  let unsigned := match withoutHint lengthHint value with
    | '+' :: cs | '-' :: cs => cs
    | cs => cs
  match afterNumber? unsigned with
  | some unit => lengthUnits.any fun known => known.toList == unit
  | none => false

/-- The name of a color in the palette and an opacity in percent: small letters, then digits behind
a hyphen, then up to three digits behind a slash. -/
def paletteName? (cs : List Char) : Option (List Char × Option Nat) :=
  let letters := cs.takeWhile fun c => 'a' ≤ c && c ≤ 'z'
  let (shade, rest) := match cs.drop letters.length with
    | '-' :: more =>
      let digits := more.takeWhile Text.isDecimal
      if digits.isEmpty then ([], '-' :: more) else ('-' :: digits, more.drop digits.length)
    | rest => ([], rest)
  if letters.isEmpty then none
  else
    match rest with
    | [] => some (letters ++ shade, none)
    | '/' :: digits =>
      if digits.all Text.isDecimal ∧ !digits.isEmpty ∧ digits.length ≤ 3 then
        some (letters ++ shade, some (Text.natOfDigits digits))
      else none
    | _ => none

/-- A color with an opacity in percent, as text. -/
def withOpacity? (value : String) (percent : Nat) : Except NumericFault (Option String) := do
  match ← Color.parse value with
  | none => return none
  | some c =>
    if 100 < percent then return none
    else
      let alpha := Number.general (percent.toFloat / 100.0)
      return some ("rgb(" ++ toString c.red ++ " " ++ toString c.green ++ " " ++
        toString c.blue ++ " / " ++ alpha ++ ")")

/-- The value of a bracketed class, unless it is a length. -/
def arbitraryColor? (inside : List Char) : Option String :=
  let value := inside.map fun c => if c = '_' then ' ' else c
  match Text.rest? "color:".toList value with
  | some color => some (String.ofList color)
  | none => if isLength value then none else some (String.ofList value)

/-- The value that a class gives a side, given the text behind the name of the side. -/
def colorValue? (palette : Palette) (cs : List Char) : Except NumericFault (Option String) :=
  match bracketed? cs with
  | some inside => .ok (arbitraryColor? inside)
  | none =>
    match paletteName? cs with
    | none => .ok none
    | some (name, opacity) =>
      match palette.get? (String.ofList name), opacity with
      | none, _ => .ok none
      | some value, none => .ok (some value)
      | some value, some percent => withOpacity? value percent

/-- The color that a class stands for. -/
def color? (palette : Palette) (className : String) : Except NumericFault (Option UtilityStyle) :=
  if colorless.contains className then .ok none
  else
    match side? className.toList with
    | none => .ok none
    | some (side, rest) => do
      return (← colorValue? palette rest).map fun value => ⟨side, value, className⟩

/-- The color of a side: that of the last class which sets one. -/
def colorOf? (palette : Palette) (side : Side) (classes : List String) :
    Except NumericFault (Option UtilityStyle) := do
  let styles ← classes.mapM (color? palette)
  return (styles.filterMap id).reverse.find? (·.side == side)

/-- The font size that a class stands for. -/
def fontSize? (className : String) : Option String :=
  match fontSizes.find? (·.1 == className) with
  | some (_, size) => some size
  | none =>
    match side? className.toList with
    | some (.foreground, rest) => do
      let inside ← bracketed? rest
      if isLength inside then some (String.ofList (withoutHint lengthHint inside)) else none
    | _ => none

/-- The font size of the first class that sets one. -/
def fontSizeOf? (classes : List String) : Option String :=
  classes.findSome? fontSize?

/-- The font weight of the first class that sets one. -/
def fontWeightOf? (classes : List String) : Option String :=
  classes.findSome? fun className => (fontWeights.find? (·.1 == className)).map (·.2)

/-- What the classes of an element mean: the color that they give a side, and the size and the
weight of the font. -/
structure Resolver where
  color? : Side → List String → Except NumericFault (Option UtilityStyle)
  fontSize? : List String → Option String
  fontWeight? : List String → Option String

/-- The utility classes whose colors are those of a palette. -/
def Resolver.ofPalette (palette : Palette) : Resolver where
  color? := colorOf? palette
  fontSize? := fontSizeOf?
  fontWeight? := fontWeightOf?

theorem side_of_color? {palette : Palette} {className : String} {style : UtilityStyle}
    (h : color? palette className = .ok (some style)) :
    ∃ rest, side? className.toList = some (style.side, rest) := by
  unfold color? at h
  split at h
  · simp at h
  · split at h
    · simp at h
    · next side rest hs =>
      cases hv : colorValue? palette rest with
      | error e => simp [hv, bind, Except.bind] at h
      | ok value =>
        cases value with
        | none => simp [hv, bind, Except.bind, pure, Except.pure] at h
        | some value =>
          simp only [hv, bind, Except.bind, pure, Except.pure, Option.map_some, Except.ok.injEq,
            Option.some.injEq] at h
          subst h
          exact ⟨rest, hs⟩

end ContrastAudit.Utility
