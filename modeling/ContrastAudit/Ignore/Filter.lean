import ContrastAudit.Color.Notation
import ContrastAudit.Pairing.Pair
import ContrastAudit.Text.Glob

/-!
# Ignored pairs

A pair may be left out of the results because one of its colors is ignored, because its two colors
are ignored together, or because its element fits a pattern.  Colors are compared by their channels
and their opacity, in every form in which a pair shows them; texts that are no colors do not count.
A pattern describes an id, a class or a tag, with wildcards; any other pattern fits nothing.

**Results.**
* `ignores_append`: rules that are added ignore what either list of rules ignores.
-/

namespace ContrastAudit

/-- What is ignored, as it is written. -/
structure IgnoreConfig where
  colors : List String := []
  pairs : List (String × String) := []
  selectors : List String := []
  deriving DecidableEq, Repr

namespace IgnoreConfig

/-- Whether nothing is ignored. -/
def isEmpty (config : IgnoreConfig) : Bool :=
  config.colors.isEmpty && config.pairs.isEmpty && config.selectors.isEmpty

/-- What either of two configurations ignores. -/
def append (a b : IgnoreConfig) : IgnoreConfig :=
  ⟨a.colors ++ b.colors, a.pairs ++ b.pairs, a.selectors ++ b.selectors⟩

end IgnoreConfig

/-- Two colors that show alike on every background. -/
def Color.looksLike (a b : Color) : Bool :=
  a.red == b.red && a.green == b.green && a.blue == b.blue && a.opacity == b.opacity

/-- A pattern for elements. -/
inductive ElementPattern
  | id (pattern : String)
  | class (pattern : String)
  | tag (pattern : String)
  | nothing
  deriving DecidableEq, Repr

namespace ElementPattern

/-- Whether a text may be a pattern for tags: a letter or a star, then letters, digits, hyphens and
stars. -/
def isTagPattern : List Char → Bool
  | [] => false
  | c :: cs =>
    let starts (c : Char) : Bool := Text.isAsciiLetter c || c == '*'
    starts c && cs.all fun c => starts c || Text.isAsciiDigit c || c == '-'

/-- The pattern that a text writes. -/
def ofText (text : String) : ElementPattern :=
  match Text.trim text.toList with
  | '#' :: cs => .id (String.ofList cs)
  | '.' :: cs => .class (String.ofList cs)
  | cs => if isTagPattern cs then .tag (Text.lowercase (String.ofList cs)) else .nothing

/-- Whether an element fits a pattern. -/
def fits (f : Features) : ElementPattern → Bool
  | .id pattern => f.id.any (Text.Glob.describes pattern)
  | .class pattern => f.classes.any (Text.Glob.describes pattern)
  | .tag pattern => Text.Glob.describes pattern f.tag
  | .nothing => false

end ElementPattern

/-- What is ignored, ready for use. -/
structure IgnoreFilter where
  colors : List Color
  pairs : List (Color × Color)
  patterns : List ElementPattern
  deriving DecidableEq, Repr

namespace IgnoreFilter

/-- Two colors, unless one of the texts is none. -/
def parsePair (texts : String × String) : Except NumericFault (Option (Color × Color)) := do
  let foreground ← Color.parse texts.1
  let background ← Color.parse texts.2
  return do
    return (← foreground, ← background)

/-- The filter of a configuration. -/
def ofConfig (config : IgnoreConfig) : Except NumericFault IgnoreFilter := do
  let colors ← config.colors.mapM Color.parse
  let pairs ← config.pairs.mapM parsePair
  return ⟨colors.filterMap id, pairs.filterMap id, config.selectors.map ElementPattern.ofText⟩

/-- Whether the filter may ignore anything. -/
def isActive (filter : IgnoreFilter) : Bool :=
  !(filter.colors.isEmpty && filter.pairs.isEmpty && filter.patterns.isEmpty)

/-- Whether a color is ignored in any of its forms. -/
def ignoresColor (filter : IgnoreFilter) (info : ColorInfo) : Bool :=
  info.forms.any fun form => filter.colors.any form.looksLike

/-- Whether two colors are ignored together. -/
def ignoresTogether (filter : IgnoreFilter) (foreground background : ColorInfo) : Bool :=
  filter.pairs.any fun (f, b) =>
    foreground.forms.any (·.looksLike f) && background.forms.any (·.looksLike b)

/-- Whether a pair is ignored. -/
def ignores (filter : IgnoreFilter) (pair : ContrastPair) : Bool :=
  filter.ignoresColor pair.foreground || filter.ignoresColor pair.background ||
    filter.ignoresTogether pair.foreground pair.background ||
    filter.patterns.any (·.fits pair.element.features)

/-- The pairs that are kept and those that are ignored, each in order. -/
def split (filter : IgnoreFilter) (pairs : List ContrastPair) :
    List ContrastPair × List ContrastPair :=
  pairs.partition fun pair => !filter.ignores pair

/-- A filter with further rules. -/
def append (a b : IgnoreFilter) : IgnoreFilter :=
  ⟨a.colors ++ b.colors, a.pairs ++ b.pairs, a.patterns ++ b.patterns⟩

theorem ignores_append (a b : IgnoreFilter) (pair : ContrastPair) :
    (a.append b).ignores pair = (a.ignores pair || b.ignores pair) := by
  have either (p q : Color → Bool) (l : List Color) :
      l.any (fun x => p x || q x) = (l.any p || l.any q) := by
    induction l with
    | nil => rfl
    | cons x xs ih =>
      simp only [List.any_cons, ih]
      cases p x <;> cases q x <;> simp
  simp only [ignores, ignoresColor, ignoresTogether, append, List.any_append, either]
  ac_rfl

end IgnoreFilter

end ContrastAudit
