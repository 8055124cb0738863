import ContrastAudit.Color.Space
import ContrastAudit.Json.Basic
import ContrastAudit.Text.Fold

/-!
# Colors in token files

The value of a color token is a text, or an object with hexadecimal digits or with the components of
a color space.  A text that refers to another token is an alias.

**Results.**
* `aliasTarget?_braces`: the target of an alias holds no braces.
-/

namespace ContrastAudit.Token

/-- The path of the token that a text between braces refers to. -/
def aliasTarget? (text : List Char) : Option (List Char) :=
  match Text.trim text with
  | '\x7b' :: cs =>
    if cs.getLast? = some '\x7d' ∧ cs.dropLast ≠ [] ∧ '\x7b' ∉ cs.dropLast ∧
        '\x7d' ∉ cs.dropLast then
      some cs.dropLast
    else none
  | _ => none

theorem aliasTarget?_braces {text target : List Char} (h : aliasTarget? text = some target) :
    '\x7b' ∉ target ∧ '\x7d' ∉ target := by
  unfold aliasTarget? at h
  split at h
  · split at h
    · next hc =>
      cases h
      exact hc.2.2
    · simp at h
  · simp at h

/-- How texts start that look like colors. -/
def colorStarts : List String :=
  ["#", "rgb", "hsl", "hwb", "oklch", "oklab", "lab", "lch", "color-mix"]

/-- Whether a value looks like a color. -/
def isColorLike : Json → Bool
  | .object _ => true
  | .string s =>
    let text := Text.trim s.toList
    colorStarts.any (fun start => (Text.restAfterWord? start.toList text).isSome) ||
      (aliasTarget? text).isSome
  | _ => false

/-- A component as a number; what is none has no value. -/
def component? : Json → Except NumericFault (Option Float)
  | .int n => (Number.ofInt n).map some
  | .float x => .ok (some x)
  | .bool b => .ok (some (if b then 1.0 else 0.0))
  | .string s => .ok (Number.ofText? s)
  | _ => .ok none

/-- The hexadecimal digits of some components between zero and one. -/
def channelDigits? : List Json → Except NumericFault (Option (List Char))
  | [] => .ok (some [])
  | c :: cs => do
    match ← component? c with
    | none => return none
    | some x =>
      let rest ← channelDigits? cs
      return rest.map (Color.hexByte (Color.clampByte (x * 255.0)) ++ ·)

/-- The hexadecimal digits of an alpha below one, and nothing for any other value. -/
def alphaDigits (alpha : Option Json) : Except NumericFault (List Char) :=
  let digits (x : Float) : Except NumericFault (List Char) := do
    return Color.hexByte (← Number.roundHalfUp (Number.pickMax 0.0 x * 255.0))
  match alpha with
  | some (.int n) => if n < 1 then do digits (← Number.ofInt n) else .ok []
  | some (.bool false) => digits 0.0
  | some (.float x) => if x < 1.0 then digits x else .ok []
  | _ => .ok []

/-- The color that an object describes. -/
def objectText? (value : Json) : Except NumericFault (Option String) :=
  match value.get? "hex", value.get? "colorSpace", value.get? "components" with
  | some (.string hex), _, _ => .ok (some hex)
  | _, some (.string "srgb"), some (.array (r :: g :: b :: _)) => do
    match ← channelDigits? [r, g, b] with
    | none => return none
    | some digits =>
      let alpha ← alphaDigits (value.get? "alpha")
      return some (String.ofList ('#' :: digits ++ alpha))
  | _, _, _ => .ok none

/-- The color that a value writes, as text. -/
def colorText? (value : Json) : Except NumericFault (Option String) :=
  match value with
  | .string s => .ok (some (Text.strip s))
  | .object _ => objectText? value
  | _ => .ok none

end ContrastAudit.Token
