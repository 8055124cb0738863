import ContrastAudit.CommandLine.Usage
import ContrastAudit.File.System
import ContrastAudit.Number.Whole
import ContrastAudit.Property.Map
import ContrastAudit.Value.Arguments
import ContrastAudit.Value.Parse

/-!
# The values of arguments

How the values of options and arguments are read: names of files, choices, whole numbers, pairs of
colors and custom properties.

**Results.**
* `colorPair_eq_ok_iff`: a pair of colors is read from exactly two arguments.
-/

namespace ContrastAudit.CommandLine

/-- What a name leads to.  The empty name leads nowhere, and a name that ends like that of a
directory leads to no file. -/
def target (fs : FileSystem) (name : String) : Except FileError Entry := do
  let ending := name.toList.reverse
  let inside := ending.head? == some '/' || ending.take 2 == ['.', '/']
  if name = "" then throw .missing
  else
    match ← fs.find (Path.ofText name) with
    | .directory => return .directory
    | .file bytes => if inside then throw .notDirectory else return .file bytes

/-- The name of something that exists. -/
def existing (fs : FileSystem) (name : String) : Except ValueProblem String :=
  match target fs name with
  | .ok _ => .ok name
  | .error _ => .error (.noPath name)

/-- The name of a file, which need not exist. -/
def fileName (fs : FileSystem) (name : String) : Except ValueProblem String :=
  match target fs name with
  | .ok .directory => .error (.directory name)
  | _ => .ok name

/-- One of some choices. -/
def choice (choices : List (String × α)) (value : String) : Except ValueProblem α :=
  match choices.lookup value with
  | some chosen => .ok chosen
  | none => .error (.noChoice value (choices.map (·.1)))

/-- A whole number of at least one. -/
def positive (value : String) : Except ValueProblem Int :=
  match Number.wholeOfText? value with
  | none => .error (.noWholeNumber value)
  | some n => if n < 1 then .error (.belowOne n) else .ok n

/-- The arguments that a text writes, and none if it is malformed. -/
def argumentsOf (text : String) : List (List Component) :=
  match Component.parse text with
  | .error _ => []
  | .ok components => Component.splitArguments none components

/-- Two colors with a comma between them, which may have commas inside of parentheses. -/
def colorPair (value : String) : Except ValueProblem (String × String) :=
  match argumentsOf value with
  | [foreground, background] =>
    if foreground.isEmpty || background.isEmpty then .error (.noPair value)
    else .ok (Component.render foreground, Component.render background)
  | _ => .error (.noPair value)

/-- A custom property as a name, an equals sign and a value; the hyphens of the name may be left
out. -/
def variableOf (value : String) : Except ValueProblem (String × String) :=
  match Text.cut '=' value.toList with
  | none => .error (.noVariable value)
  | some (name, text) =>
    let name := String.ofList (Text.trim name)
    if name = "" then .error (.noVariable value)
    else
      .ok (if Text.startsWith name "--" then name else "--" ++ name, String.ofList (Text.trim text))

theorem colorPair_eq_ok_iff {value : String} {colors : String × String} :
    colorPair value = .ok colors ↔ ∃ foreground background, foreground ≠ [] ∧ background ≠ [] ∧
      argumentsOf value = [foreground, background] ∧
      colors = (Component.render foreground, Component.render background) := by
  unfold colorPair
  split
  · next f b h =>
    constructor
    · intro hr
      split at hr
      · simp at hr
      · next hn =>
        cases hr
        simp only [Bool.or_eq_true, List.isEmpty_iff, not_or] at hn
        exact ⟨f, b, hn.1, hn.2, h, rfl⟩
    · rintro ⟨f', b', hf, hb, hv, rfl⟩
      rw [h] at hv
      cases hv
      simp [hf, hb]
  · next h =>
    constructor
    · simp
    · rintro ⟨f, b, -, -, hv, -⟩
      exact absurd hv (h f b)

end ContrastAudit.CommandLine
