import ContrastAudit.Property.Map
import ContrastAudit.Text.Cut
import ContrastAudit.Token.Color

/-!
# Design tokens

A token document nests tokens in groups.  A token has a value and perhaps a type; without one it has
the type of the nearest group around it that has one.  Color tokens become custom properties whose
names are the paths of the tokens.  Groups of a type other than color are left out unless they are
tokens themselves.

A color token may refer to another one; such references are followed over at most ten tokens, and
one that leads nowhere stays as it is written.

**Results.**
* `followAlias_of_not_alias`: a text that is no reference is its own result.
-/

namespace ContrastAudit.Token

/-- The value and the type of a token; a missing type is null. -/
def valueAndType? (fields : List (String × Json)) : Option (Json × Json) :=
  match Json.lookup "$value" fields, Json.lookup "value" fields with
  | some value, _ => some (value, (Json.lookup "$type" fields).getD .null)
  | none, some value => some (value, (Json.lookup "type" fields).getD .null)
  | none, none => none

/-- Whether a value counts as set. -/
def isSet : Json → Bool
  | .null => false
  | .bool b => b
  | .int n => n != 0
  | .float x => x != 0.0
  | .string s => s != ""
  | .array items => !items.isEmpty
  | .object fields => !fields.isEmpty

/-- Whether a type is that of colors. -/
def isColorType : Json → Bool
  | .string s => s == "color"
  | _ => false

/-- Whether a type is missing. -/
def isMissing : Json → Bool
  | .null => true
  | _ => false

/-- The color of a token in a group of a type, as text. -/
def tokenText? (group value type : Json) : Except NumericFault (Option String) :=
  let type := if isSet type then type else group
  if isColorType type || (isMissing type && isColorLike value) then colorText? value else .ok none

mutual

/-- The color tokens of some fields of a group, with their paths; `group` is the type of the group,
null if it has none. -/
def colorTokens (path : List String) (group : Json) :
    List (String × Json) → Except NumericFault (List (String × String))
  | [] => .ok []
  | (name, child) :: fields => do
    let first ←
      if Text.startsWith name "$" then pure [] else childTokens (path ++ [name]) group child
    return first ++ (← colorTokens path group fields)

/-- The color tokens of one field of a group. -/
def childTokens (path : List String) (group : Json) :
    Json → Except NumericFault (List (String × String))
  | .object fields =>
    match valueAndType? fields with
    | some (value, type) => do
      return (← tokenText? group value type).toList.map fun text => (".".intercalate path, text)
    | none =>
      let type := (Json.lookup "$type" fields).getD group
      if isColorType type || isMissing type then colorTokens path type fields else .ok []
  | _ => .ok []

end

/-- The most references that are followed. -/
def maxReferences : Nat := 10

/-- The text that a text leads to when references are followed. -/
def followAlias (tokens : PropertyMap) : Nat → String → String
  | 0, text => text
  | n + 1, text =>
    match aliasTarget? text.toList with
    | none => text
    | some target =>
      match tokens.get? (String.ofList target) with
      | none => text
      | some next => followAlias tokens n next

theorem followAlias_of_not_alias {text : String} (h : aliasTarget? text.toList = none)
    (tokens : PropertyMap) (n : Nat) : followAlias tokens n text = text := by
  cases n <;> simp [followAlias, h]

/-- The custom property for a path of dots. -/
def propertyName (path : String) : String :=
  "--" ++ String.ofList (path.toList.map fun c => if c = '.' then '-' else c)

/-- The custom properties of the fields of a token document. -/
def flatten (fields : List (String × Json)) : Except NumericFault PropertyMap := do
  let type := (Json.lookup "$type" fields).getD .null
  let tokens := PropertyMap.merge [] (← colorTokens [] type fields)
  return PropertyMap.merge []
    (tokens.map fun (path, text) => (propertyName path, followAlias tokens maxReferences text))

end ContrastAudit.Token
