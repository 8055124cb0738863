import ContrastAudit.Json.Basic
import ContrastAudit.Number.Decimal
import ContrastAudit.Text.Quoted

/-!
# Values in messages

How a value is shown inside of a message: texts between quotes, the three words `None`, `True` and
`False`, lists between brackets and fields between braces.  A value that is a text can also be shown
without quotes.
-/

namespace ContrastAudit.Json

mutual

/-- A value as it is shown in a message. -/
def display : Json → String
  | .null => "None"
  | .bool b => if b then "True" else "False"
  | .int n => toString n
  | .float x => Number.exact x
  | .string s => Text.quoted s
  | .array items => "[" ++ ", ".intercalate (displayItems items) ++ "]"
  | .object fields => "\x7b" ++ ", ".intercalate (displayFields fields) ++ "\x7d"

/-- The items of a list. -/
def displayItems : List Json → List String
  | [] => []
  | item :: items => display item :: displayItems items

/-- The fields of an object. -/
def displayFields : List (String × Json) → List String
  | [] => []
  | (name, value) :: fields => (Text.quoted name ++ ": " ++ display value) :: displayFields fields

end

/-- A value as text: a text itself, and any other value as it is shown. -/
def shown : Json → String
  | .string s => s
  | value => value.display

end ContrastAudit.Json
