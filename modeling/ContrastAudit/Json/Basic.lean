/-!
# JSON documents

The values of the data format, with whole and fractional numbers apart and with the fields of an
object in order.

**Results.**
* `lookup_setField`: a field that has just been set is found.
-/

namespace ContrastAudit

/-- A JSON value. -/
inductive Json
  | null
  | bool (b : Bool)
  | int (n : Int)
  | float (x : Float)
  | string (s : String)
  | array (items : List Json)
  | object (fields : List (String × Json))
  deriving Repr, Inhabited

namespace Json

/-- Sets a field: a field of that name keeps its place, a new one comes last. -/
def setField (name : String) (value : Json) : List (String × Json) → List (String × Json)
  | [] => [(name, value)]
  | (key, old) :: fields =>
    if key = name then (key, value) :: fields else (key, old) :: setField name value fields

/-- The value of a field. -/
def lookup (name : String) : List (String × Json) → Option Json
  | [] => none
  | (key, value) :: fields => if key = name then some value else lookup name fields

/-- The value of a field of an object. -/
def get? (name : String) : Json → Option Json
  | .object fields => lookup name fields
  | _ => none

theorem lookup_setField (name : String) (value : Json) (fields : List (String × Json)) :
    lookup name (setField name value fields) = some value := by
  induction fields with
  | nil => simp [setField, lookup]
  | cons field fields ih =>
    obtain ⟨key, old⟩ := field
    by_cases h : key = name <;> simp [setField, lookup, h, ih]

end Json

end ContrastAudit
