/-!
# Custom properties

A map from the names of custom properties to their values.  Of two values for one name the later
one counts.

**Results.**
* `get?_set`: what a map holds after a property is set.
-/

namespace ContrastAudit

/-- Names and values, each name at most once when built with `set`. -/
abbrev PropertyMap := List (String × String)

namespace PropertyMap

/-- The value of a name. -/
def get? (name : String) : PropertyMap → Option String
  | [] => none
  | (key, value) :: rest => if key = name then some value else get? name rest

/-- Gives a name a value: a known name keeps its place, a new one comes last. -/
def set (name value : String) : PropertyMap → PropertyMap
  | [] => [(name, value)]
  | (key, old) :: rest =>
    if key = name then (key, value) :: rest else (key, old) :: set name value rest

/-- The properties of both maps, where the second one wins. -/
def merge (base extra : PropertyMap) : PropertyMap :=
  extra.foldl (fun map (name, value) => map.set name value) base

/-- The properties of several maps in ascending priority. -/
def mergeAll (maps : List PropertyMap) : PropertyMap :=
  maps.foldl merge []

theorem get?_set (name key value : String) (map : PropertyMap) :
    (map.set key value).get? name = if name = key then some value else map.get? name := by
  induction map with
  | nil => by_cases h : name = key <;> simp [set, get?, h, eq_comm]
  | cons entry rest ih =>
    obtain ⟨k, old⟩ := entry
    by_cases hk : k = key
    · by_cases h : name = key
      · simp [set, get?, hk, h]
      · simp [set, get?, hk, h, Ne.symm h]
    · by_cases h : k = name
      · subst h
        simp [set, get?, hk]
      · simp [set, get?, hk, h, ih]

theorem merge_nil (map : PropertyMap) : map.merge [] = map := rfl

end PropertyMap

end ContrastAudit
