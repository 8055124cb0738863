import ContrastAudit.Property.Map
import ContrastAudit.Text.Case
import ContrastAudit.Text.Cut
import ContrastAudit.Value.Arguments
import ContrastAudit.Value.Parse

/-!
# Substitution of custom properties

Every reference `var(name, fallback)` in a value is replaced by the resolved value of the name, or
by the resolved fallback if the name has no value.  References may stand inside of functions and
blocks; everything else keeps its text.  A reference that cannot be resolved leaves the whole value
without a result, and so does a chain of references that is too long.

**Results.**
* `resolve_of_not_hasReference`: a value without references is its own result.
-/

namespace ContrastAudit.Property

/-- The longest chain of references, counting the value that starts it. -/
def maxDepth : Nat := 10

/-- Whether a value may hold a reference. -/
def hasReference (value : String) : Bool :=
  Text.occurs "var(".toList (Text.lower value.toList)

mutual

/-- One component with its references replaced by what `resolve` makes of their arguments. -/
def substitute (resolve : List Component → Option (List Component)) :
    Component → Option (List Component)
  | .leaf kind text => some [.leaf kind text]
  | .block children => (substituteAll resolve children).map fun children => [.block children]
  | .function name children =>
    if Text.lowercase name = "var" then resolve children
    else (substituteAll resolve children).map fun children => [.function name children]

/-- A sequence with its references replaced. -/
def substituteAll (resolve : List Component → Option (List Component)) :
    List Component → Option (List Component)
  | [] => some []
  | c :: cs => do
    let front ← substitute resolve c
    let rest ← substituteAll resolve cs
    return front ++ rest

end

/-- The name of a reference and its fallback, which is empty if there is none. -/
def referenceParts (arguments : List Component) : String × String :=
  match Component.splitArguments (some 1) arguments with
  | [name] => (Component.render name, "")
  | name :: fallback :: _ => (Component.render name, Component.render fallback)
  | [] => ("", "")

/-- The value that a reference stands for before it is resolved. -/
def target? (properties : PropertyMap) (arguments : List Component) : Option String :=
  let (name, fallback) := referenceParts arguments
  match properties.get? name with
  | some value => some value
  | none => if fallback = "" then none else some fallback

/-- The value with all references resolved, where chains may be at most `depth` long. -/
def resolveWithin (properties : PropertyMap) : Nat → String → Option String
  | 0, _ => none
  | depth + 1, value =>
    if hasReference value then do
      let components ← Component.parse? value
      let result ← substituteAll
        (fun arguments => do
          let target ← target? properties arguments
          Component.parse? (← resolveWithin properties depth target))
        components
      return Text.strip (Component.render result)
    else some value

/-- The value with all references resolved, when `depth` references have been followed already. -/
def resolve (properties : PropertyMap) (value : String) (depth : Int := 0) : Option String :=
  resolveWithin properties (maxDepth - depth).toNat value

theorem resolve_of_not_hasReference {value : String} (h : hasReference value = false)
    (properties : PropertyMap) : resolve properties value = some value := by
  simp [resolve, maxDepth, resolveWithin, h]

end ContrastAudit.Property
