import ContrastAudit.Style.Rule

/-!
# Style sheets

What is kept of a style sheet: its rules in order, the custom properties of the page, of which later
ones win, and the targets of its imports.  Sheets are added one after the other.
-/

namespace ContrastAudit

/-- Rules, custom properties and imports. -/
structure Sheet where
  rules : List Rule := []
  properties : PropertyMap := []
  imports : List String := []
  deriving DecidableEq, Repr

namespace Sheet

/-- Two sheets one after the other. -/
def append (a b : Sheet) : Sheet :=
  ⟨a.rules ++ b.rules, a.properties.merge b.properties, a.imports ++ b.imports⟩

instance : Append Sheet := ⟨append⟩

@[simp] theorem rules_append (a b : Sheet) : (a ++ b).rules = a.rules ++ b.rules := rfl

@[simp] theorem imports_append (a b : Sheet) : (a ++ b).imports = a.imports ++ b.imports := rfl

@[simp] theorem properties_append (a b : Sheet) :
    (a ++ b).properties = a.properties.merge b.properties := rfl

theorem append_empty (a : Sheet) : a ++ ({} : Sheet) = a := by
  show append a {} = a
  simp [append, PropertyMap.merge]

end Sheet

end ContrastAudit
