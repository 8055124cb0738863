import ContrastAudit.Property.Substitution

/-!
# Style rules

A rule pairs one selector with the declarations that matter here: colors, backgrounds and font
sizes and weights.  A declaration keeps its text and, once custom properties are known, its
resolved value.

**Results.**
* `resolve_resolve`: resolving a declaration twice is resolving it once.
-/

namespace ContrastAudit

/-- One declaration.  The resolved value is missing before custom properties are substituted, and
after it only if a reference cannot be resolved. -/
structure Declaration where
  property : String
  raw : String
  resolved : Option String := none
  deriving DecidableEq, Repr

/-- One selector with its declarations; an ignored rule takes no part in the cascade. -/
structure Rule where
  selector : String
  declarations : List Declaration
  ignored : Bool := false
  deriving DecidableEq, Repr

namespace Declaration

/-- The properties that matter; all others are dropped when a style sheet is read. -/
def tracked : List String :=
  ["color", "background-color", "background", "font-size", "font-weight"]

/-- The value that counts: the resolved one if there is one. -/
def value (d : Declaration) : String :=
  d.resolved.getD d.raw

/-- Whether a declaration answers a question for a property; a background shorthand answers for the
background color. -/
def answers (d : Declaration) (property : String) : Bool :=
  d.property == property || (property == "background-color" && d.property == "background")

/-- The declaration with its value resolved, unless it already is. -/
def resolve (properties : PropertyMap) (d : Declaration) : Declaration :=
  match d.resolved with
  | some _ => d
  | none => { d with resolved := Property.resolve properties d.raw }

theorem resolve_resolve (properties : PropertyMap) (d : Declaration) :
    (d.resolve properties).resolve properties = d.resolve properties := by
  cases h : d.resolved with
  | some v => simp [resolve, h]
  | none =>
    cases hr : Property.resolve properties d.raw <;> simp [resolve, h, hr]

theorem answers_resolve (properties : PropertyMap) (d : Declaration) (property : String) :
    (d.resolve properties).answers property = d.answers property := by
  unfold resolve
  split <;> rfl

end Declaration

/-- The rule with all of its declarations resolved. -/
def Rule.resolve (properties : PropertyMap) (rule : Rule) : Rule :=
  { rule with declarations := rule.declarations.map (Declaration.resolve properties) }

end ContrastAudit
