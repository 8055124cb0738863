import ContrastAudit.Selector.Parse
import ContrastAudit.Style.Rule

/-!
# The cascade

Of all declarations that apply to an element and answer for a property, the one of the greatest
specificity wins, and among those the last one.  The page background is the first background that a
rule for one of the page's own selectors sets.

**Results.**
* `best_append`: the winner of two rule lists is the second list's winner unless the first list's is
  more specific.
-/

namespace ContrastAudit

/-- A declaration with the rule that supplied it. -/
structure Winner where
  declaration : Declaration
  specificity : Nat
  selector : String
  deriving DecidableEq, Repr

namespace Cascade

/-- The better of two candidates, of which the second stands later. -/
def better : Option Winner → Option Winner → Option Winner
  | first, none => first
  | none, second => second
  | some a, some b => if a.specificity ≤ b.specificity then some b else some a

/-- The candidates that a rule offers for a property of the first element of a lineage. -/
def candidates (lineage : List Features) (property : String) (rule : Rule) : List Winner :=
  if rule.ignored then []
  else
    match Selector.compile? rule.selector with
    | none => []
    | some s =>
      if s.applies lineage then
        (rule.declarations.filter (·.answers property)).map fun d =>
          ⟨d, s.specificity, rule.selector⟩
      else []

/-- The winner of a list of candidates in document order. -/
def winner (ws : List Winner) : Option Winner :=
  ws.foldl (fun best w => better best (some w)) none

/-- The winning declaration of a property for the first element of a lineage. -/
def best (lineage : List Features) (rules : List Rule) (property : String) : Option Winner :=
  winner (rules.flatMap (candidates lineage property))

/-- The selectors whose background is the page's. -/
def pageSelectors : List String :=
  ["body", "html", ":root"]

/-- The declaration that sets the page background. -/
def pageBackground : List Rule → Option Winner
  | [] => none
  | rule :: rules =>
    let selector := Text.strip rule.selector
    if rule.ignored || !pageSelectors.contains selector then pageBackground rules
    else
      match rule.declarations.find? (·.answers "background-color") with
      | some d => some ⟨d, 0, selector⟩
      | none => pageBackground rules

theorem better_assoc (a b c : Option Winner) :
    better (better a b) c = better a (better b c) := by
  cases a <;> cases b <;> cases c <;> grind [better]

theorem winner_append (xs ys : List Winner) :
    winner (xs ++ ys) = better (winner xs) (winner ys) := by
  have fold : ∀ (ws : List Winner) (a : Option Winner),
      ws.foldl (fun best w => better best (some w)) a =
        better a (ws.foldl (fun best w => better best (some w)) none) := by
    intro ws
    induction ws with
    | nil => intro a; cases a <;> rfl
    | cons w ws ih =>
      intro a
      rw [List.foldl_cons, ih, List.foldl_cons, ih (better none (some w)), better_assoc]
      simp [better]
  simp only [winner, List.foldl_append]
  exact fold ys _

theorem best_append (lineage : List Features) (xs ys : List Rule) (property : String) :
    best lineage (xs ++ ys) property =
      better (best lineage xs property) (best lineage ys property) := by
  simp [best, List.flatMap_append, winner_append]

end Cascade

end ContrastAudit
