import ContrastAudit.Document.Element

/-!
# Selectors

A selector has a target, the compound that the styled element itself has to meet, and a context of
further compounds to its left, each with the combinator that joins it to what follows it.  Nothing
is evaluated to the left of a sibling combinator.
-/

namespace ContrastAudit

/-- How a compound relates to the one on its right. -/
inductive Combinator
  | descendant
  | child
  | sibling
  deriving DecidableEq, Repr

/-- Constraints on one element. -/
structure Compound where
  tag : Option String := none
  ids : List String := []
  classes : List String := []
  universal : Bool := false
  deriving DecidableEq, Repr

namespace Compound

/-- Whether there is no constraint, and no `*` either. -/
def isEmpty (c : Compound) : Bool :=
  c.tag.isNone && c.ids.isEmpty && c.classes.isEmpty && !c.universal

/-- A hundred for each id, ten for each class and one for a tag. -/
def specificity (c : Compound) : Nat :=
  100 * c.ids.length + 10 * c.classes.length + (if c.tag.isSome then 1 else 0)

/-- Whether an element meets the constraints. -/
def describes (c : Compound) (f : Features) : Bool :=
  c.tag.all (· == f.tag) && c.ids.all (f.id == some ·) && c.classes.all f.classes.contains

end Compound

/-- A target with its context, nearest compound first. -/
structure Selector where
  text : String
  target : Compound
  context : List (Combinator × Compound) := []
  deriving DecidableEq, Repr

namespace Selector

/-- The compounds from left to right. -/
def compounds (s : Selector) : List Compound :=
  (s.context.map (·.2)).reverse ++ [s.target]

/-- The combinators from left to right; each joins a compound to the next. -/
def combinators (s : Selector) : List Combinator :=
  (s.context.map (·.1)).reverse

/-- The specificities of all compounds together. -/
def specificity (s : Selector) : Nat :=
  s.compounds.foldl (fun sum c => sum + c.specificity) 0

/-- Whether some suffix of a lineage has a first element and a rest that pass a test. -/
def someAncestor (test : Features → List Features → Bool) : List Features → Bool
  | [] => false
  | f :: above => test f above || someAncestor test above

/-- Whether a context fits the ancestors of an element, nearest first. -/
def contextFits : List (Combinator × Compound) → List Features → Bool
  | [], _ => true
  | (.sibling, _) :: _, _ => true
  | (.child, c) :: context, ancestors =>
    match ancestors with
    | [] => false
    | f :: above => c.describes f && contextFits context above
  | (.descendant, c) :: context, ancestors =>
    someAncestor (fun f above => c.describes f && contextFits context above) ancestors

/-- Whether a selector applies to the first element of a lineage. -/
def applies (s : Selector) : List Features → Bool
  | [] => false
  | f :: ancestors => !s.target.isEmpty && s.target.describes f && contextFits s.context ancestors

theorem length_compounds (s : Selector) : s.compounds.length = s.combinators.length + 1 := by
  simp [compounds, combinators]

end Selector

end ContrastAudit
