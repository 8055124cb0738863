import ContrastAudit.Value.Component

/-!
# Arguments

The arguments of a function are the parts between its commas; commas inside nested functions and
blocks do not count.  Every argument is trimmed.

**Results.**
* `splitCommas_ne_nil`: there is always at least one argument.
-/

namespace ContrastAudit.Component

/-- A sequence without white space at its ends. -/
def stripSpace (components : List Component) : List Component :=
  ((components.dropWhile isSpace).reverse.dropWhile isSpace).reverse

/-- The parts between the first `limit` commas, or between all of them without a limit. -/
def splitCommas : Option Nat → List Component → List (List Component)
  | _, [] => [[]]
  | limit, c :: cs =>
    if c.isComma && limit != some 0 then [] :: splitCommas (limit.map (· - 1)) cs
    else
      match splitCommas limit cs with
      | [] => [[c]]
      | part :: parts => (c :: part) :: parts

/-- The limit that a number of cuts sets; a negative number sets none. -/
def limitOf : Int → Option Nat
  | .ofNat number => some number
  | .negSucc _ => none

/-- The arguments of a sequence, cut at no more than `limit` commas. -/
def splitArguments (limit : Option Nat) (components : List Component) : List (List Component) :=
  (splitCommas limit components).map stripSpace

theorem limitOf_eq_some_zero_iff {number : Int} : limitOf number = some 0 ↔ number = 0 := by
  cases number <;> simp [limitOf]

/-- A cut counts the number down, and a limit with it. -/
theorem limitOf_sub_one {number : Int} (h : number ≠ 0) :
    limitOf (number - 1) = (limitOf number).map (· - 1) := by
  match number with
  | .ofNat 0 => exact absurd rfl h
  | .ofNat (n + 1) => simp [limitOf]
  | .negSucc n => rfl

theorem splitCommas_ne_nil (limit : Option Nat) (components : List Component) :
    splitCommas limit components ≠ [] := by
  cases components with
  | nil => simp [splitCommas]
  | cons c cs =>
    unfold splitCommas
    split
    · simp
    · split <;> simp

end ContrastAudit.Component
