import ContrastAudit.Number.Dyadic
import ContrastAudit.Number.Fault

/-!
# Arithmetic beyond the four operations

Rounding to whole numbers, remainders, powers, lengths and angles.  Whatever can fail says so with
a fault; whatever is a matter of exact arithmetic is computed on dyadic fractions.

**Results.**
* `root_sq_le`: the whole root does not exceed the root.
-/

namespace ContrastAudit.Number

/-- The first argument unless the second is greater. -/
def pickMax (x y : Float) : Float :=
  if x < y then y else x

/-- The first argument unless the second is smaller. -/
def pickMin (x y : Float) : Float :=
  if y < x then y else x

/-- The greatest integer that is not above `x`. -/
def floor (x : Float) : Except NumericFault Int :=
  match parts x with
  | .finite negative m e =>
    let n : Int := if negative then -m else m
    .ok (if 0 ≤ e then n * Nat.pow 2 e.toNat else Int.fdiv n (Nat.pow 2 (-e).toNat))
  | .infinite _ => .error .overflow
  | .notANumber => .error .undefined

/-- The nearest integer; a half goes up. -/
def roundHalfUp (x : Float) : Except NumericFault Int :=
  floor (x + 0.5)

/-- An integer as a floating-point number. -/
def ofInt (n : Int) : Except NumericFault Float :=
  let x := ofDyadic (n < 0) n.natAbs 0
  if isFinite x then .ok x else .error .overflow

/-- `n / d` for a positive `d`, correctly rounded: the integer is scaled until the whole quotient
has more bits than a significand, and one bit tells whether the division is exact. -/
def quotient (n : Int) (d : Nat) : Except NumericFault Float :=
  let up := 64 + Nat.log2 d
  let scaled := n.natAbs * Nat.pow 2 up
  let rest := if scaled % d = 0 then 0 else 1
  let x := ofDyadic (n < 0) (2 * (scaled / d) + rest) (-up - 1)
  if isFinite x then .ok x else .error .overflow

/-- `x / y` for a divisor other than zero. -/
def divide (x y : Float) : Except NumericFault Float :=
  if y == 0.0 then .error .zeroDivisor else .ok (x / y)

/-- The remainder of `x` modulo a positive number of degrees `d`: zero or more, and at most `d`.
The remainder of an infinite number is not a number. -/
def modulo (x : Float) (d : Nat) : Float :=
  match parts x with
  | .finite negative m e =>
    let down := e.toNat
    let up := (-e).toNat
    let r := m * Nat.pow 2 down % (d * Nat.pow 2 up)
    let rest := ofDyadic negative r (-up)
    if r = 0 then 0.0 else if negative then rest + ofDyadic false d 0 else rest
  | _ => 0.0 / 0.0

/-- The greatest number whose power `2.4` is in range. -/
def gammaLimit : Float := 2.7508367432548594e128

/-- `x` to the power `2.4`, for `x` of zero or more. -/
def gammaPower (x : Float) : Except NumericFault Float :=
  if isFinite x && gammaLimit < x then .error .overflow else .ok (Float.pow x 2.4)

/-- `x` to the power `1 / 2.4`, for `x` of zero or more. -/
def gammaRoot (x : Float) : Float :=
  Float.pow x (1.0 / 2.4)

/-- The cube root, with the sign of `x`. -/
def cubeRoot (x : Float) : Float :=
  let root := Float.pow x.abs (1.0 / 3.0)
  match parts x with
  | .finite true .. | .infinite true => -root
  | _ => root

/-- The third power. -/
def cube (x : Float) : Except NumericFault Float :=
  match parts x with
  | .finite negative m e =>
    let y := ofDyadic negative (m * m * m) (3 * e)
    if isFinite y then .ok y else .error .overflow
  | _ => .ok x

/-- The greatest number below `r + 2 ^ k` whose square is at most `n`, built bit by bit from a root
`r` that is known so far. -/
def rootFrom (n : Nat) : Nat → Nat → Nat
  | 0, r => r
  | k + 1, r =>
    let next := r + Nat.pow 2 k
    rootFrom n k (if next * next ≤ n then next else r)

/-- The whole part of the square root. -/
def root (n : Nat) : Nat :=
  rootFrom n (Nat.log2 n / 2 + 1) 0

/-- The length of the vector `(x, y)`, correctly rounded: the sum of the squares is scaled until
its root has more bits than a significand, and one bit tells whether the root is exact. -/
def length (x y : Float) : Float :=
  match parts x, parts y with
  | .infinite _, _ | _, .infinite _ => 1.0 / 0.0
  | .notANumber, _ | _, .notANumber => 0.0 / 0.0
  | .finite _ m e, .finite _ n f =>
    let unit := min e f
    let p := m * Nat.pow 2 (e - unit).toNat
    let q := n * Nat.pow 2 (f - unit).toNat
    let square := p * p + q * q
    let up := 64 - Nat.log2 square / 2
    let scaled := square * Nat.pow 4 up
    let r := root scaled
    ofDyadic false (2 * r + (if r * r = scaled then 0 else 1)) (unit - up - 1)

theorem rootFrom_sq_le {n k r : Nat} (h : r * r ≤ n) :
    rootFrom n k r * rootFrom n k r ≤ n := by
  induction k generalizing r with
  | zero => exact h
  | succ k ih =>
    let next := r + Nat.pow 2 k
    refine ih (r := if next * next ≤ n then next else r) ?_
    split
    · assumption
    · exact h

theorem root_sq_le (n : Nat) : root n * root n ≤ n :=
  rootFrom_sq_le (by simp)

/-- The circle number. -/
def pi : Float := 3.141592653589793

/-- An angle in radians as degrees. -/
def degrees (x : Float) : Float :=
  x * (180.0 / pi)

/-- An angle in degrees as radians. -/
def radians (x : Float) : Float :=
  x * (pi / 180.0)

/-- Whether a number is infinite. -/
def isInfinite (x : Float) : Bool :=
  match parts x with
  | .infinite _ => true
  | _ => false

/-- The cosine of a finite angle. -/
def cosine (x : Float) : Except NumericFault Float :=
  if isInfinite x then .error .undefined else .ok x.cos

/-- The sine of a finite angle. -/
def sine (x : Float) : Except NumericFault Float :=
  if isInfinite x then .error .undefined else .ok x.sin

end ContrastAudit.Number
