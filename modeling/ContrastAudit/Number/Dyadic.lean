/-!
# Floating-point numbers as dyadic fractions

A finite number is `±m · 2 ^ e` for natural `m`.  This module takes a number apart and rounds a
dyadic fraction to the nearest number, a tie going to the even significand.
-/

namespace ContrastAudit.Number

/-- A number taken apart. -/
inductive Parts
  | finite (negative : Bool) (m : Nat) (e : Int)
  | infinite (negative : Bool)
  | notANumber
  deriving DecidableEq, Repr

/-- The parts of a number, from its sign, exponent and fraction fields. -/
def parts (x : Float) : Parts :=
  let bits := x.toBits.toNat
  let negative := bits / Nat.pow 2 63 == 1
  let biased : Nat := bits / Nat.pow 2 52 % 2048
  let fraction : Nat := bits % Nat.pow 2 52
  if biased = 2047 then (if fraction = 0 then .infinite negative else .notANumber)
  else if biased = 0 then .finite negative fraction (-1074)
  else .finite negative (fraction + Nat.pow 2 52) ((biased : Int) - 1075)

/-- `num / den` rounded to the nearest natural number, a tie to the even one. -/
def roundHalfEven (num den : Nat) : Nat :=
  let q := num / den
  let r := num % den
  if 2 * r < den then q
  else if den < 2 * r then q + 1
  else q + q % 2

/-- The number with the given sign and magnitude bits; the largest exponent means infinity. -/
def ofFields (negative : Bool) (magnitude : Nat) : Float :=
  let magnitude := min magnitude (2047 * Nat.pow 2 52)
  Float.ofBits (UInt64.ofNat ((if negative then Nat.pow 2 63 else 0) + magnitude))

/-- The number nearest to `±m · 2 ^ e`; infinite if that is out of range. -/
def ofDyadic (negative : Bool) (m : Nat) (e : Int) : Float :=
  if m = 0 then ofFields negative 0
  else
    let size : Int := Nat.log2 m + 1
    let unit : Int := max (e + size - 53) (-1074)
    let significand :=
      if unit ≤ e then m * Nat.pow 2 (e - unit).toNat
      else roundHalfEven m (Nat.pow 2 (unit - e).toNat)
    ofFields negative ((unit + 1074).toNat * Nat.pow 2 52 + significand)

/-- Whether a number is neither infinite nor not-a-number. -/
def isFinite (x : Float) : Bool :=
  match parts x with
  | .finite .. => true
  | _ => false

end ContrastAudit.Number
