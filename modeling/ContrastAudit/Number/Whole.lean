import ContrastAudit.Number.Decimal

/-!
# Whole numbers as text

A whole number is written with decimal digits of any script; underscores may stand between two
digits, a sign before them and blanks around everything.  A number of more than 4300 digits is never
meant.
-/

namespace ContrastAudit.Number

/-- The most digits of a whole number. -/
def maxWholeDigits : Nat := 4300

/-- The whole number that a text writes on its own. -/
def wholeOfText? (s : String) : Option Int := do
  let (negative, cs) := match Text.trim s.toList with
    | '-' :: cs => (true, cs)
    | '+' :: cs => (false, cs)
    | cs => (false, cs)
  let ds ← withoutUnderscores false cs
  if ds.isEmpty || !ds.all Text.isDecimal || maxWholeDigits < ds.length then none
  else
    let n : Int := Text.natOfDigits ds
    some (if negative then -n else n)

end ContrastAudit.Number
