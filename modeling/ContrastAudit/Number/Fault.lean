/-!
# Numeric faults

Most of the arithmetic goes on with infinities and not-a-number.  A few operations have no value at
some arguments; what asks for them fails with a fault instead of a number.
-/

namespace ContrastAudit

/-- Why an operation has no value. -/
inductive NumericFault
  /-- The argument lies outside of the operation's domain. -/
  | undefined
  /-- A finite argument leads out of the range of numbers. -/
  | overflow
  /-- The divisor is zero. -/
  | zeroDivisor
  deriving DecidableEq, Repr

end ContrastAudit
