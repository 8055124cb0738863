import ContrastAudit.Number.Dyadic
import ContrastAudit.Text.Blank
import ContrastAudit.Text.Case
import ContrastAudit.Text.Digit

/-!
# Decimal notation

How numbers are written: with a fixed number of places, with a fixed number of significant digits,
or with the fewest digits that read back; and how decimal texts are read.  All of it is exact
arithmetic on the dyadic fraction; ties go to the even digit.

**Results.**
* `readsBack_of_shortest`: the fewest digits read back as the number.
-/

namespace ContrastAudit.Number

/-- The digits of a natural number. -/
def digits (n : Nat) : List Char :=
  Nat.toDigits 10 n

/-- A digit text of at least `width` characters. -/
def padded (width : Nat) (cs : List Char) : List Char :=
  List.replicate (width - cs.length) '0' ++ cs

/-- A digit text with a point before its last `places` digits. -/
def withPoint (places : Nat) (cs : List Char) : List Char :=
  if places = 0 then cs
  else
    let cs := padded (places + 1) cs
    cs.take (cs.length - places) ++ '.' :: cs.drop (cs.length - places)

/-- The sign of a negative number. -/
def sign (negative : Bool) : List Char :=
  if negative then ['-'] else []

/-- `m · 2 ^ e · 10 ^ places` rounded to a natural number. -/
def scaledTo (places : Nat) (m : Nat) (e : Int) : Nat :=
  roundHalfEven (m * Nat.pow 10 places * Nat.pow 2 e.toNat) (Nat.pow 2 (-e).toNat)

/-- A number with a fixed number of decimal places. -/
def fixed (places : Nat) (x : Float) : String :=
  match parts x with
  | .finite negative m e =>
    String.ofList (sign negative ++ withPoint places (digits (scaledTo places m e)))
  | .infinite negative => String.ofList (sign negative ++ "inf".toList)
  | .notANumber => "nan"

/-- The decimal `n · 10 ^ e` as the nearest number. -/
def ofDecimal (n : Nat) (e : Int) : Float :=
  let size : Int := (digits n).length + e
  if n = 0 || size < -400 then 0.0
  else if 400 < size then 1.0 / 0.0
  else Float.ofScientific n (e < 0) e.natAbs

/-- A number rounded to a number of decimal places. -/
def roundTo (places : Nat) (x : Float) : Float :=
  match parts x with
  | .finite negative m e =>
    let y := ofDecimal (scaledTo places m e) (-places)
    if negative then -y else y
  | _ => x

/-- The decimal exponent of `m · 2 ^ e`, that is the position of its first digit, for `m ≠ 0`. -/
def exponent (m : Nat) (e : Int) : Int :=
  if 0 ≤ e then (digits (m * Nat.pow 2 e.toNat)).length - 1
  else
    let whole := m / Nat.pow 2 (-e).toNat
    if whole ≠ 0 then (digits whole).length - 1
    else
      -- `m / 2 ^ k = m · 5 ^ k / 10 ^ k`
      (digits (m * Nat.pow 5 (-e).toNat)).length - 1 - (-e)

/-- `m · 2 ^ e / 10 ^ k` as a fraction. -/
def overPower (m : Nat) (e k : Int) : Nat × Nat :=
  (m * Nat.pow 2 e.toNat * Nat.pow 10 (-k).toNat, Nat.pow 2 (-e).toNat * Nat.pow 10 k.toNat)

/-- The first `count` digits of `m · 2 ^ e`, rounded, as a number, and the exponent of the first
of them. -/
def significant (count m : Nat) (e : Int) : Nat × Int :=
  let k := exponent m e
  let (num, den) := overPower m e (k - (count - 1))
  let n := roundHalfEven num den
  if n = Nat.pow 10 count then (n / 10, k + 1) else (n, k)

/-- A decimal exponent with its sign and at least two digits. -/
def exponentText (k : Int) : List Char :=
  'e' :: (if k < 0 then '-' else '+') :: padded 2 (digits k.natAbs)

/-- A digit text without trailing zeros. -/
def dropZeros (cs : List Char) : List Char :=
  (cs.reverse.dropWhile (· == '0')).reverse

/-- Where positional notation ends and whether a whole number keeps a fractional zero. -/
structure Layout where
  /-- The least exponent written positionally. -/
  least : Int
  /-- The least exponent that is again written with a power of ten. -/
  limit : Int
  /-- Whether a whole number ends in `.0`. -/
  pointZero : Bool

/-- The significant digits `ds`, of which the first has exponent `k`, in a layout. -/
def Layout.write (layout : Layout) (ds : List Char) (k : Int) : List Char :=
  let ds := match dropZeros ds with
    | [] => ['0']
    | ds => ds
  if layout.least ≤ k && k < layout.limit then
    if k < 0 then '0' :: '.' :: (List.replicate (-k - 1).toNat '0' ++ ds)
    else
      let width := k.toNat + 1
      if ds.length ≤ width then
        ds ++ List.replicate (width - ds.length) '0' ++
          (if layout.pointZero then ['.', '0'] else [])
      else ds.take width ++ '.' :: ds.drop width
  else
    match ds with
    | [d] => d :: exponentText k
    | d :: ds => d :: '.' :: ds ++ exponentText k
    | [] => exponentText k

/-- Six significant digits without trailing zeros; positional from `0.0001` to below a million. -/
def general (x : Float) : String :=
  match parts x with
  | .finite negative m e =>
    let (n, k) := if m = 0 then (0, 0) else significant 6 m e
    let layout : Layout := ⟨-4, 6, false⟩
    String.ofList (sign negative ++ layout.write (digits n) k)
  | .infinite negative => String.ofList (sign negative ++ "inf".toList)
  | .notANumber => "nan"

/-- The neighbours of `m · 2 ^ e` with `count` digits, the nearer one first, and the exponent of
their last digit. -/
def neighbours (count m : Nat) (e : Int) : List Nat × Int :=
  let last := exponent m e - (count - 1)
  let (num, den) := overPower m e last
  let below := num / den
  let near := roundHalfEven num den
  (if near = below then [below, below + 1] else [below + 1, below], last)

/-- The first of `count`, `count + 1`, … digits that read back as `x`, with at most `fuel` tries. -/
def shortestFrom (x : Float) (m : Nat) (e : Int) : Nat → Nat → Option (Nat × Int)
  | 0, _ => none
  | fuel + 1, count =>
    let (candidates, last) := neighbours count m e
    match candidates.find? fun n => (ofDecimal n last).toBits == x.toBits with
    | some n => some (n, last)
    | none => shortestFrom x m e fuel (count + 1)

/-- The fewest digits, as a number and the exponent of its last digit, that read back as the
positive number `x = m · 2 ^ e`; seventeen always suffice. -/
def shortest (x : Float) (m : Nat) (e : Int) : Option (Nat × Int) :=
  shortestFrom x m e 17 1

theorem readsBack_of_shortestFrom {x : Float} {m : Nat} {e : Int} {fuel count n : Nat} {last : Int}
    (h : shortestFrom x m e fuel count = some (n, last)) :
    (ofDecimal n last).toBits = x.toBits := by
  induction fuel generalizing count with
  | zero => simp [shortestFrom] at h
  | succ fuel ih =>
    simp only [shortestFrom] at h
    split at h
    · next k hk =>
      simp only [Option.some.injEq, Prod.mk.injEq] at h
      have := List.find?_some hk
      simp only [beq_iff_eq] at this
      rw [← h.1, ← h.2]
      exact this
    · exact ih h

theorem readsBack_of_shortest {x : Float} {m : Nat} {e : Int} {n : Nat} {last : Int}
    (h : shortest x m e = some (n, last)) : (ofDecimal n last).toBits = x.toBits :=
  readsBack_of_shortestFrom h

/-- The fewest digits that read back; positional from `0.0001` to below ten to the sixteenth. -/
def exact (x : Float) : String :=
  match parts x with
  | .finite negative m e =>
    let layout : Layout := ⟨-4, 16, true⟩
    let (n, last) := if m = 0 then (0, 0) else (shortest x.abs m e).getD (0, 0)
    let ds := digits n
    String.ofList (sign negative ++ layout.write ds (last + (ds.length - 1)))
  | .infinite negative => String.ofList (sign negative ++ "inf".toList)
  | .notANumber => "nan"

/-- The number that a text `whole.fraction` of decimal digits writes. -/
def ofDigits (whole fraction : List Char) : Float :=
  ofDecimal (Text.natOfDigits (whole ++ fraction)) (-fraction.length)

/-- Underscores may stand between two digits; `none` if one stands elsewhere. -/
def withoutUnderscores (before : Bool) : List Char → Option (List Char)
  | [] => some []
  | '_' :: c :: cs =>
    if before && Text.isDecimal c then (withoutUnderscores true cs).map (c :: ·) else none
  | ['_'] => none
  | c :: cs => (withoutUnderscores (Text.isDecimal c) cs).map (c :: ·)

/-- The magnitude that an unsigned decimal text writes: digits with an optional point, then an
optional power of ten. -/
def ofMagnitude? (cs : List Char) : Option Float :=
  let whole := cs.takeWhile Text.isDecimal
  let cs := cs.dropWhile Text.isDecimal
  let (fraction, cs) := match cs with
    | '.' :: cs => (cs.takeWhile Text.isDecimal, cs.dropWhile Text.isDecimal)
    | cs => ([], cs)
  if whole.isEmpty && fraction.isEmpty then none
  else
    let write (k : Int) := ofDecimal (Text.natOfDigits (whole ++ fraction)) (k - fraction.length)
    match cs with
    | [] => some (write 0)
    | c :: cs =>
      if c = 'e' ∨ c = 'E' then
        let (negative, ds) := match cs with
          | '-' :: ds => (true, ds)
          | '+' :: ds => (false, ds)
          | ds => (false, ds)
        if ds.isEmpty || !ds.all Text.isDecimal then none
        else
          let k : Int := Text.natOfDigits ds
          some (write (if negative then -k else k))
      else none

/-- The number that a text writes on its own: blanks around it, a sign, and digits or one of the
words for infinity and not-a-number in either case. -/
def ofText? (s : String) : Option Float := do
  let cs := Text.trim s.toList
  let (negative, cs) := match cs with
    | '-' :: cs => (true, cs)
    | '+' :: cs => (false, cs)
    | cs => (false, cs)
  let x ← match String.ofList (cs.map Char.toLower) with
    | "inf" | "infinity" => some (1.0 / 0.0)
    | "nan" => some (0.0 / 0.0)
    | _ => withoutUnderscores false cs >>= ofMagnitude?
  return if negative then -x else x

end ContrastAudit.Number
