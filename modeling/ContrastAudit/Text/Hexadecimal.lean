/-!
# Hexadecimal digits

Numbers with sixteen digits, `0` to `9` and the letters `a` to `f` in either case.

**Results.**
* `length_hexDigits`: a number has as many digits as are asked for.
* `natOfHex_hexDigits`: a number is read back from enough of its digits.
-/

namespace ContrastAudit.Text

/-- The value of a hexadecimal digit. -/
def hexValue? (c : Char) : Option Nat :=
  if '0' ≤ c ∧ c ≤ '9' then some (c.toNat - '0'.toNat)
  else if 'a' ≤ c ∧ c ≤ 'f' then some (c.toNat - 'a'.toNat + 10)
  else if 'A' ≤ c ∧ c ≤ 'F' then some (c.toNat - 'A'.toNat + 10)
  else none

/-- Whether a character is a hexadecimal digit. -/
def isHexDigit (c : Char) : Bool :=
  (hexValue? c).isSome

/-- The number that a run of hexadecimal digits writes; other characters count as zeros. -/
def natOfHex (cs : List Char) : Nat :=
  cs.foldl (fun n c => 16 * n + (hexValue? c).getD 0) 0

/-- The last `width` hexadecimal digits of a number, lower case, most significant first. -/
def hexDigits : Nat → Nat → List Char
  | 0, _ => []
  | width + 1, n => hexDigits width (n / 16) ++ [Nat.digitChar (n % 16)]

@[simp] theorem length_hexDigits (width n : Nat) : (hexDigits width n).length = width := by
  induction width generalizing n with
  | zero => rfl
  | succ width ih => simp [hexDigits, ih]

theorem hexValue?_digitChar {d : Nat} (h : d < 16) : hexValue? (Nat.digitChar d) = some d := by
  have : ∀ d : Fin 16, hexValue? (Nat.digitChar d) = some d.val := by decide
  exact this ⟨d, h⟩

theorem natOfHex_append_singleton (cs : List Char) (c : Char) :
    natOfHex (cs ++ [c]) = 16 * natOfHex cs + (hexValue? c).getD 0 := by
  simp [natOfHex, List.foldl_append]

theorem natOfHex_hexDigits (width n : Nat) :
    natOfHex (hexDigits width n) = n % Nat.pow 16 width := by
  induction width generalizing n with
  | zero => simp [hexDigits, natOfHex, Nat.mod_one]
  | succ width ih =>
    have last := hexValue?_digitChar (Nat.mod_lt n (by decide : 0 < 16))
    have power : Nat.pow 16 (width + 1) = 16 * Nat.pow 16 width :=
      Nat.mul_comm (Nat.pow 16 width) 16
    rw [hexDigits, natOfHex_append_singleton, ih, last, Option.getD_some, power, Nat.mod_mul]
    omega

end ContrastAudit.Text
