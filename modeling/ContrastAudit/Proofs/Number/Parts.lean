import Mathlib
import ContrastAudit.Number.Arithmetic

/-!
# What floating-point numbers stand for

A finite number stands for a rational one.  Its parts are read off its bits; they are the ones that
the platform's own arithmetic works on, and a number that is put together from parts has these parts
again.

**Results.**
* `parts_eq`: the parts of a number are those of the platform's model.
* `parts_pack`: parts in normal form survive being put together.
* `parts_ofBits`: the parts of a number that is made of bits are those of the bits.
* `floor_of_value?`: the floor of a finite number is that of what it stands for.
-/

namespace ContrastAudit.Number

open Float.Model Float.Model.UnpackedFloat

/-! ## Two ways to take a number apart -/

/-- Whether a sign is the negative one. -/
def isNegative : Sign → Bool
  | .negative => true
  | .positive => false

/-- The parts that the model of a number consists of. -/
def Parts.ofModel : UnpackedFloat → Parts
  | .notANumber => .notANumber
  | .infinity s => .infinite (isNegative s)
  | .zero s => .finite (isNegative s) 0 (-1074)
  | .finite s m e _ => .finite (isNegative s) m e

section Fields

variable (bits : BitVec 64)

theorem toNat_unpackExponent :
    (@unpackExponent Format.binary64 bits).toNat = bits.toNat / 2 ^ 52 % 2048 := by
  rw [unpackExponent_def, BitVec.extractLsb'_toNat, Nat.shiftRight_eq_div_pow]
  rfl

theorem toNat_unpackMantissa :
    (@unpackMantissa Format.binary64 bits).toNat = bits.toNat % 2 ^ 52 := by
  rw [unpackMantissa_def, BitVec.extractLsb'_toNat]
  rfl

theorem toNat_unpackSign : (@unpackSign Format.binary64 bits).toNat = bits.toNat / 2 ^ 63 := by
  have hbits := bits.isLt
  rw [unpackSign_def, BitVec.extractLsb'_toNat, Nat.shiftRight_eq_div_pow]
  exact Nat.mod_eq_of_lt (by simp only [Format.binary64]; omega)

theorem isNegative_unpackSign :
    isNegative (Sign.ofBitVec (@unpackSign Format.binary64 bits)) =
      (bits.toNat / 2 ^ 63 == 1) := by
  have hsign := toNat_unpackSign bits
  have hbits := bits.isLt
  unfold Sign.ofBitVec
  split
  · next h =>
      rw [h] at hsign
      have hzero : bits.toNat / 2 ^ 63 = 0 := hsign.symm
      rw [hzero]
      rfl
  · next h =>
      have hone : bits.toNat / 2 ^ 63 = 1 := by
        have hne : (@unpackSign Format.binary64 bits).toNat ≠ 0 := fun hzero =>
          h (BitVec.eq_of_toNat_eq hzero)
        omega
      rw [hone]
      rfl

theorem toNat_one_append (fraction : BitVec 52) :
    (1#1 ++ fraction).toNat = fraction.toNat + 2 ^ 52 := by
  have hlt := fraction.isLt
  rw [BitVec.toNat_append, ← Nat.shiftLeft_add_eq_or_of_lt hlt]
  simp [Nat.shiftLeft_eq, Nat.add_comm]

end Fields

/-- The parts that bits stand for. -/
def Parts.ofBits (bits : ℕ) : Parts :=
  let negative := bits / Nat.pow 2 63 == 1
  let biased : ℕ := bits / Nat.pow 2 52 % 2048
  let fraction : ℕ := bits % Nat.pow 2 52
  if biased = 2047 then (if fraction = 0 then .infinite negative else .notANumber)
  else if biased = 0 then .finite negative fraction (-1074)
  else .finite negative (fraction + Nat.pow 2 52) ((biased : ℤ) - 1075)

/-- A model that is made of bits has the parts that the bits stand for. -/
theorem ofModel_unpack (bits : BitVec 64) :
    Parts.ofModel (UnpackedFloat.unpack Format.binary64 bits) = .ofBits bits.toNat := by
  have hexponent := toNat_unpackExponent bits
  have hmantissa := toNat_unpackMantissa bits
  have hspecial : (@unpackExponent Format.binary64 bits = -1#11) ↔
      bits.toNat / 2 ^ 52 % 2048 = 2047 := by
    rw [← hexponent, ← BitVec.toNat_inj]
    rfl
  have hsubnormal : (@unpackExponent Format.binary64 bits = 0#11) ↔
      bits.toNat / 2 ^ 52 % 2048 = 0 := by
    rw [← hexponent, ← BitVec.toNat_inj]
    rfl
  have hwhole : (@unpackMantissa Format.binary64 bits = 0#52) ↔ bits.toNat % 2 ^ 52 = 0 := by
    rw [← hmantissa, ← BitVec.toNat_inj]
    rfl
  have hsign := isNegative_unpackSign bits
  have hbias : ((Format.binary64.exponentBias : ℕ) : ℤ) + (52 : ℕ) = 1075 := by decide
  rw [UnpackedFloat.unpack, Parts.ofBits]
  simp only [Nat.pow_eq, hspecial, hsubnormal, hwhole, ← hsign]
  split_ifs with h₁ h₂ h₃ h₄
  · rfl
  · rfl
  · rw [h₄]
    rfl
  · rw [Parts.ofModel, hmantissa, hexponent, h₃, hbias]
    rfl
  · rw [Parts.ofModel, hexponent, hbias, toNat_one_append, hmantissa]

/-- The parts of a number are those of its model. -/
theorem parts_eq (x : Float) : parts x = .ofModel x.toModel.unpack :=
  (ofModel_unpack x.toModel.toBits.toBitVec).symm

/-- The parts of a finite number are in normal form: the significand fits, and it is full unless the
exponent is the least one. -/
structure IsNormal (m : ℕ) (e : ℤ) : Prop where
  fits : m < 2 ^ 53
  least : -1074 ≤ e
  most : e ≤ 971
  full : 2 ^ 52 ≤ m ∨ e = -1074

theorem isNormal_of_ofBits {bits : ℕ} {negative : Bool} {m : ℕ} {e : ℤ}
    (h : Parts.ofBits bits = .finite negative m e) : IsNormal m e := by
  rw [Parts.ofBits] at h
  simp only [Nat.pow_eq] at h
  split_ifs at h with h₁ h₂ h₃
  · cases h
    exact ⟨by omega, by omega, by omega, .inr rfl⟩
  · cases h
    exact ⟨by omega, by omega, by omega, .inl (by omega)⟩

theorem isNormal_of_parts {x : Float} {negative : Bool} {m : ℕ} {e : ℤ}
    (h : parts x = .finite negative m e) : IsNormal m e :=
  isNormal_of_ofBits h

/-- The bits of three fields. -/
theorem toNat_packComponents (s : Sign) (exponent : BitVec 11) (fraction : BitVec 52) :
    (packComponents Format.binary64 s exponent fraction).toNat =
      (if isNegative s then 2 ^ 63 else 0) + exponent.toNat * 2 ^ 52 + fraction.toNat := by
  have hfraction := fraction.isLt
  have hexponent := exponent.isLt
  have hhigh : (s.toBitVec ++ exponent).toNat = s.toBitVec.toNat * 2 ^ 11 + exponent.toNat := by
    rw [BitVec.toNat_append, ← Nat.shiftLeft_add_eq_or_of_lt hexponent, Nat.shiftLeft_eq]
  rw [packComponents, BitVec.toNat_append, hhigh, ← Nat.shiftLeft_add_eq_or_of_lt hfraction,
    Nat.shiftLeft_eq]
  cases s with
  | positive =>
      simp only [isNegative, Sign.toBitVec, BitVec.toNat_ofNat, Bool.false_eq_true, if_false]
      omega
  | negative =>
      simp only [isNegative, Sign.toBitVec, BitVec.toNat_ofNat, if_true]
      omega

/-- The parts that three fields make. -/
theorem ofBits_fields (negative : Bool) {biased fraction : ℕ} (hbiased : biased < 2047)
    (hfraction : fraction < 2 ^ 52) :
    Parts.ofBits ((if negative then 2 ^ 63 else 0) + biased * 2 ^ 52 + fraction) =
      if biased = 0 then .finite negative fraction (-1074)
      else .finite negative (fraction + 2 ^ 52) ((biased : ℤ) - 1075) := by
  generalize hbits : (if negative then 2 ^ 63 else 0) + biased * 2 ^ 52 + fraction = bits
  have hsign : (bits / 2 ^ 63 == 1) = negative := by
    rw [← hbits]
    cases negative with
    | false =>
        simp only [Bool.false_eq_true, if_false, beq_eq_false_iff_ne]
        omega
    | true =>
        simp only [if_true, beq_iff_eq]
        omega
  have hexponent : bits / 2 ^ 52 % 2048 = biased := by
    rw [← hbits]
    split <;> omega
  have hrest : bits % 2 ^ 52 = fraction := by
    rw [← hbits]
    split <;> omega
  rw [Parts.ofBits]
  simp only [Nat.pow_eq, hsign, hexponent, hrest]
  rw [if_neg (by omega)]

theorem parts_of_fields {x : Float} {negative : Bool} {biased fraction : ℕ}
    (hx : x.toBits.toNat = (if negative then 2 ^ 63 else 0) + biased * 2 ^ 52 + fraction)
    (hbiased : biased < 2047) (hfraction : fraction < 2 ^ 52) :
    parts x =
      if biased = 0 then .finite negative fraction (-1074)
      else .finite negative (fraction + 2 ^ 52) ((biased : ℤ) - 1075) := by
  rw [← ofBits_fields negative hbiased hfraction, ← hx]
  rfl

/-- Parts in normal form survive being put together. -/
theorem parts_pack (s : Sign) {m : ℕ} {e : ℤ} (hm : 0 < m) (h : IsNormal m e) :
    parts ⟨Float.Model.pack (.finite s m e hm)⟩ = .finite (isNegative s) m e := by
  obtain ⟨hfits, hleast, hmost, hfull⟩ := h
  have hbits : (Float.ofModel (Float.Model.pack (.finite s m e hm))).toBits.toNat =
      (UnpackedFloat.pack Format.binary64 (.finite s m e hm)).toNat := rfl
  have hbiased : e + (Format.binary64.exponentBias : ℤ) + (52 : ℕ) = e + 1075 := by
    have hbias : (Format.binary64.exponentBias : ℤ) = 1023 := by decide
    rw [hbias]
    omega
  have hroom : ¬ 2 ^ 11 ≤ (e + 1075).toNat + 1 := by omega
  rw [UnpackedFloat.pack] at hbits
  simp only [hbiased, if_neg hroom] at hbits
  by_cases hlarge : 2 ^ 52 ≤ m
  · have hlog : m.log2 + 1 = Format.binary64.mantissaBits := by
      rw [(Nat.log2_eq_iff (by omega)).2 ⟨hlarge, hfits⟩]
      rfl
    rw [if_pos hlog, toNat_packComponents, BitVec.toNat_ofNat, BitVec.toNat_ofNat] at hbits
    rw [parts_of_fields hbits (by omega) (by omega), if_neg (by omega)]
    congr 1 <;> omega
  · have hlog : ¬ m.log2 + 1 = Format.binary64.mantissaBits := by
      have hlt : m.log2 < 52 := (Nat.log2_lt (by omega)).2 (by omega)
      have hbits : Format.binary64.mantissaBits = 53 := rfl
      omega
    rw [if_neg hlog, toNat_packComponents, BitVec.toNat_ofNat, BitVec.toNat_ofNat] at hbits
    rw [parts_of_fields hbits (by omega) (by omega), if_pos rfl, hfull.resolve_left hlarge]
    congr 1
    omega

/-- A number that is made of bits has the parts that the bits stand for. -/
theorem parts_ofBits (bits : UInt64) : parts (Float.ofBits bits) = .ofBits bits.toNat := by
  have hmodel := ofModel_unpack bits.toBitVec
  have hbits : Float.ofBits bits =
      ⟨Float.Model.pack (UnpackedFloat.unpack Format.binary64 bits.toBitVec)⟩ := rfl
  have hnat : bits.toBitVec.toNat = bits.toNat := rfl
  rw [hbits]
  rw [hnat] at hmodel
  cases hu : UnpackedFloat.unpack Format.binary64 bits.toBitVec with
  | notANumber =>
      rw [← hmodel, hu]
      decide +kernel
  | infinity s =>
      rw [← hmodel, hu]
      cases s <;> decide +kernel
  | zero s =>
      rw [← hmodel, hu]
      cases s <;> decide +kernel
  | finite s m e hm =>
      rw [hu] at hmodel
      rw [← hmodel]
      exact parts_pack s hm (isNormal_of_ofBits hmodel.symm)

/-! ## Values -/

/-- The rational number that parts stand for, if they are finite. -/
def Parts.value? : Parts → Option ℚ
  | .finite negative m e => some ((if negative then -m else m : ℤ) * (2 : ℚ) ^ e)
  | _ => none

/-- The rational number that a number stands for, if it is finite. -/
def value? (x : Float) : Option ℚ :=
  (parts x).value?

theorem floor_of_value? {x : Float} {q : ℚ} (h : value? x = some q) : floor x = .ok ⌊q⌋ := by
  unfold value? at h
  unfold floor
  cases hp : parts x with
  | infinite negative =>
      rw [hp] at h
      cases h
  | notANumber =>
      rw [hp] at h
      cases h
  | finite negative m e =>
      rw [hp] at h
      obtain rfl := Option.some.inj h
      dsimp only
      generalize (if negative then -(m : ℤ) else m) = n
      congr 1
      split
      · next he =>
          obtain ⟨k, rfl⟩ := Int.eq_ofNat_of_zero_le he
          rw [zpow_natCast]
          exact_mod_cast (Int.floor_intCast (R := ℚ) (n * 2 ^ k)).symm
      · next he =>
          obtain ⟨k, hk⟩ := @Int.eq_ofNat_of_zero_le (-e) (by omega)
          obtain rfl : e = -(k : ℤ) := by omega
          have hdiv : (n : ℚ) * 2 ^ (-(k : ℤ)) = (n : ℚ) / ((2 ^ k : ℕ) : ℚ) := by
            rw [zpow_neg, zpow_natCast, ← div_eq_mul_inv]
            norm_cast
          rw [hdiv, Rat.floor_intCast_div_natCast, neg_neg, Int.toNat_natCast, Nat.pow_eq,
            Int.fdiv_eq_ediv_of_nonneg _ (Int.natCast_nonneg _)]

end ContrastAudit.Number
