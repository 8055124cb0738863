import Mathlib.Algebra.Order.Field.Power
import Mathlib.Tactic.FieldSimp
import Mathlib.Tactic.Positivity
import ContrastAudit.Proofs.Number.Parts

/-!
# Rounding errors

Sums, differences and products of finite numbers are rounded to the nearest number.  Where the exact
result is at most `2 ^ N`, the rounded one is finite and differs from it by at most
`2 ^ (N - 52)`, which is all that is needed here: ties and the direction of the rounding do not
matter.

**Results.**
* `exists_denotes_roundWithAccuracy`: what rounding a significand costs at most.
* `value?_add`, `value?_sub`, `value?_mul`: what rounding a sum, a difference and a product costs,
  by the one bound.
-/

namespace ContrastAudit.Number

open Float.Model Float.Model.UnpackedFloat

/-! ## What models of numbers stand for -/

/-- A finite model in normal form stands for a rational number. -/
inductive Denotes : UnpackedFloat → ℚ → Prop
  | zero (s : Sign) : Denotes (.zero s) 0
  | finite (s : Sign) {m : ℕ} {e : ℤ} (hm : 0 < m) (h : IsNormal m e) :
      Denotes (.finite s m e hm) ((s.apply m : ℤ) * (2 : ℚ) ^ e)

theorem apply_eq (s : Sign) (m : ℕ) :
    s.apply m = if isNegative s then -(m : ℤ) else m := by
  cases s <;> rfl

theorem denotes_of_value? {x : Float} {q : ℚ} (h : value? x = some q) :
    Denotes x.toModel.unpack q := by
  rw [value?, parts_eq] at h
  have hnormal := fun negative m e => @isNormal_of_parts x negative m e
  rw [parts_eq] at hnormal
  cases hu : x.toModel.unpack with
  | notANumber =>
      rw [hu] at h
      cases h
  | infinity s =>
      rw [hu] at h
      cases h
  | zero s =>
      rw [hu] at h
      have hq : q = 0 := by simpa [Parts.ofModel, Parts.value?] using h.symm
      rw [hq]
      exact .zero s
  | finite s m e hm =>
      rw [hu] at h hnormal
      have hq : q = (s.apply m : ℤ) * (2 : ℚ) ^ e := by
        rw [apply_eq]
        exact (Option.some.inj h).symm
      rw [hq]
      exact .finite s hm (hnormal (isNegative s) m e rfl)

theorem value?_of_denotes {u : UnpackedFloat} {q : ℚ} (h : Denotes u q) :
    value? ⟨Float.Model.pack u⟩ = some q := by
  cases h with
  | zero s => cases s <;> decide +kernel
  | finite s hm hnormal => rw [value?, parts_pack s hm hnormal, Parts.value?, apply_eq]

theorem apply_neg (s : Sign) (n : ℤ) : (-s).apply n = -s.apply n := by
  cases s with
  | positive => rfl
  | negative => exact (neg_neg n).symm

theorem apply_mul (s s' : Sign) (m m' : ℕ) :
    (s * s').apply (m * m' : ℕ) = s.apply m * s'.apply m' := by
  cases s <;> cases s' <;> simp only [Sign.apply] <;> push_cast <;> ring

theorem abs_apply (s : Sign) (m : ℕ) : |((s.apply m : ℤ) : ℚ)| = m := by
  cases s <;> simp [Sign.apply]

theorem Denotes.neg {u : UnpackedFloat} {q : ℚ} (h : Denotes u q) : Denotes u.neg (-q) := by
  cases h with
  | zero s =>
      rw [neg_zero]
      exact .zero (-s)
  | @finite s m e hm hnormal =>
      rw [← neg_mul, ← Int.cast_neg, ← apply_neg]
      exact .finite (-s) hm hnormal

/-! ## Rounding a significand -/

/-- The exponent at which a significand is full, but not below the least one. -/
def target (m : ℕ) (e : ℤ) : ℤ :=
  max (m.log2 + e - 52) (-1074)

theorem targetExponent_eq (m : ℕ) (e : ℤ) :
    Format.binary64.targetExponent (totalExponent m e) = target m e := by
  have hbits : (Format.binary64.mantissaBits : ℤ) = 53 := rfl
  have hleast : Format.binary64.minExponent = -1074 := rfl
  rw [Format.targetExponent, totalExponent, target, hbits, hleast]
  congr 1
  omega

theorem mantissa_shiftRight (em : ExtendedMantissa) (k : ℕ) :
    (em >>> k).mantissa = em.mantissa / 2 ^ k := by
  change (Nat.repeat ExtendedMantissa.shiftRightOne k em).mantissa = _
  induction k with
  | zero => simp [Nat.repeat]
  | succ k ih =>
      rw [Nat.repeat, ExtendedMantissa.shiftRightOne, ih, Nat.div_div_eq_div_mul, ← Nat.pow_succ]

/-- Rounding adds at most one unit. -/
theorem roundedMantissa_bounds (em : ExtendedMantissa) :
    em.mantissa ≤ em.roundedMantissa ∧ em.roundedMantissa ≤ em.mantissa + 1 := by
  obtain ⟨m, half, rest⟩ := em
  cases half <;> cases rest <;>
    simp [ExtendedMantissa.roundedMantissa, ExtendedMantissa.accuracy,
      Accuracy.roundToNearestEven]
  omega

/-- A significand that fits is left as it is, and one that is just too great is halved. -/
theorem shiftToTargetExponent_of_le {r : ℕ} {t : ℤ} (hr : r ≤ 2 ^ 53) (ht : -1074 ≤ t) :
    let shifted := shiftToTargetExponent Format.binary64 r t .exact
    (r < 2 ^ 53 ∧ shifted.1.mantissa = r ∧ shifted.2 = t) ∨
      (r = 2 ^ 53 ∧ shifted.1.mantissa = 2 ^ 52 ∧ shifted.2 = t + 1) := by
  simp only [shiftToTargetExponent, targetExponent_eq, shiftToExponent, mantissa_shiftRight]
  have hexact : (ExtendedMantissa.ofMantissaAndAccuracy r .exact).mantissa = r := rfl
  rw [hexact]
  rcases Nat.lt_or_eq_of_le hr with hlt | rfl
  · left
    have hlog : r.log2 < 53 := by
      rcases Nat.eq_zero_or_pos r with rfl | hpos
      · decide
      · exact (Nat.log2_lt (by omega)).2 hlt
    have hnone : (target r t - t).toNat = 0 := by
      rw [target]
      omega
    rw [hnone, Nat.pow_zero, Nat.div_one]
    exact ⟨hlt, rfl, by simp⟩
  · right
    have hone : (target (2 ^ 53) t - t).toNat = 1 := by
      rw [target, Nat.log2_two_pow]
      omega
    rw [hone]
    exact ⟨rfl, by decide, rfl⟩

/-- What the rounding of a significand comes to, given its first shift. -/
theorem roundWithAccuracy_eq (s : Sign) (m : ℕ) (e : ℤ) (accuracy : Accuracy) :
    let first := shiftToTargetExponent Format.binary64 m e accuracy
    let last := shiftToTargetExponent Format.binary64 first.1.roundedMantissa first.2 .exact
    roundWithAccuracy Format.binary64 s m e accuracy =
      if h : last.1.mantissa = 0 then .zero s
      else .finite s last.1.mantissa last.2 (Nat.pos_of_ne_zero h) :=
  rfl

theorem mantissa_ofMantissaAndAccuracy (m : ℕ) (accuracy : Accuracy) :
    (ExtendedMantissa.ofMantissaAndAccuracy m accuracy).mantissa = m := by
  cases accuracy with
  | exact => rfl
  | inexact half => cases half <;> rfl

/-- The significand at its target exponent, cut off. -/
def shifted (m : ℕ) (e : ℤ) (accuracy : Accuracy) : ExtendedMantissa :=
  ExtendedMantissa.ofMantissaAndAccuracy m accuracy >>> (target m e - e).toNat

theorem mantissa_shifted (m : ℕ) (e : ℤ) (accuracy : Accuracy) :
    (shifted m e accuracy).mantissa = m / 2 ^ (target m e - e).toNat := by
  rw [shifted, mantissa_shiftRight, mantissa_ofMantissaAndAccuracy]

theorem shiftToTargetExponent_eq {m : ℕ} {e : ℤ} (accuracy : Accuracy) (he : e ≤ target m e) :
    shiftToTargetExponent Format.binary64 m e accuracy = (shifted m e accuracy, target m e) := by
  rw [shiftToTargetExponent, targetExponent_eq, shiftToExponent, shifted]
  congr 1
  omega

theorem div_two_pow_lt {m k : ℕ} (h : m.log2 ≤ 52 + k) : m / 2 ^ k < 2 ^ 53 := by
  rw [Nat.div_lt_iff_lt_mul (by positivity), ← Nat.pow_add]
  exact Nat.lt_of_lt_of_le Nat.lt_log2_self (Nat.pow_le_pow_right (by decide) (by omega))

theorem le_div_two_pow {m k : ℕ} (h : m.log2 = 52 + k) : 2 ^ 52 ≤ m / 2 ^ k := by
  have hm : m ≠ 0 := by
    rintro rfl
    rw [Nat.log2_zero] at h
    omega
  rw [Nat.le_div_iff_mul_le (by positivity), ← Nat.pow_add, ← h]
  exact Nat.log2_self_le hm

/-- A significand that is cut off at its target exponent is full, or the exponent is the least
one. -/
theorem full_or_least {m : ℕ} {e : ℤ} (he : e ≤ target m e) :
    2 ^ 52 ≤ m / 2 ^ (target m e - e).toNat ∨ target m e = -1074 := by
  by_cases hmin : target m e = -1074
  · exact .inr hmin
  · left
    apply le_div_two_pow
    rw [target] at hmin he ⊢
    omega

/-- What a rounded significand comes to: zero, or a number in normal form. -/
theorem denotes_rounded (s : Sign) {r : ℕ} {t : ℤ} (hr : r ≤ 2 ^ 53) (hleast : -1074 ≤ t)
    (htop : t ≤ 970 ∨ t = 971 ∧ r < 2 ^ 53) (hfull : 2 ^ 52 ≤ r ∨ t = -1074) :
    let last := shiftToTargetExponent Format.binary64 r t .exact
    Denotes
      (if h : last.1.mantissa = 0 then .zero s
        else .finite s last.1.mantissa last.2 (Nat.pos_of_ne_zero h))
      ((s.apply r : ℤ) * (2 : ℚ) ^ t) := by
  rcases shiftToTargetExponent_of_le hr hleast with
    ⟨hlt, hmantissa, hlast⟩ | ⟨rfl, hmantissa, hlast⟩
  · simp only [hmantissa, hlast]
    split
    · next hzero =>
        rw [hzero]
        have happly : s.apply ((0 : ℕ) : ℤ) = 0 := by cases s <;> rfl
        rw [happly, Int.cast_zero, zero_mul]
        exact .zero s
    · next hpos =>
        exact .finite s (Nat.pos_of_ne_zero hpos) ⟨hlt, hleast, by omega, hfull⟩
  · simp only [hmantissa, hlast]
    rw [dif_neg (by decide)]
    have hvalue : ((s.apply ((2 ^ 53 : ℕ) : ℤ) : ℤ) : ℚ) * 2 ^ t =
        (s.apply ((2 ^ 52 : ℕ) : ℤ) : ℤ) * (2 : ℚ) ^ (t + 1) := by
      rw [zpow_add_one₀ (by norm_num)]
      cases s <;> simp only [Sign.apply] <;> push_cast <;> ring
    rw [hvalue]
    exact .finite s _ ⟨by decide, by omega, by omega, .inl le_rfl⟩

/-- A significand is rounded to a whole number of units at its target exponent. -/
theorem denotes_roundWithAccuracy (s : Sign) {m : ℕ} {e : ℤ} (accuracy : Accuracy)
    (he : e ≤ target m e) (htop : target m e ≤ 970 ∨
      target m e = 971 ∧ (shifted m e accuracy).roundedMantissa < 2 ^ 53) :
    Denotes (roundWithAccuracy Format.binary64 s m e accuracy)
      ((s.apply (shifted m e accuracy).roundedMantissa : ℤ) * (2 : ℚ) ^ target m e) := by
  have hrounded := roundedMantissa_bounds (shifted m e accuracy)
  rw [mantissa_shifted] at hrounded
  have hlog : (m.log2 : ℤ) ≤ 52 + (target m e - e) := by
    rw [target]
    omega
  have hlt := @div_two_pow_lt m (target m e - e).toNat (by omega)
  have hfits : (shifted m e accuracy).roundedMantissa ≤ 2 ^ 53 := by omega
  rw [roundWithAccuracy_eq, shiftToTargetExponent_eq accuracy he]
  exact denotes_rounded s hfits (le_max_right _ _) htop
    ((full_or_least he).imp_left fun h => h.trans hrounded.1)

/-! ## Rounding errors -/

/-- Whole units are at most one unit off. -/
theorem abs_sub_le_of_div {m r k : ℕ} (hlow : m / 2 ^ k ≤ r) (hhigh : r ≤ m / 2 ^ k + 1) :
    |(r : ℚ) * 2 ^ k - m| ≤ 2 ^ k := by
  have hupper : r * 2 ^ k ≤ m + 2 ^ k :=
    calc r * 2 ^ k ≤ (m / 2 ^ k + 1) * 2 ^ k := Nat.mul_le_mul_right _ hhigh
      _ = m / 2 ^ k * 2 ^ k + 2 ^ k := by ring
      _ ≤ m + 2 ^ k := Nat.add_le_add_right (Nat.div_mul_le_self _ _) _
  have hlower : m ≤ r * 2 ^ k + 2 ^ k :=
    calc m = m / 2 ^ k * 2 ^ k + m % 2 ^ k := (Nat.div_add_mod' m (2 ^ k)).symm
      _ ≤ r * 2 ^ k + 2 ^ k :=
          Nat.add_le_add (Nat.mul_le_mul_right _ hlow) (Nat.mod_lt m (by positivity)).le
  have hupper' : (r : ℚ) * 2 ^ k ≤ m + 2 ^ k := by exact_mod_cast hupper
  have hlower' : (m : ℚ) ≤ r * 2 ^ k + 2 ^ k := by exact_mod_cast hlower
  rw [abs_le]
  constructor <;> linarith

theorem two_zpow_eq {t e : ℤ} (h : t ≤ e) : (2 : ℚ) ^ e = 2 ^ (e - t).toNat * 2 ^ t := by
  rw [← zpow_natCast, ← zpow_add₀ (by norm_num)]
  congr 1
  omega

theorem two_zpow_log2_le {m : ℕ} (hm : 0 < m) (e : ℤ) :
    (2 : ℚ) ^ ((m.log2 : ℤ) + e) ≤ m * 2 ^ e := by
  have hle : (2 : ℚ) ^ m.log2 ≤ m := by exact_mod_cast Nat.log2_self_le (by omega)
  rw [zpow_add₀ (by norm_num), zpow_natCast]
  exact mul_le_mul_of_nonneg_right hle (by positivity)

/-- A number of at most `2 ^ N` has its target exponent at least 52 below `N`. -/
theorem target_le {m : ℕ} {e N : ℤ} (hm : 0 < m) (hN : -1022 ≤ N)
    (h : (m : ℚ) * 2 ^ e ≤ 2 ^ N) : target m e ≤ N - 52 := by
  have hlog := (two_zpow_log2_le hm e).trans h
  have hle := (zpow_le_zpow_iff_right₀ (by norm_num : (1 : ℚ) < 2)).1 hlog
  rw [target]
  omega

theorem log2_mul_two_pow {m : ℕ} (hm : 0 < m) (k : ℕ) : (m * 2 ^ k).log2 = m.log2 + k := by
  induction k with
  | zero => simp
  | succ k ih =>
      rw [Nat.pow_succ, ← Nat.mul_assoc, Nat.mul_comm _ 2, Nat.log2_two_mul (by positivity), ih]
      rfl

theorem apply_decreaseExponent (s : Sign) (m : ℕ) {e t : ℤ} (h : t ≤ e) :
    ((s.apply ((decreaseExponent m e t).1 : ℕ) : ℤ) : ℚ) * 2 ^ t = (s.apply m : ℤ) * 2 ^ e := by
  have hvalue : (((decreaseExponent m e t).1 : ℕ) : ℚ) * 2 ^ t = m * 2 ^ e := by
    rw [decreaseExponent, Nat.shiftLeft_eq, two_zpow_eq h]
    push_cast
    ring
  cases s with
  | positive => exact hvalue
  | negative =>
      simp only [Sign.apply, Int.cast_neg, neg_mul]
      exact congrArg Neg.neg hvalue

/-- The product of two significands is full, or its exponent is below the least one. -/
theorem add_le_target {m m' : ℕ} {e e' : ℤ} (hm : 0 < m) (hm' : 0 < m') (h : IsNormal m e)
    (h' : IsNormal m' e') : e + e' ≤ target (m * m') (e + e') := by
  have hfull : 2 ^ 52 ≤ m * m' ∨ e + e' ≤ -1074 := by
    rcases h.full with hlarge | rfl
    · exact .inl (hlarge.trans (Nat.le_mul_of_pos_right m hm'))
    · rcases h'.full with hlarge | rfl
      · exact .inl (hlarge.trans (Nat.le_mul_of_pos_left m' hm))
      · exact .inr (by decide)
  rw [target]
  rcases hfull with hlarge | hsmall
  · have hlog : 52 ≤ (m * m').log2 := (Nat.le_log2 (Nat.mul_pos hm hm').ne').2 hlarge
    omega
  · exact hsmall.trans (le_max_right _ _)

/-- Before a significand is rounded, its exponent is lowered to the target exponent. -/
theorem round_eq (s : Sign) (m : ℕ) (e : ℤ) :
    UnpackedFloat.round Format.binary64 s m e =
      roundWithAccuracy Format.binary64 s (m * 2 ^ (e - target m e).toNat)
        (e - (e - target m e).toNat) .exact := by
  rw [UnpackedFloat.round, targetExponent_eq, decreaseExponent, Nat.shiftLeft_eq]

section Bounds

variable {N : ℤ} (hlow : -1022 ≤ N) (hhigh : N ≤ 1022)
include hlow hhigh

theorem exists_denotes_roundWithAccuracy (s : Sign) {m : ℕ} {e : ℤ} (hm : 0 < m)
    (he : e ≤ target m e) (h : (m : ℚ) * 2 ^ e ≤ 2 ^ N) :
    ∃ q, Denotes (roundWithAccuracy Format.binary64 s m e .exact) q ∧
      |q - (s.apply m : ℤ) * (2 : ℚ) ^ e| ≤ 2 ^ (N - 52) := by
  have htarget := target_le hm hlow h
  have hrounded := roundedMantissa_bounds (shifted m e .exact)
  rw [mantissa_shifted] at hrounded
  refine ⟨_, denotes_roundWithAccuracy s .exact he (.inl (by omega)), ?_⟩
  generalize (shifted m e .exact).roundedMantissa = r at hrounded ⊢
  have hunits := abs_sub_le_of_div hrounded.1 hrounded.2
  have hsplit := two_zpow_eq he
  have herror : |(r : ℚ) * 2 ^ target m e - m * 2 ^ e| ≤ 2 ^ target m e := by
    have hfactor : (r : ℚ) * 2 ^ target m e - m * 2 ^ e =
        (r * 2 ^ (target m e - e).toNat - m) * 2 ^ e := by
      rw [hsplit]
      ring
    rw [hfactor, abs_mul, abs_of_pos (by positivity : (0 : ℚ) < 2 ^ e), hsplit]
    exact mul_le_mul_of_nonneg_right hunits (by positivity)
  have hsign : |((s.apply r : ℤ) : ℚ) * 2 ^ target m e - (s.apply m : ℤ) * (2 : ℚ) ^ e| =
      |(r : ℚ) * 2 ^ target m e - m * 2 ^ e| := by
    cases s with
    | positive => rfl
    | negative =>
        simp only [Sign.apply, Int.cast_neg, Int.cast_natCast, neg_mul]
        rw [← abs_neg]
        congr 1
        ring
  rw [hsign]
  exact herror.trans (zpow_le_zpow_right₀ (by norm_num) htarget)

/-- A significand may have its exponent lowered first. -/
theorem exists_denotes_round (s : Sign) {m : ℕ} {e : ℤ} (hm : 0 < m)
    (h : (m : ℚ) * 2 ^ e ≤ 2 ^ N) :
    ∃ q, Denotes (UnpackedFloat.round Format.binary64 s m e) q ∧
      |q - (s.apply m : ℤ) * (2 : ℚ) ^ e| ≤ 2 ^ (N - 52) := by
  obtain ⟨k, hk⟩ : ∃ k, k = (e - target m e).toNat := ⟨_, rfl⟩
  have hround := round_eq s m e
  rw [← hk] at hround
  have hvalue : ((m * 2 ^ k : ℕ) : ℚ) * 2 ^ (e - k) = m * 2 ^ e := by
    rw [zpow_sub₀ (by norm_num), zpow_natCast]
    push_cast
    field_simp
  have hlog := log2_mul_two_pow hm k
  have hle : e - k ≤ target (m * 2 ^ k) (e - k) := by
    rw [target, hlog]
    rw [target] at hk
    omega
  obtain ⟨q, hdenotes, herror⟩ := exists_denotes_roundWithAccuracy hlow hhigh s
    (Nat.mul_pos hm (by positivity)) hle (hvalue.trans_le h)
  refine ⟨q, hround ▸ hdenotes, ?_⟩
  have hsigned : ((s.apply (m * 2 ^ k : ℕ) : ℤ) : ℚ) * 2 ^ (e - k) = (s.apply m : ℤ) * 2 ^ e := by
    cases s with
    | positive => exact hvalue
    | negative =>
        simp only [Sign.apply, Int.cast_neg, neg_mul]
        exact congrArg Neg.neg hvalue
  rwa [hsigned] at herror

/-- A whole number of units is rounded like its magnitude. -/
theorem exists_denotes_normalize {n e : ℤ} (zero : Sign) (h : |(n : ℚ) * 2 ^ e| ≤ 2 ^ N) :
    ∃ q, Denotes (UnpackedFloat.normalize Format.binary64 n e zero) q ∧
      |q - n * (2 : ℚ) ^ e| ≤ 2 ^ (N - 52) := by
  have hmagnitude : ((n.natAbs : ℕ) : ℚ) * 2 ^ e ≤ 2 ^ N := by
    rwa [abs_mul, abs_of_pos (by positivity : (0 : ℚ) < 2 ^ e), ← Int.cast_abs,
      Int.abs_eq_natAbs, Int.cast_natCast] at h
  rw [UnpackedFloat.normalize]
  rcases lt_trichotomy n 0 with hneg | rfl | hpos
  · obtain ⟨q, hdenotes, herror⟩ :=
      exists_denotes_round hlow hhigh .negative (Int.natAbs_pos.2 hneg.ne) hmagnitude
    have habs : (-n).toNat = n.natAbs := by omega
    have hsigned : Sign.apply .negative (n.natAbs : ℤ) = n := by
      rw [Sign.apply]
      omega
    rw [Int.compare_eq_lt.2 hneg, habs]
    rw [hsigned] at herror
    exact ⟨q, hdenotes, herror⟩
  · refine ⟨0, .zero zero, ?_⟩
    rw [Int.cast_zero, zero_mul, sub_zero, abs_zero]
    positivity
  · obtain ⟨q, hdenotes, herror⟩ :=
      exists_denotes_round hlow hhigh .positive (Int.natAbs_pos.2 hpos.ne') hmagnitude
    have habs : n.toNat = n.natAbs := by omega
    have hsigned : Sign.apply .positive (n.natAbs : ℤ) = n := by
      rw [Sign.apply]
      omega
    rw [Int.compare_eq_gt.2 hpos, habs]
    rw [hsigned] at herror
    exact ⟨q, hdenotes, herror⟩

/-! ## The operations -/

theorem Denotes.add {u v : UnpackedFloat} {x y : ℚ} (hu : Denotes u x) (hv : Denotes v y)
    (h : |x + y| ≤ 2 ^ N) :
    ∃ q, Denotes (UnpackedFloat.add Format.binary64 u v) q ∧ |q - (x + y)| ≤ 2 ^ (N - 52) := by
  have exact : ∀ {w : UnpackedFloat} {z : ℚ}, Denotes w z → z = x + y →
      ∃ q, Denotes w q ∧ |q - (x + y)| ≤ 2 ^ (N - 52) := by
    rintro w z hw rfl
    refine ⟨_, hw, ?_⟩
    rw [sub_self, abs_zero]
    positivity
  cases hu with
  | zero s =>
      cases hv with
      | zero s' =>
          rw [UnpackedFloat.add]
          split
          · exact exact (.zero s) (add_zero 0).symm
          · exact exact (.zero .positive) (add_zero 0).symm
      | finite s' hm' hnormal' => exact exact (.finite s' hm' hnormal') (zero_add _).symm
  | @finite s m e hm hnormal =>
      cases hv with
      | zero s' => exact exact (.finite s hm hnormal) (add_zero _).symm
      | @finite s' m' e' hm' hnormal' =>
          have hsum : ((s.apply ((decreaseExponent m e (min e e')).1 : ℕ) +
              s'.apply ((decreaseExponent m' e' (min e e')).1 : ℕ) : ℤ) : ℚ) * 2 ^ min e e' =
              (s.apply m : ℤ) * (2 : ℚ) ^ e + (s'.apply m' : ℤ) * (2 : ℚ) ^ e' := by
            rw [Int.cast_add, add_mul, apply_decreaseExponent s m (min_le_left e e'),
              apply_decreaseExponent s' m' (min_le_right e e')]
          rw [← hsum] at h ⊢
          exact exists_denotes_normalize hlow hhigh .positive h

theorem Denotes.mul {u v : UnpackedFloat} {x y : ℚ} (hu : Denotes u x) (hv : Denotes v y)
    (h : |x * y| ≤ 2 ^ N) :
    ∃ q, Denotes (UnpackedFloat.mul Format.binary64 u v) q ∧ |q - x * y| ≤ 2 ^ (N - 52) := by
  have nothing : ∀ {w : UnpackedFloat} (s : Sign), w = .zero s → x * y = 0 →
      ∃ q, Denotes w q ∧ |q - x * y| ≤ 2 ^ (N - 52) := by
    rintro w s rfl hxy
    refine ⟨0, .zero s, ?_⟩
    rw [hxy, sub_zero, abs_zero]
    positivity
  cases hu with
  | zero s =>
      cases hv with
      | zero s' => exact nothing (s * s') rfl (zero_mul _)
      | finite s' hm' hnormal' => exact nothing (s * s') rfl (zero_mul _)
  | @finite s m e hm hnormal =>
      cases hv with
      | zero s' => exact nothing (s * s') rfl (mul_zero _)
      | @finite s' m' e' hm' hnormal' =>
          have hproduct : (((s * s').apply (m * m' : ℕ) : ℤ) : ℚ) * 2 ^ (e + e') =
              (s.apply m : ℤ) * (2 : ℚ) ^ e * ((s'.apply m' : ℤ) * (2 : ℚ) ^ e') := by
            rw [zpow_add₀ (by norm_num), apply_mul, Int.cast_mul]
            ring
          rw [← hproduct] at h ⊢
          rw [abs_mul, abs_apply, abs_of_pos (by positivity : (0 : ℚ) < 2 ^ (e + e'))] at h
          exact exists_denotes_roundWithAccuracy hlow hhigh (s * s') (Nat.mul_pos hm hm')
            (add_le_target hm hm' hnormal hnormal') h

end Bounds

/-- Finite models are subtracted by adding the opposite. -/
theorem sub_of_denotes {u v : UnpackedFloat} {x y : ℚ} (hu : Denotes u x) (hv : Denotes v y) :
    UnpackedFloat.sub Format.binary64 u v = UnpackedFloat.add Format.binary64 u v.neg := by
  cases hu with
  | zero s => cases hv <;> rfl
  | finite s hm hnormal =>
      cases hv with
      | zero s' => rfl
      | finite s' hm' hnormal' =>
          simp only [UnpackedFloat.sub, UnpackedFloat.neg, UnpackedFloat.add, apply_neg,
            Int.sub_eq_add_neg]

section Floats

variable {N : ℤ} (hlow : -1022 ≤ N) (hhigh : N ≤ 1022) {a b : Float} {x y : ℚ}
  (ha : value? a = some x) (hb : value? b = some y)
include hlow hhigh ha hb

/-- A sum of at most `2 ^ N` is rounded to a finite number. -/
theorem value?_add (h : |x + y| ≤ 2 ^ N) :
    ∃ q, value? (a + b) = some q ∧ |q - (x + y)| ≤ 2 ^ (N - 52) := by
  obtain ⟨q, hq, herror⟩ :=
    (denotes_of_value? ha).add hlow hhigh (denotes_of_value? hb) h
  exact ⟨q, value?_of_denotes hq, herror⟩

/-- A difference of at most `2 ^ N` is rounded to a finite number. -/
theorem value?_sub (h : |x - y| ≤ 2 ^ N) :
    ∃ q, value? (a - b) = some q ∧ |q - (x - y)| ≤ 2 ^ (N - 52) := by
  rw [sub_eq_add_neg] at h ⊢
  obtain ⟨q, hq, herror⟩ :=
    (denotes_of_value? ha).add hlow hhigh (denotes_of_value? hb).neg h
  rw [← sub_of_denotes (denotes_of_value? ha) (denotes_of_value? hb)] at hq
  exact ⟨q, value?_of_denotes hq, herror⟩

/-- A product of at most `2 ^ N` is rounded to a finite number. -/
theorem value?_mul (h : |x * y| ≤ 2 ^ N) :
    ∃ q, value? (a * b) = some q ∧ |q - x * y| ≤ 2 ^ (N - 52) := by
  obtain ⟨q, hq, herror⟩ :=
    (denotes_of_value? ha).mul hlow hhigh (denotes_of_value? hb) h
  exact ⟨q, value?_of_denotes hq, herror⟩

end Floats

end ContrastAudit.Number
