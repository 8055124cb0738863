import ContrastAudit.Proofs.Number.Rounding

/-!
# Quotients are rounded to the nearest number

Of the part of a significand that is cut off, the platform keeps two bits: whether it reaches one
half, and whether there is more to it.  These survive every shift, so a significand is rounded to
the nearest whole number, however often it was shifted.  Whole numbers of units are the nearest
numbers then: those with a smaller unit are too small.

**Results.**
* `Approximates.shiftRight`, `Approximates.abs_sub_le`: the two bits tell the nearest whole number.
* `isNearest_of_abs_sub_le`: a nearest whole number of units is a nearest number.
* `exists_isNearest_div`: a quotient is rounded to a nearest number.
-/

namespace ContrastAudit.Number

open Float.Model Float.Model.UnpackedFloat

/-! ## What is cut off -/

/-- A significand that was cut off stands for `x`: the one bit tells whether there is one half
behind it, and the other one whether there is a rest behind that. -/
def Approximates (em : ExtendedMantissa) (x : ℚ) : Prop :=
  ∃ rest : ℚ, 0 ≤ rest ∧ rest < 1 / 2 ∧ (em.stickyBit = false ↔ rest = 0) ∧
    x = em.mantissa + (em.roundBit.toNat : ℚ) / 2 + rest

theorem toNat_odd (m : ℕ) : (m % 2 != 0).toNat = m % 2 := by
  rcases Nat.mod_two_eq_zero_or_one m with hm | hm <;> rw [hm] <;> rfl

namespace Approximates

variable {em : ExtendedMantissa} {x : ℚ}

theorem shiftRightOne (h : Approximates em x) : Approximates em.shiftRightOne (x / 2) := by
  obtain ⟨m, half, more⟩ := em
  obtain ⟨rest, hlow, hhigh, hmore, rfl⟩ := h
  have hparity : (m : ℚ) = 2 * (m / 2 : ℕ) + (m % 2 : ℕ) := by
    exact_mod_cast (Nat.div_add_mod m 2).symm
  refine ⟨((half.toNat : ℚ) / 2 + rest) / 2, by positivity, ?_, ?_, ?_⟩
  · have hbit : (half.toNat : ℚ) ≤ 1 := by exact_mod_cast half.toNat_le
    linarith
  · cases half with
    | false => simpa [ExtendedMantissa.shiftRightOne] using hmore
    | true =>
        have hne : (1 / 2 + rest) / 2 ≠ 0 := by positivity
        simpa [ExtendedMantissa.shiftRightOne] using hne
  · simp only [ExtendedMantissa.shiftRightOne, toNat_odd]
    linarith

theorem shiftRight (h : Approximates em x) (k : ℕ) : Approximates (em >>> k) (x / 2 ^ k) := by
  change Approximates (Nat.repeat ExtendedMantissa.shiftRightOne k em) _
  induction k with
  | zero => simpa [Nat.repeat] using h
  | succ k ih =>
      rw [Nat.repeat, pow_succ, ← div_div]
      exact ih.shiftRightOne

/-- The significand that is rounded to is a nearest whole number. -/
theorem abs_sub_le (h : Approximates em x) : |(em.roundedMantissa : ℚ) - x| ≤ 1 / 2 := by
  obtain ⟨m, half, more⟩ := em
  obtain ⟨rest, hlow, hhigh, hmore, rfl⟩ := h
  have hodd : ((m % 2 : ℕ) : ℚ) ≤ 1 := by exact_mod_cast Nat.le_of_lt_succ (Nat.mod_lt m two_pos)
  rw [abs_le]
  cases half <;> cases more <;>
    simp only [ExtendedMantissa.roundedMantissa, ExtendedMantissa.accuracy,
      Accuracy.roundToNearestEven, Bool.toNat_false, Bool.toNat_true, Nat.cast_add, Nat.cast_zero,
      Nat.cast_one]
  case true.false =>
    have hrest : rest = 0 := hmore.1 rfl
    have heven : (0 : ℚ) ≤ (m % 2 : ℕ) := Nat.cast_nonneg _
    constructor <;> linarith
  all_goals constructor <;> linarith

theorem le (h : Approximates em x) : (em.mantissa : ℚ) ≤ x := by
  obtain ⟨rest, hlow, -, -, rfl⟩ := h
  have hbit : (0 : ℚ) ≤ (em.roundBit.toNat : ℚ) / 2 := by positivity
  linarith

end Approximates

theorem approximates_exact (m : ℕ) :
    Approximates (ExtendedMantissa.ofMantissaAndAccuracy m .exact) m :=
  ⟨0, le_rfl, by norm_num, iff_of_true rfl rfl, by simp [ExtendedMantissa.ofMantissaAndAccuracy]⟩

/-- What is left of a division is told by comparing it with one half of the divisor. -/
theorem approximates_accuracyOfFraction (k : ℕ) {r den : ℕ} (h : r < den) :
    Approximates (ExtendedMantissa.ofMantissaAndAccuracy k (accuracyOfFraction r den))
      (k + (r : ℚ) / den) := by
  have hpos : (0 : ℚ) < den := by exact_mod_cast Nat.zero_lt_of_lt h
  have hlt : (r : ℚ) / den < 1 := (div_lt_one hpos).2 (by exact_mod_cast h)
  rw [accuracyOfFraction]
  rcases Nat.eq_zero_or_pos r with rfl | hr
  · rw [if_pos rfl, Nat.cast_zero, zero_div, add_zero]
    exact approximates_exact k
  rw [if_neg hr.ne']
  have hr' : 0 < (r : ℚ) / den := div_pos (by exact_mod_cast hr) hpos
  rcases lt_trichotomy (2 * r) den with hless | hequal | hmore
  · have hhalf : (r : ℚ) / den < 1 / 2 := by
      rw [div_lt_div_iff₀ hpos two_pos]
      exact_mod_cast (by omega : r * 2 < 1 * den)
    rw [compare_lt_iff_lt.2 hless]
    exact ⟨r / den, hr'.le, hhalf, iff_of_false (by simp [ExtendedMantissa.ofMantissaAndAccuracy])
      hr'.ne', by simp [ExtendedMantissa.ofMantissaAndAccuracy]⟩
  · have hhalf : (r : ℚ) / den = 1 / 2 := by
      rw [div_eq_div_iff hpos.ne' two_ne_zero]
      exact_mod_cast (by omega : r * 2 = 1 * den)
    rw [compare_eq_iff_eq.2 hequal, hhalf]
    exact ⟨0, le_rfl, by norm_num, iff_of_true rfl rfl,
      by simp [ExtendedMantissa.ofMantissaAndAccuracy]⟩
  · have hhalf : 1 / 2 < (r : ℚ) / den := by
      rw [div_lt_div_iff₀ two_pos hpos]
      exact_mod_cast (by omega : 1 * den < r * 2)
    rw [compare_gt_iff_gt.2 hmore]
    exact ⟨r / den - 1 / 2, by linarith, by linarith,
      iff_of_false (by simp [ExtendedMantissa.ofMantissaAndAccuracy]) (by linarith),
      by simp [ExtendedMantissa.ofMantissaAndAccuracy]⟩

theorem approximates_div (num : ℕ) {den : ℕ} (hden : 0 < den) :
    Approximates (ExtendedMantissa.ofMantissaAndAccuracy (num / den)
      (accuracyOfFraction (num % den) den)) ((num : ℚ) / den) := by
  have hdivision : (num : ℚ) / den = (num / den : ℕ) + ((num % den : ℕ) : ℚ) / den := by
    have hsplit : (num : ℚ) = den * (num / den : ℕ) + (num % den : ℕ) := by
      exact_mod_cast (Nat.div_add_mod num den).symm
    have hne : (den : ℚ) ≠ 0 := by exact_mod_cast hden.ne'
    rw [eq_comm, ← mul_div_cancel_left₀ ((num / den : ℕ) : ℚ) hne, ← add_div, ← hsplit]
  rw [hdivision]
  exact approximates_accuracyOfFraction _ (Nat.mod_lt num hden)

/-! ## Nearest numbers -/

/-- No finite number is nearer to `v` than `q` is; only numbers without a minus sign count. -/
def IsNearest (q v : ℚ) : Prop :=
  ∀ m e, IsNormal m e → |q - v| ≤ |(m : ℚ) * 2 ^ e - v|

/-- A whole number within one half is a nearest one. -/
theorem abs_sub_le_abs_sub {r : ℕ} {x : ℚ} (h : |(r : ℚ) - x| ≤ 1 / 2) (n : ℕ) :
    |(r : ℚ) - x| ≤ |(n : ℚ) - x| := by
  rcases eq_or_ne n r with rfl | hne
  · exact le_rfl
  · have hapart : (1 : ℚ) ≤ |(n : ℚ) - r| := by
      have hint : (1 : ℤ) ≤ |(n : ℤ) - r| := Int.one_le_abs (by omega)
      exact_mod_cast hint
    have htriangle := abs_sub_le (n : ℚ) x r
    rw [abs_sub_comm x] at htriangle
    linarith

/-- A nearest whole number of units is a nearest number if it is full, or the unit is the least
one. -/
theorem isNearest_of_abs_sub_le {r : ℕ} {t : ℤ} {x : ℚ} (h : |(r : ℚ) - x| ≤ 1 / 2)
    (hfull : (2 : ℚ) ^ 52 ≤ x ∨ t = -1074) : IsNearest (r * 2 ^ t) (x * 2 ^ t) := by
  have hunits : ∀ n : ℕ, |(r : ℚ) * 2 ^ t - x * 2 ^ t| ≤ |(n : ℚ) * 2 ^ t - x * 2 ^ t| := by
    intro n
    rw [← sub_mul, ← sub_mul, abs_mul, abs_mul]
    exact mul_le_mul_of_nonneg_right (abs_sub_le_abs_sub h n) (abs_nonneg _)
  intro m e hnormal
  rcases le_or_gt t e with hle | hlt
  · have hwhole : (m : ℚ) * 2 ^ e = (m * 2 ^ (e - t).toNat : ℕ) * 2 ^ t := by
      rw [two_zpow_eq hle]
      push_cast
      ring
    rw [hwhole]
    exact hunits _
  -- a number with a smaller unit is below the least full one, and that is not above `x`
  · have hleast := hnormal.least
    have hbelow : (m : ℚ) * 2 ^ e ≤ (2 ^ 52 : ℕ) * 2 ^ t :=
      calc (m : ℚ) * 2 ^ e
          ≤ 2 ^ 53 * 2 ^ e := by
            have hfits : (m : ℚ) ≤ 2 ^ 53 := by exact_mod_cast hnormal.fits.le
            exact mul_le_mul_of_nonneg_right hfits (by positivity)
        _ = 2 ^ 52 * 2 ^ (e + 1) := by
            rw [zpow_add_one₀ two_ne_zero]
            ring
        _ ≤ (2 ^ 52 : ℕ) * 2 ^ t := by
            push_cast
            have hpower : (2 : ℚ) ^ (e + 1) ≤ 2 ^ t := zpow_le_zpow_right₀ one_le_two (by omega)
            exact mul_le_mul_of_nonneg_left hpower (by positivity)
    have habove : ((2 ^ 52 : ℕ) : ℚ) * 2 ^ t ≤ x * 2 ^ t := by
      push_cast
      exact mul_le_mul_of_nonneg_right (hfull.resolve_right (by omega)) (by positivity)
    refine (hunits (2 ^ 52)).trans ?_
    rw [abs_of_nonpos (by linarith), abs_of_nonpos (by linarith)]
    linarith

/-- The bound below which nothing is rounded to infinity. -/
def overflow : ℚ :=
  (2 ^ 53 - 1 / 2) * 2 ^ (971 : ℤ)

theorem overflow_lt : overflow < 2 ^ (1024 : ℤ) := by
  have hsplit : (2 : ℚ) ^ (1024 : ℤ) = 2 ^ 53 * 2 ^ (971 : ℤ) :=
    two_zpow_eq (by decide : (971 : ℤ) ≤ 1024)
  rw [overflow, hsplit, mul_lt_mul_iff_left₀ (by positivity)]
  norm_num

section Significands

variable {m : ℕ} {e : ℤ} {accuracy : Accuracy} {x : ℚ}
  (h : Approximates (ExtendedMantissa.ofMantissaAndAccuracy m accuracy) x) (he : e ≤ target m e)
include h he

theorem target_le_of_lt_overflow (htop : x * 2 ^ e < overflow) : target m e ≤ 971 := by
  by_contra hlarge
  have hlog : 1024 ≤ (m.log2 : ℤ) + e := by
    rw [target] at hlarge
    omega
  have hm : m ≠ 0 := by
    rintro rfl
    rw [target, Nat.log2_zero] at he
    rw [Nat.log2_zero] at hlog
    omega
  have hx : (m : ℚ) ≤ x := mantissa_ofMantissaAndAccuracy m accuracy ▸ h.le
  have hbound : (2 : ℚ) ^ (1024 : ℤ) ≤ x * 2 ^ e :=
    calc (2 : ℚ) ^ (1024 : ℤ)
        ≤ 2 ^ ((m.log2 : ℤ) + e) := zpow_le_zpow_right₀ one_le_two hlog
      _ ≤ m * 2 ^ e := two_zpow_log2_le (Nat.pos_of_ne_zero hm) e
      _ ≤ x * 2 ^ e := mul_le_mul_of_nonneg_right hx (by positivity)
  exact absurd htop (not_lt.2 (overflow_lt.le.trans hbound))

/-- A significand that stands for a number is rounded to a number that is nearest to it. -/
theorem exists_isNearest_roundWithAccuracy (htop : x * 2 ^ e < overflow) :
    ∃ q, Denotes (roundWithAccuracy Format.binary64 .positive m e accuracy) q ∧ 0 ≤ q ∧
      IsNearest q (x * 2 ^ e) := by
  have hshifted : Approximates (shifted m e accuracy) (x / 2 ^ (target m e - e).toNat) :=
    h.shiftRight _
  have hunits : x * 2 ^ e = x / 2 ^ (target m e - e).toNat * 2 ^ target m e := by
    rw [two_zpow_eq he]
    field_simp
  have hfull : (2 : ℚ) ^ 52 ≤ x / 2 ^ (target m e - e).toNat ∨ target m e = -1074 := by
    refine (full_or_least he).imp_left fun hfull => le_trans ?_ hshifted.le
    rw [mantissa_shifted]
    exact_mod_cast hfull
  have htarget := target_le_of_lt_overflow h he htop
  have hnearest := hshifted.abs_sub_le
  rw [hunits] at htop ⊢
  generalize x / 2 ^ (target m e - e).toNat = y at hshifted hfull hnearest htop ⊢
  have hfits : target m e ≤ 970 ∨
      target m e = 971 ∧ (shifted m e accuracy).roundedMantissa < 2 ^ 53 := by
    rcases Int.lt_or_eq_of_le htarget with hlt | heq
    · exact .inl (by omega)
    · rw [heq, overflow, mul_lt_mul_iff_left₀ (by positivity)] at htop
      have hlt : ((shifted m e accuracy).roundedMantissa : ℚ) < 2 ^ 53 := by
        linarith [(abs_le.1 hnearest).2]
      exact .inr ⟨heq, by exact_mod_cast hlt⟩
  refine ⟨_, denotes_roundWithAccuracy .positive accuracy he hfits, ?_, ?_⟩
  · rw [Sign.apply]
    positivity
  · exact isNearest_of_abs_sub_le hnearest hfull

end Significands

/-! ## Quotients -/

theorem log2_le_log2_div (m : ℕ) {d : ℕ} (hd : 0 < d) : m.log2 ≤ (m / d).log2 + d.log2 + 1 := by
  rcases Nat.eq_zero_or_pos m with rfl | hm
  · simp
  have hquotient : m < (m / d + 1) * d := by
    rw [Nat.add_mul, Nat.one_mul]
    exact Nat.lt_div_mul_add hd
  have hlog : m < 2 ^ ((m / d).log2 + d.log2 + 2) :=
    calc m < (m / d + 1) * d := hquotient
      _ ≤ 2 ^ ((m / d).log2 + 1) * 2 ^ (d.log2 + 1) :=
          Nat.mul_le_mul Nat.lt_log2_self Nat.lt_log2_self.le
      _ = 2 ^ ((m / d).log2 + d.log2 + 2) := by
          rw [← Nat.pow_add]
          congr 1
          omega
  have := (Nat.log2_lt hm.ne').2 hlog
  omega

/-- A quotient below the bound is rounded to a nearest number. -/
theorem exists_isNearest_div {m m' : ℕ} {e e' : ℤ} (hm : 0 < m) (hm' : 0 < m')
    (htop : (m : ℚ) * 2 ^ e / (m' * 2 ^ e') < overflow) :
    ∃ q, Denotes (UnpackedFloat.div Format.binary64 (.finite .positive m e hm)
      (.finite .positive m' e' hm')) q ∧ 0 ≤ q ∧ IsNearest q (m * 2 ^ e / (m' * 2 ^ e')) := by
  rw [UnpackedFloat.div, divCore]
  generalize ht : min (e - e')
    (Format.binary64.targetExponent (totalExponent m e - totalExponent m' e')) = t
  dsimp only
  rw [Nat.shiftLeft_eq]
  generalize hk : (e - e' - t).toNat = k
  have hle : t ≤ e - e' := ht ▸ min_le_left _ _
  have hvalue : (m : ℚ) * 2 ^ e / (m' * 2 ^ e') = ((m * 2 ^ k : ℕ) : ℚ) / m' * 2 ^ t := by
    have hsplit : (2 : ℚ) ^ e = 2 ^ k * 2 ^ t * 2 ^ e' := by
      rw [← hk, ← two_zpow_eq hle, ← zpow_add₀ two_ne_zero, sub_add_cancel]
    rw [hsplit]
    push_cast
    field_simp
  rw [hvalue] at htop ⊢
  have hlog := log2_le_log2_div (m * 2 ^ k) hm'
  rw [log2_mul_two_pow hm] at hlog
  refine exists_isNearest_roundWithAccuracy ?_ ?_ htop
  · exact approximates_div _ hm'
  · have htarget : Format.binary64.targetExponent (totalExponent m e - totalExponent m' e') =
        max (m.log2 + e - (m'.log2 + e') - 53) (-1074) := by
      have hbits : (Format.binary64.mantissaBits : ℤ) = 53 := rfl
      have hleast : Format.binary64.minExponent = -1074 := rfl
      rw [Format.targetExponent, totalExponent, totalExponent, hbits, hleast]
      congr 1
      omega
    rw [htarget] at ht
    rw [target]
    omega

end ContrastAudit.Number
