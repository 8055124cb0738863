import ContrastAudit.Number.Decimal
import ContrastAudit.Proofs.Number.Nearest

/-!
# Rounding to decimal places

A number that is rounded to some decimal places becomes the number nearest to a decimal.  The number
itself was a candidate, so the decimal is at least as near to what it becomes.

**Results.**
* `abs_scaledTo_sub_le`, `scaledTo_eq_of_abs_lt`, `scaledTo_eq_of_tie`: the decimal is a nearest
  one, and an even one if there are two.
* `exists_parts_roundTo`: a finite number is rounded to the number nearest to its decimal, with its
  sign.
-/

namespace ContrastAudit.Number

open Float.Model Float.Model.UnpackedFloat

/-! ## Whole numbers and quotients -/

theorem value?_toFloat {n : ℕ} (hn : 0 < n) (h : n < 2 ^ 53) :
    value? n.toUInt64.toFloat = some n := by
  have hlog : n.log2 < 53 := (Nat.log2_lt hn.ne').2 h
  obtain ⟨k, hk⟩ : ∃ k : ℕ, n.log2 + k = 52 := ⟨52 - n.log2, by omega⟩
  have htarget : target n 0 = -k := by
    rw [target]
    omega
  have hunit : target (n * 2 ^ k) (-k) = -k := by
    rw [target, log2_mul_two_pow hn]
    omega
  have hnat : n.toUInt64.toNat = n := UInt64.toNat_ofNat_of_lt' (h.trans (by decide))
  have hmodel : UnpackedFloat.ofUInt64 Format.binary64 n.toUInt64 =
      roundWithAccuracy Format.binary64 .positive (n * 2 ^ k) (-k) .exact := by
    have hpos : compare (n : ℤ) 0 = .gt := Int.compare_eq_gt.2 (by exact_mod_cast hn)
    rw [UnpackedFloat.ofUInt64, UnpackedFloat.ofNat, UnpackedFloat.ofInt, UnpackedFloat.normalize,
      hnat, hpos]
    dsimp only
    rw [Int.toNat_natCast, round_eq, htarget]
    simp
  have hdenotes := denotes_roundWithAccuracy .positive .exact hunit.ge (.inl (by omega))
  have hexact : (shifted (n * 2 ^ k) (-k) .exact).roundedMantissa = n * 2 ^ k := by
    rw [shifted, hunit, sub_self]
    rfl
  have hvalue : ((Sign.positive.apply (n * 2 ^ k : ℕ) : ℤ) : ℚ) * 2 ^ (-k : ℤ) = n := by
    rw [Sign.apply, zpow_neg, zpow_natCast]
    push_cast
    field_simp
  rw [← hmodel, hexact, hunit, hvalue] at hdenotes
  exact value?_of_denotes hdenotes

theorem Denotes.exists_of_pos {u : UnpackedFloat} {x : ℚ} (h : Denotes u x) (hx : 0 < x) :
    ∃ m e hm, u = .finite .positive m e hm ∧ x = m * 2 ^ e := by
  cases h with
  | zero s => exact absurd hx (lt_irrefl 0)
  | @finite s m e hm hnormal =>
      cases s with
      | positive => exact ⟨m, e, hm, rfl, by simp [Sign.apply]⟩
      | negative =>
          rw [Sign.apply, Int.cast_neg, neg_mul] at hx
          have hsize : (0 : ℚ) ≤ (m : ℤ) * 2 ^ e := by positivity
          linarith

/-- A quotient of positive numbers is rounded to a number that is nearest to it. -/
theorem exists_value?_div {a b : Float} {x y : ℚ} (ha : value? a = some x) (hb : value? b = some y)
    (hx : 0 < x) (hy : 0 < y) (htop : x / y < overflow) :
    ∃ q, value? (a / b) = some q ∧ 0 ≤ q ∧ IsNearest q (x / y) := by
  obtain ⟨m, e, hm, hu, rfl⟩ := (denotes_of_value? ha).exists_of_pos hx
  obtain ⟨m', e', hm', hu', rfl⟩ := (denotes_of_value? hb).exists_of_pos hy
  obtain ⟨q, hdenotes, hq, hnearest⟩ := exists_isNearest_div hm hm' htop
  rw [← hu, ← hu'] at hdenotes
  exact ⟨q, value?_of_denotes hdenotes, hq, hnearest⟩

/-! ## Decimals -/

/-- The powers of ten that the platform tabulates are exact. -/
theorem value?_powersOfTen (k : Fin 23) :
    value? (getElem Float.exactlyRepresentablePowersOfTen (k : ℕ) k.isLt) =
      some (10 ^ (k : ℕ)) := by
  revert k
  decide +kernel

theorem exists_value?_ofScientific {n k : ℕ} (hn : 0 < n) (hk : 0 < k) (hle : k ≤ 22)
    (htop : (n : ℚ) / 10 ^ k < overflow) :
    ∃ q, value? (Float.ofScientific n true k) = some q ∧ 0 ≤ q ∧ IsNearest q (n / 10 ^ k) := by
  rw [Float.ofScientific]
  by_cases hsmall : n < 2 ^ 53
  · rw [dif_pos ⟨hsmall, hle⟩]
    exact exists_value?_div (value?_toFloat hn hsmall) (value?_powersOfTen ⟨k, by omega⟩)
      (by exact_mod_cast hn) (by positivity) htop
  · rw [dif_neg (fun h => hsmall h.1)]
    have hvalue : (n : ℚ) / 10 ^ k =
        (n : ℚ) * 2 ^ (0 : ℤ) / ((10 ^ (-(-(k : ℤ))).toNat : ℕ) * 2 ^ (0 : ℤ)) := by
      simp
    rw [hvalue] at htop ⊢
    obtain ⟨q, hdenotes, hq, hnearest⟩ :=
      exists_isNearest_div hn (Nat.pow_pos (by decide)) htop
    refine ⟨q, ?_, hq, hnearest⟩
    have hmodel : UnpackedFloat.ofScientific Format.binary64 n (-(k : ℤ)) =
        UnpackedFloat.div Format.binary64 (.finite .positive n 0 hn)
          (.finite .positive (10 ^ (-(-(k : ℤ))).toNat) 0 (Nat.pow_pos (by decide))) := by
      have hbits : (2 : ℤ) ^ Format.binary64.exponentBits = 2048 := by norm_num
      rw [UnpackedFloat.ofScientific, dif_neg hn.ne', if_neg (by omega), if_neg (by omega),
        if_neg (by omega)]
    rw [← hmodel] at hdenotes
    have hexponent : Int.negOfNat k = -(k : ℤ) := Int.negOfNat_eq
    rw [if_pos rfl, hexponent]
    exact value?_of_denotes hdenotes

theorem exists_value?_ofDecimal {n places : ℕ} (hn : 0 < n) (hplaces : 0 < places)
    (hle : places ≤ 22) (htop : (n : ℚ) / 10 ^ places < overflow) :
    ∃ q, value? (ofDecimal n (-places)) = some q ∧ 0 ≤ q ∧ IsNearest q (n / 10 ^ places) := by
  have hsize : (digits n).length ≤ 400 := by
    have hoverflow : overflow * 10 ^ places < 10 ^ 400 :=
      calc overflow * 10 ^ places
          < 2 ^ (1024 : ℤ) * 10 ^ places := mul_lt_mul_of_pos_right overflow_lt (by positivity)
        _ ≤ 2 ^ (1024 : ℤ) * 10 ^ 22 :=
            mul_le_mul_of_nonneg_left (pow_le_pow_right₀ (by norm_num) hle) (by positivity)
        _ < 10 ^ 400 := by
            have hnat : (2 ^ 1024 * 10 ^ 22 : ℕ) < 10 ^ 400 := by decide +kernel
            exact_mod_cast hnat
    rw [digits, Nat.length_toDigits_le_iff (by decide) (by decide)]
    rw [div_lt_iff₀ (by positivity)] at htop
    exact_mod_cast htop.trans hoverflow
  have hlength : 0 < (digits n).length := Nat.length_toDigits_pos
  have hshort : (decide (n = 0) ||
      decide (((digits n).length : ℤ) + -(places : ℤ) < -400)) = false := by
    simp only [Bool.or_eq_false_iff, decide_eq_false_iff_not]
    omega
  rw [ofDecimal, hshort, if_neg Bool.false_ne_true, if_neg (by omega), Int.natAbs_neg,
    Int.natAbs_natCast, decide_eq_true (by omega)]
  exact exists_value?_ofScientific hn hplaces hle htop

/-! ## Rounding to even -/

theorem roundHalfEven_eq (num den : ℕ) :
    roundHalfEven num den = (ExtendedMantissa.ofMantissaAndAccuracy (num / den)
      (accuracyOfFraction (num % den) den)).roundedMantissa := by
  simp only [roundHalfEven, accuracyOfFraction]
  generalize num % den = r
  by_cases hr : r = 0
  · subst hr
    rcases Nat.eq_zero_or_pos den with rfl | hden
    · rw [Nat.div_zero]
      rfl
    · rw [if_pos rfl, if_pos (by omega)]
      rfl
  · rw [if_neg hr]
    rcases lt_trichotomy (2 * r) den with hless | hequal | hmore
    · rw [if_pos hless, compare_lt_iff_lt.2 hless]
      rfl
    · rw [if_neg (by omega), if_neg (by omega), compare_eq_iff_eq.2 hequal]
      rfl
    · rw [if_neg (by omega), if_pos hmore, compare_gt_iff_gt.2 hmore]
      rfl

theorem abs_roundHalfEven_sub_le (num : ℕ) {den : ℕ} (hden : 0 < den) :
    |(roundHalfEven num den : ℚ) - num / den| ≤ 1 / 2 := by
  rw [roundHalfEven_eq]
  exact (approximates_div num hden).abs_sub_le

theorem roundHalfEven_of_tie {num den k : ℕ} (hden : 0 < den) (h : 2 * num = (2 * k + 1) * den) :
    roundHalfEven num den = k + k % 2 := by
  obtain ⟨r, rfl⟩ : ∃ r, num = den * k + r :=
    ⟨num - den * k, by rw [Nat.add_mul, Nat.mul_assoc, Nat.mul_comm k] at h; omega⟩
  have hr : 2 * r = den := by
    rw [Nat.add_mul, Nat.mul_assoc, Nat.mul_comm k] at h
    omega
  have hdiv : (den * k + r) / den = k := by
    rw [Nat.mul_add_div hden, Nat.div_eq_of_lt (by omega), Nat.add_zero]
  have hmod : (den * k + r) % den = r := by
    rw [Nat.mul_add_mod, Nat.mod_eq_of_lt (by omega)]
  simp only [roundHalfEven, hdiv, hmod]
  rw [if_neg (by omega), if_neg (by omega)]

section Scaled

variable (places m : ℕ) (e : ℤ)

theorem scaled_eq : ((m * Nat.pow 10 places * Nat.pow 2 e.toNat : ℕ) : ℚ) /
    (Nat.pow 2 (-e).toNat : ℕ) = m * 2 ^ e * 10 ^ places := by
  have hsplit : (2 : ℚ) ^ e = 2 ^ e.toNat / 2 ^ (-e).toNat := by
    rw [← zpow_natCast, ← zpow_natCast, ← zpow_sub₀ two_ne_zero]
    congr 1
    omega
  rw [hsplit]
  simp only [Nat.pow_eq]
  push_cast
  ring

/-- A number is at most one half unit away from the decimal that it is rounded to. -/
theorem abs_scaledTo_sub_le :
    |(scaledTo places m e : ℚ) - m * 2 ^ e * 10 ^ places| ≤ 1 / 2 := by
  rw [← scaled_eq, scaledTo]
  exact abs_roundHalfEven_sub_le _ (Nat.pow_pos two_pos)

variable {places m e}

theorem scaledTo_eq_of_abs_lt {n : ℕ} (h : |(n : ℚ) - m * 2 ^ e * 10 ^ places| < 1 / 2) :
    scaledTo places m e = n := by
  have hbounds := abs_le.1 (abs_scaledTo_sub_le places m e)
  have hnear := abs_lt.1 h
  have hbelow : (scaledTo places m e : ℚ) < n + 1 := by linarith
  have habove : (n : ℚ) < scaledTo places m e + 1 := by linarith
  have hbelow' : scaledTo places m e < n + 1 := by exact_mod_cast hbelow
  have habove' : n < scaledTo places m e + 1 := by exact_mod_cast habove
  omega

theorem scaledTo_eq_of_tie {n : ℕ} (h : (m : ℚ) * 2 ^ e * 10 ^ places = n + 1 / 2) :
    scaledTo places m e = n + n % 2 := by
  have hpos : 0 < Nat.pow 2 (-e).toNat := Nat.pow_pos two_pos
  have hpos' : ((Nat.pow 2 (-e).toNat : ℕ) : ℚ) ≠ 0 := by exact_mod_cast hpos.ne'
  rw [← scaled_eq, div_eq_iff hpos'] at h
  refine roundHalfEven_of_tie hpos ?_
  have hdouble : 2 * ((m * Nat.pow 10 places * Nat.pow 2 e.toNat : ℕ) : ℚ) =
      (2 * n + 1) * (Nat.pow 2 (-e).toNat : ℕ) := by
    rw [h]
    ring
  exact_mod_cast hdouble

/-- A number that is rounded to an odd decimal was no tie. -/
theorem abs_scaledTo_sub_lt (h : scaledTo places m e % 2 = 1) :
    |(scaledTo places m e : ℚ) - m * 2 ^ e * 10 ^ places| < 1 / 2 := by
  refine lt_of_le_of_ne (abs_scaledTo_sub_le places m e) fun hhalf => ?_
  rcases eq_or_eq_neg_of_abs_eq hhalf with habove | hbelow
  · obtain ⟨n, hn⟩ : ∃ n, scaledTo places m e = n + 1 := ⟨scaledTo places m e - 1, by omega⟩
    have hcast : (scaledTo places m e : ℚ) = n + 1 := by exact_mod_cast hn
    have htie := @scaledTo_eq_of_tie places m e n (by linarith)
    omega
  · have htie := @scaledTo_eq_of_tie places m e (scaledTo places m e) (by linarith)
    omega

end Scaled

/-! ## Rounded numbers -/

theorem parts_neg {x : Float} {negative : Bool} {m : ℕ} {e : ℤ}
    (h : parts x = .finite negative m e) : parts (-x) = .finite (!negative) m e := by
  have hnormal := isNormal_of_parts h
  have hneg : -x = ⟨Float.Model.pack x.toModel.unpack.neg⟩ := rfl
  rw [parts_eq] at h
  rw [hneg]
  cases hu : x.toModel.unpack with
  | notANumber =>
      rw [hu] at h
      cases h
  | infinity s =>
      rw [hu] at h
      cases h
  | zero s =>
      rw [hu] at h
      cases h
      cases s <;> decide +kernel
  | finite s m' e' hm =>
      rw [hu] at h
      cases h
      have hsign : isNegative (-s) = !isNegative s := by cases s <;> rfl
      rw [← hsign]
      exact parts_pack (-s) hm hnormal

theorem exists_parts_of_pos {x : Float} {q : ℚ} (h : value? x = some q) (hq : 0 < q) :
    ∃ m e, parts x = .finite false m e ∧ q = m * 2 ^ e := by
  rw [value?] at h
  cases hx : parts x with
  | infinite negative =>
      rw [hx] at h
      cases h
  | notANumber =>
      rw [hx] at h
      cases h
  | finite negative m e =>
      rw [hx] at h
      obtain rfl := Option.some.inj h
      cases negative with
      | false => exact ⟨m, e, rfl, by simp⟩
      | true =>
          rw [if_pos rfl, Int.cast_neg, neg_mul] at hq
          have hsize : (0 : ℚ) ≤ (m : ℤ) * 2 ^ e := by positivity
          linarith

/-- Zero is not nearest to what is not too small. -/
theorem IsNearest.pos {q v : ℚ} (h : IsNearest q v) (hq : 0 ≤ q) (hv : 1 / 10 ^ 22 ≤ v) :
    0 < q := by
  refine lt_of_le_of_ne hq ?_
  rintro rfl
  have hsmall : ((2 ^ 52 : ℕ) : ℚ) * 2 ^ (-126 : ℤ) = 1 / 2 ^ 74 := by norm_num
  have hnear := h (2 ^ 52) (-126) ⟨by decide, by decide, by decide, .inl le_rfl⟩
  have hpos : (0 : ℚ) < 1 / 2 ^ 74 := by positivity
  have hless : (1 : ℚ) / 2 ^ 74 < 1 / 10 ^ 22 := by norm_num
  rw [hsmall, zero_sub, abs_neg, abs_of_nonneg (by linarith), abs_of_neg (by linarith)] at hnear
  linarith

theorem lt_overflow_of_isNormal {m : ℕ} {e : ℤ} (h : IsNormal m e) :
    (m : ℚ) * 2 ^ e + 1 / 2 < overflow := by
  have hfits : (m : ℚ) ≤ 2 ^ 53 - 1 := by
    have hlt : (m : ℚ) + 1 ≤ 2 ^ 53 := by exact_mod_cast h.fits
    linarith
  have hsize : (m : ℚ) * 2 ^ e ≤ (2 ^ 53 - 1) * 2 ^ (971 : ℤ) :=
    mul_le_mul hfits (zpow_le_zpow_right₀ one_le_two h.most) (by positivity) (by norm_num)
  have hunit : (1 : ℚ) < 2 ^ (971 : ℤ) := one_lt_zpow₀ one_lt_two (by decide)
  rw [overflow]
  generalize (2 : ℚ) ^ (971 : ℤ) = unit at hsize hunit ⊢
  linarith

/-- A decimal in the range of numbers is read as a number without a minus sign that is nearest to
it. -/
theorem exists_parts_ofDecimal {n places : ℕ} (hplaces : 0 < places) (hle : places ≤ 22)
    (htop : (n : ℚ) / 10 ^ places < overflow) :
    ∃ m e, parts (ofDecimal n (-places)) = .finite false m e ∧
      IsNearest (m * 2 ^ e) (n / 10 ^ places) := by
  rcases Nat.eq_zero_or_pos n with rfl | hn
  · refine ⟨0, -1074, ?_, fun m e _ => ?_⟩
    · rw [ofDecimal, decide_eq_true rfl, Bool.true_or, if_pos rfl]
      decide +kernel
    · simp only [Nat.cast_zero, zero_mul, zero_div, sub_self, abs_zero]
      exact abs_nonneg _
  · obtain ⟨q, hvalue, hq, hnearest⟩ := exists_value?_ofDecimal hn hplaces hle htop
    have hleast : 1 / 10 ^ 22 ≤ (n : ℚ) / 10 ^ places :=
      div_le_div₀ (by positivity) (by exact_mod_cast hn) (by positivity)
        (pow_le_pow_right₀ (by norm_num) hle)
    obtain ⟨m, e, hparts, rfl⟩ := exists_parts_of_pos hvalue (hnearest.pos hq hleast)
    exact ⟨m, e, hparts, hnearest⟩

/-- A finite number is rounded to a number that is nearest to its decimal, with the same sign. -/
theorem exists_parts_roundTo {x : Float} {negative : Bool} {m : ℕ} {e : ℤ}
    (h : parts x = .finite negative m e) {places : ℕ} (hplaces : 0 < places) (hle : places ≤ 22) :
    ∃ m' e', parts (roundTo places x) = .finite negative m' e' ∧
      IsNearest (m' * 2 ^ e') (scaledTo places m e / 10 ^ places) := by
  have htop : (scaledTo places m e : ℚ) / 10 ^ places < overflow := by
    rw [div_lt_iff₀ (by positivity)]
    have hbound := mul_lt_mul_of_pos_right (lt_overflow_of_isNormal (isNormal_of_parts h))
      (by positivity : (0 : ℚ) < 10 ^ places)
    have hpower : (1 : ℚ) ≤ 10 ^ places := one_le_pow₀ (by norm_num)
    linarith [(abs_le.1 (abs_scaledTo_sub_le places m e)).2]
  obtain ⟨m', e', hparts, hnearest⟩ := exists_parts_ofDecimal hplaces hle htop
  refine ⟨m', e', ?_, hnearest⟩
  simp only [roundTo, h]
  cases negative with
  | false => exact hparts
  | true => exact parts_neg hparts

/-! ## Texts -/

theorem filter_withPoint (places : ℕ) {cs : List Char} (h : '.' ∉ cs) :
    ∃ zeros, (withPoint places cs).filter (· != '.') = List.replicate zeros '0' ++ cs := by
  have hkeep : ∀ zeros, (List.replicate zeros '0' ++ cs).filter (· != '.') =
      List.replicate zeros '0' ++ cs := by
    intro zeros
    rw [List.filter_eq_self]
    intro c hc
    rw [bne_iff_ne]
    rintro rfl
    rcases List.mem_append.1 hc with hzero | hdigit
    · exact absurd (List.eq_of_mem_replicate hzero) (by decide)
    · exact h hdigit
  rw [withPoint]
  split
  · exact ⟨0, hkeep 0⟩
  · refine ⟨places + 1 - cs.length, ?_⟩
    rw [List.filter_append, List.filter_cons_of_neg (by decide), ← List.filter_append,
      List.take_append_drop]
    exact hkeep _

/-- A number can be read off its digits and the point in them. -/
theorem withPoint_digits_inj {places n n' : ℕ} :
    withPoint places (digits n) = withPoint places (digits n') ↔ n = n' := by
  have hread : ∀ n,
      Nat.ofDigitChars 10 ((withPoint places (digits n)).filter (· != '.')) 0 = n := by
    intro n
    have hpoint : '.' ∉ digits n := fun h =>
      absurd (Nat.isDigit_of_mem_toDigits (by decide) (by decide) h) (by decide)
    obtain ⟨zeros, hfilter⟩ := filter_withPoint places hpoint
    rw [hfilter, Nat.ofDigitChars_append, Nat.ofDigitChars_replicate_zero, Nat.mul_zero, digits,
      Nat.ofDigitChars_ten_toDigits]
  refine ⟨fun h => ?_, fun h => h ▸ rfl⟩
  rw [← hread n, h, hread]

/-- Numbers with one sign have the same text if they are rounded to the same decimal. -/
theorem fixed_eq_iff {places : ℕ} {x y : Float} {negative : Bool} {m m' : ℕ} {e e' : ℤ}
    (hx : parts x = .finite negative m e) (hy : parts y = .finite negative m' e') :
    fixed places x = fixed places y ↔ scaledTo places m e = scaledTo places m' e' := by
  simp only [fixed, hx, hy]
  rw [String.ofList_inj, List.append_cancel_left_eq, withPoint_digits_inj]

end ContrastAudit.Number
