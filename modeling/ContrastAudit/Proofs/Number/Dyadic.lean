import ContrastAudit.Proofs.Number.Rounding

/-!
# Rounding dyadic fractions

A dyadic fraction of at most `2 ^ N` is rounded to a finite number that differs from it by at most
`2 ^ (N - 52)`.  The sign of the fraction is the sign of the number, also where it is out of range.

**Results.**
* `exists_value?_ofDyadic`: a dyadic fraction is rounded to a finite number near to it.
* `value?_ofDyadic_nonpos`: a negative fraction is not rounded to a positive number.
-/

namespace ContrastAudit.Number

/-- The parts of a number with a sign and magnitude bits. -/
theorem parts_ofFields (negative : Bool) (magnitude : ℕ) :
    parts (ofFields negative magnitude) =
      .ofBits ((if negative then 2 ^ 63 else 0) + min magnitude (2047 * 2 ^ 52)) := by
  rw [ofFields, parts_ofBits, UInt64.toNat_ofNat_of_lt']
  · rfl
  · simp only [Nat.pow_eq, UInt64.size]
    split <;> omega

/-- A significand that is full, or one of the least exponent, is what the fields stand for; one that
has just become too great carries over into the exponent. -/
theorem value?_ofFields (negative : Bool) {k r : ℕ} (hr : r ≤ 2 ^ 53) (hfull : 2 ^ 52 ≤ r ∨ k = 0)
    (hk : k ≤ 2044) :
    value? (ofFields negative (k * 2 ^ 52 + r)) =
      some ((if negative then -r else r : ℤ) * (2 : ℚ) ^ ((k : ℤ) - 1074)) := by
  have hfields : ∀ biased fraction, k * 2 ^ 52 + r = biased * 2 ^ 52 + fraction → biased < 2047 →
      fraction < 2 ^ 52 → parts (ofFields negative (k * 2 ^ 52 + r)) =
        if biased = 0 then .finite negative fraction (-1074)
        else .finite negative (fraction + 2 ^ 52) ((biased : ℤ) - 1075) := by
    intro biased fraction hsum hbiased hfraction
    rw [parts_ofFields, Nat.min_eq_left (by omega), hsum, ← Nat.add_assoc,
      ofBits_fields negative hbiased hfraction]
  rw [value?]
  rcases Nat.lt_or_ge r (2 ^ 52) with hsmall | hlarge
  · obtain rfl := hfull.resolve_left (by omega)
    rw [hfields 0 r rfl (by omega) hsmall, if_pos rfl]
    rfl
  rcases Nat.lt_or_eq_of_le hr with hlt | rfl
  · rw [hfields (k + 1) (r - 2 ^ 52) (by omega) (by omega) (by omega), if_neg (by omega),
      Parts.value?, Nat.sub_add_cancel hlarge]
    congr 3
    push_cast
    ring
  · rw [hfields (k + 2) 0 (by omega) (by omega) (by omega), if_neg (by omega), Parts.value?]
    have hexponent : ((k + 2 : ℕ) : ℤ) - 1075 = (k : ℤ) - 1074 + 1 := by
      push_cast
      ring
    rw [hexponent, zpow_add_one₀ (by norm_num)]
    congr 1
    cases negative <;> simp <;> ring

/-- What is rounded to whole units is at most one unit off. -/
theorem roundHalfEven_bounds (num den : ℕ) :
    num / den ≤ roundHalfEven num den ∧ roundHalfEven num den ≤ num / den + 1 := by
  simp only [roundHalfEven]
  split_ifs <;> omega

/-- The significand that a dyadic fraction is rounded to: it is full, or the exponent is the least
one, and it is at most one unit off. -/
theorem exists_significand {m : ℕ} (hm : 0 < m) (e : ℤ) :
    ∃ r : ℕ, r ≤ 2 ^ 53 ∧ (2 ^ 52 ≤ r ∨ target m e = -1074) ∧
      |(r : ℚ) * 2 ^ target m e - m * 2 ^ e| ≤ 2 ^ target m e ∧
      ∀ negative, ofDyadic negative m e =
        ofFields negative ((target m e + 1074).toNat * 2 ^ 52 + r) := by
  have hunit : max (e + ((m.log2 : ℤ) + 1) - 53) (-1074) = target m e := by
    rw [target]
    congr 1
    ring
  have hlog : (m.log2 : ℤ) + e - 52 ≤ target m e := le_max_left _ _
  have hfull : target m e = -1074 ∨ target m e = (m.log2 : ℤ) + e - 52 := by
    rw [target]
    omega
  have hdyadic : ∀ negative, ofDyadic negative m e =
      ofFields negative ((target m e + 1074).toNat * 2 ^ 52 +
        if target m e ≤ e then m * 2 ^ (e - target m e).toNat
        else roundHalfEven m (2 ^ (target m e - e).toNat)) := by
    intro negative
    simp only [ofDyadic, if_neg (Nat.pos_iff_ne_zero.1 hm), hunit, Nat.pow_eq]
  by_cases he : target m e ≤ e
  -- the fraction has no digits below the last place of the significand, so it is kept as it is
  · simp only [if_pos he] at hdyadic
    have hsize := log2_mul_two_pow hm (e - target m e).toNat
    have hexact : ((m * 2 ^ (e - target m e).toNat : ℕ) : ℚ) * 2 ^ target m e = m * 2 ^ e := by
      rw [Nat.cast_mul, Nat.cast_pow, Nat.cast_ofNat, mul_assoc, ← two_zpow_eq he]
    refine ⟨_, ?_, ?_, ?_, hdyadic⟩
    · apply Nat.le_of_lt
      rw [← Nat.log2_lt (by positivity), hsize]
      omega
    · rcases hfull with hleast | hfull
      · exact .inr hleast
      · left
        rw [← Nat.le_log2 (by positivity), hsize]
        omega
    · rw [hexact, sub_self, abs_zero]
      positivity
  · simp only [if_neg he] at hdyadic
    obtain ⟨hbelow, habove⟩ := roundHalfEven_bounds m (2 ^ (target m e - e).toNat)
    refine ⟨_, ?_, ?_, ?_, hdyadic⟩
    · have hlt := @div_two_pow_lt m (target m e - e).toNat (by omega)
      omega
    · rcases hfull with hleast | hfull
      · exact .inr hleast
      · exact .inl ((le_div_two_pow (by omega)).trans hbelow)
    · have herror := mul_le_mul_of_nonneg_right (abs_sub_le_of_div hbelow habove)
        (by positivity : (0 : ℚ) ≤ 2 ^ e)
      have hpower := (two_zpow_eq (not_le.1 he).le).symm
      rwa [← abs_of_nonneg (by positivity : (0 : ℚ) ≤ 2 ^ e), ← abs_mul,
        abs_of_nonneg (by positivity : (0 : ℚ) ≤ 2 ^ e), sub_mul, mul_assoc, hpower] at herror

/-- A dyadic fraction of at most `2 ^ N` is rounded to a finite number. -/
theorem exists_value?_ofDyadic (negative : Bool) {m : ℕ} {e N : ℤ} (hlow : -1022 ≤ N)
    (hhigh : N ≤ 1022) (h : (m : ℚ) * 2 ^ e ≤ 2 ^ N) :
    ∃ q : ℚ, value? (ofDyadic negative m e) = some q ∧
      |q - (if negative then -m else m : ℤ) * 2 ^ e| ≤ 2 ^ (N - 52) := by
  rcases Nat.eq_zero_or_pos m with rfl | hm
  · have hzero := @value?_ofFields negative 0 0 (by omega) (.inr rfl) (by omega)
    refine ⟨_, hzero, ?_⟩
    cases negative <;> simp <;> positivity
  · obtain ⟨r, hr, hfull, herror, hdyadic⟩ := exists_significand hm e
    have htop := target_le hm hlow h
    have hleast : -1074 ≤ target m e := le_max_right _ _
    have hvalue := @value?_ofFields negative (target m e + 1074).toNat r hr
      (hfull.imp_right fun h => by omega) (by omega)
    have hexponent : ((target m e + 1074).toNat : ℤ) - 1074 = target m e := by omega
    rw [← hdyadic, hexponent] at hvalue
    refine ⟨_, hvalue, le_trans ?_ (zpow_le_zpow_right₀ (by norm_num) htop)⟩
    cases negative with
    | false => simpa using herror
    | true =>
        rw [abs_sub_comm] at herror
        have hneg : ((if true then -(r : ℤ) else r : ℤ) : ℚ) * 2 ^ target m e -
            ((if true then -(m : ℤ) else m : ℤ) : ℚ) * 2 ^ e =
              m * 2 ^ e - r * 2 ^ target m e := by
          rw [if_pos rfl, if_pos rfl]
          push_cast
          ring
        rwa [hneg]

/-! ## Signs -/

theorem sign_ofFields {negative negative' : Bool} {magnitude m : ℕ} {e : ℤ}
    (h : parts (ofFields negative magnitude) = .finite negative' m e) : negative' = negative := by
  have hle : min magnitude (2047 * 2 ^ 52) ≤ 2047 * 2 ^ 52 := Nat.min_le_right _ _
  have hsign : (((if negative then 2 ^ 63 else 0) + min magnitude (2047 * 2 ^ 52)) / 2 ^ 63 == 1) =
      negative := by
    cases negative with
    | false =>
        simp only [Bool.false_eq_true, if_false, beq_eq_false_iff_ne]
        omega
    | true =>
        simp only [if_true, beq_iff_eq]
        omega
  rw [parts_ofFields] at h
  generalize (if negative then 2 ^ 63 else 0) + min magnitude (2047 * 2 ^ 52) = bits at h hsign
  rw [Parts.ofBits] at h
  simp only [Nat.pow_eq, hsign] at h
  split_ifs at h
  · exact (Parts.finite.inj h).1.symm
  · exact (Parts.finite.inj h).1.symm

/-- A negative fraction is not rounded to a positive number. -/
theorem value?_ofDyadic_nonpos {m : ℕ} {e : ℤ} {q : ℚ} (h : value? (ofDyadic true m e) = some q) :
    q ≤ 0 := by
  have hfields : ∃ magnitude, ofDyadic true m e = ofFields true magnitude := by
    unfold ofDyadic
    split
    · exact ⟨0, rfl⟩
    · exact ⟨_, rfl⟩
  obtain ⟨magnitude, hmagnitude⟩ := hfields
  rw [hmagnitude, value?] at h
  cases hparts : parts (ofFields true magnitude) with
  | infinite negative =>
      rw [hparts] at h
      cases h
  | notANumber =>
      rw [hparts] at h
      cases h
  | finite negative m' e' =>
      obtain rfl := sign_ofFields hparts
      rw [hparts] at h
      obtain rfl := Option.some.inj h
      rw [if_pos rfl, Int.cast_neg, neg_mul, neg_nonpos]
      positivity

end ContrastAudit.Number
