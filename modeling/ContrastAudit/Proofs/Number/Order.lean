import Mathlib.Order.Compare
import ContrastAudit.Proofs.Number.Rounding

/-!
# Comparing floating-point numbers

Finite numbers are ordered as what they stand for.  Limiting a number from both sides leaves one
that is finite, whatever the number was.

**Results.**
* `lt_iff_of_value?`, `le_iff_of_value?`, `beq_iff_of_value?`: comparisons of finite numbers.
* `exists_value?_clamp`: a number between two finite limits is finite.
-/

namespace ContrastAudit.Number

open Float.Model Float.Model.UnpackedFloat

section Magnitudes

variable {m m' : ℕ} {e e' : ℤ} (h : IsNormal m e) (h' : IsNormal m' e')
include h h'

/-- A greater exponent makes a greater number, since its significand is full. -/
theorem lt_of_exponent_lt (he : e < e') : (m : ℚ) * 2 ^ e < m' * 2 ^ e' := by
  have hleast := h.least
  have hfull : 2 ^ 52 ≤ m' := h'.full.resolve_right (by omega)
  calc (m : ℚ) * 2 ^ e
      < 2 ^ 53 * 2 ^ e := by
        have hfits : (m : ℚ) < 2 ^ 53 := by exact_mod_cast h.fits
        exact mul_lt_mul_of_pos_right hfits (by positivity)
    _ = 2 ^ 52 * 2 ^ (e + 1) := by
        rw [zpow_add_one₀ (by norm_num)]
        ring
    _ ≤ m' * 2 ^ e' := by
        have hfull' : (2 : ℚ) ^ 52 ≤ m' := by exact_mod_cast hfull
        have hpower : (2 : ℚ) ^ (e + 1) ≤ 2 ^ e' :=
          zpow_le_zpow_right₀ (by norm_num) (by omega)
        exact mul_le_mul hfull' hpower (by positivity) (by positivity)

/-- Magnitudes are compared by their exponents, and by their significands if these are equal. -/
theorem compare_magnitudes :
    (compare e e').then (compare m m') = compare ((m : ℚ) * 2 ^ e) (m' * 2 ^ e') := by
  rcases lt_trichotomy e e' with hlt | rfl | hgt
  · rw [compare_lt_iff_lt.2 hlt, compare_lt_iff_lt.2 (lt_of_exponent_lt h h' hlt)]
    rfl
  · have hpos : (0 : ℚ) < 2 ^ e := by positivity
    rw [compare_eq_iff_eq.2 rfl, Ordering.eq_then]
    rcases lt_trichotomy m m' with hlt | rfl | hgt
    · have hlt' : (m : ℚ) < m' := by exact_mod_cast hlt
      rw [compare_lt_iff_lt.2 hlt, compare_lt_iff_lt.2 (mul_lt_mul_of_pos_right hlt' hpos)]
    · rw [compare_eq_iff_eq.2 rfl, compare_eq_iff_eq.2 rfl]
    · have hgt' : (m' : ℚ) < m := by exact_mod_cast hgt
      rw [compare_gt_iff_gt.2 hgt, compare_gt_iff_gt.2 (mul_lt_mul_of_pos_right hgt' hpos)]
  · rw [compare_gt_iff_gt.2 hgt, compare_gt_iff_gt.2 (lt_of_exponent_lt h' h hgt)]
    rfl

end Magnitudes

theorem compare_neg_neg (x y : ℚ) : compare (-x) (-y) = (compare x y).swap := by
  rcases lt_trichotomy x y with hlt | rfl | hgt
  · rw [compare_lt_iff_lt.2 hlt, compare_gt_iff_gt.2 (neg_lt_neg hlt)]
    rfl
  · rw [compare_eq_iff_eq.2 rfl, compare_eq_iff_eq.2 rfl]
    rfl
  · rw [compare_gt_iff_gt.2 hgt, compare_lt_iff_lt.2 (neg_lt_neg hgt)]
    rfl

theorem apply_positive_pos {m : ℕ} (e : ℤ) (hm : 0 < m) :
    (0 : ℚ) < (Sign.positive.apply m : ℤ) * 2 ^ e := by
  have hm' : (0 : ℚ) < (m : ℤ) := by exact_mod_cast hm
  rw [Sign.apply]
  positivity

theorem apply_negative_neg {m : ℕ} (e : ℤ) (hm : 0 < m) :
    ((Sign.negative.apply m : ℤ) : ℚ) * 2 ^ e < 0 := by
  rw [Sign.apply, Int.cast_neg, neg_mul]
  exact neg_lt_zero.2 (apply_positive_pos e hm)

/-- Finite models are compared as what they stand for. -/
theorem Denotes.compare_eq {u v : UnpackedFloat} {x y : ℚ} (hu : Denotes u x) (hv : Denotes v y) :
    u.compare v = some (compare x y) := by
  cases hu with
  | zero s =>
      cases hv with
      | zero s' =>
          rw [compare_eq_iff_eq.2 rfl]
          rfl
      | @finite s' m' e' hm' hnormal' =>
          cases s' with
          | positive =>
              rw [compare_lt_iff_lt.2 (apply_positive_pos e' hm')]
              rfl
          | negative =>
              rw [compare_gt_iff_gt.2 (apply_negative_neg e' hm')]
              rfl
  | @finite s m e hm hnormal =>
      cases hv with
      | zero s' =>
          cases s with
          | positive =>
              rw [compare_gt_iff_gt.2 (apply_positive_pos e hm)]
              rfl
          | negative =>
              rw [compare_lt_iff_lt.2 (apply_negative_neg e hm)]
              rfl
      | @finite s' m' e' hm' hnormal' =>
          have hmagnitudes := compare_magnitudes hnormal hnormal'
          cases s with
          | positive =>
              cases s' with
              | positive => exact congrArg some hmagnitudes
              | negative =>
                  rw [compare_gt_iff_gt.2
                    ((apply_negative_neg e' hm').trans (apply_positive_pos e hm))]
                  rfl
          | negative =>
              cases s' with
              | positive =>
                  rw [compare_lt_iff_lt.2
                    ((apply_negative_neg e hm).trans (apply_positive_pos e' hm'))]
                  rfl
              | negative =>
                  rw [Sign.apply, Sign.apply, Int.cast_neg, Int.cast_neg, neg_mul, neg_mul,
                    compare_neg_neg, Int.cast_natCast, Int.cast_natCast, ← hmagnitudes]
                  rfl

/-- Models are equal in comparisons if they are the same number, or zeros of any sign. -/
theorem compare_eq_eq_iff {u v : UnpackedFloat} :
    u.compare v = some .eq ↔ u = v ∧ u ≠ .notANumber ∨ ∃ s s', u = .zero s ∧ v = .zero s' := by
  cases u with
  | notANumber => simp [UnpackedFloat.compare]
  | zero s =>
      cases v with
      | infinity s' => cases s' <;> simp [UnpackedFloat.compare]
      | finite s' m' e' hm' => cases s' <;> simp [UnpackedFloat.compare]
      | _ => simp [UnpackedFloat.compare]
  | infinity s =>
      cases v with
      | infinity s' => cases s <;> cases s' <;> simp [UnpackedFloat.compare] <;> rfl
      | _ => cases s <;> simp [UnpackedFloat.compare]
  | finite s m e hm =>
      cases v with
      | infinity s' => cases s <;> cases s' <;> simp [UnpackedFloat.compare]
      | finite s' m' e' hm' =>
          cases s <;> cases s' <;> simp [UnpackedFloat.compare, Ordering.then_eq_eq, and_comm]
      | _ => cases s <;> simp [UnpackedFloat.compare]

theorem beq_iff_compare {a b : Float} :
    (a == b) = true ↔ a.toModel.unpack.compare b.toModel.unpack = some .eq := by
  change (a.toModel.unpack.compare b.toModel.unpack == some .eq) = true ↔ _
  rw [beq_iff_eq]

theorem beq_symm {a b : Float} (h : (a == b) = true) : (b == a) = true := by
  rw [beq_iff_compare, compare_eq_eq_iff] at h ⊢
  rcases h with ⟨heq, hnumber⟩ | ⟨s, s', ha, hb⟩
  · exact .inl ⟨heq.symm, heq ▸ hnumber⟩
  · exact .inr ⟨s', s, hb, ha⟩

theorem beq_trans {a b c : Float} (hab : (a == b) = true) (hbc : (b == c) = true) :
    (a == c) = true := by
  rw [beq_iff_compare] at *
  rcases compare_eq_eq_iff.1 hab with ⟨heq, -⟩ | ⟨s, -, ha, hb⟩
  · rw [heq, hbc]
  · rcases compare_eq_eq_iff.1 hbc with ⟨heq, -⟩ | ⟨-, s', -, hc⟩
    · rw [← heq, hab]
    · rw [ha, hc]
      rfl

theorem lt_iff_compare {a b : Float} :
    a < b ↔ a.toModel.unpack.compare b.toModel.unpack = some .lt := by
  change decide ((a.toModel.unpack.compare b.toModel.unpack == some .lt) = true) = true ↔ _
  rw [decide_eq_true_eq, beq_iff_eq]

theorem le_iff_compare {a b : Float} :
    a ≤ b ↔ (a.toModel.unpack.compare b.toModel.unpack).any (·.isLE) = true := by
  change decide ((a.toModel.unpack.compare b.toModel.unpack).any (·.isLE) = true) = true ↔ _
  rw [decide_eq_true_eq]

section Floats

variable {a b : Float} {x y : ℚ} (ha : value? a = some x) (hb : value? b = some y)
include ha hb

theorem lt_iff_of_value? : a < b ↔ x < y := by
  rw [lt_iff_compare, (denotes_of_value? ha).compare_eq (denotes_of_value? hb),
    Option.some.injEq, compare_lt_iff_lt]

theorem le_iff_of_value? : a ≤ b ↔ x ≤ y := by
  rw [le_iff_compare, (denotes_of_value? ha).compare_eq (denotes_of_value? hb), Option.any_some,
    Ordering.isLE_iff_ne_gt, compare_gt_iff_gt, not_lt]

theorem beq_iff_of_value? : (a == b) = true ↔ x = y := by
  rw [beq_iff_compare, (denotes_of_value? ha).compare_eq (denotes_of_value? hb),
    Option.some.injEq, compare_eq_iff_eq]

theorem value?_pickMax : value? (pickMax a b) = some (max x y) := by
  unfold pickMax
  split
  · next hlt => rw [hb, max_eq_right ((lt_iff_of_value? ha hb).1 hlt).le]
  · next hle => rw [ha, max_eq_left (not_lt.1 fun h => hle ((lt_iff_of_value? ha hb).2 h))]

theorem value?_pickMin : value? (pickMin a b) = some (min x y) := by
  unfold pickMin
  split
  · next hlt => rw [hb, min_eq_right ((lt_iff_of_value? hb ha).1 hlt).le]
  · next hle => rw [ha, min_eq_left (not_lt.1 fun h => hle ((lt_iff_of_value? hb ha).2 h))]

end Floats

/-! ## Limits -/

theorem value?_zero : value? 0.0 = some 0 := by
  decide +kernel

theorem unpack_of_value?_eq_none {a : Float} (ha : value? a = none) (hpos : 0.0 < a) :
    a.toModel.unpack = .infinity .positive := by
  have hzero : (0.0 : Float).toModel.unpack = .zero .positive := rfl
  rw [value?, parts_eq] at ha
  rw [lt_iff_compare, hzero] at hpos
  cases hu : a.toModel.unpack with
  | notANumber =>
      rw [hu] at hpos
      cases hpos
  | infinity s =>
      rw [hu] at hpos
      cases s with
      | positive => rfl
      | negative => cases hpos
  | zero s =>
      rw [hu] at ha
      cases ha
  | finite s m e hm =>
      rw [hu] at ha
      cases ha

theorem Denotes.infinity_compare {v : UnpackedFloat} {y : ℚ} (hv : Denotes v y) :
    (UnpackedFloat.infinity .positive).compare v = some .gt := by
  cases hv <;> rfl

theorem Denotes.compare_infinity {v : UnpackedFloat} {y : ℚ} (hv : Denotes v y) :
    v.compare (.infinity .positive) = some .lt := by
  cases hv with
  | zero s => rfl
  | finite s hm hnormal => cases s <;> rfl

section Infinite

variable {a b : Float} {y : ℚ} (ha : value? a = none) (hpos : 0.0 < a) (hb : value? b = some y)
include ha hpos hb

/-- What is positive and not finite is beyond all finite numbers. -/
theorem not_lt_of_value?_eq_none : ¬ a < b := by
  rw [lt_iff_compare, unpack_of_value?_eq_none ha hpos, (denotes_of_value? hb).infinity_compare]
  rintro ⟨⟩

theorem le_of_value?_eq_none : b ≤ a := by
  rw [le_iff_compare, unpack_of_value?_eq_none ha hpos, (denotes_of_value? hb).compare_infinity]
  rfl

end Infinite

/-- What is not below zero is finite if it is below a finite number. -/
theorem value?_pickMax_zero {a b : Float} {y : ℚ} (hb : value? b = some y)
    (h : pickMax 0.0 a < b) : ∃ q, value? (pickMax 0.0 a) = some q ∧ 0 ≤ q ∧ q < y := by
  unfold pickMax at h ⊢
  by_cases hpos : 0.0 < a
  · rw [if_pos hpos] at h ⊢
    cases ha : value? a with
    | none => exact absurd h (not_lt_of_value?_eq_none ha hpos hb)
    | some q =>
        rw [lt_iff_of_value? value?_zero ha] at hpos
        rw [lt_iff_of_value? ha hb] at h
        exact ⟨q, rfl, hpos.le, h⟩
  · rw [if_neg hpos] at h ⊢
    rw [lt_iff_of_value? value?_zero hb] at h
    exact ⟨0, value?_zero, le_rfl, h⟩

/-- What is not below zero is finite if it does not reach a finite number. -/
theorem value?_pickMax_zero_of_not_le {a b : Float} {y : ℚ} (hb : value? b = some y) (hy : 0 < y)
    (h : ¬ b ≤ a) : ∃ q, value? (pickMax 0.0 a) = some q ∧ 0 ≤ q ∧ q < y := by
  unfold pickMax
  by_cases hpos : 0.0 < a
  · rw [if_pos hpos]
    cases ha : value? a with
    | none => exact absurd (le_of_value?_eq_none ha hpos hb) h
    | some q =>
        rw [lt_iff_of_value? value?_zero ha] at hpos
        rw [le_iff_of_value? hb ha, not_le] at h
        exact ⟨q, rfl, hpos.le, h⟩
  · rw [if_neg hpos]
    exact ⟨0, value?_zero, le_rfl, hy⟩

/-- A number between zero and a finite limit is finite. -/
theorem exists_value?_clamp (a : Float) {limit : Float} {y : ℚ} (hlimit : value? limit = some y)
    (hy : 0 ≤ y) :
    ∃ q, value? (pickMin limit (pickMax 0.0 a)) = some q ∧ 0 ≤ q ∧ q ≤ y := by
  unfold pickMin
  split
  · next hbelow =>
      obtain ⟨q, hq, hzero, hlt⟩ := value?_pickMax_zero hlimit hbelow
      exact ⟨q, hq, hzero, hlt.le⟩
  · exact ⟨y, hlimit, hy, le_rfl⟩

end ContrastAudit.Number
