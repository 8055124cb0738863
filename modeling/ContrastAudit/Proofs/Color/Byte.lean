import Mathlib.Tactic.NormNum
import ContrastAudit.Contrast.Verdict
import ContrastAudit.Proofs.Number.Fault
import ContrastAudit.Proofs.Number.Order

/-!
# Colors with bytes for channels

A color whose channels are bytes can be painted over any other such color, whatever its alpha is,
and the result has bytes for channels again.  The rounding errors of the three products and sums
that make a channel add up to far less than a half, so painting may be repeated at will.

**Results.**
* `isByte_clampByte`: what is clamped is a byte, whatever it was.
* `exists_onto`: painting succeeds and stays on the screen.
* `exists_contrastRatio`: colors on the screen have a contrast ratio.
-/

namespace ContrastAudit

open Number

/-- A number from 0 to 255. -/
def IsByte (n : ℤ) : Prop :=
  0 ≤ n ∧ n ≤ 255

instance decidableIsByte (n : ℤ) : Decidable (IsByte n) :=
  inferInstanceAs (Decidable (0 ≤ n ∧ n ≤ 255))

namespace Color

/-- The channels are bytes. -/
structure OnScreen (color : Color) : Prop where
  red : IsByte color.red
  green : IsByte color.green
  blue : IsByte color.blue

end Color

/-! ## Channels -/

theorem value?_half : value? 0.5 = some (1 / 2) := by
  decide +kernel

theorem value?_one : value? 1.0 = some 1 := by
  decide +kernel

theorem value?_255 : value? 255.0 = some 255 := by
  decide +kernel

/-- What holds of each of the bytes holds of all. -/
theorem forall_isByte {p : ℤ → Prop} (all : ∀ n : Fin 256, p (n : ℕ)) {n : ℤ} (h : IsByte n) :
    p n := by
  obtain ⟨k, rfl⟩ := Int.eq_ofNat_of_zero_le h.1
  have hk : k < 256 := by
    have := h.2
    omega
  exact all ⟨k, hk⟩

theorem ofInt_of_isByte {n : ℤ} (h : IsByte n) :
    ∃ x, Number.ofInt n = .ok x ∧ value? x = some (n : ℚ) := by
  have all : ∀ n : Fin 256, (Number.ofInt (n : ℕ)).map value? = .ok (some (((n : ℕ) : ℤ) : ℚ)) := by
    decide +kernel
  exact map_eq_ok_iff.1
    (forall_isByte (p := fun n => (Number.ofInt n).map value? = .ok (some (n : ℚ))) all h)

/-- A number that is nearly between 0 and 255 is rounded to a byte. -/
theorem roundHalfUp_of_value? {x : Float} {q : ℚ} (hx : value? x = some q) (hlow : -1 / 4 ≤ q)
    (hhigh : q ≤ 255 + 1 / 4) : ∃ n, roundHalfUp x = .ok n ∧ IsByte n := by
  have hexact : |q + 1 / 2| ≤ (2 : ℚ) ^ (8 : ℤ) := by
    rw [abs_le]
    constructor <;> norm_num <;> linarith
  obtain ⟨r, hr, herror⟩ := value?_add (N := 8) (by decide) (by decide) hx value?_half hexact
  have hunit : (2 : ℚ) ^ ((8 : ℤ) - 52) ≤ 1 / 8 := by norm_num
  obtain ⟨hbelow, habove⟩ := abs_le.1 (herror.trans hunit)
  refine ⟨⌊r⌋, floor_of_value? hr, ?_, ?_⟩
  · rw [Int.floor_nonneg]
    linarith
  · rw [← Int.lt_add_one_iff, Int.floor_lt]
    push_cast
    linarith

namespace Color

/-- What is clamped is a byte, whatever it was. -/
theorem isByte_clampByte (x : Float) : IsByte (clampByte x) := by
  obtain ⟨q, hq, hlow, hhigh⟩ := exists_value?_clamp x value?_255 (by norm_num)
  obtain ⟨n, hn, hbyte⟩ := roundHalfUp_of_value? hq (by linarith) (by linarith)
  rw [clampByte, hn]
  exact hbyte

/-- One channel painted over another. -/
theorem exists_overChannel {a : Float} {α : ℚ} (ha : value? a = some α) (hlow : 0 ≤ α)
    (hhigh : α ≤ 1) {front behind : ℤ} (hfront : IsByte front) (hbehind : IsByte behind) :
    ∃ n, overChannel a front behind = .ok n ∧ IsByte n := by
  obtain ⟨x, hx, hxv⟩ := ofInt_of_isByte hfront
  obtain ⟨y, hy, hyv⟩ := ofInt_of_isByte hbehind
  have hx0 : (0 : ℚ) ≤ front := by exact_mod_cast hfront.1
  have hx1 : (front : ℚ) ≤ 255 := by exact_mod_cast hfront.2
  have hy0 : (0 : ℚ) ≤ behind := by exact_mod_cast hbehind.1
  have hy1 : (behind : ℚ) ≤ 255 := by exact_mod_cast hbehind.2
  have hsize : (2 : ℚ) ^ (8 : ℤ) = 256 := by norm_num
  have hunit : (2 : ℚ) ^ ((8 : ℤ) - 52) ≤ 1 / 4096 := by norm_num
  -- the share of the front, the weight of the rest, its share, and the sum: four roundings
  have hshare : 0 ≤ front * α ∧ front * α ≤ 255 * α :=
    ⟨mul_nonneg hx0 hlow, mul_le_mul_of_nonneg_right hx1 hlow⟩
  obtain ⟨p, hp, hperror⟩ := value?_mul (N := 8) (by decide) (by decide) hxv ha
    (by rw [hsize, abs_le]; constructor <;> linarith)
  obtain ⟨hp0, hp1⟩ := abs_le.1 (hperror.trans hunit)
  obtain ⟨w, hw, hwerror⟩ := value?_sub (N := 8) (by decide) (by decide) value?_one ha
    (by rw [hsize, abs_le]; constructor <;> linarith)
  obtain ⟨hw0, hw1⟩ := abs_le.1 (hwerror.trans hunit)
  have hrest : -(255 / 4096) ≤ behind * w ∧ behind * w ≤ 255 * (1 - α) + 255 / 4096 := by
    constructor <;> nlinarith
  obtain ⟨r, hr, hrerror⟩ := value?_mul (N := 8) (by decide) (by decide) hyv hw
    (by rw [hsize, abs_le]; constructor <;> linarith)
  obtain ⟨hr0, hr1⟩ := abs_le.1 (hrerror.trans hunit)
  obtain ⟨q, hq, hqerror⟩ := value?_add (N := 8) (by decide) (by decide) hp hr
    (by rw [hsize, abs_le]; constructor <;> linarith)
  obtain ⟨hq0, hq1⟩ := abs_le.1 (hqerror.trans hunit)
  obtain ⟨n, hn, hbyte⟩ := roundHalfUp_of_value? hq (by linarith) (by linarith)
  refine ⟨n, ?_, hbyte⟩
  rw [overChannel, hx, hy]
  exact hn

/-- A color on the screen can be painted over another one, with any alpha. -/
theorem exists_onto {color behind : Color} (hcolor : color.OnScreen) (hbehind : behind.OnScreen) :
    ∃ painted, color.onto behind = .ok painted ∧ painted.OnScreen := by
  unfold onto
  by_cases hsolid : color.isSolid = true
  · rw [if_pos hsolid]
    exact ⟨color, rfl, hcolor⟩
  · rw [if_neg hsolid]
    have hopen : ¬ 1.0 ≤ color.opacity := by
      rw [isSolid, decide_eq_true_eq] at hsolid
      exact hsolid
    obtain ⟨α, hα, hlow, hhigh⟩ :=
      value?_pickMax_zero_of_not_le value?_one (by norm_num) hopen
    obtain ⟨r, hr, hred⟩ := exists_overChannel hα hlow hhigh.le hcolor.red hbehind.red
    obtain ⟨g, hg, hgreen⟩ := exists_overChannel hα hlow hhigh.le hcolor.green hbehind.green
    obtain ⟨b, hb, hblue⟩ := exists_overChannel hα hlow hhigh.le hcolor.blue hbehind.blue
    refine ⟨⟨r, g, b, none⟩, ?_, hred, hgreen, hblue⟩
    dsimp only
    rw [hr, hg, hb]
    rfl

/-! ## Contrast -/

theorem exists_linearize {n : ℤ} (h : IsByte n) : ∃ light, (unit n >>= linearize) = .ok light := by
  have all : ∀ n : Fin 256, ((unit (n : ℕ) >>= linearize).map fun _ => ()) = .ok () := by
    decide +kernel
  have hn := forall_isByte (p := fun n => ((unit n >>= linearize).map fun _ => ()) = .ok ()) all h
  obtain ⟨light, hlight, -⟩ := map_eq_ok_iff.1 hn
  exact ⟨light, hlight⟩

theorem exists_toLinear {color : Color} (h : color.OnScreen) :
    ∃ light, color.toLinear = .ok light := by
  obtain ⟨r, hr⟩ := exists_linearize h.red
  obtain ⟨g, hg⟩ := exists_linearize h.green
  obtain ⟨b, hb⟩ := exists_linearize h.blue
  obtain ⟨x, hx, hxr⟩ := bind_eq_ok_iff.1 hr
  obtain ⟨y, hy, hyg⟩ := bind_eq_ok_iff.1 hg
  obtain ⟨z, hz, hzb⟩ := bind_eq_ok_iff.1 hb
  refine ⟨(r, g, b), ?_⟩
  rw [toLinear, hx, ok_bind, hxr, ok_bind, hy, ok_bind, hyg, ok_bind, hz, ok_bind, hzb]
  rfl

theorem exists_luminance {color : Color} (h : color.OnScreen) :
    ∃ l, color.luminance = .ok l := by
  obtain ⟨light, hlight⟩ := exists_toLinear h
  rw [luminance, hlight]
  exact ⟨_, rfl⟩

theorem onScreen_white : white.OnScreen :=
  ⟨by decide, by decide, by decide⟩

theorem exists_flattened {color other : Color} (h : color.OnScreen) (h' : other.OnScreen) :
    ∃ flat, color.flattened other = .ok flat ∧ flat.OnScreen := by
  unfold flattened
  split
  · exact ⟨color, rfl, h⟩
  · apply exists_onto h
    split
    · exact h'
    · exact onScreen_white

/-- Colors on the screen have a contrast ratio. -/
theorem exists_contrastRatio {foreground background : Color} (hf : foreground.OnScreen)
    (hb : background.OnScreen) : ∃ ratio, contrastRatio foreground background = .ok ratio := by
  obtain ⟨front, hfront, hfrontScreen⟩ := exists_flattened hf hb
  obtain ⟨back, hback, hbackScreen⟩ := exists_flattened hb hf
  obtain ⟨l, hl⟩ := exists_luminance hfrontScreen
  obtain ⟨l', hl'⟩ := exists_luminance hbackScreen
  rw [contrastRatio, hfront, ok_bind, hl, ok_bind, hback, ok_bind, hl']
  exact ⟨_, rfl⟩

end Color

end ContrastAudit
