import ContrastAudit.Color.Mix
import ContrastAudit.Proofs.Color.Byte
import ContrastAudit.Proofs.Number.Dyadic

/-!
# Faults of conversions and mixtures

A color of the screen has coordinates in every space.  The way back has no fault either, but for two
operations: the sine and the cosine of an infinite hue, and the third power of a lightness of `lab`
that is out of range.  A hue that is mixed is a remainder, so that mixtures fault for their
lightness alone.

**Results.**
* `ofCoordinates_eq_error_iff`: which coordinates fault on the way back, and how.
* `mix_eq_error_iff`: which mixtures of two colors of the screen fault.
-/

namespace ContrastAudit.Color

open Number

/-! ## Coordinates -/

theorem value?_two : value? 2.0 = some 2 := by
  decide +kernel

/-- The channels of a color of the screen as fractions of 255, which they differ from by little. -/
theorem exists_units :
    ∃ f : ℤ → ℚ, ∀ n, IsByte n →
      ∃ x, unit n = .ok x ∧ value? x = some (f n) ∧ |f n - n / 255| ≤ 1 / 2 ^ 52 := by
  refine ⟨fun n => ((unit n).toOption.bind value?).getD 0, fun n hn => ?_⟩
  have all : ∀ n : Fin 256, ∃ x, unit (n : ℕ) = .ok x ∧ ∃ q ∈ value? x,
      |q - ((n : ℕ) : ℤ) / 255| ≤ 1 / 2 ^ 52 := by
    decide +kernel
  obtain ⟨x, hx, q, hq, herror⟩ := forall_isByte (p := fun n => ∃ x, unit n = .ok x ∧
    ∃ q ∈ value? x, |q - (n : ℚ) / 255| ≤ 1 / 2 ^ 52) all hn
  have hvalue : ((unit n).toOption.bind value?).getD 0 = q := by
    rw [hx]
    exact congrArg (·.getD 0) hq
  subst hvalue
  exact ⟨x, hx, hq, herror⟩

/-- The divisor of a saturation is not zero, neither for bright nor for dark colors. -/
theorem exists_divide (d : Float) {high low : Float} {h l : ℚ}
    (hhigh : value? high = some h) (hlow : value? low = some l) (hl : -(1 / 2 ^ 52) ≤ l)
    (hgap : l + 1 / 256 ≤ h)
    (hh : h ≤ 1 + 1 / 2 ^ 52) :
    (∃ x, divide d (2.0 - high - low) = .ok x) ∧ ∃ x, divide d (high + low) = .ok x := by
  have hunit : (2 : ℚ) ^ ((1 : ℤ) - 52) = 1 / 2 ^ 51 := by norm_num
  have htwo : (2 : ℚ) ^ (1 : ℤ) = 2 := by norm_num
  have hzero : ∀ {y : Float} {q : ℚ}, value? y = some q → q ≠ 0 → ∃ x, divide d y = .ok x := by
    intro y q hy hq
    have hne : ¬ (y == 0.0) = true := fun heq => hq ((beq_iff_of_value? hy value?_zero).1 heq)
    rw [divide, if_neg hne]
    exact ⟨_, rfl⟩
  constructor
  · obtain ⟨p, hp, hperror⟩ := value?_sub (N := 1) (by decide) (by decide) value?_two hhigh
      (by rw [htwo, abs_le]; constructor <;> linarith)
    rw [hunit, abs_le] at hperror
    obtain ⟨q, hq, hqerror⟩ := value?_sub (N := 1) (by decide) (by decide) hp hlow
      (by rw [htwo, abs_le]; constructor <;> linarith)
    rw [hunit, abs_le] at hqerror
    apply hzero hq
    have : 0 < q := by linarith
    exact this.ne'
  · obtain ⟨q, hq, hqerror⟩ := value?_add (N := 1) (by decide) (by decide) hhigh hlow
      (by rw [htwo, abs_le]; constructor <;> linarith)
    rw [hunit, abs_le] at hqerror
    apply hzero hq
    have : 0 < q := by linarith
    exact this.ne'

theorem exists_toHsl {color : Color} (h : color.OnScreen) : ∃ p, color.toHsl = .ok p := by
  obtain ⟨f, hf⟩ := exists_units
  obtain ⟨r, hr, hrv, -⟩ := hf _ h.red
  obtain ⟨g, hg, hgv, -⟩ := hf _ h.green
  obtain ⟨b, hb, hbv, -⟩ := hf _ h.blue
  have hhigh := value?_pickMax (value?_pickMax hrv hgv) hbv
  have hlow := value?_pickMin (value?_pickMin hrv hgv) hbv
  have hmax : ∃ n, IsByte n ∧ max (max (f color.red) (f color.green)) (f color.blue) = f n := by
    rcases max_choice (max (f color.red) (f color.green)) (f color.blue) with hm | hm
    · rw [hm]
      rcases max_choice (f color.red) (f color.green) with hm' | hm'
      · exact ⟨_, h.red, hm'⟩
      · exact ⟨_, h.green, hm'⟩
    · exact ⟨_, h.blue, hm⟩
  have hmin : ∃ n, IsByte n ∧ min (min (f color.red) (f color.green)) (f color.blue) = f n := by
    rcases min_choice (min (f color.red) (f color.green)) (f color.blue) with hm | hm
    · rw [hm]
      rcases min_choice (f color.red) (f color.green) with hm' | hm'
      · exact ⟨_, h.red, hm'⟩
      · exact ⟨_, h.green, hm'⟩
    · exact ⟨_, h.blue, hm⟩
  have hle : min (min (f color.red) (f color.green)) (f color.blue) ≤
      max (max (f color.red) (f color.green)) (f color.blue) :=
    (min_le_right _ _).trans (le_max_right _ _)
  obtain ⟨n, hn, hmaxn⟩ := hmax
  obtain ⟨m, hm, hminm⟩ := hmin
  rw [hmaxn] at hhigh hle
  rw [hminm] at hlow hle
  unfold toHsl
  rw [hr, ok_bind, hg, ok_bind, hb, ok_bind]
  dsimp only
  split
  · exact ⟨_, rfl⟩
  · next hne =>
      have hlt : f m < f n :=
        lt_of_le_of_ne hle fun heq => hne ((beq_iff_of_value? hhigh hlow).2 heq.symm)
      obtain ⟨-, -, -, hnerror⟩ := hf n hn
      obtain ⟨-, -, -, hmerror⟩ := hf m hm
      rw [abs_le] at hnerror hmerror
      have hnm : m + 1 ≤ n := by
        by_contra hnot
        rcases eq_or_lt_of_le (show n ≤ m by omega) with rfl | hnm
        · exact lt_irrefl _ hlt
        · have hnm' : (n : ℚ) + 1 ≤ m := by exact_mod_cast hnm
          linarith
      have hgap : (m : ℚ) + 1 ≤ n := by exact_mod_cast hnm
      have hm0 : (0 : ℚ) ≤ m := by exact_mod_cast hm.1
      have hn1 : (n : ℚ) ≤ 255 := by exact_mod_cast hn.2
      obtain ⟨⟨x, hx⟩, ⟨y, hy⟩⟩ := exists_divide _ hhigh hlow (by linarith) (by linarith)
        (by linarith)
      rw [exists_bind_iff]
      split
      · exact ⟨x, hx, _, rfl⟩
      · exact ⟨y, hy, _, rfl⟩

/-- A color of the screen has coordinates in every space. -/
theorem exists_coordinates {color : Color} (h : color.OnScreen) (space : Space) :
    ∃ p, color.coordinates space = .ok p := by
  obtain ⟨⟨r, g, b⟩, hlight⟩ := exists_toLinear h
  have hoklab : ∃ p, color.toOklab = .ok p := by
    rw [toOklab, hlight]
    exact ⟨_, rfl⟩
  have hlab : ∃ p, color.toLab = .ok p := by
    rw [toLab, hlight]
    exact ⟨_, rfl⟩
  cases space with
  | srgb =>
      obtain ⟨x, hx, -⟩ := ofInt_of_isByte h.red
      obtain ⟨y, hy, -⟩ := ofInt_of_isByte h.green
      obtain ⟨z, hz, -⟩ := ofInt_of_isByte h.blue
      rw [coordinates, hx, ok_bind, hy, ok_bind, hz]
      exact ⟨_, rfl⟩
  | linear => exact ⟨_, hlight⟩
  | oklab => exact hoklab
  | oklch => exact exists_map_iff.2 hoklab
  | lab => exact hlab
  | lch => exact exists_map_iff.2 hlab
  | hsl => exact exists_toHsl h

/-! ## The way back -/

theorem isInfinite_of_value? {x : Float} {q : ℚ} (h : value? x = some q) :
    isInfinite x = false := by
  unfold isInfinite
  split
  · next hparts =>
      rw [value?, hparts] at h
      cases h
  · rfl

theorem ofPolar_eq (lightness chroma hue : Float) :
    ofPolar lightness chroma hue =
      if isInfinite (radians hue) then .error .undefined
      else .ok (lightness, chroma * (radians hue).cos, chroma * (radians hue).sin) := by
  rw [ofPolar, cosine, sine]
  split <;> rfl

/-- A lightness whose third power, as `lab` takes it, is out of range. -/
def IsBlinding (lightness : Float) : Prop :=
  labKappa * labEpsilon < lightness ∧ cube ((lightness + 16.0) / 116.0) = .error .overflow

theorem cube_eq_error {x : Float} {fault : NumericFault} (h : cube x = .error fault) :
    fault = .overflow := by
  unfold cube at h
  split at h
  · dsimp only at h
    split at h
    · cases h
    · cases h
      rfl
  · cases h

theorem ofLab_eq_error_iff {lightness a b : Float} {fault : NumericFault} :
    ofLab lightness a b = .error fault ↔ IsBlinding lightness ∧ fault = .overflow := by
  unfold ofLab IsBlinding
  dsimp only
  split
  · next hbright =>
      rw [bind_eq_error_iff]
      constructor
      · rintro (hcube | ⟨y, -, hreturn⟩)
        · obtain rfl := cube_eq_error hcube
          exact ⟨⟨hbright, hcube⟩, rfl⟩
        · cases hreturn
      · rintro ⟨⟨-, hcube⟩, rfl⟩
        exact .inl hcube
  · next hdark =>
      constructor
      · intro h
        cases h
      · rintro ⟨⟨hbright, -⟩, -⟩
        exact absurd hbright hdark

/-- How the color of coordinates can fault: the first coordinate is a lightness and the last one a
hue, where it is one. -/
inductive OutOfRange : Space → Float → Float → NumericFault → Prop
  | hue {space : Space} {lightness hue : Float} (hspace : space = .oklch ∨ space = .lch)
      (h : isInfinite (radians hue) = true) : OutOfRange space lightness hue .undefined
  | lightness {space : Space} {lightness third : Float} (hspace : space = .lab ∨ space = .lch)
      (hhue : space = .lch → isInfinite (radians third) = false) (h : IsBlinding lightness) :
      OutOfRange space lightness third .overflow

theorem ofCoordinates_eq_error_iff {x y z : Float} {space : Space} {fault : NumericFault} :
    ofCoordinates x y z space = .error fault ↔ OutOfRange space x z fault := by
  constructor
  · intro h
    cases space with
    | srgb | linear | oklab | hsl => cases h
    | oklch =>
        rw [ofCoordinates, ofPolar_eq] at h
        split at h
        · next hhue =>
            cases h
            exact .hue (.inl rfl) hhue
        · cases h
    | lab =>
        obtain ⟨hlightness, rfl⟩ := ofLab_eq_error_iff.1 h
        exact .lightness (.inl rfl) (fun hspace => by cases hspace) hlightness
    | lch =>
        rw [ofCoordinates, ofPolar_eq] at h
        split at h
        · next hhue =>
            cases h
            exact .hue (.inr rfl) hhue
        · next hhue =>
            obtain ⟨hlightness, rfl⟩ := ofLab_eq_error_iff.1 h
            exact .lightness (.inr rfl) (fun _ => by simpa using hhue) hlightness
  · intro h
    cases h with
    | hue hspace hhue =>
        rcases hspace with rfl | rfl
        all_goals
          rw [ofCoordinates, ofPolar_eq, if_pos hhue]
          rfl
    | lightness hspace hhue hlightness =>
        rcases hspace with rfl | rfl
        · exact ofLab_eq_error_iff.2 ⟨hlightness, rfl⟩
        · rw [ofCoordinates, ofPolar_eq, if_neg (by simp [hhue rfl])]
          exact ofLab_eq_error_iff.2 ⟨hlightness, rfl⟩

/-! ## Mixtures -/

/-- A remainder of degrees is finite, if it is a number. -/
theorem exists_value?_modulo (x : Float) :
    modulo x 360 = 0.0 / 0.0 ∨ ∃ q : ℚ, value? (modulo x 360) = some q ∧ |q| ≤ 2 ^ (11 : ℤ) := by
  have hlimit : (2 : ℚ) ^ (9 : ℤ) = 512 := by norm_num
  have hwide : (2 : ℚ) ^ (11 : ℤ) = 2048 := by norm_num
  have hunit : (2 : ℚ) ^ ((9 : ℤ) - 52) ≤ 1 := by norm_num
  have hunit' : (2 : ℚ) ^ ((11 : ℤ) - 52) ≤ 1 := by norm_num
  have hcircle : value? (ofDyadic false 360 0) = some 360 := by decide +kernel
  unfold modulo
  split
  · next negative m e hparts =>
      right
      dsimp only
      generalize hr : m * Nat.pow 2 e.toNat % (360 * Nat.pow 2 (-e).toNat) = r
      have hlt : r < 360 * 2 ^ (-e).toNat := by
        rw [← hr]
        exact Nat.mod_lt _ (by simp)
      have hsmall : (r : ℚ) * 2 ^ (-((-e).toNat : ℤ)) ≤ 360 := by
        rw [zpow_neg, zpow_natCast, ← div_eq_mul_inv, div_le_iff₀ (by positivity)]
        exact_mod_cast hlt.le
      have hpos : 0 ≤ (r : ℚ) * 2 ^ (-((-e).toNat : ℤ)) := by positivity
      obtain ⟨q, hq, herror⟩ := exists_value?_ofDyadic negative (N := 9) (by decide) (by decide)
        (hsmall.trans (by rw [hlimit]; norm_num))
      have hq0 := abs_le.1 (herror.trans hunit)
      rw [hwide]
      split
      · exact ⟨0, value?_zero, by norm_num⟩
      cases negative with
      | false =>
          simp only [Bool.false_eq_true, if_false, Int.cast_natCast] at hq0 ⊢
          refine ⟨q, hq, abs_le.2 ⟨?_, ?_⟩⟩ <;> linarith
      | true =>
          simp only [if_true, Int.cast_neg, Int.cast_natCast, neg_mul] at hq0 ⊢
          obtain ⟨s, hs, hserror⟩ := value?_add (N := 11) (by decide) (by decide) hq hcircle
            (by rw [hwide, abs_le]; constructor <;> linarith)
          have hs0 := abs_le.1 (hserror.trans hunit')
          refine ⟨s, hs, abs_le.2 ⟨?_, ?_⟩⟩ <;> linarith
  · exact .inl rfl

/-- The hue of a mixture has a sine and a cosine. -/
theorem isInfinite_lerpHue (h₁ h₂ t : Float) : isInfinite (radians (lerpHue h₁ h₂ t)) = false := by
  have hfactor : ∃ c : ℚ, value? (pi / 180.0) = some c ∧ |c| ≤ 1 := by
    have hvalue : ∃ c ∈ value? (pi / 180.0), |c| ≤ 1 := by decide +kernel
    simpa using hvalue
  obtain ⟨c, hc, hsmall⟩ := hfactor
  rw [lerpHue]
  generalize h₁ + _ * t = x
  rcases exists_value?_modulo x with hnan | ⟨q, hq, hq0⟩
  · rw [hnan]
    decide +kernel
  · have hproduct : |q * c| ≤ 2 ^ (11 : ℤ) := by
      rw [abs_mul]
      calc |q| * |c| ≤ 2 ^ (11 : ℤ) * 1 :=
            mul_le_mul hq0 hsmall (abs_nonneg c) (by positivity)
        _ = 2 ^ (11 : ℤ) := mul_one _
    obtain ⟨p, hp, -⟩ := value?_mul (by decide) (by decide) hq hc hproduct
    exact isInfinite_of_value? hp

/-- Two colors are mixed in a space of `lab` to a lightness that is out of range. -/
def BlindsIn (space : Space) (c₁ : Color) (w₁ : Float) (c₂ : Color) (w₂ : Float) : Prop :=
  (space = .lab ∨ space = .lch) ∧ ∃ p₁ p₂, c₁.coordinates space = .ok p₁ ∧
    c₂.coordinates space = .ok p₂ ∧ IsBlinding (p₁.1 * w₁ + p₂.1 * w₂)

section Mixing

variable {c₁ c₂ : Color} (h₁ : c₁.OnScreen) (h₂ : c₂.OnScreen)
include h₁ h₂

theorem mixIn_eq_error_iff {space : Space} {w₁ w₂ : Float} {fault : NumericFault} :
    mixIn space c₁ w₁ c₂ w₂ = .error fault ↔ BlindsIn space c₁ w₁ c₂ w₂ ∧ fault = .overflow := by
  obtain ⟨⟨x₁, y₁, z₁⟩, hp₁⟩ := exists_coordinates h₁ space
  obtain ⟨⟨x₂, y₂, z₂⟩, hp₂⟩ := exists_coordinates h₂ space
  rw [mixIn, hp₁, ok_bind]
  dsimp only
  rw [hp₂, ok_bind]
  dsimp only
  rw [bind_eq_error_iff, ofCoordinates_eq_error_iff]
  constructor
  · rintro (hrange | ⟨mixed, -, hreturn⟩)
    · cases hrange with
      | hue hspace hhue =>
          rw [if_pos hspace, isInfinite_lerpHue] at hhue
          cases hhue
      | lightness hspace hhue hlightness =>
          have hhsl : space ≠ .hsl := by
            rintro rfl
            simp at hspace
          rw [if_neg hhsl] at hlightness
          exact ⟨⟨hspace, _, _, hp₁, hp₂, hlightness⟩, rfl⟩
    · split at hreturn
      · cases hreturn
      · cases hreturn
  · rintro ⟨⟨hspace, p₁, p₂, hp₁', hp₂', hlightness⟩, rfl⟩
    left
    obtain rfl := Except.ok.inj (hp₁.symm.trans hp₁')
    obtain rfl := Except.ok.inj (hp₂.symm.trans hp₂')
    have hhsl : space ≠ .hsl := by
      rintro rfl
      simp at hspace
    refine .lightness hspace (fun hlch => ?_) ?_
    · rw [if_pos (.inr hlch), isInfinite_lerpHue]
    · rwa [if_neg hhsl]

/-- A mixture faults for its lightness alone. -/
theorem mix_eq_error_iff {name : String} {p₁ p₂ : Option Float} {fault : NumericFault} :
    mix name c₁ p₁ c₂ p₂ = .error fault ↔
      (∃ space w₁ w₂, Space.ofName? (Text.lowercase name) = some space ∧
        weights p₁ p₂ = some (w₁, w₂) ∧ BlindsIn space c₁ w₁ c₂ w₂) ∧ fault = .overflow := by
  unfold mix
  split
  · next space w₁ w₂ hspace hweights =>
      have hmap : some <$> mixIn space c₁ w₁ c₂ w₂ = (mixIn space c₁ w₁ c₂ w₂).map some := rfl
      rw [hmap, map_eq_error_iff, mixIn_eq_error_iff h₁ h₂]
      constructor
      · rintro ⟨hblinds, rfl⟩
        exact ⟨⟨space, w₁, w₂, hspace, hweights, hblinds⟩, rfl⟩
      · rintro ⟨⟨space', w₁', w₂', hspace', hweights', hblinds⟩, rfl⟩
        obtain rfl := Option.some.inj (hspace.symm.trans hspace')
        cases hweights.symm.trans hweights'
        exact ⟨hblinds, rfl⟩
  · next hnone =>
      constructor
      · intro h
        cases h
      · rintro ⟨⟨space, w₁, w₂, hspace, hweights, -⟩, -⟩
        exact absurd hweights (hnone space w₁ w₂ hspace)

end Mixing

end ContrastAudit.Color
