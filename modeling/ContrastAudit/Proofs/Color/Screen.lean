import ContrastAudit.Color.Notation
import ContrastAudit.Proofs.Color.Byte

/-!
# Colors that are read

Whatever notation a color is written in, it has bytes for channels.  Conversions back to the screen
clamp every channel, and keywords and hexadecimal digits name bytes to begin with.

**Results.**
* `onScreen_of_parse`: a color that is read has bytes for channels.
-/

namespace ContrastAudit.Color

/-! ## Conversions -/

theorem onScreen_ofLinear (r g b : Float) : (ofLinear r g b).OnScreen :=
  ⟨isByte_clampByte _, isByte_clampByte _, isByte_clampByte _⟩

theorem onScreen_ofHsl (hue saturation lightness : Float) :
    (ofHsl hue saturation lightness).OnScreen := by
  unfold ofHsl
  dsimp only
  split
  · exact ⟨isByte_clampByte _, isByte_clampByte _, isByte_clampByte _⟩
  · exact ⟨isByte_clampByte _, isByte_clampByte _, isByte_clampByte _⟩

theorem onScreen_ofLab {lightness a b : Float} {color : Color}
    (h : ofLab lightness a b = .ok color) : color.OnScreen := by
  unfold ofLab at h
  dsimp only at h
  split at h
  · obtain ⟨y, -, h⟩ := bind_eq_ok_iff.1 h
    rw [return_eq_ok_iff] at h
    exact h ▸ onScreen_ofLinear _ _ _
  · rw [pure_bind, return_eq_ok_iff] at h
    exact h ▸ onScreen_ofLinear _ _ _

theorem onScreen_ofCoordinates {x y z : Float} {space : Space} {color : Color}
    (h : ofCoordinates x y z space = .ok color) : color.OnScreen := by
  cases space with
  | srgb =>
      cases h
      exact ⟨isByte_clampByte x, isByte_clampByte y, isByte_clampByte z⟩
  | linear =>
      cases h
      exact onScreen_ofLinear x y z
  | oklab =>
      cases h
      exact onScreen_ofLinear _ _ _
  | oklch =>
      obtain ⟨polar, -, h⟩ := bind_eq_ok_iff.1 h
      rw [return_eq_ok_iff] at h
      exact h ▸ onScreen_ofLinear _ _ _
  | lab => exact onScreen_ofLab h
  | lch =>
      obtain ⟨polar, -, h⟩ := bind_eq_ok_iff.1 h
      exact onScreen_ofLab h
  | hsl =>
      cases h
      exact onScreen_ofHsl x y z

/-- The alpha does not matter. -/
theorem OnScreen.withAlpha {color : Color} (h : color.OnScreen) (alpha : Option Float) :
    ({ color with alpha := alpha } : Color).OnScreen :=
  ⟨h.red, h.green, h.blue⟩

theorem onScreen_mixIn {space : Space} {c₁ c₂ mixed : Color} {w₁ w₂ : Float}
    (h : mixIn space c₁ w₁ c₂ w₂ = .ok mixed) : mixed.OnScreen := by
  obtain ⟨⟨x₁, y₁, z₁⟩, -, h⟩ := bind_eq_ok_iff.1 h
  obtain ⟨⟨x₂, y₂, z₂⟩, -, h⟩ := bind_eq_ok_iff.1 h
  obtain ⟨color, hcolor, h⟩ := bind_eq_ok_iff.1 h
  have hscreen := onScreen_ofCoordinates hcolor
  split at h
  · rw [return_eq_ok_iff] at h
    exact h ▸ hscreen
  · rw [return_eq_ok_iff] at h
    exact h ▸ hscreen.withAlpha _

theorem onScreen_mix {space : String} {c₁ c₂ mixed : Color} {p₁ p₂ : Option Float}
    (h : mix space c₁ p₁ c₂ p₂ = .ok (some mixed)) : mixed.OnScreen := by
  unfold mix at h
  split at h
  · obtain ⟨color, hcolor, h⟩ := map_eq_ok_iff.1 h
    cases h
    exact onScreen_mixIn hcolor
  · cases h

/-! ## Notations -/

theorem onScreen_named {name : String} {color : Color} (h : named? name = some color) :
    color.OnScreen := by
  obtain ⟨n, -, rfl⟩ := Option.map_eq_some_iff.1 h
  unfold ofBytes
  constructor <;> constructor <;> dsimp only <;> omega

theorem onScreen_withAlpha? {color result : Color} {alpha : Option String} (h : color.OnScreen)
    (hr : color.withAlpha? alpha = some result) : result.OnScreen := by
  cases alpha with
  | none =>
      cases hr
      exact h
  | some text =>
      obtain ⟨a, -, rfl⟩ := Option.map_eq_some_iff.1 hr
      exact h.withAlpha _

theorem onScreen_ofRgbFunction {children : List Component} {color : Color}
    (h : ofRgbFunction children = some color) : color.OnScreen := by
  simp only [ofRgbFunction, Option.bind_eq_bind, Option.bind_eq_some_iff] at h
  obtain ⟨cs, -, r, -, g, -, b, -, h⟩ := h
  exact onScreen_withAlpha?
    ⟨isByte_clampByte r, isByte_clampByte g, isByte_clampByte b⟩ h

theorem onScreen_ofHslFunction {children : List Component} {color : Color}
    (h : ofHslFunction children = some color) : color.OnScreen := by
  simp only [ofHslFunction, Option.bind_eq_bind, Option.bind_eq_some_iff] at h
  obtain ⟨cs, -, hue, -, saturation, -, lightness, -, h⟩ := h
  exact onScreen_withAlpha? (onScreen_ofHsl hue saturation lightness) h

theorem onScreen_ofPerceptual {p : Perceptual} {children : List Component} {color : Color}
    (h : ofPerceptual p children = .ok (some color)) : color.OnScreen := by
  unfold ofPerceptual at h
  split at h
  · split at h
    · cases h
    · dsimp only at h
      split at h
      · obtain ⟨result, hresult, h⟩ := bind_eq_ok_iff.1 h
        rw [return_eq_ok_iff] at h
        exact onScreen_withAlpha? (onScreen_ofCoordinates hresult) h
      · cases h
  · cases h

theorem getD_hexValue_lt (c : Char) : (Text.hexValue? c).getD 0 < 16 := by
  have bounds : ∀ {a b : Char}, a ≤ c ∧ c ≤ b → c.toNat - a.toNat ≤ b.toNat - a.toNat := by
    intro a b h
    have hle : c.toNat ≤ b.toNat := h.2
    omega
  unfold Text.hexValue?
  split_ifs with hdigit hlower hupper
  · exact Nat.lt_of_le_of_lt (bounds hdigit) (by decide)
  · exact Nat.add_lt_add_right (Nat.lt_of_le_of_lt (bounds hlower) (by decide : _ < 6)) 10
  · exact Nat.add_lt_add_right (Nat.lt_of_le_of_lt (bounds hupper) (by decide : _ < 6)) 10
  · decide

theorem isByte_natOfHex (a b : Char) : IsByte (Text.natOfHex [a, b]) := by
  have hlow := getD_hexValue_lt b
  have hhigh := getD_hexValue_lt a
  have hvalue : Text.natOfHex [a, b] =
      16 * (16 * 0 + (Text.hexValue? a).getD 0) + (Text.hexValue? b).getD 0 := rfl
  constructor <;> omega

theorem onScreen_ofHexDigits {cs : List Char} {color : Color}
    (h : ofHexDigits? cs = some color) : color.OnScreen := by
  unfold ofHexDigits? at h
  split at h
  · dsimp only at h
    split at h
    · cases h
      exact ⟨isByte_natOfHex _ _, isByte_natOfHex _ _, isByte_natOfHex _ _⟩
    · cases h
      exact ⟨isByte_natOfHex _ _, isByte_natOfHex _ _, isByte_natOfHex _ _⟩
    · cases h
      exact ⟨isByte_natOfHex _ _, isByte_natOfHex _ _, isByte_natOfHex _ _⟩
    · cases h
      exact ⟨isByte_natOfHex _ _, isByte_natOfHex _ _, isByte_natOfHex _ _⟩
    · cases h
  · cases h

theorem onScreen_of_parseWithin {fuel : ℕ} {source : String} {color : Color}
    (h : parseWithin fuel source = .ok (some color)) : color.OnScreen := by
  cases fuel with
  | zero => cases h
  | succ fuel =>
      rw [parseWithin] at h
      dsimp only at h
      split at h
      · cases h
      split at h
      · next hnamed =>
          cases h
          exact onScreen_named hnamed
      split at h
      · exact onScreen_ofHexDigits (Except.ok.inj h)
      split at h
      · split at h
        · exact onScreen_ofRgbFunction (Except.ok.inj h)
        · exact onScreen_ofRgbFunction (Except.ok.inj h)
        · exact onScreen_ofHslFunction (Except.ok.inj h)
        · exact onScreen_ofHslFunction (Except.ok.inj h)
        · split at h
          · split at h
            · cases h
            · obtain ⟨first, -, h⟩ := bind_eq_ok_iff.1 h
              obtain ⟨second, -, h⟩ := bind_eq_ok_iff.1 h
              split at h
              · exact onScreen_mix h
              · cases h
          · cases h
        · split at h
          · exact onScreen_ofPerceptual h
          · cases h
      · cases h

/-- A color that is read has bytes for channels. -/
theorem onScreen_of_parse {source : String} {color : Color}
    (h : Color.parse source = .ok (some color)) : color.OnScreen :=
  onScreen_of_parseWithin h

end ContrastAudit.Color
