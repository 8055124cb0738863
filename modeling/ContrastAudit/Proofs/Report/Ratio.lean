import ContrastAudit.Proofs.Number.Places
import ContrastAudit.Proofs.Report.Rows
import ContrastAudit.Report.Plain

/-!
# Ratios in different reports

A plain report and an annotation round a ratio to one decimal place.  A page shows the ratio that is
kept of the finding, which is rounded to two places first, so its text is rounded twice.

Rounding to two places moves a ratio by half a hundredth at most.  It can take it across the middle
between two tenths only if it is nearer than that to it; then the ratio that is kept is the number
nearest to the middle, on whichever side that is.

**Results.**
* `scaledTo_one_eq_iff_roundsDown`, `scaledTo_one_of_far`: the tenths that a number near to some
  hundredths is rounded to.
* `fixed_roundedRatio_iff`: the two texts of a number are the same unless it is taken across a
  middle.
* `shown_ratios`: the three reports of a finding show the same ratio unless rounding to two places
  takes it across the middle between two tenths.
* `not_forall_shown_ratios`: a pair of dark colors for which that happens.
-/

namespace ContrastAudit.Report

open Number

/-! ## Tenths -/

/-- The middle between `n` and `n + 1` tenths. -/
def betweenTenths (n : ℕ) : ℚ :=
  (2 * n + 1) / 20

/-- Whether a number next to the middle between `n` and `n + 1` tenths is rounded to `n`: the middle
itself is rounded to the even one. -/
def RoundsDown (n : ℕ) (v : ℚ) : Prop :=
  v < betweenTenths n ∨ v = betweenTenths n ∧ Even n

/-- Rounding to two places takes a ratio, from less than half a hundredth away, across the middle
between two tenths. -/
def CrossesMiddle (ratio : Float) : Prop :=
  ∃ q p : ℚ, value? ratio = some q ∧ value? (roundedRatio ratio) = some p ∧
    ∃ n : ℕ, |(|q| - betweenTenths n)| < 1 / 200 ∧ ¬(RoundsDown n |q| ↔ RoundsDown n |p|)

section Tenths

variable {m : ℕ} {e : ℤ}

theorem scaledTo_one_of_roundsDown {n : ℕ} (hnear : |(m : ℚ) * 2 ^ e - betweenTenths n| < 1 / 20)
    (h : RoundsDown n (m * 2 ^ e)) : scaledTo 1 m e = n := by
  obtain ⟨hlow, -⟩ := abs_lt.1 hnear
  rw [betweenTenths] at hlow
  rcases h with hbelow | ⟨hequal, heven⟩
  · rw [betweenTenths] at hbelow
    apply scaledTo_eq_of_abs_lt
    rw [abs_lt]
    constructor <;> linarith
  · rw [betweenTenths] at hequal
    have htie : (m : ℚ) * 2 ^ e * 10 ^ 1 = n + 1 / 2 := by
      rw [hequal]
      ring
    rw [scaledTo_eq_of_tie htie, Nat.even_iff.1 heven, Nat.add_zero]

theorem scaledTo_one_of_not_roundsDown {n : ℕ}
    (hnear : |(m : ℚ) * 2 ^ e - betweenTenths n| < 1 / 20)
    (h : ¬RoundsDown n (m * 2 ^ e)) : scaledTo 1 m e = n + 1 := by
  obtain ⟨-, hhigh⟩ := abs_lt.1 hnear
  rw [RoundsDown, not_or, not_lt, not_and, Nat.not_even_iff_odd] at h
  rw [betweenTenths] at h hhigh
  obtain ⟨habove, hodd⟩ := h
  rcases habove.lt_or_eq with hlt | heq
  · apply scaledTo_eq_of_abs_lt
    rw [abs_lt]
    push_cast
    constructor <;> linarith
  · have htie : (m : ℚ) * 2 ^ e * 10 ^ 1 = n + 1 / 2 := by
      rw [← heq]
      ring
    rw [scaledTo_eq_of_tie htie, Nat.odd_iff.1 (hodd heq.symm)]

/-- A number near to a middle is rounded to one of the two tenths. -/
theorem scaledTo_one_eq_or {n : ℕ} (hnear : |(m : ℚ) * 2 ^ e - betweenTenths n| < 1 / 20) :
    scaledTo 1 m e = n ∨ scaledTo 1 m e = n + 1 := by
  by_cases h : RoundsDown n (m * 2 ^ e)
  · exact .inl (scaledTo_one_of_roundsDown hnear h)
  · exact .inr (scaledTo_one_of_not_roundsDown hnear h)

theorem scaledTo_one_eq_iff_roundsDown {n : ℕ}
    (hnear : |(m : ℚ) * 2 ^ e - betweenTenths n| < 1 / 20) :
    scaledTo 1 m e = n ↔ RoundsDown n (m * 2 ^ e) := by
  refine ⟨fun h => ?_, scaledTo_one_of_roundsDown hnear⟩
  by_contra hup
  rw [scaledTo_one_of_not_roundsDown hnear hup] at h
  omega

/-- A number near to some hundredths is rounded to the nearest tenth of these, unless they are a
middle themselves. -/
theorem scaledTo_one_of_far {h : ℕ} (hnear : |(m : ℚ) * 2 ^ e - h / 100| ≤ 1 / 200)
    (hfar : h % 10 ≠ 5) : scaledTo 1 m e = (h + 5) / 10 := by
  apply scaledTo_eq_of_abs_lt
  obtain ⟨hlow, hhigh⟩ := abs_le.1 hnear
  have hbelow : (h : ℚ) ≤ 10 * ((h + 5) / 10 : ℕ) + 4 := by
    exact_mod_cast (by omega : h ≤ 10 * ((h + 5) / 10) + 4)
  have habove : 10 * (((h + 5) / 10 : ℕ) : ℚ) ≤ h + 4 := by
    exact_mod_cast (by omega : 10 * ((h + 5) / 10) ≤ h + 4)
  rw [abs_lt]
  constructor <;> linarith

theorem abs_sub_hundredths_le (m : ℕ) (e : ℤ) :
    |(m : ℚ) * 2 ^ e - scaledTo 2 m e / 100| ≤ 1 / 200 := by
  obtain ⟨hlow, hhigh⟩ := abs_le.1 (abs_scaledTo_sub_le 2 m e)
  rw [abs_le]
  constructor <;> linarith

/-- The hundredths that a number is rounded to are a middle exactly if that is less than half a
hundredth away. -/
theorem abs_sub_betweenTenths_lt_iff {n : ℕ} :
    |(m : ℚ) * 2 ^ e - betweenTenths n| < 1 / 200 ↔ scaledTo 2 m e = 10 * n + 5 := by
  have hscale : ∀ v : ℚ, |v - betweenTenths n| < 1 / 200 ↔
      |((10 * n + 5 : ℕ) : ℚ) - v * 10 ^ 2| < 1 / 2 := by
    intro v
    rw [betweenTenths, abs_lt, abs_lt]
    push_cast
    constructor <;> rintro ⟨hlow, hhigh⟩ <;> constructor <;> linarith
  rw [hscale]
  refine ⟨scaledTo_eq_of_abs_lt, fun h => ?_⟩
  rw [← h]
  exact abs_scaledTo_sub_lt (by omega)

/-- Two numbers near to the hundredths that one of them is rounded to have the same tenths, unless
they are on different sides of a middle. -/
theorem scaledTo_one_eq_iff {m' : ℕ} {e' : ℤ}
    (hnear : |(m' : ℚ) * 2 ^ e' - scaledTo 2 m e / 100| ≤ 1 / 200) :
    scaledTo 1 m' e' = scaledTo 1 m e ↔
      ¬∃ n : ℕ, |(m : ℚ) * 2 ^ e - betweenTenths n| < 1 / 200 ∧
        ¬(RoundsDown n (m * 2 ^ e) ↔ RoundsDown n (m' * 2 ^ e')) := by
  have hself := abs_sub_hundredths_le m e
  simp only [abs_sub_betweenTenths_lt_iff]
  by_cases hmiddle : scaledTo 2 m e % 10 = 5
  · obtain ⟨n, hn⟩ : ∃ n, scaledTo 2 m e = 10 * n + 5 := ⟨scaledTo 2 m e / 10, by omega⟩
    have honly : ∀ k, scaledTo 2 m e = 10 * k + 5 ↔ k = n := fun k => by omega
    have hat : (scaledTo 2 m e : ℚ) / 100 = betweenTenths n := by
      rw [hn, betweenTenths]
      push_cast
      ring
    rw [hat] at hnear hself
    have hwide : (1 : ℚ) / 200 < 1 / 20 := by norm_num
    have hq := scaledTo_one_eq_or (hself.trans_lt hwide)
    have hp := scaledTo_one_eq_or (hnear.trans_lt hwide)
    simp only [honly, exists_eq_left, not_not]
    rw [← scaledTo_one_eq_iff_roundsDown (hself.trans_lt hwide),
      ← scaledTo_one_eq_iff_roundsDown (hnear.trans_lt hwide)]
    omega
  · rw [scaledTo_one_of_far hnear hmiddle, scaledTo_one_of_far hself hmiddle]
    refine iff_of_true rfl ?_
    rintro ⟨n, hn, -⟩
    omega

end Tenths

/-! ## Texts -/

theorem abs_of_parts {x : Float} {negative : Bool} {m : ℕ} {e : ℤ}
    (h : parts x = .finite negative m e) : ∃ q, value? x = some q ∧ |q| = m * 2 ^ e := by
  refine ⟨_, by rw [value?, h]; rfl, ?_⟩
  cases negative with
  | false => simp [abs_mul]
  | true => simp [abs_mul]

/-- The text of a number with one place is that of the number rounded to two places, unless this
takes it across a middle. -/
theorem fixed_roundedRatio_iff (ratio : Float) :
    fixed 1 (roundedRatio ratio) = fixed 1 ratio ↔ ¬CrossesMiddle ratio := by
  rw [CrossesMiddle]
  cases hratio : parts ratio with
  | infinite negative =>
      simp [roundedRatio, roundTo, value?, hratio, Parts.value?]
  | notANumber =>
      simp [roundedRatio, roundTo, value?, hratio, Parts.value?]
  | finite negative m e =>
      obtain ⟨m', e', hrounded, hnearest⟩ :=
        exists_parts_roundTo hratio (by decide : 0 < 2) (by decide)
      rw [← roundedRatio] at hrounded
      obtain ⟨q, hq, hqabs⟩ := abs_of_parts hratio
      obtain ⟨p, hp, hpabs⟩ := abs_of_parts hrounded
      have hnear : |(m' : ℚ) * 2 ^ e' - scaledTo 2 m e / 100| ≤ 1 / 200 := by
        have hself := hnearest m e (isNormal_of_parts hratio)
        have hhundred : (10 : ℚ) ^ 2 = 100 := by norm_num
        rw [hhundred] at hself
        exact hself.trans (abs_sub_hundredths_le m e)
      rw [fixed_eq_iff hrounded hratio, scaledTo_one_eq_iff hnear, ← hqabs, ← hpabs]
      simp [hq, hp]

/-! ## Reports -/

/-- The line of a finding in a plain report, with a text for its ratio. -/
def lineShowing (styled : Bool) (finding : Finding) (ratio : String) : String :=
  let paint := paint styled
  let faint : Style := { dim := true }
  let pair := finding.pair
  let verdict := finding.verdict
  let (ink, tag, standing) := standingTexts verdict
  let ratioInk : Ink := if verdict.meets .aa then .green else .red
  "  " ++ paint { ink, bold := true } tag ++
    " " ++ paint faint pair.foreground.selector ++
    "  " ++ paint faint ("L" ++ toString pair.element.position.line) ++
    "  " ++ pair.foreground.written ++ " " ++ paint faint "on" ++ " " ++ pair.background.written ++
    "  ->  " ++ paint { ink := ratioInk } ratio ++
    "  (" ++ paint { ink } standing ++ ")" ++
    (if verdict.large then paint faint " [large]" else "")

/-- The annotation of a finding, with a text for its ratio. -/
def annotationShowing (here : List String) (root file : String) (finding : Finding)
    (ratio : String) : String :=
  let pair := finding.pair
  let verdict := finding.verdict
  let (severity, level) :=
    if verdict.meets .aa then ("warning", Conformance.aaa) else ("error", Conformance.aa)
  let position := pair.element.position
  "::" ++ severity ++ " file=" ++ seenFrom here root file ++ ",line=" ++ toString position.line ++
    ",col=" ++ toString position.column ++ "::Contrast " ++ ratio ++ " fails " ++
    levelTitle level ++ " (requires " ++ requirement verdict.large level ++ "): " ++
    pair.foreground.written ++ " on " ++ pair.background.written ++ " (" ++
    pair.foreground.selector ++ ")"

/-- The cell of the ratio in the row of a finding, with a text for it. -/
def cellShowing (finding : Finding) (ratio : String) : Line :=
  [.markup "          <td>", .text ratio] ++
    (if finding.verdict.large then [.markup " <span class=\"muted\">large</span>"] else []) ++
    [.markup "</td>"]

/-- **Ratios in reports.**  The plain report and the annotation of a finding show its ratio with one
decimal place.  A finding has a row on a page if its colors can be written, and the row shows the
ratio that is kept.  The two texts are the same unless rounding to two places takes the ratio across
the middle between two tenths. -/
theorem shown_ratios (styled : Bool) (here : List String) (root file : String)
    (level : Conformance) (finding : Finding) :
    findingLine styled finding = lineShowing styled finding (ratioText finding.verdict.ratio) ∧
    annotationLine here root file finding =
      annotationShowing here root file finding (ratioText finding.verdict.ratio) ∧
    ((∃ lines, rowLines level finding = .ok lines) ↔ IsDrawable finding) ∧
    (∀ lines, rowLines level finding = .ok lines →
      lines[5]? = some (cellShowing finding (ratioText (roundedRatio finding.verdict.ratio)))) ∧
    (ratioText (roundedRatio finding.verdict.ratio) = ratioText finding.verdict.ratio ↔
      ¬CrossesMiddle finding.verdict.ratio) := by
  refine ⟨rfl, rfl, exists_rowLines_iff, fun lines h => ?_, ?_⟩
  · obtain ⟨foreground, -, h⟩ := bind_eq_ok_iff.1 h
    obtain ⟨background, -, h⟩ := bind_eq_ok_iff.1 h
    rw [return_eq_ok_iff] at h
    subst h
    rfl
  · rw [ratioText, ratioText, String.append_left_inj, fixed_roundedRatio_iff]

/-- A black text on a color that is hardly lighter, and the verdict on it. -/
def barelyLit : Finding :=
  let black : ColorInfo := ⟨"#000", some .black, .inline, "inline", none⟩
  let night : ColorInfo := ⟨"#080808", some ⟨8, 8, 8, none⟩, .inline, "inline", none⟩
  let element : Element := { features := { tag := "p" }, index := 0, parent := none }
  { pair := { element, foreground := black, background := night }
    verdict := ⟨1.0485643173678139, false⟩ }

/-- A page can show another ratio than the reports that round once. -/
theorem not_forall_shown_ratios :
    ¬∀ (styled : Bool) (here : List String) (root file : String) (level : Conformance)
      (finding : Finding), finding.pair.evaluate = .ok (some finding.verdict) →
        ∃ ratio, findingLine styled finding = lineShowing styled finding ratio ∧
          annotationLine here root file finding =
            annotationShowing here root file finding ratio ∧
          ∀ lines, rowLines level finding = .ok lines →
            lines[5]? = some (cellShowing finding ratio) := by
  intro h
  obtain ⟨ratio, hline, -, hrow⟩ := h false [] "" "page.html" .aa barelyLit (by decide +kernel)
  have hcell : (rowLines .aa barelyLit).toOption.bind (·[5]?) =
      some (cellShowing barelyLit "1.1:1") := by
    decide +kernel
  cases hlines : rowLines .aa barelyLit with
  | error fault =>
      rw [hlines] at hcell
      cases hcell
  | ok lines =>
      rw [hlines] at hcell
      have hsame : cellShowing barelyLit ratio = cellShowing barelyLit "1.1:1" :=
        Option.some.inj ((hrow lines hlines).symm.trans hcell)
      obtain rfl : ratio = "1.1:1" := Html.text.inj (List.cons.inj (List.cons.inj hsame).2).1
      exact absurd hline (by decide +kernel)

end ContrastAudit.Report
