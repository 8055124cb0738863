import ContrastAudit.Proofs.Color.Byte
import ContrastAudit.Proofs.Number.Dyadic
import ContrastAudit.Token.Color

/-!
# Colors of tidy documents

The value of a token is read without a fault if its whole numbers are in the range of numbers.  An
alpha is at most one where it counts, and a negative one counts as zero.

**Results.**
* `exists_colorText?`: the value of a token in a tidy document is read without a fault.
-/

namespace ContrastAudit

open Number

/-- A type that is there is a word. -/
def Json.IsTypeName (type : Option Json) : Prop :=
  ∀ value ∈ type, ∃ s, value = .string s ∧ s ≠ ""

/-- A document as it is meant to be: types are words, the older names of fields are not used, and
whole numbers are in the range of numbers. -/
inductive Json.IsTidy : Json → Prop
  | null : IsTidy .null
  | bool (b : Bool) : IsTidy (.bool b)
  | int {n : ℤ} (h : ∃ x, Number.ofInt n = .ok x) : IsTidy (.int n)
  | float (x : Float) : IsTidy (.float x)
  | string (s : String) : IsTidy (.string s)
  | array {items : List Json} (h : ∀ item ∈ items, IsTidy item) : IsTidy (.array items)
  | object {fields : List (String × Json)}
      (htype : IsTypeName (lookup "$type" fields))
      (hnames : ∀ field ∈ fields, field.1 ≠ "value" ∧ field.1 ≠ "type")
      (h : ∀ field ∈ fields, IsTidy field.2) : IsTidy (.object fields)

namespace Json

variable {name : String} {value : Json} {fields : List (String × Json)}

theorem mem_of_lookup (h : lookup name fields = some value) : (name, value) ∈ fields := by
  induction fields with
  | nil => cases h
  | cons field fields ih =>
      obtain ⟨key, old⟩ := field
      rw [lookup] at h
      split at h
      · next heq =>
          cases h
          rw [heq]
          exact List.mem_cons_self
      · exact List.mem_cons_of_mem _ (ih h)

theorem lookup_eq_none (h : ∀ field ∈ fields, field.1 ≠ name) : lookup name fields = none := by
  cases hvalue : lookup name fields with
  | none => rfl
  | some value => exact absurd rfl (h _ (mem_of_lookup hvalue))

theorem IsTidy.mem {items : List Json} (h : (Json.array items).IsTidy) :
    ∀ item ∈ items, item.IsTidy := by
  cases h with
  | array h => exact h

theorem isTidy_object_iff :
    (Json.object fields).IsTidy ↔ IsTypeName (lookup "$type" fields) ∧
      (∀ field ∈ fields, field.1 ≠ "value" ∧ field.1 ≠ "type") ∧
      ∀ field ∈ fields, field.2.IsTidy := by
  constructor
  · intro h
    cases h with
    | object htype hnames hfields => exact ⟨htype, hnames, hfields⟩
  · rintro ⟨htype, hnames, hfields⟩
    exact .object htype hnames hfields

theorem IsTidy.isTypeName (h : (Json.object fields).IsTidy) : IsTypeName (lookup "$type" fields) :=
  (isTidy_object_iff.1 h).1

theorem IsTidy.lookup_value (h : (Json.object fields).IsTidy) : lookup "value" fields = none :=
  lookup_eq_none fun field hfield => ((isTidy_object_iff.1 h).2.1 field hfield).1

theorem IsTidy.field (h : (Json.object fields).IsTidy) : ∀ field ∈ fields, field.2.IsTidy :=
  (isTidy_object_iff.1 h).2.2

theorem IsTidy.get? {json : Json} (h : json.IsTidy) (hvalue : json.get? name = some value) :
    value.IsTidy := by
  cases json with
  | object fields => exact h.field _ (mem_of_lookup hvalue)
  | null | bool _ | int _ | float _ | string _ | array _ => cases hvalue

theorem IsTidy.ofInt {n : ℤ} (h : (Json.int n).IsTidy) : ∃ x, Number.ofInt n = .ok x := by
  cases h with
  | int h => exact h

end Json

namespace Token

/-! ## Components -/

theorem exists_component? {c : Json} (h : c.IsTidy) : ∃ x, component? c = .ok x := by
  cases h with
  | int h => exact exists_map_iff.2 h
  | null | bool _ | float _ | string _ | array _ | object _ _ _ => exact ⟨_, rfl⟩

theorem exists_channelDigits? {cs : List Json} (h : ∀ c ∈ cs, c.IsTidy) :
    ∃ digits, channelDigits? cs = .ok digits := by
  induction cs with
  | nil => exact ⟨_, rfl⟩
  | cons c cs ih =>
      obtain ⟨hc, hcs⟩ := List.forall_mem_cons.1 h
      obtain ⟨x, hx⟩ := exists_component? hc
      obtain ⟨digits, hdigits⟩ := ih hcs
      rw [channelDigits?, hx, ok_bind]
      cases x with
      | none => exact ⟨_, rfl⟩
      | some x =>
          dsimp only
          rw [hdigits]
          exact ⟨_, rfl⟩

/-! ## Alpha -/

/-- What is below one is, without what is below zero, rounded to a byte. -/
theorem exists_roundHalfUp_alpha {x : Float} (h : x < 1.0) :
    ∃ n, roundHalfUp (pickMax 0.0 x * 255.0) = .ok n := by
  have hbelow : pickMax 0.0 x < 1.0 := by
    unfold pickMax
    split
    · exact h
    · exact (lt_iff_of_value? value?_zero value?_one).2 (by norm_num)
  obtain ⟨q, hq, hlow, hhigh⟩ := value?_pickMax_zero value?_one hbelow
  have hlimit : (2 : ℚ) ^ (8 : ℤ) = 256 := by norm_num
  have hunit : (2 : ℚ) ^ ((8 : ℤ) - 52) ≤ 1 / 4 := by norm_num
  obtain ⟨r, hr, herror⟩ := value?_mul (N := 8) (by decide) (by decide) hq value?_255
    (by rw [hlimit, abs_le]; constructor <;> linarith)
  have hclose := abs_le.1 (herror.trans hunit)
  obtain ⟨n, hn, -⟩ := roundHalfUp_of_value? hr (by linarith) (by linarith)
  exact ⟨n, hn⟩

theorem exists_value?_of_isFinite {x : Float} (h : isFinite x = true) : ∃ q, value? x = some q := by
  unfold isFinite at h
  split at h
  · next negative m e hparts =>
      rw [value?, hparts]
      exact ⟨_, rfl⟩
  · cases h

/-- A whole number below one is not rounded to a greater one. -/
theorem lt_one_of_ofInt {n : ℤ} {x : Float} (h : Number.ofInt n = .ok x) (hn : n < 1) :
    x < 1.0 := by
  rw [Number.ofInt] at h
  split at h
  · next hfinite =>
      cases h
      obtain ⟨q, hq⟩ := exists_value?_of_isFinite hfinite
      rw [lt_iff_of_value? hq value?_one]
      rcases (show n < 0 ∨ n = 0 by omega) with hneg | rfl
      · rw [decide_eq_true hneg] at hq
        exact (value?_ofDyadic_nonpos hq).trans_lt (by norm_num)
      · have hzero : value? (ofDyadic (decide ((0 : ℤ) < 0)) (0 : ℤ).natAbs 0) = some 0 := by
          decide +kernel
        rw [hzero] at hq
        cases hq
        norm_num
  · cases h

theorem exists_alphaDigits {alpha : Option Json} (h : ∀ value ∈ alpha, value.IsTidy) :
    ∃ digits, alphaDigits alpha = .ok digits := by
  have hdigits : ∀ {x : Float}, x < 1.0 → ∃ digits,
      (do return Color.hexByte (← roundHalfUp (pickMax 0.0 x * 255.0)) :
        Except NumericFault (List Char)) = .ok digits := by
    intro x hx
    obtain ⟨n, hn⟩ := exists_roundHalfUp_alpha hx
    rw [hn]
    exact ⟨_, rfl⟩
  unfold alphaDigits
  dsimp only
  split
  · next n =>
      split
      · next hn =>
          obtain ⟨x, hx⟩ := (h _ rfl).ofInt
          rw [hx, ok_bind]
          exact hdigits (lt_one_of_ofInt hx hn)
      · exact ⟨_, rfl⟩
  · exact hdigits ((lt_iff_of_value? value?_zero value?_one).2 (by norm_num))
  · split
    · next hx => exact hdigits hx
    · exact ⟨_, rfl⟩
  · exact ⟨_, rfl⟩

/-! ## Objects -/

theorem exists_objectText? {value : Json} (h : value.IsTidy) :
    ∃ text, objectText? value = .ok text := by
  unfold objectText?
  split
  · exact ⟨_, rfl⟩
  · next r g b rest _ hcomponents _ =>
      have hmem := (h.get? hcomponents).mem
      obtain ⟨digits, hdigits⟩ := @exists_channelDigits? [r, g, b] (by
        intro c hc
        apply hmem
        simp only [List.mem_cons, List.not_mem_nil, or_false] at hc ⊢
        tauto)
      obtain ⟨alpha, halpha⟩ := @exists_alphaDigits (value.get? "alpha") fun _ halpha =>
        h.get? halpha
      rw [hdigits, ok_bind]
      cases digits with
      | none => exact ⟨_, rfl⟩
      | some digits =>
          dsimp only
          rw [halpha]
          exact ⟨_, rfl⟩
  · exact ⟨_, rfl⟩

/-- The color of a token in a tidy document is read without a fault. -/
theorem exists_colorText? {value : Json} (h : value.IsTidy) :
    ∃ text, colorText? value = .ok text := by
  unfold colorText?
  split
  · exact ⟨_, rfl⟩
  · exact exists_objectText? h
  · exact ⟨_, rfl⟩

end Token

end ContrastAudit
