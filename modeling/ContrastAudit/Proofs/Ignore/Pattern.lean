import ContrastAudit.Ignore.Filter
import ContrastAudit.Proofs.Text.Case
import ContrastAudit.Proofs.Text.Wildcard

/-!
# What patterns for elements ignore

A pattern names a class behind a dot, an id behind a hash, and a tag otherwise; a star in the name
stands for any run of characters.  Ids and classes are matched by a richer kind of wildcards, so
that this reading holds for the patterns of ids and classes that have neither a question mark nor a
closed bracket, and for no others.  A text that may be a pattern for tags cannot contain any of
them.

**Results.**
* `ignores_iff_means_iff`: a pattern ignores what its stars and its other characters stand for
  exactly if stars are its only wildcards.
-/

namespace ContrastAudit.ElementPattern

open Text Text.Glob

/-- Letters and stars may start a pattern for tags. -/
def StartsTag (c : Char) : Prop :=
  isAsciiLetter c = true ∨ c = '*'

/-- A text that may be a pattern for tags. -/
structure IsTagText (cs : List Char) : Prop where
  starts : ∃ c ∈ cs.head?, StartsTag c
  continues : ∀ c ∈ cs.tail, StartsTag c ∨ isAsciiDigit c = true ∨ c = '-'

/-- What a trimmed text says about an element if a star is any run of characters and every other
character is itself. -/
inductive Means (f : Features) : List Char → Prop
  | id {pattern : List Char} {name : String} :
      f.id = some name → StandsFor pattern name.toList → Means f ('#' :: pattern)
  | class {pattern : List Char} {name : String} :
      name ∈ f.classes → StandsFor pattern name.toList → Means f ('.' :: pattern)
  | tag {pattern : List Char} :
      IsTagText pattern → StandsFor (lower pattern) f.tag.toList → Means f pattern

/-- An element has the id, the class or the tag that a trimmed text names. -/
inductive Carries (f : Features) : List Char → Prop
  | id {name : String} : f.id = some name → Carries f ('#' :: name.toList)
  | class {name : String} : name ∈ f.classes → Carries f ('.' :: name.toList)
  | tag {text : List Char} : IsTagText text → f.tag.toList = lower text → Carries f text

/-- The stars are the only wildcards of a trimmed text. -/
def OnlyStars (cs : List Char) : Prop :=
  ∀ pattern, cs = '#' :: pattern ∨ cs = '.' :: pattern → IsPlain pattern

section Patterns

variable {f : Features} {cs pattern : List Char} {c : Char}

theorem isTagPattern_iff : isTagPattern cs = true ↔ IsTagText cs := by
  cases cs with
  | nil =>
      constructor
      · rintro ⟨⟩
      · rintro ⟨⟨c, hc, -⟩, -⟩
        exact absurd hc (by simp)
  | cons c cs =>
      have hiff : isTagPattern (c :: cs) = true ↔
          StartsTag c ∧ ∀ d ∈ cs, StartsTag d ∨ isAsciiDigit d = true ∨ d = '-' := by
        simp [isTagPattern, StartsTag, or_assoc]
      rw [hiff]
      constructor
      · rintro ⟨hstarts, hcontinues⟩
        exact ⟨⟨c, rfl, hstarts⟩, hcontinues⟩
      · rintro ⟨⟨d, hd, hstarts⟩, hcontinues⟩
        cases Option.some.inj hd
        exact ⟨hstarts, hcontinues⟩

/-! ## Patterns for tags -/

theorem IsTagText.mem (h : IsTagText cs) (hc : c ∈ cs) : isNameChar c = true ∨ c = '*' := by
  have hclass : StartsTag c ∨ isAsciiDigit c = true ∨ c = '-' := by
    cases cs with
    | nil => exact absurd hc List.not_mem_nil
    | cons d cs =>
        rcases List.mem_cons.1 hc with rfl | hc
        · obtain ⟨e, he, hstarts⟩ := h.starts
          cases Option.some.inj he
          exact .inl hstarts
        · exact h.continues c hc
  rcases hclass with (hletter | hstar) | hdigit | hhyphen
  · simp [isNameChar, hletter]
  · exact .inr hstar
  · simp [isNameChar, hdigit]
  · simp [isNameChar, hhyphen]

theorem IsTagText.mem_lower (h : IsTagText cs) (hc : c ∈ lower cs) :
    isNameChar c = true ∨ c = '*' ∧ '*' ∈ cs := by
  have hascii : ∀ d ∈ cs, d.toNat < 0x80 := by
    intro d hd
    rcases h.mem hd with hname | rfl
    · exact Nat.lt_of_le_of_lt (toNat_of_isNameChar hname).2 (by decide)
    · decide
  rw [lower_of_ascii hascii] at hc
  obtain ⟨d, hd, rfl⟩ := List.mem_map.1 hc
  rcases h.mem hd with hname | rfl
  · have hlower := isNameChar_lowerChar hname
    rw [lowerChar, if_pos (hascii d hd)] at hlower
    exact .inl hlower
  · exact .inr ⟨rfl, hd⟩

/-- In lower case a text for tags still has no other wildcard than the star. -/
theorem IsTagText.isPlain_lower (h : IsTagText cs) : IsPlain (lower cs) := by
  constructor
  · intro hquestion
    rcases h.mem_lower hquestion with hname | ⟨heq, -⟩ <;> contradiction
  · rintro before rest heq -
    have hbracket : '[' ∈ lower cs := by
      rw [heq]
      simp
    rcases h.mem_lower hbracket with hname | ⟨heq, -⟩ <;> contradiction

theorem not_isTagText_cons (hc : isNameChar c = false) (hstar : c ≠ '*') :
    ¬ IsTagText (c :: cs) := by
  intro h
  rcases h.mem List.mem_cons_self with hname | heq
  · exact absurd hname (by simp [hc])
  · exact hstar heq

/-! ## What a text says -/

theorem means_id_iff :
    Means f ('#' :: pattern) ↔ ∃ name, f.id = some name ∧ StandsFor pattern name.toList := by
  constructor
  · intro h
    cases h with
    | id hid hstands => exact ⟨_, hid, hstands⟩
    | tag htag => exact absurd htag (not_isTagText_cons rfl (by simp))
  · rintro ⟨name, hid, hstands⟩
    exact .id hid hstands

theorem means_class_iff :
    Means f ('.' :: pattern) ↔ ∃ name ∈ f.classes, StandsFor pattern name.toList := by
  constructor
  · intro h
    cases h with
    | «class» hclass hstands => exact ⟨_, hclass, hstands⟩
    | tag htag => exact absurd htag (not_isTagText_cons rfl (by simp))
  · rintro ⟨name, hclass, hstands⟩
    exact .class hclass hstands

/-- Without a star a text says which id, class or tag an element has. -/
theorem means_iff_carries (h : '*' ∉ cs) : Means f cs ↔ Carries f cs := by
  constructor
  · intro hmeans
    cases hmeans with
    | @id pattern name hid hstands =>
        rw [standsFor_iff_eq fun hmem => h (List.mem_cons_of_mem _ hmem)] at hstands
        rw [← hstands]
        exact .id hid
    | @«class» pattern name hclass hstands =>
        rw [standsFor_iff_eq fun hmem => h (List.mem_cons_of_mem _ hmem)] at hstands
        rw [← hstands]
        exact .class hclass
    | tag htag hstands =>
        refine .tag htag ((standsFor_iff_eq fun hstar => ?_).1 hstands)
        rcases htag.mem_lower hstar with hname | ⟨-, hmem⟩
        · contradiction
        · exact h hmem
  · intro hcarries
    cases hcarries with
    | id hid => exact .id hid (standsFor_self _)
    | «class» hclass => exact .class hclass (standsFor_self _)
    | tag htag heq =>
        refine .tag htag ?_
        rw [heq]
        exact standsFor_self _

/-! ## What a pattern fits -/

theorem describes_iff {pattern text : String} :
    describes pattern text = true ↔ Describes (compile pattern.toList) text.toList :=
  fits_iff_describes

/-- Names that may be any text are matched as a pattern says exactly if stars are its only
wildcards. -/
theorem forall_describes_iff {names : Features → List String}
    (hnames : ∀ text, ∃ f, names f = [String.ofList text]) :
    (∀ f, (∃ name ∈ names f, Describes (compile pattern) name.toList) ↔
      ∃ name ∈ names f, StandsFor pattern name.toList) ↔ IsPlain pattern := by
  rw [isPlain_iff]
  constructor
  · intro h text
    obtain ⟨f, hf⟩ := hnames text
    simpa [hf] using h f
  · intro h f
    simp only [h]

theorem forall_fits_id_iff :
    (∀ f, (ElementPattern.id (String.ofList pattern)).fits f = true ↔ Means f ('#' :: pattern)) ↔
      IsPlain pattern := by
  rw [← @forall_describes_iff pattern (fun f => f.id.toList)
    fun text => ⟨{ tag := "", id := some (String.ofList text) }, rfl⟩]
  simp only [fits, means_id_iff, Option.any_eq_true, describes_iff, String.toList_ofList,
    Option.mem_toList]

theorem forall_fits_class_iff :
    (∀ f, (ElementPattern.class (String.ofList pattern)).fits f = true ↔
      Means f ('.' :: pattern)) ↔ IsPlain pattern := by
  rw [← @forall_describes_iff pattern Features.classes
    fun text => ⟨{ tag := "", classes := [String.ofList text] }, rfl⟩]
  simp only [fits, means_class_iff, List.any_eq_true, describes_iff, String.toList_ofList]

theorem onlyStars_cons_iff (hc : c = '#' ∨ c = '.') :
    OnlyStars (c :: pattern) ↔ IsPlain pattern := by
  constructor
  · intro h
    rcases hc with rfl | rfl
    · exact h pattern (.inl rfl)
    · exact h pattern (.inr rfl)
  · rintro h pattern' (heq | heq) <;> cases heq <;> exact h

/-- A text is a pattern of what it says if stars are its only wildcards. -/
theorem forall_fits_ofText_iff (text : String) :
    (∀ f, (ofText text).fits f = true ↔ Means f (trim text.toList)) ↔
      OnlyStars (trim text.toList) := by
  unfold ofText
  split
  · next pattern heq => rw [heq, forall_fits_id_iff, onlyStars_cons_iff (.inl rfl)]
  · next pattern heq => rw [heq, forall_fits_class_iff, onlyStars_cons_iff (.inr rfl)]
  · next hhash hdot =>
      have honly : OnlyStars (trim text.toList) := by
        rintro pattern (heq | heq)
        · exact absurd heq (hhash pattern)
        · exact absurd heq (hdot pattern)
      refine iff_of_true (fun f => ?_) honly
      have hmeans : Means f (trim text.toList) ↔
          IsTagText (trim text.toList) ∧ StandsFor (lower (trim text.toList)) f.tag.toList := by
        constructor
        · intro h
          generalize trim text.toList = cs at *
          cases h with
          | @id pattern => exact absurd rfl (hhash pattern)
          | @«class» pattern => exact absurd rfl (hdot pattern)
          | tag htag hstands => exact ⟨htag, hstands⟩
        · rintro ⟨htag, hstands⟩
          exact .tag htag hstands
      rw [hmeans, ← isTagPattern_iff]
      split
      · next htag =>
          have hplain := (isTagPattern_iff.1 htag).isPlain_lower
          simp only [fits, describes_iff, lowercase, String.toList_ofList,
            isPlain_iff.1 hplain, htag, true_and]
      · next htag => simp [fits, htag]

end Patterns

end ContrastAudit.ElementPattern

namespace ContrastAudit.IgnoreFilter

open Text Text.Glob ElementPattern

/-- One pattern ignores the pairs of the elements that its stars and its other characters stand for
exactly if stars are its only wildcards.  Without a star these are the elements with the id, the
class or the tag that it names. -/
theorem ignores_iff_means_iff (text : String) :
    ∃ filter, ofConfig { selectors := [text] } = .ok filter ∧
      ((∀ pair, filter.ignores pair = true ↔ Means pair.element.features (trim text.toList)) ↔
        OnlyStars (trim text.toList)) ∧
      ('*' ∉ trim text.toList →
        ∀ f, Means f (trim text.toList) ↔ Carries f (trim text.toList)) := by
  refine ⟨⟨[], [], [ofText text]⟩, rfl, ?_, fun h f => means_iff_carries h⟩
  have hignores : ∀ pair, (IgnoreFilter.mk [] [] [ofText text]).ignores pair =
      (ofText text).fits pair.element.features := by
    intro pair
    simp [ignores, ignoresColor, ignoresTogether]
  simp only [hignores, ← forall_fits_ofText_iff]
  constructor
  · intro h f
    exact h ⟨⟨{ features := f }, 0, none⟩, ColorInfo.defaultForeground,
      ColorInfo.defaultBackground, none, none⟩
  · intro h pair
    exact h pair.element.features

/-- Brackets in a pattern do not stand for themselves: a class with brackets is not ignored by its
own name. -/
theorem not_forall_ignores_iff_means :
    ¬ ∀ text filter pair, ofConfig { selectors := [text] } = .ok filter →
      (filter.ignores pair = true ↔ Means pair.element.features (trim text.toList)) := by
  intro h
  have hiff := h ".text-[#777]" ⟨[], [], [ofText ".text-[#777]"]⟩
    ⟨⟨{ features := { tag := "p", classes := ["text-[#777]"] } }, 0, none⟩,
      ColorInfo.defaultForeground, ColorInfo.defaultBackground, none, none⟩ rfl
  have hmeans : Means { tag := "p", classes := ["text-[#777]"] } (trim ".text-[#777]".toList) :=
    .class List.mem_cons_self (standsFor_self _)
  exact absurd (hiff.2 hmeans) (by decide +kernel)

end ContrastAudit.IgnoreFilter
