import ContrastAudit.CommandLine.Value
import ContrastAudit.Proofs.Color.Written

/-!
# Pairs of colors on the command line

Two colors are written with a comma between them.  A value is such a pair exactly if it has one
comma outside of strings and parentheses and neither side of it is blank, whatever the sides are;
they are handed on as they are written, without the blanks around them.

A text that writes a color is one side of a pair unless it is only balanced in lower case.  The
value is read as it is written, whereas colors are lowered first.

**Results.**
* `colorPair_eq_ok_iff_isPair`: which values are pairs, and of what.
* `colorPair_of_colors`: which two colors make a pair.
* `not_forall_colorPair_of_colors`: two colors that make none.
-/

namespace ContrastAudit.CommandLine

open Component

/-- Two texts with a comma between them, which is the only one outside of strings and parentheses,
neither of them blank. -/
structure IsPair (cs front back : List Char) : Prop where
  eq : cs = front ++ ',' :: back
  front_one : IsOneArgument front
  back_one : IsOneArgument back
  front_written : Text.trim front ≠ []
  back_written : Text.trim back ≠ []

section Pairs

variable {cs front back : List Char} {components foreground background : List Component}

/-- A pair is cut between its texts and nowhere else. -/
theorem IsPair.isCutAt_iff (h : IsPair cs front back) {front' : List Char} :
    IsCutAt front' cs ↔ front' = front := by
  constructor
  · rintro ⟨hfront', back', heq⟩
    rw [h.eq] at heq
    rcases List.append_eq_append_iff.1 heq with ⟨more, rfl, hmore⟩ | ⟨more, rfl, hmore⟩
    · cases more with
      | nil => rw [List.append_nil]
      | cons d more =>
          obtain ⟨rfl, hback⟩ := List.cons.inj hmore
          refine absurd ⟨?_, back', hback⟩ (h.back_one.uncut more)
          rw [IsBalancedValue, Balance.run_append, h.front_one.balanced] at hfront'
          exact hfront'
    · cases more with
      | nil => rw [List.append_nil]
      | cons d more =>
          obtain ⟨rfl, -⟩ := List.cons.inj hmore
          exact absurd ⟨hfront', more, rfl⟩ (h.front_one.uncut front')
  · rintro rfl
    exact ⟨h.front_one.balanced, back, h.eq⟩

theorem IsPair.balanced (h : IsPair cs front back) : IsBalancedValue cs := by
  rw [h.eq, IsBalancedValue, Balance.run_append, h.front_one.balanced]
  exact h.back_one.balanced

/-- The components of a pair are those of its texts, with a comma between them. -/
theorem isPair_iff (h : parseChars cs = .ok components) :
    IsPair cs front back ↔
      ∃ f comma b, components = f ++ comma :: b ∧ comma.isComma = true ∧ NoComma f ∧ NoComma b ∧
        stripSpace f ≠ [] ∧ stripSpace b ≠ [] ∧ front = charsOfAll f ∧ back = charsOfAll b := by
  have hread := readBefore_of_parseChars h
  have hcs := charsOfAll_of_parseChars h
  constructor
  · intro hpair
    have hcut : IsCutAt front (charsOfAll components) := by
      rw [hcs]
      exact hpair.isCutAt_iff.2 rfl
    obtain ⟨f, comma, b, rfl, hcomma, rfl⟩ := exists_comma_of_isCutAt hread hcut
    have hback : back = charsOfAll b := by
      have heq := hcs.trans hpair.eq
      rw [charsOfAll_append, charsOfAll_cons, chars_of_isComma hread.append.2 hcomma] at heq
      simpa using heq.symm
    subst hback
    have hf := hread.append.1
    have hb := hread.append.2.cons.2
    exact ⟨f, comma, b, rfl, hcomma, (isOneArgument_charsOfAll_iff hf).1 hpair.front_one,
      (isOneArgument_charsOfAll_iff hb).1 hpair.back_one,
      fun hnil => hpair.front_written ((stripSpace_eq_nil_iff hf).1 hnil),
      fun hnil => hpair.back_written ((stripSpace_eq_nil_iff hb).1 hnil), rfl, rfl⟩
  · rintro ⟨f, comma, b, rfl, hcomma, hnof, hnob, hf, hb, rfl, rfl⟩
    have hreadf := hread.append.1
    have hreadb := hread.append.2.cons.2
    refine ⟨?_, (isOneArgument_charsOfAll_iff hreadf).2 hnof,
      (isOneArgument_charsOfAll_iff hreadb).2 hnob,
      fun hnil => hf ((stripSpace_eq_nil_iff hreadf).2 hnil),
      fun hnil => hb ((stripSpace_eq_nil_iff hreadb).2 hnil)⟩
    rw [← hcs, charsOfAll_append, charsOfAll_cons, chars_of_isComma hread.append.2 hcomma]
    rfl

/-- A value is a pair of colors if it has one comma outside of strings and parentheses and neither
side of it is blank. -/
theorem colorPair_eq_ok_iff_isPair {value : String} {colors : String × String} :
    colorPair value = .ok colors ↔
      ∃ front back, IsPair value.toList front back ∧
        colors = (String.ofList (Text.trim front), String.ofList (Text.trim back)) := by
  rw [colorPair_eq_ok_iff]
  cases hparse : Component.parse value with
  | error fault =>
      constructor
      · rintro ⟨foreground, background, -, -, hvalue, -⟩
        rw [argumentsOf, hparse] at hvalue
        cases hvalue
      · rintro ⟨front, back, hpair, -⟩
        obtain ⟨components, hread⟩ := (exists_parse_iff value).2 hpair.balanced
        rw [hparse] at hread
        cases hread
  | ok components =>
      have hchars := parse_eq_ok_iff.1 hparse
      have hread := readBefore_of_parseChars hchars
      have harguments : argumentsOf value = splitArguments none components := by
        rw [argumentsOf, hparse]
      have hrender : ∀ f comma b, components = f ++ comma :: b →
          render (stripSpace f) = String.ofList (Text.trim (charsOfAll f)) ∧
            render (stripSpace b) = String.ofList (Text.trim (charsOfAll b)) := by
        rintro f comma b rfl
        rw [render, render, charsOfAll_stripSpace hread.append.1,
          charsOfAll_stripSpace hread.append.2.cons.2]
        exact ⟨rfl, rfl⟩
      simp only [harguments, splitArguments_eq_pair_iff, isPair_iff hchars]
      constructor
      · rintro ⟨_, _, hf, hb, ⟨f, comma, b, heq, hcomma, hnof, hnob, rfl, rfl⟩, rfl⟩
        refine ⟨_, _, ⟨f, comma, b, heq, hcomma, hnof, hnob, hf, hb, rfl, rfl⟩, ?_⟩
        rw [(hrender f comma b heq).1, (hrender f comma b heq).2]
      · rintro ⟨_, _, ⟨f, comma, b, heq, hcomma, hnof, hnob, hf, hb, rfl, rfl⟩, rfl⟩
        refine ⟨_, _, hf, hb, ⟨f, comma, b, heq, hcomma, hnof, hnob, rfl, rfl⟩, ?_⟩
        rw [(hrender f comma b heq).1, (hrender f comma b heq).2]

end Pairs

section Colors

variable {X Y : String} {c d : Color}

theorem colorPair_of_isBalancedValue (hX : Color.parse X = .ok (some c))
    (hY : Color.parse Y = .ok (some d)) (hbalancedX : IsBalancedValue X.toList)
    (hbalancedY : IsBalancedValue Y.toList) :
    colorPair (X ++ "," ++ Y) = .ok (Text.strip X, Text.strip Y) := by
  rw [colorPair_eq_ok_iff_isPair]
  refine ⟨X.toList, Y.toList, ⟨?_, Color.isOneArgument_of_parse hX hbalancedX,
    Color.isOneArgument_of_parse hY hbalancedY, (Color.unsplit_lower_of_parse hX).1,
    (Color.unsplit_lower_of_parse hY).1⟩, rfl⟩
  simp

/-- The sides of a pair are balanced if the first of them writes a color. -/
theorem isBalancedValue_of_colorPair (hX : Color.parse X = .ok (some c)) {colors : String × String}
    (h : colorPair (X ++ "," ++ Y) = .ok colors) :
    IsBalancedValue X.toList ∧ IsBalancedValue Y.toList := by
  obtain ⟨front, back, hpair, -⟩ := colorPair_eq_ok_iff_isPair.1 h
  have hbalanced : IsBalancedValue (X.toList ++ ',' :: Y.toList) := by simpa using hpair.balanced
  rw [IsBalancedValue, Balance.run_append] at hbalanced
  have hfirst : IsBalancedValue X.toList := by
    refine Color.isBalancedValue_of_run hX fun hlost => ?_
    rw [hlost, Balance.run_lost] at hbalanced
    cases hbalanced
  rw [hfirst] at hbalanced
  exact ⟨hfirst, hbalanced⟩

end Colors

/-- Two colors with a comma between them are read as a pair of texts that write the same colors,
unless one of them is only balanced in lower case: then there is no pair, and in one of them a hash
stands in front of a false name.  Every value that is a pair has one comma outside of strings and
parentheses, between two texts that are not blank, and it is the pair of these texts without the
blanks around them. -/
theorem colorPair_of_colors (X Y value : String) :
    (∀ c d, Color.parse X = .ok (some c) → Color.parse Y = .ok (some d) →
      if IsBalancedValue X.toList ∧ IsBalancedValue Y.toList then
        ∃ x y, colorPair (X ++ "," ++ Y) = .ok (x, y) ∧
          Color.parse x = .ok (some c) ∧ Color.parse y = .ok (some d)
      else
        (∃ problem, colorPair (X ++ "," ++ Y) = .error problem) ∧
          ∃ e ∈ Text.falseNames, ['#', e] <:+: X.toList ∨ ['#', e] <:+: Y.toList) ∧
    ∀ colors, colorPair value = .ok colors →
      ∃ front back, IsPair value.toList front back ∧
        (∀ front', IsCutAt front' value.toList ↔ front' = front) ∧
        colors = (String.ofList (Text.trim front), String.ofList (Text.trim back)) := by
  refine ⟨fun c d hX hY => ?_, fun colors h => ?_⟩
  · split
    · next hbalanced =>
        refine ⟨_, _, colorPair_of_isBalancedValue hX hY hbalanced.1 hbalanced.2, ?_, ?_⟩
        · rw [Color.parse_strip, hX]
        · rw [Color.parse_strip, hY]
    · next hbalanced =>
        constructor
        · cases hpair : colorPair (X ++ "," ++ Y) with
          | error problem => exact ⟨problem, rfl⟩
          | ok colors => exact absurd (isBalancedValue_of_colorPair hX hpair) hbalanced
        · rcases not_and_or.1 hbalanced with hlost | hlost
          · obtain ⟨e, he, hinside⟩ := Color.exists_falseName_of_parse hX hlost
            exact ⟨e, he, .inl hinside⟩
          · obtain ⟨e, he, hinside⟩ := Color.exists_falseName_of_parse hY hlost
            exact ⟨e, he, .inr hinside⟩
  · obtain ⟨front, back, hpair, hcolors⟩ := colorPair_eq_ok_iff_isPair.1 h
    exact ⟨front, back, hpair, fun front' => hpair.isCutAt_iff, hcolors⟩

theorem colorPair_of_colors_white :
    (Color.parse "RGB(0, 0, 0)" = .ok (some .black) ∧ Color.parse " #FFF" = .ok (some .white) ∧
      colorPair "RGB(0, 0, 0), #FFF" = .ok ("RGB(0, 0, 0)", "#FFF")) ∧
    (∃ x y, colorPair ("RGB(0, 0, 0)" ++ "," ++ " #FFF") = .ok (x, y) ∧
      Color.parse x = .ok (some .black) ∧ Color.parse y = .ok (some .white)) ∧
    ∃ front back, IsPair "RGB(0, 0, 0), #FFF".toList front back := by
  have hblack : Color.parse "RGB(0, 0, 0)" = .ok (some .black) := by decide +kernel
  have hwhite : Color.parse " #FFF" = .ok (some .white) := by decide +kernel
  have hvalue : colorPair "RGB(0, 0, 0), #FFF" = .ok ("RGB(0, 0, 0)", "#FFF") := by decide +kernel
  obtain ⟨hcolors, hpair⟩ :=
    colorPair_of_colors "RGB(0, 0, 0)" " #FFF" "RGB(0, 0, 0), #FFF"
  have hpaired := hcolors .black .white hblack hwhite
  rw [if_pos ⟨by decide, by decide⟩] at hpaired
  obtain ⟨front, back, hcut, -⟩ := hpair _ hvalue
  exact ⟨⟨hblack, hwhite, hvalue⟩, hpaired, front, back, hcut⟩

/-- A hash in front of the Kelvin sign has a name behind it in lower case only. -/
theorem not_forall_colorPair_of_colors :
    ¬ ∀ (X Y : String) (c d : Color),
      Color.parse X = .ok (some c) → Color.parse Y = .ok (some d) →
        ∃ x y, colorPair (X ++ "," ++ Y) = .ok (x, y) ∧
          Color.parse x = .ok (some c) ∧ Color.parse y = .ok (some d) := by
  intro h
  have hkelvin : Color.parse "rgb(none(#\u212A), 0, 0)" = .ok (some .black) := by decide +kernel
  have hred : Color.parse "red" = .ok (some ⟨255, 0, 0, none⟩) := by decide +kernel
  obtain ⟨x, y, hpair, -⟩ := h _ _ _ _ hkelvin hred
  have hnone : ∃ problem, colorPair ("rgb(none(#\u212A), 0, 0)" ++ "," ++ "red") = .error problem :=
    ⟨.noPair "rgb(none(#\u212A), 0, 0),red", by decide +kernel⟩
  obtain ⟨problem, hproblem⟩ := hnone
  rw [hpair] at hproblem
  cases hproblem

end ContrastAudit.CommandLine
