import ContrastAudit.Proofs.Value.Adjacency
import ContrastAudit.Proofs.Value.Arguments

/-!
# Commas outside of strings and parentheses

Where the components of a value are cut can be told from its text.  A comma among the components is
a comma behind a balanced front of the text, so that cutting a value at its only comma cuts the
text, and the components of a part without the white space at its ends are the trimmed text.

**Results.**
* `isCutAt_charsOfAll_iff`: the commas of a text outside of strings and parentheses are the commas
  among its components.
* `charsOfAll_stripSpace`: components are trimmed like their text.
-/

namespace ContrastAudit

/-- Outside of strings and parentheses there is a comma behind the front of a text. -/
def IsCutAt (front cs : List Char) : Prop :=
  IsBalancedValue front ∧ ∃ back, cs = front ++ ',' :: back

/-- A balanced text has no comma outside of strings and parentheses. -/
structure IsOneArgument (cs : List Char) : Prop where
  balanced : IsBalancedValue cs
  uncut : ∀ front, ¬ IsCutAt front cs

/-! ## Single components -/

/-- Commas and slashes are tokens of one character. -/
theorem Token.chars_of_scan {t : Token} {rest : List Char}
    (h : scan (t.chars ++ rest) = some (t, rest)) :
    (t.kind = .leaf .comma → t.chars = [',']) ∧ (t.kind = .leaf .slash → t.chars = ['/']) := by
  have hclassify := classify_cut (scan_eq_some_iff.1 h).2 (Nat.le_refl _)
  rcases rule_or_single_of_classify hclassify with
    ⟨rule, hmem, -, -⟩ | ⟨c, rest, hchars, hlength, hsingle, -⟩
  · simp only [rules, List.mem_cons, Prod.mk.injEq, List.not_mem_nil, or_false] at hmem
    constructor
    all_goals
      intro hkind
      rw [hkind] at hmem
      simp at hmem
  · have hrest : rest = [] := by
      rw [hchars, List.length_cons] at hlength
      exact List.length_eq_zero_iff.1 (by omega)
    subst hrest
    rw [hchars]
    unfold single? at hsingle
    split_ifs at hsingle with hopening hclosing hcomma hslash hother
    all_goals
      rw [← Option.some.inj hsingle]
      simp [*]

namespace Component

section Single

variable {rest : List Char} {c : Component} {cs : List Component}

theorem allBlank_chars (h : ReadBefore rest (c :: cs)) (hc : c.isSpace = true) :
    Text.allBlank c.chars = true := by
  obtain ⟨text, rfl⟩ := isLeaf_eq_true_iff.1 hc
  rw [chars]
  exact Token.allBlank_of_scan (t := ⟨.leaf .space, text.toList⟩) rfl h.leaf.1

theorem chars_of_isComma (h : ReadBefore rest (c :: cs)) (hc : c.isComma = true) :
    c.chars = [','] := by
  obtain ⟨text, rfl⟩ := isLeaf_eq_true_iff.1 hc
  rw [chars]
  exact (Token.chars_of_scan (t := ⟨.leaf .comma, text.toList⟩) h.leaf.1).1 rfl

theorem chars_of_isSlash (h : ReadBefore rest (c :: cs)) (hc : c.isLeaf .slash = true) :
    c.chars = ['/'] := by
  obtain ⟨text, rfl⟩ := isLeaf_eq_true_iff.1 hc
  rw [chars]
  exact (Token.chars_of_scan (t := ⟨.leaf .slash, text.toList⟩) h.leaf.1).2 rfl

theorem cases_of_separates (hc : c.separates = true) :
    c.isSpace = true ∨ c.isComma = true ∨ c.isLeaf .slash = true := by
  simpa [separates, or_assoc] using hc

/-- Components other than white space neither start nor end with a blank. -/
theorem isTrimmed_chars (h : ReadBefore rest (c :: cs)) (hc : c.isSpace = false) :
    Text.IsTrimmed c.chars := by
  cases hseparates : c.separates with
  | true =>
      rcases cases_of_separates hseparates with hspace | hcomma | hslash
      · rw [hc] at hspace
        contradiction
      · rw [chars_of_isComma h hcomma]
        decide
      · rw [chars_of_isSlash h hslash]
        decide
  | false =>
      have happart : ReadsApart c.chars [c] := by
        refine ⟨?_, List.cons_ne_nil _ _, List.forall_mem_singleton.2 hseparates⟩
        simpa using h.cons.1.parseChars_eq
      exact ⟨happart.ne_nil_chars,
        Text.trim_eq_self_iff.2 ⟨happart.head_not_blank, happart.last_not_blank⟩⟩

/-- Only a comma has a comma outside of strings and parentheses. -/
theorem isCutAt_chars_iff (h : ReadBefore rest (c :: cs)) {front : List Char} :
    IsCutAt front c.chars ↔ front = [] ∧ c.isComma = true := by
  constructor
  · rintro ⟨hfront, back, hchars⟩
    cases hseparates : c.separates with
    | true =>
        have hmem : ',' ∈ c.chars := by simp [hchars]
        rcases cases_of_separates hseparates with hspace | hcomma | hslash
        · exact absurd (List.all_eq_true.1 (allBlank_chars h hspace) _ hmem) (by decide)
        · refine ⟨?_, hcomma⟩
          rw [chars_of_isComma h hcomma] at hchars
          cases front with
          | nil => rfl
          | cons d front => simp at hchars
        · rw [chars_of_isSlash h hslash] at hmem
          exact absurd hmem (by decide)
    | false =>
        have hunsplit := (unsplit_chars_iff h).1.2 hseparates
        rw [hchars, Balance.unsplit_append, hfront] at hunsplit
        exact absurd (hunsplit.2.1 rfl) (by decide)
  · rintro ⟨rfl, hcomma⟩
    exact ⟨rfl, [], chars_of_isComma h hcomma⟩

end Single

section Commas

variable {rest front : List Char} {cs : List Component}

theorem isBalancedValue_of_readBefore (h : ReadBefore rest cs) : IsBalancedValue (charsOfAll cs) :=
  (exists_parseChars_iff _).1 ⟨cs, h.parseChars_eq⟩

theorem exists_comma_of_isCutAt (h : ReadBefore rest cs) (hcut : IsCutAt front (charsOfAll cs)) :
    ∃ before comma behind, cs = before ++ comma :: behind ∧ comma.isComma = true ∧
      charsOfAll before = front := by
  obtain ⟨hfront, back, heq⟩ := hcut
  induction cs generalizing front with
  | nil => simp at heq
  | cons c cs ih =>
      have hc : IsBalancedValue c.chars := (unsplit_chars_iff h).2
      rw [charsOfAll_cons] at heq
      -- the comma stands behind the first component, or in it
      rcases List.append_eq_append_iff.1 heq with ⟨more, rfl, hmore⟩ | ⟨more, hchars, hmore⟩
      · rw [IsBalancedValue, Balance.run_append, hc] at hfront
        obtain ⟨before, comma, behind, rfl, hcomma, rfl⟩ := ih h.cons.2 hfront hmore
        exact ⟨c :: before, comma, behind, rfl, hcomma, charsOfAll_cons _ _⟩
      · cases more with
        | nil =>
            rw [List.append_nil] at hchars
            have hempty : IsBalancedValue [] := rfl
            obtain ⟨before, comma, behind, rfl, hcomma, hbefore⟩ := ih h.cons.2 hempty hmore.symm
            exact ⟨c :: before, comma, behind, rfl, hcomma, by simp [hbefore, hchars]⟩
        | cons d more =>
            obtain ⟨rfl, -⟩ := List.cons.inj hmore
            obtain ⟨rfl, hcomma⟩ := (isCutAt_chars_iff h).1 ⟨hfront, more, hchars⟩
            exact ⟨[], c, cs, rfl, hcomma, charsOfAll_nil⟩

/-- The commas of a text outside of strings and parentheses are the commas among its components. -/
theorem isCutAt_charsOfAll_iff (h : ReadBefore rest cs) :
    IsCutAt front (charsOfAll cs) ↔
      ∃ before comma behind, cs = before ++ comma :: behind ∧ comma.isComma = true ∧
        charsOfAll before = front := by
  constructor
  · exact exists_comma_of_isCutAt h
  · rintro ⟨before, comma, behind, rfl, hcomma, rfl⟩
    refine ⟨isBalancedValue_of_readBefore h.append.1, charsOfAll behind, ?_⟩
    rw [charsOfAll_append, charsOfAll_cons, chars_of_isComma h.append.2 hcomma]
    rfl

/-- Components without a comma are the components of a text that is whole. -/
theorem isOneArgument_charsOfAll_iff (h : ReadBefore rest cs) :
    IsOneArgument (charsOfAll cs) ↔ NoComma cs := by
  constructor
  · intro hwhole
    rcases noComma_or_exists_comma cs with hno | ⟨before, comma, behind, heq, -, hcomma⟩
    · exact hno
    · exact absurd ((isCutAt_charsOfAll_iff h).2 ⟨before, comma, behind, heq, hcomma, rfl⟩)
        (hwhole.uncut _)
  · intro hno
    refine ⟨isBalancedValue_of_readBefore h, fun front hcut => ?_⟩
    obtain ⟨before, comma, behind, rfl, hcomma, -⟩ := exists_comma_of_isCutAt h hcut
    rw [hno comma (by simp)] at hcomma
    contradiction

end Commas

/-! ## White space at the ends -/

section Ends

variable {rest : List Char} {cs : List Component}

theorem not_isSpace_of_dropWhile (cs : List Component) :
    ∀ c ∈ (cs.dropWhile isSpace).head?, c.isSpace = false := by
  intro c hc
  have hfirst := List.head?_dropWhile_not isSpace cs
  rw [Option.mem_def.1 hc] at hfirst
  simpa using hfirst

/-- A sequence without the white space at its ends starts and ends with something else. -/
theorem exists_stripSpace (cs : List Component) :
    ∃ before behind, cs = before ++ (stripSpace cs ++ behind) ∧
      (∀ c ∈ before, c.isSpace = true) ∧ (∀ c ∈ behind, c.isSpace = true) ∧
      (∀ c ∈ (stripSpace cs).head?, c.isSpace = false) ∧
      ∀ c ∈ (stripSpace cs).getLast?, c.isSpace = false := by
  have hstrip : cs.dropWhile isSpace = stripSpace cs ++
      ((cs.dropWhile isSpace).reverse.takeWhile isSpace).reverse := by
    rw [stripSpace, ← List.reverse_append, List.takeWhile_append_dropWhile, List.reverse_reverse]
  refine ⟨cs.takeWhile isSpace, ((cs.dropWhile isSpace).reverse.takeWhile isSpace).reverse,
    ?_, fun c hc => List.mem_takeWhile_imp hc, fun c hc => ?_, fun c hc => ?_, fun c hc => ?_⟩
  · rw [← hstrip, List.takeWhile_append_dropWhile]
  · exact List.mem_takeWhile_imp (List.mem_reverse.1 hc)
  · refine not_isSpace_of_dropWhile cs c ?_
    rw [hstrip, List.head?_append, Option.mem_def.1 hc]
    rfl
  · rw [stripSpace, List.getLast?_reverse] at hc
    exact not_isSpace_of_dropWhile _ c hc

theorem allBlank_charsOfAll (h : ReadBefore rest cs) (hspace : ∀ c ∈ cs, c.isSpace = true) :
    Text.allBlank (charsOfAll cs) = true := by
  induction cs with
  | nil => simp [Text.allBlank]
  | cons c cs ih =>
      obtain ⟨hc, hcs⟩ := List.forall_mem_cons.1 hspace
      rw [charsOfAll_cons, Text.allBlank, List.all_append, Bool.and_eq_true]
      exact ⟨allBlank_chars h hc, ih h.cons.2 hcs⟩

/-- Components that start and end with something else than white space are a trimmed text. -/
theorem isTrimmed_charsOfAll (h : ReadBefore rest cs) (hne : cs ≠ [])
    (hfirst : ∀ c ∈ cs.head?, c.isSpace = false) (hlast : ∀ c ∈ cs.getLast?, c.isSpace = false) :
    Text.IsTrimmed (charsOfAll cs) := by
  obtain ⟨c, cs, rfl⟩ := List.exists_cons_of_ne_nil hne
  have hc := isTrimmed_chars h (hfirst c rfl)
  rcases List.eq_nil_or_concat' cs with rfl | ⟨middle, d, rfl⟩
  · simpa using hc
  · rw [← List.cons_append] at h hlast
    have hd := isTrimmed_chars h.append.2 (hlast d List.getLast?_concat)
    simpa using hc.append (charsOfAll middle) hd

/-- Components are trimmed like their text. -/
theorem charsOfAll_stripSpace (h : ReadBefore rest cs) :
    charsOfAll (stripSpace cs) = Text.trim (charsOfAll cs) := by
  obtain ⟨before, behind, heq, hbefore, hbehind, hfirst, hlast⟩ := exists_stripSpace cs
  rw [heq] at h
  have hblank := allBlank_charsOfAll h.append.1 hbefore
  have hblank' := allBlank_charsOfAll h.append.2.append.2 hbehind
  conv_rhs => rw [heq, charsOfAll_append, charsOfAll_append]
  by_cases hne : stripSpace cs = []
  · rw [hne, charsOfAll_nil, List.nil_append, Text.trim_blank_append hblank,
      ← List.nil_append (charsOfAll behind), Text.trim_append_blank hblank', Text.trim_nil]
  · exact ((isTrimmed_charsOfAll h.append.2.append.1 hne hfirst hlast).trim_between hblank
      hblank').symm

theorem stripSpace_eq_nil_iff (h : ReadBefore rest cs) :
    stripSpace cs = [] ↔ Text.trim (charsOfAll cs) = [] := by
  rw [← charsOfAll_stripSpace h]
  constructor
  · intro hnil
    rw [hnil, charsOfAll_nil]
  · intro hnil
    by_contra hne
    obtain ⟨before, behind, heq, -, -, hfirst, hlast⟩ := exists_stripSpace cs
    rw [heq] at h
    exact (isTrimmed_charsOfAll h.append.2.append.1 hne hfirst hlast).ne_nil hnil

theorem noComma_of_separates (h : ∀ c ∈ cs, c.separates = false) : NoComma cs := by
  intro c hc
  have hnone := h c hc
  simp only [separates, Bool.or_eq_false_iff] at hnone
  exact hnone.1.2

/-- Blanks around a text in which nothing separates do not cut it. -/
theorem isOneArgument_of_unsplit_trim {text : List Char} (h : IsBalancedValue text)
    (hunsplit : Balance.Unsplit (.text 0) (Text.trim text)) : IsOneArgument text := by
  obtain ⟨components, hread⟩ := (exists_parseChars_iff text).2 h
  have hfront := readBefore_of_parseChars hread
  obtain ⟨before, behind, heq, hbefore, hbehind, -, -⟩ := exists_stripSpace components
  have hapart : ∀ c ∈ stripSpace components, c.separates = false := by
    rw [← charsOfAll_of_parseChars hread, ← charsOfAll_stripSpace hfront] at hunsplit
    rw [heq] at hfront
    exact (unsplit_charsOfAll_iff hfront.append.2.append.1).1 hunsplit
  rw [← charsOfAll_of_parseChars hread, isOneArgument_charsOfAll_iff hfront, heq]
  exact (noComma_of_isSpace hbefore).append
    ((noComma_of_separates hapart).append (noComma_of_isSpace hbehind))

end Ends

end Component

end ContrastAudit
