import ContrastAudit.Proofs.Text.Trim
import ContrastAudit.Proofs.Value.Rules

/-!
# Where tokens end

The token at the start of a text is what the first rule takes that takes something.  It is the same
when the text is cut behind it, and where a character comes that belongs to no name and to no
number, it does not depend on what comes behind that character.

**Results.**
* `scan_cut`: a token stays the token when the text is cut behind it.
* `scan_of_agrees`: it stays when the text changes behind a character of no name and no number.
* `scan_stop`: it stays when a text comes behind it that starts with a character that is added to
  nothing.
* `scan_of_isClosed`: if nothing can be added to it, it stays whatever comes behind it.
-/

namespace ContrastAudit.Token

/-! ## The order of the rules -/

/-- The first of some rules that takes something of a text. -/
def first? : List (TokenKind × (List Char → Nat)) → List Char → Option (TokenKind × Nat)
  | [], _ => none
  | (kind, rule) :: rules, cs => if rule cs ≠ 0 then some (kind, rule cs) else first? rules cs

/-- The rules for the tokens that may have several characters, as they are tried. -/
def rules : List (TokenKind × (List Char → Nat)) :=
  [(.function, functionLength), (.leaf .number, numberLength), (.leaf .word, wordLength),
    (.leaf .string, stringLength), (.leaf .hash, hashLength), (.leaf .space, run Text.isBlank)]

theorem classify_eq (cs : List Char) :
    classify cs =
      (first? rules cs).or ((cs.head?.bind single?).map fun kind => (kind, 1)) := by
  simp only [classify, rules, first?]
  split_ifs <;> rfl

section Rules

variable {rs : List (TokenKind × (List Char → Nat))} {cs ds : List Char} {kind : TokenKind}
  {n : Nat}

theorem first?_congr (h : ∀ r ∈ rs, r.2 cs = r.2 ds) : first? rs cs = first? rs ds := by
  induction rs with
  | nil => rfl
  | cons r rs ih =>
      obtain ⟨hr, hrs⟩ := List.forall_mem_cons.1 h
      rw [first?, first?, hr, ih hrs]

theorem first?_cut (hlocal : ∀ r ∈ rs, Local r.2) (h : first? rs (cs ++ ds) = some (kind, n))
    (hn : n ≤ cs.length) : first? rs cs = some (kind, n) := by
  induction rs with
  | nil => contradiction
  | cons r rs ih =>
      obtain ⟨hr, hrs⟩ := List.forall_mem_cons.1 hlocal
      rw [first?] at h ⊢
      split_ifs at h with hzero
      · cases h
        rw [hr cs ds hn, if_pos hzero]
      · rw [not_not] at hzero
        rw [hr.zero hzero, if_neg (not_not.2 rfl), ih hrs h]

theorem first?_eq_none_of_append (hlocal : ∀ r ∈ rs, Local r.2)
    (h : first? rs (cs ++ ds) = none) : first? rs cs = none := by
  induction rs with
  | nil => rfl
  | cons r rs ih =>
      obtain ⟨hr, hrs⟩ := List.forall_mem_cons.1 hlocal
      rw [first?] at h ⊢
      split_ifs at h with hzero
      rw [not_not] at hzero
      rw [hr.zero hzero, if_neg (not_not.2 rfl), ih hrs h]

theorem local_of_mem_rules : ∀ r ∈ rules, Local r.2 := by
  simp only [rules, List.forall_mem_cons]
  exact ⟨local_functionLength, local_numberLength, local_wordLength, local_stringLength,
    local_hashLength, local_run, by simp⟩

/-- A token is the same when the text is cut behind it. -/
theorem classify_cut (h : classify (cs ++ ds) = some (kind, n)) (hn : n ≤ cs.length) :
    classify cs = some (kind, n) := by
  have hne : n ≠ 0 := ne_zero_of_classify h
  have hhead : (cs ++ ds).head? = cs.head? := by
    cases cs with
    | nil => exact absurd (Nat.le_zero.1 hn) hne
    | cons c cs => rfl
  rw [classify_eq] at h ⊢
  cases hfirst : first? rules (cs ++ ds) with
  | none =>
      rw [hfirst, hhead] at h
      rw [first?_eq_none_of_append local_of_mem_rules hfirst]
      exact h
  | some found =>
      rw [hfirst, Option.some_or] at h
      cases h
      rw [first?_cut local_of_mem_rules hfirst hn]
      rfl

end Rules

/-! ## First characters -/

/-- A character that starts no name and no number. -/
structure IsPlain (c : Char) : Prop where
  isNameStart_eq : Text.isNameStart c = false
  isDecimal_eq : Text.isDecimal c = false
  notSign : c ∉ ['-', '+', '.']

section Heads

variable {c : Char}

theorem IsPlain.ne_hyphen (h : IsPlain c) : c ≠ '-' := by
  rintro rfl
  exact h.notSign (by decide)

theorem functionLength_of_isPlain (h : IsPlain c) (cs : List Char) :
    functionLength (c :: cs) = 0 := by
  have hrun : run (· == '-') (c :: cs) = 0 := by simp [run, h.ne_hyphen]
  have hname : nameLength (c :: cs) = 0 := by simp [nameLength, h.isNameStart_eq]
  simp [functionLength, hrun, hname]

theorem numberLength_of_isPlain (h : IsPlain c) (cs : List Char) :
    numberLength (c :: cs) = 0 := by
  have hsigns := h.notSign
  simp only [List.mem_cons, List.not_mem_nil, or_false, not_or] at hsigns
  have hrun : run Text.isDecimal (c :: cs) = 0 := by simp [run, h.isDecimal_eq]
  have hsign : signLength (c :: cs) = 0 := by simp [signLength, hsigns]
  refine numberLength_of_zero ?_
  rw [hsign, List.drop_zero, decimalLength_of_head?, hrun]
  rw [hrun, List.drop_zero]
  exact head?_ne hsigns.2.2 cs

theorem wordLength_of_isPlain (h : IsPlain c) (cs : List Char) : wordLength (c :: cs) = 0 := by
  rw [(wordLength_of_head? (head?_ne h.ne_hyphen cs)).1]
  simp [nameLength, h.isNameStart_eq]

theorem classify_of_isPlain (h : IsPlain c) (cs : List Char) :
    classify (c :: cs) =
      if stringLength (c :: cs) ≠ 0 then some (.leaf .string, stringLength (c :: cs))
      else if hashLength (c :: cs) ≠ 0 then some (.leaf .hash, hashLength (c :: cs))
      else if run Text.isBlank (c :: cs) ≠ 0 then
        some (.leaf .space, run Text.isBlank (c :: cs))
      else (single? c).map fun kind => (kind, 1) := by
  simp [classify, functionLength_of_isPlain h, numberLength_of_isPlain h, wordLength_of_isPlain h]

theorem isPlain_of_quote (h : c = '"' ∨ c = '\'') : IsPlain c := by
  rcases h with rfl | rfl
  all_goals exact ⟨by decide, by decide, by decide⟩

theorem isBlank_of_isDecimal (h : Text.isDecimal c = true) : Text.isBlank c = false := by
  have hdigits : ∀ z ∈ Text.zeros, ∀ d < 10, Text.isBlank (Char.ofNat (z + d)) = false := by
    decide +kernel
  obtain ⟨z, hz⟩ : ∃ z, (Text.zeros.find? fun z => z ≤ c.toNat && c.toNat < z + 10) = some z := by
    simpa [Text.isDecimal, Text.digitValue?, Option.isSome_iff_exists] using h
  have hrange := List.find?_some hz
  simp only [Bool.and_eq_true, decide_eq_true_eq] at hrange
  have hdigit := hdigits z (List.mem_of_find?_eq_some hz) (c.toNat - z) (by omega)
  rwa [Nat.add_sub_cancel' hrange.1, Char.ofNat_toNat] at hdigit

theorem isPlain_of_isBlank (h : Text.isBlank c = true) : IsPlain c where
  isNameStart_eq := by
    by_contra hstart
    rw [Bool.not_eq_false] at hstart
    rw [Text.isBlank_of_isNameChar (Text.isNameChar_of_isNameStart hstart)] at h
    contradiction
  isDecimal_eq := by
    by_contra hdecimal
    rw [Bool.not_eq_false] at hdecimal
    rw [isBlank_of_isDecimal hdecimal] at h
    contradiction
  notSign := by
    intro hmem
    simp only [List.mem_cons, List.not_mem_nil, or_false] at hmem
    rcases hmem with rfl | rfl | rfl
    all_goals contradiction

/-- Behind a quote that is never closed no token starts. -/
theorem classify_of_quote (h : c = '"' ∨ c = '\'') (cs : List Char) :
    classify (c :: cs) =
      if stringLength (c :: cs) ≠ 0 then some (.leaf .string, stringLength (c :: cs))
      else none := by
  rw [classify_of_isPlain (isPlain_of_quote h)]
  refine ite_congr rfl (fun _ => rfl) fun _ => ?_
  rcases h with rfl | rfl
  all_goals rfl

theorem classify_of_isBlank (h : Text.isBlank c = true) (cs : List Char) :
    classify (c :: cs) = some (.leaf .space, run Text.isBlank (c :: cs)) := by
  have hquote : ¬(c = '"' ∨ c = '\'') := by
    rintro (rfl | rfl)
    all_goals contradiction
  have hhash : hashLength (c :: cs) = 0 := by
    have hne : c ≠ '#' := by
      rintro rfl
      contradiction
    simp [hashLength, hne]
  have hspace : run Text.isBlank (c :: cs) ≠ 0 := by simp [run, h]
  rw [classify_of_isPlain (isPlain_of_isBlank h), stringLength_of_not_quote hquote, hhash,
    if_pos hspace]
  rfl

end Heads

/-! ## Changing what follows a token -/

section Changes

variable {c : Char} {cs ds : List Char} {kind : TokenKind} {n : Nat}

theorem classify_congr (hrules : ∀ r ∈ rules, r.2 cs = r.2 ds) (hhead : cs.head? = ds.head?) :
    classify cs = classify ds := by
  rw [classify_eq, classify_eq, first?_congr hrules, hhead]

theorem stringLength_append (h : stringLength cs ≠ 0) (ds : List Char) :
    stringLength (cs ++ ds) = stringLength cs := by
  cases cs with
  | nil => contradiction
  | cons c cs =>
      by_cases hc : c = '"' ∨ c = '\''
      · rw [stringLength_of_quote hc] at h
        rw [List.cons_append, stringLength_of_quote hc, stringLength_of_quote hc,
          stringRest_append (after_ne_zero h).1]
      · exact absurd (stringLength_of_not_quote hc cs) h

/-- White space goes on only in front of white space. -/
theorem run_isBlank_append (h : Text.isBlank c = true → run Text.isBlank cs < cs.length)
    (ds : List Char) : run Text.isBlank (cs ++ c :: ds) = run Text.isBlank cs := by
  cases hc : Text.isBlank c with
  | false => exact run_boundary hc cs ds
  | true => exact run_append_of_lt (h hc) _

theorem isBlank_of_run_eq_length {d : Char} (h : run Text.isBlank (d :: cs) = (d :: cs).length) :
    Text.isBlank d = true := by
  by_contra hd
  rw [Bool.not_eq_true] at hd
  simp [run, hd] at h

theorem classify_boundary (h : isBoundary c = true) (hne : cs ≠ [])
    (hcs : classify (cs ++ c :: ds) = some (kind, n)) (hn : n ≤ cs.length) (es : List Char) :
    classify (cs ++ c :: es) = some (kind, n) := by
  obtain ⟨d, cs, rfl⟩ := List.exists_cons_of_ne_nil hne
  by_cases hd : d = '"' ∨ d = '\''
  · have hstring := classify_cut hcs hn
    rw [classify_of_quote hd] at hstring
    split_ifs at hstring with hlength
    cases hstring
    rw [List.cons_append, classify_of_quote hd, ← List.cons_append, stringLength_append hlength,
      if_pos hlength]
  · have hblank : Text.isBlank c = true → run Text.isBlank (d :: cs) < (d :: cs).length := by
      intro hc
      refine Nat.lt_of_le_of_ne (run_le _ _) fun heq => ?_
      rw [List.cons_append, classify_of_isBlank (isBlank_of_run_eq_length heq), ← List.cons_append,
        run_append_of_eq heq] at hcs
      cases hcs
      simp only [run, List.takeWhile_cons, hc, if_true, List.length_cons] at hn
      omega
    rw [← hcs]
    refine classify_congr ?_ rfl
    simp only [rules, List.forall_mem_cons]
    refine ⟨?_, ?_, ?_, ?_, ?_, ?_, by simp⟩
    · rw [functionLength_boundary h, ← functionLength_boundary h]
    · rw [numberLength_boundary h hne, ← numberLength_boundary h hne]
    · rw [wordLength_boundary h, ← wordLength_boundary h]
    · rw [List.cons_append, List.cons_append, stringLength_of_not_quote hd,
        stringLength_of_not_quote hd]
    · rw [hashLength_boundary h hne, ← hashLength_boundary h hne]
    · rw [run_isBlank_append hblank, run_isBlank_append hblank]

theorem classify_stop (h : isStop c = true) (hcs : classify cs = some (kind, n))
    (hblank : Text.isBlank c = true → run Text.isBlank cs < cs.length) (ds : List Char) :
    classify (cs ++ c :: ds) = some (kind, n) := by
  cases cs with
  | nil => contradiction
  | cons d cs =>
      have hne : d :: cs ≠ [] := List.cons_ne_nil d cs
      by_cases hd : d = '"' ∨ d = '\''
      · rw [classify_of_quote hd] at hcs
        split_ifs at hcs with hlength
        cases hcs
        rw [List.cons_append, classify_of_quote hd, ← List.cons_append,
          stringLength_append hlength, if_pos hlength]
      · rw [← hcs]
        refine classify_congr ?_ rfl
        simp only [rules, List.forall_mem_cons]
        refine ⟨functionLength_stop h _ ds, numberLength_stop h hne ds,
          wordLength_boundary (isBoundary_of_isStop h) _ ds, ?_,
          hashLength_boundary (isBoundary_of_isStop h) hne ds, run_isBlank_append hblank ds,
          by simp⟩
        rw [List.cons_append, stringLength_of_not_quote hd, stringLength_of_not_quote hd]

end Changes

/-! ## Tokens to which nothing can be added -/

/-- Whether a token is the same whatever comes behind it. -/
def isClosed (t : Token) : Bool :=
  match t.kind with
  | .function | .opening | .closing | .leaf .comma | .leaf .slash | .leaf .string => true
  | .leaf .delimiter => !([['-'], ['+'], ['.']].contains t.chars)
  | .leaf _ => false

section Closed

variable {c : Char} {cs : List Char} {kind : TokenKind} {n : Nat}

theorem ne_of_single? (h : single? c = some kind) :
    ¬(c = '"' ∨ c = '\'') ∧ c ≠ '#' ∧ Text.isBlank c = false := by
  unfold single? at h
  split_ifs at h with hopening hclosing hcomma hslash hother
  · subst hopening
    decide
  · subst hclosing
    decide
  · subst hcomma
    decide
  · subst hslash
    decide
  · simp only [not_or, Bool.not_eq_true] at hother
    exact ⟨not_or.2 ⟨hother.1, hother.2.1⟩, hother.2.2⟩

theorem classify_single (h : IsPlain c) (hsingle : single? c = some kind) (cs : List Char) :
    classify (c :: cs) = some (kind, 1) := by
  obtain ⟨hquote, hhash, hblank⟩ := ne_of_single? hsingle
  rw [classify_of_isPlain h, stringLength_of_not_quote hquote]
  simp [hashLength, hhash, run, hblank, hsingle]

theorem mem_of_first? {rs : List (TokenKind × (List Char → Nat))}
    (h : first? rs cs = some (kind, n)) : ∃ rule, (kind, rule) ∈ rs ∧ rule cs = n ∧ n ≠ 0 := by
  induction rs with
  | nil => contradiction
  | cons r rs ih =>
      rw [first?] at h
      split_ifs at h with hrule
      · cases h
        exact ⟨r.2, List.mem_cons_self, rfl, hrule⟩
      · obtain ⟨rule, hmem, hn⟩ := ih h
        exact ⟨rule, List.mem_cons_of_mem _ hmem, hn⟩

theorem zero_of_first?_eq_none {rs : List (TokenKind × (List Char → Nat))}
    (h : first? rs cs = none) : ∀ r ∈ rs, r.2 cs = 0 := by
  induction rs with
  | nil => simp
  | cons r rs ih =>
      rw [first?] at h
      split_ifs at h with hrule
      exact List.forall_mem_cons.2 ⟨not_not.1 hrule, ih h⟩

/-- A token is what its rule takes, or a single character where no rule takes anything. -/
theorem rule_or_single_of_classify (h : classify cs = some (kind, n)) :
    (∃ rule, (kind, rule) ∈ rules ∧ rule cs = n ∧ n ≠ 0) ∨
      ∃ c rest, cs = c :: rest ∧ n = 1 ∧ single? c = some kind ∧ ∀ r ∈ rules, r.2 cs = 0 := by
  rw [classify_eq] at h
  cases hfirst : first? rules cs with
  | some found =>
      rw [hfirst, Option.some_or] at h
      cases h
      exact .inl (mem_of_first? hfirst)
  | none =>
      rw [hfirst, Option.none_or] at h
      cases cs with
      | nil => contradiction
      | cons c rest =>
          obtain ⟨kind', hsingle, heq⟩ := Option.map_eq_some_iff.1 h
          cases heq
          exact .inr ⟨c, rest, rfl, rfl, hsingle, zero_of_first?_eq_none hfirst⟩

/-- A character of its own that is no sign starts no name and no number. -/
theorem isPlain_of_zero (hzero : ∀ r ∈ rules, r.2 [c] = 0) (hsign : c ∉ ['-', '+', '.']) :
    IsPlain c where
  isNameStart_eq := by
    have hword : wordLength [c] = 0 := hzero (.leaf .word, wordLength) (by simp [rules])
    have hhyphen : c ≠ '-' := fun heq => hsign (heq ▸ List.mem_cons_self)
    rw [(wordLength_of_head? (head?_ne hhyphen [])).1, nameLength] at hword
    by_contra hstart
    rw [Bool.not_eq_false] at hstart
    rw [if_pos hstart] at hword
    omega
  isDecimal_eq := by
    have hnumber : numberLength [c] = 0 := hzero (.leaf .number, numberLength) (by simp [rules])
    simp only [List.mem_cons, List.not_mem_nil, or_false, not_or] at hsign
    have hnone : signLength [c] = 0 := by simp [signLength, hsign]
    by_contra hdecimal
    rw [Bool.not_eq_false] at hdecimal
    have hrun : run Text.isDecimal [c] = 1 := by simp [run, hdecimal]
    have hle := run_le_decimalLength [c]
    have hne : decimalLength ([c].drop (signLength [c])) ≠ 0 := by
      rw [hnone, List.drop_zero]
      omega
    have hlong := numberLength_of_ne_zero hne
    omega
  notSign := hsign

theorem classify_function_append {chars : List Char} (h : functionLength chars = n) (hn : n ≠ 0)
    (es : List Char) : classify (chars ++ es) = some (.function, n) := by
  obtain ⟨m, rfl⟩ := Nat.exists_eq_succ_of_ne_zero hn
  rw [classify, functionLength_append h, if_pos hn]

theorem classify_string_append {chars : List Char} (h : stringLength chars = n) (hn : n ≠ 0)
    (es : List Char) : classify (chars ++ es) = some (.leaf .string, n) := by
  subst h
  cases chars with
  | nil => contradiction
  | cons d chars =>
      by_cases hd : d = '"' ∨ d = '\''
      · rw [List.cons_append, classify_of_quote hd, ← List.cons_append, stringLength_append hn,
          if_pos hn]
      · exact absurd (stringLength_of_not_quote hd chars) hn

theorem functionLength_of_classify (h : classify cs = some (.function, n)) :
    functionLength cs = n := by
  rcases rule_or_single_of_classify h with ⟨rule, hmem, hlength, -⟩ | ⟨c, rest, -, -, hsingle, -⟩
  · simp only [rules, List.mem_cons, Prod.mk.injEq, List.not_mem_nil, or_false, reduceCtorEq,
      false_and, true_and] at hmem
    rw [← hmem, hlength]
  · unfold single? at hsingle
    split_ifs at hsingle
    all_goals contradiction

/-- What starts a closed token that is no function starts no name and no number. -/
theorem exists_isPlain_of_isClosed {t : Token} (hclosed : t.isClosed = true)
    (hkind : t.kind ≠ .function) (h : classify t.chars = some (t.kind, t.chars.length)) :
    ∃ c rest, t.chars = c :: rest ∧ IsPlain c ∧
      (t.kind = .leaf .string ∧ stringLength t.chars = t.chars.length ∨
        rest = [] ∧ single? c = some t.kind) := by
  obtain ⟨kind, chars⟩ := t
  rcases rule_or_single_of_classify h with
    ⟨rule, hmem, hlength, hne⟩ | ⟨c, rest, hchars, hone, hsingle, hzero⟩
  · simp only [rules, List.mem_cons, Prod.mk.injEq, List.not_mem_nil, or_false] at hmem
    rcases hmem with ⟨rfl, rfl⟩ | ⟨rfl, rfl⟩ | ⟨rfl, rfl⟩ | ⟨rfl, rfl⟩ | ⟨rfl, rfl⟩ | ⟨rfl, rfl⟩
    · contradiction
    · contradiction
    · contradiction
    · cases chars with
      | nil => contradiction
      | cons d chars =>
          by_cases hd : d = '"' ∨ d = '\''
          · exact ⟨d, chars, rfl, isPlain_of_quote hd, .inl ⟨rfl, hlength⟩⟩
          · exact absurd (hlength.symm.trans (stringLength_of_not_quote hd chars)) hne
    · contradiction
    · contradiction
  · obtain ⟨d, rfl⟩ : ∃ d, chars = [d] := List.length_eq_one_iff.1 hone
    obtain ⟨rfl, rfl⟩ := List.cons.inj hchars
    have hsign : d ∉ ['-', '+', '.'] := by
      intro hmem
      have hdelimiter : single? d = some (.leaf .delimiter) := by
        simp only [List.mem_cons, List.not_mem_nil, or_false] at hmem
        rcases hmem with rfl | rfl | rfl
        all_goals decide
      rw [hdelimiter] at hsingle
      cases hsingle
      simp only [List.mem_cons, List.not_mem_nil, or_false] at hmem
      simp [isClosed, hmem] at hclosed
    exact ⟨d, [], rfl, isPlain_of_zero hzero hsign, .inr ⟨rfl, hsingle⟩⟩

/-- Nothing is added to a closed token. -/
theorem classify_of_isClosed {t : Token} (hclosed : t.isClosed = true) {ds : List Char}
    (h : classify (t.chars ++ ds) = some (t.kind, t.chars.length)) (es : List Char) :
    classify (t.chars ++ es) = some (t.kind, t.chars.length) := by
  have hne := ne_zero_of_classify h
  have hcut := classify_cut h (Nat.le_refl _)
  by_cases hkind : t.kind = .function
  · rw [hkind] at hcut ⊢
    exact classify_function_append (functionLength_of_classify hcut) hne es
  · obtain ⟨c, rest, hchars, hplain, ⟨hstring, hlength⟩ | ⟨rfl, hsingle⟩⟩ :=
      exists_isPlain_of_isClosed hclosed hkind hcut
    · rw [hstring]
      exact classify_string_append hlength hne es
    · rw [hchars]
      exact classify_single hplain hsingle es

end Closed

/-! ## Scanning -/

theorem le_length_of_classify {cs : List Char} {kind : TokenKind} {n : Nat}
    (h : classify cs = some (kind, n)) : n ≤ cs.length := by
  rcases rule_or_single_of_classify h with ⟨rule, hmem, rfl, -⟩ | ⟨c, rest, rfl, rfl, -⟩
  · simp only [rules, List.mem_cons, Prod.mk.injEq, List.not_mem_nil, or_false] at hmem
    rcases hmem with ⟨-, rfl⟩ | ⟨-, rfl⟩ | ⟨-, rfl⟩ | ⟨-, rfl⟩ | ⟨-, rfl⟩ | ⟨-, rfl⟩
    · exact functionLength_le cs
    · exact numberLength_le cs
    · exact wordLength_le cs
    · exact stringLength_le cs
    · exact hashLength_le cs
    · exact run_le _ cs
  · exact Nat.succ_le_succ (Nat.zero_le _)

section Scans

variable {t : Token} {c : Char} {cs ds rest : List Char}

/-- The token at the start of a text is what its first characters are found to be. -/
theorem scan_eq_some_iff :
    scan cs = some (t, rest) ↔
      cs = t.chars ++ rest ∧ classify cs = some (t.kind, t.chars.length) := by
  constructor
  · intro h
    refine ⟨append_of_scan h, ?_⟩
    unfold scan at h
    split at h <;> try contradiction
    next kind n hclassify =>
      have hle := le_length_of_classify hclassify
      cases h
      rw [hclassify, List.length_take, Nat.min_eq_left hle]
  · rintro ⟨rfl, h⟩
    obtain ⟨n, hn⟩ := Nat.exists_eq_succ_of_ne_zero (ne_zero_of_classify h)
    cases hchars : t.chars with
    | nil =>
        rw [hchars] at hn
        contradiction
    | cons d chars =>
        rw [hchars] at h
        unfold scan
        rw [h]
        obtain ⟨kind, chars'⟩ := t
        simp_all

/-- A token is the same when the text is cut behind it. -/
theorem scan_cut (h : scan (t.chars ++ (cs ++ ds)) = some (t, cs ++ ds)) :
    scan (t.chars ++ cs) = some (t, cs) := by
  obtain ⟨-, hclassify⟩ := scan_eq_some_iff.1 h
  rw [← List.append_assoc] at hclassify
  exact scan_eq_some_iff.2 ⟨rfl, classify_cut hclassify (by simp)⟩

/-- A closed token is the same whatever comes behind it. -/
theorem scan_of_isClosed (hclosed : t.isClosed = true) (h : scan (t.chars ++ cs) = some (t, cs))
    (ds : List Char) : scan (t.chars ++ ds) = some (t, ds) :=
  scan_eq_some_iff.2 ⟨rfl, classify_of_isClosed hclosed (scan_eq_some_iff.1 h).2 ds⟩

/-- Two texts that are the same, or the same up to a character that ends names and numbers. -/
inductive Agrees : List Char → List Char → Prop
  | refl (cs : List Char) : Agrees cs cs
  | upTo {c : Char} (hc : isBoundary c = true) (cs ds es : List Char) :
      Agrees (cs ++ c :: ds) (cs ++ c :: es)

theorem Agrees.append (h : Agrees ds rest) (cs : List Char) : Agrees (cs ++ ds) (cs ++ rest) := by
  cases h with
  | refl => exact .refl _
  | upTo hc cs' ds' es =>
      rw [← List.append_assoc, ← List.append_assoc]
      exact .upTo hc _ _ _

/-- A token is the same in front of texts that agree. -/
theorem scan_of_agrees (h : scan (t.chars ++ cs) = some (t, cs)) (hds : Agrees cs ds) :
    scan (t.chars ++ ds) = some (t, ds) := by
  cases hds with
  | refl => exact h
  | upTo hc cs ds es =>
      obtain ⟨-, hclassify⟩ := scan_eq_some_iff.1 h
      have hne : t.chars ++ cs ≠ [] :=
        List.append_ne_nil_of_left_ne_nil
          (List.ne_nil_of_length_pos (Nat.pos_of_ne_zero (ne_zero_of_classify hclassify))) _
      rw [← List.append_assoc] at hclassify
      refine scan_eq_some_iff.2 ⟨rfl, ?_⟩
      rw [← List.append_assoc]
      exact classify_boundary hc hne hclassify (by simp) es

theorem run_isBlank_lt (h : Text.allBlank cs = false) : run Text.isBlank cs < cs.length := by
  refine Nat.lt_of_le_of_ne (run_le _ cs) fun heq => ?_
  have hall : cs.takeWhile Text.isBlank = cs := (List.takeWhile_prefix _).eq_of_length heq
  rw [Text.allBlank, List.all_eq_true.2 (List.takeWhile_eq_self_iff.1 hall)] at h
  contradiction

/-- A token is the same where a text follows that nothing is added to a token of; only white space
goes on as white space. -/
theorem scan_stop (hc : isStop c = true) (h : scan cs = some (t, rest))
    (hblank : Text.isBlank c = true → Text.allBlank cs = false) (ds : List Char) :
    scan (cs ++ c :: ds) = some (t, rest ++ c :: ds) := by
  obtain ⟨hcs, hclassify⟩ := scan_eq_some_iff.1 h
  refine scan_eq_some_iff.2 ⟨by rw [hcs, List.append_assoc], ?_⟩
  exact classify_stop hc hclassify (fun hc' => run_isBlank_lt (hblank hc')) ds

/-- White space at the start of a text is one token, up to the first character that is none. -/
theorem scan_blank (hc : Text.isBlank c = true) (cs : List Char) :
    scan (c :: cs) =
      some (⟨.leaf .space, c :: cs.takeWhile Text.isBlank⟩, Text.trimStart cs) := by
  refine scan_eq_some_iff.2 ⟨?_, ?_⟩
  · rw [List.cons_append, Text.trimStart, List.takeWhile_append_dropWhile]
  · rw [classify_of_isBlank hc, run, List.takeWhile_cons_of_pos hc]

theorem isDecimal_of_isAsciiDigit (h : Text.isAsciiDigit c = true) : Text.isDecimal c = true := by
  simp only [Text.isAsciiDigit, Bool.and_eq_true, decide_eq_true_eq, Char.le_def,
    UInt32.le_iff_toNat_le] at h
  have hrange : 0x30 ≤ c.toNat ∧ c.toNat < 0x30 + 10 :=
    ⟨h.1, Nat.lt_of_le_of_lt h.2 (by decide)⟩
  rw [Text.isDecimal, Text.digitValue?, Option.isSome_map, List.find?_isSome]
  exact ⟨0x30, by decide, by simpa using hrange⟩

theorem isBoundary_of_isPlain (h : IsPlain c) : isBoundary c = true := by
  obtain ⟨hstart, hdecimal, hsign⟩ := h
  simp only [List.mem_cons, List.not_mem_nil, or_false, not_or] at hsign
  have hdigit : Text.isAsciiDigit c = false := by
    by_contra hdigit
    rw [Bool.not_eq_false] at hdigit
    rw [isDecimal_of_isAsciiDigit hdigit] at hdecimal
    contradiction
  simp only [Text.isNameStart, Bool.or_eq_false_iff] at hstart
  refine isBoundary_iff.2 ⟨?_, hdecimal, hsign.2.2⟩
  simp [Text.isNameChar, hstart, hdigit, hsign]

theorem isStop_of_isBlank (h : Text.isBlank c = true) : isStop c = true := by
  have hopening : c ≠ '(' := by
    rintro rfl
    contradiction
  have hpercent : c ≠ '%' := by
    rintro rfl
    contradiction
  simp [isStop, isBoundary_of_isPlain (isPlain_of_isBlank h), hopening, hpercent]

/-- A token of white space is white space. -/
theorem allBlank_of_scan (hkind : t.kind = .leaf .space)
    (h : scan (t.chars ++ rest) = some (t, rest)) : Text.allBlank t.chars = true := by
  obtain ⟨-, hclassify⟩ := scan_eq_some_iff.1 h
  have hcut := classify_cut hclassify (Nat.le_refl _)
  rw [hkind] at hcut
  rcases rule_or_single_of_classify hcut with ⟨rule, hmem, hlength, -⟩ | ⟨d, es, -, -, hsingle, -⟩
  · simp only [rules, List.mem_cons, Prod.mk.injEq, List.not_mem_nil, or_false, reduceCtorEq,
      TokenKind.leaf.injEq, false_and, false_or, true_and] at hmem
    rw [hmem] at hlength
    by_contra hblank
    rw [Bool.not_eq_true] at hblank
    exact absurd hlength (Nat.ne_of_lt (run_isBlank_lt hblank))
  · unfold single? at hsingle
    split_ifs at hsingle
    all_goals contradiction

/-- White space and closed tokens other than functions start with a character that ends names and
numbers. -/
theorem exists_isBoundary_of_scan (hkind : t.kind ≠ .function)
    (hclosed : t.isClosed = true ∨ t.kind = .leaf .space)
    (h : scan (t.chars ++ rest) = some (t, rest)) :
    ∃ c chars, t.chars = c :: chars ∧ isBoundary c = true := by
  obtain ⟨-, hclassify⟩ := scan_eq_some_iff.1 h
  rcases hclosed with hclosed | hspace
  · obtain ⟨c, chars, hchars, hplain, -⟩ :=
      exists_isPlain_of_isClosed hclosed hkind (classify_cut hclassify (Nat.le_refl _))
    exact ⟨c, chars, hchars, isBoundary_of_isPlain hplain⟩
  · have hblank := allBlank_of_scan hspace h
    cases hchars : t.chars with
    | nil =>
        rw [hchars] at hclassify
        exact absurd rfl (ne_zero_of_classify hclassify)
    | cons c chars =>
        rw [hchars, Text.allBlank, List.all_cons, Bool.and_eq_true] at hblank
        exact ⟨c, chars, rfl, isBoundary_of_isPlain (isPlain_of_isBlank hblank.1)⟩

theorem scan_opening (cs : List Char) : scan ('(' :: cs) = some (⟨.opening, ['(']⟩, cs) := by
  have hplain : IsPlain '(' := ⟨by decide, by decide, by decide⟩
  exact scan_eq_some_iff.2 ⟨rfl, classify_single hplain (by decide) cs⟩

theorem scan_closing (cs : List Char) : scan (')' :: cs) = some (⟨.closing, [')']⟩, cs) := by
  have hplain : IsPlain ')' := ⟨by decide, by decide, by decide⟩
  exact scan_eq_some_iff.2 ⟨rfl, classify_single hplain (by decide) cs⟩

end Scans

end ContrastAudit.Token
