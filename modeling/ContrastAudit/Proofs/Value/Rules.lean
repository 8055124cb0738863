import ContrastAudit.Proofs.Value.Token

/-!
# What the rules for tokens take

A rule takes what it takes whatever follows in the text, unless what follows could be taken as well.
So a rule takes the same of a text that is cut behind what it takes, and a character that belongs to
no name and to no number ends what most rules take.

**Results.**
* `local_functionLength` up to `local_hashLength`: every rule is local.
* `functionLength_boundary` up to `hashLength_boundary`: no rule looks behind a boundary.
* `functionLength_le` up to `hashLength_le`: no rule takes more than there is.
-/

namespace ContrastAudit.Token

/-! ## Cutting a text -/

/-- What a rule takes is the same when the text is cut behind it. -/
def Local (rule : List Char → Nat) : Prop :=
  ∀ cs ds, rule (cs ++ ds) ≤ cs.length → rule cs = rule (cs ++ ds)

section Cuts

variable {p : Char → Bool}

theorem run_le (p : Char → Bool) (cs : List Char) : run p cs ≤ cs.length :=
  (List.takeWhile_prefix p).length_le

theorem run_append_of_lt {cs : List Char} (h : run p cs < cs.length) (ds : List Char) :
    run p (cs ++ ds) = run p cs := by
  have hne : (cs.takeWhile p).length ≠ cs.length := Nat.ne_of_lt h
  rw [run, run, List.takeWhile_append, if_neg hne]

theorem run_append_of_eq {cs : List Char} (h : run p cs = cs.length) (ds : List Char) :
    run p (cs ++ ds) = cs.length + run p ds := by
  have heq : (cs.takeWhile p).length = cs.length := h
  rw [run, List.takeWhile_append, if_pos heq, List.length_append, run]

theorem local_run : Local (run p) := by
  intro cs ds h
  rcases Nat.lt_or_eq_of_le (run_le p cs) with hlt | heq
  · exact (run_append_of_lt hlt ds).symm
  · rw [run_append_of_eq heq] at h ⊢
    omega

theorem Local.zero {rule : List Char → Nat} (h : Local rule) {cs ds : List Char}
    (hzero : rule (cs ++ ds) = 0) : rule cs = 0 :=
  (h cs ds (hzero ▸ Nat.zero_le _)).trans hzero

theorem nameLength_le (cs : List Char) : nameLength cs ≤ cs.length := by
  cases cs with
  | nil => exact Nat.le_refl 0
  | cons c cs =>
      have hrun := run_le Text.isNameChar cs
      rw [nameLength, List.length_cons]
      split <;> omega

theorem nameLength_append_of_lt {cs : List Char} (h : nameLength cs < cs.length)
    (ds : List Char) : nameLength (cs ++ ds) = nameLength cs := by
  cases cs with
  | nil => contradiction
  | cons c cs =>
      rw [nameLength, List.length_cons] at h
      rw [List.cons_append, nameLength, nameLength]
      split
      · next hc =>
          rw [if_pos hc] at h
          rw [run_append_of_lt (by omega)]
      · rfl

theorem local_nameLength : Local nameLength := by
  intro cs ds h
  rcases Nat.lt_or_eq_of_le (nameLength_le cs) with hlt | heq
  · exact (nameLength_append_of_lt hlt ds).symm
  · cases cs with
    | nil => exact (Nat.le_zero.1 h).symm
    | cons c cs =>
        rw [List.cons_append, nameLength] at h ⊢
        rw [nameLength]
        split
        · next hc =>
            rw [if_pos hc, List.length_cons] at h
            rw [local_run cs ds (by omega)]
        · rfl

/-- What the start of a function is made of. -/
theorem functionLength_eq_succ_iff {cs : List Char} {n : Nat} :
    functionLength cs = n + 1 ↔
      run (· == '-') cs ≤ 2 ∧ nameLength (cs.drop (run (· == '-') cs)) ≠ 0 ∧
        run (· == '-') cs + nameLength (cs.drop (run (· == '-') cs)) = n ∧
        (cs.drop n).head? = some '(' := by
  rw [functionLength]
  generalize run (· == '-') cs = hyphens
  generalize nameLength (cs.drop hyphens) = name
  split
  · next h =>
      simp only [Bool.and_eq_true, decide_eq_true_eq, bne_iff_ne, beq_iff_eq] at h
      constructor
      · intro heq
        obtain rfl : hyphens + name = n := Nat.succ.inj heq
        exact ⟨h.1.1, h.1.2, rfl, h.2⟩
      · rintro ⟨-, -, rfl, -⟩
        rfl
  · next h =>
      simp only [Bool.and_eq_true, decide_eq_true_eq, bne_iff_ne, beq_iff_eq] at h
      constructor
      · intro heq
        contradiction
      · rintro ⟨hle, hne, rfl, hhead⟩
        exact absurd ⟨⟨hle, hne⟩, hhead⟩ h

theorem lt_length_of_head?_drop {cs : List Char} {n : Nat} {c : Char}
    (h : (cs.drop n).head? = some c) : n < cs.length := by
  by_contra hle
  rw [List.drop_eq_nil_of_le (Nat.not_lt.1 hle)] at h
  contradiction

theorem head?_drop_append {cs : List Char} {n : Nat} (h : n < cs.length) (ds : List Char) :
    ((cs ++ ds).drop n).head? = (cs.drop n).head? := by
  rw [List.head?_drop, List.head?_drop, List.getElem?_append_left h]

/-- The start of a function is the same in a longer text. -/
theorem functionLength_append {cs : List Char} {n : Nat} (h : functionLength cs = n + 1)
    (ds : List Char) : functionLength (cs ++ ds) = n + 1 := by
  obtain ⟨hhyphens, hname, hlength, hhead⟩ := functionLength_eq_succ_iff.1 h
  have hlt := lt_length_of_head?_drop hhead
  have hrun : run (· == '-') (cs ++ ds) = run (· == '-') cs := run_append_of_lt (by omega) ds
  have hdrop : (cs ++ ds).drop (run (· == '-') cs) = cs.drop (run (· == '-') cs) ++ ds :=
    List.drop_append_of_le_length (run_le _ cs)
  have hsame : nameLength (cs.drop (run (· == '-') cs) ++ ds) =
      nameLength (cs.drop (run (· == '-') cs)) :=
    nameLength_append_of_lt (by rw [List.length_drop]; omega) ds
  refine functionLength_eq_succ_iff.2 ⟨hrun ▸ hhyphens, ?_, ?_, ?_⟩
  · rwa [hrun, hdrop, hsame]
  · rwa [hrun, hdrop, hsame]
  · rw [head?_drop_append hlt, hhead]

theorem local_functionLength : Local functionLength := by
  intro cs ds h
  cases hlong : functionLength (cs ++ ds) with
  | zero =>
      cases hshort : functionLength cs with
      | zero => rfl
      | succ n =>
          rw [functionLength_append hshort] at hlong
          contradiction
  | succ n =>
      rw [hlong] at h
      obtain ⟨hhyphens, hname, hlength, hhead⟩ := functionLength_eq_succ_iff.1 hlong
      have hrun : run (· == '-') cs = run (· == '-') (cs ++ ds) := local_run cs ds (by omega)
      rw [← hrun, List.drop_append_of_le_length (run_le _ cs)] at hname hlength
      have hsame := local_nameLength (cs.drop (run (· == '-') cs)) ds
        (by rw [List.length_drop]; omega)
      rw [← hsame] at hname hlength
      rw [head?_drop_append (by omega)] at hhead
      exact functionLength_eq_succ_iff.2 ⟨hrun ▸ hhyphens, hname, hlength, hhead⟩

theorem decimalLength_of_point {cs rest : List Char}
    (h : cs.drop (run Text.isDecimal cs) = '.' :: rest) :
    decimalLength cs =
      if run Text.isDecimal cs = 0 ∧ run Text.isDecimal rest = 0 then 0
      else run Text.isDecimal cs + 1 + run Text.isDecimal rest := by
  simp [decimalLength, h]

theorem decimalLength_of_head? {cs : List Char}
    (h : (cs.drop (run Text.isDecimal cs)).head? ≠ some '.') :
    decimalLength cs = run Text.isDecimal cs := by
  rw [decimalLength]
  split
  · next hpoint =>
      rw [hpoint] at h
      contradiction
  · rfl

theorem run_le_decimalLength (cs : List Char) : run Text.isDecimal cs ≤ decimalLength cs := by
  by_cases hpoint : (cs.drop (run Text.isDecimal cs)).head? = some '.'
  · obtain ⟨rest, hrest⟩ := List.head?_eq_some_iff.1 hpoint
    rw [decimalLength_of_point hrest]
    split <;> omega
  · exact Nat.le_of_eq (decimalLength_of_head? hpoint).symm

theorem decimalLength_le (cs : List Char) : decimalLength cs ≤ cs.length := by
  have hle := run_le Text.isDecimal cs
  by_cases hpoint : (cs.drop (run Text.isDecimal cs)).head? = some '.'
  · obtain ⟨rest, hrest⟩ := List.head?_eq_some_iff.1 hpoint
    have hfraction := run_le Text.isDecimal rest
    have hlength := congrArg List.length hrest
    rw [List.length_drop, List.length_cons] at hlength
    rw [decimalLength_of_point hrest]
    split <;> omega
  · rw [decimalLength_of_head? hpoint]
    exact hle

theorem local_decimalLength : Local decimalLength := by
  intro cs ds h
  have hle := run_le Text.isDecimal cs
  have hwhole : run Text.isDecimal (cs ++ ds) = run Text.isDecimal cs :=
    (local_run cs ds (Nat.le_trans (run_le_decimalLength _) h)).symm
  have hdrop : (cs ++ ds).drop (run Text.isDecimal (cs ++ ds)) =
      cs.drop (run Text.isDecimal cs) ++ ds := by
    rw [hwhole, List.drop_append_of_le_length hle]
  have hlength := List.length_drop (i := run Text.isDecimal cs) (l := cs)
  by_cases hpoint : ((cs ++ ds).drop (run Text.isDecimal (cs ++ ds))).head? = some '.'
  · obtain ⟨rest, hrest⟩ := List.head?_eq_some_iff.1 hpoint
    have hlong := decimalLength_of_point hrest
    rw [hwhole] at hlong
    cases hbehind : cs.drop (run Text.isDecimal cs) with
    | nil =>
        rw [hbehind, List.length_nil] at hlength
        rw [decimalLength_of_head? (by simp [hbehind]), hlong]
        rw [hlong] at h
        split_ifs at h ⊢ <;> omega
    | cons c behind =>
        rw [hdrop, hbehind, List.cons_append, List.cons.injEq] at hrest
        obtain ⟨rfl, rfl⟩ := hrest
        rw [hbehind, List.length_cons] at hlength
        have hfraction : run Text.isDecimal behind = run Text.isDecimal (behind ++ ds) := by
          refine local_run behind ds ?_
          rw [hlong] at h
          split_ifs at h <;> omega
        rw [decimalLength_of_point hbehind, hlong, hfraction]
  · have hshort : (cs.drop (run Text.isDecimal cs)).head? ≠ some '.' := by
      intro hhead
      obtain ⟨rest, hrest⟩ := List.head?_eq_some_iff.1 hhead
      rw [hdrop, hrest] at hpoint
      exact hpoint rfl
    rw [decimalLength_of_head? hpoint, decimalLength_of_head? hshort, hwhole]

theorem local_unitLength : Local unitLength := by
  intro cs ds h
  cases cs with
  | nil => exact (Nat.le_zero.1 h).symm
  | cons c cs =>
      by_cases hc : c = '%'
      · subst hc
        rfl
      · have hunit : ∀ rest, unitLength (c :: rest) = run Text.isAsciiLetter (c :: rest) := by
          intro rest
          rw [unitLength]
          rintro rest' ⟨⟩
          exact hc rfl
        rw [List.cons_append, hunit] at h
        rw [List.cons_append, hunit, hunit]
        exact local_run (c :: cs) ds h

theorem signLength_le (cs : List Char) : signLength cs ≤ cs.length := by
  fun_cases signLength cs <;> simp

theorem signLength_cons (c : Char) (cs ds : List Char) :
    signLength (c :: cs) = signLength (c :: ds) := by
  by_cases hplus : c = '+'
  · subst hplus
    rfl
  · by_cases hminus : c = '-'
    · subst hminus
      rfl
    · simp [signLength, hplus, hminus]

theorem numberLength_of_zero {cs : List Char}
    (h : decimalLength (cs.drop (signLength cs)) = 0) : numberLength cs = 0 :=
  if_pos h

theorem numberLength_of_ne_zero {cs : List Char}
    (h : decimalLength (cs.drop (signLength cs)) ≠ 0) :
    numberLength cs = signLength cs + decimalLength (cs.drop (signLength cs)) +
      unitLength (cs.drop (signLength cs + decimalLength (cs.drop (signLength cs)))) :=
  if_neg h

theorem decimalLength_of_not {c : Char} (hdecimal : Text.isDecimal c = false) (hpoint : c ≠ '.')
    (cs : List Char) : decimalLength (c :: cs) = 0 := by
  have hrun : run Text.isDecimal (c :: cs) = 0 := by simp [run, hdecimal]
  rw [decimalLength_of_head?, hrun]
  rw [hrun, List.drop_zero, List.head?_cons]
  exact fun h => hpoint (Option.some.inj h)

theorem local_numberLength : Local numberLength := by
  intro cs ds h
  cases cs with
  | nil => exact (Nat.le_zero.1 h).symm
  | cons c cs =>
      have hsign : signLength (c :: cs ++ ds) = signLength (c :: cs) := signLength_cons c _ _
      have hle := signLength_le (c :: cs)
      have hdrop : (c :: cs ++ ds).drop (signLength (c :: cs)) =
          (c :: cs).drop (signLength (c :: cs)) ++ ds := List.drop_append_of_le_length hle
      have hlength := List.length_drop (i := signLength (c :: cs)) (l := c :: cs)
      by_cases hdecimal : decimalLength ((c :: cs).drop (signLength (c :: cs)) ++ ds) = 0
      · rw [numberLength_of_zero (local_decimalLength.zero hdecimal),
          numberLength_of_zero (by rw [hsign, hdrop, hdecimal])]
      · have hlong := @numberLength_of_ne_zero (c :: cs ++ ds) (by rwa [hsign, hdrop])
        rw [hsign, hdrop] at hlong
        have hsame := local_decimalLength ((c :: cs).drop (signLength (c :: cs))) ds (by omega)
        rw [← hsame] at hlong hdecimal
        rw [hlong] at h
        rw [List.drop_append_of_le_length (by omega)] at h hlong
        have hunit := local_unitLength ((c :: cs).drop (signLength (c :: cs) +
          decimalLength ((c :: cs).drop (signLength (c :: cs))))) ds
            (by rw [List.length_drop]; omega)
        rw [hlong, numberLength_of_ne_zero hdecimal, hunit]

/-- A word that starts with two hyphens. -/
theorem wordLength_hyphens (cs : List Char) :
    wordLength ('-' :: '-' :: cs) = after 2 (run Text.isNameChar cs) := by
  simp only [wordLength]
  split
  · rfl
  · next h =>
      rw [not_not] at h
      rw [h]
      rfl

/-- A word without a hyphen in front is a name, and may have one hyphen in front of it. -/
theorem wordLength_of_head? {cs : List Char} (h : cs.head? ≠ some '-') :
    wordLength cs = nameLength cs ∧ wordLength ('-' :: cs) = after 1 (nameLength cs) := by
  cases cs with
  | nil => exact ⟨rfl, rfl⟩
  | cons c cs =>
      have hc : c ≠ '-' := fun heq => h (congrArg some heq)
      simp [wordLength, hc]

theorem le_of_after_le (front : Nat) {n m : Nat} (h : after front n ≤ front + m) : n ≤ m := by
  by_cases hzero : n = 0
  · omega
  · rw [after, if_neg hzero] at h
    omega

theorem Local.after {rule : List Char → Nat} (hrule : Local rule) (front : Nat)
    {cs ds : List Char} (h : Token.after front (rule (cs ++ ds)) ≤ front + cs.length) :
    Token.after front (rule cs) = Token.after front (rule (cs ++ ds)) := by
  rw [hrule cs ds (le_of_after_le front h)]

/-- With how many hyphens a text starts, as far as words care. -/
theorem hyphens_cases (cs : List Char) :
    cs = [] ∨ cs = ['-'] ∨ (∃ es, cs = '-' :: '-' :: es) ∨
      (∃ d es, cs = '-' :: d :: es ∧ d ≠ '-') ∨ ∃ d es, cs = d :: es ∧ d ≠ '-' := by
  match cs with
  | [] => exact .inl rfl
  | [c] =>
      by_cases hc : c = '-'
      · exact .inr (.inl (hc ▸ rfl))
      · exact .inr (.inr (.inr (.inr ⟨c, [], rfl, hc⟩)))
  | c :: d :: es =>
      by_cases hc : c = '-'
      · subst hc
        by_cases hd : d = '-'
        · exact .inr (.inr (.inl ⟨es, hd ▸ rfl⟩))
        · exact .inr (.inr (.inr (.inl ⟨d, es, rfl, hd⟩)))
      · exact .inr (.inr (.inr (.inr ⟨c, d :: es, rfl, hc⟩)))

theorem head?_ne {c d : Char} (h : d ≠ c) (cs : List Char) : (d :: cs).head? ≠ some c :=
  fun heq => h (Option.some.inj heq)

theorem local_wordLength : Local wordLength := by
  intro cs ds h
  rcases hyphens_cases cs with rfl | rfl | ⟨es, rfl⟩ | ⟨d, es, rfl, hd⟩ | ⟨d, es, rfl, hd⟩
  · exact (Nat.le_zero.1 h).symm
  · have hzero : wordLength ('-' :: ds) = 0 := by
      rw [List.singleton_append, List.length_singleton] at h
      by_cases hds : ds.head? = some '-'
      · obtain ⟨es, rfl⟩ := List.head?_eq_some_iff.1 hds
        rw [wordLength_hyphens] at h ⊢
        exact after_eq_zero_iff.2 (Nat.le_zero.1 (le_of_after_le 2 (by omega)))
      · rw [(wordLength_of_head? hds).2] at h ⊢
        exact after_eq_zero_iff.2 (Nat.le_zero.1 (le_of_after_le 1 h))
    exact hzero.symm
  · rw [List.cons_append, List.cons_append, wordLength_hyphens, List.length_cons,
      List.length_cons] at h
    rw [List.cons_append, List.cons_append, wordLength_hyphens, wordLength_hyphens]
    exact local_run.after 2 (by omega)
  · have hlong : wordLength ('-' :: d :: es ++ ds) = after 1 (nameLength (d :: es ++ ds)) :=
      (wordLength_of_head? (head?_ne hd _)).2
    rw [hlong, List.length_cons] at h
    rw [hlong, (wordLength_of_head? (head?_ne hd _)).2]
    exact local_nameLength.after 1 (by omega)
  · rw [List.cons_append, (wordLength_of_head? (head?_ne hd _)).1] at h ⊢
    rw [(wordLength_of_head? (head?_ne hd _)).1]
    exact local_nameLength (d :: es) ds h

section Strings

variable {quote c : Char} {cs : List Char}

theorem stringRest_quote (quote : Char) (cs : List Char) : stringRest quote (quote :: cs) = 1 := by
  rw [stringRest.eq_def]
  simp

theorem stringRest_escape (hquote : '\\' ≠ quote) (hc : c ≠ '\n') (cs : List Char) :
    stringRest quote ('\\' :: c :: cs) = after 2 (stringRest quote cs) := by
  rw [stringRest.eq_def]
  simp [hquote, hc]

theorem stringRest_break (hquote : '\\' ≠ quote) (cs : List Char) :
    stringRest quote ('\\' :: '\n' :: cs) = 0 := by
  rw [stringRest.eq_def]
  simp [hquote]

theorem stringRest_char (hquote : c ≠ quote) (hc : c ≠ '\\') (cs : List Char) :
    stringRest quote (c :: cs) = after 1 (stringRest quote cs) := by
  rw [stringRest.eq_def]
  simp [hquote, hc]

/-- A string that ends in a text is the same in a longer one. -/
theorem stringRest_append (h : stringRest quote cs ≠ 0) (ds : List Char) :
    stringRest quote (cs ++ ds) = stringRest quote cs := by
  fun_induction stringRest quote cs with
  | case1 => contradiction
  | case2 cs => exact stringRest_quote quote _
  | case3 => contradiction
  | case4 => contradiction
  | case5 d es hd hne ih =>
      rw [List.cons_append, List.cons_append, stringRest_escape hne hd, ih (after_ne_zero h).1]
  | case6 d es hquote hbackslash ih =>
      rw [List.cons_append, stringRest_char hquote hbackslash, ih (after_ne_zero h).1]

theorem local_stringRest : Local (stringRest quote) := by
  intro cs ds h
  fun_induction stringRest quote cs with
  | case1 => exact (Nat.le_zero.1 h).symm
  | case2 cs => exact (stringRest_quote quote _).symm
  | case3 hne =>
      rw [List.singleton_append, List.length_singleton] at h
      rw [List.singleton_append]
      cases ds with
      | nil => simp [stringRest, hne]
      | cons d ds =>
          by_cases hd : d = '\n'
          · rw [hd, stringRest_break hne]
          · rw [stringRest_escape hne hd] at h ⊢
            exact (after_eq_zero_iff.2 (Nat.le_zero.1 (le_of_after_le 2 (by omega)))).symm
  | case4 es hne => exact (stringRest_break hne _).symm
  | case5 d es hd hne ih =>
      rw [List.cons_append, List.cons_append, stringRest_escape hne hd, List.length_cons,
        List.length_cons] at h
      rw [List.cons_append, List.cons_append, stringRest_escape hne hd,
        ih (le_of_after_le 2 (by omega))]
  | case6 d es hquote hbackslash ih =>
      rw [List.cons_append, stringRest_char hquote hbackslash, List.length_cons] at h
      rw [List.cons_append, stringRest_char hquote hbackslash, ih (le_of_after_le 1 (by omega))]

theorem stringLength_of_quote (hquote : quote = '"' ∨ quote = '\'') (cs : List Char) :
    stringLength (quote :: cs) = after 1 (stringRest quote cs) :=
  if_pos hquote

theorem stringLength_of_not_quote (hc : ¬(c = '"' ∨ c = '\'')) (cs : List Char) :
    stringLength (c :: cs) = 0 :=
  if_neg hc

theorem local_stringLength : Local stringLength := by
  intro cs ds h
  cases cs with
  | nil => exact (Nat.le_zero.1 h).symm
  | cons c cs =>
      by_cases hc : c = '"' ∨ c = '\''
      · rw [List.cons_append, stringLength_of_quote hc, List.length_cons] at h
        rw [List.cons_append, stringLength_of_quote hc, stringLength_of_quote hc]
        exact local_stringRest.after 1 (by omega)
      · rw [List.cons_append, stringLength_of_not_quote hc, stringLength_of_not_quote hc]

end Strings

theorem local_hashLength : Local hashLength := by
  intro cs ds h
  cases cs with
  | nil => exact (Nat.le_zero.1 h).symm
  | cons c cs =>
      by_cases hc : c = '#'
      · subst hc
        exact local_run.after 1 (by simpa [hashLength, Nat.add_comm] using h)
      · simp [hashLength, hc]

end Cuts

/-! ## Characters that end names and numbers -/

/-- A character that belongs to no name and to no decimal. -/
def isBoundary (c : Char) : Bool :=
  !Text.isNameChar c && !Text.isDecimal c && c != '.'

/-- A character that is added to no token in front of it. -/
def isStop (c : Char) : Bool :=
  isBoundary c && c != '(' && c != '%'

section Boundaries

variable {c : Char} {cs : List Char}

theorem isBoundary_of_isStop (h : isStop c = true) : isBoundary c = true := by
  simp only [isStop, Bool.and_eq_true] at h
  exact h.1.1

/-- What the rules ask about a character is no of such a one. -/
theorem isBoundary_iff :
    isBoundary c = true ↔ Text.isNameChar c = false ∧ Text.isDecimal c = false ∧ c ≠ '.' := by
  simp [isBoundary, and_assoc]

theorem isNameStart_of_isBoundary (h : isBoundary c = true) : Text.isNameStart c = false := by
  by_contra hstart
  rw [Bool.not_eq_false] at hstart
  rw [isBoundary_iff, Text.isNameChar_of_isNameStart hstart] at h
  exact absurd h.1 (by decide)

theorem ne_hyphen_of_isBoundary (h : isBoundary c = true) : c ≠ '-' := by
  rintro rfl
  contradiction

theorem run_boundary {p : Char → Bool} (hc : p c = false) (cs ds : List Char) :
    run p (cs ++ c :: ds) = run p cs := by
  rcases Nat.lt_or_eq_of_le (run_le p cs) with hlt | heq
  · exact run_append_of_lt hlt _
  · rw [run_append_of_eq heq, heq]
    simp [run, hc]

theorem nameLength_boundary (h : isBoundary c = true) (cs ds : List Char) :
    nameLength (cs ++ c :: ds) = nameLength cs := by
  cases cs with
  | nil => simp [nameLength, isNameStart_of_isBoundary h]
  | cons d cs =>
      rw [List.cons_append, nameLength, nameLength, run_boundary (isBoundary_iff.1 h).1]

theorem functionLength_boundary (h : isBoundary c = true) (cs ds : List Char) :
    functionLength (cs ++ c :: ds) = functionLength (cs ++ [c]) := by
  have hhyphen : (c == '-') = false := beq_false_of_ne (ne_hyphen_of_isBoundary h)
  have hle := run_le (· == '-') cs
  have hname := nameLength_le (cs.drop (run (· == '-') cs))
  rw [List.length_drop] at hname
  have hhead : ((cs ++ c :: ds).drop
      (run (· == '-') cs + nameLength (cs.drop (run (· == '-') cs)))).head? =
      ((cs ++ [c]).drop (run (· == '-') cs + nameLength (cs.drop (run (· == '-') cs)))).head? := by
    have hlt : run (· == '-') cs + nameLength (cs.drop (run (· == '-') cs)) <
        (cs ++ [c]).length := by
      rw [List.length_append, List.length_singleton]
      omega
    rw [← head?_drop_append hlt ds, List.append_assoc, List.singleton_append]
  have hrun : ∀ es, run (· == '-') (cs ++ c :: es) = run (· == '-') cs :=
    fun es => @run_boundary c (· == '-') hhyphen cs es
  simp only [functionLength, hrun, List.drop_append_of_le_length hle, nameLength_boundary h,
    hhead]

theorem decimalLength_boundary (h : isBoundary c = true) (cs ds : List Char) :
    decimalLength (cs ++ c :: ds) = decimalLength cs := by
  obtain ⟨-, hdecimal, hpoint⟩ := isBoundary_iff.1 h
  have hrun := run_boundary hdecimal cs ds
  have hdrop : (cs ++ c :: ds).drop (run Text.isDecimal (cs ++ c :: ds)) =
      cs.drop (run Text.isDecimal cs) ++ c :: ds := by
    rw [hrun, List.drop_append_of_le_length (run_le _ cs)]
  by_cases hhead : (cs.drop (run Text.isDecimal cs)).head? = some '.'
  · obtain ⟨rest, hrest⟩ := List.head?_eq_some_iff.1 hhead
    rw [hrest, List.cons_append] at hdrop
    rw [decimalLength_of_point hrest, decimalLength_of_point hdrop, hrun, run_boundary hdecimal]
  · have hlong : ((cs ++ c :: ds).drop (run Text.isDecimal (cs ++ c :: ds))).head? ≠ some '.' := by
      rw [hdrop]
      cases hbehind : cs.drop (run Text.isDecimal cs) with
      | nil => exact fun heq => hpoint (Option.some.inj heq)
      | cons d rest =>
          rw [hbehind] at hhead
          exact hhead
    rw [decimalLength_of_head? hlong, decimalLength_of_head? hhead, hrun]

theorem unitLength_of_head? {cs : List Char} (h : cs.head? ≠ some '%') :
    unitLength cs = run Text.isAsciiLetter cs := by
  rw [unitLength]
  rintro rest rfl
  exact h rfl

theorem isAsciiLetter_of_isBoundary (h : isBoundary c = true) : Text.isAsciiLetter c = false := by
  have hname := (isBoundary_iff.1 h).1
  simp only [Text.isNameChar, Bool.or_eq_false_iff] at hname
  exact hname.1.1.1

theorem unitLength_boundary (h : isBoundary c = true) (cs ds : List Char) :
    unitLength (cs ++ c :: ds) = unitLength (cs ++ [c]) := by
  have hletter := isAsciiLetter_of_isBoundary h
  by_cases hhead : (cs ++ [c]).head? = some '%'
  · have hpercent : ∀ es, unitLength (cs ++ c :: es) = 1 := by
      intro es
      cases cs with
      | nil =>
          obtain rfl : c = '%' := Option.some.inj hhead
          rfl
      | cons d cs =>
          obtain rfl : d = '%' := Option.some.inj hhead
          rfl
    rw [hpercent, hpercent]
  · have hlong : (cs ++ c :: ds).head? ≠ some '%' := by
      cases cs <;> exact hhead
    rw [unitLength_of_head? hlong, unitLength_of_head? hhead, run_boundary hletter,
      run_boundary hletter]

theorem unitLength_stop (h : isStop c = true) (cs ds : List Char) :
    unitLength (cs ++ c :: ds) = unitLength cs := by
  have hletter := isAsciiLetter_of_isBoundary (isBoundary_of_isStop h)
  have hc : c ≠ '%' := by
    rintro rfl
    contradiction
  by_cases hhead : cs.head? = some '%'
  · obtain ⟨rest, rfl⟩ := List.head?_eq_some_iff.1 hhead
    rfl
  · have hlong : (cs ++ c :: ds).head? ≠ some '%' := by
      cases cs with
      | nil => exact head?_ne hc ds
      | cons d cs => exact hhead
    rw [unitLength_of_head? hlong, unitLength_of_head? hhead, run_boundary hletter]

/-- Only the unit of a number may take the character that ends it. -/
theorem numberLength_append (h : isBoundary c = true) (hne : cs ≠ []) (ds : List Char) :
    numberLength (cs ++ c :: ds) =
      if decimalLength (cs.drop (signLength cs)) = 0 then 0
      else signLength cs + decimalLength (cs.drop (signLength cs)) +
        unitLength (cs.drop (signLength cs + decimalLength (cs.drop (signLength cs))) ++
          c :: ds) := by
  have hsign : signLength (cs ++ c :: ds) = signLength cs := by
    obtain ⟨d, cs, rfl⟩ := List.exists_cons_of_ne_nil hne
    exact signLength_cons d _ _
  have hle := signLength_le cs
  have hshorter := decimalLength_le (cs.drop (signLength cs))
  rw [List.length_drop] at hshorter
  simp only [numberLength]
  rw [hsign, List.drop_append_of_le_length hle, decimalLength_boundary h,
    List.drop_append_of_le_length (by omega)]

theorem numberLength_boundary (h : isBoundary c = true) (hne : cs ≠ []) (ds : List Char) :
    numberLength (cs ++ c :: ds) = numberLength (cs ++ [c]) := by
  rw [numberLength_append h hne, numberLength_append h hne, unitLength_boundary h]

theorem numberLength_stop (h : isStop c = true) (hne : cs ≠ []) (ds : List Char) :
    numberLength (cs ++ c :: ds) = numberLength cs := by
  rw [numberLength_append (isBoundary_of_isStop h) hne, unitLength_stop h]
  rfl

theorem functionLength_stop (h : isStop c = true) (cs ds : List Char) :
    functionLength (cs ++ c :: ds) = functionLength cs := by
  have hc : c ≠ '(' := by
    rintro rfl
    contradiction
  rw [functionLength_boundary (isBoundary_of_isStop h)]
  refine (local_functionLength cs [c] ?_).symm
  cases hlength : functionLength (cs ++ [c]) with
  | zero => exact Nat.zero_le _
  | succ n =>
      obtain ⟨-, -, -, hhead⟩ := functionLength_eq_succ_iff.1 hlength
      have hlt := lt_length_of_head?_drop hhead
      rw [List.length_append, List.length_singleton] at hlt
      by_contra hle
      obtain rfl : n = cs.length := by omega
      rw [List.drop_left] at hhead
      exact head?_ne hc [] hhead

theorem wordLength_boundary (h : isBoundary c = true) (cs ds : List Char) :
    wordLength (cs ++ c :: ds) = wordLength cs := by
  have hc := head?_ne (ne_hyphen_of_isBoundary h)
  rcases hyphens_cases cs with rfl | rfl | ⟨es, rfl⟩ | ⟨d, es, rfl, hd⟩ | ⟨d, es, rfl, hd⟩
  · rw [List.nil_append, (wordLength_of_head? (hc ds)).1]
    exact nameLength_boundary h [] ds
  · rw [List.singleton_append, (wordLength_of_head? (hc ds)).2]
    exact congrArg (after 1) (nameLength_boundary h [] ds)
  · rw [List.cons_append, List.cons_append, wordLength_hyphens, wordLength_hyphens,
      run_boundary (isBoundary_iff.1 h).1]
  · have hlong : wordLength ('-' :: d :: es ++ c :: ds) =
        after 1 (nameLength (d :: es ++ c :: ds)) := (wordLength_of_head? (head?_ne hd _)).2
    rw [hlong, nameLength_boundary h, (wordLength_of_head? (head?_ne hd _)).2]
  · have hlong : wordLength (d :: es ++ c :: ds) = nameLength (d :: es ++ c :: ds) :=
      (wordLength_of_head? (head?_ne hd _)).1
    rw [hlong, nameLength_boundary h, (wordLength_of_head? (head?_ne hd _)).1]

theorem hashLength_boundary (h : isBoundary c = true) (hne : cs ≠ []) (ds : List Char) :
    hashLength (cs ++ c :: ds) = hashLength cs := by
  obtain ⟨d, cs, rfl⟩ := List.exists_cons_of_ne_nil hne
  by_cases hd : d = '#'
  · subst hd
    simp [hashLength, run_boundary (isBoundary_iff.1 h).1]
  · simp [hashLength, hd]

end Boundaries

/-! ## Bounds -/

section Bounds

variable (cs : List Char)

theorem functionLength_le : functionLength cs ≤ cs.length := by
  cases h : functionLength cs with
  | zero => exact Nat.zero_le _
  | succ n =>
      obtain ⟨-, -, -, hhead⟩ := functionLength_eq_succ_iff.1 h
      exact lt_length_of_head?_drop hhead

theorem unitLength_le : unitLength cs ≤ cs.length := by
  by_cases hhead : cs.head? = some '%'
  · obtain ⟨rest, rfl⟩ := List.head?_eq_some_iff.1 hhead
    exact Nat.succ_le_succ (Nat.zero_le _)
  · rw [unitLength_of_head? hhead]
    exact run_le _ cs

theorem numberLength_le : numberLength cs ≤ cs.length := by
  have hdecimal := decimalLength_le (cs.drop (signLength cs))
  have hunit := unitLength_le (cs.drop (signLength cs + decimalLength (cs.drop (signLength cs))))
  have hsign := signLength_le cs
  rw [List.length_drop] at hdecimal hunit
  simp only [numberLength]
  split <;> omega

theorem after_le (front : Nat) {n m : Nat} (h : n ≤ m) : after front n ≤ front + m := by
  unfold after
  split <;> omega

theorem wordLength_le : wordLength cs ≤ cs.length := by
  rcases hyphens_cases cs with rfl | rfl | ⟨es, rfl⟩ | ⟨d, es, rfl, hd⟩ | ⟨d, es, rfl, hd⟩
  · exact Nat.le_refl 0
  · exact Nat.zero_le _
  · have hle := after_le 2 (run_le Text.isNameChar es)
    rw [wordLength_hyphens, List.length_cons, List.length_cons]
    omega
  · have hle := after_le 1 (nameLength_le (d :: es))
    rw [(wordLength_of_head? (head?_ne hd es)).2, List.length_cons]
    omega
  · rw [(wordLength_of_head? (head?_ne hd es)).1]
    exact nameLength_le _

theorem stringRest_le (quote : Char) : stringRest quote cs ≤ cs.length := by
  fun_induction stringRest quote cs with
  | case1 | case3 | case4 => exact Nat.zero_le _
  | case2 => exact Nat.succ_le_succ (Nat.zero_le _)
  | case5 d es hd hne ih =>
      have hle := after_le 2 ih
      simp only [List.length_cons]
      omega
  | case6 d es hquote hbackslash ih =>
      have hle := after_le 1 ih
      simp only [List.length_cons]
      omega

theorem stringLength_le : stringLength cs ≤ cs.length := by
  cases cs with
  | nil => exact Nat.le_refl 0
  | cons c cs =>
      by_cases hc : c = '"' ∨ c = '\''
      · have hle := after_le 1 (stringRest_le cs c)
        rw [stringLength_of_quote hc, List.length_cons]
        omega
      · rw [stringLength_of_not_quote hc]
        exact Nat.zero_le _

theorem hashLength_le : hashLength cs ≤ cs.length := by
  fun_cases hashLength cs with
  | case1 cs =>
      have hle := after_le 1 (run_le Text.isNameChar cs)
      rw [List.length_cons]
      omega
  | case2 => exact Nat.zero_le _

end Bounds

end ContrastAudit.Token
