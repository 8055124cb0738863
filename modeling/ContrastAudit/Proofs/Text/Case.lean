import ContrastAudit.Proofs.Text.Trim
import ContrastAudit.Text.Case

/-!
# Lower case, piece by piece

The lower-case form of a character depends on its neighbours only for a sigma, and only as far as
the letters reach.  At a character that is no letter and no mark, a text can be cut and its parts be
lowered on their own.

The characters that give a value its structure, the quotes, parentheses and separators, are their
own lower-case forms and those of no other character.

**Results.**
* `lower_append_break`: at a character that is no letter and no mark, the parts of a text are
  lowered on their own.
* `recased_lower`: what lowering does to single characters.
-/

namespace ContrastAudit.Text

/-! ## Cutting a text -/

/-- Neither a letter with case nor a mark that is skipped when the neighbours of a sigma are
examined. -/
def isBreak (c : Char) : Bool :=
  !inRanges caseIgnorable c && !inRanges casedLetters c

section Breaks

variable {d : Char} (h : isBreak d = true)
include h

theorem casedAhead_append_break (cs ds : List Char) :
    casedAhead (cs ++ d :: ds) = casedAhead cs := by
  simp only [isBreak, Bool.and_eq_true, Bool.not_eq_true'] at h
  induction cs with
  | nil => simp [casedAhead, h]
  | cons c cs ih =>
      cases hc : inRanges caseIgnorable c with
      | true =>
          simp only [casedAhead, List.cons_append, List.dropWhile_cons_of_pos hc] at ih ⊢
          exact ih
      | false => simp [casedAhead, hc]

/-- What stands to the left of a break does not matter. -/
theorem lowerFrom_break (before far cs : List Char) :
    lowerFrom (before ++ d :: far) cs = lowerFrom before cs := by
  induction cs generalizing before with
  | nil => rfl
  | cons c cs ih =>
      rw [lowerFrom, lowerFrom, casedAhead_append_break h, ← List.cons_append, ih]

theorem lowerFrom_append_break (before cs ds : List Char) :
    lowerFrom before (cs ++ d :: ds) = lowerFrom before cs ++ lowerChar d :: lower ds := by
  induction cs generalizing before with
  | nil =>
      have hsigma : d ≠ 'Σ' := by
        rintro rfl
        exact absurd h (by decide +kernel)
      have hdotted : d ≠ 'İ' := by
        rintro rfl
        exact absurd h (by decide +kernel)
      have hrest := lowerFrom_break h [] before ds
      rw [List.nil_append] at hrest
      simp [lowerFrom, hsigma, hdotted, hrest, lower]
  | cons c cs ih =>
      rw [List.cons_append, lowerFrom, lowerFrom, casedAhead_append_break h, ih,
        List.append_assoc]

/-- The parts of a text on both sides of a break are lowered on their own. -/
theorem lower_append_break (cs ds : List Char) :
    lower (cs ++ d :: ds) = lower cs ++ lowerChar d :: lower ds :=
  lowerFrom_append_break h [] cs ds

end Breaks

/-- Breaks that are in lower case already are kept where a text is lowered around them. -/
theorem lower_append_breaks {bs : List Char}
    (h : (bs.all fun b => isBreak b && lowerChar b == b) = true) (hne : bs ≠ [])
    (cs ds : List Char) : lower (cs ++ (bs ++ ds)) = lower cs ++ (bs ++ lower ds) := by
  induction bs generalizing cs with
  | nil => exact absurd rfl hne
  | cons b bs ih =>
      simp only [List.all_cons, Bool.and_eq_true, beq_iff_eq] at h
      obtain ⟨⟨hbreak, hlower⟩, hbs⟩ := h
      rw [List.cons_append, lower_append_break hbreak, hlower, List.cons_append]
      by_cases hrest : bs = []
      · rw [hrest, List.nil_append, List.nil_append]
      · have hmore := ih hbs hrest []
        rw [List.nil_append, lower_nil, List.nil_append] at hmore
        rw [hmore]

/-! ## Single characters -/

/-- A character that gives a value no structure: no white space, quote, parenthesis, hash,
backslash, comma or slash. -/
def isOrdinary (c : Char) : Bool :=
  !isBlank c && !(['"', '\'', '(', ')', '#', '\\', ',', '/'].contains c)

theorem isOrdinary_iff {c : Char} :
    isOrdinary c = true ↔ isBlank c = false ∧ c ≠ '"' ∧ c ≠ '\'' ∧ c ≠ '(' ∧ c ≠ ')' ∧ c ≠ '#' ∧
      c ≠ '\\' ∧ c ≠ ',' ∧ c ≠ '/' := by
  simp [isOrdinary]

/-- Ranges of codes that are no characters or characters that may give a value structure. -/
def structural : List (Nat × Nat) :=
  [(0, 0x2F), (0x5C, 0x5C), (0x85, 0xA0), (0x1680, 0x1680), (0x2000, 0x205F), (0x3000, 0x3000),
    (0xD800, 0xDFFF)]

theorem isOrdinary_of_structural {c : Char}
    (h : ∀ s ∈ structural, c.toNat < s.1 ∨ s.2 < c.toNat) : isOrdinary c = true := by
  simp only [structural, List.forall_mem_cons, List.not_mem_nil, false_imp_iff, implies_true,
    and_true] at h
  have hblank : isBlank c = false := by
    simp only [isBlank, Bool.or_eq_false_iff, Bool.and_eq_false_iff, decide_eq_false_iff_not,
      beq_eq_false_iff_ne]
    omega
  refine isOrdinary_iff.2 ⟨hblank, ?_⟩
  refine ⟨?_, ?_, ?_, ?_, ?_, ?_, ?_, ?_⟩
  all_goals
    rintro rfl
    exact absurd h (by decide)

theorem isOrdinary_ofNat {n : Nat} (hn : n < 0x110000)
    (h : ∀ s ∈ structural, n < s.1 ∨ s.2 < n) : isOrdinary (Char.ofNat n) = true := by
  have hvalid : n.isValidChar := by
    have hsurrogates := h (0xD800, 0xDFFF) (by decide)
    simp only [Nat.isValidChar]
    omega
  have hcode : (Char.ofNat n).toNat = n := by
    rw [Char.ofNat, dif_pos hvalid]
    rfl
  refine isOrdinary_of_structural ?_
  rwa [hcode]

/-- Neither the capitals nor their lower-case forms are in one of these ranges. -/
theorem structural_capitals : ∀ r ∈ capitals,
    0 ≤ (r.1 : Int) + r.2.2.2 ∧ (r.2.1 : Int) + r.2.2.2 < 0x110000 ∧
      ∀ s ∈ structural, (r.2.1 < s.1 ∨ s.2 < r.1) ∧
        ((r.2.1 : Int) + r.2.2.2 < s.1 ∨ (s.2 : Int) < r.1 + r.2.2.2) := by
  decide +kernel

/-- What holds of 128 characters one by one holds of every character of ASCII. -/
theorem forall_ascii {p : Char → Prop} (h : ∀ n : Fin 128, p (Char.ofNat n)) {c : Char}
    (hc : c.toNat < 128) : p c := by
  have hchar := h ⟨c.toNat, hc⟩
  rwa [Char.ofNat_toNat] at hchar

theorem lowerChar_cases (c : Char) :
    lowerChar c = c ∨ isOrdinary c = true ∧ isOrdinary (lowerChar c) = true := by
  unfold lowerChar
  split
  · next hascii =>
      exact forall_ascii (p := fun c => c.toLower = c ∨
        isOrdinary c = true ∧ isOrdinary c.toLower = true) (by decide +kernel) hascii
  · split
    · next first last stride distance hfind =>
        have hrange := List.find?_some hfind
        simp only [Bool.and_eq_true, decide_eq_true_eq] at hrange
        obtain ⟨hfirst, hlast, hapart⟩ := structural_capitals _ (List.mem_of_find?_eq_some hfind)
        dsimp only at hfirst hlast hapart
        refine .inr ⟨isOrdinary_of_structural fun s hs => ?_,
          isOrdinary_ofNat (by omega) fun s hs => ?_⟩
        · obtain ⟨hcapital, -⟩ := hapart s hs
          omega
        · obtain ⟨-, hlower⟩ := hapart s hs
          omega
    · exact .inl rfl

theorem isNameChar_lowerChar {c : Char} (h : isNameChar c = true) :
    isNameChar (lowerChar c) = true := by
  have hascii : c.toNat < 128 := Nat.lt_of_le_of_lt (toNat_of_isNameChar h).2 (by decide)
  rw [lowerChar, if_pos hascii]
  exact forall_ascii (p := fun c => isNameChar c = true → isNameChar c.toLower = true)
    (by decide +kernel) hascii h

/-- Outside of ASCII only the Kelvin sign is the capital of a character of ASCII. -/
theorem ascii_capitals : ∀ r ∈ capitals,
    r.2.1 < 0x80 ∨ r.1 = 0x212A ∧ r.2.1 = 0x212A ∨ 0x80 ≤ (r.1 : Int) + r.2.2.2 := by
  decide +kernel

/-- The Kelvin sign is no character of names but becomes one. -/
theorem isNameChar_of_lowerChar {c : Char} (h : isNameChar (lowerChar c) = true) :
    isNameChar c = true ∨ c = '\u212A' := by
  unfold lowerChar at h
  split at h
  · next hascii =>
      exact .inl (forall_ascii (p := fun c => isNameChar c.toLower = true → isNameChar c = true)
        (by decide +kernel) hascii h)
  · split at h
    · next first last stride distance hfind =>
        have hrange := List.find?_some hfind
        simp only [Bool.and_eq_true, decide_eq_true_eq] at hrange
        have hcapital := ascii_capitals _ (List.mem_of_find?_eq_some hfind)
        dsimp only at hcapital
        have hsmall := toNat_of_isNameChar h
        rcases hcapital with hascii | ⟨hfirst, hlast⟩ | hfar
        · omega
        · exact .inr (Char.toNat_inj.1 (show c.toNat = 0x212A by omega))
        · by_cases hvalid : (Int.toNat (c.toNat + distance)).isValidChar
          · rw [Char.ofNat, dif_pos hvalid] at hsmall
            have hcode := hsmall.2
            change Int.toNat (c.toNat + distance) ≤ _ at hcode
            omega
          · rw [Char.ofNat, dif_neg hvalid] at h
            contradiction
    · exact .inl h

/-- What a character may become in lower case: itself, or ordinary characters in the place of an
ordinary one, where a name stays a name. -/
inductive RecasedChar (c : Char) : List Char → Prop
  | same : RecasedChar c [c]
  | ordinary {ds : List Char} (hc : isOrdinary c = true) (hds : ∀ d ∈ ds, isOrdinary d = true)
      (hne : ds ≠ []) (hname : isNameChar c = true → ∃ d, ds = [d] ∧ isNameChar d = true) :
      RecasedChar c ds

/-- A text whose characters are those that the characters of another one become in lower case. -/
inductive Recased : List Char → List Char → Prop
  | nil : Recased [] []
  | cons {c : Char} {cs ds es : List Char} :
      RecasedChar c ds → Recased cs es → Recased (c :: cs) (ds ++ es)

theorem recasedChar_lowerChar (c : Char) : RecasedChar c [lowerChar c] := by
  rcases lowerChar_cases c with hsame | ⟨hc, hlower⟩
  · rw [hsame]
    exact .same
  · exact .ordinary hc (by simpa using hlower) (List.cons_ne_nil _ _)
      fun hname => ⟨_, rfl, isNameChar_lowerChar hname⟩

/-- The characters that are none of a name but become some in lower case. -/
def falseNames : List Char :=
  ['\u212A', 'İ']

/-- What one character becomes in front of what the others do. -/
theorem exists_lowered (before : List Char) (c : Char) (cs : List Char) :
    ∃ ds, RecasedChar c ds ∧ lowerFrom before (c :: cs) = ds ++ lowerFrom (c :: before) cs ∧
      ∀ d ∈ ds.head?, isNameChar d = true → isNameChar c = true ∨ c ∈ falseNames := by
  rw [lowerFrom]
  refine ⟨_, ?_, rfl, ?_⟩
  · split
    · next hsigma =>
        subst hsigma
        refine .ordinary (by decide) ?_ (List.cons_ne_nil _ _) fun h => absurd h (by decide)
        exact List.all_eq_true.1 (by split <;> decide)
    split
    · next hdotted =>
        subst hdotted
        exact .ordinary (by decide) (List.all_eq_true.1 (by decide)) (List.cons_ne_nil _ _)
          fun h => absurd h (by decide)
    · exact recasedChar_lowerChar c
  · split
    · split
      all_goals
        rintro d ⟨⟩ hd
        contradiction
    split
    · next hdotted => exact fun _ _ _ => .inr (by simp [falseNames, hdotted])
    · rintro d ⟨⟩ hd
      rcases isNameChar_of_lowerChar hd with hname | hkelvin
      · exact .inl hname
      · exact .inr (by simp [falseNames, hkelvin])

theorem recased_lowerFrom (before cs : List Char) : Recased cs (lowerFrom before cs) := by
  induction cs generalizing before with
  | nil => exact .nil
  | cons c cs ih =>
      obtain ⟨ds, hc, heq, -⟩ := exists_lowered before c cs
      rw [heq]
      exact .cons hc (ih _)

theorem recased_lower (cs : List Char) : Recased cs (lower cs) :=
  recased_lowerFrom [] cs

theorem RecasedChar.isBlank {c : Char} {ds : List Char} (h : RecasedChar c ds)
    (hc : isBlank c = false) : ∀ d ∈ ds, isBlank d = false := by
  cases h with
  | same => simpa using hc
  | ordinary _ hds _ _ => exact fun d hd => (isOrdinary_iff.1 (hds d hd)).1

theorem RecasedChar.ne_nil {c : Char} {ds : List Char} (h : RecasedChar c ds) : ds ≠ [] := by
  cases h with
  | same => exact List.cons_ne_nil _ _
  | ordinary _ _ hne _ => exact hne

theorem Recased.ne_nil {cs ds : List Char} (h : Recased cs ds) (hne : cs ≠ []) : ds ≠ [] := by
  cases h with
  | nil => exact absurd rfl hne
  | cons hc _ => exact List.append_ne_nil_of_left_ne_nil hc.ne_nil _

/-- No blank at an end of a text comes from something else. -/
theorem Recased.isTrimmed {cs ds : List Char} (h : Recased cs ds) (hcs : IsTrimmed cs) :
    IsTrimmed ds := by
  obtain ⟨hhead, hlast⟩ := trim_eq_self_iff.1 hcs.trim_eq
  refine ⟨h.ne_nil hcs.ne_nil, trim_eq_self_iff.2 ⟨?_, ?_⟩⟩
  · cases h with
    | nil => simp
    | @cons c cs ds es hc _ =>
        intro d hd
        rw [List.head?_append_of_ne_nil _ hc.ne_nil] at hd
        exact hc.isBlank (hhead c rfl) d (List.mem_of_mem_head? hd)
  · clear hhead hcs
    induction h with
    | nil => simp
    | @cons c cs ds es hc hrest ih =>
        intro d hd
        by_cases hcs : cs = []
        · subst hcs
          cases hrest
          rw [List.append_nil] at hd
          exact hc.isBlank (hlast c rfl) d (List.mem_of_mem_getLast? hd)
        · rw [List.getLast?_append_of_ne_nil _ (hrest.ne_nil hcs)] at hd
          refine ih (fun e he => hlast e ?_) d hd
          rwa [List.getLast?_cons_of_ne_nil hcs]

/-! ## Hyphens -/

/-- Nothing but a hyphen becomes one. -/
theorem eq_hyphen_of_lowerChar {c : Char} (h : lowerChar c = '-') : c = '-' := by
  have hname : isNameChar (lowerChar c) = true := by
    rw [h]
    decide
  rcases isNameChar_of_lowerChar hname with hc | rfl
  · have hascii : c.toNat < 128 := Nat.lt_of_le_of_lt (toNat_of_isNameChar hc).2 (by decide)
    rw [lowerChar, if_pos hascii] at h
    exact forall_ascii (p := fun c => c.toLower = '-' → c = '-') (by decide +kernel) hascii h
  · exact absurd h (by decide +kernel)

theorem exists_hyphen_of_lowerFrom {before cs ds : List Char}
    (h : lowerFrom before cs = '-' :: ds) :
    ∃ rest, cs = '-' :: rest ∧ lowerFrom ('-' :: before) rest = ds := by
  cases cs with
  | nil => contradiction
  | cons c cs =>
      have hc : c = '-' := by
        rw [lowerFrom] at h
        split at h
        · have hhead := (List.cons.inj h).1
          split at hhead <;> exact absurd hhead (by decide)
        split at h
        · exact absurd (List.cons.inj h).1 (by decide)
        · exact eq_hyphen_of_lowerChar (List.cons.inj h).1
      subst hc
      exact ⟨cs, rfl, (List.cons.inj h).2⟩

end ContrastAudit.Text
