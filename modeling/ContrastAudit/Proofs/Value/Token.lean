import Mathlib.Data.List.TakeWhile
import ContrastAudit.Value.Token

/-!
# How tokens are written

What a token is tells what its text looks like: the start of a function is a name with its
parenthesis, a hash is the sign with a name, a string ends at the first quote that no backslash
hides, and no other token holds one of the characters that quote, nest or start a hash.

**Results.**
* `isWritten_of_mem_tokens`: every token of a text is written that way.
* `stuck_of_scan_eq_none`: where no token starts there is a quote that is never closed or a lone
  `#`.
-/

namespace ContrastAudit.Token

/-- The characters that quote, nest or start a hash. -/
def special : List Char :=
  ['"', '\'', '(', ')', '#']

theorem not_mem_special {p : Char → Bool} (hp : special.any p = false) {c : Char}
    (hc : p c = true) : c ∉ special :=
  fun hmem => List.any_eq_false.1 hp c hmem hc

/-- The rest of a string behind its opening quote. -/
inductive EndsString (quote : Char) : List Char → Prop
  | close : EndsString quote [quote]
  | escape {c : Char} {cs : List Char} :
      c ≠ '\n' → EndsString quote cs → EndsString quote ('\\' :: c :: cs)
  | char {c : Char} {cs : List Char} :
      c ≠ quote → c ≠ '\\' → EndsString quote cs → EndsString quote (c :: cs)

/-- The text of a token fits its kind. -/
inductive IsWritten : Token → Prop
  | function {name : List Char} :
      (∀ c ∈ name, Text.isNameChar c = true) → IsWritten ⟨.function, name ++ ['(']⟩
  | opening : IsWritten ⟨.opening, ['(']⟩
  | closing : IsWritten ⟨.closing, [')']⟩
  | hash {c : Char} {name : List Char} :
      (∀ d ∈ c :: name, Text.isNameChar d = true) → IsWritten ⟨.leaf .hash, '#' :: c :: name⟩
  | string {quote : Char} {rest : List Char} :
      quote = '"' ∨ quote = '\'' → EndsString quote rest →
      IsWritten ⟨.leaf .string, quote :: rest⟩
  | calm {kind : LeafKind} {chars : List Char} :
      (∀ c ∈ chars, c ∉ special) → IsWritten ⟨.leaf kind, chars⟩

/-- Only the tokens that open and close something have a kind that tells their text. -/
theorem IsWritten.nesting {t : Token} (h : t.IsWritten) :
    (∃ name, t = ⟨.function, name ++ ['(']⟩) ∨ t = ⟨.opening, ['(']⟩ ∨ t = ⟨.closing, [')']⟩ ∨
      ∃ kind chars, t = ⟨.leaf kind, chars⟩ := by
  cases h with
  | function hname => exact .inl ⟨_, rfl⟩
  | opening => exact .inr (.inl rfl)
  | closing => exact .inr (.inr (.inl rfl))
  | hash hname => exact .inr (.inr (.inr ⟨_, _, rfl⟩))
  | string hquote hends => exact .inr (.inr (.inr ⟨_, _, rfl⟩))
  | calm hchars => exact .inr (.inr (.inr ⟨_, _, rfl⟩))

@[simp] theorem text_cons (t : Token) (ts : List Token) : text (t :: ts) = t.chars ++ text ts :=
  List.flatMap_cons

/-! ## What the rules take -/

section Lengths

variable {cs : List Char} {c : Char}

theorem mem_take_run {p : Char → Bool} (h : c ∈ cs.take (run p cs)) : p c = true := by
  rw [run, ← List.prefix_iff_eq_take.1 (List.takeWhile_prefix p)] at h
  exact List.mem_takeWhile_imp h

/-- What is taken in two parts is in the first or in the second. -/
theorem mem_take_add {m n : Nat} (h : c ∈ cs.take (m + n)) :
    c ∈ cs.take m ∨ c ∈ (cs.drop m).take n := by
  rwa [List.take_add, List.mem_append] at h

theorem mem_take_succ {d : Char} {n : Nat} (h : c ∈ (d :: cs).take (1 + n)) :
    c = d ∨ c ∈ cs.take n := by
  rwa [Nat.add_comm, List.take_succ_cons, List.mem_cons] at h

theorem after_eq_zero_iff {front taken : Nat} : after front taken = 0 ↔ taken = 0 := by
  unfold after
  split <;> omega

theorem after_ne_zero {front taken : Nat} (h : after front taken ≠ 0) :
    taken ≠ 0 ∧ after front taken = front + taken := by
  have htaken : taken ≠ 0 := fun hzero => h (after_eq_zero_iff.2 hzero)
  exact ⟨htaken, if_neg htaken⟩

theorem mem_take_after {front taken : Nat} (h : c ∈ cs.take (after front taken)) :
    c ∈ cs.take (front + taken) := by
  unfold after at h
  split at h
  · simp at h
  · exact h

theorem isNameChar_of_mem_nameLength (h : c ∈ cs.take (nameLength cs)) :
    Text.isNameChar c = true := by
  cases cs with
  | nil => simp at h
  | cons d ds =>
      rw [nameLength] at h
      split at h
      · next hstart =>
          rcases mem_take_succ h with rfl | h
          · exact Text.isNameChar_of_isNameStart hstart
          · exact mem_take_run h
      · simp at h

theorem isNameChar_of_mem_wordLength (h : c ∈ cs.take (wordLength cs)) :
    Text.isNameChar c = true := by
  have hyphen : Text.isNameChar '-' = true := by decide
  have behind : ∀ {rest : List Char} {n : Nat},
      (c ∈ rest.take n → Text.isNameChar c = true) →
      c ∈ ('-' :: rest).take (1 + n) → Text.isNameChar c = true := by
    intro rest n hrest hc
    rcases mem_take_succ hc with rfl | hc
    · exact hyphen
    · exact hrest hc
  unfold wordLength at h
  dsimp only at h
  split at h
  · split at h
    · have h := mem_take_after h
      rw [show 2 = 1 + 1 from rfl, Nat.add_assoc] at h
      exact behind (behind mem_take_run) h
    · exact behind isNameChar_of_mem_nameLength (mem_take_after h)
  · rw [if_neg (by simp)] at h
    split at h
    · exact behind isNameChar_of_mem_nameLength (mem_take_after h)
    · exact isNameChar_of_mem_nameLength h

theorem isDecimal_of_mem_decimalLength (h : c ∈ cs.take (decimalLength cs)) :
    Text.isDecimal c = true ∨ c = '.' := by
  unfold decimalLength at h
  dsimp only at h
  split at h
  · next rest hrest =>
      split at h
      · simp at h
      · rw [Nat.add_assoc] at h
        rcases mem_take_add h with h | h
        · exact .inl (mem_take_run h)
        · rw [hrest] at h
          rcases mem_take_succ h with rfl | h
          · exact .inr rfl
          · exact .inl (mem_take_run h)
  · exact .inl (mem_take_run h)

theorem mem_unitLength (h : c ∈ cs.take (unitLength cs)) : Text.isNameChar c = true ∨ c = '%' := by
  unfold unitLength at h
  split at h
  · simp only [List.take_succ_cons, List.take_zero, List.mem_singleton] at h
    exact .inr h
  · have hletter : Text.isAsciiLetter c = true := mem_take_run h
    exact .inl (by simp [Text.isNameChar, hletter])

/-- A number consists of characters of names, decimal digits and three marks. -/
theorem mem_numberLength (h : c ∈ cs.take (numberLength cs)) :
    Text.isNameChar c = true ∨ Text.isDecimal c = true ∨ c ∈ ['+', '.', '%'] := by
  unfold numberLength at h
  dsimp only at h
  split at h
  · simp at h
  · rcases mem_take_add h with h | h
    · rcases mem_take_add h with h | h
      · unfold signLength at h
        split at h
        · simp at h
          simp [h]
        · simp at h
          subst h
          exact .inl (by decide)
        · simp at h
      · rcases isDecimal_of_mem_decimalLength h with hdecimal | rfl
        · exact .inr (.inl hdecimal)
        · simp
    · rcases mem_unitLength h with hname | rfl
      · exact .inl hname
      · simp

theorem not_special_of_mem_numberLength (h : c ∈ cs.take (numberLength cs)) : c ∉ special := by
  rcases mem_numberLength h with hname | hdecimal | hmark
  · exact not_mem_special (by decide) hname
  · exact not_mem_special (by decide) hdecimal
  · simp only [List.mem_cons, List.not_mem_nil, or_false] at hmark
    rcases hmark with rfl | rfl | rfl
    all_goals decide

/-- The start of a function is a name and its parenthesis. -/
theorem exists_name_of_functionLength (h : functionLength cs ≠ 0) :
    ∃ name, cs.take (functionLength cs) = name ++ ['('] ∧
      ∀ c ∈ name, Text.isNameChar c = true := by
  unfold functionLength at h ⊢
  dsimp only at h ⊢
  split at h
  · next hfits =>
      simp only [Bool.and_eq_true, beq_iff_eq] at hfits
      rw [if_pos (by simpa using hfits)]
      refine ⟨cs.take (run (· == '-') cs + nameLength (cs.drop (run (· == '-') cs))), ?_, ?_⟩
      · rw [List.take_add_one, ← List.head?_drop, hfits.2]
        rfl
      · intro c hc
        rcases mem_take_add hc with hc | hc
        · have := mem_take_run hc
          rw [beq_iff_eq.1 this]
          decide
        · exact isNameChar_of_mem_nameLength hc
  · contradiction

/-- A hash is the sign and a name that is not empty. -/
theorem exists_name_of_hashLength (h : hashLength cs ≠ 0) :
    ∃ d name, cs.take (hashLength cs) = '#' :: d :: name ∧
      ∀ c ∈ d :: name, Text.isNameChar c = true := by
  unfold hashLength at h ⊢
  split at h
  · next rest =>
      obtain ⟨htaken, hafter⟩ := after_ne_zero h
      rw [hafter, Nat.add_comm, List.take_succ_cons]
      have hname : ∀ c ∈ rest.take (run Text.isNameChar rest), Text.isNameChar c = true :=
        fun c hc => mem_take_run hc
      cases rest with
      | nil => simp [run] at htaken
      | cons d ds =>
          obtain ⟨n, hn⟩ := Nat.exists_eq_succ_of_ne_zero htaken
          rw [hn, List.take_succ_cons] at hname ⊢
          exact ⟨d, ds.take n, rfl, hname⟩
  · contradiction

theorem endsString_of_stringRest {quote : Char} (h : stringRest quote cs ≠ 0) :
    EndsString quote (cs.take (stringRest quote cs)) := by
  fun_induction stringRest quote cs with
  | case1 => contradiction
  | case2 cs => exact .close
  | case3 => contradiction
  | case4 => contradiction
  | case5 d ds hd _ ih =>
      obtain ⟨htaken, hafter⟩ := after_ne_zero h
      rw [hafter, Nat.add_comm]
      exact .escape hd (ih htaken)
  | case6 d ds hquote hbackslash ih =>
      obtain ⟨htaken, hafter⟩ := after_ne_zero h
      rw [hafter, Nat.add_comm]
      exact .char hquote hbackslash (ih htaken)

/-- A string is a quote and a rest that ends with the same quote. -/
theorem exists_rest_of_stringLength (h : stringLength cs ≠ 0) :
    ∃ quote rest, cs.take (stringLength cs) = quote :: rest ∧ (quote = '"' ∨ quote = '\'') ∧
      EndsString quote rest := by
  unfold stringLength at h ⊢
  split at h
  · next quote rest =>
      split at h
      · next hquote =>
          obtain ⟨htaken, hafter⟩ := after_ne_zero h
          refine ⟨quote, rest.take (stringRest quote rest), ?_, hquote,
            endsString_of_stringRest htaken⟩
          rw [if_pos hquote, hafter, Nat.add_comm, List.take_succ_cons]
      · contradiction
  · contradiction

end Lengths

/-! ## Tokens -/

/-- The single characters that are tokens. -/
theorem isWritten_of_single? {c : Char} {kind : TokenKind} (h : single? c = some kind) :
    IsWritten ⟨kind, [c]⟩ := by
  unfold single? at h
  split_ifs at h with hopening hclosing hcomma hslash hother
  · cases h
    rw [hopening]
    exact .opening
  · cases h
    rw [hclosing]
    exact .closing
  · cases h
    refine .calm ?_
    simp [hcomma, special]
  · cases h
    refine .calm ?_
    simp [hslash, special]
  · cases h
    refine .calm ?_
    simp only [not_or] at hother
    simp [special, hopening, hclosing, hother]

/-- A token is written the way of its kind. -/
theorem isWritten_of_classify {cs : List Char} {kind : TokenKind} {n : Nat}
    (h : classify cs = some (kind, n)) : IsWritten ⟨kind, cs.take n⟩ := by
  unfold classify at h
  split_ifs at h with hfunction hnumber hword hstring hhash hspace
  · cases h
    obtain ⟨name, hname, hchars⟩ := exists_name_of_functionLength hfunction
    rw [hname]
    exact .function hchars
  · cases h
    exact .calm fun c hc => not_special_of_mem_numberLength hc
  · cases h
    exact .calm fun c hc => not_mem_special (by decide) (isNameChar_of_mem_wordLength hc)
  · cases h
    obtain ⟨quote, rest, htext, hquote, hends⟩ := exists_rest_of_stringLength hstring
    rw [htext]
    exact .string hquote hends
  · cases h
    obtain ⟨d, name, hname, hchars⟩ := exists_name_of_hashLength hhash
    rw [hname]
    exact .hash hchars
  · cases h
    exact .calm fun c hc => not_mem_special (by decide) (mem_take_run hc)
  · cases cs with
    | nil => simp at h
    | cons c cs =>
        simp only [List.head?_cons, Option.bind_some, Option.map_eq_some_iff] at h
        obtain ⟨kind, hkind, h⟩ := h
        cases h
        exact isWritten_of_single? hkind

theorem isWritten_of_scan {cs rest : List Char} {t : Token} (h : scan cs = some (t, rest)) :
    IsWritten t := by
  unfold scan at h
  split at h
  · contradiction
  · contradiction
  · contradiction
  · next hclassify =>
      cases h
      exact isWritten_of_classify hclassify

theorem isWritten_of_mem_tokens {cs : List Char} {t : Token} (h : t ∈ (tokens cs).1) :
    IsWritten t := by
  fun_induction tokens cs with
  | case1 => simp at h
  | case2 cs first rest hscan _ ih =>
      rcases List.mem_cons.1 h with rfl | h
      · exact isWritten_of_scan hscan
      · exact ih h

/-- No token starts behind the tokens of a text. -/
theorem scan_tokens (cs : List Char) : scan (tokens cs).2 = none := by
  fun_induction tokens cs with
  | case1 cs hscan => exact hscan
  | case2 cs t rest hscan _ ih => exact ih

theorem ne_zero_of_classify {cs : List Char} {kind : TokenKind} {n : Nat}
    (h : classify cs = some (kind, n)) : n ≠ 0 := by
  unfold classify at h
  split_ifs at h
  all_goals try (cases h; assumption)
  obtain ⟨_, _, h⟩ := Option.map_eq_some_iff.1 h
  cases h
  exact Nat.one_ne_zero

theorem classify_of_scan_eq_none {c : Char} {cs : List Char} (h : scan (c :: cs) = none) :
    classify (c :: cs) = none := by
  cases hclassify : classify (c :: cs) with
  | none => rfl
  | some found =>
      obtain ⟨kind, n⟩ := found
      cases n with
      | zero => exact absurd rfl (ne_zero_of_classify hclassify)
      | succ n => simp [scan, hclassify] at h

/-- Where no token starts there is a quote that is never closed or a lone `#`. -/
theorem stuck_of_scan_eq_none {c : Char} {cs : List Char} (h : scan (c :: cs) = none) :
    ((c = '"' ∨ c = '\'') ∧ stringRest c cs = 0) ∨
      (c = '#' ∧ ∀ d ∈ cs.head?, Text.isNameChar d = false) := by
  have hnone := classify_of_scan_eq_none h
  unfold classify at hnone
  split_ifs at hnone with _ _ _ hstring hhash hspace
  have hsingle : single? c = none := by simpa using hnone
  unfold single? at hsingle
  split_ifs at hsingle with _ _ _ _ hother
  rw [ne_eq, not_not] at hstring hhash hspace
  rcases hother with hquote | hquote | rfl | hblank
  · left
    refine ⟨.inl hquote, ?_⟩
    simpa [stringLength, hquote, after_eq_zero_iff] using hstring
  · left
    refine ⟨.inr hquote, ?_⟩
    simpa [stringLength, hquote, after_eq_zero_iff] using hstring
  · right
    refine ⟨rfl, ?_⟩
    intro d hd
    by_contra hname
    rw [Bool.not_eq_false] at hname
    cases cs with
    | nil => simp at hd
    | cons e es =>
        cases hd
        simp [hashLength, after_eq_zero_iff, run, hname] at hhash
  · simp [run, hblank] at hspace

end ContrastAudit.Token
