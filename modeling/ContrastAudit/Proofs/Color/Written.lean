import ContrastAudit.Proofs.Color.Fault
import ContrastAudit.Proofs.Value.Commas
import ContrastAudit.Proofs.Value.Lowering

/-!
# Texts that write colors

A text that writes a color is, trimmed and in lower case, a name, hexadecimal digits behind a hash,
or a single function.  It is balanced then, and nothing in it separates outside of its parentheses.

The text itself need not be balanced: a hash in front of the Kelvin sign or of a dotted capital I is
no token, but in lower case there is a name behind the hash.  Nothing else can go wrong, and a
balanced text that writes a color has no comma outside of its strings and parentheses.

**Results.**
* `parse_strip`: blanks around a text do not matter.
* `isBalancedValue_of_run`: a text that writes a color is balanced unless a pass over it is lost.
* `isOneArgument_of_parse`: a balanced text that writes a color has no comma outside of its
  parentheses.
* `exists_falseName_of_parse`: a text that writes a color without being balanced has a hash in front
  of a false name.
-/

namespace ContrastAudit.Color

open Component

section Texts

variable {source : String} {color : Color}

/-! ## Blanks around a text -/

theorem strip_strip (source : String) : Text.strip (Text.strip source) = Text.strip source := by
  simp [Text.strip]

/-- The blanks around a text do not matter. -/
theorem parse_strip (source : String) : Color.parse (Text.strip source) = Color.parse source := by
  have hfunction : function? (Text.strip source) = function? source := by
    rw [function?, strip_strip, function?]
  cases h : function? source with
  | none =>
      have hplain : plain? (Text.strip source) = plain? source := by
        rw [plain?, strip_strip, plain?]
      rw [Color.parse, parseWithin_of_function?_eq_none (hfunction.trans h), Color.parse,
        parseWithin_of_function?_eq_none h, hplain]
  | some read =>
      obtain ⟨name, children⟩ := read
      rw [parse_of_function? (hfunction.trans h), parse_of_function? h]

/-! ## Lower case -/

theorem isNameChar_of_isHexDigit {c : Char} (h : Text.isHexDigit c = true) :
    Text.isNameChar c = true := by
  unfold Text.isHexDigit Text.hexValue? at h
  split_ifs at h with hdigit hsmall hcapital
  · simp [Text.isNameChar, Text.isAsciiDigit, hdigit]
  · have hletter : c ≤ 'z' := hsmall.2.trans (by decide)
    simp [Text.isNameChar, Text.isAsciiLetter, hsmall.1, hletter]
  · have hletter : c ≤ 'Z' := hcapital.2.trans (by decide)
    simp [Text.isNameChar, Text.isAsciiLetter, hcapital.1, hletter]
  · contradiction

/-- The names of colors consist of letters. -/
theorem unsplit_of_named? {text : String} (h : named? text = some color) :
    IsBalancedValue text.toList ∧ Balance.Unsplit (.text 0) text.toList := by
  have hnames : ∀ entry ∈ names, entry.1.toList.all Text.isNameChar = true := by decide +kernel
  obtain ⟨n, hlookup, -⟩ := Option.map_eq_some_iff.1 h
  obtain ⟨front, behind, heq, -⟩ := List.lookup_eq_some_iff.1 hlookup
  have hname := List.all_eq_true.1 (hnames (text, n) (by simp [heq]))
  exact ⟨Balance.run_text_of_name hname 0,
    Balance.unsplit_of_forall fun c hc => isSeparator_of_isNameChar (hname c hc)⟩

theorem unsplit_of_ofHash? {cs : List Char} (h : ofHash? cs = some color) :
    IsBalancedValue cs ∧ Balance.Unsplit (.text 0) cs := by
  unfold ofHash? at h
  split at h
  · next cs =>
      unfold ofHexDigits? at h
      split_ifs at h with hdigits
      have hname : ∀ c ∈ cs, Text.isNameChar c = true :=
        fun c hc => isNameChar_of_isHexDigit (List.all_eq_true.1 hdigits c hc)
      cases cs with
      | nil => cases h
      | cons c cs =>
          obtain ⟨hc, hcs⟩ := List.forall_mem_cons.1 hname
          constructor
          · rw [IsBalancedValue, Balance.run_cons, Balance.next_text_hash, Balance.run_cons]
            simp only [Balance.next, hc, if_true]
            exact Balance.run_text_of_name hcs 0
          · refine Balance.unsplit_of_forall (List.forall_mem_cons.2 ⟨by decide, fun d hd => ?_⟩)
            exact isSeparator_of_isNameChar (hname d hd)
  · cases h

theorem unsplit_of_plain? (h : plain? source = some color) :
    Text.trim source.toList ≠ [] ∧
      IsBalancedValue (Text.lower (Text.trim source.toList)) ∧
      Balance.Unsplit (.text 0) (Text.lower (Text.trim source.toList)) := by
  have htext : (Text.lowercase (Text.strip source)).toList =
      Text.lower (Text.trim source.toList) := by
    simp [Text.lowercase, Text.strip]
  unfold plain? at h
  dsimp only at h
  split_ifs at h with hword
  refine ⟨fun hnil => hword (.inl ?_), ?_⟩
  · rw [← String.toList_inj, htext, hnil]
    rfl
  rw [← htext]
  split at h
  · next hnamed =>
      exact unsplit_of_named? hnamed
  · exact unsplit_of_ofHash? h

theorem unsplit_of_function? {name : String} {children : List Component}
    (h : function? source = some (name, children)) :
    Text.trim source.toList ≠ [] ∧
      IsBalancedValue (Text.lower (Text.trim source.toList)) ∧
      Balance.Unsplit (.text 0) (Text.lower (Text.trim source.toList)) := by
  obtain ⟨hword, -, -, hparse⟩ := function?_eq_some_iff.1 h
  obtain ⟨components, hread, hstrip⟩ := Option.map_eq_some_iff.1 hparse
  have hchars := parse?_eq_some_iff.1 hread
  have hfront := readBefore_of_parseChars hchars
  have htext : (Text.lowercase (Text.strip source)).toList =
      Text.lower (Text.trim source.toList) := by
    simp [Text.lowercase, Text.strip]
  have hne : Text.trim source.toList ≠ [] := by
    intro hnil
    refine hword (.inl ?_)
    rw [← String.toList_inj, htext, hnil]
    rfl
  -- the text is trimmed, so that the function is all of it
  have htrimmed : Text.IsTrimmed (Text.lower (Text.trim source.toList)) :=
    (Text.recased_lower _).isTrimmed (Text.isTrimmed_trim hne)
  have hwritten := charsOfAll_stripSpace hfront
  rw [hstrip, charsOfAll_of_parseChars hchars, htext, htrimmed.trim_eq, charsOfAll_cons,
    charsOfAll_nil, List.append_nil] at hwritten
  obtain ⟨before, behind, heq⟩ := infix_stripSpace components
  rw [← heq, hstrip] at hfront
  obtain ⟨hunsplit, hbalanced⟩ := unsplit_chars_iff hfront.append.1.append.2
  rw [hwritten] at hunsplit hbalanced
  exact ⟨hne, hbalanced, hunsplit.2 rfl⟩

/-- In lower case a text that writes a color is balanced, and nothing in it separates. -/
theorem unsplit_lower_of_parse (h : Color.parse source = .ok (some color)) :
    Text.trim source.toList ≠ [] ∧
      IsBalancedValue (Text.lower (Text.trim source.toList)) ∧
      Balance.Unsplit (.text 0) (Text.lower (Text.trim source.toList)) := by
  cases hfunction : function? source with
  | none =>
      rw [Color.parse, parseWithin_of_function?_eq_none hfunction, Except.ok.injEq] at h
      exact unsplit_of_plain? h
  | some read =>
      obtain ⟨name, children⟩ := read
      exact unsplit_of_function? hfunction

/-! ## The text itself -/

/-- A text that writes a color is balanced unless a pass over it is lost. -/
theorem isBalancedValue_of_run_trim (h : Color.parse source = .ok (some color))
    (hrun : (Balance.text 0).run (Text.trim source.toList) ≠ .lost) :
    IsBalancedValue source.toList := by
  have hlower := Balance.run_of_recased (b := .text 0) (Text.recased_lower _) trivial hrun
  rw [(unsplit_lower_of_parse h).2.1] at hlower
  exact isBalancedValue_of_trim hlower.symm

theorem isBalancedValue_of_run (h : Color.parse source = .ok (some color))
    (hrun : (Balance.text 0).run source.toList ≠ .lost) : IsBalancedValue source.toList := by
  obtain ⟨before, after, hbefore, -, heq⟩ := Text.exists_trim_between source.toList
  refine isBalancedValue_of_run_trim h fun hlost => ?_
  rw [heq, Balance.run_append, Balance.run_text_of_allBlank hbefore, Balance.run_append, hlost,
    Balance.run_lost] at hrun
  exact hrun rfl

/-- A balanced text that writes a color has no comma outside of strings and parentheses. -/
theorem isOneArgument_of_parse (h : Color.parse source = .ok (some color))
    (hbalanced : IsBalancedValue source.toList) : IsOneArgument source.toList := by
  have hrun : (Balance.text 0).run (Text.trim source.toList) ≠ .lost := by
    rw [hbalanced.trim]
    rintro ⟨⟩
  exact isOneArgument_of_unsplit_trim hbalanced (Balance.unsplit_of_recased_unsplit
    (Text.recased_lower _) trivial hrun (unsplit_lower_of_parse h).2.2)

/-- A text that writes a color without being balanced has a hash in front of a false name. -/
theorem exists_falseName_of_parse (h : Color.parse source = .ok (some color))
    (hbalanced : ¬ IsBalancedValue source.toList) :
    ∃ c ∈ Text.falseNames, ['#', c] <:+: source.toList := by
  by_contra hnone
  push Not at hnone
  have hlower : (Balance.text 0).run (Text.lowerFrom [] (Text.trim source.toList)) ≠ .lost := by
    change (Balance.text 0).run (Text.lower (Text.trim source.toList)) ≠ .lost
    rw [(unsplit_lower_of_parse h).2.1]
    rintro ⟨⟩
  refine hbalanced (isBalancedValue_of_run_trim h ?_)
  exact Balance.run_ne_lost_of_lowerFrom trivial (by rintro _ ⟨⟩)
    (fun c hc hinside => hnone c hc (hinside.trans (Text.trim_infix _))) hlower

end Texts

end ContrastAudit.Color
