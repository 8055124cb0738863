import Mathlib.Data.List.Infix
import ContrastAudit.Proofs.Number.Fault
import ContrastAudit.Proofs.Selector.Joining
import ContrastAudit.Proofs.Stylesheet.Reading

/-!
# Lists of selectors

A list of selectors is cut at the commas that stand in no bracket.  The brackets are only counted:
one kind closes the other, a closing one that closes nothing is passed over, and neither strings nor
backslashes are known here, unlike where a single selector is read.  So a comma behind a backslash
cuts a selector in two, and a bracket inside of a string hides the comma behind the selector.

**Results.**
* `splitSelectors_join_iff`: selectors that are joined by commas are told apart again exactly if
  they keep their commas in brackets, and all but the last one close their brackets.
-/

namespace ContrastAudit.Stylesheet

/-! ## Brackets -/

/-- Whether a character opens a bracket. -/
def isOpening (c : Char) : Bool :=
  c == '(' || c == '['

/-- Whether a character closes a bracket. -/
def isClosing (c : Char) : Bool :=
  c == ')' || c == ']'

/-- A last part of the text has more brackets that open than brackets that close. -/
def LeavesOpen (text : List Char) : Prop :=
  ∃ back, back <:+ text ∧ back.countP isClosing < back.countP isOpening

/-- In front of every comma a bracket is left open. -/
def IsOnePiece (text : List Char) : Prop :=
  ∀ front behind, text = front ++ ',' :: behind → LeavesOpen front

/-- The number of open brackets behind a character. -/
def level (depth : Nat) (c : Char) : Nat :=
  if c = '(' ∨ c = '[' then depth + 1 else if c = ')' ∨ c = ']' then depth - 1 else depth

/-- The brackets that count as open are those that a last part of the text has in excess. -/
theorem lt_foldl_level_iff {n : Nat} {text : List Char} :
    n < text.foldl level 0 ↔
      ∃ back, back <:+ text ∧ back.countP isClosing + n < back.countP isOpening := by
  induction text using List.reverseRecOn generalizing n with
  | nil => simp
  | append_singleton text c ih =>
      have hsuffix : (∃ back, back <:+ text ++ [c] ∧
          back.countP isClosing + n < back.countP isOpening) ↔
            ∃ back, back <:+ text ∧ (back ++ [c]).countP isClosing + n <
              (back ++ [c]).countP isOpening := by
        simp only [List.suffix_concat_iff]
        constructor
        · rintro ⟨_, rfl | ⟨back, rfl, hback⟩, h⟩
          · simp at h
          · exact ⟨back, hback, h⟩
        · rintro ⟨back, hback, h⟩
          exact ⟨_, .inr ⟨back, rfl, hback⟩, h⟩
      rw [hsuffix, List.foldl_append, List.foldl_cons, List.foldl_nil]
      simp only [List.countP_append, List.countP_singleton, level]
      by_cases hopening : c = '(' ∨ c = '['
      · have hclosing : isClosing c = false := by rcases hopening with rfl | rfl <;> rfl
        have hcount : isOpening c = true := by rcases hopening with rfl | rfl <;> rfl
        simp only [if_pos hopening, hclosing, hcount, if_true, Bool.false_eq_true, if_false,
          Nat.add_zero]
        cases n with
        | zero => exact ⟨fun _ => ⟨[], List.nil_suffix, by simp⟩, fun _ => Nat.succ_pos _⟩
        | succ n => simpa [← Nat.add_assoc] using ih
      · have hcount : isOpening c = false := by simpa [isOpening] using hopening
        by_cases hclosing : c = ')' ∨ c = ']'
        · have hcount' : isClosing c = true := by rcases hclosing with rfl | rfl <;> rfl
          simp only [if_neg hopening, if_pos hclosing, hcount, hcount', if_true,
            Bool.false_eq_true, if_false, Nat.add_zero]
          rw [Nat.lt_sub_iff_add_lt, ih]
          simp only [Nat.add_assoc, Nat.add_comm 1 n]
        · have hcount' : isClosing c = false := by simpa [isClosing] using hclosing
          simp only [if_neg hopening, if_neg hclosing, hcount, hcount', Bool.false_eq_true,
            if_false, Nat.add_zero]
          exact ih

theorem leavesOpen_iff {text : List Char} : LeavesOpen text ↔ 0 < text.foldl level 0 :=
  (@lt_foldl_level_iff 0 text).symm

instance decidableLeavesOpen (text : List Char) : Decidable (LeavesOpen text) :=
  decidable_of_iff _ leavesOpen_iff.symm

instance decidableIsOnePiece (text : List Char) : Decidable (IsOnePiece text) :=
  decidable_of_iff (∀ i < text.length, text[i]? = some ',' → LeavesOpen (text.take i)) <| by
    constructor
    · rintro h front behind rfl
      simpa using h front.length (by simp) (by simp)
    · intro h i _ hi
      refine h _ (text.drop (i + 1)) ?_
      rw [← List.getElem?_eq_some_iff.1 hi |>.2, ← List.drop_eq_getElem_cons, List.take_append_drop]

/-! ## The first piece -/

/-- From a number of open brackets on, there is always one open in front of a comma. -/
def Covers (depth : Nat) (text : List Char) : Prop :=
  ∀ front behind, text = front ++ ',' :: behind → 0 < front.foldl level depth

theorem isOnePiece_iff {text : List Char} : IsOnePiece text ↔ Covers 0 text := by
  simp only [IsOnePiece, Covers, leavesOpen_iff]

section Covers

variable {depth : Nat} {c : Char} {text : List Char}

theorem covers_nil (depth : Nat) : Covers depth [] := by
  rintro front behind h
  simp at h

theorem covers_cons : Covers depth (c :: text) ↔
    (c = ',' → 0 < depth) ∧ Covers (level depth c) text := by
  constructor
  · intro h
    refine ⟨?_, ?_⟩
    · rintro rfl
      exact h [] text rfl
    · rintro front behind rfl
      exact h (c :: front) behind rfl
  · rintro ⟨hc, h⟩ front behind heq
    cases front with
    | nil =>
        obtain ⟨rfl, rfl⟩ := List.cons.inj heq
        exact hc rfl
    | cons c' front =>
        obtain ⟨rfl, rfl⟩ := List.cons.inj heq
        exact h front behind rfl

/-- In a text that does not cover its commas, a first one is not covered. -/
theorem exists_comma_of_not_covers (h : ¬ Covers depth text) :
    ∃ front behind, text = front ++ ',' :: behind ∧ Covers depth front ∧
      front.foldl level depth = 0 := by
  induction text generalizing depth with
  | nil => exact absurd (covers_nil depth) h
  | cons c text ih =>
      by_cases hc : c = ',' → 0 < depth
      · rw [covers_cons, not_and] at h
        obtain ⟨front, behind, rfl, hfront, hzero⟩ := ih (h hc)
        exact ⟨c :: front, behind, rfl, covers_cons.2 ⟨hc, hfront⟩, hzero⟩
      · obtain ⟨rfl, hdepth⟩ := Classical.not_imp.1 hc
        exact ⟨[], text, rfl, covers_nil depth, Nat.eq_zero_of_not_pos hdepth⟩

theorem topPieces_cons_of_covered (hc : c = ',' → 0 < depth) (text : List Char) :
    topPieces depth (c :: text) = (topPieces (level depth c) text).modifyHead (c :: ·) := by
  obtain ⟨piece, pieces, hpieces⟩ :=
    List.exists_cons_of_ne_nil (topPieces_ne_nil (level depth c) text)
  rw [hpieces, List.modifyHead_cons]
  simp only [topPieces]
  unfold level at hpieces
  split_ifs at hpieces ⊢ with hopening hclosing hcomma
  · rw [hpieces]
  · rw [hpieces]
  · exact absurd hcomma.2 (Nat.ne_of_gt (hc hcomma.1))
  · rw [hpieces]

/-- A text that covers its commas belongs to the first piece. -/
theorem topPieces_append_of_covers (h : Covers depth text) (rest : List Char) :
    topPieces depth (text ++ rest) =
      (topPieces (text.foldl level depth) rest).modifyHead (text ++ ·) := by
  induction text generalizing depth with
  | nil =>
      obtain ⟨piece, pieces, hpieces⟩ := List.exists_cons_of_ne_nil (topPieces_ne_nil depth rest)
      rw [List.nil_append, List.foldl_nil, hpieces]
      rfl
  | cons c text ih =>
      obtain ⟨hc, htext⟩ := covers_cons.1 h
      rw [List.cons_append, topPieces_cons_of_covered hc, ih htext, List.modifyHead_modifyHead]
      rfl

theorem topPieces_comma (text : List Char) :
    topPieces 0 (',' :: text) = [] :: topPieces 0 text := by
  simp [topPieces]

/-- A comma that is not covered ends the first piece. -/
theorem topPieces_append_comma (h : Covers 0 text) (hzero : text.foldl level 0 = 0)
    (rest : List Char) : topPieces 0 (text ++ ',' :: rest) = text :: topPieces 0 rest := by
  rw [topPieces_append_of_covers h, hzero, topPieces_comma, List.modifyHead_cons, List.append_nil]

end Covers

/-! ## The first selector -/

section First

variable {selector text : List Char}

theorem splitSelectors_of_topPieces {piece : List Char} {pieces : List (List Char)}
    (h : topPieces 0 text = piece :: pieces) (hpiece : Text.trim piece ≠ []) :
    splitSelectors text = String.ofList (Text.trim piece) ::
      ((pieces.map Text.trim).filter (!·.isEmpty)).map String.ofList := by
  simp [splitSelectors, h, hpiece]

theorem trim_ne_nil_of_isTrimmed (h : Text.IsTrimmed text) : Text.trim text ≠ [] := by
  rw [h.trim_eq]
  exact h.ne_nil

/-- Blanks in front of a list do not matter. -/
theorem splitSelectors_blank_cons {c : Char} (hc : Text.isBlank c = true) (text : List Char) :
    splitSelectors (c :: text) = splitSelectors text := by
  have hsimple := @simple_of_allBlank [c] (by simpa [Text.allBlank] using hc)
  obtain ⟨piece, pieces, hpieces⟩ := List.exists_cons_of_ne_nil (topPieces_ne_nil 0 text)
  have hcons := topPieces_append hsimple text
  rw [List.singleton_append, hpieces, List.modifyHead_cons] at hcons
  have htrim := Text.trim_blank_append (w := [c]) (by simpa [Text.allBlank] using hc) piece
  rw [splitSelectors, splitSelectors, hcons, hpieces, List.map_cons, List.map_cons, htrim]

/-- A selector with a comma that is not covered is cut in two. -/
theorem head?_splitSelectors_ne (hselector : Text.IsTrimmed selector)
    (hhead : selector.head? ≠ some ',') (h : ¬ IsOnePiece selector) (text : List Char) :
    (splitSelectors (selector ++ text)).head? ≠ some (String.ofList selector) := by
  obtain ⟨front, behind, rfl, hfront, hzero⟩ := exists_comma_of_not_covers (mt isOnePiece_iff.2 h)
  obtain ⟨⟨c, hc, hblank⟩, -⟩ := Text.isTrimmed_iff.1 hselector
  have htrim : Text.trim front ≠ [] := by
    cases front with
    | nil => exact absurd rfl hhead
    | cons c' front =>
        obtain rfl : c' = c := by simpa using hc
        have hstart := Text.trim_append_cons hblank [] front
        rw [List.nil_append] at hstart
        simp [hstart]
  have hpieces := topPieces_append_comma hfront hzero (behind ++ text)
  rw [List.append_assoc, List.cons_append, splitSelectors_of_topPieces hpieces htrim,
    List.head?_cons, ne_eq, Option.some.injEq, String.ofList_inj]
  intro heq
  have hlength := (Text.trim_infix front).length_le
  -- what is cut off ends in front of the comma, so it is shorter than the selector
  rw [heq, List.length_append, List.length_cons] at hlength
  omega

/-- A list of one selector is read as this selector iff it covers its commas. -/
theorem splitSelectors_single_iff (hselector : Text.IsTrimmed selector)
    (hhead : selector.head? ≠ some ',') :
    splitSelectors selector = [String.ofList selector] ↔ IsOnePiece selector := by
  constructor
  · intro h
    by_contra hpiece
    have hne := head?_splitSelectors_ne hselector hhead hpiece []
    rw [List.append_nil, h] at hne
    exact hne rfl
  · intro h
    have hpieces : topPieces 0 selector = [selector] := by
      have happend := topPieces_append_of_covers (isOnePiece_iff.1 h) []
      rw [List.append_nil] at happend
      rw [happend]
      simp [topPieces]
    have htrim := trim_ne_nil_of_isTrimmed hselector
    rw [splitSelectors_of_topPieces hpieces htrim, hselector.trim_eq]
    rfl

/-- A selector comes first in a longer list iff it covers its commas and closes its brackets. -/
theorem splitSelectors_append_iff (hselector : Text.IsTrimmed selector)
    (hhead : selector.head? ≠ some ',') (rest : List String) :
    splitSelectors (selector ++ ',' :: text) = String.ofList selector :: rest ↔
      IsOnePiece selector ∧ ¬ LeavesOpen selector ∧ splitSelectors text = rest := by
  by_cases hpiece : IsOnePiece selector
  · have hcovers := isOnePiece_iff.1 hpiece
    have htrim := trim_ne_nil_of_isTrimmed hselector
    by_cases hopen : LeavesOpen selector
    · have hdepth := leavesOpen_iff.1 hopen
      obtain ⟨piece, pieces, hpieces⟩ :=
        List.exists_cons_of_ne_nil (topPieces_ne_nil (selector.foldl level 0) text)
      have hfirst : topPieces 0 (selector ++ ',' :: text) =
          (selector ++ ',' :: piece) :: pieces := by
        have hcomma : level (selector.foldl level 0) ',' = selector.foldl level 0 := rfl
        rw [topPieces_append_of_covers hcovers, topPieces_cons_of_covered fun _ => hdepth, hcomma,
          hpieces]
        rfl
      have hlonger : Text.trim (selector ++ ',' :: piece) = selector ++ ',' :: Text.trimEnd piece :=
        by
        have hstart := (Text.isTrimmed_iff.1 hselector).1
        rw [Text.trim_append_cons (by decide), Text.trimStart_eq_self_iff.2 fun c hc => ?_]
        obtain ⟨c', hc', hblank⟩ := hstart
        obtain rfl : c' = c := Option.some.inj (hc'.symm.trans hc)
        exact hblank
      rw [splitSelectors_of_topPieces hfirst (by simp [hlonger]), hlonger]
      simp [hopen]
    · have hzero : selector.foldl level 0 = 0 :=
        Nat.eq_zero_of_not_pos (mt leavesOpen_iff.2 hopen)
      rw [splitSelectors_of_topPieces (topPieces_append_comma hcovers hzero text) htrim,
        hselector.trim_eq]
      simp [hpiece, hopen, splitSelectors]
  · have hne := head?_splitSelectors_ne hselector hhead hpiece (',' :: text)
    refine ⟨fun h => ?_, fun h => absurd h.1 hpiece⟩
    rw [h] at hne
    exact absurd rfl hne

end First

/-! ## Joined selectors -/

/-- A selector that is read does not start with a comma. -/
theorem head?_ne_comma_of_parse {source : String} {selector : Selector}
    (h : Selector.parse source = .ok selector) : source.toList.head? ≠ some ',' := by
  intro hhead
  obtain ⟨cs, hcs⟩ := List.head?_eq_some_iff.1 hhead
  have htrim : Text.trim (',' :: cs) = ',' :: Text.trimEnd cs :=
    Text.trim_append_cons (by decide) [] cs
  obtain ⟨-, hparse⟩ := Selector.parse_eq_ok_iff.1 h
  have hnormal : Selector.normalChars source.toList =
      ',' :: Selector.tighten false (Selector.collapse (Text.trimEnd cs)) := by
    rw [Selector.normalChars, hcs, htrim, Selector.collapse, if_neg (by decide),
      Selector.tighten_cons (by decide)]
    rfl
  rw [hnormal] at hparse
  obtain ⟨hrest, -⟩ := Selector.parseChars_eq_ok hparse
  rw [Selector.pieces_of_scan_eq_none rfl] at hrest
  contradiction

theorem toList_join_cons (s next : String) (rest : List String) :
    (", ".intercalate (s :: next :: rest)).toList =
      s.toList ++ ',' :: ' ' :: (", ".intercalate (next :: rest)).toList := by
  simp [String.toList_intercalate]

/-- Trimmed selectors that are joined by commas are told apart again exactly if each of them keeps
its commas in brackets, and each but the last one closes its brackets. -/
theorem splitSelectors_join_iff {texts : List String} (hne : texts ≠ [])
    (hread : ∀ s ∈ texts, Text.strip s = s ∧ ∃ selector, Selector.parse s = .ok selector) :
    splitSelectors (", ".intercalate texts).toList = texts ↔
      (∀ s ∈ texts, IsOnePiece s.toList) ∧ ∀ s ∈ texts.dropLast, ¬ LeavesOpen s.toList := by
  have htrimmed : ∀ s ∈ texts, Text.IsTrimmed s.toList ∧ s.toList.head? ≠ some ',' := by
    intro s hs
    obtain ⟨hstrip, selector, hparse⟩ := hread s hs
    refine ⟨⟨?_, ?_⟩, head?_ne_comma_of_parse hparse⟩
    · intro hnil
      have hempty : s = "" := String.toList_eq_nil_iff.1 hnil
      subst hempty
      have hrefused : ∀ selector, Selector.parse "" ≠ .ok selector := by
        intro selector h
        exact Selector.ne_nil_of_parseChars (Selector.parse_eq_ok_iff.1 h).2 rfl
      exact hrefused selector hparse
    · have htoList := congrArg String.toList hstrip
      rwa [Text.strip, String.toList_ofList] at htoList
  clear hread
  induction texts with
  | nil => exact absurd rfl hne
  | cons s rest ih =>
      obtain ⟨⟨hs, hhead⟩, hrest⟩ := List.forall_mem_cons.1 htrimmed
      cases rest with
      | nil =>
          have hsingle := splitSelectors_single_iff hs hhead
          rw [String.ofList_toList] at hsingle
          have hjoin : ", ".intercalate [s] = s := by
            rw [← String.toList_inj]
            simp
          rw [hjoin, hsingle]
          simp
      | cons next rest =>
          have hstep := @splitSelectors_append_iff _
            (' ' :: (", ".intercalate (next :: rest)).toList) hs hhead (next :: rest)
          rw [String.ofList_toList, splitSelectors_blank_cons (by decide)] at hstep
          have hothers := ih (List.cons_ne_nil _ _) hrest
          rw [toList_join_cons, hstep, List.dropLast_cons_cons]
          constructor
          · rintro ⟨hpiece, hopen, hsame⟩
            obtain ⟨hpieces, hopens⟩ := hothers.1 hsame
            exact ⟨List.forall_mem_cons.2 ⟨hpiece, hpieces⟩,
              List.forall_mem_cons.2 ⟨hopen, hopens⟩⟩
          · rintro ⟨hpieces, hopens⟩
            obtain ⟨hpiece, hpieces⟩ := List.forall_mem_cons.1 hpieces
            obtain ⟨hopen, hopens⟩ := List.forall_mem_cons.1 hopens
            exact ⟨hpiece, hopen, hothers.2 ⟨hpieces, hopens⟩⟩

/-- Brackets hide the commas of arguments and of strings. -/
theorem splitSelectors_join_iff_menu :
    ["a", "b:is(c, d)", "[x='1,2']"] ≠ [] ∧
      (∀ s ∈ ["a", "b:is(c, d)", "[x='1,2']"],
        Text.strip s = s ∧ ∃ selector, Selector.parse s = .ok selector) ∧
      splitSelectors (", ".intercalate ["a", "b:is(c, d)", "[x='1,2']"]).toList =
        ["a", "b:is(c, d)", "[x='1,2']"] := by
  have hread : ∀ s ∈ ["a", "b:is(c, d)", "[x='1,2']"],
      Text.strip s = s ∧ ∃ selector, Selector.parse s = .ok selector := by
    decide +kernel
  have hclosed : (∀ s ∈ ["a", "b:is(c, d)", "[x='1,2']"], IsOnePiece s.toList) ∧
      ∀ s ∈ ["a", "b:is(c, d)", "[x='1,2']"].dropLast, ¬ LeavesOpen s.toList := by
    decide +kernel
  exact ⟨List.cons_ne_nil _ _, hread,
    (splitSelectors_join_iff (List.cons_ne_nil _ _) hread).2 hclosed⟩

/-- A class whose name has a comma in it is cut in two. -/
theorem not_forall_splitSelectors_join :
    ¬ ∀ texts : List String, texts ≠ [] →
      (∀ s ∈ texts, Text.strip s = s ∧ ∃ selector, Selector.parse s = .ok selector) →
      splitSelectors (", ".intercalate texts).toList = texts := by
  intro h
  have hread : ∀ s ∈ [".a\\,b"],
      Text.strip s = s ∧ ∃ selector, Selector.parse s = .ok selector := by
    decide +kernel
  have hcut : splitSelectors (", ".intercalate [".a\\,b"]).toList = [".a\\", "b"] := by
    decide +kernel
  have hsame := h [".a\\,b"] (List.cons_ne_nil _ _) hread
  rw [hcut] at hsame
  contradiction

end ContrastAudit.Stylesheet
