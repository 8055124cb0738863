import ContrastAudit.Proofs.Value.Flattening
import ContrastAudit.Value.Arguments

/-!
# Values that nothing separates

The components of a value may be separated by white space, commas and slashes.  Whether one of them
is can be told by a pass over the text, without reading it: there is a separator among the
components exactly if there is one outside of strings and parentheses.

**Results.**
* `unsplit_iff_of_parseChars`: a value has no separator among its components exactly if a pass over
  its text meets none.
-/

namespace ContrastAudit

/-- White space, a comma or a slash. -/
def isSeparator (c : Char) : Bool :=
  Text.isBlank c || c == ',' || c == '/'

theorem isSeparator_of_isNameChar {c : Char} (h : Text.isNameChar c = true) :
    isSeparator c = false := by
  have hmarks : c ≠ ',' ∧ c ≠ '/' := by
    constructor
    all_goals
      rintro rfl
      contradiction
  simp [isSeparator, Text.isBlank_of_isNameChar h, hmarks]

theorem isSeparator_of_isDecimal {c : Char} (h : Text.isDecimal c = true) :
    isSeparator c = false := by
  have hmarks : c ≠ ',' ∧ c ≠ '/' := by
    constructor
    all_goals
      rintro rfl
      contradiction
  simp [isSeparator, Token.isBlank_of_isDecimal h, hmarks]

namespace Balance

theorem isNameChar_of_next_hash {depth : Nat} {c : Char} (h : (hash depth).next c ≠ lost) :
    Text.isNameChar c = true := by
  by_contra hname
  exact h (by simp [next, hname])

theorem next_ne_lost_of_run {b : Balance} {c : Char} {cs : List Char}
    (h : b.run (c :: cs) ≠ lost) : b.next c ≠ lost := by
  intro hlost
  rw [run_cons, hlost, run_lost] at h
  exact h rfl

/-! ## Texts without separators -/

/-- No separator of the rest of a text stands outside of strings and parentheses. -/
def Unsplit : Balance → List Char → Prop
  | _, [] => True
  | b, c :: cs => (b = .text 0 → isSeparator c = false) ∧ Unsplit (b.next c) cs

theorem unsplit_append {b : Balance} {cs ds : List Char} :
    Unsplit b (cs ++ ds) ↔ Unsplit b cs ∧ Unsplit (b.run cs) ds := by
  induction cs generalizing b with
  | nil => simp [Unsplit]
  | cons c cs ih => simp [Unsplit, ih, and_assoc]

theorem unsplit_of_forall {b : Balance} {cs : List Char}
    (h : ∀ c ∈ cs, isSeparator c = false) : Unsplit b cs := by
  induction cs generalizing b with
  | nil => trivial
  | cons c cs ih =>
      obtain ⟨hc, hcs⟩ := List.forall_mem_cons.1 h
      exact ⟨fun _ => hc, ih hcs⟩

/-- A pass inside of one more parenthesis. -/
def lift : Balance → Balance
  | .text depth => .text (depth + 1)
  | .hash depth => .hash (depth + 1)
  | .quoted quote depth => .quoted quote (depth + 1)
  | .escaped quote depth => .escaped quote (depth + 1)
  | .lost => .lost

theorem next_lift {b : Balance} {c : Char} (h : b.next c ≠ lost) :
    b.lift.next c = (b.next c).lift := by
  cases b with
  | text depth =>
      simp only [lift, next, Nat.add_one_ne_zero, if_false] at h ⊢
      split_ifs at h ⊢ with hquote hopening hclosing hzero hname
      · rfl
      · rfl
      · exact absurd rfl h
      · exact congrArg text (by omega)
      · rfl
      · rfl
  | hash depth => simp [lift, next, isNameChar_of_next_hash h]
  | quoted quote depth =>
      simp only [lift, next]
      split_ifs
      all_goals rfl
  | escaped quote depth =>
      simp only [lift, next] at h ⊢
      split_ifs at h ⊢
      · exact absurd rfl h
      · rfl
  | lost => rfl

theorem run_lift {b : Balance} {cs : List Char} (h : b.run cs ≠ lost) :
    b.lift.run cs = (b.run cs).lift := by
  induction cs generalizing b with
  | nil => rfl
  | cons c cs ih =>
      rw [run_cons, next_lift (next_ne_lost_of_run h), ih h, run_cons]

/-- Inside of parentheses nothing separates. -/
theorem unsplit_lift {b : Balance} {cs : List Char} (h : b.run cs ≠ lost) : Unsplit b.lift cs := by
  induction cs generalizing b with
  | nil => trivial
  | cons c cs ih =>
      refine ⟨fun houtside => ?_, ?_⟩
      · cases b <;> cases houtside
      · rw [next_lift (next_ne_lost_of_run h)]
        exact ih h

theorem unsplit_quoted {quote : Char} (hquote : quote ≠ '\\') {depth : Nat} {cs : List Char}
    (h : Token.EndsString quote cs) : Unsplit (quoted quote depth) cs := by
  induction h with
  | close => exact ⟨by rintro ⟨⟩, trivial⟩
  | @escape c cs hc _ ih =>
      refine ⟨by rintro ⟨⟩, ?_⟩
      rw [next, if_neg hquote.symm, if_pos rfl]
      refine ⟨by rintro ⟨⟩, ?_⟩
      rwa [next, if_neg hc]
  | @char c cs hc hbackslash _ ih =>
      refine ⟨by rintro ⟨⟩, ?_⟩
      simpa [next, hc, hbackslash] using ih

end Balance

/-- The name of a function consists of characters of names. -/
theorem Token.isNameChar_of_scan_function {name cs rest : List Char}
    (h : Token.scan cs = some (⟨.function, name ++ ['(']⟩, rest)) :
    ∀ c ∈ name, Text.isNameChar c = true := by
  have hwritten := Token.isWritten_of_scan h
  generalize htoken : (⟨.function, name ++ ['(']⟩ : Token) = t at hwritten
  cases hwritten with
  | @function name' hname =>
      cases List.append_cancel_right (Token.mk.inj htoken).2
      exact hname
  | _ => cases htoken

namespace Component

/-! ## Components that separate nothing -/

/-- Whether a component is white space, a comma or a slash. -/
def separates (c : Component) : Bool :=
  c.isSpace || c.isComma || c.isLeaf .slash

/-- A balanced text in parentheses is balanced and separates nothing. -/
theorem unsplit_parenthesized {cs : List Char} (h : IsBalancedValue cs) :
    Balance.Unsplit (.text 0) ('(' :: (cs ++ [')'])) ∧ IsBalancedValue ('(' :: (cs ++ [')'])) := by
  have hrun : (Balance.text 0).run cs ≠ .lost := by
    rw [h]
    rintro ⟨⟩
  have hopening : (Balance.text 0).next '(' = (Balance.text 0).lift := rfl
  have hinside : (Balance.text 0).lift.run cs = .text 1 := by
    rw [Balance.run_lift hrun, h]
    rfl
  constructor
  · refine ⟨fun _ => by decide, ?_⟩
    rw [hopening, Balance.unsplit_append, hinside]
    exact ⟨Balance.unsplit_lift hrun, by rintro ⟨⟩, trivial⟩
  · rw [IsBalancedValue, Balance.run_cons, hopening, Balance.run_append, hinside]
    rfl

/-- A leaf that separates nothing holds no separator outside of strings. -/
theorem unsplit_of_classify {cs : List Char} {kind : LeafKind} {n : Nat}
    (h : Token.classify cs = some (.leaf kind, n)) (hkind : kind ∉ [.space, .comma, .slash]) :
    Balance.Unsplit (.text 0) (cs.take n) := by
  unfold Token.classify at h
  split_ifs at h with hfunction hnumber hword hstring hhash hspace
  · cases h
  · cases h
    refine Balance.unsplit_of_forall fun c hc => ?_
    rcases Token.mem_numberLength hc with hname | hdecimal | hmark
    · exact isSeparator_of_isNameChar hname
    · exact isSeparator_of_isDecimal hdecimal
    · simp only [List.mem_cons, List.not_mem_nil, or_false] at hmark
      rcases hmark with rfl | rfl | rfl
      all_goals decide
  · cases h
    exact Balance.unsplit_of_forall fun c hc =>
      isSeparator_of_isNameChar (Token.isNameChar_of_mem_wordLength hc)
  · cases h
    obtain ⟨quote, rest, htext, hquote, hends⟩ := Token.exists_rest_of_stringLength hstring
    have hends' : ∀ depth, Balance.Unsplit (.quoted quote depth) rest := fun depth =>
      Balance.unsplit_quoted (by rcases hquote with rfl | rfl <;> decide) hends
    rw [htext]
    refine ⟨fun _ => by rcases hquote with rfl | rfl <;> decide, ?_⟩
    rw [Balance.next_text_of_quote hquote]
    exact hends' 0
  · cases h
    obtain ⟨d, name, hname, hchars⟩ := Token.exists_name_of_hashLength hhash
    rw [hname]
    refine Balance.unsplit_of_forall (List.forall_mem_cons.2 ⟨by decide, fun c hc => ?_⟩)
    exact isSeparator_of_isNameChar (hchars c hc)
  · cases h
    exact absurd (by simp) hkind
  · cases cs with
    | nil => simp at h
    | cons c cs =>
        simp only [List.head?_cons, Option.bind_some, Option.map_eq_some_iff] at h
        obtain ⟨kind', hsingle, h⟩ := h
        cases h
        refine Balance.unsplit_of_forall (List.forall_mem_singleton.2 ?_)
        unfold Token.single? at hsingle
        split_ifs at hsingle with hopening hclosing hcomma hslash hother
        all_goals cases hsingle
        · simp at hkind
        · simp at hkind
        · simp only [not_or, Bool.not_eq_true] at hother
          simp [isSeparator, hcomma, hslash, hother]

/-- A separator starts with one. -/
theorem exists_separator_of_classify {cs : List Char} {kind : LeafKind} {n : Nat}
    (h : Token.classify cs = some (.leaf kind, n)) (hkind : kind ∈ [.space, .comma, .slash]) :
    ∃ c ds, cs.take n = c :: ds ∧ isSeparator c = true := by
  unfold Token.classify at h
  split_ifs at h with hfunction hnumber hword hstring hhash hspace
  · cases h
  · cases h
    simp at hkind
  · cases h
    simp at hkind
  · cases h
    simp at hkind
  · cases h
    simp at hkind
  · cases h
    cases cs with
    | nil => contradiction
    | cons c cs =>
        cases hc : Text.isBlank c with
        | false => simp [Token.run, hc] at hspace
        | true =>
            rw [Token.run, List.takeWhile_cons_of_pos hc, List.length_cons, List.take_succ_cons]
            exact ⟨c, _, rfl, by simp [isSeparator, hc]⟩
  · cases cs with
    | nil => simp at h
    | cons c cs =>
        simp only [List.head?_cons, Option.bind_some, Option.map_eq_some_iff] at h
        obtain ⟨kind', hsingle, h⟩ := h
        cases h
        refine ⟨c, [], rfl, ?_⟩
        unfold Token.single? at hsingle
        split_ifs at hsingle with hopening hclosing hcomma hslash hother
        all_goals cases hsingle
        · simp [isSeparator, hcomma]
        · simp [isSeparator, hslash]
        · simp at hkind

theorem separates_leaf {kind : LeafKind} {text : String} :
    (leaf kind text).separates = false ↔ kind ∉ [.space, .comma, .slash] := by
  cases kind <;> simp [separates, isSpace, isComma, isLeaf]

/-- A component is balanced, and nothing in it separates iff it is no separator. -/
theorem unsplit_chars_iff {rest : List Char} {c : Component} {cs : List Component}
    (h : ReadBefore rest (c :: cs)) :
    (Balance.Unsplit (.text 0) c.chars ↔ c.separates = false) ∧ IsBalancedValue c.chars := by
  cases c with
  | leaf kind text =>
      obtain ⟨hscan, -⟩ := h.leaf
      have hwritten := Token.isWritten_of_scan hscan
      have hclassify := Token.classify_cut (Token.scan_eq_some_iff.1 hscan).2 (Nat.le_refl _)
      rw [separates_leaf, chars]
      refine ⟨⟨fun hunsplit hkind => ?_, fun hkind => ?_⟩, Balance.run_of_isWritten hwritten 0⟩
      · obtain ⟨c, ds, htake, hc⟩ := exists_separator_of_classify hclassify hkind
        rw [List.take_length] at htake
        dsimp only at htake
        rw [htake] at hunsplit
        rw [hunsplit.1 rfl] at hc
        contradiction
      · have hunsplit := unsplit_of_classify hclassify hkind
        rwa [List.take_length] at hunsplit
  | function name children =>
      obtain ⟨hscan, hchildren, -⟩ := h.function
      obtain ⟨hunsplit, hbalanced⟩ :=
        unsplit_parenthesized ((exists_parseChars_iff _).1 ⟨children, hchildren.parseChars_eq⟩)
      have hname := Token.isNameChar_of_scan_function hscan
      have hrun : (Balance.text 0).run name.toList = .text 0 := Balance.run_text_of_name hname 0
      rw [chars, Balance.unsplit_append, hrun, IsBalancedValue, Balance.run_append, hrun]
      refine ⟨iff_of_true ⟨?_, hunsplit⟩ rfl, hbalanced⟩
      exact Balance.unsplit_of_forall fun c hc => isSeparator_of_isNameChar (hname c hc)
  | block children =>
      obtain ⟨hchildren, -⟩ := h.block
      obtain ⟨hunsplit, hbalanced⟩ :=
        unsplit_parenthesized ((exists_parseChars_iff _).1 ⟨children, hchildren.parseChars_eq⟩)
      rw [chars]
      exact ⟨iff_of_true hunsplit rfl, hbalanced⟩

/-- Nothing separates the components of a text iff none of them is a separator. -/
theorem unsplit_charsOfAll_iff {rest : List Char} {cs : List Component} (h : ReadBefore rest cs) :
    Balance.Unsplit (.text 0) (charsOfAll cs) ↔ ∀ c ∈ cs, c.separates = false := by
  induction cs with
  | nil => simp [Balance.Unsplit]
  | cons c cs ih =>
      obtain ⟨hunsplit, hbalanced⟩ := unsplit_chars_iff h
      rw [charsOfAll_cons, Balance.unsplit_append, hunsplit, hbalanced, ih h.cons.2,
        List.forall_mem_cons]

theorem unsplit_iff_of_parseChars {cs : List Char} {components : List Component}
    (h : parseChars cs = .ok components) :
    Balance.Unsplit (.text 0) cs ↔ ∀ c ∈ components, c.separates = false := by
  rw [← unsplit_charsOfAll_iff (readBefore_of_parseChars h), charsOfAll_of_parseChars h]

end Component

end ContrastAudit
