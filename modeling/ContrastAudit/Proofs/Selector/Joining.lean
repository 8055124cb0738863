import ContrastAudit.Proofs.Selector.Reading

/-!
# Joined selectors

A rule inside of another one is for the descendants of what the outer one selects: the texts of both
selectors are joined by a blank.  What the pieces of a text are does not depend on what follows it,
so that the two are read one after the other, with the blank as the combinator between them.  But a
sign of a combinator is taken for one where it is escaped as well, and the blank behind it is lost.

**Results.**
* `parse_join_iff`: when two accepted selectors that are joined are read one after the other.
-/

namespace ContrastAudit.Selector

/-- The selector for what `inner` selects among the descendants of what `outer` selects. -/
def within (outer inner : Selector) : Selector where
  text := outer.text ++ " " ++ inner.text
  target := inner.target
  context := inner.context ++ (.descendant, outer.target) :: outer.context

section Within

variable (outer inner : Selector)

theorem compounds_within : (outer.within inner).compounds = outer.compounds ++ inner.compounds := by
  simp [compounds, within]

theorem combinators_within :
    (outer.within inner).combinators = outer.combinators ++ .descendant :: inner.combinators := by
  simp [combinators, within]

theorem specificity_within :
    (outer.within inner).specificity = outer.specificity + inner.specificity := by
  simp only [specificity_eq_sum, compounds_within, List.map_append, List.sum_append]

end Within

/-! ## Normal form -/

section Passes

variable {c d : Char} {cs : List Char}

theorem collapse_append_cons (hc : Text.isBlank c = false) (cs ds : List Char) :
    collapse (cs ++ c :: ds) = collapse cs ++ c :: collapse ds := by
  induction cs with
  | nil => simp [collapse, hc]
  | cons b cs ih =>
      rw [List.cons_append, collapse, collapse, ih]
      cases Text.isBlank b with
      | false => rfl
      | true =>
          cases hcs : collapse cs with
          | nil => simp [ne_space_of_isBlank_eq hc]
          | cons b' bs =>
              by_cases hb' : b' = ' '
              · subst hb'
                rfl
              · simp [hb']

/-- What is kept in front of a character that is no blank does not depend on what follows it. -/
theorem exists_tighten_append_cons (hc : Text.isBlank c = false) (cs : List Char) (joined : Bool) :
    ∃ zs, ∀ ds, tighten joined (cs ++ c :: ds) = zs ++ c :: tighten (isJoint c) ds := by
  induction cs generalizing joined with
  | nil => exact ⟨[], tighten_cons hc joined⟩
  | cons b cs ih =>
      have hhead : ∀ ds, (cs ++ c :: ds).head? = (cs ++ [c]).head? := by
        intro ds
        cases cs <;> rfl
      by_cases hb : b = ' '
      · by_cases hdropped : (joined || (cs ++ [c]).head?.any isJoint) = true
        · obtain ⟨zs, hzs⟩ := ih joined
          refine ⟨zs, fun ds => ?_⟩
          rw [List.cons_append, tighten, if_pos hb, hhead, if_pos hdropped, hzs]
        · obtain ⟨zs, hzs⟩ := ih false
          refine ⟨' ' :: zs, fun ds => ?_⟩
          rw [List.cons_append, tighten, if_pos hb, hhead, if_neg hdropped, hzs, List.cons_append]
      · obtain ⟨zs, hzs⟩ := ih (isJoint b)
        refine ⟨b :: zs, fun ds => ?_⟩
        rw [List.cons_append, tighten, if_neg hb, hzs, List.cons_append]

/-- A blank between two characters that are none is lost behind the sign of a combinator. -/
theorem tighten_blank (hd : Text.isBlank d = false) (hjoint : isJoint d = false) (joined : Bool)
    (ds : List Char) :
    tighten joined (' ' :: d :: ds) =
      (if joined then [] else [' ']) ++ tighten false (d :: ds) := by
  rw [tighten, if_pos rfl, List.head?_cons, Option.any_some, hjoint, Bool.or_false,
    tighten_cons hd false]
  split
  · rw [tighten_cons hd]
    rfl
  · rfl

theorem exists_trim_append_blank {a b : List Char} (ha : Text.IsTrimmed (Text.trim a))
    (hb : Text.IsTrimmed (Text.trim b)) :
    ∃ gap, gap ≠ [] ∧ Text.allBlank gap = true ∧
      Text.trim (a ++ ' ' :: b) = Text.trim a ++ (gap ++ Text.trim b) := by
  obtain ⟨before, middle, hbefore, hmiddle, hsplita⟩ := Text.exists_trim_between a
  obtain ⟨middle', after, hmiddle', hafter, hsplitb⟩ := Text.exists_trim_between b
  have hgap : Text.allBlank (middle ++ ' ' :: middle') = true := by
    rw [Text.allBlank, List.all_append, List.all_cons, ← Text.allBlank, hmiddle, ← Text.allBlank,
      hmiddle']
    rfl
  refine ⟨middle ++ ' ' :: middle', by simp, hgap, ?_⟩
  have htrim := (ha.append (middle ++ ' ' :: middle') hb).trim_between hbefore hafter
  rw [← htrim]
  conv_lhs => rw [hsplita, hsplitb]
  simp only [List.append_assoc, List.cons_append]

/-- A trimmed text in normal form ends with its last character, and nothing in front of that depends
on what follows it. -/
theorem exists_tighten_of_isTrimmed (h : Text.IsTrimmed cs) :
    ∃ zs c, Text.isBlank c = false ∧
      ∀ ds, tighten false (collapse (cs ++ ds)) = zs ++ c :: tighten (isJoint c) (collapse ds) := by
  obtain ⟨-, c, hlast, hc⟩ := Text.isTrimmed_iff.1 h
  obtain ⟨xs, rfl⟩ := List.getLast?_eq_some_iff.1 hlast
  obtain ⟨zs, hzs⟩ := exists_tighten_append_cons hc (collapse xs) false
  refine ⟨zs, c, hc, fun ds => ?_⟩
  rw [List.append_assoc, List.singleton_append, collapse_append_cons hc, hzs]

/-- The normal form of a text whose two parts are joined by a blank. -/
theorem normalChars_join {a b : List Char} (ha : (normalChars a).getLast? = some c)
    (hb : (normalChars b).head? = some d) (hd : isJoint d = false) :
    normalChars (a ++ ' ' :: b) =
      normalChars a ++ ((if isJoint c then [] else [' ']) ++ normalChars b) := by
  have htrima : Text.IsTrimmed (Text.trim a) := Text.isTrimmed_trim fun hnil => by
    rw [normalChars, hnil] at ha
    contradiction
  have htrimb : Text.IsTrimmed (Text.trim b) := Text.isTrimmed_trim fun hnil => by
    rw [normalChars, hnil] at hb
    contradiction
  obtain ⟨gap, hgap, hblank, htrim⟩ := exists_trim_append_blank htrima htrimb
  obtain ⟨⟨d', hhead, hd'⟩, -⟩ := Text.isTrimmed_iff.1 htrimb
  obtain ⟨ds, hds⟩ := List.head?_eq_some_iff.1 hhead
  have hcollapse : collapse (d' :: ds) = d' :: collapse ds := by simp [collapse, hd']
  have hb' : normalChars b = tighten false (d' :: collapse ds) := by
    rw [normalChars, hds, hcollapse]
  obtain ⟨zs, c', hc', hzs⟩ := exists_tighten_of_isTrimmed htrima
  have ha' : normalChars a = zs ++ [c'] := by
    rw [normalChars, ← List.append_nil (Text.trim a), hzs]
    rfl
  obtain rfl : c' = c := by simpa [ha'] using ha
  obtain rfl : d' = d := by simpa [hb', tighten_cons hd'] using hb
  rw [normalChars, htrim, hzs, hds, collapse_gap_append hblank hd', if_neg hgap,
    List.singleton_append, tighten_blank hd' hd, ha', hb', List.append_assoc,
    List.singleton_append]

end Passes

/-! ## Pieces -/

/-- A text that starts with no character that could belong to a piece in front of it. -/
structure EndsPiece (rest : List Char) : Prop where
  endsName : EndsName rest
  notArgument : ∀ c ∈ rest.head?, c ≠ '('

section Lengths

variable {cs rest : List Char}

theorem takeWhile_isNameChar_append (hrest : EndsName rest) (cs : List Char) :
    (cs ++ rest).takeWhile Text.isNameChar = cs.takeWhile Text.isNameChar := by
  have hstop : rest.takeWhile Text.isNameChar = [] := by
    cases rest with
    | nil => rfl
    | cons c rest => simp [hrest c rfl]
  rw [List.takeWhile_append]
  split
  · next h =>
      rw [hstop, List.append_nil, (List.takeWhile_prefix _).eq_of_length h]
  · rfl

theorem tagLength_append_of_endsName (h : tagLength cs ≠ 0) (hrest : EndsName rest) :
    tagLength (cs ++ rest) = tagLength cs := by
  fun_cases tagLength cs with
  | case1 c cs hc => simp [tagLength, hc, takeWhile_isNameChar_append hrest]
  | case2 c cs hc => simp [tagLength, hc] at h
  | case3 c cs hhyphen hc =>
      rw [List.cons_append, tagLength, if_pos hc, takeWhile_isNameChar_append hrest]
      rintro d ds rfl
      contradiction
  | case4 c cs hhyphen hc => simp [tagLength, hc] at h
  | case5 => simp [tagLength] at h

/-- A name that does not stop at a last backslash is not longer in a longer text. -/
theorem nameLength_append (hrest : EndsName rest) (h : cs.drop (nameLength cs) ≠ ['\\']) :
    nameLength (cs ++ rest) = nameLength cs := by
  fun_induction nameLength cs with
  | case1 => exact nameLength_of_endsName hrest
  | case2 cs => rfl
  | case3 d cs hd ih =>
      rw [Nat.add_comm, List.drop_succ_cons, List.drop_succ_cons] at h
      rw [List.cons_append, List.cons_append, nameLength, if_neg hd, ih h]
  | case4 c cs hslash hc ih =>
      rw [Nat.add_comm, List.drop_succ_cons] at h
      rw [List.cons_append, nameLength, if_pos hc, ih h]
      rintro d ds rfl
      contradiction
  | case5 c cs hslash hc =>
      cases cs with
      | nil =>
          have hne : c ≠ '\\' := by
            rintro rfl
            exact h rfl
          rw [List.cons_append, nameLength, if_neg hc]
          intro d ds hd
          exact absurd hd hne
      | cons d cs =>
          rw [List.cons_append, nameLength, if_neg hc]
          intro d' ds hd _
          exact hslash d cs hd rfl

theorem bracketLength_append (h : bracketLength cs ≠ 0) (rest : List Char) :
    bracketLength (cs ++ rest) = bracketLength cs := by
  have hinside : (cs.takeWhile (· != ']')).length < cs.length := by
    by_contra hnot
    exact h (if_neg hnot)
  have happend : (cs ++ rest).takeWhile (· != ']') = cs.takeWhile (· != ']') := by
    rw [List.takeWhile_append, if_neg (Nat.ne_of_lt hinside)]
  have hlonger : (cs.takeWhile (· != ']')).length < (cs ++ rest).length :=
    Nat.lt_of_lt_of_le hinside (by simp)
  rw [bracketLength, bracketLength, happend, if_pos hlonger, if_pos hinside]

theorem argumentLength_append {nested : Bool} (h : argumentLength nested cs ≠ 0)
    (rest : List Char) : argumentLength nested (cs ++ rest) = argumentLength nested cs := by
  have more_ne : ∀ {n : Nat}, (if n = 0 then 0 else n + 1) ≠ 0 → n ≠ 0 := by
    intro n hn hzero
    exact hn (if_pos hzero)
  induction cs generalizing nested with
  | nil => exact absurd rfl h
  | cons c cs ih =>
      rw [List.cons_append, argumentLength, argumentLength]
      rw [argumentLength] at h
      split_ifs at h ⊢
      · simp only [ih (more_ne h)]
      · rfl
      · contradiction
      · simp only [ih (more_ne h)]
      · simp only [ih (more_ne h)]

/-! ### Pseudo-classes -/

/-- The number of colons that a pseudo-class starts with. -/
def colons (cs : List Char) : Nat :=
  if cs.take 2 = [':', ':'] then 2 else if cs.head? = some ':' then 1 else 0

/-- The length of the name of a pseudo-class. -/
def pseudoName (cs : List Char) : Nat :=
  ((cs.drop (colons cs)).takeWhile Text.isNameChar).length

/-- The length of an argument with its parentheses, or zero if there is none that is closed. -/
def argument : List Char → Nat
  | '(' :: cs => if argumentLength false cs = 0 then 0 else 1 + argumentLength false cs
  | _ => 0

theorem pseudoLength_eq (cs : List Char) :
    pseudoLength cs =
      if colons cs = 0 ∨ pseudoName cs = 0 then 0
      else colons cs + pseudoName cs + argument (cs.drop (colons cs + pseudoName cs)) := by
  have hargument : ∀ (n : Nat) (behind : List Char),
      (match behind with
        | '(' :: ds =>
          n + (if argumentLength false ds = 0 then 0 else 1 + argumentLength false ds)
        | _ => n) = n + argument behind := by
    intro n behind
    unfold argument
    split <;> rfl
  rw [← hargument]
  change (if (decide (colons cs = 0) || decide (pseudoName cs = 0)) = true then 0 else _) = _
  simp only [Bool.or_eq_true, decide_eq_true_eq]
  rfl

theorem colons_le (cs : List Char) : colons cs ≤ cs.length := by
  match cs with
  | [] => exact Nat.le_refl 0
  | [c] => by_cases hc : c = ':' <;> simp [colons, hc]
  | c :: c' :: cs =>
      simp only [colons, List.length_cons]
      split_ifs <;> omega

theorem colons_append (h : pseudoName cs ≠ 0) (rest : List Char) :
    colons (cs ++ rest) = colons cs := by
  match cs with
  | [] => exact absurd rfl h
  | [c] =>
      by_cases hc : c = ':'
      · subst hc
        exact absurd rfl h
      · cases rest <;> simp [colons, hc]
  | c :: c' :: cs => rfl

theorem pseudoName_append (h : pseudoName cs ≠ 0) (hrest : EndsName rest) :
    pseudoName (cs ++ rest) = pseudoName cs := by
  rw [pseudoName, colons_append h, List.drop_append_of_le_length (colons_le cs),
    takeWhile_isNameChar_append hrest, pseudoName]

theorem colons_add_pseudoName_le (cs : List Char) : colons cs + pseudoName cs ≤ cs.length := by
  have hname : pseudoName cs ≤ (cs.drop (colons cs)).length :=
    (List.takeWhile_prefix Text.isNameChar).length_le
  have hcolons := colons_le cs
  rw [List.length_drop] at hname
  omega

/-- An argument that is not left open is not longer in a longer text. -/
theorem argument_append (hopen : ∀ c ∈ (cs.drop (argument cs)).head?, c ≠ '(')
    (hrest : ∀ c ∈ rest.head?, c ≠ '(') : argument (cs ++ rest) = argument cs := by
  fun_cases argument cs with
  | case1 cs hzero =>
      rw [argument, if_pos hzero] at hopen
      exact absurd rfl (hopen '(' rfl)
  | case2 cs hclosed =>
      rw [List.cons_append, argument, argumentLength_append hclosed, if_neg hclosed]
  | case3 cs hnot =>
      rw [argument]
      rintro ds hds
      cases cs with
      | nil =>
          rw [List.nil_append] at hds
          exact hrest '(' (by rw [hds]; rfl) rfl
      | cons c cs =>
          obtain ⟨rfl, -⟩ := List.cons.inj hds
          exact hnot cs rfl

/-- A pseudo-class whose argument is not left open is not longer in a longer text. -/
theorem pseudoLength_append (h : pseudoLength cs ≠ 0)
    (hopen : ∀ c ∈ (cs.drop (pseudoLength cs)).head?, c ≠ '(') (hrest : EndsPiece rest) :
    pseudoLength (cs ++ rest) = pseudoLength cs := by
  have hnonzero : ¬(colons cs = 0 ∨ pseudoName cs = 0) := by
    intro hzero
    rw [pseudoLength_eq, if_pos hzero] at h
    exact h rfl
  have hname : pseudoName cs ≠ 0 := fun hzero => hnonzero (.inr hzero)
  rw [pseudoLength_eq, if_neg hnonzero, ← List.drop_drop] at hopen
  rw [pseudoLength_eq, pseudoLength_eq, colons_append hname, pseudoName_append hname hrest.endsName,
    List.drop_append_of_le_length (colons_add_pseudoName_le cs),
    argument_append hopen hrest.notArgument]

/-! ### Pieces of longer texts -/

theorem tagLength_le (cs : List Char) : tagLength cs ≤ cs.length := by
  have htaken : ∀ ds : List Char, (ds.takeWhile Text.isNameChar).length ≤ ds.length :=
    fun ds => (List.takeWhile_prefix _).length_le
  fun_cases tagLength cs with
  | case1 c cs hc =>
      have := htaken cs
      simp only [List.length_cons]
      omega
  | case3 c cs hhyphen hc =>
      have := htaken cs
      simp only [List.length_cons]
      omega
  | case2 | case4 | case5 => exact Nat.zero_le _

theorem bracketLength_le (cs : List Char) : bracketLength cs ≤ cs.length := by
  simp only [bracketLength]
  split_ifs with hinside
  · exact hinside
  · exact Nat.zero_le _

theorem nameLength_le (cs : List Char) : nameLength cs ≤ cs.length := by
  fun_induction nameLength cs with
  | case3 d cs hd ih =>
      simp only [List.length_cons]
      omega
  | case4 c cs hslash hc ih =>
      simp only [List.length_cons]
      omega
  | case1 | case2 | case5 => exact Nat.zero_le _

theorem argumentLength_le (nested : Bool) (cs : List Char) :
    argumentLength nested cs ≤ cs.length := by
  induction cs generalizing nested with
  | nil => exact Nat.zero_le _
  | cons c cs ih =>
      have hfalse := ih false
      have htrue := ih true
      have hsame := ih nested
      simp only [argumentLength, List.length_cons]
      split_ifs <;> omega

theorem pseudoLength_le (cs : List Char) : pseudoLength cs ≤ cs.length := by
  have hname := colons_add_pseudoName_le cs
  have hargument : ∀ ds, argument ds ≤ ds.length := by
    intro ds
    fun_cases argument ds with
    | case2 ds hclosed =>
        have := argumentLength_le false ds
        simp only [List.length_cons]
        omega
    | case1 | case3 => exact Nat.zero_le _
  have hbehind := hargument (cs.drop (colons cs + pseudoName cs))
  rw [List.length_drop] at hbehind
  rw [pseudoLength_eq]
  split_ifs <;> omega

/-- A text that does not break off inside of the piece in front of it. -/
structure IsClosed (rest : List Char) : Prop where
  notEscape : rest ≠ ['\\']
  notArgument : ∀ c ∈ rest.head?, c ≠ '('

variable {p : Piece}

theorem pieces_of_scan_eq_none (h : scan cs = none) : pieces cs = ([], cs) := by
  rw [pieces]
  split
  · rfl
  · next hsome => simp [h] at hsome

theorem isClosed_of_pieces (h : (pieces cs).2 = []) : IsClosed cs where
  notEscape := by
    rintro rfl
    rw [pieces_of_scan_eq_none rfl] at h
    contradiction
  notArgument := by
    rintro c hc rfl
    obtain ⟨ds, rfl⟩ := List.head?_eq_some_iff.1 hc
    rw [pieces_of_scan_eq_none rfl] at h
    contradiction

theorem classify_of_not_mem {c : Char} (hc : c ∉ [' ', '>', '+', '~', '*', '.', '#', '[', ':'])
    (cs : List Char) :
    classify (c :: cs) =
      some (.tag (Text.lowercase (String.ofList ((c :: cs).take (tagLength (c :: cs))))),
        tagLength (c :: cs)) := by
  simp only [List.mem_cons, List.not_mem_nil, or_false, not_or] at hc
  simp [classify, hc]

/-- A piece that is read to its end is the same in a longer text. -/
structure Keeps (cs rest : List Char) (meaning : Meaning) (n : Nat) : Prop where
  le_length : n ≤ cs.length
  classify_eq : classify (cs ++ rest) = some (meaning, n)

theorem keeps_named {sign : Char} {meaning : String → Meaning} {m : Meaning} {n : Nat}
    (hsign : ∀ cs, classify (sign :: cs) =
      some (meaning (String.ofList (unescape (cs.take (nameLength cs)))),
        if nameLength cs = 0 then 0 else nameLength cs + 1))
    (h : classify (sign :: cs) = some (m, n)) (hn : n ≠ 0)
    (hclosed : IsClosed ((sign :: cs).drop n)) (hrest : EndsPiece rest) :
    Keeps (sign :: cs) rest m n := by
  rw [hsign, Option.some.injEq, Prod.mk.injEq] at h
  obtain ⟨rfl, hlength⟩ := h
  have hne : nameLength cs ≠ 0 := fun hzero => hn (by rw [← hlength, if_pos hzero])
  rw [if_neg hne] at hlength
  subst hlength
  have hle := nameLength_le cs
  refine ⟨Nat.succ_le_succ hle, ?_⟩
  rw [List.cons_append, hsign, nameLength_append hrest.endsName hclosed.notEscape,
    List.take_append_of_le_length hle, if_neg hne]

theorem exists_classify_of_mem {c : Char} (hc : c ∈ [' ', '>', '+', '~', '*']) :
    ∃ m, ∀ cs, classify (c :: cs) = some (m, 1) := by
  simp only [List.mem_cons, List.not_mem_nil, or_false] at hc
  rcases hc with rfl | rfl | rfl | rfl | rfl
  all_goals exact ⟨_, fun _ => rfl⟩

theorem keeps_bracket {m : Meaning} {n : Nat} (h : classify ('[' :: cs) = some (m, n))
    (hn : n ≠ 0) : Keeps ('[' :: cs) rest m n := by
  have hclassify : ∀ ds, classify ('[' :: ds) =
      some (.dropped, if bracketLength ds = 0 then 0 else bracketLength ds + 1) := fun _ => rfl
  rw [hclassify, Option.some.injEq, Prod.mk.injEq] at h
  obtain ⟨rfl, hlength⟩ := h
  have hne : bracketLength cs ≠ 0 := fun hzero => hn (by rw [← hlength, if_pos hzero])
  rw [if_neg hne] at hlength
  subst hlength
  refine ⟨Nat.succ_le_succ (bracketLength_le cs), ?_⟩
  rw [List.cons_append, hclassify, bracketLength_append hne, if_neg hne]

theorem keeps_pseudo {m : Meaning} {n : Nat} (h : classify (':' :: cs) = some (m, n))
    (hn : n ≠ 0) (hclosed : IsClosed ((':' :: cs).drop n)) (hrest : EndsPiece rest) :
    Keeps (':' :: cs) rest m n := by
  have hclassify : ∀ ds, classify (':' :: ds) = some (.dropped, pseudoLength (':' :: ds)) :=
    fun _ => rfl
  rw [hclassify] at h
  cases h
  refine ⟨pseudoLength_le _, ?_⟩
  rw [List.cons_append, hclassify, ← List.cons_append,
    pseudoLength_append hn hclosed.notArgument hrest]

theorem keeps_of_classify {m : Meaning} {n : Nat} (h : classify cs = some (m, n)) (hn : n ≠ 0)
    (hclosed : IsClosed (cs.drop n)) (hrest : EndsPiece rest) : Keeps cs rest m n := by
  cases cs with
  | nil => contradiction
  | cons c cs =>
      by_cases hsingle : c ∈ [' ', '>', '+', '~', '*']
      · obtain ⟨m', hsame⟩ := exists_classify_of_mem hsingle
        rw [hsame] at h
        cases h
        exact ⟨by simp, hsame _⟩
      · by_cases hsign : c ∈ ['.', '#', '[', ':']
        · simp only [List.mem_cons, List.not_mem_nil, or_false] at hsign
          rcases hsign with rfl | rfl | rfl | rfl
          · exact keeps_named (fun _ => rfl) h hn hclosed hrest
          · exact keeps_named (fun _ => rfl) h hn hclosed hrest
          · exact keeps_bracket h hn
          · exact keeps_pseudo h hn hclosed hrest
        · have hother : c ∉ [' ', '>', '+', '~', '*', '.', '#', '[', ':'] :=
            List.not_mem_append hsingle hsign
          rw [classify_of_not_mem hother] at h
          cases h
          have htag := tagLength_append_of_endsName hn hrest.endsName
          refine ⟨tagLength_le _, ?_⟩
          rw [List.cons_append, classify_of_not_mem hother, ← List.cons_append, htag,
            List.take_append_of_le_length (tagLength_le _)]

theorem exists_classify_of_scan (h : scan cs = some (p, rest)) :
    ∃ n, classify cs = some (p.meaning, n + 1) ∧ p.chars = cs.take (n + 1) ∧
      rest = cs.drop (n + 1) := by
  unfold scan at h
  split at h <;> try contradiction
  next m n hclassify =>
    cases h
    exact ⟨n, hclassify, rfl, rfl⟩

theorem scan_append_of_endsPiece (h : scan cs = some (p, rest)) (hclosed : IsClosed rest)
    {ds : List Char} (hds : EndsPiece ds) : scan (cs ++ ds) = some (p, rest ++ ds) := by
  obtain ⟨n, hclassify, hchars, rfl⟩ := exists_classify_of_scan h
  obtain ⟨hle, hkept⟩ := keeps_of_classify hclassify (Nat.succ_ne_zero n) hclosed hds
  have hlength : p.chars.length = n + 1 := by
    rw [hchars, List.length_take, Nat.min_eq_left hle]
  have hsplit : cs ++ ds = p.chars ++ (cs.drop (n + 1) ++ ds) := by
    rw [hchars, ← List.append_assoc, List.take_append_drop]
  have hne : p.chars ≠ [] := by
    rintro hnil
    rw [hnil] at hlength
    contradiction
  rw [hsplit] at hkept ⊢
  exact scan_append hne (hlength ▸ hkept)

/-- The pieces of a text that is read to its end come first in a longer text. -/
theorem pieces_append_of_endsPiece (h : (pieces cs).2 = []) {ds : List Char}
    (hds : EndsPiece ds) :
    pieces (cs ++ ds) = ((pieces cs).1 ++ (pieces ds).1, (pieces ds).2) := by
  fun_induction pieces cs with
  | case1 cs hscan =>
      obtain rfl : cs = [] := h
      rfl
  | case2 cs p rest hscan hlt ih =>
      rw [pieces_of_scan (scan_append_of_endsPiece hscan (isClosed_of_pieces h) hds), ih h]
      rfl

end Lengths

/-! ## Assembly -/

section Assembly

variable {context complete : List (Combinator × Compound)} {current : Option Compound}
  {target : Compound} {last offset : Nat} {ps : List Piece}

/-- Pieces that are assembled to the end come first among more of them. -/
theorem exists_assemble_append
    (h : assemble false context current last offset ps = .ok (target, complete))
    (qs : List Piece) :
    ∃ last' offset', assemble false context current last offset (ps ++ qs) =
      assemble false complete (some target) last' offset' qs := by
  induction ps generalizing context current last offset with
  | nil =>
      cases current with
      | none => contradiction
      | some c =>
          cases h
          exact ⟨last, offset, rfl⟩
  | cons p ps ih =>
      obtain ⟨meaning, chars⟩ := p
      cases meaning with
      | combinator c =>
          cases current with
          | none => contradiction
          | some left => exact ih h
      | _ => exact ih h

/-- What is complete to the left stays to the left, whatever the counts of characters. -/
theorem assemble_context
    (h : assemble false context current last offset ps = .ok (target, complete))
    (base : List (Combinator × Compound)) (last' offset' : Nat) :
    assemble false (context ++ base) current last' offset' ps = .ok (target, complete ++ base) := by
  induction ps generalizing context current last offset last' offset' with
  | nil =>
      cases current with
      | none => contradiction
      | some c =>
          cases h
          rfl
  | cons p ps ih =>
      obtain ⟨meaning, chars⟩ := p
      cases meaning with
      | combinator c =>
          cases current with
          | none => contradiction
          | some left => exact ih h _ _
      | _ => exact ih h _ _

theorem assemble_stuck : ∀ r, assemble true context current last offset ps ≠ .ok r := by
  intro r h
  induction ps generalizing context current last offset with
  | nil => contradiction
  | cons p ps ih =>
      obtain ⟨meaning, chars⟩ := p
      cases meaning with
      | combinator c =>
          cases current with
          | none => contradiction
          | some left => exact ih h
      | _ => exact ih h

end Assembly

section Join

variable {cs ds : List Char} {target target' : Compound}
  {context context' : List (Combinator × Compound)}

/-- A selector that is read has all of its text cut into pieces, and they are assembled. -/
theorem parseChars_eq_ok (h : parseChars cs = .ok (target, context)) :
    (pieces cs).2 = [] ∧ assemble false [] none 0 0 (pieces cs).1 = .ok (target, context) := by
  have hread : assemble (!(pieces cs).2.isEmpty) [] none 0 0 (pieces cs).1 =
      .ok (target, context) := h
  cases hrest : (pieces cs).2 with
  | nil =>
      rw [hrest] at hread
      exact ⟨rfl, hread⟩
  | cons c rest =>
      rw [hrest] at hread
      exact absurd hread (assemble_stuck _)

theorem parseChars_join (hcs : parseChars cs = .ok (target, context))
    (hds : parseChars ds = .ok (target', context')) :
    parseChars (cs ++ ' ' :: ds) =
      .ok (target', context' ++ (.descendant, target) :: context) := by
  obtain ⟨hrest, hok⟩ := parseChars_eq_ok hcs
  obtain ⟨hrest', hok'⟩ := parseChars_eq_ok hds
  have hblank : EndsPiece (' ' :: ds) := by
    refine ⟨?_, ?_⟩
    · rintro c hc
      obtain rfl : ' ' = c := Option.some.inj hc
      decide
    · rintro c hc
      obtain rfl : ' ' = c := Option.some.inj hc
      decide
  have hscan : scan (' ' :: ds) = some (⟨.combinator .descendant, [' ']⟩, ds) := rfl
  obtain ⟨last, offset, happend⟩ := exists_assemble_append hok
    (⟨.combinator .descendant, [' ']⟩ :: (pieces ds).1)
  rw [parseChars, pieces_append_of_endsPiece hrest hblank, pieces_of_scan hscan, hrest']
  exact happend.trans (assemble_context hok' _ _ _)

theorem ne_nil_of_parseChars (h : parseChars cs = .ok (target, context)) : cs ≠ [] := by
  rintro rfl
  rw [parseChars, pieces_nil] at h
  contradiction

/-- The first character of a selector that is read is no sign of a combinator. -/
theorem exists_head?_of_parseChars (h : parseChars cs = .ok (target, context)) :
    ∃ c, cs.head? = some c ∧ isJoint c = false := by
  obtain ⟨c, cs, rfl⟩ := List.exists_cons_of_ne_nil (ne_nil_of_parseChars h)
  refine ⟨c, rfl, Bool.eq_false_iff.2 fun hjoint => ?_⟩
  obtain ⟨-, hok⟩ := parseChars_eq_ok h
  have hscan : ∃ combinator, scan (c :: cs) = some (⟨.combinator combinator, [c]⟩, cs) := by
    simp only [isJoint, Bool.or_eq_true, beq_iff_eq, or_assoc] at hjoint
    rcases hjoint with rfl | rfl | rfl
    all_goals exact ⟨_, rfl⟩
  obtain ⟨combinator, hscan⟩ := hscan
  rw [pieces_of_scan hscan] at hok
  contradiction

end Join

variable {a b : String} {s t : Selector}

theorem parse_eq_ok_iff :
    parse a = .ok s ↔ s.text = String.ofList (normalChars a.toList) ∧
      parseChars (normalChars a.toList) = .ok (s.target, s.context) := by
  obtain ⟨text, target, context⟩ := s
  cases hread : parseChars (normalChars a.toList) with
  | error offset => simp [parse, hread]
  | ok read => simp [parse, hread, Prod.ext_iff, eq_comm]

/-- A text joined with another one by a blank is read as the selector for descendants exactly if it
does not end with the sign of a combinator, which is then part of a name. -/
theorem parse_join_iff (hs : parse a = .ok s) (ht : parse b = .ok t) :
    (parse (a ++ " " ++ b) = .ok (s.within t) ↔
        ∀ c ∈ s.text.toList.getLast?, isJoint c = false) ∧
      (s.within t).compounds = s.compounds ++ t.compounds ∧
      (s.within t).combinators = s.combinators ++ .descendant :: t.combinators ∧
      (s.within t).specificity = s.specificity + t.specificity := by
  refine ⟨?_, compounds_within s t, combinators_within s t, specificity_within s t⟩
  obtain ⟨htext, hparse⟩ := parse_eq_ok_iff.1 hs
  obtain ⟨htext', hparse'⟩ := parse_eq_ok_iff.1 ht
  obtain ⟨d, hhead, hd⟩ := exists_head?_of_parseChars hparse'
  have hlast := List.getLast?_eq_some_getLast (ne_nil_of_parseChars hparse)
  have hnormal := normalChars_join hlast hhead hd
  have hchars : (a ++ " " ++ b).toList = a.toList ++ ' ' :: b.toList := by simp
  have hwithin : (s.within t).text.toList =
      normalChars a.toList ++ (' ' :: normalChars b.toList) := by
    simp [within, htext, htext']
  rw [htext, String.toList_ofList, hlast]
  simp only [Option.mem_some_iff, forall_eq']
  constructor
  · intro hjoin
    -- Without the blank the text would be shorter than that of the selector for descendants.
    rw [parse_eq_ok_iff, hchars, hnormal] at hjoin
    have hlength := congrArg (·.toList.length) hjoin.1
    by_contra hjoint
    rw [Bool.not_eq_false] at hjoint
    rw [hwithin, hjoint] at hlength
    simp at hlength
  · intro hjoint
    have hnormal' : normalChars (a ++ " " ++ b).toList =
        normalChars a.toList ++ ' ' :: normalChars b.toList := by
      rw [hchars, hnormal, hjoint]
      rfl
    refine parse_eq_ok_iff.2 ⟨?_, ?_⟩
    · rw [hnormal', ← hwithin, String.ofList_toList]
    · rw [hnormal']
      exact parseChars_join hparse hparse'

/-- The items of a list that is a child of a navigation. -/
theorem parse_join_iff_items :
    parse "nav > ul" = .ok ⟨"nav>ul", { tag := some "ul" }, [(.child, { tag := some "nav" })]⟩ ∧
      parse "li.on" = .ok ⟨"li.on", { tag := some "li", classes := ["on"] }, []⟩ ∧
      parse ("nav > ul" ++ " " ++ "li.on") =
        .ok ⟨"nav>ul li.on", { tag := some "li", classes := ["on"] },
          [(.descendant, { tag := some "ul" }), (.child, { tag := some "nav" })]⟩ := by
  have houter : parse "nav > ul" =
      .ok ⟨"nav>ul", { tag := some "ul" }, [(.child, { tag := some "nav" })]⟩ := by
    decide +kernel
  have hinner : parse "li.on" = .ok ⟨"li.on", { tag := some "li", classes := ["on"] }, []⟩ := by
    decide +kernel
  have hlast : "nav>ul".toList.getLast? = some 'l' := by decide +kernel
  have hend : ∀ c ∈ "nav>ul".toList.getLast?, isJoint c = false := by
    rw [hlast]
    rintro _ ⟨⟩
    decide
  have hjoin := (parse_join_iff houter hinner).1.2 hend
  exact ⟨houter, hinner, hjoin⟩

/-- The blank behind an escaped sign is lost, and the element itself has to be of both classes. -/
theorem not_forall_parse_join :
    ¬ ∀ (a b : String) (s t : Selector), parse a = .ok s → parse b = .ok t →
      ∃ u, parse (a ++ " " ++ b) = .ok u ∧ u.compounds = s.compounds ++ t.compounds ∧
        u.combinators = s.combinators ++ .descendant :: t.combinators ∧
        u.specificity = s.specificity + t.specificity := by
  intro h
  have houter : parse ".a\\>" = .ok ⟨".a\\>", { classes := ["a>"] }, []⟩ := by decide +kernel
  have hinner : parse ".b" = .ok ⟨".b", { classes := ["b"] }, []⟩ := by decide +kernel
  have hmerged : parse (".a\\>" ++ " " ++ ".b") =
      .ok ⟨".a\\>.b", { classes := ["a>", "b"] }, []⟩ := by
    decide +kernel
  obtain ⟨u, hu, hcompounds, -⟩ := h _ _ _ _ houter hinner
  rw [hmerged] at hu
  cases hu
  contradiction

end ContrastAudit.Selector
