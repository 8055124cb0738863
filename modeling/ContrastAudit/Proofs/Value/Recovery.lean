import Mathlib.Data.List.Forall2
import ContrastAudit.Proofs.Value.Commas

/-!
# Sequences recovered from their arguments

A sequence of components is cut into arguments at its first commas, as many as a number allows or
all of them if the number is negative.  Nothing but white space around the arguments is lost: the
arguments in their order, padded with white space and with the commas put back between them, are
the sequence.  Together with the number of arguments this determines them.

A number allows as many cuts as `cuts` says, `IsSplit` relates a sequence to the parts between some
of its first commas, and `IsArguments` says what the arguments of a sequence are without cutting it.

**Results.**
* `isSplitUpTo_splitCommas`, `IsSplit.splitCommas_eq`: the parts between commas exist and are
  determined by their number.
* `map_stripSpace_eq_iff`: the arguments are the parts without the white space around them.
* `splitArguments_eq_iff_isArguments`: a sequence is recovered from the arguments it is cut into,
  and they are determined by that.
-/

namespace ContrastAudit.Component

variable {number : Int} {c comma : Component} {cs front part argument : List Component}
  {parts arguments : List (List Component)}

/-! ## The number of cuts -/

/-- The number of cuts in a sequence: no more than its commas, and all of them if the number that
is allowed is negative. -/
def cuts (number : Int) (cs : List Component) : Nat :=
  if number < 0 then cs.countP isComma else min number.toNat (cs.countP isComma)

theorem countP_isComma_eq_zero_iff : cs.countP isComma = 0 ↔ NoComma cs := by
  simp [List.countP_eq_zero, NoComma]

theorem countP_isComma_append_comma (hfront : NoComma front) (hcomma : comma.isComma = true) :
    (front ++ comma :: cs).countP isComma = cs.countP isComma + 1 := by
  rw [List.countP_append, countP_isComma_eq_zero_iff.2 hfront, List.countP_cons_of_pos hcomma,
    Nat.zero_add]

theorem cuts_of_neg (hnumber : number < 0) : cuts number cs = cs.countP isComma :=
  if_pos hnumber

theorem cuts_eq_zero_iff : cuts number cs = 0 ↔ number = 0 ∨ NoComma cs := by
  rw [← countP_isComma_eq_zero_iff, cuts]
  split_ifs <;> omega

/-- The first comma takes one cut of the number that is allowed. -/
theorem cuts_append_comma (hnumber : number ≠ 0) (hfront : NoComma front)
    (hcomma : comma.isComma = true) :
    cuts number (front ++ comma :: cs) = cuts (number - 1) cs + 1 := by
  rw [cuts, cuts, countP_isComma_append_comma hfront hcomma]
  split_ifs <;> omega

theorem cuts_cons (hc : c.isComma = false) : cuts number (c :: cs) = cuts number cs := by
  rw [cuts, cuts, List.countP_cons_of_neg (by simp [hc])]

/-! ## Cutting at commas -/

/-- The parts in their order with a comma between each two of them are the sequence, and only the
last part has further commas. -/
inductive IsSplit : List (List Component) → List Component → Prop
  | last (part : List Component) : IsSplit [part] part
  | cut {part : List Component} {comma : Component} {parts : List (List Component)}
      {cs : List Component} (hpart : NoComma part) (hcomma : comma.isComma = true)
      (hrest : IsSplit parts cs) :
      IsSplit (part :: parts) (part ++ comma :: cs)

theorem IsSplit.length_pos (h : IsSplit parts cs) : 0 < parts.length := by
  cases h <;> simp

/-- Where all cuts are made, no part has a comma. -/
theorem IsSplit.noComma (h : IsSplit parts cs) (hlength : parts.length = cs.countP isComma + 1) :
    ∀ part ∈ parts, NoComma part := by
  induction h with
  | last part =>
      have hzero : part.countP isComma = 0 := by simpa using hlength
      exact List.forall_mem_singleton.2 (countP_isComma_eq_zero_iff.1 hzero)
  | cut hpart hcomma _ ih =>
      rw [countP_isComma_append_comma hpart hcomma, List.length_cons] at hlength
      exact List.forall_mem_cons.2 ⟨hpart, ih (Nat.succ.inj hlength)⟩

/-- The parts of a sequence that is cut at as many commas as a number allows. -/
structure IsSplitUpTo (number : Int) (cs : List Component) (parts : List (List Component)) :
    Prop where
  isSplit : IsSplit parts cs
  length_eq : parts.length = cuts number cs + 1

theorem isSplitUpTo_of_cuts_eq_zero (h : cuts number cs = 0) : IsSplitUpTo number cs [cs] :=
  ⟨.last cs, by simp [h]⟩

/-- A comma starts a new part. -/
theorem IsSplitUpTo.cons_comma (h : IsSplitUpTo (number - 1) cs parts) (hnumber : number ≠ 0)
    (hcomma : comma.isComma = true) : IsSplitUpTo number (comma :: cs) ([] :: parts) := by
  have hnone : NoComma [] := by simp [NoComma]
  refine ⟨.cut hnone hcomma h.isSplit, ?_⟩
  rw [List.length_cons, h.length_eq]
  exact congrArg (· + 1) (cuts_append_comma hnumber hnone hcomma).symm

/-- Any other component belongs to the part that follows. -/
theorem IsSplitUpTo.cons (h : IsSplitUpTo number cs (part :: parts)) (hc : c.isComma = false) :
    IsSplitUpTo number (c :: cs) ((c :: part) :: parts) := by
  refine ⟨?_, ?_⟩
  · cases h.isSplit with
    | last => exact .last _
    | cut hpart hcomma hrest => exact .cut (noComma_cons.2 ⟨hc, hpart⟩) hcomma hrest
  · rw [cuts_cons hc, ← h.length_eq, List.length_cons, List.length_cons]

/-- A sequence is cut at as many commas as a number allows. -/
theorem isSplitUpTo_splitCommas (number : Int) (cs : List Component) :
    IsSplitUpTo number cs (splitCommas (limitOf number) cs) := by
  -- every comma that is cut at counts the number down, so the induction is for all numbers
  induction cs generalizing number with
  | nil => exact isSplitUpTo_of_cuts_eq_zero (cuts_eq_zero_iff.2 (.inr (by simp [NoComma])))
  | cons c cs ih =>
      by_cases hnumber : number = 0
      · rw [limitOf_eq_some_zero_iff.2 hnumber, splitCommas_zero]
        exact isSplitUpTo_of_cuts_eq_zero (cuts_eq_zero_iff.2 (.inl hnumber))
      · cases hc : c.isComma with
        | true =>
            have hlimit := mt limitOf_eq_some_zero_iff.1 hnumber
            simpa [splitCommas, hc, hlimit, limitOf_sub_one hnumber] using
              (ih (number - 1)).cons_comma hnumber hc
        | false =>
            have hcut := ih number
            obtain ⟨part, parts, hparts⟩ :=
              List.exists_cons_of_ne_nil (splitCommas_ne_nil (limitOf number) cs)
            rw [hparts] at hcut
            simpa [splitCommas, hc, hparts] using hcut.cons hc

/-- There is only one way to cut a sequence at a number of commas. -/
theorem IsSplit.splitCommas_eq (h : IsSplit parts cs)
    (hlength : parts.length = cuts number cs + 1) :
    splitCommas (limitOf number) cs = parts := by
  induction h generalizing number with
  | last part =>
      have hzero : cuts number part = 0 := by simpa using hlength
      rcases cuts_eq_zero_iff.1 hzero with hnumber | hpart
      · rw [limitOf_eq_some_zero_iff.2 hnumber, splitCommas_zero]
      · rw [splitCommas_of_no_comma hpart]
  | cut hpart hcomma hrest ih =>
      -- there are parts behind the first comma, so that the number allows a cut
      have hnumber : number ≠ 0 := by
        intro hzero
        have hpos := hrest.length_pos
        rw [cuts_eq_zero_iff.2 (.inl hzero), List.length_cons] at hlength
        omega
      rw [cuts_append_comma hnumber hpart hcomma, List.length_cons] at hlength
      rw [splitCommas_append_cut hpart hcomma (mt limitOf_eq_some_zero_iff.1 hnumber),
        ← limitOf_sub_one hnumber, ih (Nat.succ.inj hlength)]

/-! ## White space around arguments -/

/-- A part is an argument with white space around it. -/
def IsPadded (argument part : List Component) : Prop :=
  ∃ before behind, part = before ++ (argument ++ behind) ∧
    (∀ c ∈ before, c.isSpace = true) ∧ ∀ c ∈ behind, c.isSpace = true

/-- A sequence neither begins nor ends with white space. -/
structure IsStripped (cs : List Component) : Prop where
  head : ∀ c ∈ cs.head?, c.isSpace = false
  last : ∀ c ∈ cs.getLast?, c.isSpace = false

theorem isPadded_stripSpace (part : List Component) : IsPadded (stripSpace part) part := by
  obtain ⟨before, behind, heq, hbefore, hbehind, -, -⟩ := exists_stripSpace part
  exact ⟨before, behind, heq, hbefore, hbehind⟩

theorem isStripped_stripSpace (part : List Component) : IsStripped (stripSpace part) := by
  obtain ⟨-, -, -, -, -, hfirst, hlast⟩ := exists_stripSpace part
  exact ⟨hfirst, hlast⟩

theorem dropWhile_isSpace_append (hfront : ∀ c ∈ front, c.isSpace = true)
    (hcs : ∀ c ∈ cs.head?, c.isSpace = false) : (front ++ cs).dropWhile isSpace = cs := by
  rw [List.dropWhile_append_of_pos hfront]
  cases cs with
  | nil => rfl
  | cons c cs => exact List.dropWhile_cons_of_neg (by simp [hcs c rfl])

/-- There is only one way to take the white space from the ends of a part. -/
theorem stripSpace_eq_iff :
    stripSpace part = argument ↔ IsPadded argument part ∧ IsStripped argument := by
  constructor
  · rintro rfl
    exact ⟨isPadded_stripSpace part, isStripped_stripSpace part⟩
  · rintro ⟨⟨before, behind, rfl, hbefore, hbehind⟩, hargument⟩
    cases argument with
    | nil =>
        have hspace : ∀ c ∈ before ++ ([] ++ behind), c.isSpace = true :=
          fun c hc => (List.mem_append.1 hc).elim (hbefore c) (hbehind c)
        rw [stripSpace, List.dropWhile_eq_nil_iff.2 hspace]
        rfl
    | cons c cs =>
        rw [stripSpace, dropWhile_isSpace_append hbefore (by simpa using hargument.head),
          List.reverse_append, dropWhile_isSpace_append (by simpa using hbehind)
            (by simpa only [List.head?_reverse] using hargument.last), List.reverse_reverse]

theorem IsPadded.noComma (h : IsPadded argument part) (hpart : NoComma part) :
    NoComma argument := by
  obtain ⟨before, behind, rfl, -, -⟩ := h
  intro c hc
  exact hpart c (by simp [hc])

/-- The arguments are the parts without the white space around them. -/
theorem map_stripSpace_eq_iff :
    parts.map stripSpace = arguments ↔
      List.Forall₂ IsPadded arguments parts ∧ ∀ argument ∈ arguments, IsStripped argument := by
  constructor
  · rintro rfl
    rw [List.forall₂_map_left_iff, List.forall₂_same, List.forall_mem_map]
    exact ⟨fun part _ => isPadded_stripSpace part, fun part _ => isStripped_stripSpace part⟩
  · rintro ⟨hpadded, hstripped⟩
    induction hpadded with
    | nil => rfl
    | cons hpart _ ih =>
        obtain ⟨hargument, harguments⟩ := List.forall_mem_cons.1 hstripped
        rw [List.map_cons, stripSpace_eq_iff.2 ⟨hpart, hargument⟩, ih harguments]

/-! ## Arguments -/

/-- The arguments of a sequence that is cut at as many commas as a number allows. -/
structure IsArguments (number : Int) (cs : List Component) (arguments : List (List Component)) :
    Prop where
  /-- There is one argument more than there are cuts. -/
  length_eq : arguments.length = cuts number cs + 1
  stripped : ∀ argument ∈ arguments, IsStripped argument
  noComma : number < 0 → ∀ argument ∈ arguments, NoComma argument
  /-- The arguments, padded with white space and with the commas put back, are the sequence. -/
  recovered : ∃ parts, List.Forall₂ IsPadded arguments parts ∧ IsSplit parts cs

/-- Cutting a sequence gives one argument more than there are cuts, none of them with white space at
its ends, from which the sequence is recovered; and no other arguments are like that. -/
theorem splitArguments_eq_iff_isArguments (number : Int) (cs : List Component)
    (arguments : List (List Component)) :
    splitArguments (limitOf number) cs = arguments ↔ IsArguments number cs arguments := by
  constructor
  · rintro rfl
    have hsplit := isSplitUpTo_splitCommas number cs
    obtain ⟨hpadded, hstripped⟩ :=
      map_stripSpace_eq_iff.1 (rfl : _ = splitArguments (limitOf number) cs)
    refine ⟨?_, hstripped, ?_, _, hpadded, hsplit.isSplit⟩
    · rw [splitArguments, List.length_map, hsplit.length_eq]
    · intro hnumber argument hargument
      have hparts := hsplit.isSplit.noComma (cuts_of_neg hnumber ▸ hsplit.length_eq)
      obtain ⟨part, hpart, rfl⟩ := List.mem_map.1 hargument
      exact (isPadded_stripSpace part).noComma (hparts part hpart)
  · intro h
    obtain ⟨parts, hpadded, hsplit⟩ := h.recovered
    have hlength : parts.length = cuts number cs + 1 := hpadded.length_eq ▸ h.length_eq
    rw [splitArguments, hsplit.splitCommas_eq hlength]
    exact map_stripSpace_eq_iff.2 ⟨hpadded, h.stripped⟩

/-- What is left behind a single cut keeps its commas. -/
example :
    splitArguments (limitOf 1) [.leaf .word "--a", .leaf .comma ",", .leaf .space " ",
        .leaf .word "red", .leaf .comma ",", .leaf .word "blue"] =
      [[.leaf .word "--a"], [.leaf .word "red", .leaf .comma ",", .leaf .word "blue"]] :=
  rfl

end ContrastAudit.Component
