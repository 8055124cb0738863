import Mathlib.Data.List.Infix
import ContrastAudit.Text.Glob

/-!
# What wildcard patterns describe

The search for a text keeps the texts that may be left behind the pieces so far.  They are all ends
of one another, so that behind a star the longest one stands for all of them.

A pattern may be read as if its stars were its only wildcards.  A question mark, and a bracket that
is closed, are wildcards as well, so that some texts tell the two readings apart.

**Results.**
* `fits_iff_describes`: the search finds a text exactly if the pieces describe it one by one.
* `isPlain_iff`: a pattern describes what its stars and its other characters stand for exactly if it
  has no question mark and no closed bracket.
-/

namespace ContrastAudit.Text.Glob

/-! ## Pieces -/

/-- The texts that pieces describe, one after the other. -/
inductive Describes : List Piece → List Char → Prop
  | nil : Describes [] []
  | any {ps : List Piece} {cs : List Char} (front : List Char) :
      Describes ps cs → Describes (.any :: ps) (front ++ cs)
  | char {p : Piece} {ps : List Piece} {c : Char} {cs : List Char} :
      p.admits c = true → Describes ps cs → Describes (p :: ps) (c :: cs)

section Pieces

variable {p : Piece} {ps : List Piece} {cs rest : List Char} {rests : List (List Char)}

theorem describes_any_iff :
    Describes (.any :: ps) cs ↔ ∃ rest, rest <:+ cs ∧ Describes ps rest := by
  constructor
  · intro h
    cases h with
    | any front h => exact ⟨_, List.suffix_append _ _, h⟩
    | char hadmits h => contradiction
  · rintro ⟨rest, ⟨front, rfl⟩, h⟩
    exact .any front h

theorem describes_cons_iff (hp : p ≠ .any) :
    Describes (p :: ps) cs ↔ ∃ rest, p.behind? cs = some rest ∧ Describes ps rest := by
  constructor
  · intro h
    cases h with
    | any front h => exact absurd rfl hp
    | char hadmits h => exact ⟨_, if_pos hadmits, h⟩
  · rintro ⟨rest, hbehind, h⟩
    cases cs with
    | nil => contradiction
    | cons c cs =>
        rw [Piece.behind?] at hbehind
        split at hbehind
        · next hadmits =>
            cases hbehind
            exact .char hadmits h
        · contradiction

theorem mem_suffixes : rest ∈ suffixes cs ↔ rest <:+ cs := by
  induction cs with
  | nil => simp [suffixes]
  | cons c cs ih => rw [suffixes, List.mem_cons, ih, List.suffix_cons_iff]

/-- Each text is an end of those before it. -/
def Telescopes (rests : List (List Char)) : Prop :=
  rests.Pairwise fun longer shorter => shorter <:+ longer

theorem telescopes_suffixes (cs : List Char) : Telescopes (suffixes cs) := by
  induction cs with
  | nil => exact List.pairwise_singleton _ _
  | cons c cs ih =>
      refine List.Pairwise.cons (fun rest hrest => ?_) ih
      exact (mem_suffixes.1 hrest).trans (List.suffix_cons c cs)

theorem suffix_of_behind? {longer shorter : List Char} (h : shorter <:+ longer)
    {rest rest' : List Char} (hlonger : p.behind? longer = some rest)
    (hshorter : p.behind? shorter = some rest') : rest' <:+ rest := by
  have hcut : ∀ {cs rest : List Char}, p.behind? cs = some rest → ∃ c, cs = c :: rest := by
    intro cs rest hcs
    cases cs with
    | nil => contradiction
    | cons c cs =>
        rw [Piece.behind?] at hcs
        split at hcs
        · cases hcs
          exact ⟨c, rfl⟩
        · contradiction
  obtain ⟨c, rfl⟩ := hcut hlonger
  obtain ⟨d, rfl⟩ := hcut hshorter
  rcases List.suffix_cons_iff.1 h with heq | h
  · cases heq
    exact List.suffix_rfl
  · exact (List.suffix_cons d rest').trans h

theorem step_of_ne_any (hp : p ≠ .any) : step rests p = rests.filterMap p.behind? := by
  cases p with
  | any => exact absurd rfl hp
  | _ => rfl

theorem Telescopes.step (h : Telescopes rests) (p : Piece) : Telescopes (step rests p) := by
  by_cases hp : p = .any
  · subst hp
    cases rests with
    | nil => exact List.Pairwise.nil
    | cons longest rests => exact telescopes_suffixes longest
  · rw [step_of_ne_any hp]
    refine List.Pairwise.filterMap _ (fun longer shorter hends rest hrest rest' hrest' => ?_) h
    exact suffix_of_behind? hends hrest hrest'

/-- One more piece is described by what was left before it. -/
theorem exists_mem_step_iff (h : Telescopes rests) :
    (∃ rest ∈ step rests p, Describes ps rest) ↔ ∃ rest ∈ rests, Describes (p :: ps) rest := by
  by_cases hp : p = .any
  · subst hp
    cases rests with
    | nil => simp [step]
    | cons longest rests =>
        simp only [step, mem_suffixes, describes_any_iff]
        constructor
        · intro hlongest
          exact ⟨longest, List.mem_cons_self, hlongest⟩
        · rintro ⟨rest, hrest, rest', hrest', hdescribes⟩
          rcases List.mem_cons.1 hrest with rfl | hrest
          · exact ⟨rest', hrest', hdescribes⟩
          · exact ⟨rest', hrest'.trans (List.rel_of_pairwise_cons h hrest), hdescribes⟩
  · simp only [step_of_ne_any hp, describes_cons_iff hp, List.mem_filterMap]
    constructor
    · rintro ⟨rest, ⟨cs, hcs, hbehind⟩, hdescribes⟩
      exact ⟨cs, hcs, rest, hbehind, hdescribes⟩
    · rintro ⟨cs, hcs, rest, hbehind, hdescribes⟩
      exact ⟨rest, ⟨cs, hcs, hbehind⟩, hdescribes⟩

theorem any_isEmpty_foldl_step_iff (h : Telescopes rests) :
    (ps.foldl step rests).any List.isEmpty = true ↔ ∃ rest ∈ rests, Describes ps rest := by
  induction ps generalizing rests with
  | nil =>
      have hnil : ∀ rest, Describes [] rest ↔ rest.isEmpty = true := by
        intro rest
        rw [List.isEmpty_iff]
        constructor
        · rintro ⟨⟩
          rfl
        · rintro rfl
          exact .nil
      simp [hnil]
  | cons p ps ih => rw [List.foldl_cons, ih (h.step p), exists_mem_step_iff h]

/-- The search finds the texts that the pieces describe. -/
theorem fits_iff_describes : fits ps cs = true ↔ Describes ps cs := by
  have hone : Telescopes [cs] := List.pairwise_singleton _ _
  simp [fits, any_isEmpty_foldl_step_iff hone]

end Pieces

/-! ## Patterns whose stars are their only wildcards -/

/-- A pattern stands for a text if every star stands for some run of characters and every other
character for itself. -/
inductive StandsFor : List Char → List Char → Prop
  | nil : StandsFor [] []
  | star {pattern text : List Char} (front : List Char) :
      StandsFor pattern text → StandsFor ('*' :: pattern) (front ++ text)
  | char {c : Char} {pattern text : List Char} :
      c ≠ '*' → StandsFor pattern text → StandsFor (c :: pattern) (c :: text)

section StandsFor

variable {pattern text : List Char}

theorem standsFor_self (pattern : List Char) : StandsFor pattern pattern := by
  induction pattern with
  | nil => exact .nil
  | cons c pattern ih =>
      by_cases hc : c = '*'
      · subst hc
        exact .star ['*'] ih
      · exact .char hc ih

/-- Without a star a pattern stands for itself only. -/
theorem standsFor_iff_eq (h : '*' ∉ pattern) : StandsFor pattern text ↔ text = pattern := by
  constructor
  · intro hstands
    induction hstands with
    | nil => rfl
    | star front _ _ => exact absurd List.mem_cons_self h
    | char _ _ ih => rw [ih fun hmem => h (List.mem_cons_of_mem _ hmem)]
  · rintro rfl
    exact standsFor_self text

/-- What is no star stands in the text as often as in the pattern, at least. -/
theorem StandsFor.countP_le (h : StandsFor pattern text) {p : Char → Bool} (hp : p '*' = false) :
    pattern.countP p ≤ text.countP p := by
  induction h with
  | nil => exact Nat.le_refl 0
  | star front _ ih =>
      rw [List.countP_cons_of_neg (by simp [hp]), List.countP_append]
      omega
  | @char c pattern text _ _ ih =>
      rw [List.countP_cons, List.countP_cons]
      omega

end StandsFor

/-- The piece of a character that is no wildcard but for the star. -/
def plainPiece (c : Char) : Piece :=
  if c = '*' then .any else .literal c

theorem describes_map_plainPiece_iff {pattern text : List Char} :
    Describes (pattern.map plainPiece) text ↔ StandsFor pattern text := by
  induction pattern generalizing text with
  | nil =>
      constructor
      · rintro ⟨⟩
        exact .nil
      · rintro ⟨⟩
        exact .nil
  | cons c pattern ih =>
      rw [List.map_cons, plainPiece]
      split
      · next hc =>
          subst hc
          constructor
          · intro h
            cases h with
            | any front h => exact .star front (ih.1 h)
            | char hadmits h => contradiction
          · intro h
            cases h with
            | star front h => exact .any front (ih.2 h)
            | char hc h => exact absurd rfl hc
      · next hc =>
          constructor
          · intro h
            cases h with
            | char hadmits h =>
                rw [Piece.admits, beq_iff_eq] at hadmits
                subst hadmits
                exact .char hc (ih.1 h)
          · intro h
            cases h with
            | star front h => exact absurd rfl hc
            | char hc h => exact .char (beq_self_eq_true c) (ih.2 h)

/-! ## Sets -/

/-- A bracket in front of a text is closed in it: the set is not empty, and what negates it is not
all of it. -/
def ClosesSet (cs : List Char) : Prop :=
  ∃ inside rest, cs = inside ++ ']' :: rest ∧ inside ≠ [] ∧ inside ≠ ['!']

theorem isSome_cut_iff {sep : Char} {cs : List Char} : (cut sep cs).isSome = true ↔ sep ∈ cs := by
  rw [Option.isSome_iff_ne_none, ne_eq, cut_eq_none_iff, not_not]

theorem closesSet_iff {cs : List Char} : ClosesSet cs ↔ (splitSet cs).isSome = true := by
  unfold splitSet
  split
  · next cs =>
      rw [Option.isSome_map, isSome_cut_iff]
      constructor
      · rintro ⟨inside, rest, heq, hne, hnegated⟩
        match inside, heq with
        | [c], heq => exact absurd (by rw [(List.cons.inj heq).1]) hnegated
        | c :: d :: inside, heq =>
            rw [(List.cons.inj (List.cons.inj heq).2).2]
            simp
      · intro h
        obtain ⟨inside, rest, rfl⟩ := List.append_of_mem h
        exact ⟨'!' :: ']' :: inside, rest, rfl, by simp, by simp⟩
  · next cs hcs =>
      rw [Option.isSome_map, isSome_cut_iff]
      constructor
      · rintro ⟨inside, rest, heq, hne, -⟩
        obtain ⟨c, inside, rfl⟩ := List.exists_cons_of_ne_nil hne
        rw [(List.cons.inj heq).2]
        simp
      · intro h
        obtain ⟨inside, rest, rfl⟩ := List.append_of_mem h
        refine ⟨'!' :: inside, rest, rfl, by simp, ?_⟩
        rintro ⟨⟩
        exact hcs rest rfl
  · next cs =>
      rw [Option.isSome_map, isSome_cut_iff]
      constructor
      · rintro ⟨inside, rest, heq, hne, -⟩
        obtain ⟨c, inside, rfl⟩ := List.exists_cons_of_ne_nil hne
        rw [(List.cons.inj heq).2]
        simp
      · intro h
        obtain ⟨inside, rest, rfl⟩ := List.append_of_mem h
        exact ⟨']' :: inside, rest, rfl, by simp, by simp⟩
  · next hnegated hplain hclosing =>
      rw [isSome_cut_iff]
      constructor
      · rintro ⟨inside, rest, rfl, -, -⟩
        simp
      · intro h
        obtain ⟨inside, rest, rfl⟩ := List.append_of_mem h
        refine ⟨inside, rest, rfl, ?_, ?_⟩
        · rintro rfl
          exact hclosing rest rfl
        · rintro rfl
          exact hnegated rest rfl

theorem append_of_splitSet {cs inside rest : List Char} (h : splitSet cs = some (inside, rest)) :
    cs = inside ++ ']' :: rest := by
  have hfront : ∀ front cs, (cut ']' cs).map (fun p => (front ++ p.1, p.2)) = some (inside, rest) →
      front ++ cs = inside ++ ']' :: rest := by
    intro front cs hcut
    obtain ⟨⟨before, after⟩, hbefore, heq⟩ := Option.map_eq_some_iff.1 hcut
    cases heq
    rw [(append_of_cut hbefore).1, List.append_assoc]
  unfold splitSet at h
  split at h
  · exact hfront ['!', ']'] _ h
  · exact hfront ['!'] _ h
  · exact hfront [']'] _ h
  · exact (append_of_cut h).1

/-- No bracket of a pattern is closed. -/
def NoSet (pattern : List Char) : Prop :=
  ∀ before rest, pattern = before ++ '[' :: rest → ¬ ClosesSet rest

/-- A pattern whose stars are its only wildcards: it has no question mark and no closed bracket. -/
structure IsPlain (pattern : List Char) : Prop where
  noQuestion : '?' ∉ pattern
  noSet : NoSet pattern

section Plain

variable {c : Char} {pattern text : List Char}

theorem noSet_cons_iff :
    NoSet (c :: pattern) ↔ (c = '[' → ¬ ClosesSet pattern) ∧ NoSet pattern := by
  constructor
  · intro h
    refine ⟨fun hc => h [] pattern (by rw [hc]; rfl), fun before rest heq => ?_⟩
    exact h (c :: before) rest (by rw [heq]; rfl)
  · rintro ⟨hbracket, hrest⟩ before rest heq
    cases before with
    | nil =>
        cases heq
        exact hbracket rfl
    | cons d before => exact hrest before rest (List.cons.inj heq).2

theorem IsPlain.tail (h : IsPlain (c :: pattern)) : IsPlain pattern :=
  ⟨fun hmem => h.noQuestion (List.mem_cons_of_mem c hmem), (noSet_cons_iff.1 h.noSet).2⟩

/-- Without question marks and closed brackets every character is a piece of its own. -/
theorem compile_of_isPlain (h : IsPlain pattern) : compile pattern = pattern.map plainPiece := by
  fun_induction compile pattern with
  | case1 => rfl
  | case2 cs ih => rw [ih h.tail]; rfl
  | case3 cs ih => exact absurd List.mem_cons_self h.noQuestion
  | case4 cs inside rest hset _ ih =>
      refine absurd ?_ ((noSet_cons_iff.1 h.noSet).1 rfl)
      rw [closesSet_iff, hset]
      rfl
  | case5 cs hset ih => rw [ih h.tail]; rfl
  | case6 c cs hstar hquestion hbracket ih =>
      rw [ih h.tail, List.map_cons, plainPiece, if_neg hstar]

/-! ## Texts that tell the readings apart -/

/-- What pieces describe has a shortest form, in which nothing stands for the stars. -/
theorem Describes.exists_shortest {ps : List Piece} (h : Describes ps text) :
    ∃ shortest, Describes ps shortest ∧ shortest.length = ps.countP (· != .any) := by
  induction h with
  | nil => exact ⟨[], .nil, rfl⟩
  | any front _ ih =>
      obtain ⟨shortest, hshortest, hlength⟩ := ih
      refine ⟨shortest, .any [] hshortest, ?_⟩
      rw [List.countP_cons_of_neg (by simp), hlength]
  | @char p ps c cs hadmits _ ih =>
      obtain ⟨shortest, hshortest, hlength⟩ := ih
      have hp : (p != .any) = true := by
        rw [bne_iff_ne]
        rintro rfl
        contradiction
      refine ⟨c :: shortest, .char hadmits hshortest, ?_⟩
      rw [List.countP_cons_of_pos (p := (· != Piece.any)) hp, List.length_cons, hlength]

/-- A set takes the place of more characters than it describes. -/
theorem countP_compile_le (pattern : List Char) :
    (compile pattern).countP (· != .any) ≤ pattern.countP (· != '*') ∧
      (¬ NoSet pattern →
        (compile pattern).countP (· != .any) < pattern.countP (· != '*')) := by
  fun_induction compile pattern with
  | case1 => simp [NoSet]
  | case2 cs ih => simpa [noSet_cons_iff] using ih
  | case3 cs ih => simpa [noSet_cons_iff] using ih
  | case4 cs inside rest hset _ ih =>
      have hne : (setPiece inside != .any) = true := by
        rw [bne_iff_ne]
        unfold setPiece
        dsimp only
        split <;> rintro ⟨⟩
      have hrest := append_of_splitSet hset
      have hlt : (setPiece inside :: compile rest).countP (· != .any) <
          ('[' :: cs).countP (· != '*') := by
        rw [hrest, List.countP_cons_of_pos (p := (· != Piece.any)) hne,
          List.countP_cons_of_pos (by simp), List.countP_append, List.countP_cons_of_pos (by simp)]
        omega
      exact ⟨hlt.le, fun _ => hlt⟩
  | case5 cs hset ih =>
      have hclosed : ¬ ClosesSet cs := by
        rw [closesSet_iff, hset]
        simp
      simpa [noSet_cons_iff, hclosed] using ih
  | case6 c cs hstar hquestion hbracket ih =>
      have hc : ¬ c = '[' := hbracket
      have hcount : (c :: cs).countP (· != '*') = cs.countP (· != '*') + 1 :=
        List.countP_cons_of_pos (by simpa using hstar)
      simpa [noSet_cons_iff, hcount, hc] using ih

/-- A question mark stands for another character. -/
theorem describes_compile_replaced (h : NoSet pattern) :
    Describes (compile pattern) (pattern.map fun c => if c = '?' then 'a' else c) := by
  fun_induction compile pattern with
  | case1 => exact .nil
  | case2 cs ih => exact .any ['*'] (ih (noSet_cons_iff.1 h).2)
  | case3 cs ih => exact .char rfl (ih (noSet_cons_iff.1 h).2)
  | case4 cs inside rest hset _ ih =>
      refine absurd ?_ ((noSet_cons_iff.1 h).1 rfl)
      rw [closesSet_iff, hset]
      rfl
  | case5 cs hset ih => exact .char rfl (ih (noSet_cons_iff.1 h).2)
  | case6 c cs hstar hquestion hbracket ih =>
      rw [List.map_cons, if_neg hquestion]
      exact .char (beq_self_eq_true c) (ih (noSet_cons_iff.1 h).2)

theorem noSet_of_forall (h : ∀ text, Describes (compile pattern) text ↔ StandsFor pattern text) :
    NoSet pattern := by
  by_contra hset
  obtain ⟨shortest, hshortest, hlength⟩ := ((h pattern).2 (standsFor_self pattern)).exists_shortest
  have hlt := (countP_compile_le pattern).2 hset
  have hle := ((h shortest).1 hshortest).countP_le (p := (· != '*')) (by decide)
  have hall := List.countP_le_length (p := (· != '*')) (l := shortest)
  omega

/-- A pattern describes what its stars and its other characters stand for exactly if it has no
question mark and no closed bracket. -/
theorem isPlain_iff :
    IsPlain pattern ↔ ∀ text, Describes (compile pattern) text ↔ StandsFor pattern text := by
  constructor
  · intro h text
    rw [compile_of_isPlain h, describes_map_plainPiece_iff]
  · intro h
    have hset := noSet_of_forall h
    refine ⟨fun hquestion => ?_, hset⟩
    have hle := ((h _).1 (describes_compile_replaced hset)).countP_le (p := (· == '?')) (by decide)
    have hnone : (pattern.map fun c => if c = '?' then 'a' else c).countP (· == '?') = 0 := by
      rw [List.countP_eq_zero]
      intro d hd
      obtain ⟨c, -, rfl⟩ := List.mem_map.1 hd
      split <;> simp_all
    have hpos : 0 < pattern.countP (· == '?') :=
      List.countP_pos_iff.2 ⟨'?', hquestion, by decide⟩
    omega

end Plain

end ContrastAudit.Text.Glob
