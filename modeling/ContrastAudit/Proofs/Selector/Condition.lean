import Mathlib.Data.List.Infix
import ContrastAudit.Proofs.Number.Fault
import ContrastAudit.Proofs.Selector.Cut

/-!
# Conditions that are passed over

Pseudo-classes and attribute selectors say nothing about the elements that a selector selects: they
are pieces of its text without a meaning.

How far such a condition reaches is found out without much knowledge of what stands in it.  The
argument of a pseudo-class may hold parentheses, but none inside of these, or else it is not taken
for an argument at all.  An attribute selector ends at the first closing bracket, also inside of a
string.

**Results.**
* `Condition.scan_chars`: a shallow condition is one piece.
* `Condition.pieces_of_breaks`: a condition that breaks is not read to its end.
-/

namespace ContrastAudit.Selector

/-! ## Parentheses -/

/-- Every parenthesis of the text is opened before it is closed, and closed in the end. -/
def ClosesParentheses (cs : List Char) : Prop :=
  cs.count ')' = cs.count '(' ∧ ∀ front, front <+: cs → front.count ')' ≤ front.count '('

/-- Nowhere in the text are more than `n` parentheses open. -/
def NestsWithin (n : Nat) (cs : List Char) : Prop :=
  ∀ front, front <+: cs → front.count '(' ≤ front.count ')' + n

section Parentheses

variable {cs ds : List Char}

instance decidableClosesParentheses (cs : List Char) : Decidable (ClosesParentheses cs) :=
  decidable_of_iff
    (cs.count ')' = cs.count '(' ∧ ∀ front ∈ cs.inits, front.count ')' ≤ front.count '(') <| by
      simp only [List.mem_inits, ClosesParentheses]

instance decidableNestsWithin (n : Nat) (cs : List Char) : Decidable (NestsWithin n cs) :=
  decidable_of_iff (∀ front ∈ cs.inits, front.count '(' ≤ front.count ')' + n) <| by
    simp only [List.mem_inits, NestsWithin]

theorem forall_prefix_cons {P : List Char → Prop} {c : Char} :
    (∀ front, front <+: c :: cs → P front) ↔ P [] ∧ ∀ front, front <+: cs → P (c :: front) := by
  constructor
  · intro h
    exact ⟨h [] List.nil_prefix, fun front hfront => h _ ((List.prefix_cons_inj c).2 hfront)⟩
  · rintro ⟨hnil, hcons⟩ front hfront
    rcases List.prefix_cons_iff.1 hfront with rfl | ⟨front', rfl, hfront'⟩
    · exact hnil
    · exact hcons front' hfront'

/-- Whether a character is a parenthesis. -/
def isParenthesis (c : Char) : Bool :=
  c == '(' || c == ')'

theorem forall_prefix_filter {P : Nat → Nat → Prop} :
    (∀ front, front <+: cs.filter isParenthesis → P (front.count '(') (front.count ')')) ↔
      ∀ front, front <+: cs → P (front.count '(') (front.count ')') := by
  have hopening : ∀ ds : List Char, (ds.filter isParenthesis).count '(' = ds.count '(' :=
    fun ds => List.count_filter rfl
  have hclosing : ∀ ds : List Char, (ds.filter isParenthesis).count ')' = ds.count ')' :=
    fun ds => List.count_filter rfl
  constructor
  · intro h front hfront
    have hfilter := h (front.filter isParenthesis) (List.prefix_filter_iff.2 ⟨front, hfront, rfl⟩)
    rwa [hopening, hclosing] at hfilter
  · intro h front hfront
    obtain ⟨front', hfront', rfl⟩ := List.prefix_filter_iff.1 hfront
    rw [hopening, hclosing]
    exact h front' hfront'

/-- Only the parentheses of a text count. -/
theorem ClosesParentheses.congr (h : cs.filter isParenthesis = ds.filter isParenthesis)
    (hcs : ClosesParentheses cs) : ClosesParentheses ds := by
  have hcount : ∀ c, isParenthesis c = true → cs.count c = ds.count c := by
    intro c hc
    rw [← List.count_filter (l := cs) hc, h, List.count_filter hc]
  refine ⟨?_, ?_⟩
  · rw [← hcount ')' rfl, ← hcount '(' rfl]
    exact hcs.1
  · have hprefix := (forall_prefix_filter (P := fun opened closed => closed ≤ opened)).2 hcs.2
    rw [h] at hprefix
    exact (forall_prefix_filter (P := fun opened closed => closed ≤ opened)).1 hprefix

theorem nestsWithin_congr (h : cs.filter isParenthesis = ds.filter isParenthesis) (n : Nat) :
    NestsWithin n cs ↔ NestsWithin n ds := by
  have hprefix := fun es =>
    @forall_prefix_filter es fun opened closed => opened ≤ closed + n
  rw [NestsWithin, NestsWithin, ← hprefix cs, ← hprefix ds, h]

/-- From one or no open parenthesis on, an argument that closes all of them is read to its end iff
there are never two of them open. -/
theorem argumentLength_append_closing {nested : Bool} (rest : List Char)
    (hclosed : cs.count ')' = cs.count '(' + nested.toNat)
    (hfront : ∀ front, front <+: cs → front.count ')' ≤ front.count '(' + nested.toNat) :
    ((∀ front, front <+: cs → front.count '(' + nested.toNat ≤ front.count ')' + 1) →
        argumentLength nested (cs ++ ')' :: rest) = cs.length + 1) ∧
      (¬ (∀ front, front <+: cs → front.count '(' + nested.toNat ≤ front.count ')' + 1) →
        argumentLength nested (cs ++ ')' :: rest) = 0) := by
  induction cs generalizing nested with
  | nil =>
      cases nested with
      | true => contradiction
      | false =>
          refine ⟨fun _ => rfl, fun h => absurd (fun front hnil => ?_) h⟩
          rw [List.prefix_nil.1 hnil]
          exact Nat.zero_le _
  | cons c cs ih =>
      rw [forall_prefix_cons] at hfront ⊢
      rw [List.cons_append, argumentLength, List.length_cons]
      by_cases hclosing : c = ')'
      · subst hclosing
        cases nested with
        | false =>
            have hfirst := hfront.2 [] List.nil_prefix
            simp at hfirst
        | true =>
            have hrest := @ih false (by simpa using hclosed) (by simpa using hfront.2)
            simp only [Bool.toNat_false, Nat.add_zero] at hrest
            simp only [if_true, Bool.toNat_true, List.count_nil, List.count_cons_self,
              List.count_cons_of_ne (show ')' ≠ '(' by decide), Nat.le_refl, true_and,
              Nat.add_le_add_iff_right]
            exact ⟨fun h => by rw [hrest.1 h]; rfl, fun h => by rw [hrest.2 h]; rfl⟩
      · by_cases hopening : c = '('
        · subst hopening
          cases nested with
          | false =>
              have hrest := @ih true (by simpa using hclosed) (by simpa using hfront.2)
              simp only [Bool.toNat_true] at hrest
              simp only [if_neg hclosing, if_true, Bool.toNat_false, List.count_nil,
                List.count_cons_self, List.count_cons_of_ne (show '(' ≠ ')' by decide),
                Nat.add_zero, Nat.zero_le, true_and, Bool.false_eq_true, if_false]
              exact ⟨fun h => by rw [hrest.1 h]; rfl, fun h => by rw [hrest.2 h]; rfl⟩
          | true =>
              refine ⟨fun h => ?_, fun _ => rfl⟩
              have hfirst := h.2 [] List.nil_prefix
              simp at hfirst
        · have hrest := @ih nested
            (by
              simpa [List.count_cons_of_ne hclosing, List.count_cons_of_ne hopening] using hclosed)
            (by simpa [List.count_cons_of_ne hclosing, List.count_cons_of_ne hopening]
              using hfront.2)
          have hnil : nested.toNat ≤ 1 := Bool.toNat_le nested
          simp only [if_neg hclosing, if_neg hopening, List.count_nil,
            List.count_cons_of_ne hclosing, List.count_cons_of_ne hopening, Nat.zero_add, hnil,
            true_and]
          exact ⟨fun h => by rw [hrest.1 h]; rfl, fun h => by rw [hrest.2 h]; rfl⟩

/-- An argument that is balanced is read to its end iff parentheses are nested at most once. -/
theorem argumentLength_of_closesParentheses (h : ClosesParentheses cs) (rest : List Char) :
    (NestsWithin 1 cs → argumentLength false (cs ++ ')' :: rest) = cs.length + 1) ∧
      (¬ NestsWithin 1 cs → argumentLength false (cs ++ ')' :: rest) = 0) :=
  @argumentLength_append_closing cs false rest h.1 h.2

end Parentheses

/-! ## Conditions -/

/-- A pseudo-class, perhaps with an argument, or an attribute with the text it must have. -/
inductive Condition
  | pseudo (name : List Char) (argument : Option (List Char))
  | «attribute» (name text : List Char)

namespace Condition

/-- A condition as it is written. -/
def chars : Condition → List Char
  | .pseudo name none => ':' :: name
  | .pseudo name (some argument) => ':' :: (name ++ '(' :: (argument ++ [')']))
  | .attribute name text => '[' :: (name ++ '=' :: '"' :: (text ++ ['"', ']']))

/-- What stands in the parentheses or between the quotes. -/
def inside : Condition → List Char
  | .pseudo _ argument => argument.getD []
  | .attribute _ text => text

/-- Names are names, and arguments close their parentheses. -/
def IsWritten : Condition → Prop
  | .pseudo name argument =>
    (name ≠ [] ∧ ∀ c ∈ name, Text.isNameChar c = true) ∧
      ∀ inside ∈ argument, ClosesParentheses inside
  | .attribute name _ => name ≠ [] ∧ ∀ c ∈ name, Text.isNameChar c = true

/-- Arguments nest parentheses at most once, and texts hold no closing bracket. -/
def IsShallow : Condition → Prop
  | .pseudo _ argument => ∀ inside ∈ argument, NestsWithin 1 inside
  | .attribute _ text => ']' ∉ text

/-- Arguments nest parentheses more than once, or texts hold a closing bracket, and nothing that
starts an attribute or an argument or that takes a quote for a part of a name. -/
def Breaks : Condition → Prop
  | .pseudo _ argument => ∃ inside ∈ argument, ¬ NestsWithin 1 inside
  | .attribute _ text => ']' ∈ text ∧ '[' ∉ text ∧ '(' ∉ text ∧ '\\' ∉ text

instance decidableIsWritten : ∀ w : Condition, Decidable w.IsWritten
  | .pseudo name argument =>
    decidable_of_iff ((name ≠ [] ∧ name.all Text.isNameChar = true) ∧
      ∀ inside ∈ argument, ClosesParentheses inside) <| by
        rw [List.all_eq_true, IsWritten]
  | .attribute name _ =>
    decidable_of_iff (name ≠ [] ∧ name.all Text.isNameChar = true) <| by
      rw [List.all_eq_true, IsWritten]

instance decidableIsShallow : ∀ w : Condition, Decidable w.IsShallow
  | .pseudo _ argument => inferInstanceAs (Decidable (∀ inside ∈ argument, NestsWithin 1 inside))
  | .attribute _ text => inferInstanceAs (Decidable (']' ∉ text))

instance decidableBreaks : ∀ w : Condition, Decidable w.Breaks
  | .pseudo _ argument =>
    inferInstanceAs (Decidable (∃ inside ∈ argument, ¬ NestsWithin 1 inside))
  | .attribute _ text =>
    inferInstanceAs (Decidable (']' ∈ text ∧ '[' ∉ text ∧ '(' ∉ text ∧ '\\' ∉ text))

end Condition

/-! ## Normal form -/

section Passes

variable {c : Char} {cs : List Char}

/-- The characters of a class without white space stay what they are. -/
theorem filter_collapse {p : Char → Bool} (hp : ∀ c, Text.isBlank c = true → p c = false)
    (cs : List Char) : (collapse cs).filter p = cs.filter p := by
  have hspace : p ' ' = false := hp ' ' (by decide)
  induction cs with
  | nil => rfl
  | cons c cs ih =>
      rw [collapse]
      by_cases hc : Text.isBlank c = true
      · rw [if_pos hc, List.filter_cons_of_neg (by simp [hp c hc]), ← ih]
        split
        · next rest hrest => rw [hrest]
        · exact List.filter_cons_of_neg (by simp [hspace])
      · rw [if_neg hc, List.filter_cons, List.filter_cons, ih]

theorem filter_tighten {p : Char → Bool} (hspace : p ' ' = false) (joined : Bool)
    (cs : List Char) : (tighten joined cs).filter p = cs.filter p := by
  induction cs generalizing joined with
  | nil => rfl
  | cons c cs ih =>
      rw [tighten]
      by_cases hc : c = ' '
      · subst hc
        rw [if_pos rfl, List.filter_cons_of_neg (by simp [hspace])]
        split
        · exact ih joined
        · rw [List.filter_cons_of_neg (by simp [hspace]), ih]
      · rw [if_neg hc, List.filter_cons, List.filter_cons, ih]

/-- A text that ends with `c`, in normal form, does not depend on what follows it. -/
theorem exists_tighten_collapse (hc : Text.isBlank c = false) (cs : List Char) (joined : Bool) :
    ∃ zs, (∀ p : Char → Bool, (∀ c, Text.isBlank c = true → p c = false) →
        zs.filter p = cs.filter p) ∧
      ∀ ds, tighten joined (collapse (cs ++ c :: ds)) =
        zs ++ c :: tighten (isJoint c) (collapse ds) := by
  obtain ⟨zs, hzs⟩ := exists_tighten_append_cons hc (collapse cs) joined
  refine ⟨zs, fun p hp => ?_, fun ds => ?_⟩
  · have hfilter := filter_tighten (hp ' ' (by decide)) joined (collapse cs ++ [c])
    rw [hzs, List.filter_append, List.filter_append, filter_collapse hp] at hfilter
    exact List.append_cancel_right hfilter
  · rw [collapse_append_cons hc, hzs]

/-- What is in front of a place behind a character that is no blank has its own normal form. -/
theorem normalChars_append (hlast : cs.getLast? = some c) (hc : Text.isBlank c = false)
    (ds : List Char) :
    normalChars (cs ++ ds) =
      normalChars cs ++ tighten (isJoint c) (collapse (Text.trimEnd ds)) := by
  obtain ⟨xs, rfl⟩ := List.getLast?_eq_some_iff.1 hlast
  obtain ⟨zs, -, hzs⟩ := exists_tighten_collapse hc (Text.trimStart xs) false
  have hnormal : ∀ ds, normalChars (xs ++ c :: ds) =
      zs ++ c :: tighten (isJoint c) (collapse (Text.trimEnd ds)) := by
    intro ds
    rw [normalChars, Text.trim_append_cons hc, hzs]
  rw [List.append_assoc, List.singleton_append, hnormal, hnormal]
  simp [collapse, tighten]

/-- A blank behind the sign of a combinator is lost, but so it is in front of another sign. -/
theorem tighten_collapse_trimEnd {joined : Bool} {ds : List Char}
    (h : ∀ d ∈ (tighten joined (collapse (Text.trimEnd ds))).head?, d = ' ' ∨ isJoint d = true) :
    tighten joined (collapse (Text.trimEnd ds)) = tighten false (collapse (Text.trimEnd ds)) := by
  cases joined with
  | false => rfl
  | true =>
      have hsplit : ds.takeWhile Text.isBlank ++ ds.dropWhile Text.isBlank = ds :=
        List.takeWhile_append_dropWhile
      have hgap : Text.allBlank (ds.takeWhile Text.isBlank) = true := List.all_takeWhile
      cases hrest : ds.dropWhile Text.isBlank with
      | nil =>
          rw [hrest, List.append_nil] at hsplit
          have hnone : Text.trimEnd ds = [] := by
            rw [← hsplit, Text.trimEnd, List.reverse_eq_nil_iff, List.dropWhile_eq_nil_iff]
            intro d hd
            exact List.all_eq_true.1 hgap d (List.mem_reverse.1 hd)
          rw [hnone]
          rfl
      | cons d es =>
          have hd : Text.isBlank d = false := by
            have hhead := List.head?_dropWhile_not Text.isBlank ds
            rw [hrest] at hhead
            simpa using hhead
          rw [← hsplit, hrest, Text.trimEnd_append_cons hd, collapse_gap_append hgap hd] at h ⊢
          split_ifs at h ⊢
          · rw [List.nil_append, tighten_cons hd, tighten_cons hd]
          · rw [List.singleton_append, tighten, if_pos rfl, Bool.true_or, if_pos rfl,
              tighten_cons hd] at h
            have hjoint := (h d rfl).resolve_left (ne_space_of_isBlank_eq hd)
            have hdropped : ∀ joined es,
                tighten joined (' ' :: d :: es) = tighten joined (d :: es) := by
              intro joined es
              rw [tighten, if_pos rfl, List.head?_cons, Option.any_some, hjoint, Bool.or_true,
                if_pos rfl]
            rw [List.singleton_append, hdropped, hdropped, tighten_cons hd, tighten_cons hd]

/-- A solid text stays what it is, and what follows it does not depend on what is in front. -/
theorem tighten_collapse_solid (h : IsSolid cs) (joined : Bool) (ds : List Char) :
    tighten joined (collapse (cs ++ ds)) = cs ++ tighten false (collapse ds) := by
  rw [collapse_append h.isBlank_eq, tighten_append h]

theorem isSolid_of_isNameChar (hne : cs ≠ []) (h : ∀ c ∈ cs, Text.isNameChar c = true) :
    IsSolid cs where
  ne_nil := hne
  isBlank_eq c hc := Text.isBlank_of_isNameChar (h c hc)
  isJoint_eq c hc := isJoint_of_isNameChar (h c hc)

end Passes

namespace Condition

variable {w : Condition}

/-- In normal form a condition is one with the same name, whose argument has the same parentheses or
whose text has the same brackets. -/
theorem exists_tighten_collapse_chars (hw : w.IsWritten) :
    ∃ w' : Condition, w'.IsWritten ∧ (w'.IsShallow ↔ w.IsShallow) ∧ (w'.Breaks ↔ w.Breaks) ∧
      ∀ joined ds, tighten joined (collapse (w.chars ++ ds)) =
        w'.chars ++ tighten false (collapse ds) := by
  have hcolon : IsSolid [':'] := isSolid_singleton (by decide) rfl
  have hopening : IsSolid ['('] := isSolid_singleton (by decide) rfl
  cases w with
  | pseudo name argument =>
      have hname : IsSolid name := isSolid_of_isNameChar hw.1.1 hw.1.2
      cases argument with
      | none => exact ⟨_, hw, .rfl, .rfl, tighten_collapse_solid (hcolon.append hname)⟩
      | some inside =>
          obtain ⟨zs, hfilter, hzs⟩ := exists_tighten_collapse (c := ')') (by decide) inside false
          have hsame : zs.filter isParenthesis = inside.filter isParenthesis := by
            apply hfilter
            intro c hc
            simp only [isParenthesis, Bool.or_eq_false_iff, beq_eq_false_iff_ne]
            refine ⟨?_, ?_⟩
            · rintro rfl
              contradiction
            · rintro rfl
              contradiction
          have hnests := nestsWithin_congr hsame 1
          refine ⟨.pseudo name (some zs), ⟨hw.1, ?_⟩, ?_, ?_, fun joined ds => ?_⟩
          · rintro _ ⟨⟩
            exact (hw.2 inside rfl).congr hsame.symm
          · simp [IsShallow, hnests]
          · simp [Breaks, hnests]
          · have hsolid := (hcolon.append hname).append hopening
            have hsplit : (pseudo name (some inside)).chars ++ ds =
                ([':'] ++ name ++ ['(']) ++ (inside ++ ')' :: ds) := by
              simp [chars]
            rw [hsplit, tighten_collapse_solid hsolid, hzs]
            simp [chars, isJoint]
  | «attribute» name text =>
      have hname : IsSolid name := isSolid_of_isNameChar hw.1 hw.2
      have hbracket : IsSolid ['['] := isSolid_singleton (by decide) rfl
      have hequals : IsSolid ['='] := isSolid_singleton (by decide) rfl
      have hquote : IsSolid ['=', '"'] := hequals.append (isSolid_singleton (by decide) rfl)
      have hclosing : IsSolid [']'] := isSolid_singleton (by decide) rfl
      obtain ⟨zs, hfilter, hzs⟩ := exists_tighten_collapse (c := '"') (by decide) text false
      have hmem : ∀ c, Text.isBlank c = false → (c ∈ zs ↔ c ∈ text) := by
        intro c hc
        have hsame := hfilter (· == c) fun b hb => by
          rw [beq_eq_false_iff_ne]
          rintro rfl
          rw [hb] at hc
          contradiction
        have hiff : ∀ cs : List Char, c ∈ cs ↔ c ∈ cs.filter (· == c) := by simp
        rw [hiff zs, hiff text, hsame]
      refine ⟨.attribute name zs, hw, ?_, ?_, fun joined ds => ?_⟩
      · simp only [IsShallow, hmem ']' (by decide)]
      · simp only [Breaks, hmem ']' (by decide), hmem '[' (by decide), hmem '(' (by decide),
          hmem '\\' (by decide)]
      · have hsolid := (hbracket.append hname).append hquote
        have hsplit : («attribute» name text).chars ++ ds =
            (['['] ++ name ++ ['=', '"']) ++ (text ++ '"' :: ([']'] ++ ds)) := by
          simp [chars]
        rw [hsplit, tighten_collapse_solid hsolid, hzs, tighten_collapse_solid hclosing]
        simp [chars]

theorem trimEnd_chars_append (hw : w.IsWritten) (ds : List Char) :
    Text.trimEnd (w.chars ++ ds) = w.chars ++ Text.trimEnd ds := by
  have hlast : ∃ cs c, w.chars = cs ++ [c] ∧ Text.isBlank c = false := by
    cases w with
    | pseudo name argument =>
        cases argument with
        | none =>
            obtain ⟨⟨hne, hname⟩, -⟩ := hw
            refine ⟨':' :: name.dropLast, name.getLast hne, ?_, ?_⟩
            · rw [List.cons_append, List.dropLast_append_getLast, chars]
            · exact Text.isBlank_of_isNameChar (hname _ (List.getLast_mem hne))
        | some inside =>
            exact ⟨':' :: (name ++ '(' :: inside), ')', by simp [chars], by decide⟩
    | «attribute» name text =>
        exact ⟨'[' :: (name ++ '=' :: '"' :: (text ++ ['"'])), ']', by simp [chars], by decide⟩
  obtain ⟨cs, c, hcs, hc⟩ := hlast
  rw [hcs, List.append_assoc, List.singleton_append, Text.trimEnd_append_cons hc,
    List.append_assoc, List.singleton_append]

end Condition

/-! ## The piece of a condition -/

section Lengths

variable {cs rest name inside : List Char}

theorem pseudoLength_name (hne : name ≠ []) (hname : ∀ c ∈ name, Text.isNameChar c = true)
    (hrest : EndsName rest) :
    pseudoLength (':' :: (name ++ rest)) = 1 + name.length + argument rest := by
  have hcolons : colons (':' :: (name ++ rest)) = 1 := by
    obtain ⟨c, cs, rfl⟩ := List.exists_cons_of_ne_nil hne
    have hc : c ≠ ':' := by
      rintro rfl
      exact absurd (hname ':' List.mem_cons_self) (by decide)
    simp [colons, hc]
  have hlength : pseudoName (':' :: (name ++ rest)) = name.length := by
    rw [pseudoName, hcolons, List.drop_one, List.tail_cons,
      takeWhile_append_of_endsName hname hrest]
  have hnonzero : name.length ≠ 0 := fun hzero => hne (List.length_eq_zero_iff.1 hzero)
  rw [pseudoLength_eq, hcolons, hlength, if_neg (by omega), Nat.add_comm 1, List.drop_succ_cons,
    List.drop_left]

theorem argument_of_endsPiece (hrest : EndsPiece rest) : argument rest = 0 := by
  fun_cases argument rest with
  | case1 | case3 => rfl
  | case2 rest hclosed => exact absurd rfl (hrest.notArgument '(' rfl)

/-- An argument that is balanced is read to its end iff parentheses are nested at most once, and
otherwise it is no argument. -/
theorem argument_of_closesParentheses (h : ClosesParentheses inside) (rest : List Char) :
    (NestsWithin 1 inside → argument ('(' :: (inside ++ ')' :: rest)) = inside.length + 2) ∧
      (¬ NestsWithin 1 inside → argument ('(' :: (inside ++ ')' :: rest)) = 0) := by
  obtain ⟨hread, hnone⟩ := argumentLength_of_closesParentheses h rest
  refine ⟨fun hnests => ?_, fun hnests => ?_⟩
  · rw [argument, hread hnests, if_neg (Nat.succ_ne_zero _)]
    omega
  · rw [argument, hnone hnests, if_pos rfl]

theorem bracketLength_append_closing (h : ']' ∉ cs) (rest : List Char) :
    bracketLength (cs ++ ']' :: rest) = cs.length + 1 := by
  have hinside : (cs ++ ']' :: rest).takeWhile (· != ']') = cs := by
    rw [List.takeWhile_append_of_pos]
    · simp
    · intro c hc
      rw [bne_iff_ne]
      rintro rfl
      exact h hc
  rw [bracketLength, hinside, if_pos (by simp)]

theorem endsName_cons {c : Char} (hc : Text.isNameChar c = false) (hbackslash : c ≠ '\\')
    (rest : List Char) : EndsName (c :: rest) := by
  rintro _ ⟨⟩
  exact ⟨hc, hbackslash⟩

theorem endsPiece_cons {c : Char} (hc : Text.isNameChar c = false)
    (hsign : c ≠ '\\' ∧ c ≠ '(') (rest : List Char) : EndsPiece (c :: rest) where
  endsName := endsName_cons hc hsign.1 rest
  notArgument := by
    rintro _ ⟨⟩
    exact hsign.2

theorem scan_attribute (h : ']' ∉ cs) (rest : List Char) :
    scan ('[' :: (cs ++ ']' :: rest)) = some (⟨.dropped, '[' :: (cs ++ [']'])⟩, rest) := by
  have hclassify : ∀ ds, classify ('[' :: ds) =
      some (.dropped, if bracketLength ds = 0 then 0 else bracketLength ds + 1) := fun _ => rfl
  have hsplit : '[' :: (cs ++ ']' :: rest) = '[' :: (cs ++ [']']) ++ rest := by simp
  rw [hsplit]
  apply scan_append (List.cons_ne_nil _ _)
  rw [← hsplit, hclassify, bracketLength_append_closing h, if_neg (Nat.succ_ne_zero _)]
  simp

theorem scan_pseudo (hlength : pseudoLength (':' :: cs ++ rest) = (':' :: cs).length) :
    scan (':' :: cs ++ rest) = some (⟨.dropped, ':' :: cs⟩, rest) := by
  have hclassify : ∀ ds, classify (':' :: ds) = some (.dropped, pseudoLength (':' :: ds)) :=
    fun _ => rfl
  apply scan_append (List.cons_ne_nil _ _)
  rw [List.cons_append, hclassify, ← List.cons_append, hlength]

end Lengths

/-! ### Quotes -/

/-- A text in which nothing starts that could hold a quote. -/
structure IsPlain (cs : List Char) : Prop where
  noBracket : '[' ∉ cs
  noArgument : '(' ∉ cs
  noEscape : '\\' ∉ cs

theorem IsPlain.of_suffix {cs ds : List Char} (h : IsPlain cs) (hsuffix : ds <:+ cs) :
    IsPlain ds where
  noBracket hmem := h.noBracket (hsuffix.mem hmem)
  noArgument hmem := h.noArgument (hsuffix.mem hmem)
  noEscape hmem := h.noEscape (hsuffix.mem hmem)

section Quotes

variable {cs rest behind : List Char} {m : Meaning} {n : Nat} {p : Piece}

theorem endsPiece_quote (rest : List Char) : EndsPiece ('"' :: rest) :=
  endsPiece_cons (by decide) (by decide) rest

theorem IsPlain.ne_backslash {cs : List Char} (h : IsPlain cs) (k : Nat) : cs.drop k ≠ ['\\'] := by
  intro hdrop
  exact h.noEscape (List.mem_of_mem_drop (hdrop ▸ List.mem_singleton_self '\\'))

theorem pseudoLength_append_quote (h : IsPlain cs) (hne : cs ≠ []) (rest : List Char) :
    pseudoLength (cs ++ '"' :: rest) ≤ cs.length := by
  have hcolons : colons (cs ++ '"' :: rest) = colons cs := by
    match cs with
    | [] => contradiction
    | [c] => simp [colons]
    | c :: c' :: cs => rfl
  have hname : pseudoName (cs ++ '"' :: rest) = pseudoName cs := by
    rw [pseudoName, hcolons, List.drop_append_of_le_length (colons_le cs),
      takeWhile_isNameChar_append (endsPiece_quote rest).endsName, pseudoName]
  have hle := colons_add_pseudoName_le cs
  have hargument : argument (cs.drop (colons cs + pseudoName cs) ++ '"' :: rest) = 0 := by
    cases hdrop : cs.drop (colons cs + pseudoName cs) with
    | nil => rfl
    | cons c ds =>
        rw [List.cons_append, argument]
        rintro es hes
        obtain ⟨rfl, -⟩ := List.cons.inj hes
        exact h.noArgument (List.mem_of_mem_drop (hdrop ▸ List.mem_cons_self))
  rw [pseudoLength_eq, hcolons, hname, List.drop_append_of_le_length hle, hargument]
  split_ifs <;> omega

theorem tagLength_append_quote (cs rest : List Char) :
    tagLength (cs ++ '"' :: rest) ≤ cs.length := by
  have hends := (endsPiece_quote rest).endsName
  have htaken : ∀ ds : List Char, (ds.takeWhile Text.isNameChar).length ≤ ds.length :=
    fun ds => (List.takeWhile_prefix _).length_le
  fun_cases tagLength cs with
  | case1 c cs hc =>
      have := htaken cs
      rw [List.cons_append, List.cons_append, tagLength, if_pos hc,
        takeWhile_isNameChar_append hends, List.length_cons, List.length_cons]
      omega
  | case2 c cs hc =>
      rw [List.cons_append, List.cons_append, tagLength, if_neg hc]
      exact Nat.zero_le _
  | case3 c cs hhyphen hc =>
      have := htaken cs
      rw [List.cons_append, tagLength, if_pos hc, takeWhile_isNameChar_append hends,
        List.length_cons]
      · omega
      · rintro d ds rfl
        contradiction
  | case4 c cs hhyphen hc =>
      have hnone : tagLength (c :: (cs ++ '"' :: rest)) = 0 := by
        cases cs with
        | nil =>
            by_cases hc' : c = '-'
            · subst hc'
              rfl
            · rw [List.nil_append, tagLength, if_neg hc]
              intro d ds hd
              exact absurd hd hc'
        | cons d cs =>
            rw [List.cons_append, tagLength, if_neg hc]
            rintro d' ds hd -
            exact hhyphen d cs hd rfl
      rw [List.cons_append, hnone]
      exact Nat.zero_le _
  | case5 => exact Nat.le_refl 0

/-- No piece reaches over a quote. -/
theorem le_length_of_classify_quote (h : IsPlain cs)
    (hclassify : classify (cs ++ '"' :: rest) = some (m, n)) (hn : n ≠ 0) : n ≤ cs.length := by
  have hends := (endsPiece_quote rest).endsName
  cases cs with
  | nil =>
      cases hclassify
      exact absurd rfl hn
  | cons c cs =>
      have htail : IsPlain cs := h.of_suffix (List.suffix_cons c cs)
      by_cases hsingle : c ∈ [' ', '>', '+', '~', '*']
      · obtain ⟨m', hsame⟩ := exists_classify_of_mem hsingle
        rw [List.cons_append, hsame] at hclassify
        cases hclassify
        exact Nat.succ_le_succ (Nat.zero_le _)
      have named : ∀ {sign : Char} {meaning : String → Meaning}, (∀ cs, classify (sign :: cs) =
          some (meaning (String.ofList (unescape (cs.take (nameLength cs)))),
            if nameLength cs = 0 then 0 else nameLength cs + 1)) →
          classify (sign :: (cs ++ '"' :: rest)) = some (m, n) → n ≤ cs.length + 1 := by
        intro sign meaning hsign hclassify
        rw [hsign, nameLength_append hends (htail.ne_backslash _), Option.some.injEq,
          Prod.mk.injEq] at hclassify
        have hle := nameLength_le cs
        rw [← hclassify.2]
        split_ifs <;> omega
      by_cases hsign : c ∈ ['.', '#', '[', ':']
      · simp only [List.mem_cons, List.not_mem_nil, or_false] at hsign
        rcases hsign with rfl | rfl | rfl | rfl
        · exact named (fun _ => rfl) hclassify
        · exact named (fun _ => rfl) hclassify
        · exact absurd List.mem_cons_self h.noBracket
        · have hpseudo : classify (':' :: cs ++ '"' :: rest) =
              some (.dropped, pseudoLength (':' :: cs ++ '"' :: rest)) := rfl
          rw [hpseudo] at hclassify
          cases hclassify
          exact pseudoLength_append_quote h (List.cons_ne_nil _ _) rest
      · have hother : c ∉ [' ', '>', '+', '~', '*', '.', '#', '[', ':'] :=
          List.not_mem_append hsingle hsign
        rw [List.cons_append, classify_of_not_mem hother, ← List.cons_append] at hclassify
        cases hclassify
        exact tagLength_append_quote (c :: cs) rest

/-- A quote that no piece can hold is where reading ends. -/
theorem pieces_quote (h : IsPlain cs) (rest : List Char) : (pieces (cs ++ '"' :: rest)).2 ≠ [] := by
  generalize htext : cs ++ '"' :: rest = text
  fun_induction pieces text generalizing cs with
  | case1 text hscan =>
      rw [← htext]
      exact List.append_ne_nil_of_right_ne_nil _ (List.cons_ne_nil _ _)
  | case2 text p behind hscan hlt ih =>
      -- no piece reaches over the quote, so it is still there behind the first one
      subst htext
      obtain ⟨n, hclassify, -, hbehind⟩ := exists_classify_of_scan hscan
      have hle := le_length_of_classify_quote h hclassify (Nat.succ_ne_zero n)
      rw [List.drop_append_of_le_length hle] at hbehind
      exact ih (h.of_suffix (List.drop_suffix _ _)) hbehind.symm

end Quotes

namespace Condition

variable {w : Condition} {rest : List Char}

theorem endsPiece_chars_append (w : Condition) (rest : List Char) :
    EndsPiece (w.chars ++ rest) := by
  cases w with
  | pseudo name argument =>
      cases argument with
      | none => exact endsPiece_cons (by decide) (by decide) _
      | some inside => exact endsPiece_cons (by decide) (by decide) _
  | «attribute» name text => exact endsPiece_cons (by decide) (by decide) _

theorem not_mem_attribute {name text : List Char} (hname : ∀ c ∈ name, Text.isNameChar c = true)
    (htext : ']' ∉ text) : ']' ∉ name ++ '=' :: '"' :: text := by
  have hbracket : ']' ∉ name := fun hmem => absurd (hname ']' hmem) (by decide)
  simp [hbracket, htext]

/-- A shallow condition is one piece, and it is passed over. -/
theorem scan_chars (hw : w.IsWritten) (hshallow : w.IsShallow) (hrest : EndsPiece rest) :
    scan (w.chars ++ rest) = some (⟨.dropped, w.chars⟩, rest) := by
  cases w with
  | pseudo name argument =>
      obtain ⟨⟨hne, hname⟩, hbalanced⟩ := hw
      cases argument with
      | none =>
          apply scan_pseudo
          rw [List.cons_append, pseudoLength_name hne hname hrest.endsName,
            argument_of_endsPiece hrest, List.length_cons]
          omega
      | some inside =>
          have hread :=
            (argument_of_closesParentheses (hbalanced inside rfl) rest).1 (hshallow inside rfl)
          have hopening : EndsName ('(' :: (inside ++ ')' :: rest)) :=
            endsName_cons (by decide) (by decide) _
          have hsplit : ':' :: (name ++ '(' :: (inside ++ [')'])) ++ rest =
              ':' :: (name ++ '(' :: (inside ++ ')' :: rest)) := by
            simp
          apply scan_pseudo
          rw [hsplit, pseudoLength_name hne hname hopening, hread]
          simp
          omega
  | «attribute» name text =>
      have hinside : ']' ∉ name ++ '=' :: '"' :: (text ++ ['"']) := by
        have := not_mem_attribute hw.2 hshallow
        simpa using this
      have hscan := scan_attribute hinside rest
      simpa [chars] using hscan

/-- A condition that breaks is not read to its end. -/
theorem pieces_of_breaks (hw : w.IsWritten) (hbreaks : w.Breaks) (rest : List Char) :
    (pieces (w.chars ++ rest)).2 ≠ [] := by
  cases w with
  | pseudo name argument =>
      obtain ⟨⟨hne, hname⟩, hbalanced⟩ := hw
      obtain ⟨inside, rfl, hnests⟩ := hbreaks
      have hnone := (argument_of_closesParentheses (hbalanced inside rfl) rest).2 hnests
      have hopening : EndsName ('(' :: (inside ++ ')' :: rest)) :=
        endsName_cons (by decide) (by decide) _
      have hsplit : (pseudo name (some inside)).chars ++ rest =
          ':' :: name ++ '(' :: (inside ++ ')' :: rest) := by
        simp [chars]
      have hscan : scan (':' :: name ++ '(' :: (inside ++ ')' :: rest)) =
          some (⟨.dropped, ':' :: name⟩, '(' :: (inside ++ ')' :: rest)) := by
        apply scan_pseudo
        rw [List.cons_append, pseudoLength_name hne hname hopening, hnone, List.length_cons]
        omega
      have hstuck : scan ('(' :: (inside ++ ')' :: rest)) = none := rfl
      rw [hsplit, pieces_of_scan hscan, pieces_of_scan_eq_none hstuck]
      exact List.cons_ne_nil _ _
  | «attribute» name text =>
      obtain ⟨hclosing, hbracket, hopening, hescape⟩ := hbreaks
      obtain ⟨before, after, rfl, hbefore⟩ := List.eq_append_cons_of_mem hclosing
      have hsplit : («attribute» name (before ++ ']' :: after)).chars ++ rest =
          '[' :: ((name ++ '=' :: '"' :: before) ++ ']' :: (after ++ '"' :: ']' :: rest)) := by
        simp [chars]
      have hmem : ∀ c ∈ after, c ∈ before ++ ']' :: after := fun c hc =>
        List.mem_append_right _ (List.mem_cons_of_mem _ hc)
      have hplain : IsPlain after :=
        ⟨fun h => hbracket (hmem _ h), fun h => hopening (hmem _ h), fun h => hescape (hmem _ h)⟩
      rw [hsplit, pieces_of_scan (scan_attribute (not_mem_attribute hw.2 hbefore) _)]
      exact pieces_quote hplain _

end Condition

end ContrastAudit.Selector
