import Mathlib.Data.List.Infix
import ContrastAudit.Proofs.Stylesheet.Reading

/-!
# Counting pairs

In a text without strings and comments, the scanner counts braces inside of a body and parentheses
inside of a statement.  As long as no more pairs are closed than have been opened, all of the text
is held back.

**Results.**
* `depthAfter?_append`, `exists_closing`: how many pairs are open behind a text.
* `Scanner.run_body`: counting braces inside of a body.
* `Scanner.run_parens`: counting parentheses inside of a statement.
-/

namespace ContrastAudit.Stylesheet

/-! ## Visible texts -/

/-- A text without strings and comments. -/
structure IsVisible (text : List Char) : Prop where
  no_quote : ∀ c ∈ text, c ∉ ['"', '\'']
  no_comment : ¬ ['/', '*'] <:+: text

instance decidableIsVisible (text : List Char) : Decidable (IsVisible text) :=
  have := List.decidableBAll (fun c => c ∉ ['"', '\'']) text
  decidable_of_iff ((∀ c ∈ text, c ∉ ['"', '\'']) ∧ ¬ ['/', '*'] <:+: text)
    ⟨fun h => ⟨h.1, h.2⟩, fun h => ⟨h.no_quote, h.no_comment⟩⟩

section Visible

variable {c : Char} {cs front back : List Char}

theorem IsVisible.cons (h : IsVisible (c :: cs)) :
    c ∉ ['"', '\''] ∧ IsVisible cs ∧ (c = '/' → cs.head? ≠ some '*') := by
  obtain ⟨hcs, hslash⟩ := Scanner.not_infix_cons h.no_comment
  exact ⟨h.no_quote c List.mem_cons_self,
    ⟨fun d hd => h.no_quote d (List.mem_cons_of_mem c hd), hcs⟩, hslash⟩

theorem IsVisible.of_infix (h : IsVisible cs) (hpart : front <:+: cs) : IsVisible front where
  no_quote := fun d hd => h.no_quote d (hpart.subset hd)
  no_comment := fun hc => h.no_comment (hc.trans hpart)

/-- Two neighbours in a text are neighbours on one side of any other character. -/
theorem infix_or_infix {a b : Char} (ha : c ≠ a) (hb : c ≠ b)
    (h : [a, b] <:+: front ++ c :: back) : [a, b] <:+: front ∨ [a, b] <:+: back := by
  induction front with
  | nil =>
      rcases List.infix_cons_iff.1 h with hprefix | hback
      · exact absurd (List.cons_prefix_cons.1 hprefix).1.symm ha
      · exact .inr hback
  | cons d front ih =>
      rcases List.infix_cons_iff.1 h with hprefix | hrest
      · obtain ⟨rfl, hnext⟩ := List.cons_prefix_cons.1 hprefix
        cases front with
        | nil => exact absurd (List.cons_prefix_cons.1 hnext).1.symm hb
        | cons e front =>
            obtain ⟨rfl, -⟩ := List.cons_prefix_cons.1 hnext
            exact .inl (List.prefix_append [a, b] front).isInfix
      · exact (ih hrest).imp_left List.infix_cons

/-- Visible texts can be put together with a character between that starts no comment. -/
theorem IsVisible.append_cons (hfront : IsVisible front) (hback : IsVisible back)
    (hc : c ∉ ['"', '\'', '/', '*']) : IsVisible (front ++ c :: back) := by
  simp only [List.mem_cons, List.not_mem_nil, or_false, not_or] at hc
  constructor
  · refine List.forall_mem_append.2 ⟨hfront.no_quote, List.forall_mem_cons.2 ⟨?_, hback.no_quote⟩⟩
    simp [hc.1, hc.2.1]
  · intro h
    rcases infix_or_infix hc.2.2.1 hc.2.2.2 h with hinfix | hinfix
    · exact hfront.no_comment hinfix
    · exact hback.no_comment hinfix

theorem isVisible_nil : IsVisible [] :=
  ⟨by simp, by simp⟩

end Visible

/-! ## Open pairs -/

/-- How many pairs are open behind a text, if no more are closed than have been opened. -/
def depthAfter? (opening closing : Char) : Nat → List Char → Option Nat
  | depth, [] => some depth
  | depth, c :: cs =>
    if c = opening then depthAfter? opening closing (depth + 1) cs
    else if c = closing then
      match depth with
      | 0 => none
      | depth + 1 => depthAfter? opening closing depth cs
    else depthAfter? opening closing depth cs

/-- Every pair that a text opens is closed in it, and none other. -/
def ClosesPairs (opening closing : Char) (text : List Char) : Prop :=
  depthAfter? opening closing 0 text = some 0

section Depth

variable {opening closing c : Char} {depth : Nat}

theorem depthAfter?_cons (opening closing : Char) (depth : Nat) (c : Char) (cs : List Char) :
    depthAfter? opening closing depth (c :: cs) =
      if c = opening then depthAfter? opening closing (depth + 1) cs
      else if c = closing then
        match depth with
        | 0 => none
        | depth + 1 => depthAfter? opening closing depth cs
      else depthAfter? opening closing depth cs := by
  rw [depthAfter?.eq_def]

theorem depthAfter?_append (opening closing : Char) (depth : Nat) (front back : List Char) :
    depthAfter? opening closing depth (front ++ back) =
      (depthAfter? opening closing depth front).bind fun depth =>
        depthAfter? opening closing depth back := by
  induction front generalizing depth with
  | nil => rfl
  | cons c front ih =>
      rw [List.cons_append, depthAfter?_cons, depthAfter?_cons]
      split
      · exact ih (depth + 1)
      · split
        · cases depth with
          | zero => rfl
          | succ depth => exact ih depth
        · exact ih depth

theorem depthAfter?_cons_of_ne (hopening : c ≠ opening) (hclosing : c ≠ closing)
    (cs : List Char) :
    depthAfter? opening closing depth (c :: cs) = depthAfter? opening closing depth cs := by
  rw [depthAfter?_cons, if_neg hopening, if_neg hclosing]

theorem depthAfter?_of_not_mem {text : List Char} (hopening : opening ∉ text)
    (hclosing : closing ∉ text) : depthAfter? opening closing depth text = some depth := by
  induction text with
  | nil => rfl
  | cons c cs ih =>
      rw [List.mem_cons, not_or] at hopening hclosing
      rw [depthAfter?_cons_of_ne (Ne.symm hopening.1) (Ne.symm hclosing.1),
        ih hopening.2 hclosing.2]

/-- Where more pairs are closed than have been opened, the first one too many closes all of them. -/
theorem exists_closing {text : List Char} (h : depthAfter? opening closing depth text = none) :
    ∃ inside rest, text = inside ++ closing :: rest ∧
      depthAfter? opening closing depth inside = some 0 := by
  induction text generalizing depth with
  | nil => contradiction
  | cons c cs ih =>
      rw [depthAfter?_cons] at h
      split at h
      · next hopen =>
          obtain ⟨inside, rest, rfl, hinside⟩ := ih h
          exact ⟨c :: inside, rest, rfl, by rw [depthAfter?_cons, if_pos hopen, hinside]⟩
      · next hopen =>
          split at h
          · next hclose =>
              cases depth with
              | zero => exact ⟨[], cs, by rw [hclose]; rfl, rfl⟩
              | succ depth =>
                  obtain ⟨inside, rest, rfl, hinside⟩ := ih h
                  exact ⟨c :: inside, rest, rfl,
                    by rw [depthAfter?_cons, if_neg hopen, if_pos hclose]; exact hinside⟩
          · next hclose =>
              obtain ⟨inside, rest, rfl, hinside⟩ := ih h
              exact ⟨c :: inside, rest, rfl, by rw [depthAfter?_cons_of_ne hopen hclose, hinside]⟩

end Depth

namespace Scanner

/-! ## Reading visible texts -/

/-- Outside of strings and comments, and not in front of the star that starts one. -/
def IsOutside (context : Context) (next : Option Char) : Prop :=
  context = .plain ∨ context = .slash ∧ next ≠ some '*'

theorem reads_of_isOutside {context : Context} {c : Char} (h : IsOutside context (some c)) :
    context.reads c = true := by
  rcases h with rfl | ⟨rfl, hc⟩
  · rfl
  · simpa [Context.reads] using hc

theorem next_of_isOutside {context : Context} {c : Char} (h : IsOutside context (some c)) :
    context.next c = .ofPlain c := by
  rcases h with rfl | ⟨rfl, hc⟩
  · rfl
  · have hstar : c ≠ '*' := by simpa using hc
    simp [Context.next, hstar]

theorem isOutside_ofPlain_of_isVisible {c : Char} {cs : List Char} (h : IsVisible (c :: cs)) :
    IsOutside (.ofPlain c) cs.head? := by
  obtain ⟨hc, -, hslash⟩ := h.cons
  simp only [List.mem_cons, List.not_mem_nil, or_false, not_or] at hc
  unfold IsOutside Context.ofPlain
  split
  · next heq => exact .inr ⟨rfl, hslash heq⟩
  · simp [hc.1, hc.2]

/-- A text whose characters are held back one by one is held back as it is. -/
theorem run_of_depthAfter? {opening closing : Char} {m : Nat → Context → Mode}
    (hstep : ∀ (s : Scanner) (depth depth' : Nat) (k : Context) (c : Char), s.mode = m depth k →
      IsOutside k (some c) → depthAfter? opening closing depth [c] = some depth' →
      s.step c = s.hold c (m depth' (.ofPlain c)))
    {text : List Char} (h : IsVisible text) {depth depth' : Nat}
    (hdepth : depthAfter? opening closing depth text = some depth') {s : Scanner}
    {context : Context} (hs : s.mode = m depth context) (hk : IsOutside context text.head?) :
    ∃ after, (after = .plain ∨ after = .slash) ∧ s.run text =
      { s with mode := m depth' after, held := text.reverse ++ s.held } := by
  induction text generalizing s depth context with
  | nil =>
      cases hdepth
      refine ⟨context, hk.imp_right And.left, ?_⟩
      rw [← hs]
      rfl
  | cons c cs ih =>
      -- What is open behind the first character is open where the rest starts.
      have happend := depthAfter?_append opening closing depth [c] cs
      rw [List.singleton_append, hdepth] at happend
      obtain ⟨middle, hmiddle, hcs⟩ := Option.bind_eq_some_iff.1 happend.symm
      have hhold := hstep s depth middle context c hs hk hmiddle
      obtain ⟨after, hafter, hrun⟩ := ih h.cons.2.1 hcs (s := s.hold c (m middle (.ofPlain c))) rfl
        (isOutside_ofPlain_of_isVisible h)
      refine ⟨after, hafter, ?_⟩
      calc s.run (c :: cs)
          = (s.step c).run cs := rfl
        _ = _ := by rw [hhold, hrun]
        _ = _ := by simp [hold]

/-- Inside of a body, braces are counted. -/
theorem run_body {text prelude : List Char} (h : IsVisible text) {depth depth' : Nat}
    (hdepth : depthAfter? '\x7b' '\x7d' depth text = some depth') {s : Scanner}
    {context : Context} (hs : s.mode = .body prelude depth context)
    (hk : IsOutside context text.head?) :
    ∃ after, (after = .plain ∨ after = .slash) ∧ s.run text =
      { s with mode := .body prelude depth' after, held := text.reverse ++ s.held } := by
  refine run_of_depthAfter? (m := .body prelude) (fun s depth depth' k c hs hk hc => ?_) h hdepth hs
    hk
  have hreads := reads_of_isOutside hk
  have hnext := next_of_isOutside hk
  rw [step, hs]
  by_cases hopen : c = '\x7b'
  · subst hopen
    cases hc
    simp [stepBody, hreads, Context.ofPlain]
  · by_cases hclose : c = '\x7d'
    · subst hclose
      cases depth with
      | zero => contradiction
      | succ depth =>
          cases hc
          simp [stepBody, hreads, Context.ofPlain]
    · rw [depthAfter?_cons_of_ne hopen hclose] at hc
      cases hc
      simp [stepBody, hopen, hclose, hnext]

/-- Between the parentheses of a statement, parentheses are counted and all else is ordinary. -/
theorem run_parens {text : List Char} (h : IsVisible text) {depth depth' : Nat}
    (hdepth : depthAfter? '(' ')' depth text = some depth') {s : Scanner}
    {context : Context} (hs : s.mode = .text (depth + 1) context)
    (hk : IsOutside context text.head?) :
    ∃ after, (after = .plain ∨ after = .slash) ∧ s.run text =
      { s with mode := .text (depth' + 1) after, held := text.reverse ++ s.held } := by
  refine run_of_depthAfter? (m := fun depth => .text (depth + 1))
    (fun s depth depth' k c hs hk hc => ?_) h hdepth hs hk
  have hreads := reads_of_isOutside hk
  have hnext := next_of_isOutside hk
  have hremark : ¬ (k = .slash ∧ c = '*' ∧ Text.allBlank s.held.tail) := by
    rintro ⟨rfl, rfl, -⟩
    contradiction
  rw [step, hs]
  by_cases hopen : c = '('
  · subst hopen
    cases hc
    simp [stepText, hreads, Context.ofPlain]
  · by_cases hclose : c = ')'
    · subst hclose
      cases depth with
      | zero => contradiction
      | succ depth =>
          cases hc
          simp [stepText, hreads, Context.ofPlain]
    · rw [depthAfter?_cons_of_ne hopen hclose] at hc
      cases hc
      simp [stepText, hopen, hclose, hnext, hreads, hremark]

end Scanner

end ContrastAudit.Stylesheet
