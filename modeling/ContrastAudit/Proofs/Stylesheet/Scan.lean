import ContrastAudit.Proofs.Stylesheet.Entry

/-!
# Scanning what is written

The scanner finds items that are spelled out again.  The argument has two parts.  A text passes if
the scanner holds it back as it is and stands where it stood before; texts that pass can be put
together.  An item is complete behind a text that writes it, whatever was complete before.

**Results.**
* `completes_of_spells`: what spells an item is read as this item.
* `passes_body_of_spells`: what spells an item passes inside of bodies.
* `scan_cons`: what follows an item is scanned on its own.
-/

namespace ContrastAudit.Stylesheet

namespace Scanner

/-! ## Older items -/

/-- A scanner with some more items that were complete before. -/
def withOlder (older : List Item) (s : Scanner) : Scanner :=
  { s with items := s.items ++ older }

theorem endStatement_withOlder (older : List Item) (s : Scanner) :
    (s.withOlder older).endStatement = s.endStatement.withOlder older := by
  rw [endStatement, endStatement, apply_ite (withOlder older)]
  rfl

theorem step_withOlder (older : List Item) (s : Scanner) (c : Char) :
    (s.withOlder older).step c = (s.step c).withOlder older := by
  obtain ⟨mode, held, items⟩ := s
  cases mode with
  | text parens context =>
      have hend := endStatement_withOlder older ⟨.text parens context, held, items⟩
      simp only [step, stepText, apply_ite (withOlder older), ← hend]
      rfl
  | remark star =>
      simp only [step, stepRemark, apply_ite (withOlder older)]
      rfl
  | body prelude depth context =>
      simp only [step, stepBody, apply_ite (withOlder older)]
      cases depth with
      | zero => rfl
      | succ depth => rfl

/-- Older items do not matter to what is read. -/
theorem run_withOlder (older : List Item) (s : Scanner) (cs : List Char) :
    (s.withOlder older).run cs = (s.run cs).withOlder older := by
  induction cs generalizing s with
  | nil => rfl
  | cons c cs ih =>
      have hstep := step_withOlder older s c
      calc (s.withOlder older).run (c :: cs)
          = ((s.withOlder older).step c).run cs := rfl
        _ = ((s.step c).withOlder older).run cs := by rw [hstep]
        _ = (s.run (c :: cs)).withOlder older := ih (s.step c)

theorem finish_withOlder (older : List Item) (s : Scanner) :
    (s.withOlder older).finish = s.finish ++ older := by
  obtain ⟨mode, held, items⟩ := s
  cases mode with
  | text parens context =>
      have hend := endStatement_withOlder older ⟨.text parens context, held, items⟩
      exact congrArg Scanner.items hend
  | remark star => rfl
  | body prelude depth context => rfl

/-! ## Texts that pass -/

/-- In a mode, a text is held back as it is, and the mode is the same behind it. -/
def Passes (mode : Mode) (text : List Char) : Prop :=
  ∀ s : Scanner, s.mode = mode → s.run text = { s with held := text.reverse ++ s.held }

theorem passes_nil (mode : Mode) : Passes mode [] :=
  fun _ _ => rfl

theorem Passes.append {mode : Mode} {front back : List Char} (hfront : Passes mode front)
    (hback : Passes mode back) : Passes mode (front ++ back) := by
  intro s hs
  have hmiddle := hback { s with held := front.reverse ++ s.held } hs
  rw [run_append, hfront s hs, hmiddle, List.reverse_append, List.append_assoc]

/-- A text passes if each of its characters does. -/
theorem passes_of_forall {mode : Mode} {text : List Char} (h : ∀ c ∈ text, Passes mode [c]) :
    Passes mode text := by
  induction text with
  | nil => exact passes_nil mode
  | cons c cs ih =>
      obtain ⟨hc, hcs⟩ := List.forall_mem_cons.1 h
      exact hc.append (ih hcs)

/-- The characters that hide what follows, or end or open something. -/
def loud : List Char :=
  ['"', '\'', '\x7b', '\x7d', ';', '/']

theorem step_text_of_quiet {s : Scanner} {parens : Nat} {c : Char}
    (hmode : s.mode = .text parens .plain) (hc : c ∉ loud) :
    s.step c = s.hold c (.text (parensAfter parens c) .plain) := by
  simp only [loud, List.mem_cons, List.not_mem_nil, or_false, not_or] at hc
  obtain ⟨hquote, hapostrophe, hopen, hclose, hsemicolon, hslash⟩ := hc
  rw [step, hmode]
  simp only [stepText, parensAfter, Context.reads, Context.next, Context.ofPlain, reduceCtorEq,
    false_and, if_false, if_true, hquote, hapostrophe, hopen, hclose, hsemicolon, hslash, and_false,
    or_self]
  split_ifs <;> rfl

/-- Quiet texts only count parentheses. -/
theorem run_text_of_quiet {text : List Char} (htext : ∀ c ∈ text, c ∉ loud) {s : Scanner}
    {parens : Nat} (hmode : s.mode = .text parens .plain) :
    s.run text =
      { s with mode := .text (openParens parens text) .plain, held := text.reverse ++ s.held } := by
  induction text generalizing s parens with
  | nil =>
      rw [openParens, List.foldl_nil, ← hmode]
      rfl
  | cons c cs ih =>
      obtain ⟨hc, hcs⟩ := List.forall_mem_cons.1 htext
      have hstep := step_text_of_quiet hmode hc
      calc s.run (c :: cs)
          = (s.hold c (.text (parensAfter parens c) .plain)).run cs := by rw [← hstep]; rfl
        _ = _ := ih hcs rfl
        _ = _ := by simp [hold, openParens]

theorem passes_body_of_quiet {prelude text : List Char} {depth : Nat}
    (htext : ∀ c ∈ text, c ∉ loud) : Passes (.body prelude depth .plain) text := by
  refine passes_of_forall fun c hc s hs => ?_
  have hquiet := htext c hc
  simp only [loud, List.mem_cons, List.not_mem_nil, or_false, not_or] at hquiet
  obtain ⟨hquote, hapostrophe, hopen, hclose, -, hslash⟩ := hquiet
  simp only [run, List.foldl_cons, List.foldl_nil, step, hs, stepBody, Context.next,
    Context.ofPlain, hopen, hclose, hslash, hquote, hapostrophe, and_false, if_false, or_self, hold,
    List.reverse_cons, List.reverse_nil, List.nil_append, List.cons_append]

section Quoted

-- In the modes of the family, quotes and what stands between them only change the context.
variable {text : List Char} (htext : ∀ c ∈ text, c ∉ ['"', '\'', '\\'])
  {mode : Context → Mode}
  (hstep : ∀ (s : Scanner) (k : Context) (c : Char), s.mode = mode k →
    k = .quoted '"' ∨ (k = .plain ∧ c = '"') → s.step c = s.hold c (mode (k.next c)))
include htext hstep

theorem run_inside_quotes {s : Scanner} (hs : s.mode = mode (.quoted '"')) :
    s.run (text ++ ['"']) =
      { s with mode := mode .plain, held := '"' :: (text.reverse ++ s.held) } := by
  induction text generalizing s with
  | nil => exact hstep s _ '"' hs (.inl rfl)
  | cons c cs ih =>
      obtain ⟨hc, hcs⟩ := List.forall_mem_cons.1 htext
      simp only [List.mem_cons, List.not_mem_nil, or_false, not_or] at hc
      have hnext : (Context.quoted '"').next c = .quoted '"' := by
        simp [Context.next, hc.1, hc.2.2]
      have hhold := hstep s _ c hs (.inl rfl)
      rw [hnext] at hhold
      calc s.run (c :: cs ++ ['"'])
          = (s.step c).run (cs ++ ['"']) := rfl
        _ = (s.hold c (mode (.quoted '"'))).run (cs ++ ['"']) := by rw [hhold]
        _ = _ := ih hcs rfl
        _ = _ := by simp [hold]

theorem passes_quoted : Passes (mode .plain) ('"' :: (text ++ ['"'])) := by
  intro s hs
  have hopen := hstep s .plain '"' hs (.inr ⟨rfl, rfl⟩)
  calc s.run ('"' :: (text ++ ['"']))
      = (s.step '"').run (text ++ ['"']) := rfl
    _ = (s.hold '"' (mode (.quoted '"'))).run (text ++ ['"']) := by rw [hopen]; rfl
    _ = _ := run_inside_quotes htext hstep rfl
    _ = _ := by simp [hold, hs]

end Quoted

theorem passes_text_quoted {text : List Char} (htext : ∀ c ∈ text, c ∉ ['"', '\'', '\\']) :
    Passes (.text 0 .plain) ('"' :: (text ++ ['"'])) := by
  refine passes_quoted htext fun s k c hs hk => ?_
  rw [step, hs]
  rcases hk with rfl | ⟨rfl, rfl⟩
  · simp [stepText, Context.reads]
  · simp [stepText, Context.reads]

theorem passes_body_quoted {text prelude : List Char} {depth : Nat}
    (htext : ∀ c ∈ text, c ∉ ['"', '\'', '\\']) :
    Passes (.body prelude depth .plain) ('"' :: (text ++ ['"'])) := by
  refine passes_quoted htext fun s k c hs hk => ?_
  rw [step, hs]
  rcases hk with rfl | ⟨rfl, rfl⟩
  · simp [stepBody, Context.reads]
  · simp [stepBody, Context.reads]

/-- A body with braces around it passes one level deeper. -/
theorem passes_body_block {prelude body : List Char} {depth : Nat}
    (hbody : Passes (.body prelude (depth + 1) .plain) body) :
    Passes (.body prelude depth .plain) ('\x7b' :: (body ++ ['\x7d'])) := by
  intro s hs
  have hopen : s.step '\x7b' = s.hold '\x7b' (.body prelude (depth + 1) .plain) := by
    rw [step, hs]
    rfl
  have hinside := hbody (s.hold '\x7b' (.body prelude (depth + 1) .plain)) rfl
  calc s.run ('\x7b' :: (body ++ ['\x7d']))
      = ((s.step '\x7b').run body).step '\x7d' := run_append (s.step '\x7b') body ['\x7d']
    _ = { s with mode := .body prelude depth .plain
                 held := '\x7d' :: (body.reverse ++ '\x7b' :: s.held) } := by
        rw [hopen, hinside]
        rfl
    _ = _ := by simp [hs]

/-! ## Comments -/

/-- Two characters that never stand together in a text do not do so in its rest or at its start. -/
theorem not_infix_cons {a b c : Char} {cs : List Char} (h : ¬ [a, b] <:+: c :: cs) :
    ¬ [a, b] <:+: cs ∧ (c = a → cs.head? ≠ some b) := by
  refine ⟨fun hcs => h (List.infix_cons hcs), ?_⟩
  rintro rfl hhead
  cases cs with
  | nil => simp at hhead
  | cons d ds =>
      rw [List.head?_cons, Option.some.injEq] at hhead
      subst hhead
      exact h (List.prefix_append [c, d] ds).isInfix

/-- The inside of a comment is held back up to its last star, in whatever modes it is read. -/
theorem run_inside_comment {m : Bool → Mode}
    (hstep : ∀ (s : Scanner) (star : Bool) (c : Char), s.mode = m star →
      ¬ (star = true ∧ c = '/') → s.step c = s.hold c (m (c == '*')))
    {text : List Char} (htext : ¬ ['*', '/'] <:+: text) (star : Bool) {s : Scanner}
    (hs : s.mode = m star) (hstar : star = true → text.head? ≠ some '/') :
    s.run (text ++ ['*']) = { s with mode := m true, held := '*' :: (text.reverse ++ s.held) } := by
  induction text generalizing s star with
  | nil => exact hstep s star '*' hs (by simp)
  | cons c cs ih =>
      obtain ⟨hcs, hslash⟩ := not_infix_cons htext
      have hc : s.step c = s.hold c (m (c == '*')) := by
        refine hstep s star c hs ?_
        rintro ⟨htrue, rfl⟩
        exact hstar htrue rfl
      have hrest := ih hcs (c == '*') (s := s.hold c (m (c == '*'))) rfl
        fun h => hslash (beq_iff_eq.1 h)
      calc s.run (c :: cs ++ ['*'])
          = (s.step c).run (cs ++ ['*']) := rfl
        _ = _ := by rw [hc, hrest]
        _ = _ := by simp [hold]

theorem run_remark {text : List Char} (htext : ¬ ['*', '/'] <:+: text) {s : Scanner}
    (hs : s.mode = .remark false) (hheld : s.held = []) :
    s.run (text ++ ['*', '/']) = { items := .comment text :: s.items } := by
  have hinside := run_inside_comment (m := .remark) (fun s star c hmode hc => ?_) htext false hs
    (by simp)
  · calc s.run (text ++ ['*', '/'])
        = (s.run (text ++ ['*'])).step '/' := by rw [List.append_cons, run_append]; rfl
      _ = _ := by
          rw [hinside]
          simp [step, stepRemark, emit, hheld]
  · rw [step, hmode]
    exact if_neg hc

theorem passes_body_comment {prelude text : List Char} {depth : Nat}
    (htext : ¬ ['*', '/'] <:+: text) :
    Passes (.body prelude depth .plain) ('/' :: '*' :: (text ++ ['*', '/'])) := by
  intro s hs
  have hopen : (s.step '/').step '*' =
      (s.hold '/' (.body prelude depth .slash)).hold '*' (.body prelude depth .comment) := by
    simp only [step, hs]
    rfl
  have hinside := run_inside_comment
    (m := fun star => .body prelude depth (if star then .star else .comment))
    (s := (s.hold '/' (.body prelude depth .slash)).hold '*' (.body prelude depth .comment))
    (fun s star c hmode hc => ?_) htext false rfl (by simp)
  · calc s.run ('/' :: '*' :: (text ++ ['*', '/']))
        = (((s.step '/').step '*').run (text ++ ['*'])).step '/' := by
          rw [List.append_cons]
          exact run_append _ (text ++ ['*']) ['/']
      _ = { s with
            mode := .body prelude depth .plain
            held := '/' :: '*' :: (text.reverse ++ '*' :: '/' :: s.held) } := by
          rw [hopen, hinside]
          rfl
      _ = _ := by simp [hs]
  · rw [step, hmode]
    cases star with
    | false =>
        by_cases hstar : c = '*'
        · simp [stepBody, Context.reads, Context.next, hstar]
        · simp [stepBody, Context.reads, Context.next, hstar]
    | true =>
        have hne : c ≠ '/' := fun h => hc ⟨rfl, h⟩
        simp [stepBody, Context.reads, Context.next, hne]

end Scanner

/-! ## Calm texts -/

theorem openParens_append (parens : Nat) (front back : List Char) :
    openParens parens (front ++ back) = openParens (openParens parens front) back :=
  List.foldl_append

/-- A text that is quiet for the scanner and closes its parentheses. -/
structure IsCalm (text : List Char) : Prop where
  quiet : ∀ c ∈ text, c ∉ Scanner.loud
  closes : ClosesParens text

theorem IsCalm.append {front back : List Char} (hfront : IsCalm front) (hback : IsCalm back) :
    IsCalm (front ++ back) where
  quiet := List.forall_mem_append.2 ⟨hfront.quiet, hback.quiet⟩
  closes := by
    have h := openParens_append 0 front back
    rw [hfront.closes, hback.closes] at h
    exact h

/-- A text is calm if a test that it passes fails for parentheses and all that is loud. -/
theorem isCalm_of_forall {p : Char → Bool} (hp : ('(' :: ')' :: Scanner.loud).any p = false)
    {text : List Char} (h : ∀ c ∈ text, p c = true) : IsCalm text := by
  have hne : ∀ c ∈ text, ∀ d ∈ '(' :: ')' :: Scanner.loud, c ≠ d := by
    rintro c hc d hd rfl
    exact List.any_eq_false.1 hp c hd (h c hc)
  constructor
  · intro c hc hloud
    exact hne c hc c (List.mem_cons_of_mem _ (List.mem_cons_of_mem _ hloud)) rfl
  · rw [ClosesParens, openParens]
    refine List.foldlRecOn (motive := (· = 0)) text parensAfter rfl fun parens hzero c hc => ?_
    have hopen := hne c hc '(' (List.mem_cons_self ..)
    have hclose := hne c hc ')' (List.mem_cons_of_mem _ (List.mem_cons_self ..))
    rw [parensAfter, if_neg hopen, if_neg hclose, hzero]

theorem isCalm_singleton {c : Char} (h : ('(' :: ')' :: Scanner.loud).any (· == c) = false) :
    IsCalm [c] :=
  isCalm_of_forall h (by simp)

theorem isCalm_of_allBlank {blanks : List Char} (h : Text.allBlank blanks = true) :
    IsCalm blanks :=
  isCalm_of_forall (by decide) (List.all_eq_true.1 h)

theorem IsPlain.quiet {text : List Char} (h : IsPlain text) : ∀ c ∈ text, c ∉ Scanner.loud := by
  have hsub : Scanner.loud.all reserved.contains = true := by decide
  exact fun c hc hloud => h.free c hc (by simpa using List.all_eq_true.1 hsub c hloud)

theorem IsPlain.isCalm {text : List Char} (h : IsPlain text) (hcloses : ClosesParens text) :
    IsCalm text :=
  ⟨h.quiet, hcloses⟩

theorem IsSelector.isCalm {text : List Char} (h : IsSelector text) : IsCalm text := by
  refine isCalm_of_forall (p := fun c => !(reserved ++ [',', '(', ')', '[', ']']).contains c)
    (by decide) fun c hc => ?_
  simp only [List.contains_eq_mem, Bool.not_eq_true', decide_eq_false_iff_not, List.mem_append,
    not_or]
  exact ⟨h.free c hc, h.simple c hc⟩

/-- A calm text that is trimmed, so that it is the same after it has been read. -/
structure IsSteady (text : List Char) : Prop extends IsCalm text where
  trimmed : Text.IsTrimmed text

/-- What starts and ends with steady texts and is calm between is steady. -/
theorem IsSteady.append {front middle back : List Char} (hfront : IsSteady front)
    (hmiddle : IsCalm middle) (hback : IsSteady back) : IsSteady (front ++ (middle ++ back)) :=
  ⟨hfront.toIsCalm.append (hmiddle.append hback.toIsCalm),
    hfront.trimmed.append middle hback.trimmed⟩

theorem IsSelector.isSteady {text : List Char} (h : IsSelector text) : IsSteady text :=
  ⟨h.isCalm, h.trimmed⟩

theorem IsPlain.isSteady {text : List Char} (h : IsPlain text) (hcloses : ClosesParens text) :
    IsSteady text :=
  ⟨h.isCalm hcloses, h.trimmed⟩

namespace Scanner

theorem passes_text_of_isCalm {text : List Char} (h : IsCalm text) :
    Passes (.text 0 .plain) text := by
  intro s hs
  rw [run_text_of_quiet h.quiet hs, h.closes, ← hs]

/-! ## Complete items -/

/-- Where an item may start, a text is read as one item. -/
def Completes (item : Item) (text : List Char) : Prop :=
  ∀ s : Scanner, s.mode = .text 0 .plain → Text.allBlank s.held = true →
    s.run text = { items := item :: s.items }

/-- Behind blanks and a text that passes, that text is held back between blanks. -/
theorem held_of_passes {text blanks : List Char} (htext : Passes (.text 0 .plain) text)
    (htrimmed : Text.IsTrimmed text) (hblanks : Text.allBlank blanks = true) {s : Scanner}
    (hs : s.mode = .text 0 .plain) (hheld : Text.allBlank s.held = true) :
    ∃ held, s.run (text ++ blanks) = { s with held := held } ∧ Text.trim held.reverse = text := by
  have hpasses := htext.append (passes_text_of_isCalm (isCalm_of_allBlank hblanks)) s hs
  refine ⟨_, hpasses, ?_⟩
  rw [List.reverse_append, List.reverse_reverse]
  exact htrimmed.trim_between ((Text.allBlank_reverse _).trans hheld) hblanks

theorem completes_statement {text blanks : List Char} (htext : Passes (.text 0 .plain) text)
    (htrimmed : Text.IsTrimmed text) (hblanks : Text.allBlank blanks = true) :
    Completes (.statement text) (text ++ (blanks ++ [';'])) := by
  intro s hs hheld
  obtain ⟨held, hrun, htrim⟩ := held_of_passes htext htrimmed hblanks hs hheld
  have hsolid : Text.allBlank held = false := by
    cases hb : Text.allBlank held with
    | false => rfl
    | true =>
        rw [Text.trim, Text.trimStart_of_allBlank ((Text.allBlank_reverse held).trans hb)] at htrim
        exact absurd htrim.symm htrimmed.ne_nil
  calc s.run (text ++ (blanks ++ [';']))
      = (s.run (text ++ blanks)).step ';' := by rw [← List.append_assoc, run_append]; rfl
    _ = { s with held := held }.endStatement := by rw [hrun, step, hs]; rfl
    _ = _ := by simp [endStatement, hsolid, emit, heldText, htrim]

theorem completes_block {prelude blanks body : List Char} (hprelude : IsSteady prelude)
    (hblanks : Text.allBlank blanks = true) (hbody : Passes (.body prelude 0 .plain) body) :
    Completes (.block prelude body) (prelude ++ (blanks ++ '\x7b' :: (body ++ ['\x7d']))) := by
  intro s hs hheld
  obtain ⟨held, hrun, htrim⟩ := held_of_passes (passes_text_of_isCalm hprelude.toIsCalm)
    hprelude.trimmed hblanks hs hheld
  have hopen : { s with held := held }.step '\x7b' =
      { s with mode := .body prelude 0 .plain, held := [] } := by
    simp [step, hs, stepText, Context.reads, heldText, htrim]
  calc s.run (prelude ++ (blanks ++ '\x7b' :: (body ++ ['\x7d'])))
      = (((s.run (prelude ++ blanks)).step '\x7b').run body).step '\x7d' := by
        rw [← List.append_assoc, run_append]
        exact run_append _ body ['\x7d']
    _ = ({ s with mode := .body prelude 0 .plain, held := [] }.run body).step '\x7d' := by
        rw [hrun, hopen]
    _ = _ := by
        rw [hbody _ rfl]
        simp [step, stepBody, Context.reads, emit]

theorem completes_comment {text : List Char} (htext : ¬ ['*', '/'] <:+: text) :
    Completes (.comment text) ('/' :: '*' :: (text ++ ['*', '/'])) := by
  intro s hs hheld
  have hopen : (s.step '/').step '*' = { s with mode := .remark false, held := [] } := by
    simp [step, hs, stepText, Context.reads, Context.next, Context.ofPlain, hold, hheld]
  have hrest := run_remark htext (s := { s with mode := .remark false, held := [] }) rfl (by simp)
  calc s.run ('/' :: '*' :: (text ++ ['*', '/']))
      = ((s.step '/').step '*').run (text ++ ['*', '/']) := rfl
    _ = _ := by rw [hopen, hrest]

/-- The parts of an item are such that what spells it is read as this item. -/
def IsReady : Item → Prop
  | .comment text => ¬ ['*', '/'] <:+: text
  | .statement text =>
    Text.IsTrimmed text ∧ Passes (.text 0 .plain) text ∧
      ∀ prelude depth, Passes (.body prelude depth .plain) text
  | .block prelude body =>
    IsSteady prelude ∧ ∀ prelude' depth, Passes (.body prelude' depth .plain) body

/-- What spells an item is read as this item. -/
theorem completes_of_spells {item : Item} {text : List Char} (hready : IsReady item)
    (h : Spells item text) : Completes item text := by
  cases h with
  | comment => exact completes_comment hready
  | statement hblanks =>
      obtain ⟨htrimmed, hpasses, -⟩ := hready
      exact completes_statement hpasses htrimmed hblanks
  | block hblanks =>
      obtain ⟨hsteady, hbody⟩ := hready
      exact completes_block hsteady hblanks (hbody _ 0)

/-- What spells an item passes inside of any body. -/
theorem passes_body_of_spells {item : Item} {text : List Char} (hready : IsReady item)
    (h : Spells item text) (prelude : List Char) (depth : Nat) :
    Passes (.body prelude depth .plain) text := by
  have hblank : ∀ {blanks : List Char}, Text.allBlank blanks = true →
      Passes (.body prelude depth .plain) blanks :=
    fun hblanks => passes_body_of_quiet (isCalm_of_allBlank hblanks).quiet
  cases h with
  | comment => exact passes_body_comment hready
  | statement hblanks =>
      obtain ⟨-, -, hpasses⟩ := hready
      have hsemicolon : Passes (.body prelude depth .plain) [';'] := by
        intro s hs
        rw [run, List.foldl_cons, step, hs]
        rfl
      exact (hpasses prelude depth).append ((hblank hblanks).append hsemicolon)
  | block hblanks =>
      obtain ⟨hsteady, hbody⟩ := hready
      have hblock := passes_body_block (hbody prelude (depth + 1))
      exact (passes_body_of_quiet hsteady.quiet).append ((hblank hblanks).append hblock)

end Scanner

/-! ## The items of a text -/

/-- Nothing but blanks holds no item. -/
theorem scan_of_allBlank {blanks : List Char} (h : Text.allBlank blanks = true) :
    scan blanks = [] := by
  have hpasses := Scanner.passes_text_of_isCalm (isCalm_of_allBlank h) {} rfl
  have hheld : Text.allBlank (blanks.reverse ++ []) = true := by
    rw [List.append_nil, Text.allBlank_reverse, h]
  rw [scan, hpasses]
  simp only [Scanner.finish, Scanner.endStatement, hheld, if_true, List.reverse_nil]

/-- A complete item comes first, and what follows it is scanned on its own. -/
theorem scan_cons {item : Item} {blanks text : List Char} (hblanks : Text.allBlank blanks = true)
    (htext : Scanner.Completes item text) (rest : List Char) :
    scan (blanks ++ (text ++ rest)) = item :: scan rest := by
  have hpasses := Scanner.passes_text_of_isCalm (isCalm_of_allBlank hblanks) {} rfl
  have hheld : Text.allBlank (blanks.reverse ++ []) = true := by
    rw [List.append_nil, Text.allBlank_reverse, hblanks]
  have hitem : Scanner.run {} (blanks ++ text) = Scanner.withOlder [item] {} := by
    rw [Scanner.run_append, hpasses]
    exact htext _ rfl hheld
  rw [scan, ← List.append_assoc, Scanner.run_append, hitem, Scanner.run_withOlder,
    Scanner.finish_withOlder, List.reverse_append]
  rfl

end ContrastAudit.Stylesheet
