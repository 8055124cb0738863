import ContrastAudit.Text.Blank

/-!
# The items of a style sheet

A style sheet, or the body of a block, is a sequence of items: comments that stand alone, statements
that end at a semicolon, and blocks between braces.  One pass with a small state finds them.
Strings and comments hide what is inside of them; between parentheses semicolons and braces are
ordinary; a block lasts until the brace that closes it, whatever parentheses its body has.  At the
end of the text everything that is open is closed.

**Results.**
* `run_append`: scanning goes on where it stopped.
* `length_body_lt`: the body of a block is shorter than the text it was found in.
-/

namespace ContrastAudit.Stylesheet

/-- Where a scanner stands with respect to strings and comments. -/
inductive Context
  | plain
  /-- Behind a slash that may start a comment. -/
  | slash
  | quoted (quote : Char)
  /-- Behind a backslash inside of a string. -/
  | escaped (quote : Char)
  | comment
  /-- Behind a star that may end a comment. -/
  | star
  deriving DecidableEq, Repr

namespace Context

/-- The context behind a character of ordinary text. -/
def ofPlain (c : Char) : Context :=
  if c = '/' then .slash else if c = '"' ∨ c = '\'' then .quoted c else .plain

/-- The context behind one more character. -/
def next : Context → Char → Context
  | .plain, c => ofPlain c
  | .slash, c => if c = '*' then .comment else ofPlain c
  | .quoted q, c => if c = '\\' then .escaped q else if c = q then .plain else .quoted q
  | .escaped q, _ => .quoted q
  | .comment, c => if c = '*' then .star else .comment
  | .star, c => if c = '/' then .plain else if c = '*' then .star else .comment

/-- Whether a character is ordinary text. -/
def reads : Context → Char → Bool
  | .plain, _ => true
  | .slash, c => c != '*'
  | _, _ => false

end Context

/-- One item of a body. -/
inductive Item
  | comment (text : List Char)
  | statement (text : List Char)
  | block (prelude body : List Char)
  deriving DecidableEq, Repr

/-- What the scanner is in the middle of. -/
inductive Mode
  /-- A statement or the prelude of a block, with the number of open parentheses. -/
  | text (parens : Nat) (context : Context)
  /-- A comment that stands alone; `star` tells that a star has just been read. -/
  | remark (star : Bool)
  /-- The body of a block, with the number of braces opened inside of it. -/
  | body (prelude : List Char) (depth : Nat) (context : Context)
  deriving DecidableEq, Repr

/-- The state of the scanner: the characters held back and the complete items, last ones first. -/
structure Scanner where
  mode : Mode := .text 0 .plain
  held : List Char := []
  items : List Item := []
  deriving DecidableEq, Repr

namespace Scanner

/-- The state after a complete item. -/
def emit (s : Scanner) (item : Item) : Scanner :=
  { items := item :: s.items }

/-- The state after a character that is held back. -/
def hold (s : Scanner) (c : Char) (mode : Mode) : Scanner :=
  { s with mode := mode, held := c :: s.held }

/-- The text held back, without blanks at its ends. -/
def heldText (s : Scanner) : List Char :=
  Text.trim s.held.reverse

/-- The state after the statement under way, which does not count if it is blank. -/
def endStatement (s : Scanner) : Scanner :=
  if Text.allBlank s.held then { items := s.items } else s.emit (.statement s.heldText)

/-- One more character of a statement or prelude. -/
def stepText (s : Scanner) (parens : Nat) (context : Context) (c : Char) : Scanner :=
  if context = .slash ∧ c = '*' ∧ Text.allBlank s.held.tail then
    { s with mode := .remark false, held := [] }
  else if context.reads c then
    if c = '(' then s.hold c (.text (parens + 1) .plain)
    else if c = ')' then s.hold c (.text (parens - 1) .plain)
    else if parens = 0 ∧ c = ';' then s.endStatement
    else if parens = 0 ∧ c = '\x7b' then { s with mode := .body s.heldText 0 .plain, held := [] }
    else if parens = 0 ∧ c = '\x7d' then { items := s.items }
    else s.hold c (.text parens (context.next c))
  else s.hold c (.text parens (context.next c))

/-- One more character of a comment that stands alone. -/
def stepRemark (s : Scanner) (star : Bool) (c : Char) : Scanner :=
  if star ∧ c = '/' then s.emit (.comment s.held.tail.reverse) else s.hold c (.remark (c == '*'))

/-- One more character of a body. -/
def stepBody (s : Scanner) (prelude : List Char) (depth : Nat) (context : Context) (c : Char) :
    Scanner :=
  if context.reads c ∧ c = '\x7b' then s.hold c (.body prelude (depth + 1) .plain)
  else if context.reads c ∧ c = '\x7d' then
    match depth with
    | 0 => s.emit (.block prelude s.held.reverse)
    | depth + 1 => s.hold c (.body prelude depth .plain)
  else s.hold c (.body prelude depth (context.next c))

/-- The state after one more character. -/
def step (s : Scanner) (c : Char) : Scanner :=
  match s.mode with
  | .text parens context => s.stepText parens context c
  | .remark star => s.stepRemark star c
  | .body prelude depth context => s.stepBody prelude depth context c

/-- The state after some text. -/
def run (s : Scanner) (cs : List Char) : Scanner :=
  cs.foldl step s

/-- The items when the text ends here, last one first. -/
def finish (s : Scanner) : List Item :=
  match s.mode with
  | .text _ _ => s.endStatement.items
  | .remark _ => .comment s.held.reverse :: s.items
  | .body prelude _ _ => .block prelude s.held.reverse :: s.items

theorem run_append (s : Scanner) (cs ds : List Char) : s.run (cs ++ ds) = (s.run cs).run ds := by
  simp [run, List.foldl_append]

/-- The bodies found so far, and the one under way, are shorter than `n`. -/
def Shorter (n : Nat) (s : Scanner) : Prop :=
  (∀ p b, Item.block p b ∈ s.items → b.length < n) ∧
    ∀ p d k, s.mode = .body p d k → s.held.length < n

theorem shorter_endStatement {n : Nat} {s : Scanner} (h : s.Shorter n) :
    s.endStatement.Shorter n := by
  unfold endStatement
  split
  · exact ⟨h.1, by simp⟩
  · refine ⟨fun p b hb => ?_, by simp [emit]⟩
    simp only [emit, List.mem_cons, reduceCtorEq, false_or] at hb
    exact h.1 p b hb

theorem shorter_hold {n : Nat} {s : Scanner} (h : s.Shorter n) (c : Char) {mode : Mode}
    (hm : (∃ p d k, s.mode = .body p d k) ∨ ∀ p d k, mode ≠ .body p d k) :
    (s.hold c mode).Shorter (n + 1) := by
  refine ⟨fun p b hb => Nat.lt_succ_of_lt (h.1 p b hb), fun p d k hk => ?_⟩
  rcases hm with ⟨p', d', k', hm⟩ | hm
  · have := h.2 p' d' k' hm
    simp only [hold, List.length_cons]
    omega
  · exact absurd hk (hm p d k)

theorem shorter_step {n : Nat} {s : Scanner} (h : s.Shorter n) (c : Char) :
    (s.step c).Shorter (n + 1) := by
  have keep : ∀ {p b}, Item.block p b ∈ s.items → b.length < n + 1 :=
    fun hb => Nat.lt_succ_of_lt (h.1 _ _ hb)
  unfold step
  split
  · next parens context hmode =>
    unfold stepText
    split
    · exact ⟨fun p b hb => keep hb, by simp⟩
    · split
      · split
        · exact shorter_hold h c (.inr (by simp))
        · split
          · exact shorter_hold h c (.inr (by simp))
          · split
            · have := shorter_endStatement h
              exact ⟨fun p b hb => Nat.lt_succ_of_lt (this.1 p b hb),
                fun p d k hk => Nat.lt_succ_of_lt (this.2 p d k hk)⟩
            · split
              · exact ⟨fun p b hb => keep hb, by simp⟩
              · split
                · exact ⟨fun p b hb => keep hb, by simp⟩
                · exact shorter_hold h c (.inr (by simp))
      · exact shorter_hold h c (.inr (by simp))
  · next star hmode =>
    unfold stepRemark
    split
    · refine ⟨fun p b hb => ?_, by simp [emit]⟩
      simp only [emit, List.mem_cons, reduceCtorEq, false_or] at hb
      exact keep hb
    · exact shorter_hold h c (.inr (by simp))
  · next prelude depth context hmode =>
    have inside : ∃ p d k, s.mode = .body p d k := ⟨_, _, _, hmode⟩
    unfold stepBody
    split
    · exact shorter_hold h c (.inl inside)
    · split
      · split
        · refine ⟨fun p b hb => ?_, by simp [emit]⟩
          simp only [emit, List.mem_cons] at hb
          rcases hb with hb | hb
          · cases hb
            have := h.2 _ _ _ hmode
            simp only [List.length_reverse]
            omega
          · exact keep hb
        · exact shorter_hold h c (.inl inside)
      · exact shorter_hold h c (.inl inside)

theorem shorter_run {n : Nat} {s : Scanner} (h : s.Shorter n) (cs : List Char) :
    (s.run cs).Shorter (n + cs.length) := by
  induction cs generalizing n s with
  | nil => exact h
  | cons c cs ih =>
    have := ih (shorter_step h c)
    rw [List.length_cons, Nat.add_comm cs.length, ← Nat.add_assoc]
    exact this

end Scanner

/-- The items of a text, in order. -/
def scan (cs : List Char) : List Item :=
  (Scanner.run {} cs).finish.reverse

theorem length_body_lt {cs prelude body : List Char} (h : Item.block prelude body ∈ scan cs) :
    body.length < cs.length := by
  have short : (Scanner.run {} cs).Shorter (0 + cs.length) := by
    refine Scanner.shorter_run ⟨by simp, by simp⟩ cs
  simp only [scan, List.mem_reverse, Scanner.finish] at h
  split at h
  · have := (Scanner.shorter_endStatement short).1 _ _ h
    omega
  · simp only [List.mem_cons, reduceCtorEq, false_or] at h
    have := short.1 _ _ h
    omega
  · next hmode =>
    simp only [List.mem_cons, Item.block.injEq] at h
    rcases h with ⟨rfl, rfl⟩ | h
    · have := short.2 _ _ _ hmode
      simp only [List.length_reverse]
      omega
    · have := short.1 _ _ h
      omega

end ContrastAudit.Stylesheet
