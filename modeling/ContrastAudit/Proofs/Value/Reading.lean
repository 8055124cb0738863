import ContrastAudit.Proofs.Text.Trim
import ContrastAudit.Proofs.Value.Token
import ContrastAudit.Value.Parse

/-!
# Which values are read

One pass over the characters of a text, which only keeps track of strings and of the number of open
parentheses, tells whether the text is a value.  What is read of a value is the value itself: its
components are written back as the same text.

**Results.**
* `exists_parse_iff`: a text is read as a value exactly if it is balanced.
* `render_parse`: what is read of a text is written back as this text, and what is nested in it, at
  any depth, as a piece of it.
-/

namespace ContrastAudit

/-- Where one pass over a text stands. -/
inductive Balance
  /-- Outside of strings, with the number of open parentheses. -/
  | text (depth : Nat)
  /-- Behind a `#`, where a name must follow. -/
  | hash (depth : Nat)
  | quoted (quote : Char) (depth : Nat)
  /-- Behind a backslash inside of a string. -/
  | escaped (quote : Char) (depth : Nat)
  /-- Behind something that no value holds. -/
  | lost
  deriving DecidableEq, Repr

namespace Balance

/-- The pass goes on with one more character. -/
def next : Balance → Char → Balance
  | .text depth, c =>
    if c = '"' ∨ c = '\'' then .quoted c depth
    else if c = '(' then .text (depth + 1)
    else if c = ')' then if depth = 0 then .lost else .text (depth - 1)
    else if c = '#' then .hash depth
    else .text depth
  | .hash depth, c => if Text.isNameChar c then .text depth else .lost
  | .quoted quote depth, c =>
    if c = quote then .text depth
    else if c = '\\' then .escaped quote depth
    else .quoted quote depth
  | .escaped quote depth, c => if c = '\n' then .lost else .quoted quote depth
  | .lost, _ => .lost

def run (b : Balance) (cs : List Char) : Balance :=
  cs.foldl next b

@[simp] theorem run_nil (b : Balance) : b.run [] = b :=
  rfl

@[simp] theorem run_cons (b : Balance) (c : Char) (cs : List Char) :
    b.run (c :: cs) = (b.next c).run cs :=
  rfl

@[simp] theorem run_append (b : Balance) (cs ds : List Char) :
    b.run (cs ++ ds) = (b.run cs).run ds :=
  List.foldl_append

@[simp] theorem run_lost (cs : List Char) : lost.run cs = lost := by
  induction cs with
  | nil => rfl
  | cons c cs ih => exact ih

/-- What a token of a kind does outside of strings. -/
def afterToken (depth : Nat) : TokenKind → Balance
  | .function | .opening => .text (depth + 1)
  | .closing => if depth = 0 then .lost else .text (depth - 1)
  | .leaf _ => .text depth

theorem next_text_of_quote {quote : Char} (h : quote = '"' ∨ quote = '\'') (depth : Nat) :
    (text depth).next quote = quoted quote depth :=
  if_pos h

theorem next_text_hash (depth : Nat) : (text depth).next '#' = hash depth :=
  rfl

theorem next_text_of_not_special {c : Char} (h : c ∉ Token.special) (depth : Nat) :
    (text depth).next c = text depth := by
  simp only [Token.special, List.mem_cons, List.not_mem_nil, or_false, not_or] at h
  simp [next, h]

theorem run_text_of_calm {cs : List Char} (h : ∀ c ∈ cs, c ∉ Token.special) (depth : Nat) :
    (text depth).run cs = text depth := by
  induction cs with
  | nil => rfl
  | cons c cs ih =>
      obtain ⟨hc, hcs⟩ := List.forall_mem_cons.1 h
      rw [run_cons, next_text_of_not_special hc, ih hcs]

theorem run_text_of_name {name : List Char} (h : ∀ c ∈ name, Text.isNameChar c = true)
    (depth : Nat) : (text depth).run name = text depth :=
  run_text_of_calm (fun c hc => Token.not_mem_special (by decide) (h c hc)) depth

theorem run_quoted_of_endsString {quote : Char} (hquote : quote ≠ '\\') {cs : List Char}
    (h : Token.EndsString quote cs) (depth : Nat) : (quoted quote depth).run cs = text depth := by
  induction h with
  | close => simp [next]
  | escape hc _ ih => simp [next, hquote.symm, hc, ih]
  | char hc hbackslash _ ih => simp [next, hc, hbackslash, ih]

/-- A token takes the pass where its kind says. -/
theorem run_of_isWritten {t : Token} (h : t.IsWritten) (depth : Nat) :
    (text depth).run t.chars = afterToken depth t.kind := by
  cases h with
  | function hname => simp [run_text_of_name hname, next, afterToken]
  | opening => rfl
  | closing => rfl
  | @hash c name hname =>
      obtain ⟨hc, hname⟩ := List.forall_mem_cons.1 hname
      rw [run_cons, run_cons, next_text_hash, next, if_pos hc, run_text_of_name hname, afterToken]
  | @string quote rest hquote hends =>
      have hne : quote ≠ '\\' := by rcases hquote with rfl | rfl <;> decide
      rw [run_cons, next_text_of_quote hquote, run_quoted_of_endsString hne hends, afterToken]
  | calm hchars => rw [run_text_of_calm hchars, afterToken]

/-- Behind some tokens the pass stands outside of strings, or has met a stray parenthesis. -/
theorem run_text_of_forall_isWritten {ts : List Token} (h : ∀ t ∈ ts, t.IsWritten) (depth : Nat) :
    (∃ e, (text depth).run (Token.text ts) = text e) ∨
      (text depth).run (Token.text ts) = lost := by
  induction ts generalizing depth with
  | nil => exact .inl ⟨depth, rfl⟩
  | cons t ts ih =>
      obtain ⟨ht, hrest⟩ := List.forall_mem_cons.1 h
      rw [Token.text_cons, run_append, run_of_isWritten ht]
      rcases ht.nesting with ⟨name, rfl⟩ | rfl | rfl | ⟨kind, chars, rfl⟩
      · exact ih hrest (depth + 1)
      · exact ih hrest (depth + 1)
      · rw [afterToken]
        split
        · exact .inr (run_lost _)
        · exact ih hrest (depth - 1)
      · exact ih hrest depth

/-! ## Where no token starts -/

theorem run_quoted_ne_text {quote : Char} {cs : List Char} (h : Token.stringRest quote cs = 0)
    (depth e : Nat) : (quoted quote depth).run cs ≠ text e := by
  fun_induction Token.stringRest quote cs with
  | case1 => simp
  | case2 => contradiction
  | case3 hne => simp [next, hne]
  | case4 ds hne => simp [next, hne]
  | case5 d ds hd hne ih =>
      have hrest := ih (Token.after_eq_zero_iff.1 h)
      simpa [next, hne, hd] using hrest
  | case6 d ds hquote hbackslash ih =>
      have hrest := ih (Token.after_eq_zero_iff.1 h)
      simpa [next, hquote, hbackslash] using hrest

/-- Where no token starts, the pass never leaves strings and hashes again. -/
theorem run_ne_text_of_scan_eq_none {c : Char} {cs : List Char}
    (h : Token.scan (c :: cs) = none) (depth e : Nat) :
    (text depth).run (c :: cs) ≠ text e := by
  rcases Token.stuck_of_scan_eq_none h with ⟨hquote, hrest⟩ | ⟨rfl, hhead⟩
  · rw [run_cons, next_text_of_quote hquote]
    exact run_quoted_ne_text hrest depth e
  · rw [run_cons, next_text_hash]
    cases cs with
    | nil => simp
    | cons d ds => simp [next, hhead d rfl]

/-! ## White space at the ends -/

/-- What a pass takes for a quote is one. -/
def HasQuote : Balance → Prop
  | .quoted quote _ | .escaped quote _ => quote = '"' ∨ quote = '\''
  | _ => True

theorem HasQuote.next {b : Balance} (h : b.HasQuote) (c : Char) : (b.next c).HasQuote := by
  cases b with
  | text depth =>
      by_cases hc : c = '"' ∨ c = '\''
      · rw [next_text_of_quote hc]
        exact hc
      · simp only [Balance.next, if_neg hc]
        split_ifs <;> trivial
  | hash depth =>
      rw [Balance.next]
      split <;> trivial
  | quoted quote depth =>
      rw [Balance.next]
      split_ifs
      · trivial
      · exact h
      · exact h
  | escaped quote depth =>
      rw [Balance.next]
      split_ifs
      · trivial
      · exact h
  | lost => trivial

theorem HasQuote.run {b : Balance} (h : b.HasQuote) (cs : List Char) : (b.run cs).HasQuote := by
  induction cs generalizing b with
  | nil => exact h
  | cons c cs ih => exact ih (h.next c)

/-- White space does not lead out of a string and not to the name of a hash. -/
theorem HasQuote.eq_text_of_next_blank {b : Balance} (h : b.HasQuote) {c : Char}
    (hc : Text.isBlank c = true) {depth : Nat} (hnext : b.next c = text depth) :
    b = text depth := by
  cases b with
  | text e =>
      rwa [next_text_of_not_special (Token.not_mem_special (by decide) hc)] at hnext
  | hash e =>
      have hname : Text.isNameChar c = false := by
        by_contra hname
        rw [Bool.not_eq_false] at hname
        rw [Text.isBlank_of_isNameChar hname] at hc
        contradiction
      simp [Balance.next, hname] at hnext
  | quoted quote e =>
      have hne : c ≠ quote := by
        rintro rfl
        rcases h with rfl | rfl
        all_goals contradiction
      simp only [Balance.next, if_neg hne] at hnext
      split_ifs at hnext
  | escaped quote e =>
      simp only [Balance.next] at hnext
      split_ifs at hnext
  | lost => contradiction

theorem HasQuote.eq_text_of_run_blank {b : Balance} (h : b.HasQuote) {blanks : List Char}
    (hblanks : Text.allBlank blanks = true) {depth : Nat} (hrun : b.run blanks = text depth) :
    b = text depth := by
  induction blanks generalizing b with
  | nil => exact hrun
  | cons c blanks ih =>
      obtain ⟨hc, hrest⟩ := List.forall_mem_cons.1 (List.all_eq_true.1 hblanks)
      exact h.eq_text_of_next_blank hc (ih (h.next c) (List.all_eq_true.2 hrest) hrun)

end Balance

/-- The strings of a text are closed, its parentheses match, and behind every `#` outside of strings
there is a name. -/
def IsBalancedValue (cs : List Char) : Prop :=
  (Balance.text 0).run cs = .text 0

instance decidableIsBalancedValue (cs : List Char) : Decidable (IsBalancedValue cs) :=
  inferInstanceAs (Decidable ((Balance.text 0).run cs = .text 0))

theorem Balance.run_text_of_allBlank {blanks : List Char} (h : Text.allBlank blanks = true)
    (depth : Nat) : (Balance.text depth).run blanks = .text depth :=
  Balance.run_text_of_calm
    (fun c hc => Token.not_mem_special (by decide) (List.all_eq_true.1 h c hc)) depth

/-- A value stays one when white space is taken from its ends. -/
theorem IsBalancedValue.trim {cs : List Char} (h : IsBalancedValue cs) :
    IsBalancedValue (Text.trim cs) := by
  obtain ⟨before, after, hbefore, hafter, hcs⟩ := Text.exists_trim_between cs
  rw [IsBalancedValue, hcs, Balance.run_append, Balance.run_text_of_allBlank hbefore,
    Balance.run_append] at h
  have hquote : ((Balance.text 0).run (Text.trim cs)).HasQuote :=
    Balance.HasQuote.run (b := .text 0) trivial _
  exact hquote.eq_text_of_run_blank hafter h

/-- A text between blanks is a value if it is one on its own. -/
theorem isBalancedValue_of_trim {cs : List Char} (h : IsBalancedValue (Text.trim cs)) :
    IsBalancedValue cs := by
  obtain ⟨before, after, hbefore, hafter, hcs⟩ := Text.exists_trim_between cs
  rw [IsBalancedValue, hcs, Balance.run_append, Balance.run_text_of_allBlank hbefore,
    Balance.run_append, h, Balance.run_text_of_allBlank hafter]

namespace Component

/-! ## Assembling tokens -/

@[simp] theorem charsOfFrames_nil : charsOfFrames [] = [] :=
  rfl

@[simp] theorem charsOfFrames_cons (frame : Frame) (frames : List Frame) :
    charsOfFrames (frame :: frames) = charsOfFrames frames ++ frame.chars := by
  simp [charsOfFrames]

/-- A frame that is closed is written as the frame, its children and a parenthesis. -/
theorem charsOfAll_close (frame : Frame) (children : List Component) :
    charsOfAll (frame.close children :: frame.before).reverse =
      frame.chars ++ (charsOfAll children ++ [')']) := by
  obtain ⟨name, before⟩ := frame
  cases name <;> simp [Frame.close, Frame.chars, chars]

section Assembly

variable {stuck : Bool} {ts : List Token} (hts : ∀ t ∈ ts, t.IsWritten)
include hts

/-- Tokens make components exactly if they close all that is open and nothing else. -/
theorem exists_assemble_iff (frames : List Frame) (current : List Component) (last offset : Nat) :
    (∃ components, assemble stuck frames current last offset ts = .ok components) ↔
      stuck = false ∧ (Balance.text frames.length).run (Token.text ts) = .text 0 := by
  induction ts generalizing frames current last offset with
  | nil =>
      rw [assemble.eq_def]
      cases stuck with
      | true => simp
      | false => cases frames <;> simp [Token.text]
  | cons t ts ih =>
      obtain ⟨ht, hrest⟩ := List.forall_mem_cons.1 hts
      rw [Token.text_cons, Balance.run_append, Balance.run_of_isWritten ht, assemble.eq_def]
      rcases ht.nesting with ⟨name, rfl⟩ | rfl | rfl | ⟨kind, chars, rfl⟩
      · exact ih hrest _ _ _ _
      · exact ih hrest _ _ _ _
      · cases frames with
        | nil => simp [Balance.afterToken]
        | cons frame frames => exact ih hrest _ _ _ _
      · exact ih hrest _ _ _ _

/-- What is assembled is written as what was open before and the tokens behind it. -/
theorem charsOfAll_of_assemble {frames : List Frame} {current : List Component} {last offset : Nat}
    {components : List Component}
    (h : assemble stuck frames current last offset ts = .ok components) :
    charsOfAll components =
      charsOfFrames frames ++ (charsOfAll current.reverse ++ Token.text ts) := by
  induction ts generalizing frames current last offset with
  | nil =>
      rw [assemble.eq_def] at h
      dsimp only at h
      split_ifs at h with hstuck hclosed
      cases h
      simp [List.isEmpty_iff.1 hclosed, Token.text]
  | cons t ts ih =>
      obtain ⟨ht, hrest⟩ := List.forall_mem_cons.1 hts
      rw [assemble.eq_def] at h
      rw [Token.text_cons]
      rcases ht.nesting with ⟨name, rfl⟩ | rfl | rfl | ⟨kind, chars, rfl⟩
      · have hwritten := ih hrest h
        simpa [Frame.chars] using hwritten
      · have hwritten := ih hrest h
        simpa [Frame.chars] using hwritten
      · cases frames with
        | nil => contradiction
        | cons frame frames =>
            have hwritten := ih hrest h
            rw [charsOfAll_close] at hwritten
            simpa using hwritten
      · have hwritten := ih hrest h
        simpa [Component.chars] using hwritten

end Assembly

/-! ## Values -/

theorem exists_parseChars_iff (cs : List Char) :
    (∃ components, parseChars cs = .ok components) ↔ IsBalancedValue cs := by
  have hts : ∀ t ∈ (Token.tokens cs).1, t.IsWritten := fun t ht => Token.isWritten_of_mem_tokens ht
  have hstuck := Token.scan_tokens cs
  have hpass : IsBalancedValue cs ↔
      ((Balance.text 0).run (Token.text (Token.tokens cs).1)).run (Token.tokens cs).2 =
        .text 0 := by
    rw [← Balance.run_append, Token.text_tokens, IsBalancedValue]
  rw [hpass, parseChars, exists_assemble_iff hts]
  cases hrest : (Token.tokens cs).2 with
  | nil => simp
  | cons c rest =>
      rw [hrest] at hstuck
      -- something is left that no token starts with, so the value is refused
      simp only [List.isEmpty_cons, Bool.not_false, Bool.true_eq_false, false_and, false_iff]
      rcases Balance.run_text_of_forall_isWritten hts 0 with ⟨e, he⟩ | hlost
      · rw [he]
        exact Balance.run_ne_text_of_scan_eq_none hstuck e 0
      · rw [hlost, Balance.run_lost]
        simp

/-- What is read of a text is written as this text. -/
theorem charsOfAll_of_parseChars {cs : List Char} {components : List Component}
    (h : parseChars cs = .ok components) : charsOfAll components = cs := by
  have hts : ∀ t ∈ (Token.tokens cs).1, t.IsWritten := fun t ht => Token.isWritten_of_mem_tokens ht
  rw [parseChars] at h
  obtain ⟨hstuck, -⟩ := (exists_assemble_iff hts [] [] 0 0).1 ⟨components, h⟩
  have hrest : (Token.tokens cs).2 = [] := by simpa using hstuck
  have hwritten := charsOfAll_of_assemble hts h
  calc charsOfAll components
      = Token.text (Token.tokens cs).1 := by simpa using hwritten
    _ = cs := by
        conv => rhs; rw [← Token.text_tokens cs, hrest, List.append_nil]

theorem parse_eq_ok_iff {source : String} {components : List Component} :
    parse source = .ok components ↔ parseChars source.toList = .ok components := by
  unfold parse
  split <;> simp_all

theorem parse?_eq_some_iff {source : String} {components : List Component} :
    parse? source = some components ↔ parseChars source.toList = .ok components := by
  rw [← parse_eq_ok_iff, parse?]
  cases parse source <;> simp [Except.toOption]

/-- A value is read exactly if one pass from left to right finds its strings and parentheses closed
and no lone `#`. -/
theorem exists_parse_iff (source : String) :
    (∃ components, parse source = .ok components) ↔ IsBalancedValue source.toList := by
  constructor
  · rintro ⟨components, h⟩
    exact (exists_parseChars_iff source.toList).1 ⟨components, parse_eq_ok_iff.1 h⟩
  · intro h
    obtain ⟨components, hcomponents⟩ := (exists_parseChars_iff source.toList).2 h
    exact ⟨components, parse_eq_ok_iff.2 hcomponents⟩

/-- A parenthesis in a string does not count, and a `#` wants a name. -/
example : IsBalancedValue "f(\")\" #a)".toList ∧ ¬ IsBalancedValue "f(#)".toList := by
  decide

/-- A sequence of components that stands in another one at any depth: the sequence itself, or the
children of a function or block in it. -/
inductive Nested (components : List Component) : List Component → Prop
  | here : Nested components components
  | function {around children : List Component} {name : String} :
      Nested components around → .function name children ∈ around → Nested components children
  | block {around children : List Component} :
      Nested components around → .block children ∈ around → Nested components children

theorem chars_infix_of_mem {c : Component} {cs : List Component} (h : c ∈ cs) :
    c.chars <:+: charsOfAll cs := by
  obtain ⟨before, behind, rfl⟩ := List.append_of_mem h
  rw [charsOfAll_append, charsOfAll_cons]
  exact ⟨charsOfAll before, charsOfAll behind, by simp⟩

/-- What stands inside of components is written inside of their text. -/
theorem charsOfAll_infix_of_nested {components inner : List Component}
    (h : Nested components inner) : charsOfAll inner <:+: charsOfAll components := by
  induction h with
  | here => exact List.infix_rfl
  | @function around children name _ hmem ih =>
      have hchildren : charsOfAll children <:+: chars (.function name children) :=
        ⟨name.toList ++ ['('], [')'], by simp [chars]⟩
      exact hchildren.trans ((chars_infix_of_mem hmem).trans ih)
  | @block around children _ hmem ih =>
      have hchildren : charsOfAll children <:+: chars (.block children) :=
        ⟨['('], [')'], by simp [chars]⟩
      exact hchildren.trans ((chars_infix_of_mem hmem).trans ih)

/-- A value is refused, which only happens to texts that are not balanced, or what is read of it is
written as the value again, and whatever stands inside of it at any depth is written as a piece of
the value. -/
theorem render_parse (source : String) :
    (¬ IsBalancedValue source.toList ∧ ∃ e, parse source = .error e) ∨
      ∃ components, parse source = .ok components ∧ render components = source ∧
        ∀ inner, Nested components inner → (render inner).toList <:+: source.toList := by
  cases h : parse source with
  | error e =>
      refine .inl ⟨fun hbalanced => ?_, e, rfl⟩
      obtain ⟨components, hcomponents⟩ := (exists_parseChars_iff source.toList).2 hbalanced
      rw [parse_eq_ok_iff.2 hcomponents] at h
      contradiction
  | ok components =>
      have hwritten := charsOfAll_of_parseChars (parse_eq_ok_iff.1 h)
      refine .inr ⟨components, rfl, ?_, fun inner hinner => ?_⟩
      · rw [render, hwritten, String.ofList_toList]
      · rw [render, String.toList_ofList, ← hwritten]
        exact charsOfAll_infix_of_nested hinner

end Component

end ContrastAudit
