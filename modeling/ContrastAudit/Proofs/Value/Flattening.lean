import ContrastAudit.Proofs.Value.Boundary
import ContrastAudit.Proofs.Value.Reading

/-!
# Components as tokens

Components are trees over tokens: a function is its name with the parenthesis, its children and a
closing parenthesis.  What is read of a value are the components with the value's tokens, and no
other ones have them.  So components that stand side by side are read back from their own text.

**Results.**
* `parseChars_eq_ok_iff`: which components are read of a text.
* `ReadBefore.parseChars_eq`: components that stand side by side are read back from their own text.
* `isBalancedValue_charsOfAll`: components with tokens of other texts are a value.
-/

namespace ContrastAudit

namespace Token

/-! ## Tokens of a text one by one -/

section Tokens

variable {t : Token} {ts us : List Token} {cs ds rest : List Char}

theorem tokens_of_scan (h : scan cs = some (t, rest)) :
    tokens cs = (t :: (tokens rest).1, (tokens rest).2) := by
  rw [tokens]
  split
  · next hnone => simp [h] at hnone
  · next u us hsome =>
      rw [h] at hsome
      cases hsome
      rfl

theorem tokens_of_scan_eq_none (h : scan cs = none) : tokens cs = ([], cs) := by
  rw [tokens]
  split
  · rfl
  · next hsome => simp [h] at hsome

@[simp] theorem tokens_nil : tokens [] = ([], []) :=
  tokens_of_scan_eq_none rfl

/-- The first of the tokens of a text is the one that stands at its start. -/
theorem scan_of_isPrefix (h : t :: ts <+: (tokens (t.chars ++ rest)).1) :
    scan (t.chars ++ rest) = some (t, rest) ∧ ts <+: (tokens rest).1 := by
  cases hscan : scan (t.chars ++ rest) with
  | none =>
      rw [tokens_of_scan_eq_none hscan] at h
      simp at h
  | some found =>
      obtain ⟨u, rest'⟩ := found
      rw [tokens_of_scan hscan, List.cons_prefix_cons] at h
      obtain ⟨rfl, hts⟩ := h
      obtain rfl : rest = rest' := List.append_cancel_left (append_of_scan hscan)
      exact ⟨rfl, hts⟩

theorem prefix_of_append (h : ts ++ us <+: (tokens (text ts ++ rest)).1) :
    us <+: (tokens rest).1 := by
  induction ts with
  | nil => exact h
  | cons t ts ih =>
      rw [List.cons_append, text_cons, List.append_assoc] at h
      exact ih (scan_of_isPrefix h).2

/-- The tokens at the start of a text are those of the text that is cut behind them. -/
theorem tokens_text_of_isPrefix (h : ts <+: (tokens (text ts ++ rest)).1) :
    tokens (text ts) = (ts, []) := by
  induction ts with
  | nil => exact tokens_nil
  | cons t ts ih =>
      rw [text_cons, List.append_assoc] at h
      obtain ⟨hscan, hts⟩ := scan_of_isPrefix h
      rw [text_cons, tokens_of_scan (scan_cut hscan), ih hts]

end Tokens

end Token

namespace Component

/-! ## Tokens of components -/

mutual

/-- The tokens of a component. -/
def tokens : Component → List Token
  | .leaf kind text => [⟨.leaf kind, text.toList⟩]
  | .function name children =>
      ⟨.function, name.toList ++ ['(']⟩ :: (tokensOfAll children ++ [⟨.closing, [')']⟩])
  | .block children => ⟨.opening, ['(']⟩ :: (tokensOfAll children ++ [⟨.closing, [')']⟩])

/-- The tokens of a sequence of components. -/
def tokensOfAll : List Component → List Token
  | [] => []
  | c :: cs => c.tokens ++ tokensOfAll cs

end

@[simp] theorem tokensOfAll_nil : tokensOfAll [] = [] := by
  simp [tokensOfAll]

@[simp] theorem tokensOfAll_cons (c : Component) (cs : List Component) :
    tokensOfAll (c :: cs) = c.tokens ++ tokensOfAll cs := by
  simp [tokensOfAll]

@[simp] theorem tokensOfAll_append (cs ds : List Component) :
    tokensOfAll (cs ++ ds) = tokensOfAll cs ++ tokensOfAll ds := by
  induction cs with
  | nil => simp
  | cons c cs ih => simp [ih]

mutual

theorem text_tokens : ∀ c : Component, Token.text c.tokens = c.chars
  | .leaf kind text => by simp [tokens, Token.text, chars]
  | .function name children => by
      have hchildren := text_tokensOfAll children
      simp_all [tokens, Token.text, chars]
  | .block children => by
      have hchildren := text_tokensOfAll children
      simp_all [tokens, Token.text, chars]

/-- Components are written as their tokens are. -/
theorem text_tokensOfAll : ∀ cs : List Component, Token.text (tokensOfAll cs) = charsOfAll cs
  | [] => by simp [Token.text]
  | c :: cs => by
      have hc := text_tokens c
      have hcs := text_tokensOfAll cs
      simp_all [Token.text]

end

/-- The tokens of a frame up to its opening parenthesis. -/
def Frame.tokens (frame : Frame) : List Token :=
  tokensOfAll frame.before.reverse ++
    [match frame.name with
      | some name => ⟨.function, name.toList ++ ['(']⟩
      | none => ⟨.opening, ['(']⟩]

/-- The tokens of the open frames, innermost first. -/
def tokensOfFrames (frames : List Frame) : List Token :=
  frames.reverse.flatMap Frame.tokens

@[simp] theorem tokensOfFrames_nil : tokensOfFrames [] = [] :=
  rfl

@[simp] theorem tokensOfFrames_cons (frame : Frame) (frames : List Frame) :
    tokensOfFrames (frame :: frames) = tokensOfFrames frames ++ frame.tokens := by
  simp [tokensOfFrames]

/-- A frame that is closed has the tokens of the frame, its children and a parenthesis. -/
theorem tokensOfAll_close (frame : Frame) (children : List Component) :
    tokensOfAll (frame.close children :: frame.before).reverse =
      frame.tokens ++ (tokensOfAll children ++ [⟨.closing, [')']⟩]) := by
  obtain ⟨name, before⟩ := frame
  cases name <;> simp [Frame.close, Frame.tokens, tokens]

/-- What is assembled has the tokens of what was open before and the ones behind it. -/
theorem tokensOfAll_of_assemble {stuck : Bool} {ts : List Token} (hts : ∀ t ∈ ts, t.IsWritten)
    {frames : List Frame} {current : List Component} {last offset : Nat}
    {components : List Component}
    (h : assemble stuck frames current last offset ts = .ok components) :
    tokensOfAll components =
      tokensOfFrames frames ++ (tokensOfAll current.reverse ++ ts) := by
  induction ts generalizing frames current last offset with
  | nil =>
      rw [assemble.eq_def] at h
      dsimp only at h
      split_ifs at h with hstuck hclosed
      cases h
      simp [List.isEmpty_iff.1 hclosed]
  | cons t ts ih =>
      obtain ⟨ht, hrest⟩ := List.forall_mem_cons.1 hts
      rw [assemble.eq_def] at h
      rcases ht.nesting with ⟨name, rfl⟩ | rfl | rfl | ⟨kind, chars, rfl⟩
      · have hread := ih hrest h
        simpa [Frame.tokens] using hread
      · have hread := ih hrest h
        simpa [Frame.tokens] using hread
      · cases frames with
        | nil => contradiction
        | cons frame frames =>
            have hread := ih hrest h
            rw [tokensOfAll_close] at hread
            simpa using hread
      · have hread := ih hrest h
        simpa [tokens] using hread

mutual

theorem exists_assemble_tokens :
    ∀ (c : Component) (frames : List Frame) (current : List Component) (last offset : Nat)
      (ts : List Token), ∃ last' offset',
      assemble false frames current last offset (c.tokens ++ ts) =
        assemble false frames (c :: current) last' offset' ts
  | .leaf kind text, frames, current, last, offset, ts => by
      refine ⟨offset, offset + text.toList.length, ?_⟩
      simp [tokens, assemble]
  | .function name children, frames, current, last, offset, ts => by
      obtain ⟨last', offset', hchildren⟩ := exists_assemble_tokensOfAll children
        (⟨some name, current⟩ :: frames) [] offset (offset + (name.toList ++ ['(']).length)
        (⟨.closing, [')']⟩ :: ts)
      refine ⟨offset', offset' + 1, ?_⟩
      rw [List.append_nil] at hchildren
      simpa [tokens, assemble, Frame.close] using hchildren
  | .block children, frames, current, last, offset, ts => by
      obtain ⟨last', offset', hchildren⟩ := exists_assemble_tokensOfAll children
        (⟨none, current⟩ :: frames) [] offset (offset + 1) (⟨.closing, [')']⟩ :: ts)
      refine ⟨offset', offset' + 1, ?_⟩
      rw [List.append_nil] at hchildren
      simpa [tokens, assemble, Frame.close] using hchildren

/-- Tokens of components are assembled as these components. -/
theorem exists_assemble_tokensOfAll :
    ∀ (cs : List Component) (frames : List Frame) (current : List Component) (last offset : Nat)
      (ts : List Token), ∃ last' offset',
      assemble false frames current last offset (tokensOfAll cs ++ ts) =
        assemble false frames (cs.reverse ++ current) last' offset' ts
  | [], frames, current, last, offset, ts => ⟨last, offset, by simp⟩
  | c :: cs, frames, current, last, offset, ts => by
      obtain ⟨last₁, offset₁, hc⟩ :=
        exists_assemble_tokens c frames current last offset (tokensOfAll cs ++ ts)
      obtain ⟨last₂, offset₂, hcs⟩ :=
        exists_assemble_tokensOfAll cs frames (c :: current) last₁ offset₁ ts
      refine ⟨last₂, offset₂, ?_⟩
      rw [tokensOfAll_cons, List.append_assoc, hc, hcs, List.reverse_cons, List.append_assoc,
        List.singleton_append]

end

theorem assemble_tokensOfAll (cs : List Component) :
    assemble false [] [] 0 0 (tokensOfAll cs) = .ok cs := by
  obtain ⟨last, offset, hread⟩ := exists_assemble_tokensOfAll cs [] [] 0 0 []
  rw [List.append_nil] at hread
  rw [hread]
  simp [assemble]

/-- What is read of a text are the components that have its tokens. -/
theorem parseChars_eq_ok_iff {cs : List Char} {components : List Component} :
    parseChars cs = .ok components ↔ Token.tokens cs = (tokensOfAll components, []) := by
  have hts : ∀ t ∈ (Token.tokens cs).1, t.IsWritten := fun t ht => Token.isWritten_of_mem_tokens ht
  rw [parseChars]
  constructor
  · intro h
    obtain ⟨hstuck, -⟩ := (exists_assemble_iff hts [] [] 0 0).1 ⟨components, h⟩
    have hread := tokensOfAll_of_assemble hts h
    refine Prod.ext ?_ ?_
    · simpa using hread.symm
    · simpa using hstuck
  · intro h
    rw [h]
    exact assemble_tokensOfAll components

/-- No rest is left of the text of a value. -/
theorem tokens_complete_of_parse? {source : String} {components : List Component}
    (h : parse? source = some components) : (Token.tokens source.toList).2 = [] := by
  rw [parseChars_eq_ok_iff.1 (parse?_eq_some_iff.1 h)]

/-- The tokens of a value are written as tokens are. -/
theorem isWritten_of_parse? {source : String} {components : List Component}
    (h : parse? source = some components) : ∀ t ∈ tokensOfAll components, t.IsWritten := by
  intro t ht
  have htokens := parseChars_eq_ok_iff.1 (parse?_eq_some_iff.1 h)
  have hmem : t ∈ (Token.tokens source.toList).1 := by rwa [htokens]
  exact Token.isWritten_of_mem_tokens hmem

/-! ## Components in front of a text -/

/-- Components are the first ones that are read where a text stands behind them. -/
def ReadBefore (rest : List Char) (cs : List Component) : Prop :=
  tokensOfAll cs <+: (Token.tokens (charsOfAll cs ++ rest)).1

section ReadBefore

variable {rest : List Char} {c : Component} {cs ds children : List Component} {kind : LeafKind}
  {text name : String}

theorem readBefore_of_parseChars {cs : List Char} {components : List Component}
    (h : parseChars cs = .ok components) : ReadBefore [] components := by
  have htokens := parseChars_eq_ok_iff.1 h
  rw [← charsOfAll_of_parseChars h] at htokens
  simp [ReadBefore, htokens]

theorem ReadBefore.append (h : ReadBefore rest (cs ++ ds)) :
    ReadBefore (charsOfAll ds ++ rest) cs ∧ ReadBefore rest ds := by
  rw [ReadBefore, tokensOfAll_append, charsOfAll_append, List.append_assoc] at h
  refine ⟨(List.prefix_append _ _).trans h, ?_⟩
  rw [← text_tokensOfAll cs] at h
  exact Token.prefix_of_append h

theorem ReadBefore.cons (h : ReadBefore rest (c :: cs)) :
    ReadBefore (charsOfAll cs ++ rest) [c] ∧ ReadBefore rest cs :=
  @ReadBefore.append rest [c] cs h

theorem ReadBefore.leaf (h : ReadBefore rest (.leaf kind text :: cs)) :
    Token.scan (text.toList ++ (charsOfAll cs ++ rest)) =
        some (⟨.leaf kind, text.toList⟩, charsOfAll cs ++ rest) ∧
      ReadBefore rest cs := by
  have h' : (⟨.leaf kind, text.toList⟩ : Token) :: tokensOfAll cs <+:
      (Token.tokens (text.toList ++ (charsOfAll cs ++ rest))).1 := by
    simpa [ReadBefore, tokens, chars] using h
  exact Token.scan_of_isPrefix h'

/-- The children behind an opening parenthesis, and what is behind the closing one. -/
theorem readBefore_of_prefix_closing
    (h : tokensOfAll children ++ (⟨.closing, [')']⟩ :: tokensOfAll cs) <+:
      (Token.tokens (charsOfAll children ++ ')' :: (charsOfAll cs ++ rest))).1) :
    ReadBefore (')' :: (charsOfAll cs ++ rest)) children ∧ ReadBefore rest cs := by
  refine ⟨(List.prefix_append _ _).trans h, ?_⟩
  rw [← text_tokensOfAll children] at h
  exact (Token.scan_of_isPrefix (Token.prefix_of_append h)).2

theorem ReadBefore.block (h : ReadBefore rest (.block children :: cs)) :
    ReadBefore (')' :: (charsOfAll cs ++ rest)) children ∧ ReadBefore rest cs := by
  have h' : (⟨.opening, ['(']⟩ : Token) ::
      (tokensOfAll children ++ (⟨.closing, [')']⟩ :: tokensOfAll cs)) <+:
      (Token.tokens (['('] ++ (charsOfAll children ++ ')' :: (charsOfAll cs ++ rest)))).1 := by
    simpa [ReadBefore, tokens, chars] using h
  exact readBefore_of_prefix_closing (Token.scan_of_isPrefix h').2

theorem ReadBefore.function (h : ReadBefore rest (.function name children :: cs)) :
    Token.scan (name.toList ++ ['('] ++ (charsOfAll children ++ ')' :: (charsOfAll cs ++ rest))) =
        some (⟨.function, name.toList ++ ['(']⟩,
          charsOfAll children ++ ')' :: (charsOfAll cs ++ rest)) ∧
      ReadBefore (')' :: (charsOfAll cs ++ rest)) children ∧ ReadBefore rest cs := by
  have h' : (⟨.function, name.toList ++ ['(']⟩ : Token) ::
      (tokensOfAll children ++ (⟨.closing, [')']⟩ :: tokensOfAll cs)) <+:
      (Token.tokens (name.toList ++ ['('] ++
        (charsOfAll children ++ ')' :: (charsOfAll cs ++ rest)))).1 := by
    simpa [ReadBefore, tokens, chars] using h
  exact ⟨(Token.scan_of_isPrefix h').1, readBefore_of_prefix_closing (Token.scan_of_isPrefix h').2⟩

/-- A part of a sequence is read back from its own text. -/
theorem ReadBefore.parseChars_eq (h : ReadBefore rest cs) :
    parseChars (charsOfAll cs) = .ok cs := by
  rw [ReadBefore, ← text_tokensOfAll] at h
  rw [parseChars_eq_ok_iff, ← text_tokensOfAll]
  exact Token.tokens_text_of_isPrefix h

end ReadBefore

/-! ## Components that make a value -/

/-- Components whose tokens are written as tokens are make a balanced text. -/
theorem isBalancedValue_charsOfAll {cs : List Component} (h : ∀ t ∈ tokensOfAll cs, t.IsWritten) :
    IsBalancedValue (charsOfAll cs) := by
  rw [IsBalancedValue, ← text_tokensOfAll]
  exact ((exists_assemble_iff h [] [] 0 0).1 ⟨cs, assemble_tokensOfAll cs⟩).2

end Component

end ContrastAudit
