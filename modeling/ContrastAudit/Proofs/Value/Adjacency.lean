import ContrastAudit.Proofs.Value.Separators

/-!
# Values side by side

Values between which something stands that nothing is added to, a comma or white space, are read
with each of them as it is read on its own.

**Results.**
* `Glued.parseChars_call`: a function of values with separators between them has the components of
  these values and the separators as its children.
-/

namespace ContrastAudit

namespace Token

/-- The tokens of a text with a character behind it that nothing is added to are those of the text
and those from this character on; white space is not added to white space. -/
theorem tokens_append_stop {cs ds : List Char} {c : Char} (hc : isStop c = true)
    (h : (tokens cs).2 = [])
    (hlast : Text.isBlank c = true → ∀ d ∈ cs.getLast?, Text.isBlank d = false) :
    tokens (cs ++ c :: ds) =
      ((tokens cs).1 ++ (tokens (c :: ds)).1, (tokens (c :: ds)).2) := by
  fun_induction tokens cs with
  | case1 cs hscan =>
      dsimp only at h
      simp [h]
  | case2 cs t rest hscan _ ih =>
      have hcs := append_of_scan hscan
      have hblank : Text.isBlank c = true → Text.allBlank cs = false := by
        intro hblank
        have hne : cs ≠ [] := by
          rintro rfl
          contradiction
        have hlast := hlast hblank (cs.getLast hne) (List.getLast?_eq_getLast_of_ne_nil hne)
        by_contra hall
        rw [Bool.not_eq_false] at hall
        rw [List.all_eq_true.1 hall _ (List.getLast_mem hne)] at hlast
        contradiction
      have hrest : Text.isBlank c = true → ∀ d ∈ rest.getLast?, Text.isBlank d = false := by
        intro hblank d hd
        refine hlast hblank d ?_
        rw [hcs, List.getLast?_append, Option.mem_def.1 hd]
        rfl
      rw [tokens_of_scan (scan_stop hc hscan hblank ds), ih h hrest]
      rfl

theorem tokens_closed {t : Token} (hclosed : t.isClosed = true)
    (h : scan t.chars = some (t, [])) (ds : List Char) :
    tokens (t.chars ++ ds) = (t :: (tokens ds).1, (tokens ds).2) :=
  tokens_of_scan (scan_of_isClosed hclosed (by rwa [List.append_nil]) ds)

/-- White space in front of something else is a token of its own. -/
theorem tokens_blank {c : Char} (hc : Text.isBlank c = true) {ds : List Char}
    (hds : ∀ d ∈ ds.head?, Text.isBlank d = false) :
    tokens (c :: ds) = (⟨.leaf .space, [c]⟩ :: (tokens ds).1, (tokens ds).2) := by
  have hnone : ds.takeWhile Text.isBlank = [] ∧ Text.trimStart ds = ds := by
    cases ds with
    | nil => exact ⟨rfl, rfl⟩
    | cons d ds => simp [Text.trimStart, hds d rfl]
  have hscan := scan_blank hc ds
  rw [hnone.1, hnone.2] at hscan
  exact tokens_of_scan hscan

end Token

namespace Component

/-- A text is read as components, at least one, none of which is a separator. -/
structure ReadsApart (cs : List Char) (components : List Component) : Prop where
  parse : parseChars cs = .ok components
  ne_nil : components ≠ []
  apart : ∀ c ∈ components, c.separates = false

section ReadsApart

variable {cs : List Char} {components : List Component} (h : ReadsApart cs components)
include h

theorem ReadsApart.unsplit : Balance.Unsplit (.text 0) cs :=
  (unsplit_iff_of_parseChars h.parse).2 h.apart

theorem ReadsApart.ne_nil_chars : cs ≠ [] := by
  rintro rfl
  have hnone : parseChars [] = .ok [] := parseChars_eq_ok_iff.2 (by simp)
  have hread := h.parse
  rw [hnone] at hread
  cases hread
  exact h.ne_nil rfl

theorem ReadsApart.head_not_blank : ∀ d ∈ cs.head?, Text.isBlank d = false := by
  intro d hd
  obtain ⟨rest, rfl⟩ := List.head?_eq_some_iff.1 hd
  have hseparator := h.unsplit.1 rfl
  simp only [isSeparator, Bool.or_eq_false_iff] at hseparator
  exact hseparator.1.1

theorem ReadsApart.last_not_blank : ∀ d ∈ cs.getLast?, Text.isBlank d = false := by
  intro d hd
  obtain ⟨front, rfl⟩ := List.getLast?_eq_some_iff.1 hd
  by_contra hblank
  rw [Bool.not_eq_false] at hblank
  have hbalanced : IsBalancedValue (front ++ [d]) := (exists_parseChars_iff _).1 ⟨_, h.parse⟩
  rw [IsBalancedValue, Balance.run_append] at hbalanced
  have hquote : ((Balance.text 0).run front).HasQuote :=
    Balance.HasQuote.run (b := .text 0) trivial _
  have houtside := hquote.eq_text_of_next_blank hblank hbalanced
  have hunsplit := (Balance.unsplit_append.1 h.unsplit).2.1 houtside
  simp [isSeparator, hblank] at hunsplit

theorem ReadsApart.tokens_append {c : Char} (hc : Token.isStop c = true) (ds : List Char) :
    Token.tokens (cs ++ c :: ds) =
      (tokensOfAll components ++ (Token.tokens (c :: ds)).1, (Token.tokens (c :: ds)).2) := by
  have htokens := parseChars_eq_ok_iff.1 h.parse
  have hall := @Token.tokens_append_stop cs ds c hc (by rw [htokens])
    fun _ => h.last_not_blank
  rw [hall, htokens]

end ReadsApart

/-- A text is read as separators wherever it stands in front of something that is not blank. -/
structure IsGlue (glue : List Char) (separators : List Component) : Prop where
  starts : ∃ c rest, glue = c :: rest ∧ Token.isStop c = true
  tokens_append : ∀ ds : List Char, (∀ d ∈ ds.head?, Text.isBlank d = false) →
    Token.tokens (glue ++ ds) =
      (tokensOfAll separators ++ (Token.tokens ds).1, (Token.tokens ds).2)

theorem isGlue_blank : IsGlue [' '] [.leaf .space " "] where
  starts := ⟨' ', [], rfl, by decide⟩
  tokens_append ds hds := by
    rw [List.singleton_append, Token.tokens_blank (by decide) hds]
    rfl

theorem isGlue_comma : IsGlue [',', ' '] [.leaf .comma ",", .leaf .space " "] where
  starts := ⟨',', [' '], rfl, by decide⟩
  tokens_append ds hds := by
    have hcomma := Token.tokens_closed (t := ⟨.leaf .comma, [',']⟩) rfl (by decide) (' ' :: ds)
    rw [List.singleton_append, Token.tokens_blank (by decide) hds] at hcomma
    exact hcomma

theorem isGlue_slash :
    IsGlue [' ', '/', ' '] [.leaf .space " ", .leaf .slash "/", .leaf .space " "] where
  starts := ⟨' ', ['/', ' '], rfl, by decide⟩
  tokens_append ds hds := by
    have hslash := Token.tokens_closed (t := ⟨.leaf .slash, ['/']⟩) rfl (by decide) (' ' :: ds)
    rw [List.singleton_append, Token.tokens_blank (by decide) hds] at hslash
    have hblank : ∀ d ∈ ('/' :: ' ' :: ds).head?, Text.isBlank d = false := by
      rintro d ⟨⟩
      decide
    have hfirst := Token.tokens_blank (c := ' ') (by decide) hblank
    rw [hslash] at hfirst
    exact hfirst

/-- Values with separators between them. -/
inductive Glued : List Char → List Component → Prop
  | last {cs : List Char} {components : List Component} (h : ReadsApart cs components) :
      Glued cs components
  | cons {cs glue ds : List Char} {components separators more : List Component}
      (h : ReadsApart cs components) (hglue : IsGlue glue separators) (hmore : Glued ds more) :
      Glued (cs ++ (glue ++ ds)) (components ++ (separators ++ more))

theorem Glued.ne_nil {cs : List Char} {components : List Component} (h : Glued cs components) :
    cs ≠ [] := by
  cases h with
  | last h => exact h.ne_nil_chars
  | cons h _ _ => exact List.append_ne_nil_of_left_ne_nil h.ne_nil_chars _

theorem Glued.head_not_blank {cs : List Char} {components : List Component}
    (h : Glued cs components) : ∀ d ∈ cs.head?, Text.isBlank d = false := by
  cases h with
  | last h => exact h.head_not_blank
  | cons h _ _ =>
      rw [List.head?_append_of_ne_nil _ h.ne_nil_chars]
      exact h.head_not_blank

/-- Values with separators between them are read one after the other. -/
theorem Glued.tokens_append {cs : List Char} {components : List Component}
    (h : Glued cs components) {c : Char} (hc : Token.isStop c = true) (ds : List Char) :
    Token.tokens (cs ++ c :: ds) =
      (tokensOfAll components ++ (Token.tokens (c :: ds)).1, (Token.tokens (c :: ds)).2) := by
  induction h with
  | last h => exact h.tokens_append hc ds
  | @cons cs glue ds' components separators more h hglue hmore ih =>
      obtain ⟨d, rest, rfl, hd⟩ := hglue.starts
      have hhead : ∀ e ∈ (ds' ++ c :: ds).head?, Text.isBlank e = false := by
        rw [List.head?_append_of_ne_nil _ hmore.ne_nil]
        exact hmore.head_not_blank
      have hbetween := hglue.tokens_append (ds' ++ c :: ds) hhead
      rw [List.append_assoc, List.append_assoc, List.cons_append, h.tokens_append hd,
        ← List.cons_append, hbetween, ih]
      simp

/-- A function of values with separators between them has them as its children. -/
theorem Glued.parseChars_call {cs : List Char} {components : List Component}
    (h : Glued cs components) {name : String}
    (hname : Token.scan (name.toList ++ ['(']) = some (⟨.function, name.toList ++ ['(']⟩, [])) :
    parseChars (name.toList ++ ['('] ++ (cs ++ [')'])) = .ok [.function name components] := by
  have hclosing : Token.tokens [')'] = ([⟨.closing, [')']⟩], []) :=
    by simpa using Token.tokens_closed (t := ⟨.closing, [')']⟩) rfl (by decide) []
  have hcall := Token.tokens_closed (t := ⟨.function, name.toList ++ ['(']⟩) rfl hname (cs ++ [')'])
  rw [parseChars_eq_ok_iff]
  rw [h.tokens_append (by decide), hclosing] at hcall
  simpa [tokens] using hcall

end Component

end ContrastAudit
