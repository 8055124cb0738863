import ContrastAudit.Proofs.Stylesheet.Scan

/-!
# Trees that are written down

A tree can be written down if its texts are plain and its properties close their parentheses.  Its
entries then stand in a text one after the other, and reading the text gives their nodes.

**Results.**
* `isReady_of_shows`: the items that stand for such entries are read wherever they are spelled.
* `parse_of_shows`: the nodes of a written tree follow its entries.
-/

namespace ContrastAudit.Stylesheet

namespace Entry

theorem sizeOf_body_le (e : Entry) : sizeOf e.body ≤ sizeOf e := by
  cases e with
  | declaration property value =>
      simp [body]
      omega
  | rule selectors body => simp [Entry.body]
  | atRule name prelude body => simp [Entry.body]
  | importing path => simp [body]
  | comment text => simp [body]

/-- What holds of a list if it holds of the rest and of the body of the first entry holds of all
lists. -/
theorem body_induction {motive : List Entry → Prop} (nil : motive [])
    (cons : ∀ e es, motive e.body → motive es → motive (e :: es)) : ∀ es, motive es
  | [] => nil
  | e :: es => by
      have hbody := sizeOf_body_le e
      exact cons e es (body_induction nil cons e.body) (body_induction nil cons es)
termination_by es => sizeOf es
decreasing_by
  all_goals
    simp only [List.cons.sizeOf_spec]
    omega

end Entry

/-! ## Printed trees -/

theorem lists_join {selectors : List (List Char)} (hne : selectors ≠ []) :
    Lists selectors (Text.join ',' selectors) := by
  induction selectors with
  | nil => exact absurd rfl hne
  | cons s ss ih =>
      cases ss with
      | nil => exact .single
      | cons s' ss =>
          have hrest : Lists (s' :: ss) (Text.join ',' (s' :: ss)) := ih (List.cons_ne_nil _ _)
          exact @Lists.cons s [] [] _ _ rfl rfl hrest

theorem heads_print (name prelude : List Char) :
    Heads name prelude ('@' :: (name ++ if prelude.isEmpty then [] else ' ' :: prelude)) := by
  cases prelude with
  | nil =>
      have h : Heads name [] ('@' :: name) := .bare
      simpa using h
  | cons c cs =>
      refine @Heads.along name (c :: cs) [' '] (List.cons_ne_nil _ _) rfl ?_
      rintro d ⟨⟩
      decide

/-- What an entry prints spells an item that stands for it, if its body is written by what that
prints. -/
theorem exists_shows_print {e : Entry} (he : e.IsLegible)
    (hbody : Writes e.body (Entry.printAll e.body)) :
    ∃ item, Shows e item ∧ Spells item e.print := by
  cases e with
  | declaration property value =>
      have htext : (property ++ ':' :: value) ++ ([] ++ [';']) =
          (Entry.declaration property value).print := by
        rw [Entry.print]
        simp
      exact ⟨_, @Shows.declaration property value [] [] rfl rfl, htext ▸ .statement rfl⟩
  | rule selectors body =>
      have htext : Text.join ',' selectors ++ ([] ++ '\x7b' :: (Entry.printAll body ++ ['\x7d'])) =
          (Entry.rule selectors body).print := by
        rw [Entry.print]
        rfl
      exact ⟨_, .rule (lists_join he.1) hbody, htext ▸ .block rfl⟩
  | atRule name prelude body =>
      have htext : '@' :: (name ++ if prelude.isEmpty then [] else ' ' :: prelude) ++
          ([] ++ '\x7b' :: (Entry.printAll body ++ ['\x7d'])) =
            (Entry.atRule name prelude body).print := by
        rw [Entry.print]
        simp
      exact ⟨_, .atRule (heads_print name prelude) hbody, htext ▸ .block rfl⟩
  | importing path =>
      have htext : importWord ++ ([' '] ++ '"' :: (path ++ ['"'])) ++ ([] ++ [';']) =
          (Entry.importing path).print := by
        rw [Entry.print]
        simp
      exact ⟨_, @Shows.importing path [' '] rfl (by decide), htext ▸ .statement rfl⟩
  | comment text => exact ⟨_, .comment, .comment⟩

/-- What a legible tree prints is one of the texts that write it. -/
theorem writes_printAll (es : List Entry) :
    (∀ e ∈ es, e.Every Entry.IsLegible) → Writes es (Entry.printAll es) := by
  induction es using Entry.body_induction with
  | nil => exact fun _ => .nil rfl
  | cons e es ihBody ih =>
      intro hes
      obtain ⟨he, hrest⟩ := List.forall_mem_cons.1 hes
      obtain ⟨item, hshows, hspells⟩ := exists_shows_print he.here (ihBody he.inside)
      exact @Writes.cons e es item [] _ _ rfl hshows hspells (ih hrest)

/-! ## Preludes -/

theorem isSteady_of_lists {selectors : List (List Char)} {text : List Char}
    (h : Lists selectors text) (hselectors : ∀ s ∈ selectors, IsSelector s) : IsSteady text := by
  induction h with
  | single => exact (hselectors _ (List.mem_singleton_self _)).isSteady
  | @cons selector before after text selectors hbefore hafter _ ih =>
      obtain ⟨hselector, hrest⟩ := List.forall_mem_cons.1 hselectors
      have hcomma : IsCalm [','] := isCalm_singleton (by decide)
      have hmiddle := (isCalm_of_allBlank hbefore).append
        (hcomma.append (isCalm_of_allBlank hafter))
      have hsteady := hselector.isSteady.append hmiddle (ih hrest)
      rwa [List.append_assoc, List.append_assoc] at hsteady

theorem isBlank_of_isAtNameChar {c : Char} (h : isAtNameChar c = true) :
    Text.isBlank c = false :=
  Text.isBlank_of_isNameChar (Bool.or_eq_true_iff.2 (.inl h))

theorem isSteady_at_name {name : List Char} (h : IsAtName name ∨ IsOtherName name) :
    IsSteady ('@' :: name) := by
  have hat : IsCalm ['@'] := isCalm_singleton (by decide)
  have hname : IsCalm name ∧ ∀ c ∈ name, Text.isBlank c = false := by
    rcases h with hname | hother
    · exact ⟨isCalm_of_forall (by decide) hname.chars,
        fun c hc => isBlank_of_isAtNameChar (hname.chars c hc)⟩
    · refine ⟨isCalm_of_forall (p := fun c => !('(' :: ')' :: reserved).contains c) (by decide) ?_,
        hother.solid⟩
      intro c hc
      simpa using hother.free c hc
  refine ⟨hat.append hname.1, Text.isTrimmed_of_forall (List.cons_ne_nil _ _) ?_⟩
  exact List.forall_mem_cons.2 ⟨by decide, hname.2⟩

theorem isSteady_of_heads {name prelude text : List Char} (h : Heads name prelude text)
    (hname : IsAtName name ∨ IsOtherName name) (hprelude : prelude = [] ∨ IsValue prelude) :
    IsSteady text := by
  cases h with
  | bare => exact isSteady_at_name hname
  | along hne hbetween _ =>
      have hvalue := hprelude.resolve_left hne
      exact (isSteady_at_name hname).append (isCalm_of_allBlank hbetween)
        (hvalue.toIsPlain.isSteady hvalue.closes)

/-! ## Statements -/

theorem isSteady_declaration {property value before after : List Char}
    (hproperty : IsSteady property) (hvalue : IsSteady value)
    (hbefore : Text.allBlank before = true) (hafter : Text.allBlank after = true) :
    IsSteady (property ++ (before ++ ':' :: (after ++ value))) := by
  have hcolon : IsCalm [':'] := isCalm_singleton (by decide)
  have hmiddle := (isCalm_of_allBlank hbefore).append (hcolon.append (isCalm_of_allBlank hafter))
  have hsteady := hproperty.append hmiddle hvalue
  rwa [List.append_assoc, List.append_assoc] at hsteady

theorem isTrimmed_import (between path : List Char) :
    Text.IsTrimmed (importWord ++ (between ++ '"' :: (path ++ ['"']))) := by
  have hword : Text.IsTrimmed importWord := ⟨by decide, by decide⟩
  have hquote : Text.IsTrimmed ['"'] := ⟨by decide, by decide⟩
  have h := hword.append (between ++ '"' :: path) hquote
  rwa [List.append_assoc, List.cons_append] at h

theorem isCalm_import_word {between : List Char} (hbetween : Text.allBlank between = true) :
    IsCalm (importWord ++ between) := by
  have hword : IsCalm importWord :=
    isCalm_of_forall (p := fun c => isAtNameChar c || c == '@') (by decide)
      (List.all_eq_true.1 (by decide))
  exact hword.append (isCalm_of_allBlank hbetween)

/-! ## Items and nodes -/

/-- The item that stands for an entry can be read, if the bodies inside of it pass. -/
theorem isReady_of_shows {e : Entry} {item : Item} (h : Shows e item) (he : e.IsPrintable)
    (hbody : ∀ text, Writes e.body text →
      ∀ prelude depth, Scanner.Passes (.body prelude depth .plain) text) :
    Scanner.IsReady item := by
  obtain ⟨hlegible, hcloses⟩ := he.here
  cases h with
  | declaration hbefore hafter =>
      obtain ⟨hproperty, hvalue⟩ := hlegible
      have hsteady := isSteady_declaration (hproperty.toIsPlain.isSteady hcloses)
        (hvalue.toIsPlain.isSteady hvalue.closes) hbefore hafter
      exact ⟨hsteady.trimmed, Scanner.passes_text_of_isCalm hsteady.toIsCalm,
        fun _ _ => Scanner.passes_body_of_quiet hsteady.quiet⟩
  | rule hlists hwrites => exact ⟨isSteady_of_lists hlists hlegible.2, hbody _ hwrites⟩
  | atRule hheads hwrites =>
      exact ⟨isSteady_of_heads hheads hlegible.1 hlegible.2, hbody _ hwrites⟩
  | @importing path between hbetween _ =>
      have hcalm := isCalm_import_word hbetween
      have htext := (Scanner.passes_text_of_isCalm hcalm).append
        (Scanner.passes_text_quoted hlegible.free)
      refine ⟨isTrimmed_import between path, ?_, fun prelude depth => ?_⟩
      · rwa [List.append_assoc] at htext
      · have hword : Scanner.Passes (.body prelude depth .plain) _ :=
          Scanner.passes_body_of_quiet hcalm.quiet
        have hinside := hword.append (Scanner.passes_body_quoted hlegible.free)
        rwa [List.append_assoc] at hinside
  | comment => exact hlegible

/-- A text that writes entries passes inside of any body. -/
theorem passes_body_of_writes (es : List Entry) :
    ∀ {text : List Char}, Writes es text → (∀ e ∈ es, e.IsPrintable) →
      ∀ prelude depth, Scanner.Passes (.body prelude depth .plain) text := by
  induction es using Entry.body_induction with
  | nil =>
      intro text h _ prelude depth
      cases h with
      | nil hblanks => exact Scanner.passes_body_of_quiet (isCalm_of_allBlank hblanks).quiet
  | cons e es ihBody ih =>
      intro text h hes prelude depth
      obtain ⟨he, hrest⟩ := List.forall_mem_cons.1 hes
      cases h with
      | cons hblanks hshows hspells hwrites =>
          have hready := isReady_of_shows hshows he fun _ hbody => ihBody hbody he.inside
          have hfront : Scanner.Passes (.body prelude depth .plain) _ :=
            Scanner.passes_body_of_quiet (isCalm_of_allBlank hblanks).quiet
          exact hfront.append ((Scanner.passes_body_of_spells hready hspells prelude depth).append
            (ih hwrites hrest prelude depth))

/-- Behind blanks and an entry that is written down, the entry's node comes first, and what follows
is read on its own. -/
theorem parse_of_shows {e : Entry} {item : Item} {blanks text : List Char} (he : e.IsPrintable)
    (hblanks : Text.allBlank blanks = true) (hshows : Shows e item) (hspells : Spells item text)
    (rest : List Char) :
    Node.parse (blanks ++ (text ++ rest)) = Node.ofItem Node.parse item :: Node.parse rest := by
  have hready := isReady_of_shows hshows he fun _ hbody =>
    passes_body_of_writes e.body hbody he.inside
  have hscan := scan_cons hblanks (Scanner.completes_of_spells hready hspells) rest
  rw [Node.parse_eq_map, hscan, List.map_cons, ← Node.parse_eq_map]

theorem parse_of_allBlank {blanks : List Char} (h : Text.allBlank blanks = true) :
    Node.parse blanks = [] := by
  rw [Node.parse_eq_map, scan_of_allBlank h, List.map_nil]

end ContrastAudit.Stylesheet
