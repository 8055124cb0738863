import ContrastAudit.Proofs.Stylesheet.Written

/-!
# Reading plain texts

What is written with plain texts is read back: a declaration as its property and its value, a list
as its selectors, an import as its path, and the head of an at-rule as its name.

**Results.**
* `declaration?_of_isPlain`: a declaration is read as its property and its value.
* `importTarget?_of_isPath`: an import is read as its path.
* `splitSelectors_of_lists`: a list is read as its selectors.
* `groupingRules_contains_atName`: whether an at-rule groups rules is told by its name.
-/

namespace ContrastAudit.Stylesheet

/-! ## Texts without comments -/

theorem dropComments_of_no_slash {text : List Char} (h : '/' ∉ text) :
    dropComments text = text := by
  induction text with
  | nil => rw [dropComments]
  | cons c cs ih =>
      rw [List.mem_cons, not_or] at h
      obtain ⟨hc, hcs⟩ := h
      rw [dropComments, ih hcs]
      intro ds hslash _
      exact hc hslash.symm

theorem clean_of_isSteady {text : List Char} (h : IsSteady text) : clean text = text := by
  have hslash : '/' ∉ text := fun hmem => h.quiet '/' hmem (by decide)
  rw [clean, dropComments_of_no_slash hslash, h.trimmed.trim_eq]

/-! ## Declarations -/

theorem cut_append {sep : Char} {before : List Char} (h : sep ∉ before) (after : List Char) :
    Text.cut sep (before ++ sep :: after) = some (before, after) := by
  induction before with
  | nil => simp [Text.cut]
  | cons c cs ih =>
      rw [List.mem_cons, not_or] at h
      obtain ⟨hc, hcs⟩ := h
      rw [List.cons_append, Text.cut, if_neg (Ne.symm hc), ih hcs]
      rfl

theorem suffix_of_restAfterWord? {word cs rest : List Char}
    (h : Text.restAfterWord? word cs = some rest) : rest <:+ cs := by
  fun_induction Text.restAfterWord? word cs with
  | case1 cs =>
      rw [Option.some.injEq] at h
      exact h ▸ List.suffix_refl cs
  | case2 => simp at h
  | case3 l word c cs _ ih => exact (ih h).trans (List.suffix_cons c cs)
  | case4 => simp at h

/-- A value without an exclamation mark bears no mark of importance. -/
theorem dropImportant_of_no_mark {value : List Char} (h : '!' ∉ value) :
    dropImportant value = value := by
  rw [dropImportant]
  split
  · rfl
  · next rest hrest =>
      have hsuffix := (List.dropWhile_suffix Text.isBlank).trans (suffix_of_restAfterWord? hrest)
      split
      · next rest' hmark =>
          rw [Text.trimStart] at hmark
          rw [hmark] at hsuffix
          have hmem := hsuffix.subset (List.mem_cons_self ..)
          exact absurd (List.mem_reverse.1 hmem) h
      · rfl

theorem not_mem_of_allBlank {c : Char} (hc : Text.isBlank c = false) {blanks : List Char}
    (h : Text.allBlank blanks = true) : c ∉ blanks := by
  intro hmem
  exact Bool.false_ne_true (hc.symm.trans (List.all_eq_true.1 h c hmem))

/-- A declaration is read as its property and its value. -/
theorem declaration?_of_isPlain {property value before after : List Char}
    (hproperty : IsProperty property) (hcloses : ClosesParens property) (hvalue : IsValue value)
    (hbefore : Text.allBlank before = true) (hafter : Text.allBlank after = true) :
    declaration? (property ++ (before ++ ':' :: (after ++ value))) =
      some (String.ofList property, String.ofList value) := by
  have hclean := clean_of_isSteady (isSteady_declaration (hproperty.toIsPlain.isSteady hcloses)
    (hvalue.toIsPlain.isSteady hvalue.closes) hbefore hafter)
  have hcolon : ':' ∉ property ++ before := by
    rw [List.mem_append, not_or]
    exact ⟨hproperty.no_colon, not_mem_of_allBlank (by decide) hbefore⟩
  have hcut := cut_append hcolon (after ++ value)
  rw [List.append_assoc] at hcut
  have hfront : Text.trim (property ++ before) = property :=
    hproperty.trimmed.trim_between (w := []) rfl hbefore
  have hback : Text.trim (after ++ value) = value := by
    rw [Text.trim_blank_append hafter, hvalue.trimmed.trim_eq]
  have hmark : dropImportant value = value :=
    dropImportant_of_no_mark fun h => hvalue.free '!' h (by decide)
  have hname : (if isCustom property then property else Text.lower property) = property := by
    rcases hproperty.lower_or_custom with hlower | hcustom
    · rw [hlower, ite_self]
    · rw [if_pos hcustom]
  simp [declaration?, hclean, hcut, hfront, hback, hmark, hname, hproperty.trimmed.ne_nil,
    hvalue.trimmed.ne_nil]

/-- The first character of a plain text is not reserved. -/
theorem IsPlain.head?_ne {text : List Char} (h : IsPlain text) {c : Char} (hc : c ∈ reserved)
    (rest : List Char) : (text ++ rest).head? ≠ some c := by
  cases text with
  | nil => exact absurd rfl h.trimmed.ne_nil
  | cons d ds =>
      rw [List.cons_append, List.head?_cons, Ne, Option.some.injEq]
      rintro rfl
      exact h.free d (List.mem_cons_self ..) hc

/-! ## Imports -/

theorem takeWhile_append_of_head? {p : Char → Bool} {front rest : List Char}
    (hfront : ∀ c ∈ front, p c = true) (hrest : ∀ c ∈ rest.head?, p c = false) :
    (front ++ rest).takeWhile p = front := by
  rw [List.takeWhile_append_of_pos hfront]
  cases rest with
  | nil => simp
  | cons c cs => simp [hrest c rfl]

theorem quotedTarget?_of_isPath {path : List Char} (h : IsPath path) :
    quotedTarget? ('"' :: (path ++ ['"'])) = some (path, []) := by
  have hinside : (path ++ ['"']).takeWhile (fun c => c != '"' && c != '\'') = path := by
    refine takeWhile_append_of_head? (fun c hc => ?_) (by simp)
    have hfree := h.free c hc
    simp only [List.mem_cons, List.not_mem_nil, or_false, not_or] at hfree
    simp [hfree.1, hfree.2.1]
  simp [quotedTarget?, hinside]

/-- An import is read as its path. -/
theorem importTarget?_of_isPath {path between : List Char} (h : IsPath path)
    (hbetween : Text.allBlank between = true) (hne : between ≠ []) :
    importTarget? (importWord ++ (between ++ '"' :: (path ++ ['"']))) =
      some (String.ofList path) := by
  have hrest : Text.restAfterWord? "@import".toList
      (importWord ++ (between ++ '"' :: (path ++ ['"']))) =
        some (between ++ '"' :: (path ++ ['"'])) := rfl
  have htarget : Text.trimStart (between ++ '"' :: (path ++ ['"'])) = '"' :: (path ++ ['"']) := by
    rw [Text.trimStart_blank_append hbetween]
    rfl
  have hlength : ('"' :: (path ++ ['"'])).length ≠ (between ++ '"' :: (path ++ ['"'])).length := by
    have := List.length_pos_iff.2 hne
    rw [List.length_append]
    omega
  have hurl : Text.restAfterWord? "url(".toList ('"' :: (path ++ ['"'])) = none := rfl
  have hpath : String.ofList path ≠ "" := by
    rw [Ne, ← String.toList_inj, String.toList_ofList]
    exact h.trimmed.ne_nil
  rw [importTarget?, hrest]
  simp only [Option.bind_eq_bind, Option.bind_some, htarget, if_neg hlength, hurl,
    quotedTarget?_of_isPath h, Option.map_some, h.trimmed.trim_eq]
  rw [if_neg (by simp [hpath, h.isLocal])]

theorem statementSheet_of_isPath {path between : List Char} (h : IsPath path)
    (hbetween : Text.allBlank between = true) (hne : between ≠ []) :
    statementSheet (importWord ++ (between ++ '"' :: (path ++ ['"']))) =
      { imports := [String.ofList path] } := by
  have htarget := importTarget?_of_isPath h hbetween hne
  have hword : Text.lower ((importWord ++ (between ++ '"' :: (path ++ ['"']))).take 7) =
      "@import".toList := by
    rw [List.take_left' (by rfl)]
    decide +kernel
  have hhead : (importWord ++ (between ++ '"' :: (path ++ ['"']))).head? = some '@' := rfl
  rw [statementSheet, if_pos hhead, if_pos hword, htarget]
  rfl

/-! ## Lists of selectors -/

theorem topPieces_ne_nil (depth : Nat) (text : List Char) : topPieces depth text ≠ [] := by
  cases text with
  | nil => exact List.cons_ne_nil _ _
  | cons c cs =>
      simp only [topPieces]
      split_ifs
      · cases topPieces (depth + 1) cs <;> exact List.cons_ne_nil _ _
      · cases topPieces (depth - 1) cs <;> exact List.cons_ne_nil _ _
      · exact List.cons_ne_nil _ _
      · cases topPieces depth cs <;> exact List.cons_ne_nil _ _

/-- A text without commas and brackets belongs to the first piece. -/
theorem topPieces_append {front : List Char}
    (h : ∀ c ∈ front, c ∉ [',', '(', ')', '[', ']']) (text : List Char) :
    topPieces 0 (front ++ text) = (topPieces 0 text).modifyHead (front ++ ·) := by
  obtain ⟨piece, pieces, hpieces⟩ := List.exists_cons_of_ne_nil (topPieces_ne_nil 0 text)
  rw [hpieces, List.modifyHead_cons]
  induction front with
  | nil => exact hpieces
  | cons c cs ih =>
      obtain ⟨hc, hcs⟩ := List.forall_mem_cons.1 h
      simp only [List.mem_cons, List.not_mem_nil, or_false, not_or] at hc
      obtain ⟨hcomma, hopen, hclose, hopen', hclose'⟩ := hc
      rw [List.cons_append, topPieces]
      simp [hcomma, hopen, hclose, hopen', hclose', ih hcs]

theorem simple_of_allBlank {blanks : List Char} (h : Text.allBlank blanks = true) :
    ∀ c ∈ blanks, c ∉ [',', '(', ')', '[', ']'] := by
  have hblank : [',', '(', ')', '[', ']'].any Text.isBlank = false := by decide
  intro c hc hd
  exact List.any_eq_false.1 hblank c hd (List.all_eq_true.1 h c hc)

/-- The pieces of a list, blanks in front of it included, are its selectors between blanks. -/
theorem map_trim_topPieces_of_lists {selectors : List (List Char)} {text : List Char}
    (h : Lists selectors text) (hselectors : ∀ s ∈ selectors, IsSelector s) :
    ∀ blanks, Text.allBlank blanks = true →
      (topPieces 0 (blanks ++ text)).map Text.trim = selectors := by
  induction h with
  | @single selector =>
      intro blanks hblanks
      have hselector := hselectors selector (List.mem_singleton_self _)
      have hsimple := List.forall_mem_append.2 ⟨simple_of_allBlank hblanks, hselector.simple⟩
      have htrim := Text.trim_blank_append hblanks selector
      have hpieces := topPieces_append hsimple []
      rw [List.append_nil] at hpieces
      rw [hpieces]
      simp [topPieces, htrim, hselector.trimmed.trim_eq]
  | @cons selector before after text selectors hbefore hafter _ ih =>
      intro blanks hblanks
      obtain ⟨hselector, hrest⟩ := List.forall_mem_cons.1 hselectors
      have hsimple : ∀ c ∈ blanks ++ (selector ++ before), c ∉ [',', '(', ')', '[', ']'] :=
        List.forall_mem_append.2 ⟨simple_of_allBlank hblanks,
          List.forall_mem_append.2 ⟨hselector.simple, simple_of_allBlank hbefore⟩⟩
      have hpieces := topPieces_append hsimple (',' :: (after ++ text))
      have hcomma : topPieces 0 (',' :: (after ++ text)) = [] :: topPieces 0 (after ++ text) := by
        simp [topPieces]
      rw [List.append_assoc, List.append_assoc, hcomma, List.modifyHead_cons,
        List.append_nil] at hpieces
      rw [hpieces, List.map_cons, ih hrest after hafter,
        hselector.trimmed.trim_between hblanks hbefore]

theorem head?_of_lists {selectors : List (List Char)} {text : List Char}
    (h : Lists selectors text) (hselectors : ∀ s ∈ selectors, IsSelector s) :
    text.head? ≠ some '@' := by
  cases h with
  | single =>
      have hselector := hselectors _ (List.mem_singleton_self _)
      have hhead := hselector.toIsPlain.head?_ne (c := '@') (by decide) []
      rwa [List.append_nil] at hhead
  | cons _ _ _ =>
      have hselector := hselectors _ (List.mem_cons_self ..)
      exact hselector.toIsPlain.head?_ne (by decide) _

/-- A list is read as its selectors. -/
theorem splitSelectors_of_lists {selectors : List (List Char)} {text : List Char}
    (h : Lists selectors text) (hselectors : ∀ s ∈ selectors, IsSelector s) :
    splitSelectors text = selectors.map String.ofList := by
  have hpieces := map_trim_topPieces_of_lists h hselectors [] rfl
  have hnonempty : ∀ s ∈ selectors, (!s.isEmpty) = true := by
    intro s hs
    simpa using (hselectors s hs).trimmed.ne_nil
  rw [splitSelectors, ← List.nil_append text, hpieces, List.filter_eq_self.2 hnonempty]

/-- Selectors without an ampersand mean descendants of each parent. -/
theorem nest_eq_under {selectors : List (List Char)} (h : ∀ s ∈ selectors, IsSelector s)
    (parents : List String) :
    nest parents (selectors.map String.ofList) = Entry.under parents selectors := by
  have hnest : ∀ parent, ∀ s ∈ selectors,
      nestIn parent (String.ofList s) = parent ++ " " ++ String.ofList s := by
    intro parent s hs
    have hfree : '&' ∉ s := fun hmem => (h s hs).free '&' hmem (by decide)
    simp [nestIn, hfree]
  rw [nest, Entry.under]
  split
  · rfl
  · refine congrArg (List.flatMap · parents) (funext fun parent => ?_)
    rw [List.map_map]
    exact List.map_congr_left (hnest parent)

/-! ## Names of at-rules -/

theorem startsName_cons {c : Char} (h : c ≠ '-') (cs : List Char) :
    startsName (c :: cs) = Text.isAsciiLetter c := by
  rw [startsName]
  intro d ds hc _
  exact h hc

/-- The name of an at-rule is the run of letters, digits and hyphens at its start, if it starts like
a name. -/
theorem atName_eq (text : List Char) :
    atName ('@' :: text) =
      if startsName text then Text.lowercase (String.ofList (text.takeWhile isAtNameChar))
      else "" := by
  cases text with
  | nil => rfl
  | cons c cs =>
      by_cases hc : c = '-'
      · subst hc
        cases cs with
        | nil => rfl
        | cons d ds =>
            have hname : atName ('@' :: '-' :: d :: ds) =
                if Text.isAsciiLetter d then
                  Text.lowercase (String.ofList ('-' :: d :: ds.takeWhile isAtNameChar))
                else "" := rfl
            rw [hname, startsName]
            refine ite_congr rfl (fun hd => ?_) fun _ => rfl
            simp [isAtNameChar, hd]
      · have hname : atName ('@' :: c :: cs) =
            if Text.isAsciiLetter c then
              Text.lowercase (String.ofList (c :: cs.takeWhile isAtNameChar))
            else "" := by
          rw [atName]
          · rfl
          · intro d ds hc' _
            exact hc hc'
        rw [hname, startsName_cons hc]
        refine ite_congr rfl (fun hletter => ?_) fun _ => rfl
        simp [isAtNameChar, hletter]

theorem takeWhile_name_append {name rest : List Char}
    (hrest : ∀ c ∈ rest.head?, isAtNameChar c = false) :
    (name ++ rest).takeWhile isAtNameChar = name.takeWhile isAtNameChar := by
  have hnil : rest.takeWhile isAtNameChar = [] := by
    cases rest with
    | nil => rfl
    | cons c cs => simp [hrest c rfl]
  rw [List.takeWhile_append, hnil, List.append_nil]
  split
  · next hlength => exact ((List.takeWhile_prefix _).eq_of_length hlength).symm
  · rfl

theorem startsName_append {name : List Char} (h : startsName name = true) (rest : List Char) :
    startsName (name ++ rest) = true := by
  cases name with
  | nil => simp [startsName] at h
  | cons c cs =>
      by_cases hc : c = '-'
      · subst hc
        cases cs with
        | nil => exact absurd h (by decide)
        | cons d ds => exact h
      · rw [startsName_cons hc] at h
        rw [List.cons_append, startsName_cons hc, h]

/-- The head of an at-rule is read as that of a grouping rule iff its name is one. -/
theorem groupingRules_contains_atName {name prelude text : List Char} (h : Heads name prelude text)
    (hname : IsAtName name ∨ IsOtherName name) :
    groupingRules.contains (atName text) =
      groupingRules.contains (Text.lowercase (String.ofList name)) := by
  obtain ⟨rest, rfl, hrest⟩ : ∃ rest, text = '@' :: (name ++ rest) ∧
      ∀ c ∈ rest.head?, isAtNameChar c = false := by
    cases h with
    | bare => exact ⟨[], by rw [List.append_nil], by simp⟩
    | along _ _ hrest => exact ⟨_, rfl, hrest⟩
  rw [atName_eq, takeWhile_name_append hrest]
  rcases hname with hname | hother
  · have hwhole : name.takeWhile isAtNameChar = name := List.takeWhile_eq_self_iff.2 hname.chars
    rw [if_pos (startsName_append hname.starts rest), hwhole]
  · rw [hother.whole]
    split
    · exact hother.start
    · decide

theorem head?_of_heads {name prelude text : List Char} (h : Heads name prelude text) :
    text.head? = some '@' := by
  cases h with
  | bare => rfl
  | along _ _ _ => rfl

end ContrastAudit.Stylesheet
