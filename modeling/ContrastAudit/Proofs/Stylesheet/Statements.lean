import ContrastAudit.Proofs.Stylesheet.Depth
import ContrastAudit.Proofs.Text.Pieces

/-!
# Lists of declarations

A text without strings, comments and braces whose semicolons stand outside of parentheses is scanned
as the pieces between its semicolons.

**Results.**
* `scan_of_isFlat`: the items of such a text are its pieces that are not blank.
* `declaration?_trim`: what a piece declares is found by cutting it as it stands.
-/

namespace ContrastAudit.Stylesheet

/-- A text without strings, comments and braces. -/
structure IsFlat (text : List Char) : Prop where
  free : ∀ c ∈ text, c ∉ ['"', '\'', '\x7b', '\x7d']
  no_comment : ¬ ['/', '*'] <:+: text

instance decidableIsFlat (text : List Char) : Decidable (IsFlat text) :=
  have := List.decidableBAll (fun c => c ∉ ['"', '\'', '\x7b', '\x7d']) text
  decidable_of_iff ((∀ c ∈ text, c ∉ ['"', '\'', '\x7b', '\x7d']) ∧ ¬ ['/', '*'] <:+: text)
    ⟨fun h => ⟨h.1, h.2⟩, fun h => ⟨h.free, h.no_comment⟩⟩

theorem IsFlat.of_infix {text part : List Char} (h : IsFlat text) (hp : part <:+: text) :
    IsFlat part where
  free := fun c hc => h.free c (hp.subset hc)
  no_comment := fun hc => h.no_comment (hc.trans hp)

theorem IsFlat.cons {c : Char} {cs : List Char} (h : IsFlat (c :: cs)) :
    c ∉ ['"', '\'', '\x7b', '\x7d'] ∧ IsFlat cs ∧ (c = '/' → cs.head? ≠ some '*') :=
  ⟨h.free c List.mem_cons_self, h.of_infix (List.infix_cons (List.infix_refl cs)),
    (Scanner.not_infix_cons h.no_comment).2⟩

theorem IsFlat.isVisible {text : List Char} (h : IsFlat text) : IsVisible text where
  no_quote := fun c hc hquote =>
    h.free c hc (List.mem_of_mem_take (i := 2) hquote)
  no_comment := h.no_comment

theorem IsFlat.depthAfter?_eq {text : List Char} (h : IsFlat text) (depth : Nat) :
    depthAfter? '\x7b' '\x7d' depth text = some depth :=
  depthAfter?_of_not_mem (fun hmem => h.free _ hmem (by decide))
    fun hmem => h.free _ hmem (by decide)

namespace Scanner

/-! ## Flat texts -/

theorem isOutside_ofPlain {c : Char} {cs : List Char} (h : IsFlat (c :: cs)) :
    IsOutside (.ofPlain c) cs.head? :=
  isOutside_ofPlain_of_isVisible h.isVisible

theorem step_text_of_isOutside {s : Scanner} {parens : Nat} {context : Context} {c : Char}
    (hs : s.mode = .text parens context) (hk : IsOutside context (some c))
    (hc : c ∉ ['"', '\'', '\x7b', '\x7d']) (hsemicolon : c ≠ ';') :
    s.step c = s.hold c (.text (parensAfter parens c) (.ofPlain c)) := by
  simp only [List.mem_cons, List.not_mem_nil, or_false, not_or] at hc
  have hremark : ¬ (context = .slash ∧ c = '*' ∧ Text.allBlank s.held.tail) := by
    rintro ⟨rfl, rfl, -⟩
    rcases hk with hk | ⟨-, hk⟩
    · cases hk
    · exact hk rfl
  rw [step, hs]
  simp only [stepText, if_neg hremark, reads_of_isOutside hk, next_of_isOutside hk, if_true,
    hsemicolon, hc.2.2.1, hc.2.2.2, and_false, if_false, parensAfter]
  by_cases hopen : c = '('
  · simp [hopen, Context.ofPlain]
  · by_cases hclose : c = ')'
    · simp [hclose, Context.ofPlain]
    · simp [hopen, hclose]

/-- A piece is held back, its parentheses are counted, and nothing is hidden behind it. -/
theorem run_piece {text : List Char} (h : IsFlat text) (hsemicolon : ';' ∉ text) {s : Scanner}
    {parens : Nat} {context : Context} (hs : s.mode = .text parens context)
    (hk : IsOutside context text.head?) :
    ∃ after, (after = .plain ∨ after = .slash) ∧ s.run text =
      { s with mode := .text (openParens parens text) after, held := text.reverse ++ s.held } := by
  induction text generalizing s parens context with
  | nil =>
      refine ⟨context, hk.imp_right And.left, ?_⟩
      rw [openParens, List.foldl_nil, ← hs]
      rfl
  | cons c cs ih =>
      obtain ⟨hc, hcs, -⟩ := h.cons
      rw [List.mem_cons, not_or] at hsemicolon
      have hstep := step_text_of_isOutside hs hk hc (Ne.symm hsemicolon.1)
      obtain ⟨after, hafter, hrun⟩ := ih hcs hsemicolon.2
        (s := s.hold c (.text (parensAfter parens c) (.ofPlain c))) rfl (isOutside_ofPlain h)
      refine ⟨after, hafter, ?_⟩
      calc s.run (c :: cs)
          = (s.step c).run cs := rfl
        _ = _ := by rw [hstep, hrun]
        _ = _ := by simp [hold, openParens]

end Scanner

/-! ## Pieces -/

/-- The item of a piece, none if it is blank. -/
def pieceItem? (piece : List Char) : Option Item :=
  if Text.allBlank piece then none else some (.statement (Text.trim piece))

theorem endStatement_eq {s : Scanner} {piece : List Char} (hheld : s.held = piece.reverse)
    (hitems : s.items = []) :
    s.endStatement = Scanner.withOlder (pieceItem? piece).toList {} := by
  have hblank : Text.allBlank s.held = Text.allBlank piece := by
    rw [hheld, Text.allBlank_reverse]
  rw [Scanner.endStatement, pieceItem?, hblank]
  split
  · simp [Scanner.withOlder, hitems]
  · simp [Scanner.withOlder, Scanner.emit, Scanner.heldText, hheld, hitems]

section Held

variable {piece : List Char} {after : Context}

/-- A text that is held back outside of parentheses is one piece if a semicolon follows it. -/
theorem scan_of_held (hafter : after = .plain ∨ after = .slash)
    (hrun : Scanner.run {} piece = { mode := .text 0 after, held := piece.reverse, items := [] })
    (rest : List Char) :
    scan (piece ++ ';' :: rest) = (pieceItem? piece).toList ++ scan rest := by
  have hend : (Scanner.run {} piece).step ';' =
      Scanner.withOlder (pieceItem? piece).toList {} := by
    rw [← @endStatement_eq (Scanner.run {} piece) piece (by rw [hrun]) (by rw [hrun]), hrun]
    rcases hafter with rfl | rfl <;> rfl
  have hitem : (pieceItem? piece).toList.reverse = (pieceItem? piece).toList := by
    cases pieceItem? piece <;> rfl
  calc scan (piece ++ ';' :: rest)
      = (((Scanner.run {} piece).step ';').run rest).finish.reverse := by
        rw [scan, Scanner.run_append]
        rfl
    _ = _ := by
        rw [hend, Scanner.run_withOlder, Scanner.finish_withOlder, List.reverse_append, hitem,
          scan]

/-- At the end of a text, what is held back is one piece. -/
theorem scan_last_of_held {parens : Nat}
    (hrun : Scanner.run {} piece =
      { mode := .text parens after, held := piece.reverse, items := [] }) :
    scan piece = (pieceItem? piece).toList := by
  have hend : (Scanner.run {} piece).finish =
      (Scanner.withOlder (pieceItem? piece).toList {}).items := by
    rw [← @endStatement_eq (Scanner.run {} piece) piece (by rw [hrun]) (by rw [hrun]), hrun]
    rfl
  rw [scan, hend, Scanner.withOlder]
  cases pieceItem? piece <;> rfl

end Held

section Piece

variable {piece : List Char} (h : IsFlat piece) (hsemicolon : ';' ∉ piece)
  (hcloses : ClosesParens piece)
include h hsemicolon hcloses

/-- Behind a piece the scanner is outside of parentheses, strings and comments. -/
theorem run_empty_piece :
    ∃ after, (after = .plain ∨ after = .slash) ∧
      Scanner.run {} piece = { mode := .text 0 after, held := piece.reverse, items := [] } := by
  obtain ⟨after, hafter, hrun⟩ :=
    @Scanner.run_piece piece h hsemicolon {} 0 .plain rfl (.inl rfl)
  rw [hcloses, List.append_nil] at hrun
  exact ⟨after, hafter, hrun⟩

theorem scan_piece (rest : List Char) :
    scan (piece ++ ';' :: rest) = (pieceItem? piece).toList ++ scan rest := by
  obtain ⟨after, hafter, hrun⟩ := run_empty_piece h hsemicolon hcloses
  exact scan_of_held hafter hrun rest

theorem scan_last : scan piece = (pieceItem? piece).toList := by
  obtain ⟨after, -, hrun⟩ := run_empty_piece h hsemicolon hcloses
  exact scan_last_of_held hrun

end Piece

/-- The items of a flat text are its pieces. -/
theorem scan_of_isFlat {text : List Char} (h : IsFlat text)
    (hcloses : ∀ piece ∈ Text.pieces ';' text, ClosesParens piece) :
    scan text = (Text.pieces ';' text).filterMap pieceItem? := by
  have joined : ∀ ps : List (List Char), ps ≠ [] →
      (∀ piece ∈ ps, IsFlat piece ∧ ';' ∉ piece ∧ ClosesParens piece) →
      scan (Text.join ';' ps) = ps.filterMap pieceItem? := by
    intro ps
    induction ps with
    | nil => exact fun hne _ => absurd rfl hne
    | cons p ps ih =>
        intro _ hps
        obtain ⟨⟨hflat, hsemicolon, hparens⟩, hrest⟩ := List.forall_mem_cons.1 hps
        cases ps with
        | nil =>
            rw [Text.join, scan_last hflat hsemicolon hparens]
            cases hp : pieceItem? p <;> simp [hp]
        | cons q qs =>
            have split : Text.join ';' (p :: q :: qs) = p ++ ';' :: Text.join ';' (q :: qs) := rfl
            rw [split, scan_piece hflat hsemicolon hparens, ih (List.cons_ne_nil _ _) hrest]
            cases hp : pieceItem? p <;> simp [hp]
  have hpieces := joined (Text.pieces ';' text) (Text.pieces_ne_nil ';' text) fun piece hp =>
    ⟨h.of_infix (Text.infix_of_mem_pieces hp), Text.not_mem_of_mem_pieces hp, hcloses piece hp⟩
  rwa [Text.join_pieces] at hpieces

/-! ## What pieces declare -/

theorem dropComments_of_no_comment {text : List Char} (h : ¬ ['/', '*'] <:+: text) :
    dropComments text = text := by
  induction text with
  | nil => rw [dropComments]
  | cons c cs ih =>
      obtain ⟨hcs, hslash⟩ := Scanner.not_infix_cons h
      rw [dropComments, ih hcs]
      intro ds hc hds
      exact hslash hc (by rw [hds, List.head?_cons])

theorem clean_trim {piece : List Char} (h : ¬ ['/', '*'] <:+: piece) :
    clean (Text.trim piece) = Text.trim piece := by
  have hno : ¬ ['/', '*'] <:+: Text.trim piece := fun hc => h (hc.trans (Text.trim_infix piece))
  rw [clean, dropComments_of_no_comment hno, Text.trim_trim]

/-- Cutting a piece does not depend on the blanks around it. -/
theorem cut_trim (piece : List Char) :
    Text.cut ':' (Text.trim piece) =
      (Text.cut ':' piece).map fun d => (Text.trimStart d.1, Text.trimEnd d.2) := by
  cases hc : Text.cut ':' piece with
  | none =>
      rw [Option.map_none, Text.cut_eq_none_iff]
      exact fun hm => Text.cut_eq_none_iff.1 hc ((Text.trim_infix piece).subset hm)
  | some d =>
      obtain ⟨property, value⟩ := d
      obtain ⟨rfl, hcolon⟩ := Text.append_of_cut hc
      rw [Text.trim_append_cons (by decide)]
      exact cut_append (fun hm => hcolon ((List.dropWhile_suffix _).subset hm)) _

/-- What a piece declares. -/
theorem declaration?_trim {piece : List Char} (h : ¬ ['/', '*'] <:+: piece) :
    declaration? (Text.trim piece) =
      (Text.cut ':' piece).bind fun d =>
        let property := Text.trim d.1
        let value := dropImportant (Text.trim d.2)
        if property.isEmpty || value.isEmpty then none
        else
          some (String.ofList (if isCustom property then property else Text.lower property),
            String.ofList value) := by
  rw [declaration?, clean_trim h, cut_trim]
  cases Text.cut ':' piece with
  | none => rfl
  | some d => simp [Text.trim_trimStart, Text.trim_trimEnd]

/-- The declaration of a piece, if it is one that is kept; a mark of importance is left in it. -/
def keptDeclaration? (piece : List Char) : Option (String × String) :=
  (Text.cut ':' piece).bind fun d =>
    let property := Text.lowercase (Text.strip (String.ofList d.1))
    let value := String.ofList (Text.trim d.2)
    if !(Text.trim d.2).isEmpty && isKept property value then some (property, value) else none

/-- No value of a piece is marked as important. -/
def IsUnmarked (piece : List Char) : Prop :=
  ∀ d ∈ Text.cut ':' piece, dropImportant (Text.trim d.2) = Text.trim d.2

instance decidableIsUnmarked (piece : List Char) : Decidable (IsUnmarked piece) :=
  inferInstanceAs
    (Decidable (∀ d ∈ Text.cut ':' piece, dropImportant (Text.trim d.2) = Text.trim d.2))

/-- A property that starts with an at sign or a hyphen is not kept. -/
theorem isKept_of_head {c : Char} (hc : c = '@' ∨ c = '-') (cs : List Char) (value : String) :
    isKept (String.ofList (Text.lower (c :: cs))) value = false := by
  obtain ⟨rest, hrest⟩ : ∃ rest, Text.lower (c :: cs) = c :: rest := by
    rcases hc with rfl | rfl
    · exact ⟨Text.lowerFrom ['@'] cs, rfl⟩
    · exact ⟨Text.lowerFrom ['-'] cs, rfl⟩
  have untracked : Declaration.tracked.contains (String.ofList (c :: rest)) = false := by
    rw [List.contains_eq_mem, decide_eq_false_iff_not]
    intro hm
    have heads : ∀ name ∈ Declaration.tracked, name.toList.head? ≠ some '@' ∧
        name.toList.head? ≠ some '-' := by decide
    obtain ⟨hat, hhyphen⟩ := heads _ hm
    rw [String.toList_ofList, List.head?_cons] at hat hhyphen
    rcases hc with rfl | rfl
    · exact hat rfl
    · exact hhyphen rfl
  rw [isKept, hrest, untracked, Bool.false_and]

theorem isKept_of_isCustom {property : List Char} (h : isCustom property = true) (value : String) :
    isKept (String.ofList (Text.lower property)) value = false := by
  cases property with
  | nil => cases h
  | cons c cs =>
      have hc : c = '-' := by
        have hprefix : ('-' == c && ['-'].isPrefixOf cs) = true := h
        exact (beq_iff_eq.1 (Bool.and_eq_true_iff.1 hprefix).1).symm
      exact isKept_of_head (.inr hc) cs value

/-- A piece only starts with an at sign if its property does. -/
theorem head?_of_head?_trim {piece property value : List Char}
    (hc : Text.cut ':' piece = some (property, value))
    (h : (Text.trim piece).head? = some '@') : (Text.trim property).head? = some '@' := by
  obtain ⟨rfl, -⟩ := Text.append_of_cut hc
  rw [Text.trim_append_cons (by decide), List.head?_append] at h
  rw [Text.head?_trim]
  cases hs : (Text.trimStart property).head? with
  | none =>
      rw [hs] at h
      cases h
  | some c =>
      rw [hs] at h
      exact h

theorem isCustom_of_isKept {property value : String} (h : isKept property value = true) :
    isCustom property.toList = false := by
  have tracked : property ∈ Declaration.tracked := by
    simpa using (Bool.and_eq_true_iff.1 h).1
  have plain : ∀ name ∈ Declaration.tracked, isCustom name.toList = false := by decide
  exact plain property tracked

/-- Of what unmarked pieces declare, style sheets keep the same as style attributes. -/
theorem filter_declared?_trim {piece : List Char} (h : IsFlat piece) (hu : IsUnmarked piece) :
    (declared? (.statement (Text.trim piece))).filter
        (fun d => !isCustom d.1.toList && isKept d.1 d.2) =
      keptDeclaration? piece := by
  rw [declared?, declaration?_trim h.no_comment, keptDeclaration?]
  cases hc : Text.cut ':' piece with
  | none => simp
  | some d =>
      obtain ⟨property, value⟩ := d
      have hvalue : dropImportant (Text.trim value) = Text.trim value := hu _ hc
      have hname : Text.lowercase (Text.strip (String.ofList property)) =
          String.ofList (Text.lower (Text.trim property)) := by
        simp [Text.lowercase, Text.strip]
      simp only [Option.bind_some, hvalue, hname]
      by_cases hcustom : isCustom (Text.trim property) = true
      · rw [isKept_of_isCustom hcustom, Bool.and_false, if_neg Bool.false_ne_true]
        split_ifs <;> simp [Option.filter, hcustom]
      by_cases hhead : (Text.trim piece).head? = some '@'
      · obtain ⟨cs, hcs⟩ := List.head?_eq_some_iff.1 (head?_of_head?_trim hc hhead)
        rw [hcs, isKept_of_head (.inl rfl), Bool.and_false, if_neg Bool.false_ne_true, if_pos hhead]
        rfl
      rw [if_neg hhead, if_neg hcustom]
      cases hkept : isKept (String.ofList (Text.lower (Text.trim property)))
          (String.ofList (Text.trim value)) with
      | false =>
          rw [Bool.and_false, if_neg Bool.false_ne_true]
          split_ifs <;> simp [Option.filter, hkept]
      | true =>
          have plain := isCustom_of_isKept hkept
          rw [String.toList_ofList] at plain
          have named : (Text.trim property).isEmpty = false := by
            cases hp : Text.trim property with
            | nil =>
                rw [hp] at hkept
                exact absurd hkept (by simp [isKept, Declaration.tracked])
            | cons => rfl
          rw [named, Bool.false_or, Bool.and_true]
          cases (Text.trim value).isEmpty with
          | true => rfl
          | false => simp [Option.filter, plain, hkept]

/-! ## Rules for every element -/

/-- A flat text between braces is one block. -/
theorem scan_universal {text : List Char} (h : IsFlat text) :
    scan ('*' :: '\x7b' :: (text ++ ['\x7d'])) = [.block ['*'] text] := by
  obtain ⟨after, hafter, hrun⟩ := Scanner.run_body h.isVisible (h.depthAfter?_eq 0)
    (s := { mode := .body ['*'] 0 .plain }) rfl (.inl rfl)
  have hopen : Scanner.run {} ['*', '\x7b'] = { mode := .body ['*'] 0 .plain } := by decide
  have hclose : (Scanner.run { mode := .body ['*'] 0 .plain } text).step '\x7d' =
      { items := [.block ['*'] text] } := by
    rw [hrun]
    rcases hafter with rfl | rfl <;>
      simp [Scanner.step, Scanner.stepBody, Context.reads, Scanner.emit]
  calc scan ('*' :: '\x7b' :: (text ++ ['\x7d']))
      = (((Scanner.run {} ['*', '\x7b']).run text).step '\x7d').finish.reverse := by
        rw [scan, ← Scanner.run_append]
        exact congrArg (·.finish.reverse) (Scanner.run_append {} (['*', '\x7b'] ++ text) ['\x7d'])
    _ = _ := by
        rw [hopen, hclose]
        rfl

theorem flatten_statements_rules (parents : List String) (items : List Item)
    (h : ∀ item ∈ items, ∃ text, item = .statement text) :
    (flatten parents false (items.map (Node.ofItem Node.parse))).rules = [] := by
  induction items with
  | nil => rfl
  | cons item items ih =>
      obtain ⟨⟨text, rfl⟩, hrest⟩ := List.forall_mem_cons.1 h
      have hstatement : (statementSheet text).rules = [] := by
        unfold statementSheet
        split_ifs <;> rfl
      rw [List.map_cons, Node.ofItem, flatten, Node.sheet, Sheet.rules_append, hstatement, ih hrest,
        List.append_nil]
      rintro _ ⟨⟩

/-- The declarations of a list that are kept. -/
def keptDeclarations (text : List Char) : List (String × String) :=
  (Text.pieces ';' text).filterMap keptDeclaration?

theorem filterMap_pieceItem? {α : Type} (f : Node → Option α) (pieces : List (List Char)) :
    ((pieces.filterMap pieceItem?).map (Node.ofItem Node.parse)).filterMap f =
      pieces.filterMap fun piece =>
        if Text.allBlank piece then none else f (.statement (Text.trim piece)) := by
  rw [List.map_filterMap, List.filterMap_filterMap]
  refine List.filterMap_congr fun piece _ => ?_
  unfold pieceItem?
  split_ifs <;> rfl

/-- The statements of a flat text declare, of what is kept, what its pieces do. -/
theorem filter_declared?_parse {text : List Char} (h : IsFlat text)
    (hcloses : ∀ piece ∈ Text.pieces ';' text, ClosesParens piece)
    (hu : ∀ piece ∈ Text.pieces ';' text, IsUnmarked piece) :
    ((Node.parse text).filterMap declared?).filter
        (fun d => !isCustom d.1.toList && isKept d.1 d.2) = keptDeclarations text := by
  rw [Node.parse_eq_map, scan_of_isFlat h hcloses, filterMap_pieceItem?, List.filter_filterMap]
  refine List.filterMap_congr fun piece hp => ?_
  by_cases hblank : Text.allBlank piece = true
  · have uncut : Text.cut ':' piece = none :=
      Text.cut_eq_none_iff.2 (not_mem_of_allBlank (by decide) hblank)
    rw [if_pos hblank, keptDeclaration?, uncut]
    rfl
  · rw [if_neg hblank]
    exact filter_declared?_trim (h.of_infix (Text.infix_of_mem_pieces hp)) (hu piece hp)

/-- What every element is given by a list of declarations. -/
theorem rules_parse_universal {text : List Char} (h : IsFlat text)
    (hcloses : ∀ piece ∈ Text.pieces ';' text, ClosesParens piece)
    (hu : ∀ piece ∈ Text.pieces ';' text, IsUnmarked piece) :
    (parse (String.ofList ('*' :: '\x7b' :: (text ++ ['\x7d'])))).rules =
      if (keptDeclarations text).isEmpty then []
      else
        [⟨"*", (keptDeclarations text).map fun d => { property := d.1, raw := d.2 }, false⟩] := by
  have hclean : clean ['*'] = ['*'] := by decide +kernel
  have hselectors : nest [] (splitSelectors ['*']) = ["*"] := by decide +kernel
  have hinner : (flatten ["*"] false (Node.parse text)).rules = [] := by
    rw [Node.parse_eq_map]
    refine flatten_statements_rules ["*"] (scan text) fun item hi => ?_
    rw [scan_of_isFlat h hcloses, List.mem_filterMap] at hi
    obtain ⟨piece, -, hpiece⟩ := hi
    unfold pieceItem? at hpiece
    split at hpiece
    · cases hpiece
    · exact ⟨_, (Option.some.inj hpiece).symm⟩
  have hparse : Node.parse ('*' :: '\x7b' :: (text ++ ['\x7d'])) =
      [.block ['*'] (Node.parse text)] := by
    rw [Node.parse_eq_map, scan_universal h]
    rfl
  have hsheet : Node.sheet [] false (.block ['*'] (Node.parse text)) =
      rulesOf ["*"] false (Node.parse text) ++ flatten ["*"] false (Node.parse text) := by
    rw [Node.sheet]
    simp only [hclean, hselectors]
    rfl
  rw [parse, String.toList_ofList, hparse, flatten, hsheet, Sheet.rules_append, Sheet.rules_append,
    hinner, flatten, rulesOf, filter_declared?_parse h hcloses hu]
  · simp
  · rintro _ ⟨⟩

end ContrastAudit.Stylesheet
