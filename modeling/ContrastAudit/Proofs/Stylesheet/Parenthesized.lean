import ContrastAudit.Proofs.Stylesheet.Concatenation
import ContrastAudit.Proofs.Stylesheet.Statements
import ContrastAudit.Proofs.Text.Case

/-!
# Text between parentheses

A statement does not end between parentheses, but a block may: the brace that closes a block is
found by counting braces alone, and those between parentheses count as well.  So the text between
the parentheses of a value changes nothing around it exactly if its braces come in pairs.

**Results.**
* `nodes_body`, `nodes_cut`, `nodes_run_on`: the statements of a body that ends where it should, too
  early or not at all.
* `parse_write`: a rule whose braces come in pairs, and the sheet behind it.
* `exists_rules_of_not_closesPairs`: what is left of the rule otherwise.
* `forall_parse_write`: when the text between the parentheses changes nothing.
* `not_forall_parse_write`: one closing brace that changes the rule around it.
-/

namespace ContrastAudit.Stylesheet

/-! ## The parts of a rule -/

/-- A flat text that a semicolon or a brace behind it ends. -/
structure IsPiece (text : List Char) : Prop extends IsFlat text where
  no_semicolon : ';' ∉ text
  closes : ClosesParens text

instance decidableIsPiece (text : List Char) : Decidable (IsPiece text) :=
  decidable_of_iff (IsFlat text ∧ ';' ∉ text ∧ ClosesParens text)
    ⟨fun h => ⟨h.1, h.2.1, h.2.2⟩, fun h => ⟨h.toIsFlat, h.no_semicolon, h.closes⟩⟩

/-- A piece that is no at-rule. -/
structure IsPlainPiece (text : List Char) : Prop extends IsPiece text where
  no_at : (Text.trim text).head? ≠ some '@'

/-- The selectors of a rule. -/
structure IsHead (text : List Char) : Prop extends IsPlainPiece text where
  selects : splitSelectors (Text.trim text) ≠ []

/-- The name of a property that is not kept. -/
structure IsUntracked (text : List Char) : Prop extends IsPlainPiece text where
  no_colon : ':' ∉ text
  untracked : String.ofList (Text.lower (Text.trim text)) ∉ Declaration.tracked

/-- A text declares something that is kept. -/
structure Keeps (text : List Char) (declared : String × String) : Prop where
  declared?_eq : declared? (.statement (Text.trim text)) = some declared
  isKept : isKept declared.1 declared.2 = true

/-- A rule with three declarations, the second of which has a function as its value; what stands
between the parentheses of the function is left out. -/
structure Frame where
  selectors : List Char
  first : List Char
  property : List Char
  function : List Char
  last : List Char

namespace Frame

variable (r : Frame)

/-- The second declaration up to the end of a text between its parentheses. -/
def call (text : List Char) : List Char :=
  r.property ++ ':' :: (r.function ++ '(' :: text)

theorem call_append (text more : List Char) : r.call (text ++ more) = r.call text ++ more := by
  simp [call]

/-- The body of the rule. -/
def body (text : List Char) : List Char :=
  r.first ++ ';' :: (r.call text ++ ')' :: ';' :: r.last)

theorem body_eq (text : List Char) :
    r.body text = (r.first ++ ';' :: r.call text) ++ ')' :: ';' :: r.last := by
  simp [body]

/-- The rule with a text between the parentheses, and what follows the rule. -/
def write (text rest : List Char) : List Char :=
  r.selectors ++ '\x7b' :: (r.body text ++ '\x7d' :: rest)

/-- The names of the selectors. -/
def names : List String :=
  splitSelectors (Text.trim r.selectors)

/-- The parts of a rule are what they should be, and a custom property is none that is kept for the
page. -/
structure IsSound : Prop where
  selectors : IsHead r.selectors
  first : IsPlainPiece r.first
  property : IsUntracked r.property
  function : IsPiece r.function
  last : IsPlainPiece r.last
  custom : isCustom (Text.trim r.property) = true →
    r.names.any rootSelectors.contains = false

end Frame

/-! ## Statements of the body -/

theorem IsFlat.append_cons {front back : List Char} {c : Char} (hfront : IsFlat front)
    (hback : IsFlat back) (hc : c ∉ ['"', '\'', '\x7b', '\x7d', '/', '*']) :
    IsFlat (front ++ c :: back) := by
  simp only [List.mem_cons, List.not_mem_nil, or_false, not_or] at hc
  refine ⟨List.forall_mem_append.2 ⟨hfront.free, List.forall_mem_cons.2 ⟨?_, hback.free⟩⟩, ?_⟩
  · simp [hc]
  · exact (hfront.isVisible.append_cons hback.isVisible (by simp [hc])).no_comment

theorem IsPiece.append_colon {front back : List Char} (hfront : IsPiece front)
    (hback : IsPiece back) : IsPiece (front ++ ':' :: back) where
  toIsFlat := hfront.toIsFlat.append_cons hback.toIsFlat (by decide)
  no_semicolon := by
    simp [hfront.no_semicolon, hback.no_semicolon]
  closes := by
    have hcolon : openParens 0 (':' :: back) = openParens 0 back := rfl
    rw [ClosesParens, openParens_append, hfront.closes, hcolon, hback.closes]

theorem pieceItem?_of_colon {text : List Char} (h : ':' ∈ text) :
    pieceItem? text = some (.statement (Text.trim text)) := by
  have hsolid : ¬ Text.allBlank text = true := fun hblank =>
    not_mem_of_allBlank (by decide) hblank h
  rw [pieceItem?, if_neg hsolid]

/-- The nodes of a piece: a statement, unless the piece is blank. -/
def pieceNodes (piece : List Char) : List Node :=
  if Text.allBlank piece then [] else [.statement (Text.trim piece)]

theorem map_ofItem_pieceItem? (piece : List Char) :
    (pieceItem? piece).toList.map (Node.ofItem Node.parse) = pieceNodes piece := by
  unfold pieceItem? pieceNodes
  split <;> rfl

section Body

variable {r : Frame} (h : r.IsSound) {text : List Char}
include h

theorem Frame.IsSound.isVisible_call (htext : IsVisible text) : IsVisible (r.call text) :=
  h.property.isVisible.append_cons
    (h.function.isVisible.append_cons htext (by decide)) (by decide)

/-- Between the parentheses, the scanner holds back the second declaration. -/
theorem run_call (htext : IsVisible text) {depth : Nat}
    (hdepth : depthAfter? '(' ')' 0 text = some depth) :
    ∃ after, (after = .plain ∨ after = .slash) ∧ Scanner.run {} (r.call text) =
      { mode := .text (depth + 1) after, held := (r.call text).reverse, items := [] } := by
  have hfront := h.property.toIsPiece.append_colon h.function
  obtain ⟨before, hbefore, hrun⟩ :=
    run_empty_piece hfront.toIsFlat hfront.no_semicolon hfront.closes
  have hopen : (Scanner.run {} (r.property ++ ':' :: r.function)).step '(' =
      { mode := .text 1 .plain, held := '(' :: (r.property ++ ':' :: r.function).reverse } := by
    rw [hrun]
    rcases hbefore with rfl | rfl <;> rfl
  obtain ⟨after, hafter, hinside⟩ := Scanner.run_parens htext hdepth
    (s := { mode := .text 1 .plain, held := '(' :: (r.property ++ ':' :: r.function).reverse })
    rfl (.inl rfl)
  refine ⟨after, hafter, ?_⟩
  calc Scanner.run {} (r.call text)
      = ((Scanner.run {} (r.property ++ ':' :: r.function)).step '(').run text := by
        have hcall : r.call text = (r.property ++ ':' :: r.function) ++ '(' :: text := by
          simp [Frame.call]
        rw [hcall, Scanner.run_append]
        rfl
    _ = _ := by
        rw [hopen, hinside]
        simp [Frame.call]

theorem run_closed_call (htext : IsVisible text) (hparens : ClosesPairs '(' ')' text) :
    Scanner.run {} (r.call text ++ [')']) =
      { mode := .text 0 .plain, held := (r.call text ++ [')']).reverse, items := [] } := by
  obtain ⟨after, hafter, hrun⟩ := run_call h htext hparens
  have hclose : (Scanner.run {} (r.call text)).step ')' =
      { mode := .text 0 .plain, held := ')' :: (r.call text).reverse, items := [] } := by
    rw [hrun]
    rcases hafter with rfl | rfl <;> rfl
  rw [Scanner.run_append, List.reverse_append]
  exact hclose

theorem scan_closed_call (htext : IsVisible text) (hparens : ClosesPairs '(' ')' text)
    (rest : List Char) :
    scan (r.first ++ ';' :: (r.call text ++ ')' :: ';' :: rest)) =
      (pieceItem? r.first).toList ++
        .statement (Text.trim (r.call text ++ [')'])) :: scan rest := by
  have hcall := scan_of_held (.inl rfl) (run_closed_call h htext hparens) rest
  rw [pieceItem?_of_colon (by simp [Frame.call]), List.append_assoc] at hcall
  rw [scan_piece h.first.toIsFlat h.first.no_semicolon h.first.closes]
  exact congrArg _ hcall

/-- The statements of the body. -/
theorem nodes_body (htext : IsVisible text) (hparens : ClosesPairs '(' ')' text) :
    Node.parse (r.body text) =
      pieceNodes r.first ++ .statement (Text.trim (r.call text ++ [')'])) :: pieceNodes r.last := by
  rw [Node.parse_eq_map, Frame.body, scan_closed_call h htext hparens,
    scan_last h.last.toIsFlat h.last.no_semicolon h.last.closes, List.map_append, List.map_cons,
    map_ofItem_pieceItem?, map_ofItem_pieceItem?]
  rfl

/-- The statements of a body that ends between the parentheses. -/
theorem nodes_cut (htext : IsVisible text) {depth : Nat}
    (hdepth : depthAfter? '(' ')' 0 text = some depth) :
    Node.parse (r.first ++ ';' :: r.call text) =
      pieceNodes r.first ++ [.statement (Text.trim (r.call text))] := by
  obtain ⟨after, -, hrun⟩ := run_call h htext hdepth
  have hcall : pieceItem? (r.call text) = some (.statement (Text.trim (r.call text))) :=
    pieceItem?_of_colon (by simp [Frame.call])
  rw [Node.parse_eq_map, scan_piece h.first.toIsFlat h.first.no_semicolon h.first.closes,
    scan_last_of_held hrun, hcall, List.map_append, map_ofItem_pieceItem?]
  rfl

/-- The statements of a body that goes on behind its brace, which drops what stands in front. -/
theorem nodes_run_on (htext : IsVisible text) (hparens : ClosesPairs '(' ')' text) :
    Node.parse (r.body text ++ ['\x7d']) =
      pieceNodes r.first ++ [.statement (Text.trim (r.call text ++ [')']))] := by
  obtain ⟨after, hafter, hrun⟩ :=
    run_empty_piece h.last.toIsFlat h.last.no_semicolon h.last.closes
  have hdrop : (Scanner.run {} r.last).step '\x7d' = {} := by
    rw [hrun]
    rcases hafter with rfl | rfl <;> rfl
  have hlast : scan (r.last ++ ['\x7d']) = [] := by
    rw [scan, Scanner.run_append]
    exact congrArg (·.finish.reverse) hdrop
  have hbody : r.body text ++ ['\x7d'] =
      r.first ++ ';' :: (r.call text ++ ')' :: ';' :: (r.last ++ ['\x7d'])) := by
    simp [Frame.body]
  rw [hbody, Node.parse_eq_map, scan_closed_call h htext hparens, hlast, List.map_append,
    map_ofItem_pieceItem?]
  rfl

end Body

/-! ## What the statements declare -/

/-- A property is a custom one in lower case only if it is written as one. -/
theorem isCustom_of_lower {property : List Char} (h : isCustom (Text.lower property) = true) :
    isCustom property = true := by
  obtain ⟨rest, hrest⟩ := List.isPrefixOf_iff_prefix.1 h
  obtain ⟨property, rfl, hlower⟩ := Text.exists_hyphen_of_lowerFrom hrest.symm
  obtain ⟨property, rfl, -⟩ := Text.exists_hyphen_of_lowerFrom hlower
  rfl

/-- An untracked property is never kept, and a custom one only if it is written as one. -/
theorem IsUntracked.of_declared? {property value : List Char} (h : IsUntracked property)
    (hno : ¬ ['/', '*'] <:+: property ++ ':' :: value) {declared : String × String}
    (hd : declared? (.statement (Text.trim (property ++ ':' :: value))) = some declared) :
    isKept declared.1 declared.2 = false ∧
      (isCustom declared.1.toList = true → isCustom (Text.trim property) = true) := by
  rw [declared?, declaration?_trim hno, cut_append h.no_colon] at hd
  split at hd
  · contradiction
  simp only [Option.bind_some] at hd
  split at hd
  · contradiction
  rw [← Option.some.inj hd]
  dsimp only
  rw [String.toList_ofList]
  by_cases hcustom : isCustom (Text.trim property) = true
  · rw [if_pos hcustom]
    refine ⟨Bool.eq_false_iff.2 fun hkept => ?_, fun _ => hcustom⟩
    have hplain := isCustom_of_isKept hkept
    rw [String.toList_ofList, hcustom] at hplain
    contradiction
  · rw [if_neg hcustom]
    have huntracked : Declaration.tracked.contains
        (String.ofList (Text.lower (Text.trim property))) = false := by
      rw [List.contains_eq_mem, decide_eq_false_iff_not]
      exact h.untracked
    exact ⟨by rw [isKept, huntracked, Bool.false_and], isCustom_of_lower⟩

/-- What a node declares of what rules keep. -/
def keptBy? (node : Node) : Option (String × String) :=
  (declared? node).filter fun d => !isCustom d.1.toList && isKept d.1 d.2

/-- The custom property that a node declares. -/
def customBy? (node : Node) : Option (String × String) :=
  (declared? node).filter fun d => isCustom d.1.toList

theorem rulesOf_eq (selectors : List String) (ignored : Bool) (nodes : List Node) :
    rulesOf selectors ignored nodes =
      { rules :=
          if (nodes.filterMap keptBy?).isEmpty then []
          else selectors.map fun s =>
            ⟨s, (nodes.filterMap keptBy?).map fun d => { property := d.1, raw := d.2 }, ignored⟩
        properties :=
          if selectors.any rootSelectors.contains then
            PropertyMap.merge [] (nodes.filterMap customBy?) else [] } := by
  have hkept : (nodes.filterMap declared?).filter
      (fun d => !isCustom d.1.toList && isKept d.1 d.2) = nodes.filterMap keptBy? :=
    List.filter_filterMap ..
  have hcustom : (nodes.filterMap declared?).filter (fun d => isCustom d.1.toList) =
      nodes.filterMap customBy? :=
    List.filter_filterMap ..
  rw [rulesOf]
  simp only [hkept, hcustom]

/-- A node that declares nothing of what is kept can be left out. -/
theorem rulesOf_append_cons {selectors : List String} {node : Node} (hkept : keptBy? node = none)
    (hcustom : selectors.any rootSelectors.contains = true → customBy? node = none)
    (ignored : Bool) (front back : List Node) :
    rulesOf selectors ignored (front ++ node :: back) =
      rulesOf selectors ignored (front ++ back) := by
  have hkept_eq : (front ++ node :: back).filterMap keptBy? =
      (front ++ back).filterMap keptBy? := by
    rw [List.filterMap_append, List.filterMap_cons_none hkept, List.filterMap_append]
  have hcustom_eq : selectors.any rootSelectors.contains = true →
      (front ++ node :: back).filterMap customBy? = (front ++ back).filterMap customBy? := by
    intro hroot
    rw [List.filterMap_append, List.filterMap_cons_none (hcustom hroot), List.filterMap_append]
  rw [rulesOf_eq, rulesOf_eq, hkept_eq]
  by_cases hroot : selectors.any rootSelectors.contains = true
  · rw [hcustom_eq hroot]
  · rw [if_neg hroot, if_neg hroot]

/-- What is kept of a piece that declares something is this declaration. -/
theorem Keeps.filterMap_keptBy? {piece : List Char} {declared : String × String}
    (h : Keeps piece declared) : (pieceNodes piece).filterMap keptBy? = [declared] := by
  have hsolid : ¬ Text.allBlank piece = true := by
    intro hblank
    have hdeclared := h.declared?_eq
    have hnone : declared? (.statement []) = none := by decide +kernel
    rw [Text.trim, Text.trimStart_of_allBlank hblank, Text.trimEnd_nil, hnone] at hdeclared
    contradiction
  have hkept : keptBy? (.statement (Text.trim piece)) = some declared := by
    rw [keptBy?, h.declared?_eq, Option.filter_some]
    simp [isCustom_of_isKept h.isKept, h.isKept]
  rw [pieceNodes, if_neg hsolid, List.filterMap_cons_some hkept, List.filterMap_nil]

section Declared

variable {r : Frame} (h : r.IsSound) {text : List Char}
include h

theorem keptBy?_call (htext : IsVisible text) :
    keptBy? (.statement (Text.trim (r.call text))) = none := by
  rw [keptBy?, Option.filter_eq_none_iff]
  intro declared hd
  have hkept := (h.property.of_declared? (h.isVisible_call htext).no_comment hd).1
  simp [hkept]

theorem customBy?_call (htext : IsVisible text)
    (hroot : r.names.any rootSelectors.contains = true) :
    customBy? (.statement (Text.trim (r.call text))) = none := by
  rw [customBy?, Option.filter_eq_none_iff]
  intro declared hd hcustom
  have hproperty :=
    (h.property.of_declared? (h.isVisible_call htext).no_comment hd).2 hcustom
  rw [h.custom hproperty] at hroot
  contradiction

/-- The second declaration can be left out, wherever the text between its parentheses ends. -/
theorem rulesOf_call (htext : IsVisible text) (front back : List Node) :
    rulesOf r.names false (front ++ .statement (Text.trim (r.call text)) :: back) =
      rulesOf r.names false (front ++ back) :=
  rulesOf_append_cons (keptBy?_call h htext) (customBy?_call h htext) false front back

theorem rulesOf_closed_call (htext : IsVisible text) (front back : List Node) :
    rulesOf r.names false (front ++ .statement (Text.trim (r.call text ++ [')'])) :: back) =
      rulesOf r.names false (front ++ back) := by
  rw [← Frame.call_append]
  exact rulesOf_call h (htext.append_cons isVisible_nil (by decide)) front back

end Declared

/-! ## Blocks -/

section Block

variable {selectors body : List Char} (hselectors : IsPiece selectors)
include hselectors

theorem step_run_open :
    (Scanner.run {} selectors).step '\x7b' =
      { mode := .body (Text.trim selectors) 0 .plain } := by
  obtain ⟨after, hafter, hrun⟩ :=
    run_empty_piece hselectors.toIsFlat hselectors.no_semicolon hselectors.closes
  rw [hrun]
  rcases hafter with rfl | rfl <;>
    simp [Scanner.step, Scanner.stepText, Context.reads, Scanner.heldText]

/-- A block whose braces come in pairs, and what follows it. -/
theorem scan_closed (hbody : IsVisible body) (hbraces : ClosesPairs '\x7b' '\x7d' body)
    (rest : List Char) :
    scan (selectors ++ '\x7b' :: (body ++ '\x7d' :: rest)) =
      .block (Text.trim selectors) body :: scan rest := by
  obtain ⟨after, hafter, hrun⟩ := Scanner.run_body hbody hbraces
    (s := { mode := .body (Text.trim selectors) 0 .plain }) rfl (.inl rfl)
  have hclose : (Scanner.run { mode := .body (Text.trim selectors) 0 .plain } body).step '\x7d' =
      Scanner.withOlder [.block (Text.trim selectors) body] {} := by
    rw [hrun]
    rcases hafter with rfl | rfl <;>
      simp [Scanner.step, Scanner.stepBody, Context.reads, Scanner.emit, Scanner.withOlder]
  calc scan (selectors ++ '\x7b' :: (body ++ '\x7d' :: rest))
      = (((((Scanner.run {} selectors).step '\x7b').run body).step '\x7d').run
          rest).finish.reverse := by
        rw [scan, Scanner.run_append]
        exact congrArg (·.finish.reverse) (Scanner.run_append _ body ('\x7d' :: rest))
    _ = _ := by
        rw [step_run_open hselectors, hclose, Scanner.run_withOlder, Scanner.finish_withOlder,
          List.reverse_append]
        rfl

/-- A block that is not closed lasts until the end of the text. -/
theorem scan_unclosed (hbody : IsVisible body) {depth : Nat}
    (hdepth : depthAfter? '\x7b' '\x7d' 0 body = some depth) :
    scan (selectors ++ '\x7b' :: body) = [.block (Text.trim selectors) body] := by
  obtain ⟨after, -, hrun⟩ := Scanner.run_body hbody hdepth
    (s := { mode := .body (Text.trim selectors) 0 .plain }) rfl (.inl rfl)
  calc scan (selectors ++ '\x7b' :: body)
      = (((Scanner.run {} selectors).step '\x7b').run body).finish.reverse := by
        rw [scan, Scanner.run_append]
        rfl
    _ = _ := by
        rw [step_run_open hselectors, hrun]
        simp [Scanner.finish]

end Block

/-- A node that is a statement but no at-rule. -/
def IsPlainStatement (node : Node) : Prop :=
  ∃ text, node = .statement text ∧ text.head? ≠ some '@'

theorem flatten_statements {nodes : List Node} (parents : List String)
    (h : ∀ node ∈ nodes, IsPlainStatement node) : flatten parents false nodes = {} := by
  induction nodes with
  | nil => rfl
  | cons node nodes ih =>
      obtain ⟨⟨text, rfl, hat⟩, hrest⟩ := List.forall_mem_cons.1 h
      rw [flatten_cons (by simp), ih hrest, Sheet.append_empty, Node.sheet, statementSheet,
        if_neg hat]

/-- A rule at the start of a sheet comes first. -/
theorem parse_of_scan {selectors body source rest : List Char} (hselectors : IsHead selectors)
    (hstatements : ∀ node ∈ Node.parse body, IsPlainStatement node)
    (hscan : scan source = .block (Text.trim selectors) body :: scan rest) :
    parse (String.ofList source) =
      rulesOf (splitSelectors (Text.trim selectors)) false (Node.parse body) ++
        parse (String.ofList rest) := by
  have hclean := clean_trim hselectors.no_comment
  have hsolid : (Text.trim selectors).isEmpty = false := by
    cases hempty : Text.trim selectors with
    | nil =>
        have hselects := hselectors.selects
        rw [hempty] at hselects
        exact absurd rfl hselects
    | cons => rfl
  have hsheet : (Node.block (Text.trim selectors) (Node.parse body)).sheet [] false =
      rulesOf (splitSelectors (Text.trim selectors)) false (Node.parse body) := by
    rw [Node.sheet]
    simp only [hclean, if_neg hselectors.no_at, hsolid, flatten_statements _ hstatements,
      Sheet.append_empty, Bool.false_eq_true, if_false]
    rfl
  rw [parse, parse, String.toList_ofList, String.toList_ofList, Node.parse_eq_map, hscan,
    List.map_cons, Node.ofItem, flatten_cons (by simp), hsheet, ← Node.parse_eq_map]

/-! ## The rule -/

theorem IsPlainPiece.isPlainStatement {piece : List Char} (h : IsPlainPiece piece) :
    ∀ node ∈ pieceNodes piece, IsPlainStatement node := by
  unfold pieceNodes
  split
  · simp
  · exact List.forall_mem_singleton.2 ⟨_, rfl, h.no_at⟩

section Rule

variable {r : Frame} (h : r.IsSound) {text : List Char}
include h

theorem isPlainStatement_call (text : List Char) :
    IsPlainStatement (.statement (Text.trim (r.call text))) :=
  ⟨_, rfl, fun hat =>
    h.property.no_at (head?_of_head?_trim (cut_append h.property.no_colon _) hat)⟩

theorem isPlainStatement_closed_call (text : List Char) :
    IsPlainStatement (.statement (Text.trim (r.call text ++ [')']))) := by
  rw [← Frame.call_append]
  exact isPlainStatement_call h _

theorem depthAfter?_call (depth : Nat) (text : List Char) :
    depthAfter? '\x7b' '\x7d' depth (r.call text) = depthAfter? '\x7b' '\x7d' depth text := by
  rw [Frame.call, depthAfter?_append, h.property.depthAfter?_eq, Option.bind_some,
    depthAfter?_cons_of_ne (by decide) (by decide), depthAfter?_append,
    h.function.depthAfter?_eq, Option.bind_some, depthAfter?_cons_of_ne (by decide) (by decide)]

theorem depthAfter?_cut (text : List Char) :
    depthAfter? '\x7b' '\x7d' 0 (r.first ++ ';' :: r.call text) =
      depthAfter? '\x7b' '\x7d' 0 text := by
  rw [depthAfter?_append, h.first.depthAfter?_eq, Option.bind_some,
    depthAfter?_cons_of_ne (by decide) (by decide), depthAfter?_call h]

/-- Only the braces between the parentheses count in the body. -/
theorem depthAfter?_body (text : List Char) :
    depthAfter? '\x7b' '\x7d' 0 (r.body text) = depthAfter? '\x7b' '\x7d' 0 text := by
  rw [Frame.body_eq, depthAfter?_append, depthAfter?_cut h]
  cases depthAfter? '\x7b' '\x7d' 0 text with
  | none => rfl
  | some depth =>
      rw [Option.bind_some, depthAfter?_cons_of_ne (by decide) (by decide),
        depthAfter?_cons_of_ne (by decide) (by decide), h.last.depthAfter?_eq]

theorem isVisible_cut (htext : IsVisible text) : IsVisible (r.first ++ ';' :: r.call text) :=
  h.first.isVisible.append_cons (h.isVisible_call htext) (by decide)

theorem isVisible_body (htext : IsVisible text) : IsVisible (r.body text) := by
  have hlast : IsVisible (';' :: r.last) :=
    isVisible_nil.append_cons h.last.isVisible (by decide)
  rw [Frame.body_eq]
  exact (isVisible_cut h htext).append_cons hlast (by decide)

/-- If the braces between the parentheses come in pairs, the rule is read as if it had only its
other declarations, and what follows it is read as if it stood alone. -/
theorem parse_write (htext : IsVisible text) (hparens : ClosesPairs '(' ')' text)
    (hbraces : ClosesPairs '\x7b' '\x7d' text) (rest : List Char) :
    parse (String.ofList (r.write text rest)) =
      rulesOf r.names false (pieceNodes r.first ++ pieceNodes r.last) ++
        parse (String.ofList rest) := by
  have hclosed : ClosesPairs '\x7b' '\x7d' (r.body text) := (depthAfter?_body h text).trans hbraces
  have hscan := scan_closed h.selectors.toIsPiece (isVisible_body h htext) hclosed rest
  have hnodes := nodes_body h htext hparens
  rw [Frame.write, parse_of_scan h.selectors ?_ hscan, hnodes]
  · exact congrArg (· ++ _) (rulesOf_closed_call h htext _ _)
  · rw [hnodes]
    exact List.forall_mem_append.2 ⟨h.first.isPlainStatement, List.forall_mem_cons.2
      ⟨isPlainStatement_closed_call h text, h.last.isPlainStatement⟩⟩

/-- A brace that closes too much ends the rule between the parentheses. -/
theorem exists_parse_write_of_none (htext : IsVisible text) (hparens : ClosesPairs '(' ')' text)
    (hbraces : depthAfter? '\x7b' '\x7d' 0 text = none) (rest : List Char) :
    ∃ more, parse (String.ofList (r.write text rest)) =
      rulesOf r.names false (pieceNodes r.first) ++ parse (String.ofList more) := by
  obtain ⟨inside, behind, rfl, hinside⟩ := exists_closing hbraces
  have hvisible : IsVisible inside := htext.of_infix (List.prefix_append _ _).isInfix
  -- The body may end inside of further parentheses, but closes none that it has not opened.
  rw [ClosesPairs, depthAfter?_append] at hparens
  obtain ⟨depth, hdepth, -⟩ := Option.bind_eq_some_iff.1 hparens
  have hclosed : ClosesPairs '\x7b' '\x7d' (r.first ++ ';' :: r.call inside) :=
    (depthAfter?_cut h inside).trans hinside
  have hscan := scan_closed h.selectors.toIsPiece (isVisible_cut h hvisible) hclosed
    (behind ++ ')' :: ';' :: (r.last ++ '\x7d' :: rest))
  have hwrite : r.write (inside ++ '\x7d' :: behind) rest =
      r.selectors ++ '\x7b' :: ((r.first ++ ';' :: r.call inside) ++
        '\x7d' :: (behind ++ ')' :: ';' :: (r.last ++ '\x7d' :: rest))) := by
    simp [Frame.write, Frame.body, Frame.call]
  have hnodes := nodes_cut h hvisible hdepth
  refine ⟨behind ++ ')' :: ';' :: (r.last ++ '\x7d' :: rest), ?_⟩
  rw [hwrite, parse_of_scan h.selectors ?_ hscan, hnodes]
  · have hrules := rulesOf_call h hvisible (pieceNodes r.first) []
    rw [List.append_nil] at hrules
    exact congrArg (· ++ _) hrules
  · rw [hnodes]
    exact List.forall_mem_append.2 ⟨h.first.isPlainStatement,
      List.forall_mem_singleton.2 (isPlainStatement_call h inside)⟩

/-- A brace that stays open takes the brace behind the rule, which then ends no declaration. -/
theorem parse_write_of_some (htext : IsVisible text) (hparens : ClosesPairs '(' ')' text)
    {depth : Nat} (hbraces : depthAfter? '\x7b' '\x7d' 0 text = some (depth + 1)) :
    parse (String.ofList (r.write text [])) =
      rulesOf r.names false (pieceNodes r.first) ++ parse (String.ofList []) := by
  have hopen : depthAfter? '\x7b' '\x7d' 0 (r.body text ++ ['\x7d']) = some depth := by
    rw [depthAfter?_append, depthAfter?_body h, hbraces]
    rfl
  have hscan : scan (r.selectors ++ '\x7b' :: (r.body text ++ ['\x7d'])) =
      .block (Text.trim r.selectors) (r.body text ++ ['\x7d']) :: scan [] :=
    scan_unclosed h.selectors.toIsPiece
      ((isVisible_body h htext).append_cons isVisible_nil (by decide)) hopen
  have hnodes := nodes_run_on h htext hparens
  rw [Frame.write, parse_of_scan h.selectors ?_ hscan, hnodes]
  · have hrules := rulesOf_closed_call h htext (pieceNodes r.first) []
    rw [List.append_nil] at hrules
    exact congrArg (· ++ _) hrules
  · rw [hnodes]
    exact List.forall_mem_append.2 ⟨h.first.isPlainStatement,
      List.forall_mem_singleton.2 (isPlainStatement_closed_call h text)⟩

/-- Otherwise the rule has lost its last declaration. -/
theorem exists_rules_of_not_closesPairs (htext : IsVisible text)
    (hparens : ClosesPairs '(' ')' text)
    (hbraces : ¬ ClosesPairs '\x7b' '\x7d' text) :
    ∃ more, (parse (String.ofList (r.write text []))).rules =
      (rulesOf r.names false (pieceNodes r.first)).rules ++ more := by
  cases hdepth : depthAfter? '\x7b' '\x7d' 0 text with
  | none =>
      obtain ⟨more, hparse⟩ := exists_parse_write_of_none h htext hparens hdepth []
      exact ⟨_, congrArg Sheet.rules hparse⟩
  | some depth =>
      cases depth with
      | zero => exact absurd hdepth hbraces
      | succ depth =>
          exact ⟨_, congrArg Sheet.rules (parse_write_of_some h htext hparens hdepth)⟩

/-- If both of the other declarations are kept, the loss of the last one shows. -/
theorem closesPairs_of_parse_write {first last : String × String} (hfirst : Keeps r.first first)
    (hlast : Keeps r.last last) (htext : IsVisible text) (hparens : ClosesPairs '(' ')' text)
    (hsame : parse (String.ofList (r.write text [])) = parse (String.ofList (r.write [] []))) :
    ClosesPairs '\x7b' '\x7d' text := by
  by_contra hbraces
  obtain ⟨more, hmore⟩ := exists_rules_of_not_closesPairs h htext hparens hbraces
  rw [hsame, parse_write h isVisible_nil rfl rfl, Sheet.rules_append, rulesOf_eq, rulesOf_eq,
    List.filterMap_append, hfirst.filterMap_keptBy?, hlast.filterMap_keptBy?] at hmore
  obtain ⟨name, names, hnames⟩ := List.exists_cons_of_ne_nil h.selectors.selects
  simp [Frame.names, hnames] at hmore

/-- The text between the parentheses changes nothing, whatever follows the rule, if its braces come
in pairs, and only then if both of the other declarations are kept. -/
theorem forall_parse_write (htext : IsVisible text) (hparens : ClosesPairs '(' ')' text) :
    (ClosesPairs '\x7b' '\x7d' text → ∀ rest,
      parse (String.ofList (r.write text rest)) = parse (String.ofList (r.write [] rest))) ∧
    ∀ first last, Keeps r.first first → Keeps r.last last →
      parse (String.ofList (r.write text [])) = parse (String.ofList (r.write [] [])) →
        ClosesPairs '\x7b' '\x7d' text := by
  refine ⟨fun hbraces rest => ?_, fun first last hfirst hlast hsame =>
    closesPairs_of_parse_write h hfirst hlast htext hparens hsame⟩
  rw [parse_write h htext hparens hbraces, parse_write h isVisible_nil rfl rfl]

end Rule

/-! ## A mask between two declarations -/

/-- The rule for paragraphs with a color, a mask and a font size. -/
def masked : Frame where
  selectors := "p ".toList
  first := " color: red".toList
  property := " mask".toList
  function := " f".toList
  last := " font-size: 12px ".toList

theorem isSound_masked : masked.IsSound where
  selectors := ⟨⟨by decide, by decide⟩, by decide +kernel⟩
  first := ⟨by decide, by decide⟩
  property := ⟨⟨by decide, by decide⟩, by decide, by decide +kernel⟩
  function := by decide
  last := ⟨by decide, by decide⟩
  custom := fun h => absurd h (by decide)

theorem keeps_first_masked : Keeps masked.first ("color", "red") :=
  ⟨by decide +kernel, by decide +kernel⟩

theorem keeps_last_masked : Keeps masked.last ("font-size", "12px") :=
  ⟨by decide +kernel, by decide +kernel⟩

theorem forall_parse_write_masked :
    masked.IsSound ∧ Keeps masked.first ("color", "red") ∧
      Keeps masked.last ("font-size", "12px") ∧
      (∀ text ∈ ["a;b,\x7bc(\x7d)".toList, ['\x7d']], IsVisible text ∧ ClosesPairs '(' ')' text) ∧
      (∀ rest, parse (String.ofList (masked.write "a;b,\x7bc(\x7d)".toList rest)) =
        parse (String.ofList (masked.write [] rest))) ∧
      parse (String.ofList (masked.write ['\x7d'] [])) ≠
        parse (String.ofList (masked.write [] [])) := by
  have hpairs : IsVisible "a;b,\x7bc(\x7d)".toList ∧ ClosesPairs '(' ')' "a;b,\x7bc(\x7d)".toList :=
    ⟨by decide, rfl⟩
  have hbrace : IsVisible ['\x7d'] ∧ ClosesPairs '(' ')' ['\x7d'] := ⟨by decide, rfl⟩
  have hsame := (forall_parse_write isSound_masked hpairs.1 hpairs.2).1 rfl
  have honly := (forall_parse_write isSound_masked hbrace.1 hbrace.2).2 _ _ keeps_first_masked
    keeps_last_masked
  refine ⟨isSound_masked, keeps_first_masked, keeps_last_masked,
    List.forall_mem_cons.2 ⟨hpairs, List.forall_mem_singleton.2 hbrace⟩, hsame, fun h => ?_⟩
  exact absurd (honly h) (by rw [ClosesPairs]; decide)

/-- A single closing brace takes the font size from the rule. -/
theorem not_forall_parse_write :
    ¬ ∀ (r : Frame) (first last : String × String) (text rest : List Char),
      r.IsSound → Keeps r.first first → Keeps r.last last → IsVisible text → '\\' ∉ text →
        ClosesPairs '(' ')' text →
          parse (String.ofList (r.write text rest)) = parse (String.ofList (r.write [] rest)) := by
  intro h
  have hsame := h masked _ _ ['\x7d'] [] isSound_masked keeps_first_masked keeps_last_masked
    (by decide) (by decide) rfl
  have hcut : (parse (String.ofList (masked.write ['\x7d'] []))).rules =
      [⟨"p", [⟨"color", "red", none⟩], false⟩] := by decide +kernel
  have hwhole : (parse (String.ofList (masked.write [] []))).rules =
      [⟨"p", [⟨"color", "red", none⟩, ⟨"font-size", "12px", none⟩], false⟩] := by decide +kernel
  rw [hsame, hwhole] at hcut
  exact absurd hcut (by decide)

end ContrastAudit.Stylesheet
