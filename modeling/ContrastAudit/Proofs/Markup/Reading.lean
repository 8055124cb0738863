import ContrastAudit.Proofs.Document.Outline
import ContrastAudit.Proofs.Markup.Builder
import ContrastAudit.Proofs.Markup.Forest

/-!
# Reading a forest

A builder that reads the events of some nodes adds their elements at the end of its document and
their texts to its styles, and is left with the same open elements as before.  What stands around
the nodes counts in three ways only: whether they stand directly in a style element, what the
nearest element is, and which comments came before.  The nodes in turn may mark the nearest element
as having text.

**Results.**
* `run_forest`: reading a forest gives its elements and its styles.
-/

namespace ContrastAudit.Markup

/-- Elements with the one at a place marked as having text, if there is such a place and something
counts as text. -/
def marked (counts : Bool) (place : Option Nat) (elements : List Element) : List Element :=
  if counts then place.elim elements fun i => elements.modify i fun e => { e with hasText := true }
  else elements

/-- Changing an element leaves what is appended behind it alone. -/
theorem modify_append_of_lt {α : Type} {f : α → α} {front back : List α} {i : Nat}
    (h : i < front.length) : (front ++ back).modify i f = front.modify i f ++ back := by
  induction front generalizing i with
  | nil => exact absurd h (Nat.not_lt_zero i)
  | cons a front ih =>
      cases i with
      | zero => rfl
      | succ i => simp [ih (Nat.lt_of_succ_lt_succ h)]

theorem modify_concat_length {α : Type} {f : α → α} (front : List α) (a : α) :
    (front ++ [a]).modify front.length f = front ++ [f a] := by
  induction front with
  | nil => rfl
  | cons b front ih => simp [ih]

section Marked

variable {counts counts' : Bool} {place : Option Nat} {elements elements' : List Element}

theorem marked_false (place : Option Nat) (elements : List Element) :
    marked false place elements = elements :=
  rfl

theorem marked_none (counts : Bool) (elements : List Element) :
    marked counts none elements = elements := by
  cases counts <;> rfl

theorem length_marked : (marked counts place elements).length = elements.length := by
  cases counts with
  | false => rfl
  | true =>
      cases place with
      | none => rfl
      | some i => exact List.length_modify _ elements i

theorem marked_append (h : ∀ i ∈ place, i < elements.length) :
    marked counts place (elements ++ elements') = marked counts place elements ++ elements' := by
  cases counts with
  | false => rfl
  | true =>
      cases place with
      | none => rfl
      | some i => exact modify_append_of_lt (h i rfl)

/-- The mark of the last element. -/
theorem marked_concat (e : Element) :
    marked counts (some elements.length) (elements ++ [e]) =
      elements ++ [{ e with hasText := e.hasText || counts }] := by
  cases counts with
  | false => simp [marked]
  | true =>
      rw [Bool.or_true]
      exact modify_concat_length elements e

theorem marked_marked :
    marked counts' place (marked counts place elements) =
      marked (counts || counts') place elements := by
  cases counts with
  | false => rfl
  | true =>
      cases counts' with
      | false => rfl
      | true =>
          cases place with
          | none => rfl
          | some i => exact List.modify_modify_eq _ _ i elements

theorem toList_markNearest (b : Builder) :
    b.markNearest.document.toList = marked true b.nearest? b.document.toList := by
  rw [Builder.markNearest_eq]
  cases b.nearest? with
  | none => rfl
  | some i => exact b.document.toList_markText i

end Marked

namespace Node

/-- Whether a node makes the element that it stands directly in an element with text; `shows` tells
that its words count for that element. -/
def counts (shows : Bool) (node : Node) : Bool :=
  shows && node.isWords || node.bringsElement

/-- Whether one of some nodes makes the element that it stands directly in one with text. -/
def someCounts (shows : Bool) (nodes : List Node) : Bool :=
  shows && nodes.any isWords || someBringsElement nodes

theorem counts_comment (shows : Bool) (s : String) : (Node.comment s).counts shows = false := by
  rw [counts, isWords, bringsElement, Bool.and_false, Bool.or_false]

theorem counts_leaf (shows : Bool) (tag : String) (attributes : Attributes) (closed : Bool)
    (position : Position) (hasNoEnd : (closed || voidTags.contains tag) = true) :
    (Node.leaf tag attributes closed position hasNoEnd).counts shows =
      !skippedTags.contains tag := by
  rw [counts, isWords, bringsElement, Bool.and_false, Bool.false_or]

theorem counts_element (shows : Bool) (tag : String) (attributes : Attributes)
    (position : Position) (children : List Node) (hasEnd : voidTags.contains tag = false) :
    (Node.element tag attributes position children hasEnd).counts shows =
      (!skippedTags.contains tag || someBringsElement children) := by
  rw [counts, isWords, bringsElement, Bool.and_false, Bool.false_or]

theorem someCounts_cons (shows : Bool) (node : Node) (nodes : List Node) :
    someCounts shows (node :: nodes) = (node.counts shows || someCounts shows nodes) := by
  rw [someCounts, someCounts, counts, List.any_cons, someBringsElement]
  cases shows <;> cases node.isWords <;> cases node.bringsElement <;> simp

end Node

namespace Builder

/-- Whether words count for the element that directly contains them. -/
def shows (b : Builder) : Bool :=
  !b.inStyle && b.opened.head?.any (·.place.isSome)

/-- A builder that has read the given traces: its stack refers to elements that are there, and it
knows whether the next element is announced. -/
structure HasRead (b : Builder) (traces : List Trace) : Prop where
  nearest : ∀ p ∈ b.nearest?, p < b.document.size
  announced : b.ignoreNext = decide (Trace.Announced traces)

/-- What has changed between two builders, given what the first one has read. -/
structure Gains (b : Builder) (before : List Trace) (b' : Builder) (counts : Bool)
    (elements : List Element) (styles : List String) (traces : List Trace) : Prop where
  opened : b'.opened = b.opened
  elements : b'.document.toList = marked counts b.nearest? b.document.toList ++ elements
  styles : b'.styles = b.styles ++ styles
  announced : b'.ignoreNext = decide (Trace.Announced (before ++ traces))

section Gains

variable {b b₁ b₂ : Builder} {before traces₁ traces₂ : List Trace} {counts₁ counts₂ : Bool}
  {elements₁ elements₂ : List Element} {styles₁ styles₂ : List String}

theorem Gains.nil (h : b.HasRead before) : b.Gains before b false [] [] [] where
  opened := rfl
  elements := by rw [marked_false, List.append_nil]
  styles := by rw [List.append_nil]
  announced := by rw [List.append_nil, h.announced]

variable (h₁ : b.Gains before b₁ counts₁ elements₁ styles₁ traces₁)
include h₁

theorem Gains.nearest?_eq : b₁.nearest? = b.nearest? := by
  rw [nearest?, nearest?, h₁.opened]

theorem Gains.inStyle_eq : b₁.inStyle = b.inStyle := by
  rw [inStyle, inStyle, h₁.opened]

theorem Gains.shows_eq : b₁.shows = b.shows := by
  rw [shows, shows, h₁.inStyle_eq, h₁.opened]

theorem Gains.size_eq : b₁.document.size = b.document.size + elements₁.length := by
  rw [← Document.length_toList, h₁.elements, List.length_append, length_marked,
    Document.length_toList]

theorem Gains.hasRead (h : b.HasRead before) : b₁.HasRead (before ++ traces₁) where
  nearest p hp := by
    rw [h₁.nearest?_eq] at hp
    have hlt := h.nearest p hp
    rw [h₁.size_eq]
    omega
  announced := h₁.announced

/-- What two runs gain one after the other. -/
theorem Gains.append (h : b.HasRead before)
    (h₂ : b₁.Gains (before ++ traces₁) b₂ counts₂ elements₂ styles₂ traces₂) :
    b.Gains before b₂ (counts₁ || counts₂) (elements₁ ++ elements₂) (styles₁ ++ styles₂)
      (traces₁ ++ traces₂) where
  opened := h₂.opened.trans h₁.opened
  elements := by
    have hrange : ∀ i ∈ b.nearest?, i < (marked counts₁ b.nearest? b.document.toList).length := by
      intro i hi
      rw [length_marked, Document.length_toList]
      exact h.nearest i hi
    rw [h₂.elements, h₁.nearest?_eq, h₁.elements, marked_append hrange, marked_marked,
      List.append_assoc]
  styles := by rw [h₂.styles, h₁.styles, List.append_assoc]
  announced := by rw [h₂.announced, List.append_assoc]

end Gains

/-! ## Events -/

section Events

variable {b : Builder} {before : List Trace}

theorem credits_eq (b : Builder) (s : String) :
    b.credits s = (b.shows && (Node.text s).isWords) := by
  rw [credits, shows, Node.isWords]
  cases b.inStyle <;> cases Text.allBlank s.toList <;> simp

theorem gains_text (h : b.HasRead before) (s : String) :
    b.Gains before (b.step (.text s)) ((Node.text s).counts b.shows) []
      ((Node.text s).styleTexts b.inStyle) ((Node.text s).traces b.inStyle) := by
  have hstep : b.step (.text s) = _ := onText_eq b s
  rw [hstep]
  refine ⟨rfl, ?_, rfl, ?_⟩
  · rw [Node.counts, Node.bringsElement, Bool.or_false, List.append_nil, ← credits_eq]
    dsimp only
    cases b.credits s with
    | false => rfl
    | true => exact toList_markNearest b
  · rw [Node.traces, Trace.ofText, h.announced]
    cases b.inStyle || Text.allBlank s.toList with
    | false => simp [Trace.announced_concat_iff]
    | true => simp [Trace.announced_concat_iff]

theorem gains_comment (h : b.HasRead before) (s : String) :
    b.Gains before (b.step (.comment s)) ((Node.comment s).counts b.shows) [] []
      [.ofComment s] := by
  have hnil := Gains.nil h
  rw [step, Trace.ofComment, Node.counts_comment]
  split
  · exact ⟨rfl, hnil.elements, hnil.styles, by simp [Trace.announced_concat_iff]⟩
  · exact ⟨rfl, hnil.elements, hnil.styles, by simp [Trace.announced_concat_iff, h.announced]⟩

/-- A start tag adds its element, which makes its parent one with text. -/
theorem toList_step_startTag (h : b.HasRead before) (tag : String) (attributes : Attributes)
    (closed : Bool) (position : Position) :
    (b.step (.startTag tag attributes closed position)).document.toList =
      marked (!skippedTags.contains tag) b.nearest? b.document.toList ++
        if skippedTags.contains tag then []
        else [Node.elementOf tag attributes position false before b.document.size b.nearest?] := by
  have hdocument := congrArg document (onStartTag_eq b tag attributes closed position)
  rw [step, hdocument]
  cases skippedTags.contains tag with
  | true => exact (List.append_nil _).symm
  | false =>
      have hrange := h.nearest
      rw [← size_markNearest] at hrange
      refine (Document.toList_attach hrange (b.contentOf tag attributes position)).trans ?_
      rw [toList_markNearest, size_markNearest, contentOf, h.announced, Bool.or_comm]
      rfl

theorem ignoreNext_step_startTag (tag : String) (attributes : Attributes) (closed : Bool)
    (position : Position) :
    (b.step (.startTag tag attributes closed position)).ignoreNext = false := by
  rw [step, onStartTag_eq]

theorem styles_step_startTag (tag : String) (attributes : Attributes) (closed : Bool)
    (position : Position) :
    (b.step (.startTag tag attributes closed position)).styles = b.styles := by
  rw [step, onStartTag_eq]

theorem gains_leaf (h : b.HasRead before) (tag : String) (attributes : Attributes) (closed : Bool)
    (position : Position) (hasNoEnd : (closed || voidTags.contains tag) = true) :
    b.Gains before (b.step (.startTag tag attributes closed position))
      ((Node.leaf tag attributes closed position hasNoEnd).counts b.shows)
      ((Node.leaf tag attributes closed position hasNoEnd).elements b.nearest? b.document.size
        before) [] [.barrier] where
  opened := by rw [step, onStartTag_eq, hasNoEnd, if_pos rfl]
  elements := by
    rw [Node.counts_leaf]
    exact toList_step_startTag h tag attributes closed position
  styles := by rw [styles_step_startTag, List.append_nil]
  announced := by
    rw [ignoreNext_step_startTag, decide_eq_false (Trace.not_announced_concat_barrier before)]

end Events

/-! ## Elements with content -/

section Element

variable {b : Builder} {before : List Trace} {tag : String}

/-- The builder inside of an element whose start tag it has just read. -/
def enter (b : Builder) (tag : String) (attributes : Attributes) (position : Position) : Builder :=
  b.step (.startTag tag attributes false position)

theorem opened_enter (hasEnd : voidTags.contains tag = false) (attributes : Attributes)
    (position : Position) :
    (b.enter tag attributes position).opened =
      ⟨tag, if skippedTags.contains tag then none else some b.document.size⟩ :: b.opened := by
  rw [enter, step, onStartTag_eq, hasEnd]
  rfl

theorem inStyle_enter (hasEnd : voidTags.contains tag = false) (attributes : Attributes)
    (position : Position) : (b.enter tag attributes position).inStyle = (tag == "style") := by
  rw [inStyle, opened_enter hasEnd]
  rfl

theorem nearest?_enter (hasEnd : voidTags.contains tag = false) (attributes : Attributes)
    (position : Position) :
    (b.enter tag attributes position).nearest? =
      if skippedTags.contains tag then b.nearest? else some b.document.size := by
  rw [nearest?, opened_enter hasEnd]
  cases skippedTags.contains tag <;> rfl

/-- Words count for an element unless it is skipped, and style elements are skipped. -/
theorem shows_enter (hasEnd : voidTags.contains tag = false) (attributes : Attributes)
    (position : Position) :
    (b.enter tag attributes position).shows = !skippedTags.contains tag := by
  rw [shows, inStyle_enter hasEnd, opened_enter hasEnd]
  cases hskipped : skippedTags.contains tag with
  | true => simp
  | false =>
      have hstyle : tag ≠ "style" := by
        rintro rfl
        exact absurd hskipped (by decide)
      simp [hstyle]

theorem size_enter (h : b.HasRead before) (attributes : Attributes) (position : Position) :
    (b.enter tag attributes position).document.size =
      b.document.size + if skippedTags.contains tag then 0 else 1 := by
  rw [← Document.length_toList, enter, toList_step_startTag h, List.length_append, length_marked,
    Document.length_toList]
  cases skippedTags.contains tag <;> rfl

theorem hasRead_enter (h : b.HasRead before) (hasEnd : voidTags.contains tag = false)
    (attributes : Attributes) (position : Position) :
    (b.enter tag attributes position).HasRead (before ++ [.barrier]) where
  nearest p hp := by
    rw [nearest?_enter hasEnd] at hp
    rw [size_enter h]
    cases hskipped : skippedTags.contains tag with
    | true =>
        rw [hskipped, if_pos rfl] at hp
        exact h.nearest p hp
    | false =>
        rw [hskipped, if_neg Bool.false_ne_true] at hp
        cases hp
        exact Nat.lt_succ_self _
  announced := by
    rw [enter, ignoreNext_step_startTag,
      decide_eq_false (Trace.not_announced_concat_barrier before)]

/-- An end tag closes the tag on top if that has its name. -/
theorem close_cons_self (tag : String) (place : Option Nat) (outer : List OpenElement) :
    close tag (⟨tag, place⟩ :: outer) = outer := by
  simp [close]

/-- What an element and its content add, given what the content adds inside of the element. -/
theorem gains_element (h : b.HasRead before) (attributes : Attributes) (position : Position)
    (children : List Node) (hasEnd : voidTags.contains tag = false) {inside : Builder}
    (hinside : (b.enter tag attributes position).Gains (before ++ [.barrier]) inside
      (Node.someCounts (b.enter tag attributes position).shows children)
      (Node.elementsOf (b.enter tag attributes position).inStyle
        (b.enter tag attributes position).nearest?
        (b.enter tag attributes position).document.size (before ++ [.barrier]) children)
      (Node.styleTextsOf (b.enter tag attributes position).inStyle children)
      (Node.tracesOf (b.enter tag attributes position).inStyle children)) :
    b.Gains before (inside.step (.endTag tag))
      ((Node.element tag attributes position children hasEnd).counts b.shows)
      ((Node.element tag attributes position children hasEnd).elements b.nearest? b.document.size
        before)
      ((Node.element tag attributes position children hasEnd).styleTexts b.inStyle)
      ((Node.element tag attributes position children hasEnd).traces b.inStyle) := by
  rw [inStyle_enter hasEnd, nearest?_enter hasEnd, shows_enter hasEnd, size_enter h] at hinside
  refine ⟨?_, ?_, ?_, ?_⟩
  · have hopened := hinside.opened
    rw [opened_enter hasEnd] at hopened
    exact (congrArg (Builder.close tag) hopened).trans (close_cons_self tag _ _)
  · refine hinside.elements.trans ?_
    rw [nearest?_enter hasEnd, enter, toList_step_startTag h, Node.counts_element, Node.elements]
    cases hskipped : skippedTags.contains tag with
    | true =>
        have hcounts : Node.someCounts (!true) children = Node.someBringsElement children := rfl
        rw [hcounts, if_pos rfl, if_pos rfl, if_pos rfl, if_pos rfl, Bool.not_true, marked_false,
          List.append_nil]
        rfl
    | false =>
        have hlength : b.document.size = (marked (!false) b.nearest? b.document.toList).length := by
          rw [length_marked, Document.length_toList]
        have hcounts : Node.someCounts (!false) children =
            (children.any Node.isWords || Node.someBringsElement children) := rfl
        have hmark := @marked_concat (Node.someCounts (!false) children)
          (marked (!false) b.nearest? b.document.toList)
          (Node.elementOf tag attributes position false before b.document.size b.nearest?)
        rw [← hlength, hcounts] at hmark
        rw [hcounts, if_neg Bool.false_ne_true, if_neg Bool.false_ne_true,
          if_neg Bool.false_ne_true, if_neg Bool.false_ne_true, hmark, List.append_assoc]
        rfl
  · have hstyles := hinside.styles
    rw [enter, styles_step_startTag] at hstyles
    exact hstyles
  · have hlast := Trace.not_announced_concat_barrier
      (before ++ .barrier :: Node.tracesOf (tag == "style") children)
    rw [List.append_assoc, List.cons_append] at hlast
    rw [Node.traces, decide_eq_false hlast, step]

end Element

end Builder

namespace Node

open Builder

mutual

/-- What a node adds to a builder. -/
theorem gains {b : Builder} {before : List Trace} (h : b.HasRead before) :
    (node : Node) →
      b.Gains before (node.events.foldl step b) (node.counts b.shows)
        (node.elements b.nearest? b.document.size before) (node.styleTexts b.inStyle)
        (node.traces b.inStyle)
  | .text s => gains_text h s
  | .comment s => gains_comment h s
  | .leaf tag attributes closed position hasNoEnd =>
      gains_leaf h tag attributes closed position hasNoEnd
  | .element tag attributes position children hasEnd => by
      have hinside := gainsOf (hasRead_enter h hasEnd attributes position) children
      rw [events, List.foldl_cons, List.foldl_append]
      exact gains_element h attributes position children hasEnd hinside

/-- What some nodes add to a builder. -/
theorem gainsOf {b : Builder} {before : List Trace} (h : b.HasRead before) :
    (nodes : List Node) →
      b.Gains before ((eventsOf nodes).foldl step b) (someCounts b.shows nodes)
        (elementsOf b.inStyle b.nearest? b.document.size before nodes)
        (styleTextsOf b.inStyle nodes) (tracesOf b.inStyle nodes)
  | [] => by
      rw [someCounts, List.any_nil, Bool.and_false, someBringsElement, Bool.or_false]
      exact Gains.nil h
  | node :: nodes => by
      have hfirst := gains h node
      have hrest := gainsOf (hfirst.hasRead h) nodes
      rw [hfirst.shows_eq, hfirst.inStyle_eq, hfirst.nearest?_eq, hfirst.size_eq] at hrest
      rw [eventsOf, List.foldl_append, someCounts_cons, elementsOf, styleTextsOf, tracesOf]
      exact hfirst.append h hrest

end

end Node

/-- The document of a forest has the elements of the forest in preorder, with their parents, texts
and marks, and its styles are the texts of style elements, in order. -/
theorem run_forest (forest : List Node) :
    (Builder.run (Node.eventsOf forest)).document.toList =
        Node.elementsOf false none 0 [] forest ∧
      (Builder.run (Node.eventsOf forest)).styles = Node.styleTextsOf false forest := by
  have hread : ({} : Builder).HasRead [] :=
    ⟨by rintro _ ⟨⟩, (decide_eq_false Trace.not_announced_nil).symm⟩
  have hgains := Node.gainsOf hread forest
  refine ⟨?_, hgains.styles⟩
  have helements := hgains.elements
  rwa [Builder.nearest?, List.findSome?_nil, marked_none] at helements

/-- A division with a script in it, and an announced image behind a style sheet. -/
def gallery : List Node :=
  [.element "div" [] ⟨1, 1⟩
    [.element "script" [] ⟨1, 6⟩ [.text "run()"] (by decide), .text " ",
      .comment " contrast-ignore ", .text "\n"] (by decide),
    .comment "contrast-ignore", .leaf "picture" [] true ⟨3, 1⟩ rfl,
    .element "style" [] ⟨4, 1⟩ [.text "p { color: red }"] (by decide)]

example :
    (Node.elementsOf false none 0 [] gallery).map
        (fun e => (e.features.tag, e.parent, e.hasText, e.ignored)) =
      [("div", none, false, false), ("picture", none, false, true)] ∧
    Node.styleTextsOf false gallery = ["p { color: red }"] := by
  decide +kernel

end ContrastAudit.Markup
