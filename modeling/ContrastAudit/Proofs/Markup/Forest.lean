import Mathlib.Data.List.Induction
import ContrastAudit.Markup.Builder

/-!
# Forests of elements

What a well-nested text is meant as: a forest of elements, texts and comments.  Elements of the
document are those that are not skipped, in the order of their start tags.  The parent of an element
is its nearest ancestor that is not skipped.  An element has text if words stand directly in it, or
if it is the parent of an element.

A comment marks the element whose start tag comes next in the text, with nothing but further
comments, white space and the text of style elements in between.  A text is that of the element it
stands directly in.
-/

namespace ContrastAudit.Markup

/-- A node of a forest.  A leaf has no end tag, because it is closed itself or because of its
name. -/
inductive Node
  | text (text : String)
  | comment (text : String)
  | leaf (tag : String) (attributes : Attributes) (closed : Bool) (position : Position)
    (hasNoEnd : (closed || voidTags.contains tag) = true)
  | element (tag : String) (attributes : Attributes) (position : Position) (children : List Node)
    (hasEnd : voidTags.contains tag = false)

/-- What is met on the way through a text, as far as comments that mark elements go. -/
inductive Trace
  | announcement
  | quiet
  | barrier
  deriving DecidableEq, Repr

namespace Trace

/-- The trace of text; in style elements all text is quiet. -/
def ofText (inStyle : Bool) (text : String) : Trace :=
  if inStyle || Text.allBlank text.toList then .quiet else .barrier

/-- The trace of a comment. -/
def ofComment (text : String) : Trace :=
  if Text.strip text = ignoreComment then .announcement else .quiet

/-- A comment has announced what comes next, and there is no barrier behind it. -/
def Announced (traces : List Trace) : Prop :=
  ∃ before between, traces = before ++ .announcement :: between ∧ .barrier ∉ between

theorem not_announced_nil : ¬ Announced [] := by
  rintro ⟨before, between, h, -⟩
  exact List.append_ne_nil_of_right_ne_nil before (List.cons_ne_nil _ _) h.symm

/-- The last trace decides, unless it is quiet. -/
theorem announced_concat_iff {traces : List Trace} {last : Trace} :
    Announced (traces ++ [last]) ↔ last = .announcement ∨ last = .quiet ∧ Announced traces := by
  constructor
  · rintro ⟨before, between, h, hfree⟩
    rcases List.eq_nil_or_concat between with rfl | ⟨front, t, rfl⟩
    · exact .inl (List.singleton_inj.1 (List.append_inj' h rfl).2)
    · rw [List.concat_eq_append, ← List.cons_append, ← List.append_assoc] at h
      obtain ⟨hfront, hlast⟩ := List.append_inj' h rfl
      obtain rfl := List.singleton_inj.1 hlast
      rw [List.concat_eq_append, List.mem_append, List.mem_singleton, not_or] at hfree
      have hannounced : Announced traces := ⟨before, front, hfront, hfree.1⟩
      cases last with
      | announcement => exact .inl rfl
      | quiet => exact .inr ⟨rfl, hannounced⟩
      | barrier => exact absurd rfl hfree.2
  · rintro (rfl | ⟨rfl, before, between, rfl, hfree⟩)
    · exact ⟨traces, [], rfl, List.not_mem_nil⟩
    · refine ⟨before, between ++ [.quiet], by simp, fun hmem => ?_⟩
      rw [List.mem_append, List.mem_singleton] at hmem
      exact hmem.elim hfree Trace.noConfusion

theorem not_announced_concat_barrier (traces : List Trace) :
    ¬ Announced (traces ++ [.barrier]) := by
  simp [announced_concat_iff]

/-- Whether the last trace that is not quiet announces something, given the last traces first. -/
def announces : List Trace → Bool
  | [] | .barrier :: _ => false
  | .announcement :: _ => true
  | .quiet :: traces => announces traces

theorem announces_reverse_iff (traces : List Trace) :
    announces traces.reverse = true ↔ Announced traces := by
  induction traces using List.reverseRecOn with
  | nil => exact iff_of_false Bool.false_ne_true not_announced_nil
  | append_singleton front last ih =>
      rw [List.reverse_append, announced_concat_iff]
      cases last with
      | announcement => simp [announces]
      | quiet => simpa [announces] using ih
      | barrier => simp [announces]

instance decidableAnnounced (traces : List Trace) : Decidable (Announced traces) :=
  decidable_of_iff (announces traces.reverse = true) (announces_reverse_iff traces)

end Trace

namespace Node

/-! ## Events -/

mutual

/-- The events of a node. -/
def events : Node → List Event
  | .text s => [.text s]
  | .comment s => [.comment s]
  | .leaf tag attributes closed position _ => [.startTag tag attributes closed position]
  | .element tag attributes position children _ =>
    .startTag tag attributes false position :: (eventsOf children ++ [.endTag tag])

/-- The events of some nodes. -/
def eventsOf : List Node → List Event
  | [] => []
  | node :: nodes => node.events ++ eventsOf nodes

end

/-! ## Content -/

/-- Whether a node is text with something else than blanks. -/
def isWords : Node → Bool
  | .text s => !Text.allBlank s.toList
  | .comment _ | .leaf .. | .element .. => false

mutual

/-- Whether a node is an element of the document, or a skipped one that has one in it. -/
def bringsElement : Node → Bool
  | .leaf tag _ _ _ _ => !skippedTags.contains tag
  | .element tag _ _ children _ => !skippedTags.contains tag || someBringsElement children
  | .text _ | .comment _ => false

/-- Whether some of the nodes brings an element. -/
def someBringsElement : List Node → Bool
  | [] => false
  | node :: nodes => node.bringsElement || someBringsElement nodes

end

mutual

/-- The texts directly in style elements; `inStyle` tells that the node stands in one. -/
def styleTexts (inStyle : Bool) : Node → List String
  | .text s => if inStyle then [s] else []
  | .element tag _ _ children _ => styleTextsOf (tag == "style") children
  | .comment _ | .leaf .. => []

/-- The texts of some nodes that stand directly in style elements. -/
def styleTextsOf (inStyle : Bool) : List Node → List String
  | [] => []
  | node :: nodes => node.styleTexts inStyle ++ styleTextsOf inStyle nodes

end

mutual

/-- The traces of a node. -/
def traces (inStyle : Bool) : Node → List Trace
  | .text s => [.ofText inStyle s]
  | .comment s => [.ofComment s]
  | .leaf .. => [.barrier]
  | .element tag _ _ children _ => .barrier :: (tracesOf (tag == "style") children ++ [.barrier])

/-- The traces of some nodes. -/
def tracesOf (inStyle : Bool) : List Node → List Trace
  | [] => []
  | node :: nodes => node.traces inStyle ++ tracesOf inStyle nodes

end

/-! ## Elements -/

/-- The element that a start tag makes behind the given traces. -/
def elementOf (tag : String) (attributes : Attributes) (position : Position) (hasText : Bool)
    (before : List Trace) (place : Nat) (parent : Option Nat) : Element where
  features := attributes.features tag
  hasText := hasText
  ignored := attributes.has ignoreAttribute || decide (Trace.Announced before)
  position := position
  index := place
  parent := parent

mutual

/-- The elements of a node in preorder, the first of them at `place`, given their parent and the
traces in front of the node. -/
def elements (parent : Option Nat) (place : Nat) (before : List Trace) : Node → List Element
  | .text _ | .comment _ => []
  | .leaf tag attributes _ position _ =>
    if skippedTags.contains tag then []
    else [elementOf tag attributes position false before place parent]
  | .element tag attributes position children _ =>
    let inside := before ++ [.barrier]
    if skippedTags.contains tag then
      elementsOf (tag == "style") parent place inside children
    else
      elementOf tag attributes position (children.any isWords || someBringsElement children)
        before place parent :: elementsOf (tag == "style") (some place) (place + 1) inside children

/-- The elements of some nodes in preorder. -/
def elementsOf (inStyle : Bool) (parent : Option Nat) (place : Nat) (before : List Trace) :
    List Node → List Element
  | [] => []
  | node :: nodes =>
    let first := node.elements parent place before
    first ++ elementsOf inStyle parent (place + first.length) (before ++ node.traces inStyle) nodes

end

end Node

end ContrastAudit.Markup
