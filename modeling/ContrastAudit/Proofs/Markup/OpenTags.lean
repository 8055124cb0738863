import Mathlib.Data.List.TakeWhile
import Mathlib.Order.Basic
import ContrastAudit.Proofs.Document.Outline
import ContrastAudit.Proofs.Markup.Builder

/-!
# Open tags

Which tags are open is a matter of the events alone, however badly they are nested.  A start tag is
open from then on, unless it is closed itself or has no end tag.  An end tag closes the innermost
open tag of its name and everything that was opened behind that one, or nothing if there is none.

A builder keeps the open tags on a stack.  The invariant is that the stack holds exactly the open
tags, the last one first, each with the place of its element, so that the places on it are always
places of the document.

**Results.**
* `document_of_events`: the elements of the document, and the parents that they have.
-/

namespace ContrastAudit.Markup

namespace Event

/-- The name of the tag that an event leaves open. -/
def opened? : Event → Option String
  | .startTag tag _ closed _ => if closed || voidTags.contains tag then none else some tag
  | _ => none

/-- What is seen of the element that an event starts, and where it stands. -/
def element? : Event → Option (Features × Position)
  | .startTag tag attributes _ position =>
    if skippedTags.contains tag then none else some (attributes.features tag, position)
  | _ => none

end Event

/-- The last number with a property among those that are open. -/
structure IsInnermost (isOpen holds : Nat → Prop) (i : Nat) : Prop where
  stands : isOpen i
  fits : holds i
  last : ∀ k, isOpen k → holds k → k ≤ i

section Events

variable (events : List Event)

/-- Event `i` leaves a tag of this name open. -/
def Opens (i : Nat) (tag : String) : Prop :=
  events[i]?.bind Event.opened? = some tag

/-- Event `i` starts an element of the document. -/
def StartsElement (i : Nat) : Prop :=
  (events[i]?.bind Event.element?).isSome = true

instance decidableStartsElement : DecidablePred (StartsElement events) :=
  fun i => inferInstanceAs (Decidable ((events[i]?.bind Event.element?).isSome = true))

/-- The tag that event `i` opens is still open in front of event `j`. -/
def IsOpen : Nat → Nat → Prop
  | 0, _ => False
  | j + 1, i =>
    match events[j]? with
    | some (.endTag tag) =>
      IsOpen j i ∧ ∀ k, IsInnermost (IsOpen j) (Opens events · tag) k → i < k
    | _ => IsOpen j i ∨ i = j ∧ ∃ tag, Opens events j tag

/-- The number of elements that are started in front of event `j`. -/
def placeAt (j : Nat) : Nat :=
  (events.take j).countP (·.element?.isSome)

/-- Event `i` starts the nearest element that is open in front of event `j`. -/
def IsNearest (j i : Nat) : Prop :=
  IsInnermost (IsOpen events j) (StartsElement events) i

end Events

section Open

variable {events : List Event} {i j : Nat}

theorem isOpen_succ_endTag {tag : String} (h : events[j]? = some (.endTag tag)) :
    IsOpen events (j + 1) i ↔
      IsOpen events j i ∧
        ∀ k, IsInnermost (IsOpen events j) (Opens events · tag) k → i < k := by
  rw [IsOpen, h]

theorem isOpen_succ_iff {event : Event} (h : events[j]? = some event)
    (hend : ∀ tag, event ≠ .endTag tag) :
    IsOpen events (j + 1) i ↔ IsOpen events j i ∨ i = j ∧ ∃ tag, event.opened? = some tag := by
  rw [IsOpen, h]
  split
  · next heq => exact absurd (Option.some.inj heq) (hend _)
  · simp only [Opens, h, Option.bind_some]

/-- A tag stays open only where it was open before or is opened right there. -/
theorem isOpen_or_of_succ (h : IsOpen events (j + 1) i) :
    IsOpen events j i ∨ i = j ∧ ∃ tag, Opens events j tag := by
  rw [IsOpen] at h
  split at h
  · exact .inl h.1
  · exact h

theorem lt_of_isOpen (h : IsOpen events j i) : i < j := by
  induction j with
  | zero => exact h.elim
  | succ j ih =>
      rcases isOpen_or_of_succ h with hopen | ⟨rfl, -⟩
      · exact (ih hopen).trans (Nat.lt_succ_self j)
      · exact Nat.lt_succ_self i

theorem exists_opens_of_isOpen (h : IsOpen events j i) : ∃ tag, Opens events i tag := by
  induction j with
  | zero => exact h.elim
  | succ j ih =>
      rcases isOpen_or_of_succ h with hopen | ⟨rfl, hopens⟩
      · exact ih hopen
      · exact hopens

theorem placeAt_succ {event : Event} (h : events[j]? = some event) :
    placeAt events (j + 1) = placeAt events j + if event.element?.isSome then 1 else 0 := by
  simp only [placeAt, List.take_add_one, h, List.countP_append, Option.toList_some,
    List.countP_singleton]

theorem placeAt_mono (h : i ≤ j) : placeAt events i ≤ placeAt events j :=
  (List.take_sublist_take_left h).countP_le

theorem placeAt_lt (h : i < j) (hi : StartsElement events i) :
    placeAt events i < placeAt events j := by
  cases he : events[i]? with
  | none => simp [StartsElement, he] at hi
  | some event =>
      have hsome : event.element?.isSome = true := by simpa [StartsElement, he] using hi
      have hsucc := placeAt_succ he
      rw [hsome, if_pos rfl] at hsucc
      have hle : placeAt events (i + 1) ≤ placeAt events j := placeAt_mono h
      omega

end Open

/-! ## The stack -/

/-- The entry of the stack for the tag that event `i` opens. -/
def entryAt (events : List Event) (i : Nat) : OpenElement where
  tag := (events[i]?.bind Event.opened?).getD ""
  place := if StartsElement events i then some (placeAt events i) else none

/-- A stack holds exactly the tags that are open in front of event `j`, the last one first. -/
structure Tracks (events : List Event) (j : Nat) (opened : List OpenElement)
    (starts : List Nat) : Prop where
  entries : opened = starts.map (entryAt events)
  descending : starts.Pairwise (· > ·)
  mem_iff : ∀ i, i ∈ starts ↔ IsOpen events j i

theorem tag_entryAt {events : List Event} {i : Nat} {tag : String} (h : Opens events i tag) :
    (entryAt events i).tag = tag := by
  rw [entryAt, Opens.eq_def] at *
  rw [h, Option.getD_some]

namespace Tracks

variable {events : List Event} {j : Nat} {opened : List OpenElement} {starts : List Nat}

theorem opens_iff (h : Tracks events j opened starts) {i : Nat} (hi : i ∈ starts)
    (tag : String) : Opens events i tag ↔ (entryAt events i).tag = tag := by
  refine ⟨tag_entryAt, fun htag => ?_⟩
  obtain ⟨name, hname⟩ := exists_opens_of_isOpen ((h.mem_iff i).1 hi)
  rwa [← htag, tag_entryAt hname]

/-- Behind an event that is no end tag the tag that it opens, if any, is on top. -/
theorem push (h : Tracks events j opened starts) {event : Event} (he : events[j]? = some event)
    (hend : ∀ tag, event ≠ .endTag tag) {tag : String} (htag : event.opened? = some tag) :
    Tracks events (j + 1) (entryAt events j :: opened) (j :: starts) where
  entries := by rw [h.entries, List.map_cons]
  descending := List.pairwise_cons.2
    ⟨fun i hi => lt_of_isOpen ((h.mem_iff i).1 hi), h.descending⟩
  mem_iff i := by
    rw [isOpen_succ_iff he hend, List.mem_cons, h.mem_iff, htag, or_comm]
    simp

theorem keep (h : Tracks events j opened starts) {event : Event} (he : events[j]? = some event)
    (hend : ∀ tag, event ≠ .endTag tag) (htag : event.opened? = none) :
    Tracks events (j + 1) opened starts where
  entries := h.entries
  descending := h.descending
  mem_iff i := by
    rw [isOpen_succ_iff he hend, h.mem_iff, htag]
    simp

/-- An end tag takes the innermost open tag of its name, and what lies on it, off the stack. -/
theorem close (h : Tracks events j opened starts) {tag : String}
    (he : events[j]? = some (.endTag tag)) :
    ∃ outer, Tracks events (j + 1) (Builder.close tag opened) outer := by
  have hdrop : opened.dropWhile (·.tag != tag) =
      (starts.dropWhile fun i => (entryAt events i).tag != tag).map (entryAt events) := by
    rw [h.entries, List.dropWhile_map]
    rfl
  rw [Builder.close, hdrop]
  cases hd : starts.dropWhile fun i => (entryAt events i).tag != tag with
  | nil =>
      refine ⟨starts, h.entries, h.descending, fun i => ?_⟩
      rw [isOpen_succ_endTag he, h.mem_iff]
      refine ⟨fun hi => ⟨hi, fun k hk => ?_⟩, And.left⟩
      have hmem := (h.mem_iff k).2 hk.stands
      have hne := List.dropWhile_eq_nil_iff.1 hd k hmem
      rw [(h.opens_iff hmem tag).1 hk.fits, bne_self_eq_false] at hne
      contradiction
  | cons k outer =>
      -- the stack is what does not bear the name, then `k`, then what stays open
      have hsplit := List.takeWhile_append_dropWhile
        (p := fun i => (entryAt events i).tag != tag) (l := starts)
      rw [hd] at hsplit
      have hk : k ∈ starts := hsplit ▸ List.mem_append_right _ List.mem_cons_self
      have hname : (entryAt events k).tag = tag := by
        have hhead := List.head?_dropWhile_not (fun i => (entryAt events i).tag != tag) starts
        rw [hd] at hhead
        simpa using hhead
      have hsorted := h.descending
      rw [← hsplit, List.pairwise_append, List.pairwise_cons] at hsorted
      obtain ⟨-, ⟨hbelow, houter⟩, habove⟩ := hsorted
      have hinnermost : IsInnermost (IsOpen events j) (Opens events · tag) k := by
        refine ⟨(h.mem_iff k).1 hk, (h.opens_iff hk tag).2 hname, fun m hm htag => ?_⟩
        have hmem := (h.mem_iff m).2 hm
        have hmtag := (h.opens_iff hmem tag).1 htag
        rw [← hsplit, List.mem_append, List.mem_cons] at hmem
        rcases hmem with hfront | rfl | hrest
        · have hne := List.mem_takeWhile_imp hfront
          simp [hmtag] at hne
        · exact le_refl m
        · exact (hbelow m hrest).le
      refine ⟨outer, rfl, houter, fun i => ?_⟩
      rw [isOpen_succ_endTag he, ← h.mem_iff, ← hsplit, List.mem_append, List.mem_cons]
      constructor
      · intro hi
        refine ⟨.inr (.inr hi), fun m hm => ?_⟩
        exact (hbelow i hi).trans_le (hm.last k hinnermost.stands hinnermost.fits)
      · rintro ⟨hfront | rfl | hrest, hlast⟩
        · exact absurd (hlast k hinnermost) (habove i hfront k List.mem_cons_self).not_gt
        · exact absurd (hlast i hinnermost) (lt_irrefl i)
        · exact hrest

/-- The first place on the stack is that of the nearest open element. -/
theorem findSome?_place_eq_some_iff (h : Tracks events j opened starts) {p : Nat} :
    opened.findSome? (·.place) = some p ↔ ∃ i, IsNearest events j i ∧ placeAt events i = p := by
  have hplace : ∀ i, (entryAt events i).place =
      if StartsElement events i then some (placeAt events i) else none := fun i => rfl
  rw [h.entries, List.findSome?_map, List.findSome?_eq_some_iff]
  have hsorted := h.descending
  constructor
  · rintro ⟨front, i, outer, hsplit, hi, hfront⟩
    rw [Function.comp_apply, hplace, Option.ite_none_right_eq_some, Option.some.injEq] at hi
    rw [hsplit, List.pairwise_append, List.pairwise_cons] at hsorted
    obtain ⟨-, ⟨hbelow, -⟩, -⟩ := hsorted
    have hmem : i ∈ starts := hsplit ▸ List.mem_append_right _ List.mem_cons_self
    refine ⟨i, ⟨(h.mem_iff i).1 hmem, hi.1, fun k hk helement => ?_⟩, hi.2⟩
    have hkmem := (h.mem_iff k).2 hk
    rw [hsplit, List.mem_append, List.mem_cons] at hkmem
    rcases hkmem with hkfront | rfl | hkouter
    · have hnone := hfront k hkfront
      rw [Function.comp_apply, hplace, if_pos helement] at hnone
      contradiction
    · exact le_refl k
    · exact (hbelow k hkouter).le
  · rintro ⟨i, ⟨hopen, helement, hlast⟩, hp⟩
    obtain ⟨front, outer, hsplit⟩ := List.append_of_mem ((h.mem_iff i).2 hopen)
    refine ⟨front, i, outer, hsplit, ?_, fun k hk => ?_⟩
    · rw [Function.comp_apply, hplace, if_pos helement, hp]
    · rw [hsplit, List.pairwise_append] at hsorted
      obtain ⟨-, -, habove⟩ := hsorted
      have hkmem : k ∈ starts := hsplit ▸ List.mem_append_left _ hk
      have hlt : i < k := habove k hk i List.mem_cons_self
      have hno : ¬ StartsElement events k := fun hk' =>
        absurd (hlast k ((h.mem_iff k).1 hkmem) hk') hlt.not_ge
      rw [Function.comp_apply, hplace, if_neg hno]

end Tracks

namespace Builder

/-! ## Changes of the document -/

/-- What an event asks to be done to the document; places are not checked. -/
def edits (b : Builder) : Event → List Outline.Edit
  | .startTag tag attributes _ position =>
    if skippedTags.contains tag then []
    else
      let content := b.contentOf tag attributes position
      b.nearest?.toList.map .markText ++
        [.add { content with features := { content.features with tag } } b.nearest?]
  | .text text => if b.credits text then b.nearest?.toList.map .markText else []
  | .endTag _ | .comment _ => []

/-- What some events ask to be done to the document. -/
def editsOf (b : Builder) : List Event → List Outline.Edit
  | [] => []
  | event :: events => b.edits event ++ (b.step event).editsOf events

/-- What does not change about the elements of a document: their features, where they stand, and
their parents. -/
def shapes (doc : Document) : List (Features × Position × Option Nat) :=
  doc.toList.map fun e => (e.features, e.position, e.parent)

section Step

variable {b : Builder}

theorem shapes_markText (doc : Document) (place : Nat) :
    shapes (doc.markText place) = shapes doc := by
  refine List.ext_getElem? fun i => ?_
  rw [shapes, shapes, Document.toList_markText, List.getElem?_map, List.getElem?_map,
    List.getElem?_modify]
  cases doc.toList[i]? with
  | none => rfl
  | some e => split <;> rfl

theorem shapes_markNearest (b : Builder) : shapes b.markNearest.document = shapes b.document := by
  rw [markNearest_eq]
  cases b.nearest? with
  | none => rfl
  | some place => exact shapes_markText b.document place

/-- An event adds the element that it starts, if any, below the nearest open element. -/
theorem shapes_step (h : ∀ p ∈ b.nearest?, p < b.document.size) (event : Event) :
    shapes (b.step event).document = shapes b.document ++
      (event.element?.map fun shape => (shape.1, shape.2, b.nearest?)).toList := by
  cases event with
  | startTag tag attributes closed position =>
      have hdocument := congrArg document (onStartTag_eq b tag attributes closed position)
      rw [step, hdocument, Event.element?]
      cases skippedTags.contains tag with
      | true => exact (List.append_nil _).symm
      | false =>
          rw [← size_markNearest] at h
          have hlist := Document.toList_attach h (b.contentOf tag attributes position)
          rw [← shapes_markNearest b]
          exact (congrArg (List.map _) hlist).trans List.map_append
  | endTag tag => exact (List.append_nil _).symm
  | text text =>
      have hdocument := congrArg document (onText_eq b text)
      refine Eq.trans ?_ (List.append_nil _).symm
      rw [step, hdocument]
      dsimp only
      split
      · exact shapes_markNearest b
      · rfl
  | comment text =>
      rw [step]
      split <;> exact (List.append_nil _).symm

/-- The mark of the nearest element can be made in the outline. -/
theorem editAll?_markNearest (h : ∀ p ∈ b.nearest?, p < b.document.size) :
    b.document.outline.editAll? (b.nearest?.toList.map .markText) =
      some b.markNearest.document.outline := by
  rw [markNearest_eq]
  cases hnearest : b.nearest? with
  | none => rfl
  | some place =>
      have hedit := Document.edit?_outline_markText (h place hnearest)
      exact (bind_pure _).trans hedit

/-- What an event asks for can be done to the outline, and gives the outline of the new document. -/
theorem editAll?_edits (h : ∀ p ∈ b.nearest?, p < b.document.size) (event : Event) :
    b.document.outline.editAll? (b.edits event) = some (b.step event).document.outline := by
  cases event with
  | startTag tag attributes closed position =>
      have hdocument := congrArg document (onStartTag_eq b tag attributes closed position)
      rw [step, hdocument, edits]
      cases skippedTags.contains tag with
      | true => rfl
      | false =>
          have hmark := editAll?_markNearest h
          rw [← size_markNearest] at h
          have hadd := Document.edit?_outline_attach h
            { b.contentOf tag attributes position with
              features := { (b.contentOf tag attributes position).features with tag } }
          rw [Outline.editAll?] at hmark
          dsimp only
          rw [if_neg Bool.false_ne_true, if_neg Bool.false_ne_true, Outline.editAll?,
            List.foldlM_append, hmark]
          exact (bind_pure _).trans hadd
  | endTag tag => rfl
  | text text =>
      have hdocument := congrArg document (onText_eq b text)
      rw [step, hdocument, edits]
      dsimp only
      split
      · exact editAll?_markNearest h
      · rfl
  | comment text =>
      rw [step]
      split <;> rfl

theorem size_step (b : Builder) (event : Event) :
    (b.step event).document.size = b.document.size + if event.element?.isSome then 1 else 0 := by
  cases event with
  | startTag tag attributes closed position =>
      have hdocument := congrArg document (onStartTag_eq b tag attributes closed position)
      rw [step, hdocument, Event.element?]
      cases skippedTags.contains tag with
      | true => rfl
      | false => simp [size_markNearest]
  | endTag tag => rfl
  | text text =>
      have hdocument := congrArg document (onText_eq b text)
      rw [step, hdocument]
      dsimp only
      split
      · exact size_markNearest b
      · rfl
  | comment text =>
      rw [step]
      split <;> rfl

end Step

/-! ## Runs -/

section Run

/-- The builder in front of event `j`. -/
def before (events : List Event) (j : Nat) : Builder :=
  run (events.take j)

variable {events : List Event} {j : Nat}

theorem before_succ {event : Event} (h : events[j]? = some event) :
    before events (j + 1) = (before events j).step event := by
  rw [before, before, run, run, List.take_add_one, h, List.foldl_append]
  rfl

theorem before_length (events : List Event) : before events events.length = run events := by
  rw [before, List.take_length]

theorem size_before (h : j ≤ events.length) :
    (before events j).document.size = placeAt events j := by
  induction j with
  | zero => rfl
  | succ j ih =>
      have he : events[j]? = some events[j] := List.getElem?_eq_getElem h
      rw [before_succ he, size_step, placeAt_succ he, ih (Nat.le_of_succ_le h)]

/-- The entry that a start tag puts on the stack. -/
theorem entryAt_startTag {tag : String} {attributes : Attributes} {closed : Bool}
    {position : Position} (he : events[j]? = some (.startTag tag attributes closed position))
    (hopen : (closed || voidTags.contains tag) = false) :
    entryAt events j =
      ⟨tag, if skippedTags.contains tag then none else some (placeAt events j)⟩ := by
  simp only [entryAt, StartsElement, he, Option.bind_some, Event.opened?, hopen, Event.element?]
  cases skippedTags.contains tag <;> rfl

/-- The stack of a builder holds exactly the open tags. -/
theorem exists_tracks (h : j ≤ events.length) :
    ∃ starts, Tracks events j (before events j).opened starts := by
  induction j with
  | zero => exact ⟨[], rfl, .nil, fun i => by simp [IsOpen]⟩
  | succ j ih =>
      have hj : j ≤ events.length := Nat.le_of_succ_le h
      obtain ⟨starts, htracks⟩ := ih hj
      obtain ⟨event, he⟩ : ∃ event, events[j]? = some event := ⟨_, List.getElem?_eq_getElem h⟩
      rw [before_succ he]
      cases event with
      | startTag tag attributes closed position =>
          have hopened :=
            congrArg opened (onStartTag_eq (before events j) tag attributes closed position)
          rw [step, hopened]
          cases hopen : closed || voidTags.contains tag with
          | true =>
              have hnone : (Event.startTag tag attributes closed position).opened? = none := by
                rw [Event.opened?, hopen, if_pos rfl]
              exact ⟨starts, htracks.keep he (fun _ => Event.noConfusion) hnone⟩
          | false =>
              have hsome : (Event.startTag tag attributes closed position).opened? = some tag := by
                rw [Event.opened?, hopen, if_neg Bool.false_ne_true]
              have hpush := htracks.push he (fun _ => Event.noConfusion) hsome
              rw [entryAt_startTag he hopen, ← size_before hj] at hpush
              exact ⟨j :: starts, hpush⟩
      | endTag tag => exact htracks.close he
      | text text =>
          have hopened := congrArg opened (onText_eq (before events j) text)
          rw [step, hopened]
          exact ⟨starts, htracks.keep he (fun _ => Event.noConfusion) rfl⟩
      | comment text =>
          have hkeep := htracks.keep he (fun _ => Event.noConfusion) rfl
          rw [step]
          split <;> exact ⟨starts, hkeep⟩

/-- The nearest element is the innermost open one that is in the document. -/
theorem nearest?_before_eq_some_iff (h : j ≤ events.length) {p : Nat} :
    (before events j).nearest? = some p ↔
      ∃ i, IsNearest events j i ∧ placeAt events i = p := by
  obtain ⟨starts, htracks⟩ := exists_tracks h
  exact htracks.findSome?_place_eq_some_iff

/-- The places on the stack are places of the document. -/
theorem lt_size_of_nearest? (h : j ≤ events.length) :
    ∀ p ∈ (before events j).nearest?, p < (before events j).document.size := by
  intro p hp
  obtain ⟨i, hi, rfl⟩ := (nearest?_before_eq_some_iff h).1 hp
  rw [size_before h]
  exact placeAt_lt (lt_of_isOpen hi.stands) hi.fits

theorem map_shapes_before (h : j ≤ events.length) :
    (shapes (before events j).document).map (fun shape => (shape.1, shape.2.1)) =
      (events.take j).filterMap Event.element? := by
  induction j with
  | zero => rfl
  | succ j ih =>
      have hj : j ≤ events.length := Nat.le_of_succ_le h
      have he : events[j]? = some events[j] := List.getElem?_eq_getElem h
      rw [before_succ he, shapes_step (lt_size_of_nearest? hj), List.map_append, ih hj,
        List.take_add_one, he, List.filterMap_append]
      cases hshape : events[j].element? <;> simp [hshape]

/-- What has been read stays in the document. -/
theorem shapes_before_prefix {k : Nat} (hjk : j ≤ k) (h : k ≤ events.length) :
    shapes (before events j).document <+: shapes (before events k).document := by
  induction k, hjk using Nat.le_induction with
  | base => exact List.prefix_refl _
  | succ k hk ih =>
      have hlt : k ≤ events.length := Nat.le_of_succ_le h
      have he : events[k]? = some events[k] := List.getElem?_eq_getElem h
      rw [before_succ he, shapes_step (lt_size_of_nearest? hlt)]
      exact (ih hlt).trans (List.prefix_append _ _)

/-- The element that an event starts stands at its place, below what was nearest then. -/
theorem exists_get?_of_startsElement (hj : StartsElement events j) :
    ∃ e, (run events).document.get? (placeAt events j) = some e ∧
      events[j]?.bind Event.element? = some (e.features, e.position) ∧
      e.parent = (before events j).nearest? := by
  obtain ⟨shape, hshape⟩ := Option.isSome_iff_exists.1 hj
  obtain ⟨event, he, helement⟩ := Option.bind_eq_some_iff.1 hshape
  have hlt : j < events.length := (List.getElem?_eq_some_iff.1 he).1
  have hadded := shapes_step (lt_size_of_nearest? hlt.le) event
  rw [← before_succ he, helement, Option.map_some, Option.toList_some] at hadded
  have hlast : (shapes (before events (j + 1)).document)[placeAt events j]? =
      some (shape.1, shape.2, (before events j).nearest?) := by
    have hlength : (shapes (before events j).document).length = placeAt events j := by
      rw [shapes, List.length_map, Document.length_toList, size_before hlt.le]
    rw [hadded, ← hlength, List.getElem?_concat_length]
  obtain ⟨later, hkept⟩ := shapes_before_prefix (Nat.succ_le_of_lt hlt) (le_refl events.length)
  have hget := @List.getElem?_append_left _ _ later _ (List.getElem?_eq_some_iff.1 hlast).1
  rw [hkept, hlast, before_length, shapes, List.getElem?_map, Document.getElem?_toList,
    Option.map_eq_some_iff] at hget
  obtain ⟨e, hplace, hsame⟩ := hget
  rw [Prod.mk.injEq, Prod.mk.injEq] at hsame
  obtain ⟨hfeatures, hposition, hparent⟩ := hsame
  exact ⟨e, hplace, by rw [hshape, hfeatures, hposition], hparent⟩

theorem editsOf_append (b : Builder) (events events' : List Event) :
    b.editsOf (events ++ events') = b.editsOf events ++ (events.foldl step b).editsOf events' := by
  induction events generalizing b with
  | nil => rfl
  | cons event events ih =>
      rw [List.cons_append, editsOf, editsOf, ih, List.append_assoc, List.foldl_cons]

/-- What the events ask for can be done one after the other, and gives the outline of the
document. -/
theorem editAll?_editsOf (h : j ≤ events.length) :
    Outline.editAll? #[] (editsOf {} (events.take j)) =
      some (before events j).document.outline := by
  induction j with
  | zero => rfl
  | succ j ih =>
      have hj : j ≤ events.length := Nat.le_of_succ_le h
      have he : events[j]? = some events[j] := List.getElem?_eq_getElem h
      have hstep := editAll?_edits (lt_size_of_nearest? hj) events[j]
      have hfront := ih hj
      rw [Outline.editAll?] at hfront hstep ⊢
      rw [List.take_add_one, he, Option.toList_some, editsOf_append, List.foldlM_append, hfront,
        before_succ he, ← hstep]
      exact congrArg _ (List.append_nil _)

end Run

end Builder

/-- Building the document never fails, its elements are those that the events start, in order, and
the parent of an element is the nearest element that is open at its start tag. -/
theorem document_of_events (events : List Event) :
    (∃ outline, Outline.editAll? #[] (Builder.editsOf {} events) = some outline ∧
      outline.build = .ok (Builder.run events).document) ∧
    (Builder.run events).document.toList.map (fun e => (e.features, e.position)) =
      events.filterMap Event.element? ∧
    ∀ j, StartsElement events j →
      ∃ e, (Builder.run events).document.get? (placeAt events j) = some e ∧
        events[j]?.bind Event.element? = some (e.features, e.position) ∧
        ∀ p, e.parent = some p ↔ ∃ i, IsNearest events j i ∧ placeAt events i = p := by
  refine ⟨?_, ?_, fun j hj => ?_⟩
  · have hedits := Builder.editAll?_editsOf (le_refl events.length)
    rw [List.take_length, Builder.before_length] at hedits
    exact ⟨_, hedits, Document.build_outline _⟩
  · have hshapes := Builder.map_shapes_before (le_refl events.length)
    rw [List.take_length, Builder.before_length, Builder.shapes, List.map_map] at hshapes
    exact hshapes
  · obtain ⟨e, hplace, hshape, hparent⟩ := Builder.exists_get?_of_startsElement hj
    have hlt : j < events.length := by
      by_contra hge
      rw [StartsElement, List.getElem?_eq_none (not_lt.1 hge)] at hj
      exact Bool.false_ne_true hj
    refine ⟨e, hplace, hshape, fun p => ?_⟩
    rw [hparent, Builder.nearest?_before_eq_some_iff hlt.le]

/-- Tags that are closed in the wrong order: the end of the script closes the paragraph in it. -/
def tangled : List Event :=
  [.startTag "div" [] false ⟨1, 1⟩, .startTag "script" [] false ⟨1, 6⟩, .endTag "b",
    .startTag "p" [] false ⟨1, 14⟩, .startTag "wbr" [] false ⟨1, 17⟩, .endTag "script",
    .startTag "i" [] false ⟨1, 31⟩]

/-- The third element, the line break, stands in the paragraph, and the fourth is below the first
again. -/
theorem document_of_events_tangled :
    StartsElement tangled 6 ∧
      ∃ e, (Builder.run tangled).document.get? 3 = some e ∧
        tangled[6]?.bind Event.element? = some (e.features, e.position) ∧
        ∀ p, e.parent = some p ↔ ∃ i, IsNearest tangled 6 i ∧ placeAt tangled i = p := by
  have hi : StartsElement tangled 6 := by decide +kernel
  exact ⟨hi, (document_of_events tangled).2.2 6 hi⟩

example :
    (Builder.run tangled).document.toList.map (fun e => (e.features.tag, e.parent)) =
      [("div", none), ("p", some 0), ("wbr", some 1), ("i", some 0)] := by
  decide +kernel

end ContrastAudit.Markup
