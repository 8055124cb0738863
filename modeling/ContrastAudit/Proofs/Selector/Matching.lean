import Mathlib.Logic.Function.Basic
import Mathlib.Logic.Relation
import ContrastAudit.Document.Growth
import ContrastAudit.Proofs.Document.Lineage
import ContrastAudit.Proofs.Document.Outline
import ContrastAudit.Selector.Parse

/-!
# What selectors select

A selector selects an element if elements of the document can be assigned to its compounds: the
element itself to the last one, to every compound an element with its tag, ids and classes, and to
neighbours a parent and its child, or an ancestor and its descendant.  Compounds to the left of a
sibling combinator do not count.

Matching walks up from the element and tries one ancestor after the other.  The same search can be
carried out by places in the selector and in the document; it never looks up a place that is not
there.

**Results.**
* `applies_iff_assigns`: a selector applies to an element exactly if there is such an assignment.
-/

namespace ContrastAudit

/-! ## Compounds -/

/-- An element has the tag, the ids and the classes that a compound asks for. -/
structure Compound.Fits (c : Compound) (f : Features) : Prop where
  tag : ∀ tag, c.tag = some tag → f.tag = tag
  ids : ∀ id ∈ c.ids, f.id = some id
  classes : ∀ name ∈ c.classes, name ∈ f.classes

theorem Compound.describes_iff {c : Compound} {f : Features} :
    c.describes f = true ↔ c.Fits f := by
  have htag : c.tag.all (· == f.tag) = true ↔ ∀ tag, c.tag = some tag → f.tag = tag := by
    cases c.tag with
    | none => simp
    | some tag =>
        simp only [Option.all_some, beq_iff_eq, Option.some.injEq, forall_eq']
        exact eq_comm
  simp only [describes, Bool.and_eq_true, htag, List.all_eq_true, beq_iff_eq, List.contains_iff_mem]
  constructor
  · rintro ⟨⟨htag, hids⟩, hclasses⟩
    exact ⟨htag, hids, hclasses⟩
  · rintro ⟨htag, hids, hclasses⟩
    exact ⟨⟨htag, hids⟩, hclasses⟩

/-! ## Ancestors -/

namespace Document

variable {doc : Document} {a e p : Element}

/-- One element stands above another one, by one step to a parent or by several. -/
def IsAncestor (doc : Document) : Element → Element → Prop :=
  Relation.TransGen fun p e => doc.parent? e = some p

theorem mem_toList_of_parent? (h : doc.parent? e = some p) : p ∈ doc.toList := by
  obtain ⟨i, -, hp⟩ := Option.bind_eq_some_iff.1 h
  exact Array.mem_toList_iff.2 (Array.mem_of_getElem? hp)

theorem exists_get?_of_mem_toList (h : e ∈ doc.toList) : ∃ i, doc.get? i = some e := by
  obtain ⟨i, hi⟩ := List.mem_iff_getElem?.1 h
  exact ⟨i, doc.getElem?_toList i ▸ hi⟩

theorem index_lt_size (h : e ∈ doc.toList) : e.index < doc.size := by
  obtain ⟨i, hi⟩ := exists_get?_of_mem_toList h
  rw [(doc.ordered i e hi).1]
  exact (Array.getElem?_eq_some_iff.1 hi).1

/-- A parent stands in front of its children. -/
theorem index_lt_of_parent? (he : e ∈ doc.toList) (h : doc.parent? e = some p) :
    p.index < e.index := by
  obtain ⟨i, hi⟩ := exists_get?_of_mem_toList he
  obtain ⟨j, hj, hp⟩ := Option.bind_eq_some_iff.1 h
  rw [(doc.ordered i e hi).1, (doc.ordered j p hp).1]
  exact parent_lt hi hj

theorem ancestors_of_parent? (h : doc.parent? e = some p) :
    doc.ancestors e = p :: doc.ancestors p := by
  have hlineage := doc.lineage_eq_elim_parent? e
  rw [h, lineage_eq_cons, Option.elim_some, lineage_eq_cons] at hlineage
  exact (List.cons.inj hlineage).2

theorem ancestors_of_parent?_eq_none (h : doc.parent? e = none) : doc.ancestors e = [] := by
  have hlineage := doc.lineage_eq_elim_parent? e
  rw [h, lineage_eq_cons, Option.elim_none] at hlineage
  exact (List.cons.inj hlineage).2

/-- A property that is passed on from parents to children holds of every element. -/
theorem induction_parent {motive : Element → Prop}
    (root : ∀ e, doc.parent? e = none → motive e)
    (child : ∀ e p, doc.parent? e = some p → motive p → motive e) (e : Element) : motive e := by
  -- the ancestors of a parent are fewer
  generalize hchain : doc.ancestors e = chain
  induction chain generalizing e with
  | nil =>
      cases h : doc.parent? e with
      | none => exact root e h
      | some p =>
          rw [ancestors_of_parent? h] at hchain
          contradiction
  | cons first above ih =>
      cases h : doc.parent? e with
      | none => exact root e h
      | some p =>
          rw [ancestors_of_parent? h] at hchain
          exact child e p h (ih p (List.cons.inj hchain).2)

theorem mem_ancestors_iff : a ∈ doc.ancestors e ↔ doc.IsAncestor a e := by
  induction e using doc.induction_parent with
  | root e h =>
      simp [IsAncestor, Relation.TransGen.tail'_iff, ancestors_of_parent?_eq_none h, h]
  | child e p h ih =>
      have hstep : doc.IsAncestor a e ↔ a = p ∨ doc.IsAncestor a p := by
        rw [IsAncestor, Relation.TransGen.tail'_iff]
        simp [h, Relation.reflTransGen_iff_eq_or_transGen, eq_comm]
      rw [ancestors_of_parent? h, List.mem_cons, ih, hstep]

theorem mem_toList_of_isAncestor (h : doc.IsAncestor a e) : a ∈ doc.toList :=
  mem_toList_of_mem_ancestors (mem_ancestors_iff.2 h)

end Document

namespace Selector

variable {doc : Document} {e : Element}

/-- Looking for an ancestor goes through all of them, each with its own ancestors. -/
theorem someAncestor_ancestors (test : Features → List Features → Bool) (e : Element) :
    someAncestor test ((doc.ancestors e).map (·.features)) =
      (doc.ancestors e).any fun a => test a.features ((doc.ancestors a).map (·.features)) := by
  induction e using doc.induction_parent with
  | root e h =>
      rw [Document.ancestors_of_parent?_eq_none h, List.map_nil, someAncestor, List.any_nil]
  | child e p h ih =>
      rw [Document.ancestors_of_parent? h, List.map_cons, someAncestor, ih, List.any_cons]

/-! ## Assignments -/

/-- Neither at a place nor to the right of it stands a sibling combinator; combinator `i` joins
compound `i` to the next one. -/
def Counts (s : Selector) (i : Nat) : Prop :=
  ∀ j, i ≤ j → s.combinators[j]? ≠ some .sibling

/-- The elements of a document that a function gives to the compounds that count fit them and stand
as the combinators ask, with `e` at the last compound. -/
structure Assigns (s : Selector) (doc : Document) (e : Element) (a : Nat → Element) : Prop where
  target : a s.context.length = e
  mem : ∀ i, s.Counts i → i ≤ s.context.length → a i ∈ doc.toList
  fits : ∀ i c, s.Counts i → s.compounds[i]? = some c → c.Fits (a i).features
  child : ∀ i, s.Counts i → s.combinators[i]? = some .child →
    doc.parent? (a (i + 1)) = some (a i)
  descendant : ∀ i, s.Counts i → s.combinators[i]? = some .descendant →
    doc.IsAncestor (a i) (a (i + 1))

section Assignments

variable {text : String} {target c : Compound} {k : Combinator}
  {context : List (Combinator × Compound)} {a b : Nat → Element}

theorem length_combinators (s : Selector) : s.combinators.length = s.context.length := by
  simp [combinators]

theorem counts_length (s : Selector) : s.Counts s.context.length := by
  intro j hj
  simp [hj, length_combinators]

/-! ### One more compound -/

variable {i : Nat}

theorem getElem?_combinators_length :
    (combinators ⟨text, target, (k, c) :: context⟩)[context.length]? = some k := by
  simp [combinators]

theorem getElem?_combinators_cons (h : i < context.length) :
    (combinators ⟨text, target, (k, c) :: context⟩)[i]? =
      (combinators ⟨text, c, context⟩)[i]? := by
  have hlast : combinators ⟨text, target, (k, c) :: context⟩ =
      combinators ⟨text, c, context⟩ ++ [k] := by simp [combinators]
  rw [hlast, List.getElem?_append_left (by simpa [combinators] using h)]

theorem getElem?_compounds_length :
    (compounds ⟨text, target, context⟩)[context.length]? = some target := by
  simp [compounds]

theorem getElem?_compounds_cons (h : i ≤ context.length) :
    (compounds ⟨text, target, (k, c) :: context⟩)[i]? = (compounds ⟨text, c, context⟩)[i]? := by
  have hlast : compounds ⟨text, target, (k, c) :: context⟩ =
      compounds ⟨text, c, context⟩ ++ [target] := by simp [compounds]
  rw [hlast, List.getElem?_append_left (by simpa [compounds] using Nat.lt_succ_of_le h)]

theorem counts_cons (hi : i ≤ context.length) :
    Counts ⟨text, target, (k, c) :: context⟩ i ↔
      k ≠ .sibling ∧ Counts ⟨text, c, context⟩ i := by
  constructor
  · intro h
    refine ⟨fun hk => h context.length hi ?_, fun j hj hsome => h j hj ?_⟩
    · rw [getElem?_combinators_length, hk]
    · have hlt := (List.getElem?_eq_some_iff.1 hsome).1
      rw [length_combinators] at hlt
      rw [getElem?_combinators_cons hlt, hsome]
  · rintro ⟨hk, h⟩ j hj hsome
    have hle := (List.getElem?_eq_some_iff.1 hsome).1
    rw [length_combinators, List.length_cons] at hle
    rcases Nat.lt_succ_iff_lt_or_eq.1 hle with hlt | rfl
    · rw [getElem?_combinators_cons hlt] at hsome
      exact h j hj hsome
    · rw [getElem?_combinators_length] at hsome
      exact hk (Option.some.inj hsome)

/-- What is assigned to further places makes no difference. -/
theorem Assigns.congr {s : Selector} (h : s.Assigns doc e a)
    (hab : ∀ i, i ≤ s.context.length → a i = b i) : s.Assigns doc e b where
  target := by rw [← hab _ (Nat.le_refl _), h.target]
  mem i hi hle := by
    rw [← hab i hle]
    exact h.mem i hi hle
  fits i c hi hc := by
    have hlt := (List.getElem?_eq_some_iff.1 hc).1
    rw [length_compounds, length_combinators] at hlt
    rw [← hab i (Nat.le_of_lt_succ hlt)]
    exact h.fits i c hi hc
  child i hi hk := by
    have hlt := (List.getElem?_eq_some_iff.1 hk).1
    rw [length_combinators] at hlt
    rw [← hab i (Nat.le_of_lt hlt), ← hab (i + 1) hlt]
    exact h.child i hi hk
  descendant i hi hk := by
    have hlt := (List.getElem?_eq_some_iff.1 hk).1
    rw [length_combinators] at hlt
    rw [← hab i (Nat.le_of_lt hlt), ← hab (i + 1) hlt]
    exact h.descendant i hi hk

/-- The last compound is assigned the element itself. -/
theorem Assigns.last {s : Selector} (h : s.Assigns doc e a) :
    e ∈ doc.toList ∧ s.target.Fits e.features := by
  have hmem := h.mem _ s.counts_length (Nat.le_refl _)
  have hfits := h.fits _ s.target s.counts_length getElem?_compounds_length
  rw [h.target] at hmem hfits
  exact ⟨hmem, hfits⟩

/-- Where only the last compound counts, the element itself is all that is assigned. -/
theorem assigns_of_counts {s : Selector} (hcounts : ∀ i, s.Counts i → s.context.length ≤ i)
    (hmem : e ∈ doc.toList) (hfits : s.target.Fits e.features) : s.Assigns doc e fun _ => e := by
  have hnone : ∀ i, s.Counts i → s.combinators[i]? = none := by
    intro i hi
    rw [List.getElem?_eq_none_iff, length_combinators]
    exact hcounts i hi
  refine ⟨rfl, fun _ _ _ => hmem, fun i c hi hc => ?_, fun i hi hk => ?_, fun i hi hk => ?_⟩
  · have hlt := (List.getElem?_eq_some_iff.1 hc).1
    rw [length_compounds, length_combinators] at hlt
    obtain rfl := Nat.le_antisymm (Nat.le_of_lt_succ hlt) (hcounts i hi)
    rw [getElem?_compounds_length, Option.some.injEq] at hc
    rw [← hc]
    exact hfits
  · rw [hnone i hi] at hk
    contradiction
  · rw [hnone i hi] at hk
    contradiction

/-- In front of a combinator that is no sibling combinator stands an element with an assignment of
its own, in the relation to the element that the combinator asks for. -/
theorem Assigns.front (h : Assigns ⟨text, target, (k, c) :: context⟩ doc e a)
    (hk : k ≠ .sibling) :
    Assigns ⟨text, c, context⟩ doc (a context.length) a ∧
      (k = .child → doc.parent? e = some (a context.length)) ∧
      (k = .descendant → doc.IsAncestor (a context.length) e) := by
  have hcounts : ∀ i, i ≤ context.length → Counts ⟨text, c, context⟩ i →
      Counts ⟨text, target, (k, c) :: context⟩ i :=
    fun i hi h => (counts_cons hi).2 ⟨hk, h⟩
  have hlast := hcounts context.length (Nat.le_refl _) (counts_length ⟨text, c, context⟩)
  have htarget : a (context.length + 1) = e := h.target
  refine ⟨⟨rfl, fun i hi hle => ?_, fun i d hi hd => ?_, fun i hi hc => ?_, fun i hi hc => ?_⟩,
    ?_, ?_⟩
  · exact h.mem i (hcounts i hle hi) (Nat.le_succ_of_le hle)
  · have hlt := (List.getElem?_eq_some_iff.1 hd).1
    rw [length_compounds, length_combinators] at hlt
    have hle := Nat.le_of_lt_succ hlt
    exact h.fits i d (hcounts i hle hi) (by rw [getElem?_compounds_cons hle, hd])
  · have hlt := (List.getElem?_eq_some_iff.1 hc).1
    rw [length_combinators] at hlt
    exact h.child i (hcounts i (Nat.le_of_lt hlt) hi) (by rw [getElem?_combinators_cons hlt, hc])
  · have hlt := (List.getElem?_eq_some_iff.1 hc).1
    rw [length_combinators] at hlt
    exact h.descendant i (hcounts i (Nat.le_of_lt hlt) hi)
      (by rw [getElem?_combinators_cons hlt, hc])
  · rintro rfl
    rw [← htarget]
    exact h.child context.length hlast getElem?_combinators_length
  · rintro rfl
    rw [← htarget]
    exact h.descendant context.length hlast getElem?_combinators_length

/-- An assignment in front of a combinator goes on to an element in the relation asked for. -/
theorem Assigns.extend {p : Element} (h : Assigns ⟨text, c, context⟩ doc p a)
    (hmem : e ∈ doc.toList) (hfits : target.Fits e.features)
    (hchild : k = .child → doc.parent? e = some p)
    (hdescendant : k = .descendant → doc.IsAncestor p e) :
    Assigns ⟨text, target, (k, c) :: context⟩ doc e
      (Function.update a (context.length + 1) e) := by
  have hlast : Function.update a (context.length + 1) e (context.length + 1) = e :=
    Function.update_self _ _ _
  have hfront : ∀ i, i ≤ context.length → Function.update a (context.length + 1) e i = a i :=
    fun i hi => Function.update_of_ne (Nat.ne_of_lt (Nat.lt_succ_of_le hi)) _ _
  have hp : a context.length = p := h.target
  have hcounts : ∀ i, i ≤ context.length → Counts ⟨text, target, (k, c) :: context⟩ i →
      Counts ⟨text, c, context⟩ i :=
    fun i hi h => ((counts_cons hi).1 h).2
  -- places up to `context.length` are those of the assignment in front, the next one is the last
  have hplaces : ∀ i, i ≤ context.length + 1 → i ≤ context.length ∨ i = context.length + 1 :=
    fun i hi => Nat.le_succ_iff.1 hi
  refine ⟨hlast, fun i hi hle => ?_, fun i d hi hd => ?_, fun i hi hc => ?_, fun i hi hc => ?_⟩
  · rcases hplaces i hle with hle | rfl
    · rw [hfront i hle]
      exact h.mem i (hcounts i hle hi) hle
    · rw [hlast]
      exact hmem
  · have hlt := (List.getElem?_eq_some_iff.1 hd).1
    rw [length_compounds, length_combinators] at hlt
    rcases hplaces i (Nat.le_of_lt_succ hlt) with hle | rfl
    · rw [getElem?_compounds_cons hle] at hd
      rw [hfront i hle]
      exact h.fits i d (hcounts i hle hi) hd
    · rw [hlast, ← Option.some.inj (getElem?_compounds_length.symm.trans hd)]
      exact hfits
  all_goals
    have hle := (List.getElem?_eq_some_iff.1 hc).1
    rw [length_combinators] at hle
    rcases Nat.lt_succ_iff_lt_or_eq.1 hle with hlt | rfl
  · rw [getElem?_combinators_cons hlt] at hc
    rw [hfront i (Nat.le_of_lt hlt), hfront (i + 1) hlt]
    exact h.child i (hcounts i (Nat.le_of_lt hlt) hi) hc
  · rw [hfront _ (Nat.le_refl _), hlast, hp]
    exact hchild (Option.some.inj (getElem?_combinators_length.symm.trans hc))
  · rw [getElem?_combinators_cons hlt] at hc
    rw [hfront i (Nat.le_of_lt hlt), hfront (i + 1) hlt]
    exact h.descendant i (hcounts i (Nat.le_of_lt hlt) hi) hc
  · rw [hfront _ (Nat.le_refl _), hlast, hp]
    exact hdescendant (Option.some.inj (getElem?_combinators_length.symm.trans hc))

/-- The constraints fit on the way up exactly if elements can be assigned. -/
theorem fits_iff_exists_assigns (he : e ∈ doc.toList) :
    (target.describes e.features = true ∧
      contextFits context ((doc.ancestors e).map (·.features)) = true) ↔
      ∃ a, Assigns ⟨text, target, context⟩ doc e a := by
  induction context generalizing target e with
  | nil =>
      constructor
      · rintro ⟨htarget, -⟩
        have hfits := Compound.describes_iff.1 htarget
        exact ⟨_, assigns_of_counts (fun _ _ => Nat.zero_le _) he hfits⟩
      · rintro ⟨a, h⟩
        exact ⟨Compound.describes_iff.2 h.last.2, rfl⟩
  | cons link context ih =>
      obtain ⟨k, c⟩ := link
      rw [Compound.describes_iff]
      cases k with
      | sibling =>
          constructor
          · rintro ⟨htarget, -⟩
            refine ⟨_, assigns_of_counts (fun i hi => ?_) he htarget⟩
            by_contra hlt
            exact ((counts_cons (Nat.le_of_lt_succ (Nat.not_le.1 hlt))).1 hi).1 rfl
          · rintro ⟨a, h⟩
            exact ⟨h.last.2, rfl⟩
      | child =>
          cases hparent : doc.parent? e with
          | none =>
              rw [Document.ancestors_of_parent?_eq_none hparent]
              constructor
              · rintro ⟨-, h⟩
                contradiction
              · rintro ⟨a, h⟩
                rw [(h.front (by decide)).2.1 rfl] at hparent
                contradiction
          | some p =>
              rw [Document.ancestors_of_parent? hparent, List.map_cons, contextFits,
                Bool.and_eq_true, ih (Document.mem_toList_of_parent? hparent)]
              constructor
              · rintro ⟨htarget, a, h⟩
                exact ⟨_, h.extend he htarget (fun _ => hparent) (by simp)⟩
              · rintro ⟨a, h⟩
                obtain ⟨hfront, hchild, -⟩ := h.front (by decide)
                obtain rfl := Option.some.inj (hparent.symm.trans (hchild rfl))
                exact ⟨h.last.2, a, hfront⟩
      | descendant =>
          simp only [contextFits, someAncestor_ancestors, List.any_eq_true,
            Document.mem_ancestors_iff, Bool.and_eq_true]
          constructor
          · rintro ⟨htarget, p, hp, htest⟩
            rw [ih (Document.mem_toList_of_isAncestor hp)] at htest
            obtain ⟨a, h⟩ := htest
            exact ⟨_, h.extend he htarget (by simp) fun _ => hp⟩
          · rintro ⟨a, h⟩
            obtain ⟨hfront, -, hancestor⟩ := h.front (by decide)
            refine ⟨h.last.2, a context.length, hancestor rfl, ?_⟩
            rw [ih (Document.mem_toList_of_isAncestor (hancestor rfl))]
            exact ⟨a, hfront⟩

end Assignments

/-! ## Searching by places -/

/-- The parent of an element, if it has one; nothing if the place of the parent is not in the
document. -/
def lookUpParent? (doc : Document) (e : Element) : Option (Option Element) :=
  match e.parent with
  | none => some none
  | some p => (doc.get? p).map some

/-- The ancestors of an element, nearest first; nothing if a place is not in the document or the
root is not reached in the given number of steps. -/
def lookUpAncestors? (doc : Document) : Nat → Element → Option (List Element)
  | 0, _ => none
  | steps + 1, e => do
    match ← lookUpParent? doc e with
    | none => return []
    | some p => return p :: (← lookUpAncestors? doc steps p)

/-- Searches for elements that fit the compounds up to a place, with an element at that place;
nothing if a compound, a combinator or an element is looked up that is not there, or if a walk to
the root takes more steps than the document has elements. -/
def search? (compounds : List Compound) (combinators : List Combinator) (doc : Document) :
    Nat → Element → Option Bool
  | 0, e => do return (← compounds[0]?).describes e.features
  | i + 1, e => do
    if (← compounds[i + 1]?).describes e.features then
      match ← combinators[i]? with
      | .sibling => return true
      | .child =>
        match ← lookUpParent? doc e with
        | none => return false
        | some p => search? compounds combinators doc i p
      | .descendant =>
        (← lookUpAncestors? doc doc.size e).anyM (search? compounds combinators doc i)
    else return false

section Search

variable {text : String} {target : Compound} {context : List (Combinator × Compound)}

theorem lookUpParent?_eq (he : e ∈ doc.toList) : lookUpParent? doc e = some (doc.parent? e) := by
  obtain ⟨i, hi⟩ := Document.exists_get?_of_mem_toList he
  unfold lookUpParent? Document.parent?
  cases hparent : e.parent with
  | none => rfl
  | some p =>
      have hlt := Nat.lt_trans (Document.parent_lt hi hparent) (Array.getElem?_eq_some_iff.1 hi).1
      have hget : doc.get? p = some doc.elements[p] := Array.getElem?_eq_getElem hlt
      simp [hget]

theorem lookUpAncestors?_eq (he : e ∈ doc.toList) {steps : Nat} (hsteps : e.index < steps) :
    lookUpAncestors? doc steps e = some (doc.ancestors e) := by
  induction steps generalizing e with
  | zero => contradiction
  | succ steps ih =>
      rw [lookUpAncestors?, lookUpParent?_eq he]
      cases hparent : doc.parent? e with
      | none => simp [Document.ancestors_of_parent?_eq_none hparent]
      | some p =>
          have hp := Document.mem_toList_of_parent? hparent
          have hlt := Document.index_lt_of_parent? he hparent
          have hrest := ih hp (Nat.lt_of_lt_of_le hlt (Nat.le_of_lt_succ hsteps))
          simp [hrest, Document.ancestors_of_parent? hparent]

theorem anyM_some {α : Type} {f : α → Option Bool} {g : α → Bool} {as : List α}
    (h : ∀ a ∈ as, f a = some (g a)) : as.anyM f = some (as.any g) := by
  induction as with
  | nil => rfl
  | cons a as ih =>
      obtain ⟨ha, has⟩ := List.forall_mem_cons.1 h
      rw [List.anyM, ha, List.any_cons]
      cases hg : g a with
      | true => simp
      | false => simp [ih has]

/-- Nothing that is looked up is missing, and what is found by places is found on the way up. -/
theorem search?_eq (compounds : List Compound) (combinators : List Combinator)
    (he : e ∈ doc.toList) :
    search? ((context.map (·.2)).reverse ++ target :: compounds)
        ((context.map (·.1)).reverse ++ combinators) doc context.length e =
      some (target.describes e.features &&
        contextFits context ((doc.ancestors e).map (·.features))) := by
  induction context generalizing target e compounds combinators with
  | nil => simp [search?, contextFits]
  | cons link context ih =>
      obtain ⟨k, c⟩ := link
      have hcompound : (((k, c) :: context).map (·.2)).reverse ++ target :: compounds =
          (context.map (·.2)).reverse ++ c :: target :: compounds := by simp
      have hcombinator : (((k, c) :: context).map (·.1)).reverse ++ combinators =
          (context.map (·.1)).reverse ++ k :: combinators := by simp
      have htarget :
          ((context.map (·.2)).reverse ++ c :: target :: compounds)[context.length + 1]? =
            some target := by simp
      have hk : ((context.map (·.1)).reverse ++ k :: combinators)[context.length]? = some k := by
        simp
      rw [hcompound, hcombinator, List.length_cons, search?, htarget, Option.bind_eq_bind,
        Option.bind_some]
      cases target.describes e.features with
      | false => rfl
      | true =>
          simp only [if_true, Bool.true_and, hk, Option.bind_eq_bind, Option.bind_some]
          cases k with
          | sibling => rfl
          | child =>
              simp only [lookUpParent?_eq he, Option.bind_some]
              cases hparent : doc.parent? e with
              | none => rw [Document.ancestors_of_parent?_eq_none hparent]; rfl
              | some p =>
                  rw [Document.ancestors_of_parent? hparent]
                  exact ih _ _ (Document.mem_toList_of_parent? hparent)
          | descendant =>
              simp only [lookUpAncestors?_eq he (Document.index_lt_size he), Option.bind_some]
              rw [contextFits, someAncestor_ancestors]
              exact anyM_some fun a ha => ih _ _ (Document.mem_toList_of_mem_ancestors ha)

end Search

/-- The search for an element with the compounds and combinators of a selector, which starts at the
last compound. -/
def searchFrom? (s : Selector) (doc : Document) (e : Element) : Option Bool :=
  search? s.compounds s.combinators doc s.combinators.length e

/-- A selector that can be read and has a constraint on its target applies to an element of a
document exactly if elements can be assigned to its compounds; the search by places always comes to
that result, without looking up anything that is not there. -/
theorem applies_iff_assigns {text : String} {s : Selector} (hs : compile? text = some s)
    (doc : Document) {e : Element} (he : e ∈ doc.toList) :
    (s.applies ((doc.lineage e).map (·.features)) = true ↔ ∃ a, s.Assigns doc e a) ∧
      s.searchFrom? doc e = some (s.applies ((doc.lineage e).map (·.features))) := by
  obtain ⟨t, target, context⟩ := s
  have htarget : target.isEmpty = false := by
    unfold compile? at hs
    split at hs
    · split at hs
      · contradiction
      · next hnonempty =>
          cases hs
          simpa using hnonempty
    · contradiction
  have happlies : applies ⟨t, target, context⟩ ((doc.lineage e).map (·.features)) =
      (target.describes e.features &&
        contextFits context ((doc.ancestors e).map (·.features))) := by
    rw [Document.lineage_eq_cons, List.map_cons, applies, htarget]
    rfl
  rw [happlies]
  refine ⟨?_, ?_⟩
  · rw [Bool.and_eq_true]
    exact fits_iff_exists_assigns he
  · have hsearch : search? ((context.map (·.2)).reverse ++ [target])
        ((context.map (·.1)).reverse ++ []) doc context.length e = _ := search?_eq [] [] he
    rw [List.append_nil] at hsearch
    rw [searchFrom?, length_combinators]
    exact hsearch

end Selector

namespace Nested

/-- A body with two divisions inside one another, and a paragraph in the inner one. -/
def document : Document :=
  (((Document.empty.attach { features := { tag := "body" } } none).attach
    { features := { tag := "div" } } (some 0)).attach
    { features := { tag := "div" } } (some 1)).attach
    { features := { tag := "p" }, hasText := true } (some 2)

/-- The paragraph in the inner division. -/
def paragraph : Element :=
  { features := { tag := "p" }, hasText := true, index := 3, parent := some 2 }

/-- The selector `body > div p`. -/
def selector : Selector :=
  ⟨"body>div p", { tag := some "p" },
    [(.descendant, { tag := some "div" }), (.child, { tag := some "body" })]⟩

/-- The parent of the paragraph is a division, but only the division around it is a child of the
body. -/
theorem applies_iff_assigns_paragraph :
    Selector.compile? "body > div p" = some selector ∧ paragraph ∈ document.toList ∧
      (∃ a, selector.Assigns document paragraph a) ∧
      selector.searchFrom? document paragraph = some true := by
  have hcompile : Selector.compile? "body > div p" = some selector := by decide +kernel
  have hmem : paragraph ∈ document.toList := by decide
  have happlies : selector.applies ((document.lineage paragraph).map (·.features)) = true := by
    decide +kernel
  obtain ⟨hassigns, hsearch⟩ := Selector.applies_iff_assigns hcompile document hmem
  rw [happlies] at hsearch
  exact ⟨hcompile, hmem, hassigns.1 happlies, hsearch⟩

end Nested

end ContrastAudit
