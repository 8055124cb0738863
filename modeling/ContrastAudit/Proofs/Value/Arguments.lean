import ContrastAudit.Value.Arguments

/-!
# Cutting arguments

How a sequence is cut at its first comma.

**Results.**
* `splitCommas_of_no_comma`: a sequence without a comma is one argument.
* `splitCommas_append_cut`: the first comma of a sequence is where the first cut is made.
-/

namespace ContrastAudit.Component

theorem isLeaf_eq_true_iff {kind : LeafKind} {c : Component} :
    c.isLeaf kind = true ↔ ∃ text, c = .leaf kind text := by
  cases c <;> simp [isLeaf]

/-- None of the components is a comma. -/
def NoComma (cs : List Component) : Prop :=
  ∀ c ∈ cs, c.isComma = false

theorem noComma_cons {c : Component} {cs : List Component} :
    NoComma (c :: cs) ↔ c.isComma = false ∧ NoComma cs := by
  simp [NoComma]

theorem NoComma.append {cs ds : List Component} (hcs : NoComma cs) (hds : NoComma ds) :
    NoComma (cs ++ ds) :=
  fun c hc => (List.mem_append.1 hc).elim (hcs c) (hds c)

/-- White space is no comma. -/
theorem noComma_of_isSpace {cs : List Component} (h : ∀ c ∈ cs, c.isSpace = true) :
    NoComma cs := by
  intro c hc
  obtain ⟨text, rfl⟩ := isLeaf_eq_true_iff.1 (h c hc)
  rfl

@[simp] theorem splitCommas_zero (cs : List Component) :
    splitCommas (some 0) cs = [cs] := by
  induction cs with
  | nil => rfl
  | cons c cs ih => simp [splitCommas, ih]

theorem splitCommas_of_no_comma {cs : List Component} (h : NoComma cs) (limit : Option Nat) :
    splitCommas limit cs = [cs] := by
  induction cs with
  | nil => rfl
  | cons c cs ih =>
      obtain ⟨hc, hcs⟩ := noComma_cons.1 h
      simp [splitCommas, hc, ih hcs]

/-- The first comma of a sequence is where the first cut is made. -/
theorem splitCommas_append_cut {cs : List Component} (h : NoComma cs) {comma : Component}
    (hcomma : comma.isComma = true) {limit : Option Nat} (hlimit : limit ≠ some 0)
    (ds : List Component) :
    splitCommas limit (cs ++ comma :: ds) = cs :: splitCommas (limit.map (· - 1)) ds := by
  induction cs with
  | nil => simp [splitCommas, hcomma, hlimit]
  | cons c cs ih =>
      obtain ⟨hc, hcs⟩ := noComma_cons.1 h
      simp [splitCommas, hc, ih hcs]

/-- A single cut is made at the first comma. -/
theorem splitCommas_append_comma {cs : List Component} (h : NoComma cs) {comma : Component}
    (hcomma : comma.isComma = true) (ds : List Component) :
    splitCommas (some 1) (cs ++ comma :: ds) = [cs, ds] := by
  rw [splitCommas_append_cut h hcomma (by simp), Option.map_some, Nat.sub_self, splitCommas_zero]

/-- Where all cuts are made, one of them is made at the first comma. -/
theorem splitCommas_none_append {cs : List Component} (h : NoComma cs) {comma : Component}
    (hcomma : comma.isComma = true) (ds : List Component) :
    splitCommas none (cs ++ comma :: ds) = cs :: splitCommas none ds :=
  splitCommas_append_cut h hcomma (by simp) ds

/-- Nothing is trimmed of components none of which is white space. -/
theorem stripSpace_of_forall {cs : List Component} (h : ∀ c ∈ cs, c.isSpace = false) :
    stripSpace cs = cs := by
  have hdrop : ∀ ds : List Component, (∀ c ∈ ds, c.isSpace = false) →
      ds.dropWhile isSpace = ds := by
    intro ds hds
    cases ds with
    | nil => rfl
    | cons d ds => simp [hds d List.mem_cons_self]
  rw [stripSpace, hdrop cs h, hdrop cs.reverse (by simpa using h), List.reverse_reverse]

theorem stripSpace_cons {space : Component} (hspace : space.isSpace = true)
    (cs : List Component) : stripSpace (space :: cs) = stripSpace cs := by
  rw [stripSpace, stripSpace, List.dropWhile_cons_of_pos hspace]

theorem filter_dropWhile_isSpace (cs : List Component) :
    (cs.dropWhile isSpace).filter (fun c => !c.isSpace) = cs.filter fun c => !c.isSpace := by
  induction cs with
  | nil => rfl
  | cons c cs ih =>
      cases hc : c.isSpace with
      | true => simpa [hc] using ih
      | false => simp [hc]

/-- Trimming takes nothing but white space. -/
theorem filter_stripSpace (cs : List Component) :
    (stripSpace cs).filter (fun c => !c.isSpace) = cs.filter fun c => !c.isSpace := by
  rw [stripSpace, List.filter_reverse, filter_dropWhile_isSpace, List.filter_reverse,
    List.reverse_reverse, filter_dropWhile_isSpace]

/-- A sequence has no comma, or it has a first one. -/
theorem noComma_or_exists_comma (cs : List Component) :
    NoComma cs ∨
      ∃ front comma rest, cs = front ++ comma :: rest ∧ NoComma front ∧ comma.isComma = true := by
  induction cs with
  | nil =>
      left
      intro c hc
      simp at hc
  | cons c cs ih =>
      by_cases hc : c.isComma = true
      · exact Or.inr ⟨[], c, cs, rfl, by simp [NoComma], hc⟩
      · have hfalse : c.isComma = false := by simpa using hc
        rcases ih with hno | ⟨front, comma, rest, rfl, hfront, hcomma⟩
        · exact Or.inl (noComma_cons.2 ⟨hfalse, hno⟩)
        · exact Or.inr ⟨c :: front, comma, rest, rfl, noComma_cons.2 ⟨hfalse, hfront⟩, hcomma⟩

/-- A sequence has two arguments if it has one comma. -/
theorem splitArguments_eq_pair_iff {components first second : List Component} :
    splitArguments none components = [first, second] ↔
      ∃ front comma back, components = front ++ comma :: back ∧ comma.isComma = true ∧
        NoComma front ∧ NoComma back ∧ first = stripSpace front ∧
        second = stripSpace back := by
  constructor
  · intro h
    rw [splitArguments] at h
    rcases noComma_or_exists_comma components with hno | ⟨front, comma, rest, rfl, hfront, hcomma⟩
    · rw [splitCommas_of_no_comma hno] at h
      cases h
    · rw [splitCommas_none_append hfront hcomma, List.map_cons, List.cons.injEq] at h
      obtain ⟨rfl, h⟩ := h
      rcases noComma_or_exists_comma rest with hno | ⟨front', comma', rest', rfl, hfront', hcomma'⟩
      · rw [splitCommas_of_no_comma hno] at h
        cases h
        exact ⟨front, comma, rest, rfl, hcomma, hfront, hno, rfl, rfl⟩
      · rw [splitCommas_none_append hfront' hcomma', List.map_cons, List.cons.injEq,
          List.map_eq_nil_iff] at h
        exact absurd h.2 (splitCommas_ne_nil _ _)
  · rintro ⟨front, comma, back, rfl, hcomma, hfront, hback, rfl, rfl⟩
    rw [splitArguments, splitCommas_none_append hfront hcomma, splitCommas_of_no_comma hback]
    rfl

end ContrastAudit.Component
