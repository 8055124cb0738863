import Mathlib.Data.List.Induction
import ContrastAudit.Analysis.Auditor
import ContrastAudit.Style.Cascade

/-!
# Winning declarations

Of a list of rules, those take part that are not marked as ignored and whose selectors apply to the
element.  Each of them offers its declarations that answer for the property asked for.

**Results.**
* `best_eq_some_iff_wins`: no declaration wins exactly if none is offered, and otherwise the winner
  is the last one of the greatest specificity, so that of two lists of rules the later one decides
  unless the winner of the earlier one is more specific.
-/

namespace ContrastAudit

namespace Cascade

/-! ## What rules offer -/

/-- A declaration is of the property asked for, or a background shorthand where the background color
is asked for. -/
def Answers (d : Declaration) (property : String) : Prop :=
  d.property = property ∨ (property = "background-color" ∧ d.property = "background")

theorem answers_iff {d : Declaration} {property : String} :
    d.answers property = true ↔ Answers d property := by
  simp [Declaration.answers, Answers]

/-- A rule that is not ignored applies with its selector to the first element of a lineage. -/
structure TakesPart (lineage : List Features) (rule : Rule) (s : Selector) : Prop where
  notIgnored : rule.ignored = false
  compiles : Selector.compile? rule.selector = some s
  applies : s.applies lineage = true

/-- A rule takes part and has a declaration for a property. -/
def Offers (lineage : List Features) (property : String) (rule : Rule) (s : Selector) : Prop :=
  TakesPart lineage rule s ∧ ∃ d ∈ rule.declarations, Answers d property

/-- A declaration of some rules wins if it is the last one in its rule that answers, no rule before
offers one with a greater specificity, and no rule behind one with an equal or greater
specificity. -/
inductive Wins (lineage : List Features) (property : String) (rules : List Rule) : Winner → Prop
  | intro {before after : List Rule} {rule : Rule} {s : Selector} {front back : List Declaration}
      {d : Declaration} :
      rules = before ++ rule :: after →
      rule.declarations = front ++ d :: back →
      TakesPart lineage rule s →
      Answers d property →
      (∀ d' ∈ back, ¬ Answers d' property) →
      (∀ r ∈ before, ∀ t, Offers lineage property r t → t.specificity ≤ s.specificity) →
      (∀ r ∈ after, ∀ t, Offers lineage property r t → t.specificity < s.specificity) →
      Wins lineage property rules ⟨d, s.specificity, rule.selector⟩

section Offers

variable {lineage : List Features} {property : String} {rule : Rule} {rules : List Rule}
  {s t : Selector} {w : Winner}

theorem TakesPart.selector_eq (hs : TakesPart lineage rule s) (ht : TakesPart lineage rule t) :
    s = t :=
  Option.some.inj (hs.compiles.symm.trans ht.compiles)

theorem candidates_of_takesPart (h : TakesPart lineage rule s) :
    candidates lineage property rule =
      (rule.declarations.filter (·.answers property)).map fun d =>
        ⟨d, s.specificity, rule.selector⟩ := by
  rw [candidates, h.notIgnored, h.compiles]
  simp [h.applies]

/-- A rule has candidates exactly if it offers a declaration. -/
theorem mem_candidates_iff :
    w ∈ candidates lineage property rule ↔
      ∃ s, TakesPart lineage rule s ∧
        ∃ d ∈ rule.declarations, Answers d property ∧ ⟨d, s.specificity, rule.selector⟩ = w := by
  constructor
  · intro h
    have hpart : ∃ s, TakesPart lineage rule s := by
      unfold candidates at h
      split at h
      · simp at h
      · next hignored =>
          split at h
          · simp at h
          · next s hs =>
              split at h
              · next happlies => exact ⟨s, by simpa using hignored, hs, happlies⟩
              · simp at h
    obtain ⟨s, hs⟩ := hpart
    rw [candidates_of_takesPart hs, List.mem_map] at h
    obtain ⟨d, hd, rfl⟩ := h
    obtain ⟨hmem, hanswers⟩ := List.mem_filter.1 hd
    exact ⟨s, hs, d, hmem, answers_iff.1 hanswers, rfl⟩
  · rintro ⟨s, hs, d, hmem, hanswers, rfl⟩
    rw [candidates_of_takesPart hs]
    exact List.mem_map.2 ⟨d, List.mem_filter.2 ⟨hmem, answers_iff.2 hanswers⟩, rfl⟩

theorem exists_last_of_answers {ds : List Declaration} (h : ∃ d ∈ ds, Answers d property) :
    ∃ front d back, ds = front ++ d :: back ∧ Answers d property ∧
      ∀ d' ∈ back, ¬ Answers d' property := by
  induction ds with
  | nil => simp at h
  | cons d ds ih =>
      by_cases hds : ∃ d' ∈ ds, Answers d' property
      · obtain ⟨front, last, back, rfl, hlast, hback⟩ := ih hds
        exact ⟨d :: front, last, back, rfl, hlast, hback⟩
      · obtain ⟨d', hd', hanswers⟩ := h
        rcases List.mem_cons.1 hd' with rfl | hd'
        · exact ⟨[], d', ds, rfl, hanswers, fun x hx hx' => hds ⟨x, hx, hx'⟩⟩
        · exact absurd ⟨d', hd', hanswers⟩ hds

/-! ## Winners of rules -/

/-- Nothing that is offered is more specific than a winner. -/
theorem Wins.specificity_le (h : Wins lineage property rules w) {r : Rule} (hr : r ∈ rules)
    (ht : Offers lineage property r t) : t.specificity ≤ w.specificity := by
  obtain ⟨rfl, -, hpart, -, -, hbefore, hafter⟩ := h
  rcases List.mem_append.1 hr with hr | hr
  · exact hbefore r hr t ht
  · rcases List.mem_cons.1 hr with rfl | hr
    · exact Nat.le_of_eq (congrArg Selector.specificity (ht.1.selector_eq hpart))
    · exact Nat.le_of_lt (hafter r hr t ht)

theorem Wins.cons (h : Wins lineage property rules w)
    (hrule : ∀ s, Offers lineage property rule s → s.specificity ≤ w.specificity) :
    Wins lineage property (rule :: rules) w := by
  obtain ⟨rfl, hdeclarations, hpart, hanswers, hback, hbefore, hafter⟩ := h
  refine .intro (List.cons_append ..).symm hdeclarations hpart hanswers hback ?_ hafter
  exact List.forall_mem_cons.2 ⟨hrule, hbefore⟩

theorem exists_wins_of_offers (h : Offers lineage property rule s)
    (hrules : ∀ r ∈ rules, ∀ t, Offers lineage property r t → t.specificity < s.specificity) :
    ∃ w, Wins lineage property (rule :: rules) w := by
  obtain ⟨hpart, hsome⟩ := h
  obtain ⟨front, d, back, hdeclarations, hanswers, hback⟩ := exists_last_of_answers hsome
  exact ⟨_, .intro (List.nil_append _).symm hdeclarations hpart hanswers hback (by simp) hrules⟩

/-- Where something is offered, something wins. -/
theorem exists_wins (h : ∃ r ∈ rules, ∃ t, Offers lineage property r t) :
    ∃ w, Wins lineage property rules w := by
  induction rules with
  | nil => simp at h
  | cons rule rules ih =>
      by_cases hrules : ∃ r ∈ rules, ∃ t, Offers lineage property r t
      · obtain ⟨w, hw⟩ := ih hrules
        by_cases hbetter : ∃ s, Offers lineage property rule s ∧ w.specificity < s.specificity
        · obtain ⟨s, hs, hlt⟩ := hbetter
          exact exists_wins_of_offers hs fun r hr t ht =>
            Nat.lt_of_le_of_lt (hw.specificity_le hr ht) hlt
        · exact ⟨w, hw.cons fun s hs => Nat.not_lt.1 fun hlt => hbetter ⟨s, hs, hlt⟩⟩
      · obtain ⟨r, hr, s, hs⟩ := h
        rcases List.mem_cons.1 hr with rfl | hr
        · exact exists_wins_of_offers hs fun r' hr' t ht => absurd ⟨r', hr', t, ht⟩ hrules
        · exact absurd ⟨r, hr, s, hs⟩ hrules

/-! ## Winners of candidates -/

theorem mem_of_winner {ws : List Winner} (h : winner ws = some w) : w ∈ ws := by
  induction ws using List.reverseRecOn with
  | nil => contradiction
  | append_singleton ws x ih =>
      rw [winner_append] at h
      cases hws : winner ws with
      | none =>
          rw [hws] at h
          cases h
          simp
      | some y =>
          have hsingle : winner [x] = some x := rfl
          rw [hws, hsingle, better] at h
          split at h
          · cases h
            simp
          · cases h
            exact List.mem_append_left _ (ih hws)

/-- Of candidates that are equally specific the last one wins. -/
theorem winner_of_same {n : Nat} {ws : List Winner} (h : ∀ w ∈ ws, w.specificity = n) :
    winner ws = ws.getLast? := by
  induction ws using List.reverseRecOn with
  | nil => rfl
  | append_singleton ws w ih =>
      obtain ⟨hws, hw⟩ := List.forall_mem_append.1 h
      have hlast : w.specificity = n := hw w (List.mem_singleton_self w)
      have hsingle : winner [w] = some w := rfl
      rw [winner_append, ih hws, hsingle, List.getLast?_append, List.getLast?_singleton,
        Option.some_or]
      cases hl : ws.getLast? with
      | none => rfl
      | some w' =>
          have hle : w'.specificity ≤ w.specificity :=
            Nat.le_of_eq ((hws w' (List.mem_of_getLast? hl)).trans hlast.symm)
          rw [better, if_pos hle]

/-- The winner of some rules is offered by one of them. -/
theorem exists_offers_of_best (h : best lineage rules property = some w) :
    ∃ r ∈ rules, ∃ t, Offers lineage property r t ∧ t.specificity = w.specificity := by
  obtain ⟨r, hr, hw⟩ := List.mem_flatMap.1 (mem_of_winner h)
  obtain ⟨t, hpart, d, hd, hanswers, rfl⟩ := mem_candidates_iff.1 hw
  exact ⟨r, hr, t, ⟨hpart, d, hd, hanswers⟩, rfl⟩

/-- What a single rule offers is won by its last declaration that answers. -/
theorem winner_candidates {front back : List Declaration} {d : Declaration}
    (hdeclarations : rule.declarations = front ++ d :: back) (hpart : TakesPart lineage rule s)
    (hanswers : Answers d property) (hback : ∀ d' ∈ back, ¬ Answers d' property) :
    winner (candidates lineage property rule) = some ⟨d, s.specificity, rule.selector⟩ := by
  have hnone : back.filter (·.answers property) = [] :=
    List.filter_eq_nil_iff.2 fun d' hd' h => hback d' hd' (answers_iff.1 h)
  rw [candidates_of_takesPart hpart, hdeclarations, List.filter_append,
    List.filter_cons, if_pos (answers_iff.2 hanswers), hnone, winner_of_same, List.getLast?_map,
    List.getLast?_concat, Option.map_some]
  intro w hw
  obtain ⟨-, -, rfl⟩ := List.mem_map.1 hw
  rfl

theorem best_of_wins (h : Wins lineage property rules w) :
    best lineage rules property = some w := by
  cases h with
  | @intro before after rule s front back d hrules hdeclarations hpart hanswers hback hbefore
      hafter =>
      have hrule : best lineage [rule] property = some ⟨d, s.specificity, rule.selector⟩ := by
        rw [best, List.flatMap_singleton]
        exact winner_candidates hdeclarations hpart hanswers hback
      have hkept : better (best lineage [rule] property) (best lineage after property) =
          some ⟨d, s.specificity, rule.selector⟩ := by
        rw [hrule]
        cases hbest : best lineage after property with
        | none => rfl
        | some w =>
            obtain ⟨r, hr, t, ht, hspecificity⟩ := exists_offers_of_best hbest
            exact if_neg (hspecificity ▸ Nat.not_le.2 (hafter r hr t ht))
      rw [hrules, ← List.singleton_append, best_append, best_append, hkept]
      cases hbest : best lineage before property with
      | none => rfl
      | some w =>
          obtain ⟨r, hr, t, ht, hspecificity⟩ := exists_offers_of_best hbest
          exact if_pos (hspecificity ▸ hbefore r hr t ht)

theorem best_eq_some_iff :
    best lineage rules property = some w ↔ Wins lineage property rules w := by
  refine ⟨fun h => ?_, best_of_wins⟩
  obtain ⟨r, hr, t, ht, -⟩ := exists_offers_of_best h
  obtain ⟨w', hw'⟩ := exists_wins ⟨r, hr, t, ht⟩
  obtain rfl := Option.some.inj (h.symm.trans (best_of_wins hw'))
  exact hw'

theorem best_eq_none_iff :
    best lineage rules property = none ↔ ∀ r ∈ rules, ∀ t, ¬ Offers lineage property r t := by
  constructor
  · intro h r hr t ht
    obtain ⟨w, hw⟩ := exists_wins ⟨r, hr, t, ht⟩
    rw [best_of_wins hw] at h
    contradiction
  · intro h
    rw [Option.eq_none_iff_forall_ne_some]
    intro w hw
    obtain ⟨r, hr, t, ht, -⟩ := exists_offers_of_best hw
    exact h r hr t ht

end Offers

/-! ## Rules of several sources -/

/-- The winner of earlier rules stands against the one of later rules: there is no later one, or it
is less specific. -/
def Stands : Option Winner → Option Winner → Prop
  | _, none => True
  | none, some _ => False
  | some first, some second => second.specificity < first.specificity

instance : DecidableRel Stands
  | _, none => inferInstanceAs (Decidable True)
  | none, some _ => inferInstanceAs (Decidable False)
  | some first, some second =>
      inferInstanceAs (Decidable (second.specificity < first.specificity))

/-- The later winner, unless the earlier one stands. -/
def override (first second : Option Winner) : Option Winner :=
  if Stands first second then first else second

theorem better_eq_override (first second : Option Winner) :
    better first second = override first second := by
  cases first with
  | none => cases second <;> rfl
  | some a =>
      cases second with
      | none => rfl
      | some b =>
          by_cases h : a.specificity ≤ b.specificity
          · exact (if_pos h).trans (if_neg (Nat.not_lt.2 h)).symm
          · exact (if_neg h).trans (if_pos (Nat.not_le.1 h)).symm

/-- No declaration wins for an element exactly if none is offered, and otherwise the last one of the
greatest specificity.  Of two lists of rules the later one decides unless the winner of the earlier
one stands; so do, in this order, the linked style sheets, the configured one and the page's. -/
theorem best_eq_some_iff_wins (doc : Document) (e : Element) (property : String) :
    let lineage := (doc.lineage e).map (·.features)
    (∀ rules, best lineage rules property = none ↔
      ∀ rule ∈ rules, ∀ s, ¬ Offers lineage property rule s) ∧
    (∀ rules w, best lineage rules property = some w ↔ Wins lineage property rules w) ∧
    (∀ earlier later, best lineage (earlier ++ later) property =
      override (best lineage earlier property) (best lineage later property)) ∧
    ∀ (auditor : Auditor) (page : Markup.Page) (linked : Sheet),
      let styling := auditor.styling page linked
      let winnerOf (sheet : Sheet) :=
        best lineage (sheet.rules.map (Rule.resolve styling.properties)) property
      best lineage styling.rules property =
        override (override (winnerOf linked) (winnerOf auditor.sheet)) (winnerOf page.sheet) := by
  refine ⟨fun rules => best_eq_none_iff, fun rules w => best_eq_some_iff, fun earlier later => ?_,
    fun auditor page linked => ?_⟩
  · rw [best_append, better_eq_override]
  · simp only [← better_eq_override, ← best_append, ← List.map_append]
    rfl

end Cascade

end ContrastAudit
