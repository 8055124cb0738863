import Mathlib.Data.List.Basic
import Mathlib.Data.List.Nodup

/-!
# Depth-first preorder

Two views of the order in which a depth-first search meets the nodes of a finite graph.

* `firstVisits` does not mention a search: all walks that never come to a node twice are listed
  depth first, and of the nodes they end at the first occurrences are kept.
* `Visits` is the search itself, in big steps, with one list of visited nodes for siblings and
  levels alike.

**Results.**
* `Visits.mem_iff`: the search meets exactly what can be reached around the nodes visited before.
* `Visits.nodup`: it meets no node twice.
* `Visits.eq_firstVisits`: it meets the nodes in the order of `firstVisits`.

The last result is the white-path argument.  A walk may lead through a node that the search has
left behind; but the visited nodes that do not lie on the walk to the current node are closed under
successors, so that such a walk ends at a visited node.
-/

namespace ContrastAudit

/-- A finite graph.  Only its nodes have successors, which may lie outside. -/
structure Graph (α : Type) where
  nodes : List α
  next : α → List α

namespace Graph

variable {α : Type} [DecidableEq α] (g : Graph α)

/-- The ordered successors of a node. -/
def successors (a : α) : List α :=
  if a ∈ g.nodes then g.next a else []

/-- The number of nodes that are not avoided. -/
def fresh (avoid : List α) : Nat :=
  g.nodes.countP (· ∉ avoid)

theorem fresh_le_of_subset {avoid more : List α} (h : avoid ⊆ more) :
    g.fresh more ≤ g.fresh avoid := by
  apply List.countP_mono_left
  intro a _ ha
  simp only [decide_eq_true_eq] at ha ⊢
  exact fun hm => ha (h hm)

theorem fresh_lt_of_mem {a : α} {avoid more : List α} (ha : a ∈ g.nodes) (hn : a ∉ avoid)
    (hm : a ∈ more) (h : avoid ⊆ more) : g.fresh more < g.fresh avoid := by
  unfold fresh
  obtain ⟨before, after, hs⟩ := List.append_of_mem ha
  rw [hs]
  have hb : before.countP (· ∉ more) ≤ before.countP (· ∉ avoid) :=
    fresh_le_of_subset ⟨before, g.next⟩ h
  have hl : after.countP (· ∉ more) ≤ after.countP (· ∉ avoid) :=
    fresh_le_of_subset ⟨after, g.next⟩ h
  rw [List.countP_append, List.countP_append, List.countP_cons_of_neg (by simpa using hm),
    List.countP_cons_of_pos (by simpa using hn)]
  omega

/-- The ends of the walks from some nodes that avoid some nodes and never come to a node twice,
depth first. -/
def walkEnds (avoid : List α) : List α → List α
  | [] => []
  | a :: starts =>
    if a ∈ avoid then walkEnds avoid starts
    else a :: walkEnds (a :: avoid) (g.successors a) ++ walkEnds avoid starts
termination_by starts => (g.fresh avoid, starts.length)
decreasing_by
  · exact Prod.Lex.right _ (Nat.lt_succ_self _)
  · by_cases ha : a ∈ g.nodes
    · exact Prod.Lex.left _ _
        (g.fresh_lt_of_mem ha ‹_› List.mem_cons_self (List.subset_cons_self _ _))
    · rw [successors, if_neg ha, Prod.lex_def]
      rcases Nat.lt_or_eq_of_le (g.fresh_le_of_subset (List.subset_cons_self a avoid)) with h | h
      · exact .inl h
      · exact .inr ⟨h, Nat.succ_pos _⟩
  · exact Prod.Lex.right _ (Nat.lt_succ_self _)

/-- What can be visited from some nodes, in depth-first preorder of the first visits. -/
def firstVisits (avoid starts : List α) : List α :=
  (g.walkEnds avoid starts).eraseDups

/-- A node is reached from some nodes by a walk that avoids some nodes. -/
inductive Reaches (avoid starts : List α) : α → Prop
  | start {a : α} : a ∈ starts → a ∉ avoid → Reaches avoid starts a
  | step {a b : α} : Reaches avoid starts a → b ∈ g.successors a → b ∉ avoid →
      Reaches avoid starts b

/-- A depth-first search from some nodes, where some nodes are visited already, visits the nodes of
a list in this order. -/
inductive Visits : List α → List α → List α → Prop
  | nil (seen : List α) : Visits seen [] []
  | skip {a : α} {seen starts order : List α} :
      a ∈ seen → Visits seen starts order → Visits seen (a :: starts) order
  | visit {a : α} {seen starts below order : List α} :
      a ∉ seen → Visits (seen ++ [a]) (g.successors a) below →
      Visits (seen ++ [a] ++ below) starts order → Visits seen (a :: starts) (a :: below ++ order)

variable {g}

namespace Reaches

theorem mono {avoid less starts more : List α} {b : α} (ha : less ⊆ avoid) (hs : starts ⊆ more)
    (h : g.Reaches avoid starts b) : g.Reaches less more b := by
  induction h with
  | start hb hn => exact .start (hs hb) fun hl => hn (ha hl)
  | step _ hb hn ih => exact .step ih hb fun hl => hn (ha hl)

theorem trans {avoid less starts : List α} {a b : α} (hl : less ⊆ avoid)
    (ha : g.Reaches less starts a) (h : g.Reaches avoid (g.successors a) b) :
    g.Reaches less starts b := by
  induction h with
  | start hb hn => exact .step ha hb fun hm => hn (hl hm)
  | step _ hb hn ih => exact .step ih hb fun hm => hn (hl hm)

theorem cons_iff_of_mem {avoid starts : List α} {a b : α} (ha : a ∈ avoid) :
    g.Reaches avoid (a :: starts) b ↔ g.Reaches avoid starts b := by
  refine ⟨fun h => ?_, mono (List.Subset.refl _) (List.subset_cons_self _ _)⟩
  induction h with
  | start hb hn =>
      rcases List.mem_cons.1 hb with rfl | hb
      · exact absurd ha hn
      · exact .start hb hn
  | step _ hb hn ih => exact .step ih hb hn

end Reaches

namespace Visits

variable {seen starts order : List α}

theorem not_mem_seen (h : g.Visits seen starts order) {a : α} (ha : a ∈ order) : a ∉ seen := by
  induction h with
  | nil => simp at ha
  | skip _ _ ih => exact ih ha
  | visit hn _ _ ihb iho =>
      rcases List.mem_append.1 ha with hc | ho
      · rcases List.mem_cons.1 hc with rfl | hb
        · exact hn
        · exact fun hs => ihb hb (List.mem_append_left _ hs)
      · exact fun hs => iho ho (by simp [hs])

theorem nodup (h : g.Visits seen starts order) : order.Nodup := by
  induction h with
  | nil => exact List.nodup_nil
  | skip _ _ ih => exact ih
  | @visit a seen starts below order _ hb ho ihb iho =>
      have apart : ∀ b ∈ a :: below, b ∉ order := by
        intro b hm hbo
        have := ho.not_mem_seen hbo
        rcases List.mem_cons.1 hm with rfl | hm <;> simp_all
      have ha : a ∉ below := fun hm => hb.not_mem_seen hm (by simp)
      exact (List.nodup_cons.2 ⟨ha, ihb⟩).append iho apart

/-- Every visited node is reached. -/
theorem reaches (h : g.Visits seen starts order) {b : α} (hb : b ∈ order) :
    g.Reaches seen starts b := by
  induction h with
  | nil => simp at hb
  | skip _ _ ih => exact (ih hb).mono (List.Subset.refl _) (List.subset_cons_self _ _)
  | @visit a seen starts below order hn _ _ ihb iho =>
      have ha : g.Reaches seen (a :: starts) a := .start List.mem_cons_self hn
      rcases List.mem_append.1 hb with hc | ho
      · rcases List.mem_cons.1 hc with rfl | hb
        · exact ha
        · exact ha.trans (List.subset_append_left _ _) (ihb hb)
      · exact (iho ho).mono (by simp) (List.subset_cons_self _ _)

/-- Where the search starts it has been afterwards. -/
theorem mem_of_mem_starts (h : g.Visits seen starts order) {a : α} (ha : a ∈ starts) :
    a ∈ seen ++ order := by
  induction h with
  | nil => simp at ha
  | skip hs _ ih =>
      rcases List.mem_cons.1 ha with rfl | ha
      · exact List.mem_append_left _ hs
      · exact ih ha
  | visit _ _ _ _ iho =>
      rcases List.mem_cons.1 ha with rfl | ha
      · simp
      · simpa [List.append_assoc] using iho ha

/-- What the search visits is closed under successors, up to what was visited before. -/
theorem successors_subset (h : g.Visits seen starts order) {a : α} (ha : a ∈ order) :
    g.successors a ⊆ seen ++ order := by
  induction h with
  | nil => simp at ha
  | skip _ _ ih => exact ih ha
  | @visit c seen starts below order _ hb _ ihb iho =>
      intro b hs
      have inner : b ∈ seen ++ [c] ++ below → b ∈ seen ++ (c :: below ++ order) := by
        simp only [List.mem_append, List.mem_cons, List.not_mem_nil, or_false]
        tauto
      rcases List.mem_append.1 ha with hc | ho
      · rcases List.mem_cons.1 hc with rfl | hm
        · exact inner (hb.mem_of_mem_starts hs)
        · exact inner (ihb hm hs)
      · simpa [List.append_assoc] using iho ho hs

theorem mem_iff (h : g.Visits seen starts order) {b : α} :
    b ∈ order ↔ g.Reaches seen starts b := by
  refine ⟨h.reaches, fun hr => ?_⟩
  induction hr with
  | start hs hn => exact (List.mem_append.1 (h.mem_of_mem_starts hs)).resolve_left hn
  | step _ hs hn ih => exact (List.mem_append.1 (h.successors_subset ih hs)).resolve_left hn

end Visits

/-! ## The order of first visits -/

section WalkEnds

variable {avoid seen starts : List α}

@[simp] theorem walkEnds_nil : g.walkEnds avoid [] = [] := by
  rw [walkEnds]

theorem walkEnds_of_mem {a : α} (h : a ∈ avoid) :
    g.walkEnds avoid (a :: starts) = g.walkEnds avoid starts := by
  rw [walkEnds, if_pos h]

theorem walkEnds_of_not_mem {a : α} (h : a ∉ avoid) :
    g.walkEnds avoid (a :: starts) =
      a :: (g.walkEnds (a :: avoid) (g.successors a) ++ g.walkEnds avoid starts) := by
  rw [walkEnds, if_neg h, List.cons_append]

theorem not_mem_of_mem_walkEnds {b : α} (h : b ∈ g.walkEnds avoid starts) : b ∉ avoid := by
  fun_induction walkEnds g avoid starts with
  | case1 => simp at h
  | case2 _ _ _ _ ih => exact ih h
  | case3 avoid a starts hn ihb ihs =>
      rcases List.mem_append.1 h with hc | hs
      · rcases List.mem_cons.1 hc with rfl | hb
        · exact hn
        · exact fun hm => ihb hb (List.mem_cons_of_mem _ hm)
      · exact ihs hs

/-- A walk does not leave a set that is closed under successors where the walk may go. -/
theorem walkEnds_subset (hs : starts ⊆ seen)
    (hc : ∀ a ∈ seen, a ∉ avoid → g.successors a ⊆ seen) : g.walkEnds avoid starts ⊆ seen := by
  fun_induction walkEnds g avoid starts with
  | case1 => simp
  | case2 _ _ _ _ ih => exact ih (List.subset_of_cons_subset hs) hc
  | case3 avoid a starts hn ihb ihs =>
      have ha : a ∈ seen := hs List.mem_cons_self
      have below := ihb (hc a ha hn) fun b hb hm => hc b hb fun h => hm (List.mem_cons_of_mem _ h)
      have rest := ihs (List.subset_of_cons_subset hs) hc
      exact List.append_subset.2 ⟨List.cons_subset.2 ⟨ha, below⟩, rest⟩

end WalkEnds

/-- The nodes of a list that are not visited yet. -/
def unseen (seen l : List α) : List α :=
  l.filter (· ∉ seen)

theorem unseen_append (seen l m : List α) : unseen seen (l ++ m) = unseen seen l ++ unseen seen m :=
  List.filter_append ..

theorem unseen_eq_nil {seen l : List α} (h : l ⊆ seen) : unseen seen l = [] := by
  simpa [unseen] using fun a ha => h ha

theorem unseen_unseen (seen more l : List α) :
    unseen more (unseen seen l) = unseen (seen ++ more) l := by
  simp only [unseen, List.filter_filter, List.mem_append, not_or, Bool.decide_and, Bool.and_comm]

theorem removeAll_eq_unseen (l m : List α) : l.removeAll m = unseen m l := by
  simp [List.removeAll, unseen]

/-- Of a list that starts with a new node, the node comes first and is visited then. -/
theorem eraseDups_unseen_cons {seen : List α} {a : α} (h : a ∉ seen) (l : List α) :
    (unseen seen (a :: l)).eraseDups = a :: (unseen (seen ++ [a]) l).eraseDups := by
  have hc : unseen seen (a :: l) = a :: unseen seen l := by simp [unseen, h]
  have hf : (unseen seen l).filter (fun b => !b == a) = unseen [a] (unseen seen l) := by
    simp only [unseen, List.mem_singleton, decide_not]
    rfl
  rw [hc, List.eraseDups_cons, hf, unseen_unseen]

/-- What two lists add to the visited nodes, one after the other. -/
theorem eraseDups_unseen_append (seen l m : List α) :
    (unseen seen (l ++ m)).eraseDups =
      (unseen seen l).eraseDups ++ (unseen (seen ++ (unseen seen l).eraseDups) m).eraseDups := by
  have same : unseen (unseen seen l) = unseen (α := α) (unseen seen l).eraseDups := by
    funext k
    simp [unseen, List.mem_eraseDups]
  rw [unseen_append, List.eraseDups_append, removeAll_eq_unseen, same, unseen_unseen]

/-- The new ends of walks, in the order of their first occurrences, are what the search visits.  The
walks only avoid what lies on the way to the current node; `hc` says that the search has left the
other visited nodes behind. -/
theorem Visits.eraseDups_unseen_walkEnds {seen starts order : List α}
    (h : g.Visits seen starts order) {avoid : List α} (ha : avoid ⊆ seen)
    (hc : ∀ a ∈ seen, a ∉ avoid → g.successors a ⊆ seen) :
    (unseen seen (g.walkEnds avoid starts)).eraseDups = order := by
  induction h generalizing avoid with
  | nil => simp [unseen]
  | @skip a seen starts order hs _ ih =>
      by_cases hm : a ∈ avoid
      · rw [walkEnds_of_mem hm]
        exact ih ha hc
      · have below : g.walkEnds (a :: avoid) (g.successors a) ⊆ seen :=
          walkEnds_subset (hc a hs hm) fun b hb hn =>
            hc b hb fun hv => hn (List.mem_cons_of_mem _ hv)
        rw [walkEnds_of_not_mem hm, ← List.cons_append, unseen_append,
          unseen_eq_nil (List.cons_subset.2 ⟨hs, below⟩), List.nil_append]
        exact ih ha hc
  | @visit a seen starts below order hn hb _ ihb iho =>
      have onPath : a :: avoid ⊆ seen ++ [a] := by
        intro b hm
        rcases List.mem_cons.1 hm with rfl | hm
        · simp
        · simp [ha hm]
      have behind : ∀ b ∈ seen ++ [a], b ∉ a :: avoid → g.successors b ⊆ seen ++ [a] := by
        intro b hm hv
        simp only [List.mem_cons, not_or] at hv
        have hs : b ∈ seen := by simpa [hv.1] using hm
        exact List.Subset.trans (hc b hs hv.2) (List.subset_append_left _ _)
      have behindBelow :
          ∀ b ∈ seen ++ [a] ++ below, b ∉ avoid → g.successors b ⊆ seen ++ [a] ++ below := by
        intro b hm hv
        rcases List.mem_append.1 hm with hm | hm
        · by_cases hba : b = a
          · subst hba
            exact fun c hs => hb.mem_of_mem_starts hs
          · have hs : b ∈ seen := by simpa [hba] using hm
            exact List.Subset.trans (hc b hs hv) (by simp [List.append_assoc])
        · exact hb.successors_subset hm
      rw [walkEnds_of_not_mem fun hm => hn (ha hm), eraseDups_unseen_cons hn,
        eraseDups_unseen_append, ihb onPath behind,
        iho (List.Subset.trans ha (by simp [List.append_assoc])) behindBelow, List.cons_append]

theorem Visits.eq_firstVisits {seen starts order : List α} (h : g.Visits seen starts order) :
    order = g.firstVisits seen starts := by
  have all : unseen seen (g.walkEnds seen starts) = g.walkEnds seen starts :=
    List.filter_eq_self.2 fun b hb => by simpa using not_mem_of_mem_walkEnds hb
  rw [firstVisits, ← all]
  exact (h.eraseDups_unseen_walkEnds (List.Subset.refl _) fun a hs hn => absurd hs hn).symm

end Graph

end ContrastAudit
