import ContrastAudit.Watch.Loop

/-!
# Watching under every interleaving

Changes come in whenever they happen, also between two steps of the loop.  A history is what is seen
of a watched loop: the changes that come in and the starts of the audit.  An interruption only ends
a history, so that what holds of all histories holds of those of interrupted loops too.

The invariant is that a relevant change which no start has followed is still marked as pending or
about to be answered: the mark is taken away right in front of a start and nowhere else.  Each start
that is still due is paid for by a relevant change in the same way.

**Results.**
* `steps_turn`: a turn of the loop, with a burst of changes in it, is one of its interleavings.
* `countP_run_le`: the reruns of a loop to which bursts come in are at most as many as the relevant
  changes in them.
* `answered_of_reaches`: a loop that waits with nothing pending has answered every relevant change
  by a start behind it, and there are never more starts than relevant changes.
-/

namespace ContrastAudit.Watch

/-! ## Histories -/

/-- A change concerns some suffixes if it is not about a directory and one of the paths that it
names, which are not empty, is watched. -/
structure Change.Concerns (suffixes : List String) (c : Change) : Prop where
  file : c.isDirectory = false
  watched : ∃ text ∈ c.source :: c.target.toList,
    text ≠ "" ∧ isWatched suffixes (Path.ofText text) = true

theorem isRelevant_iff_concerns {suffixes : List String} {c : Change} :
    c.isRelevant suffixes = true ↔ c.Concerns suffixes := by
  have hpaths : c.isRelevant suffixes = true ↔ c.isDirectory = false ∧
      ∃ text ∈ c.source :: c.target.toList,
        text ≠ "" ∧ isWatched suffixes (Path.ofText text) = true := by
    simp only [Change.isRelevant, Bool.and_eq_true, Bool.not_eq_true', List.any_eq_true,
      bne_iff_ne]
  exact hpaths.trans ⟨fun h => ⟨h.1, h.2⟩, fun h => ⟨h.file, h.watched⟩⟩

instance decidableConcerns (suffixes : List String) (c : Change) :
    Decidable (c.Concerns suffixes) :=
  decidable_of_iff _ isRelevant_iff_concerns

/-- What is seen of a watched loop. -/
inductive Occurrence
  | change (c : Change)
  | start
  deriving DecidableEq, Repr

/-- Whether an occurrence is a change that concerns some suffixes. -/
def Occurrence.concerns (suffixes : List String) : Occurrence → Bool
  | .change c => decide (c.Concerns suffixes)
  | .start => false

/-- The change that comes in. -/
def Occurrence.change? : Occurrence → Option Change
  | .change c => some c
  | .start => none

/-- What is seen of the next step of the loop. -/
def State.shown (s : State) : List Occurrence :=
  if s.phase = .starting then [.start] else []

section Relation

variable (suffixes : List String)

/-- One step: a change comes in, or the loop goes on. -/
inductive Step : State → List Occurrence → State → Prop
  | receive (s : State) (c : Change) : Step s [.change c] (s.receive (c.isRelevant suffixes))
  | advance (s : State) : Step s s.shown s.advance

/-- Any number of steps, with what is seen of them. -/
inductive Steps (s : State) : List Occurrence → State → Prop
  | refl : Steps s [] s
  | next {history seen : List Occurrence} {t u : State} :
      Steps s history t → Step suffixes t seen u → Steps s (history ++ seen) u

/-- A history that leads a loop from its beginning to a state. -/
def Reaches (history : List Occurrence) (s : State) : Prop :=
  Steps suffixes {} history s

/-- Every change of a history that concerns the suffixes is followed by a start. -/
def IsAnswered (history : List Occurrence) : Prop :=
  ∀ (i : Nat) (c : Change), history[i]? = some (Occurrence.change c) → c.Concerns suffixes →
    ∃ j, i < j ∧ history[j]? = some Occurrence.start

end Relation

section Turns

variable {suffixes : List String} {history seen : List Occurrence} {s t u : State}

theorem Steps.trans (h : Steps suffixes s history t) (h' : Steps suffixes t seen u) :
    Steps suffixes s (history ++ seen) u := by
  induction h' with
  | refl => rwa [List.append_nil]
  | next _ hstep ih =>
      rw [← List.append_assoc]
      exact ih.next hstep

theorem Steps.advance (h : Steps suffixes s history t) :
    Steps suffixes s (history ++ t.shown) t.advance :=
  h.next (.advance t)

/-- A burst of changes comes in one by one. -/
theorem steps_receive (s : State) (burst : List Change) :
    Steps suffixes s (burst.map .change) (s.receive (burst.any (·.isRelevant suffixes))) := by
  induction burst generalizing s with
  | nil =>
      have hnothing : s.receive false = s := congrArg (State.mk s.phase) (Bool.or_false _)
      rw [List.any_nil, hnothing]
      exact .refl
  | cons c burst ih =>
      have hrest := ih (s.receive (c.isRelevant suffixes))
      have hboth : (s.receive (c.isRelevant suffixes)).receive
          (burst.any (·.isRelevant suffixes)) =
          s.receive ((c :: burst).any (·.isRelevant suffixes)) := by
        simp only [State.receive, List.any_cons, Bool.or_assoc]
      rw [hboth] at hrest
      exact (Steps.refl.next (.receive s c)).trans hrest

/-- What is seen of a turn with a note, while a burst of changes comes in. -/
def Note.occurrences (burst : List Change) : Note → List Occurrence
  | .idle => burst.map .change
  | .rerun _ => .start :: burst.map .change

/-- A turn of a waiting loop is one of its interleavings. -/
theorem steps_turn (h : s.phase = .waiting) (burst : List Change) :
    Steps suffixes s ((turn s (burst.any (·.isRelevant suffixes))).1.occurrences burst)
      (turn s (burst.any (·.isRelevant suffixes))).2 := by
  obtain ⟨phase, pending⟩ := s
  subst h
  cases pending with
  | false => exact steps_receive _ burst
  | true =>
      -- four steps up to the start, the burst while the audit runs, and one step back
      have hstart : Steps suffixes ⟨.waiting, true⟩ [.start] ⟨.running, false⟩ :=
        Steps.refl.advance.advance.advance.advance
      have hburst := hstart.trans (steps_receive ⟨.running, false⟩ burst)
      have hback := hburst.advance
      have hquiet : (State.receive ⟨.running, false⟩ (burst.any (·.isRelevant suffixes))).shown =
          [] := rfl
      rw [hquiet, List.append_nil] at hback
      exact hback

theorem count_occurrences (note : Note) (burst : List Change) :
    (note.occurrences burst).count .start = [note].countP (· != .idle) := by
  have hburst : (burst.map Occurrence.change).count .start = 0 :=
    List.count_eq_zero.2 fun h => by
      obtain ⟨c, -, hc⟩ := List.mem_map.1 h
      cases hc
  cases note with
  | idle => exact hburst
  | rerun pending =>
      rw [Note.occurrences, List.count_cons_self, hburst]
      rfl

theorem changes_occurrences (note : Note) (burst : List Change) :
    (note.occurrences burst).filterMap Occurrence.change? = burst := by
  have hburst : (burst.map Occurrence.change).filterMap Occurrence.change? = burst := by
    rw [List.filterMap_map]
    exact List.filterMap_some
  cases note with
  | idle => exact hburst
  | rerun pending => exact hburst

/-- The notes of a loop are taken at one of its interleavings, with a start for each rerun. -/
theorem exists_steps_run (h : s.phase = .waiting) (bursts : List (List Change)) :
    ∃ history t, Steps suffixes s history t ∧
      history.count .start = (run suffixes s bursts).countP (· != .idle) ∧
      history.filterMap Occurrence.change? = bursts.flatten := by
  induction bursts generalizing s with
  | nil =>
      exact ⟨_, _, steps_turn h [], count_occurrences _ _, changes_occurrences _ _⟩
  | cons burst bursts ih =>
      have hphase := phase_turn h (burst.any (·.isRelevant suffixes))
      obtain ⟨history, t, hsteps, hstarts, hchanges⟩ := ih hphase
      refine ⟨_, t, (steps_turn h burst).trans hsteps, ?_, ?_⟩
      · rw [List.count_append, count_occurrences, hstarts, ← List.countP_append]
        rfl
      · rw [List.filterMap_append, changes_occurrences, hchanges, List.flatten_cons]

end Turns

section Answers

variable {suffixes : List String} {history : List Occurrence}

theorem isAnswered_nil : IsAnswered suffixes [] := by
  intro i c hi
  simp at hi

/-- A start answers everything in front of it. -/
theorem isAnswered_concat_start : IsAnswered suffixes (history ++ [.start]) := by
  intro i c hi _
  rcases Nat.lt_or_ge i history.length with hlt | hge
  · exact ⟨history.length, hlt, by simp⟩
  · rw [List.getElem?_append_right hge, List.getElem?_singleton] at hi
    split at hi <;> cases hi

/-- A change that concerns nobody needs no answer. -/
theorem IsAnswered.concat_change (h : IsAnswered suffixes history) {c : Change}
    (hc : ¬ c.Concerns suffixes) : IsAnswered suffixes (history ++ [.change c]) := by
  intro i d hi hd
  rcases Nat.lt_or_ge i history.length with hlt | hge
  · rw [List.getElem?_append_left hlt] at hi
    obtain ⟨j, hij, hj⟩ := h i d hi hd
    obtain ⟨hjlt, -⟩ := List.getElem?_eq_some_iff.1 hj
    exact ⟨j, hij, by rw [List.getElem?_append_left hjlt, hj]⟩
  · rw [List.getElem?_append_right hge, List.getElem?_singleton] at hi
    split at hi
    · cases hi
      exact absurd hd hc
    · cases hi

end Answers

/-! ## The invariant -/

/-- The number of starts that are still due: one for the mark, and one between the clearing and the
start that it is for. -/
def State.due (s : State) : Nat :=
  (if s.pending then 1 else 0) + if s.phase = .starting then 1 else 0

/-- What a history and the state that it leads to have to do with each other. -/
structure Accounts (suffixes : List String) (history : List Occurrence) (s : State) : Prop where
  /-- Between waking up and clearing, a change is pending. -/
  marked : s.phase = .settling ∨ s.phase = .clearing → s.pending = true
  answered : s.due = 0 → IsAnswered suffixes history
  bounded : history.count .start + s.due ≤ history.countP (·.concerns suffixes)

section Invariant

variable {suffixes : List String} {history seen : List Occurrence} {s t : State}

theorem accounts_nil : Accounts suffixes [] {} where
  marked h := by rcases h with h | h <;> cases h
  answered _ := isAnswered_nil
  bounded := Nat.le_refl 0

/-- A change makes at most one more start due. -/
theorem due_receive_le (s : State) (relevant : Bool) : (s.receive relevant).due ≤ s.due + 1 := by
  obtain ⟨phase, pending⟩ := s
  cases pending <;> cases relevant <;> simp [State.due, State.receive, Nat.add_comm]

theorem count_concat_change (c : Change) :
    (history ++ [Occurrence.change c]).count .start = history.count .start := by
  simp [List.count_append]

/-- A change that concerns the suffixes leaves its mark, whatever the loop is about to do. -/
theorem Accounts.receive (h : Accounts suffixes history s) (c : Change) :
    Accounts suffixes (history ++ [.change c]) (s.receive (c.isRelevant suffixes)) := by
  obtain ⟨hmarked, hanswered, hbounded⟩ := h
  by_cases hc : c.Concerns suffixes
  · have hpending : (s.receive (c.isRelevant suffixes)).pending = true := by
      rw [isRelevant_iff_concerns.2 hc]
      exact Bool.or_true _
    have hconcerns : Occurrence.concerns suffixes (.change c) = true := decide_eq_true hc
    refine ⟨fun _ => hpending, fun hdue => ?_, ?_⟩
    · simp [State.due, hpending] at hdue
    · have hdue := due_receive_le s (c.isRelevant suffixes)
      rw [count_concat_change, List.countP_append, List.countP_singleton, if_pos hconcerns]
      omega
  · have hnothing : s.receive (c.isRelevant suffixes) = s := by
      rw [Bool.eq_false_iff.2 (mt isRelevant_iff_concerns.1 hc)]
      exact congrArg (State.mk s.phase) (Bool.or_false _)
    rw [hnothing]
    refine ⟨hmarked, fun hdue => (hanswered hdue).concat_change hc, ?_⟩
    rw [count_concat_change, List.countP_append]
    exact Nat.le_trans hbounded (Nat.le_add_right _ _)

/-- A mark is only missing where the loop waits, has just cleared it, or is running. -/
theorem marked_advance (h : s.phase = .settling ∨ s.phase = .clearing → s.pending = true) :
    s.advance.phase = .settling ∨ s.advance.phase = .clearing → s.advance.pending = true := by
  obtain ⟨phase, pending⟩ := s
  cases phase with
  | waiting => cases pending <;> simp [State.advance]
  | settling => exact fun _ => h (.inl rfl)
  | clearing => simp [State.advance]
  | starting => simp [State.advance]
  | running => simp [State.advance]

/-- Clearing turns the mark into a start that is due; the start itself is all that pays. -/
theorem due_advance (h : s.phase = .settling ∨ s.phase = .clearing → s.pending = true) :
    s.due = s.advance.due + s.shown.length := by
  obtain ⟨phase, pending⟩ := s
  cases phase with
  | waiting => cases pending <;> rfl
  | settling => rfl
  | clearing =>
      obtain rfl : pending = true := h (.inr rfl)
      rfl
  | starting => rfl
  | running => rfl

theorem Accounts.advance (h : Accounts suffixes history s) :
    Accounts suffixes (history ++ s.shown) s.advance := by
  obtain ⟨hmarked, hanswered, hbounded⟩ := h
  have hdue := due_advance hmarked
  refine ⟨marked_advance hmarked, fun hzero => ?_, ?_⟩
  · unfold State.shown at hdue ⊢
    split
    · exact isAnswered_concat_start
    · next hphase =>
        rw [if_neg hphase, List.length_nil] at hdue
        rw [List.append_nil]
        exact hanswered (by omega)
  · unfold State.shown at hdue ⊢
    split
    · next hphase =>
        rw [if_pos hphase, List.length_singleton] at hdue
        rw [List.count_append, List.count_singleton_self, List.countP_append]
        omega
    · next hphase =>
        rw [if_neg hphase, List.length_nil] at hdue
        rw [List.append_nil]
        omega

theorem Accounts.step (h : Accounts suffixes history s) (hstep : Step suffixes s seen t) :
    Accounts suffixes (history ++ seen) t := by
  cases hstep with
  | receive c => exact h.receive c
  | advance => exact h.advance

theorem accounts_of_reaches (h : Reaches suffixes history s) : Accounts suffixes history s := by
  induction h with
  | refl => exact accounts_nil
  | next _ hstep ih => exact ih.step hstep

/-- The reruns of a loop to which bursts come in are at most as many as the relevant changes. -/
theorem countP_run_le (suffixes : List String) (bursts : List (List Change)) :
    (run suffixes {} bursts).countP (· != .idle) ≤
      bursts.flatten.countP (·.isRelevant suffixes) := by
  obtain ⟨history, t, hsteps, hstarts, hchanges⟩ :=
    @exists_steps_run suffixes {} rfl bursts
  have hconcerns : history.countP (·.concerns suffixes) =
      (history.filterMap Occurrence.change?).countP (·.isRelevant suffixes) := by
    rw [List.countP_filterMap]
    refine List.countP_congr fun o _ => ?_
    cases o <;> simp [Occurrence.concerns, Occurrence.change?, isRelevant_iff_concerns]
  rw [← hstarts, ← hchanges, ← hconcerns]
  exact Nat.le_trans (Nat.le_add_right _ _) (accounts_of_reaches hsteps).bounded

end Invariant

/-- No change is lost.  Whenever the loop waits and nothing is pending, every change so far that
concerns the suffixes is followed by a start; and there are never more starts than such changes. -/
theorem answered_of_reaches {suffixes : List String} {history : List Occurrence} {s : State}
    (h : Reaches suffixes history s) :
    (s.phase = .waiting → s.pending = false →
      ∀ (i : Nat) (c : Change), history[i]? = some (.change c) → c.Concerns suffixes →
        ∃ j, i < j ∧ history[j]? = some .start) ∧
    history.count .start ≤ history.countP (·.concerns suffixes) := by
  have haccounts := accounts_of_reaches h
  refine ⟨fun hphase hpending => haccounts.answered ?_,
    Nat.le_trans (Nat.le_add_right _ _) haccounts.bounded⟩
  simp [State.due, hphase, hpending]

/-- A draft that is saved. -/
def draft : Change where
  isDirectory := false
  source := "draft.html"

theorem concerns_draft : draft.Concerns [".html"] := by
  decide

theorem steps_draft (s : State) :
    Steps [".html"] s [.change draft] { s with pending := true } := by
  have hmarks : s.receive (draft.isRelevant [".html"]) = { s with pending := true } := by
    rw [isRelevant_iff_concerns.2 concerns_draft]
    exact congrArg (State.mk s.phase) (Bool.or_true _)
  exact hmarks ▸ Steps.refl.next (.receive s draft)

/-- Three saves, of which the last one comes in between the clearing and the start behind it. -/
theorem reaches_drafts :
    Reaches [".html"] [.change draft, .change draft, .change draft, .start, .start] {} := by
  have hclearing : Reaches [".html"] [.change draft, .change draft] ⟨.starting, false⟩ :=
    ((steps_draft {}).advance.trans (steps_draft _)).advance.advance
  exact (hclearing.trans (steps_draft _)).advance.advance.advance.advance.advance.advance.advance

theorem answered_of_reaches_drafts :
    Reaches [".html"] [.change draft, .change draft, .change draft, .start, .start] {} ∧
    draft.Concerns [".html"] ∧
    (({} : State).phase = .waiting ∧ ({} : State).pending = false ∧
      ∀ (i : Nat) (c : Change),
        [Occurrence.change draft, .change draft, .change draft, .start, .start][i]? =
          some (.change c) → c.Concerns [".html"] →
        ∃ j, i < j ∧
          [Occurrence.change draft, .change draft, .change draft, .start, .start][j]? =
            some .start) ∧
    [Occurrence.change draft, .change draft, .change draft, .start, .start].count .start ≤
      [Occurrence.change draft, .change draft, .change draft, .start, .start].countP
        (·.concerns [".html"]) :=
  ⟨reaches_drafts, concerns_draft,
    ⟨rfl, rfl, (answered_of_reaches reaches_drafts).1 rfl rfl⟩,
    (answered_of_reaches reaches_drafts).2⟩

end ContrastAudit.Watch
