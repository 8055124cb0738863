import ContrastAudit.Watch.Event

/-!
# The watch loop

The loop waits until a relevant change is pending, lets editors finish, clears the pending mark and
runs the audit again.  Changes may come in at any time; one that comes in behind the clearing stays
pending until the loop waits again.

**Results.**
* `phase_turn`: a turn of the loop ends where it began, waiting.
-/

namespace ContrastAudit.Watch

/-- What the loop is about to do. -/
inductive Phase
  | waiting
  | settling
  | clearing
  | starting
  | running
  deriving DecidableEq, Repr

/-- The loop and the mark of pending changes. -/
structure State where
  phase : Phase := .waiting
  pending : Bool := false
  deriving DecidableEq, Repr

namespace State

/-- The state after a change has come in. -/
def receive (s : State) (relevant : Bool) : State :=
  { s with pending := s.pending || relevant }

/-- The state after the next step of the loop; waiting for a change that is not there is no step. -/
def advance (s : State) : State :=
  match s.phase with
  | .waiting => if s.pending then { s with phase := .settling } else s
  | .settling => { s with phase := .clearing }
  | .clearing => ⟨.starting, false⟩
  | .starting => { s with phase := .running }
  | .running => { s with phase := .waiting }

end State

/-- What is noted about a turn of the loop: that nothing was pending, or that the audit was run
again and what was pending as it started. -/
inductive Note
  | idle
  | rerun (pending : Bool)
  deriving DecidableEq, Repr

/-- One turn of a waiting loop while no change comes in before the audit runs: the changes that come
in then, or while the loop is idle, are given. -/
def turn (s : State) (relevant : Bool) : Note × State :=
  let woken := s.advance
  if woken.phase = .waiting then (.idle, s.receive relevant)
  else
    let running := woken.advance.advance.advance
    (.rerun running.pending, (running.receive relevant).advance)

theorem phase_turn {s : State} (h : s.phase = .waiting) (relevant : Bool) :
    (turn s relevant).2.phase = .waiting := by
  obtain ⟨phase, pending⟩ := s
  subst h
  cases pending <;> simp [turn, State.advance, State.receive]

/-- The notes of a loop to which bursts of changes come in, one in each turn, until it is
interrupted in the turn for which there is none. -/
def run (suffixes : List String) (s : State) : List (List Change) → List Note
  | [] => [(turn s false).1]
  | burst :: bursts =>
    let (note, s) := turn s (burst.any (·.isRelevant suffixes))
    note :: run suffixes s bursts

end ContrastAudit.Watch
