import Gatehouse.Gate.Basic
import Gatehouse.Proofs.Gate.Serving
/-!
# The life of a gate

A life is a list of calls to a gate, with what its loop does between them: the loop may take any
number of turns before the next call, and may have ended by then. The signal that stopping raises
may be noticed at any point of a turn, so turns carry their own raisings; `stop` only adds that the
turn it waits for notices the signal in any case.

All the turns in a life make up one run of the loop, and the gate is where that run and the calls
have brought it.

* `start_idle`, `start_else`, `stop_idle`, `stop_running`, `stop_stopped` — what a call does;
* `life_of_idle`, `life_of_running`, `life_of_stopped` — what a life does.
-/

namespace Gatehouse

/-- The turn, with the signal raised before it is read for the loop. -/
def Turn.signaled (t : Turn) : Turn := { t with raisedInCall := true }

namespace Gate

/-- A call to a gate, or what its loop does between two calls. -/
inductive Action where
  | start
  /-- `last` is the turn that the stopping gate waits for, unless its loop has ended -/
  | stop (last : Turn)
  | observe
  | advance (turns : List Turn)
deriving DecidableEq

def Action.isStart : Action → Bool
  | .start => true
  | _ => false

def Action.isStop : Action → Bool
  | .stop _ => true
  | _ => false

/-- What an action leads to. -/
def act (g : Gate) : Action → Report
  | .start => g.start
  | .stop last => g.stop last
  | .observe => { gate := g }
  | .advance turns => g.run turns

/-- The gate after some actions. -/
def after (g : Gate) (actions : List Action) : Gate :=
  actions.foldl (fun g action => (g.act action).gate) g

/-- What happens to streams in the course of some actions. -/
def lifeEvents (g : Gate) : List Action → List StreamEvent
  | [] => []
  | action :: actions => (g.act action).events ++ (g.act action).gate.lifeEvents actions

/-- The turns that are given to the loop in the course of some actions, `started` saying whether
the gate has been started before. -/
def turnsGiven (started : Bool) : List Action → List Turn
  | [] => []
  | .start :: actions => turnsGiven true actions
  | .stop last :: _ => if started then [last.signaled] else []
  | .observe :: actions => turnsGiven started actions
  | .advance turns :: actions => (if started then turns else []) ++ turnsGiven started actions

theorem after_append (g : Gate) (actions later : List Action) :
    g.after (actions ++ later) = (g.after actions).after later :=
  List.foldl_append

theorem lifeEvents_append (g : Gate) (actions later : List Action) :
    g.lifeEvents (actions ++ later) =
      g.lifeEvents actions ++ (g.after actions).lifeEvents later := by
  induction actions generalizing g with
  | nil => rfl
  | cons action actions ih =>
      rw [List.cons_append, lifeEvents, lifeEvents, ih, List.append_assoc]
      rfl

/-! ## What raising the signal from outside does to a turn -/

end Gate

namespace Acceptor

/-- Raising the signal before a turn is raising it in the call to the listener. -/
theorem turn_fired (a : Acceptor) (t : Turn) :
    ({ a with trigger := a.trigger.fire }.turn t).acceptor = (a.turn t.signaled).acceptor ∧
      ({ a with trigger := a.trigger.fire }.turn t).ending = (a.turn t.signaled).ending ∧
      ({ a with trigger := a.trigger.fire }.turn t).events = (a.turn t.signaled).events := by
  have hfire : (raiseIf t.raisedInCall a.trigger.fire).1 =
      (raiseIf t.signaled.raisedInCall a.trigger).1 := by
    cases htrigger : a.trigger <;> cases t.raisedInCall <;> rfl
  unfold turn
  simp only [hfire]
  exact ⟨rfl, rfl, rfl⟩

end Acceptor

namespace ServeLoop

variable {l : ServeLoop}

/-- The turn with which a signaled loop ends. -/
theorem turn_signal (running : l.ending = none) (last : Turn) :
    (l.signal.turn last).loop = (l.run [last.signaled]).loop ∧
      (l.signal.turn last).events = (l.run [last.signaled]).events := by
  obtain ⟨hloop, hevents⟩ := run_singleton running last.signaled
  obtain ⟨h1, h2, h3⟩ := Acceptor.turn_fired l.acceptor last
  rw [hloop, hevents]
  simp [turn, signal, hasEnded, running, h1, h2, h3]

/-- A loop that is signaled ends with the next turn, unless it has ended before. -/
theorem ended_of_signaled (l : ServeLoop) (last : Turn) :
    (l.run [last.signaled]).loop.ending ≠ none := by
  by_cases running : l.ending = none
  · have raised : (l.acceptor.triggerAtLoop last.signaled).isRaised = true := by
      unfold Acceptor.triggerAtLoop Acceptor.raiseIf Turn.signaled
      cases l.acceptor.trigger <;> rfl
    rw [(run_singleton running _).1, (turn_running running _).1]
    simp [endOf?, (Acceptor.turn_signaled raised).2.1, Acceptor.TurnEnd.loopEnd?]
  · rwa [run_ended running]

end ServeLoop

namespace Gate

variable {g : Gate} {l : ServeLoop}

/-! ## What a call does -/

theorem start_idle (h : g.phase = .idle l) :
    g.start.gate = { g with phase := .running l } ∧ g.start.result = .ok () ∧
      g.start.events = [] := by
  simp [start, h]

/-- A gate that is not idle refuses to start, and that is all. -/
theorem start_else (h : ∀ l, g.phase ≠ .idle l) :
    g.start = { gate := g, result := .error (.alreadyStarted g.name) } := by
  unfold start
  split
  · exact absurd ‹_› (h _)
  all_goals rfl

theorem run_running (h : g.phase = .running l) (turns : List Turn) :
    (g.run turns).gate = { g with phase := .running (l.run turns).loop } ∧
      (g.run turns).events = (l.run turns).events := by
  simp [run, h]

theorem run_else (h : ∀ l, g.phase ≠ .running l) (turns : List Turn) :
    (g.run turns).gate = g ∧ (g.run turns).events = [] := by
  unfold run
  split
  · exact absurd ‹_› (h _)
  all_goals exact ⟨rfl, rfl⟩

theorem stop_idle (h : g.phase = .idle l) (last : Turn) :
    (g.stop last).gate = { g with phase := .stopped } ∧ (g.stop last).result = .ok () ∧
      (g.stop last).events = [] := by
  simp [stop, requestStop, awaitLoop, h]

theorem stop_running (h : g.phase = .running l) (last : Turn) :
    (g.stop last).gate = { g with phase := .stopped } ∧
      (g.stop last).result = g.resultOf ((l.run [last.signaled]).loop.ending.getD .finished) ∧
      (g.stop last).events = (l.run [last.signaled]).events := by
  by_cases running : l.ending = none
  · obtain ⟨hloop, hevents⟩ := ServeLoop.turn_signal running last
    simp only [stop, requestStop, awaitLoop, h, hloop, hevents, List.nil_append, true_and]
    exact ⟨rfl, trivial⟩
  · have hturn : l.signal.turn last = { loop := l.signal } := by
      simp [ServeLoop.turn, ServeLoop.signal, ServeLoop.hasEnded,
        Option.isSome_iff_ne_none.mpr running]
    rw [ServeLoop.run_ended running]
    simp only [stop, requestStop, awaitLoop, h, hturn, List.nil_append, true_and]
    exact ⟨rfl, trivial⟩

/-- A gate that is stopped stays so. -/
theorem stop_stopped (h : g.phase = .stopped) (last : Turn) : g.stop last = { gate := g } := by
  simp [stop, requestStop, awaitLoop, h]

/-! ## What a life does -/

theorem act_stopped (h : g.phase = .stopped) (action : Action) :
    (g.act action).gate = g ∧ (g.act action).events = [] := by
  cases action with
  | start => exact ⟨by rw [act, start_else (by simp [h])], by rw [act, start_else (by simp [h])]⟩
  | stop last => exact ⟨by rw [act, stop_stopped h], by rw [act, stop_stopped h]⟩
  | observe => exact ⟨rfl, rfl⟩
  | advance turns => exact run_else (by simp [h]) turns

/-- A life goes on from the gate that its first action leaves. -/
theorem life_cons {g' : Gate} {events : List StreamEvent} (action : Action)
    (hgate : (g.act action).gate = g') (hevents : (g.act action).events = events)
    (actions : List Action) :
    g.after (action :: actions) = g'.after actions ∧
      g.lifeEvents (action :: actions) = events ++ g'.lifeEvents actions := by
  rw [← hgate, ← hevents]
  exact ⟨rfl, rfl⟩

theorem life_of_stopped (h : g.phase = .stopped) (actions : List Action) :
    g.after actions = g ∧ g.lifeEvents actions = [] := by
  induction actions with
  | nil => exact ⟨rfl, rfl⟩
  | cons action actions ih =>
      obtain ⟨hgate, hevents⟩ := act_stopped h action
      obtain ⟨hafter, hlater⟩ := life_cons action hgate hevents actions
      rw [hafter, hlater]
      exact ih

/-- The life of a gate whose loop is under way is a run of it. -/
theorem life_of_running (h : g.phase = .running l) (actions : List Action) :
    g.after actions = { g with
      phase := if actions.any Action.isStop then .stopped
        else .running (l.run (turnsGiven true actions)).loop } ∧
      g.lifeEvents actions = (l.run (turnsGiven true actions)).events := by
  induction actions generalizing g l with
  | nil =>
      refine ⟨?_, rfl⟩
      show g = { g with phase := .running l }
      rw [← h]
  | cons action actions ih =>
      cases action with
      | start =>
          have hact : g.act .start = { gate := g, result := .error (.alreadyStarted g.name) } :=
            start_else (by simp [h])
          obtain ⟨hafter, hlater⟩ := life_cons .start (congrArg Report.gate hact)
            (congrArg Report.events hact) actions
          rw [hafter, hlater]
          exact ih h
      | observe => exact ih h
      | stop last =>
          obtain ⟨hgate, -, hevents⟩ := stop_running h last
          obtain ⟨hafter, hlater⟩ := life_cons (.stop last) hgate hevents actions
          obtain ⟨hrest, hsilent⟩ := life_of_stopped (g := { g with phase := .stopped }) rfl actions
          rw [hafter, hlater, hrest, hsilent, List.append_nil]
          exact ⟨rfl, rfl⟩
      | advance turns =>
          obtain ⟨hgate, hevents⟩ := run_running h turns
          obtain ⟨hafter, hlater⟩ := life_cons (.advance turns) hgate hevents actions
          obtain ⟨hrest, hmore⟩ := ih (g := { g with phase := .running (l.run turns).loop }) rfl
          obtain ⟨hloop, hall⟩ := ServeLoop.run_append l turns (turnsGiven true actions)
          rw [hafter, hlater, hrest, hmore, turnsGiven, if_pos rfl, hloop, hall]
          exact ⟨rfl, rfl⟩

/-- The life of a new gate is a run of its loop on the turns that are given to it. -/
theorem life_of_idle (h : g.phase = .idle l) (actions : List Action) :
    g.after actions = { g with
      phase := if actions.any Action.isStop then .stopped
        else if actions.any Action.isStart then
          .running (l.run (turnsGiven false actions)).loop
        else .idle l } ∧
      g.lifeEvents actions = (l.run (turnsGiven false actions)).events := by
  induction actions with
  | nil =>
      refine ⟨?_, rfl⟩
      show g = { g with phase := .idle l }
      rw [← h]
  | cons action actions ih =>
      cases action with
      | start =>
          obtain ⟨hgate, -, hevents⟩ := start_idle h
          obtain ⟨hafter, hlater⟩ := life_cons .start hgate hevents actions
          obtain ⟨hrest, hmore⟩ := life_of_running (g := { g with phase := .running l }) rfl actions
          rw [hafter, hlater, hrest, hmore]
          exact ⟨rfl, rfl⟩
      | observe => exact ih
      | stop last =>
          obtain ⟨hgate, -, hevents⟩ := stop_idle h last
          obtain ⟨hafter, hlater⟩ := life_cons (.stop last) hgate hevents actions
          obtain ⟨hrest, hsilent⟩ := life_of_stopped (g := { g with phase := .stopped }) rfl actions
          rw [hafter, hlater, hrest, hsilent]
          exact ⟨rfl, rfl⟩
      | advance turns =>
          obtain ⟨hgate, hevents⟩ := run_else (g := g) (by simp [h]) turns
          obtain ⟨hafter, hlater⟩ := life_cons (.advance turns) hgate hevents actions
          rw [hafter, hlater]
          exact ih

end Gate

end Gatehouse
