import Gatehouse.Proofs.Gate.Life
/-!
# The life cycle of a gate

A gate starts at most once, goes through its states in one direction, and hands out the end of its
loop with the first call that stops it. Later calls change nothing.

* `act_forward` — no action moves the observed state back;
* `first_stop` — what the first stop answers, from the turn that ended the loop;
* `gate_life_cycle` — for every gate that is built, and every life of it.
-/

namespace Gatehouse

/-- The order in which the states of a gate come. -/
def GateState.rank : GateState → Nat
  | .idle => 0
  | .running => 1
  | .shuttingDown => 2
  | .stopped => 3

/-- The last turn of a loop that ends so; the acceptor is as it stands before that turn. -/
def LastTurn (a : Acceptor) (handler : Handler) (t : Turn) : LoopEnd → Prop
  | .finished => (a.triggerAtLoop t).isRaised = true
  | .failed e =>
      (a.triggerAtLoop t).isRaised = false ∧ t.arrival = .failure e ∧ e.isTransient = false
  | .panicked =>
      ∃ peer, (a.triggerAtLoop t).isRaised = false ∧ t.arrival = .connection peer ∧
        (a.screening t peer).verdict = .admitted ∧ handler (a.streams + 1) peer = .panics

theorem ServeLoop.lastTurn_of_endOf {l : ServeLoop} {t : Turn} {o : LoopEnd}
    (h : l.endOf? t = some o) : LastTurn l.acceptor l.handler t o := by
  unfold endOf? at h
  rcases l.acceptor.turn_ways t with raised | ⟨e, unread, harr⟩ | ⟨peer, unread, harr⟩
  · rw [(Acceptor.turn_signaled raised).2.1] at h
    cases h
    exact raised
  · rw [(Acceptor.turn_failure unread harr).2.1] at h
    cases htransient : e.isTransient with
    | true => simp [htransient, Acceptor.TurnEnd.loopEnd?] at h
    | false =>
        rw [htransient] at h
        cases h
        exact ⟨unread, harr, htransient⟩
  · rw [(Acceptor.turn_connection unread harr).2.1] at h
    cases hverdict : (l.acceptor.screening t peer).verdict with
    | rejected why => simp [hverdict, Acceptor.TurnEnd.loopEnd?] at h
    | admitted =>
        obtain ⟨hpanics, rfl⟩ : l.handler (l.acceptor.streams + 1) peer = .panics ∧
            LoopEnd.panicked = o := by
          simpa [hverdict, Acceptor.TurnEnd.loopEnd?] using h
        exact ⟨peer, unread, harr, hverdict, hpanics⟩

namespace Gate

variable {g : Gate} {l : ServeLoop}

/-! ## States -/

/-- Between two calls a gate is not being stopped. -/
def Settled (g : Gate) : Prop := ∀ loop, g.phase ≠ .stopping loop

theorem state_ne_shuttingDown (h : g.Settled) : g.state ≠ .shuttingDown := by
  unfold state
  cases hphase : g.phase with
  | stopping loop => exact absurd hphase (h loop)
  | running loop => cases hended : loop.hasEnded <;> simp [hended]
  | _ => simp

theorem state_running_le (name : String) (addr : Endpoint) (turns : List Turn) :
    (Gate.mk name addr (.running l)).state.rank ≤
      (Gate.mk name addr (.running (l.run turns).loop)).state.rank := by
  by_cases running : l.ending = none
  · have hgoes : l.hasEnded = false := by simp [ServeLoop.hasEnded, running]
    cases hended : (l.run turns).loop.hasEnded <;> simp [state, hgoes, hended, GateState.rank]
  · rw [ServeLoop.run_ended running]

/-- No action moves the observed state back. -/
theorem act_forward (h : g.Settled) (action : Action) :
    (g.act action).gate.Settled ∧ g.state.rank ≤ (g.act action).gate.state.rank := by
  cases hphase : g.phase with
  | stopping loop => exact absurd hphase (h loop)
  | stopped =>
      rw [(act_stopped hphase action).1]
      exact ⟨h, Nat.le_refl _⟩
  | idle l =>
      have hrank : g.state.rank = 0 := by simp [state, hphase, GateState.rank]
      rw [hrank]
      refine ⟨?_, Nat.zero_le _⟩
      cases action with
      | start => simp [act, (start_idle hphase).1, Settled]
      | stop last => simp [act, (stop_idle hphase last).1, Settled]
      | observe => exact h
      | advance turns =>
          rw [act, (run_else (by simp [hphase]) turns).1]
          exact h
  | running l =>
      have hg : g = ⟨g.name, g.localAddr, .running l⟩ := by rw [← hphase]
      cases action with
      | start =>
          rw [act, start_else (by simp [hphase])]
          exact ⟨h, Nat.le_refl _⟩
      | observe => exact ⟨h, Nat.le_refl _⟩
      | stop last =>
          rw [act, (stop_running hphase last).1]
          refine ⟨by simp [Settled], ?_⟩
          show g.state.rank ≤ 3
          cases g.state <;> simp [GateState.rank]
      | advance turns =>
          rw [act, (run_running hphase turns).1]
          refine ⟨by simp [Settled], ?_⟩
          rw [hg]
          exact state_running_le g.name g.localAddr turns

theorem after_forward (h : g.Settled) (actions : List Action) :
    (g.after actions).Settled ∧ g.state.rank ≤ (g.after actions).state.rank := by
  induction actions generalizing g with
  | nil => exact ⟨h, Nat.le_refl _⟩
  | cons action actions ih =>
      obtain ⟨hsettled, hfirst⟩ := act_forward h action
      obtain ⟨hafter, hlater⟩ := ih hsettled
      exact ⟨hafter, hfirst.trans hlater⟩

/-! ## Starting -/

/-- What the calls answer that pass a test, such as being a start or a stop. -/
def answers (test : Action → Bool) (g : Gate) : List Action → List (Except Fault Unit)
  | [] => []
  | action :: actions =>
      (if test action then [(g.act action).result] else []) ++
        (g.act action).gate.answers test actions

theorem act_name (g : Gate) (action : Action) : (g.act action).gate.name = g.name := by
  cases action with
  | start =>
      show g.start.gate.name = g.name
      unfold start
      split <;> rfl
  | stop last =>
      unfold act stop requestStop awaitLoop
      cases hphase : g.phase with
      | stopping loop => cases loop <;> simp [hphase]
      | _ => simp [hphase]
  | observe => rfl
  | advance turns =>
      show (g.run turns).gate.name = g.name
      unfold run
      split <;> rfl

theorem act_past_idle (h : ∀ l, g.phase ≠ .idle l) (action : Action) :
    ∀ l, (g.act action).gate.phase ≠ .idle l := by
  intro l
  cases action with
  | start =>
      rw [act, start_else h]
      exact h l
  | stop last =>
      unfold act stop requestStop awaitLoop
      cases hphase : g.phase with
      | stopping loop => cases loop <;> simp [hphase]
      | idle l => exact absurd hphase (h l)
      | _ => simp [hphase]
  | observe => exact h l
  | advance turns =>
      show (g.run turns).gate.phase ≠ .idle l
      unfold run
      split
      · simp
      all_goals exact h l

/-- What the starts of a gate answer that is not idle. -/
theorem starts_else (h : ∀ l, g.phase ≠ .idle l) (actions : List Action) :
    g.answers Action.isStart actions =
      List.replicate (actions.countP Action.isStart) (.error (.alreadyStarted g.name)) := by
  induction actions generalizing g with
  | nil => rfl
  | cons action actions ih =>
      rw [answers, ih (act_past_idle h action), act_name, List.countP_cons]
      cases action with
      | start =>
          rw [act, start_else h]
          simp [Action.isStart, List.replicate_succ]
      | _ => simp [Action.isStart]

/-- At most one start of a gate succeeds. -/
theorem starts_once (h : g.phase = .idle l) (actions : List Action) :
    ((g.answers Action.isStart actions).filter Except.isOk).length ≤ 1 := by
  have refused : ∀ (g : Gate), (∀ l, g.phase ≠ .idle l) → ∀ actions,
      (g.answers Action.isStart actions).filter Except.isOk = [] := by
    intro g h actions
    rw [starts_else h, List.filter_replicate]
    rfl
  induction actions with
  | nil => simp [answers]
  | cons action actions ih =>
      rw [answers, List.filter_append]
      cases action with
      | start =>
          have hgate : g.start.gate.phase = .running l := by rw [(start_idle h).1]
          rw [act, refused _ (by simp [hgate]), List.append_nil]
          exact List.length_filter_le _ [g.start.result]
      | stop last =>
          have hgate : (g.stop last).gate.phase = .stopped := by rw [(stop_idle h last).1]
          rw [act, refused _ (by simp [hgate])]
          simp [Action.isStart]
      | observe => exact ih
      | advance turns =>
          rw [act, (run_else (by simp [h]) turns).1]
          exact ih

theorem any_isStart (actions : List Action) :
    actions.any Action.isStart = true ↔ .start ∈ actions := by
  constructor
  · intro h
    obtain ⟨action, hmem, htest⟩ := List.any_eq_true.mp h
    cases action with
    | start => exact hmem
    | _ => cases htest
  · intro h
    exact List.any_eq_true.mpr ⟨.start, h, rfl⟩

theorem any_isStop (actions : List Action) :
    actions.any Action.isStop = true ↔ ∃ last, .stop last ∈ actions := by
  constructor
  · intro h
    obtain ⟨action, hmem, htest⟩ := List.any_eq_true.mp h
    cases action with
    | stop last => exact ⟨last, hmem⟩
    | _ => cases htest
  · rintro ⟨last, h⟩
    exact List.any_eq_true.mpr ⟨.stop last, h, rfl⟩

/-- The phase of a gate that has not been stopped, or has. -/
theorem phase_after (h : g.phase = .idle l) (before : List Action) :
    ((∃ last, .stop last ∈ before) → (g.after before).phase = .stopped) ∧
      ((∀ last, .stop last ∉ before) → .start ∈ before →
        (g.after before).phase = .running (l.run (turnsGiven false before)).loop) ∧
      ((∀ last, .stop last ∉ before) → .start ∉ before → (g.after before).phase = .idle l) := by
  have hafter := (life_of_idle h before).1
  refine ⟨fun stopped => ?_, fun running started => ?_, fun running unstarted => ?_⟩
  · rw [hafter, (any_isStop before).mpr stopped]
    rfl
  all_goals
    have hstops : before.any Action.isStop = false := by
      rw [← Bool.not_eq_true, any_isStop]
      exact fun ⟨last, hlast⟩ => running last hlast
  · rw [hafter, hstops, (any_isStart before).mpr started]
    rfl
  · have hstarts : before.any Action.isStart = false := by
      rwa [← Bool.not_eq_true, any_isStart]
    rw [hafter, hstops, hstarts]
    rfl

/-! ## Stopping -/

theorem stops_stopped (h : g.phase = .stopped) (actions : List Action) :
    g.answers Action.isStop actions =
      List.replicate (actions.countP Action.isStop) (.ok ()) := by
  induction actions with
  | nil => rfl
  | cons action actions ih =>
      rw [answers, (act_stopped h action).1, ih, List.countP_cons]
      cases action with
      | stop last =>
          rw [act, stop_stopped h]
          simp [Action.isStop, List.replicate_succ]
      | _ => simp [Action.isStop]

/-- What the stops answer from the first one on. -/
theorem stops_from (h : g.phase = .idle l) (last : Turn) {before later : List Action}
    (first : ∀ other, .stop other ∉ before) :
    g.answers Action.isStop (before ++ .stop last :: later) =
      ((g.after before).stop last).result ::
        List.replicate (later.countP Action.isStop) (.ok ()) := by
  have hstopped : ((g.after before).stop last).gate.phase = .stopped := by
    have hall := (phase_after h (before ++ [.stop last])).1 ⟨last, by simp⟩
    rwa [after_append] at hall
  have hbefore : ∀ (g : Gate) (before : List Action), (∀ other, .stop other ∉ before) →
      g.answers Action.isStop (before ++ .stop last :: later) =
        (g.after before).answers Action.isStop (.stop last :: later) := by
    intro g before first
    induction before generalizing g with
    | nil => rfl
    | cons action before ih =>
        rw [List.cons_append, answers, ih _ fun other hother =>
          first other (List.mem_cons_of_mem _ hother)]
        cases action with
        | stop other => exact absurd List.mem_cons_self (first other)
        | _ => rfl
  rw [hbefore g before first, answers]
  exact congrArg (_ :: ·) (stops_stopped hstopped later)

/-- What the first stop answers once the gate has been started. The turn that ended the loop
decides, be it the one that the stop waited for or an earlier one. -/
theorem first_stop (h : g.phase = .idle l) (running : l.ending = none) (last : Turn)
    {before : List Action} (started : .start ∈ before) (first : ∀ other, .stop other ∉ before) :
    ∃ earlier t o, l.taken (turnsGiven false before ++ [last.signaled]) = earlier ++ [t] ∧
      LastTurn (l.acceptor.afterTurns earlier) l.handler t o ∧
      (∀ u ∈ earlier, ∀ e, u.arrival = .failure e → e.isTransient = true) ∧
      ((g.after before).stop last).result = g.resultOf o := by
  have hphase := (phase_after h before).2.1 first started
  obtain ⟨-, hresult, -⟩ := stop_running hphase last
  obtain ⟨hloop, -⟩ := ServeLoop.run_append l (turnsGiven false before) [last.signaled]
  obtain ⟨o, hend⟩ := Option.ne_none_iff_exists'.mp
    (ServeLoop.ended_of_signaled (l.run (turnsGiven false before)).loop last)
  rw [hend] at hresult
  rw [← hloop] at hend
  obtain ⟨earlier, t, htaken, hgoes, hturn⟩ := ServeLoop.ended_by running hend
  obtain ⟨hacceptor, hhandler, -, -⟩ := ServeLoop.run_is running earlier
  have hlast := ServeLoop.lastTurn_of_endOf hturn
  rw [hacceptor, hhandler, ServeLoop.taken_running hgoes] at hlast
  refine ⟨earlier, t, o, htaken, hlast, ServeLoop.transient_of_running hgoes, ?_⟩
  rw [hresult, (life_of_idle h before).1]
  rfl

/-! ## The life cycle -/

/-- What holds in every life of a gate with this loop. -/
structure LifeCycle (g : Gate) (l : ServeLoop) : Prop where
  /-- A start succeeds exactly if no start and no stop came before. -/
  starts : ∀ before, (g.after before).start.result = .ok () ↔
    .start ∉ before ∧ ∀ last, .stop last ∉ before
  /-- Any other start is refused, and changes nothing. -/
  refuses : ∀ before, .start ∈ before ∨ (∃ last, .stop last ∈ before) →
    (g.after before).start =
      { gate := g.after before, result := .error (.alreadyStarted g.name) }
  startsOnce : ∀ actions, ((g.answers Action.isStart actions).filter Except.isOk).length ≤ 1
  /-- The observed state never moves back, -/
  forward : ∀ before later, (g.after before).state.rank ≤ (g.after (before ++ later)).state.rank
  /-- and between two calls a gate is not seen shutting down. -/
  settled : ∀ before, (g.after before).state ≠ .shuttingDown
  /-- A gate that was never started stops without a failure. -/
  stopsUnstarted : ∀ before last, .start ∉ before → (∀ other, .stop other ∉ before) →
    ((g.after before).stop last).result = .ok ()
  /-- The first stop after a start answers how the loop ended: the last turn that the loop took
  was the first to read the signal as raised, or to bring a failure that is not transient, or to
  make the handler panic. -/
  stopsStarted : ∀ before last, .start ∈ before → (∀ other, .stop other ∉ before) →
    ∃ earlier t o, l.taken (turnsGiven false before ++ [last.signaled]) = earlier ++ [t] ∧
      LastTurn (l.acceptor.afterTurns earlier) l.handler t o ∧
      (∀ u ∈ earlier, ∀ e, u.arrival = .failure e → e.isTransient = true) ∧
      ((g.after before).stop last).result =
        match o with
        | .finished => .ok ()
        | .failed e => .error (.io e)
        | .panicked => .error (.panicked ("accept:" ++ g.name))
  /-- After the first stop the gate is stopped, and any further stop succeeds and changes
  nothing, -/
  stopped : ∀ before last later,
    (g.after (before ++ .stop last :: later)).state = .stopped ∧
      ∀ other, (g.after (before ++ .stop last :: later)).stop other =
        { gate := g.after (before ++ .stop last :: later) }
  /-- so that the end of the loop is told once. -/
  toldOnce : ∀ before last later, (∀ other, .stop other ∉ before) →
    g.answers Action.isStop (before ++ .stop last :: later) =
      ((g.after before).stop last).result ::
        List.replicate (later.countP Action.isStop) (.ok ())

theorem lifeCycle_of_idle (h : g.phase = .idle l) (running : l.ending = none) :
    g.LifeCycle l := by
  have hsettled : g.Settled := by simp [Settled, h]
  have hname : ∀ before, (g.after before).name = g.name := by
    intro before
    rw [(life_of_idle h before).1]
  have refuses : ∀ before, .start ∈ before ∨ (∃ last, .stop last ∈ before) →
      (g.after before).start =
        { gate := g.after before, result := .error (.alreadyStarted g.name) } := by
    intro before called
    obtain ⟨hstopped, hrunning, -⟩ := phase_after h before
    rw [start_else, hname]
    by_cases stopped : ∃ last, .stop last ∈ before
    · simp [hstopped stopped]
    · simp [hrunning (fun last hlast => stopped ⟨last, hlast⟩) (called.resolve_right stopped)]
  refine ⟨?_, refuses, starts_once h, ?_, ?_, ?_, ?_, ?_, ?_⟩
  · intro before
    constructor
    · intro hok
      by_contra hcalled
      rw [not_and_or, not_not, not_forall] at hcalled
      rw [refuses before (by simpa only [not_not] using hcalled)] at hok
      cases hok
    · rintro ⟨unstarted, unstopped⟩
      exact (start_idle ((phase_after h before).2.2 unstopped unstarted)).2.1
  · intro before later
    rw [after_append]
    exact (after_forward (after_forward hsettled before).1 later).2
  · exact fun before => state_ne_shuttingDown (after_forward hsettled before).1
  · intro before last unstarted unstopped
    exact (stop_idle ((phase_after h before).2.2 unstopped unstarted) last).2.1
  · intro before last started first
    obtain ⟨earlier, t, o, htaken, hlast, htransient, hresult⟩ :=
      first_stop h running last started first
    refine ⟨earlier, t, o, htaken, hlast, htransient, ?_⟩
    rw [hresult]
    cases o <;> rfl
  · intro before last later
    have hphase := (phase_after h (before ++ .stop last :: later)).1 ⟨last, by simp⟩
    exact ⟨by rw [state, hphase], fun other => stop_stopped hphase other⟩
  · exact fun before last later first => stops_from h last first

/-- A gate that has been built is idle, with a loop that has yet to begin. -/
theorem create_idle {localAddr : Except IoFailure Endpoint} {config : ListenerConfig}
    {rule : AccessRule} {handler : Handler} {now : Instant} {log : List LogRecord}
    (created : Gate.create localAddr config rule handler now = .ok (g, log)) :
    ∃ pipeline, g.phase = .idle { acceptor := { name := g.name, pipeline }, handler } := by
  unfold create at created
  split at created
  · cases created
  · split at created
    · cases created
    · cases created
      exact ⟨_, rfl⟩

/-- **The life cycle of a gate.** For every gate that is built, every sequence of calls to it,
every listener and every handler: it starts at most once and never after a stop, its observed state
moves only from idle over running to stopped, the first stop answers how the loop ended, and
every call after it finds the gate stopped and leaves it so. -/
theorem gate_life_cycle {localAddr : Except IoFailure Endpoint} {config : ListenerConfig}
    {rule : AccessRule} {handler : Handler} {now : Instant} {log : List LogRecord}
    (created : Gate.create localAddr config rule handler now = .ok (g, log)) :
    ∃ pipeline, g.phase = .idle { acceptor := { name := g.name, pipeline }, handler } ∧
      g.LifeCycle { acceptor := { name := g.name, pipeline }, handler } := by
  obtain ⟨pipeline, hphase⟩ := create_idle created
  exact ⟨pipeline, hphase, lifeCycle_of_idle hphase rfl⟩

/-- A gate whose listener fails for good tells so once. -/
theorem gate_life_cycle_of_a_failing_gate :
    let broken : IoFailure := .custom .permissionDenied "accept"
    let turn : Turn := { arrival := .failure broken, now := .origin }
    ∃ g log, Gate.create (.ok (.v4 10 1080)) .default AccessList.any.rule (fun _ _ => .holds)
        .origin = .ok (g, log) ∧
      (∃ pipeline,
        g.phase = .idle { acceptor := { name := g.name, pipeline }, handler := fun _ _ => .holds } ∧
        g.LifeCycle
          { acceptor := { name := g.name, pipeline }, handler := fun _ _ => .holds }) ∧
      g.answers Action.isStop [.start, .advance [turn], .observe, .stop turn, .stop turn] =
        [.error (.io broken), .ok ()] := by
  intro broken turn
  have created : Gate.create (.ok (.v4 10 1080)) .default AccessList.any.rule (fun _ _ => .holds)
      .origin = .ok (_, _) := rfl
  exact ⟨_, _, created, gate_life_cycle created, rfl⟩

end Gate

end Gatehouse
