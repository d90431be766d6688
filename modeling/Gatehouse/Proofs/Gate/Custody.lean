import Gatehouse.Proofs.Gate.LifeCycle
import Gatehouse.Proofs.Gate.Streams
/-!
# Streams in the life of a gate

A stream belongs to the accept loop when it is yielded, and to the handler when the pipeline
admits its connection. Whoever it belongs to closes it: the accept loop in the turn that yields
it, a handler in the call or, if it holds the stream, when the loop ends.

* `InCustody` — what holds of the streams at any point of a life;
* `AllClosed` — what holds once the loop has ended;
* `every_stream_is_closed_once` — for every gate, every life of it, and every way to end it.
-/

namespace Gatehouse

open StreamEvent

/-! ## What the pipeline is asked -/

/-- A connection that is put to the pipeline, and the verdict. -/
structure Screened where
  stream : Nat
  peer : Endpoint
  verdict : Verdict

namespace Screened

/-- The connection, if it is admitted. -/
def admitted? (c : Screened) : Option (Nat × Endpoint) :=
  if c.verdict = .admitted then some (c.stream, c.peer) else none

/-- Those admitted are some of those screened, in the same order. -/
theorem admitted_streams (cs : List Screened) :
    ((cs.filterMap admitted?).map (·.1)).Sublist (cs.map (·.stream)) := by
  induction cs with
  | nil => exact .slnil
  | cons c cs ih =>
      by_cases h : c.verdict = .admitted
      · simpa [admitted?, h] using ih
      · simpa [admitted?, h] using ih.cons c.stream

end Screened

namespace Acceptor

/-- The connections that some turns put to the pipeline. -/
def screened (a : Acceptor) : List Turn → List Screened
  | [] => []
  | t :: ts =>
      (match t.arrival with
        | .failure _ => []
        | .connection peer =>
            if (a.triggerAtLoop t).isRaised then []
            else [⟨a.streams + 1, peer, (a.screening t peer).verdict⟩]) ++
        (a.turn t).acceptor.screened ts

/-- The connections returned are those that the pipeline admits. -/
theorem turnFates_returned (a : Acceptor) (ts : List Turn) :
    (a.turnFates ts).filterMap Fate.returned? = (a.screened ts).filterMap Screened.admitted? := by
  induction ts generalizing a with
  | nil => rfl
  | cons t ts ih =>
      rw [turnFates, screened, List.filterMap_append, List.filterMap_cons, ih, turnFate]
      cases harr : t.arrival with
      | failure e =>
          cases (a.triggerAtLoop t).isRaised <;> cases htransient : e.isTransient <;>
            simp [htransient, Fate.returned?]
      | connection peer =>
          cases (a.triggerAtLoop t).isRaised with
          | true => simp [Fate.returned?]
          | false =>
              cases hverdict : (a.screening t peer).verdict <;>
                simp [hverdict, Fate.ofVerdict, Fate.returned?, Screened.admitted?]

/-- The connections screened are among those yielded, in the same order. -/
theorem screened_streams (a : Acceptor) (ts : List Turn) :
    ((a.screened ts).map (·.stream)).Sublist ((a.turnFates ts).filterMap Fate.stream?) := by
  induction ts generalizing a with
  | nil => exact .slnil
  | cons t ts ih =>
      have hlater := ih (a.turn t).acceptor
      rw [turnFates, screened, List.map_append, List.filterMap_cons, turnFate]
      cases harr : t.arrival with
      | failure e =>
          cases (a.triggerAtLoop t).isRaised <;> cases htransient : e.isTransient <;>
            simpa [htransient, Fate.stream?] using hlater
      | connection peer =>
          cases (a.triggerAtLoop t).isRaised with
          | true => simpa [Fate.stream?] using hlater.cons (a.streams + 1)
          | false =>
              cases hverdict : (a.screening t peer).verdict <;>
                simpa [hverdict, Fate.ofVerdict, Fate.stream?] using hlater

theorem screened_nodup (a : Acceptor) (ts : List Turn) :
    ((a.screened ts).map (·.stream)).Nodup :=
  (a.screened_streams ts).nodup (a.turnFates_nodup ts)

/-- A connection that the pipeline turns away is not admitted at another time. -/
theorem rejected_unadmitted (a : Acceptor) (ts : List Turn) {c : Screened}
    (hc : c ∈ a.screened ts) (rejected : c.verdict ≠ .admitted) (other : Endpoint) :
    (c.stream, other) ∉ (a.screened ts).filterMap Screened.admitted? := by
  intro hmem
  obtain ⟨d, hd, hadmitted⟩ := List.mem_filterMap.mp hmem
  obtain ⟨hverdict, hstream, -⟩ : d.verdict = .admitted ∧ d.stream = c.stream ∧ d.peer = other := by
    simpa [Screened.admitted?] using hadmitted
  have hsame : d = c := List.inj_on_of_nodup_map (a.screened_nodup ts) hd hc hstream
  rw [hsame] at hverdict
  exact rejected hverdict

end Acceptor

/-! ## Events -/

/-- The streams that the handler holds, in the order in which it gets them. -/
def heldIn (handler : Handler) (events : List StreamEvent) : List Nat :=
  (events.filterMap handled?).filterMap fun c =>
    if handler c.1 c.2 = .holds then some c.1 else none

/-- What holds of the streams at any point of a life, `screened` being put to the pipeline. -/
structure InCustody (screened : List Screened) (events : List StreamEvent) : Prop where
  /-- Streams are numbered as they are yielded. -/
  numbered : ∃ n, events.filterMap yielded? = List.range' 1 n
  /-- The handler is called once for each connection that the pipeline admits, in the order in
  which they are yielded, -/
  handled : events.filterMap handled? = screened.filterMap Screened.admitted?
  handledOnce : ((events.filterMap handled?).map (·.1)).Nodup
  /-- and for none that it turns away. -/
  rejected : ∀ c ∈ screened, c.verdict ≠ .admitted → ∀ other, .handled c.stream other ∉ events
  /-- No stream is closed that was not yielded, and none twice. -/
  closed_le : ∀ stream,
    events.count (.closed stream) ≤ if stream ∈ events.filterMap yielded? then 1 else 0

/-- What holds of the streams once the loop has ended. -/
structure AllClosed (handler : Handler) (events : List StreamEvent) : Prop where
  /-- Every stream that was yielded is closed once, and no other. -/
  closed : ∀ stream,
    events.count (.closed stream) = if stream ∈ events.filterMap yielded? then 1 else 0
  /-- Held streams are closed at the very end, in the order in which they were admitted. -/
  heldLast : ∃ earlier, events = earlier ++ (heldIn handler events).map .closed ∧
    ∀ stream ∈ heldIn handler events, .closed stream ∉ earlier

namespace ServeLoop

variable {l : ServeLoop}

theorem keeping_is_held (running : l.ending = none) (ts : List Turn) :
    (l.acceptor.turnFates (l.taken ts)).filterMap (Fate.kept? l.handler) =
      heldIn l.handler (l.run ts).events := by
  unfold heldIn
  rw [run_handled running, List.filterMap_filterMap]
  refine List.filterMap_congr fun f _ => ?_
  cases f <;> rfl

/-- The balance of one stream: it is closed once or still open, if it was yielded. -/
theorem run_balance (a : Acceptor) (handler : Handler) (ts : List Turn) (stream : Nat) :
    let l : ServeLoop := { acceptor := a, handler }
    (l.run ts).events.count (.closed stream) + (l.run ts).loop.held.count stream =
      if stream ∈ (l.run ts).events.filterMap yielded? then 1 else 0 := by
  intro l
  have running : l.ending = none := rfl
  have hcount := (run_closed running ts).count_eq stream
  rw [← run_yielded running ts, List.count_append, ← count_closed] at hcount
  rw [hcount]
  refine List.Nodup.count ?_
  show (List.filterMap yielded? (l.run ts).events).Nodup
  rw [run_yielded running ts]
  exact List.nodup_range'

/-- The streams of a loop that starts with none. -/
theorem run_inCustody (a : Acceptor) (fresh : a.streams = 0) (handler : Handler) (ts : List Turn) :
    let l : ServeLoop := { acceptor := a, handler }
    InCustody (a.screened (l.taken ts)) (l.run ts).events := by
  intro l
  have running : l.ending = none := rfl
  have hyielded := run_yielded running ts
  have hstreams : l.acceptor.streams = 0 := fresh
  have hadmitted :=
    (run_handled running ts).trans (Acceptor.turnFates_returned l.acceptor (l.taken ts))
  rw [hstreams] at hyielded
  refine ⟨⟨_, hyielded⟩, hadmitted, ?_, ?_, ?_⟩
  · rw [hadmitted]
    exact (Screened.admitted_streams _).nodup (Acceptor.screened_nodup _ _)
  · intro c hc rejected other hmem
    refine Acceptor.rejected_unadmitted a (l.taken ts) hc rejected other ?_
    rw [← hadmitted]
    exact List.mem_filterMap.mpr ⟨_, hmem, rfl⟩
  · intro stream
    exact (Nat.le_add_right _ _).trans (Nat.le_of_eq (run_balance a handler ts stream))

/-- What happens in a run, the streams that the handler holds being closed at its end. -/
theorem run_told (a : Acceptor) (handler : Handler) (ts : List Turn) :
    let l : ServeLoop := { acceptor := a, handler }
    (l.run ts).events = (a.turnFates (l.taken ts)).flatMap (Fate.happenings handler) ++
      if (l.run ts).loop.hasEnded then (heldIn handler (l.run ts).events).map .closed else [] := by
  intro l
  have hkept := keeping_is_held (l := l) rfl ts
  have hevents := (run_is (l := l) rfl ts).events
  rw [keeping] at hevents
  rw [← hkept]
  exact hevents

/-- The handler has its held streams open as long as the loop runs. -/
theorem run_heldOpen (a : Acceptor) (handler : Handler) (ts : List Turn) :
    let l : ServeLoop := { acceptor := a, handler }
    (l.run ts).loop.hasEnded = false →
      ∀ stream ∈ heldIn handler (l.run ts).events, .closed stream ∉ (l.run ts).events := by
  intro l goes
  have htold := run_told a handler ts
  simp only at htold
  rw [goes, if_neg Bool.false_ne_true, List.append_nil] at htold
  rw [← keeping_is_held (l := l) rfl ts, htold]
  exact Fate.kept_unclosed _ _ (Acceptor.turnFates_nodup _ _)

/-- When the loop has ended, all is closed. -/
theorem run_allClosed (a : Acceptor) (handler : Handler) (ts : List Turn) :
    let l : ServeLoop := { acceptor := a, handler }
    (l.run ts).loop.hasEnded = true → AllClosed handler (l.run ts).events := by
  intro l ended
  have htold := run_told a handler ts
  simp only at htold
  rw [ended, if_pos rfl] at htold
  refine ⟨fun stream => ?_, _, htold, ?_⟩
  · have hbalance := run_balance a handler ts stream
    simp only at hbalance
    rw [(run_is (l := l) rfl ts).held, ended, if_pos rfl, List.count_nil] at hbalance
    exact hbalance
  · rw [← keeping_is_held (l := l) rfl ts]
    exact Fate.kept_unclosed _ _ (Acceptor.turnFates_nodup _ _)

end ServeLoop

namespace Gate

variable {g : Gate} {l : ServeLoop}

/-! ## The end of a life -/

/-- Dropping a gate does to the streams what stopping it does. -/
theorem drop_events (h : g.Settled) (last : Turn) :
    (g.drop last).1 = (g.stop last).events := by
  unfold drop stop requestStop awaitLoop
  cases hphase : g.phase with
  | stopping loop => exact absurd hphase (h loop)
  | _ => simp [hphase]

/-- A gate that is observed as stopped does nothing to streams any more. -/
theorem silent_of_stopped (h : g.Settled) (stopped : g.state = .stopped) (later : List Action) :
    g.lifeEvents later = [] := by
  unfold state at stopped
  cases hphase : g.phase with
  | stopping loop => exact absurd hphase (h loop)
  | idle l => simp [hphase] at stopped
  | stopped => exact (life_of_stopped hphase later).2
  | running l =>
      have ended : l.ending ≠ none := by
        intro running
        simp [hphase, ServeLoop.hasEnded, running] at stopped
      rw [(life_of_running hphase later).2, ServeLoop.run_ended ended]

/-- The turns of a loop that is stopped end with one that notices the signal. -/
theorem turnsGiven_running {actions : List Action} (stopped : ∃ last, .stop last ∈ actions) :
    ∃ before last, turnsGiven true actions = before ++ [Turn.signaled last] := by
  induction actions with
  | nil => simp at stopped
  | cons action actions ih =>
      obtain ⟨last, hlast⟩ := stopped
      cases action with
      | stop other => exact ⟨[], other, rfl⟩
      | start | observe => exact ih ⟨last, by simpa using hlast⟩
      | advance turns =>
          obtain ⟨before, other, heq⟩ := ih ⟨last, by simpa using hlast⟩
          refine ⟨turns ++ before, other, ?_⟩
          rw [turnsGiven, if_pos rfl, heq, List.append_assoc]

theorem turnsGiven_unstarted {actions : List Action} (unstarted : .start ∉ actions) :
    turnsGiven false actions = [] := by
  induction actions with
  | nil => rfl
  | cons action actions ih =>
      have hlater : .start ∉ actions := fun hmem => unstarted (List.mem_cons_of_mem _ hmem)
      cases action with
      | start => exact absurd List.mem_cons_self unstarted
      | stop last => rfl
      | observe | advance turns => exact ih hlater

/-- A gate that is stopped was never started, or its loop has noticed the signal or ended. -/
theorem turnsGiven_stopped {actions : List Action} (stopped : ∃ last, .stop last ∈ actions) :
    turnsGiven false actions = [] ∨
      ∃ before last, turnsGiven false actions = before ++ [Turn.signaled last] := by
  induction actions with
  | nil => exact .inl rfl
  | cons action actions ih =>
      obtain ⟨last, hlast⟩ := stopped
      cases action with
      | stop other => exact .inl rfl
      | start => exact .inr (turnsGiven_running ⟨last, by simpa using hlast⟩)
      | observe | advance turns => exact ih ⟨last, by simpa using hlast⟩

/-- The loop of a gate that is observed as stopped has ended, unless it never began. -/
theorem ended_of_stopped (h : g.phase = .idle l) {actions : List Action}
    (stopped : (g.after actions).state = .stopped) :
    turnsGiven false actions = [] ∨ (l.run (turnsGiven false actions)).loop.hasEnded = true := by
  obtain ⟨-, hrunning, hidle⟩ := phase_after h actions
  by_cases hstop : ∃ last, .stop last ∈ actions
  · rcases turnsGiven_stopped hstop with hnone | ⟨before, last, heq⟩
    · exact .inl hnone
    · refine .inr ?_
      rw [heq, (ServeLoop.run_append l before [last.signaled]).1]
      exact ServeLoop.hasEnded_iff.mpr (ServeLoop.ended_of_signaled _ last)
  · have unstopped : ∀ last, .stop last ∉ actions := fun last hlast => hstop ⟨last, hlast⟩
    by_cases hstart : .start ∈ actions
    · refine .inr ?_
      by_contra hgoes
      simp [state, hrunning unstopped hstart, hgoes] at stopped
    · simp [state, hidle unstopped hstart] at stopped

/-- A gate that is not observed as stopped has a loop that goes on, or that has not begun. -/
theorem goes_of_unstopped (h : g.phase = .idle l) (running : l.ending = none)
    {actions : List Action} (unstopped : (g.after actions).state ≠ .stopped) :
    (l.run (turnsGiven false actions)).loop.hasEnded = false := by
  obtain ⟨hstopped, hrunning, -⟩ := phase_after h actions
  have uncalled : ∀ last, .stop last ∉ actions := by
    intro last hlast
    exact unstopped (by rw [state, hstopped ⟨last, hlast⟩])
  by_cases hstart : .start ∈ actions
  · by_contra hended
    rw [Bool.not_eq_false] at hended
    exact unstopped (by simp [state, hrunning uncalled hstart, hended])
  · rw [turnsGiven_unstarted hstart]
    simp [ServeLoop.run, ServeLoop.hasEnded, running]

theorem allClosed_nil (handler : Handler) : AllClosed handler [] :=
  ⟨fun _ => rfl, [], rfl, by simp [heldIn]⟩

/-! ## Streams in a life -/

/-- What holds of the streams in every life of a gate with this loop. -/
structure StreamsKept (g : Gate) (l : ServeLoop) : Prop where
  /-- What happens to a stream in the turn that yields it, and what is closed at the end. -/
  told : ∀ actions, g.lifeEvents actions =
    (l.acceptor.turnFates (l.taken (turnsGiven false actions))).flatMap
        (Fate.happenings l.handler) ++
      if (l.run (turnsGiven false actions)).loop.hasEnded then
        (heldIn l.handler (g.lifeEvents actions)).map .closed
      else []
  custody : ∀ actions,
    InCustody (l.acceptor.screened (l.taken (turnsGiven false actions))) (g.lifeEvents actions)
  /-- A held stream is closed only when the loop has ended. -/
  held : ∀ actions, (g.after actions).state ≠ .stopped →
    ∀ stream ∈ heldIn l.handler (g.lifeEvents actions),
      .closed stream ∉ g.lifeEvents actions
  /-- When a gate is observed as stopped, be it that its loop has ended by itself, -/
  stopped : ∀ actions, (g.after actions).state = .stopped →
    AllClosed l.handler (g.lifeEvents actions) ∧
      ∀ later, g.lifeEvents (actions ++ later) = g.lifeEvents actions
  /-- or that it has been stopped, -/
  stops : ∀ before last later, (g.after (before ++ .stop last :: later)).state = .stopped
  /-- and when it is dropped and its loop has ended, all streams are closed. -/
  drops : ∀ actions last,
    let events := g.lifeEvents actions ++ ((g.after actions).drop last).1
    AllClosed l.handler events ∧
      InCustody (l.acceptor.screened (l.taken (turnsGiven false (actions ++ [.stop last]))))
        events ∧
      ((g.after actions).state = .stopped → ((g.after actions).drop last).1 = [])

theorem allClosed_of_stopped {a : Acceptor} {handler : Handler}
    (h : g.phase = .idle { acceptor := a, handler }) {actions : List Action}
    (stopped : (g.after actions).state = .stopped) : AllClosed handler (g.lifeEvents actions) := by
  rw [(life_of_idle h actions).2]
  rcases ended_of_stopped h stopped with hnone | hended
  · rw [hnone]
    exact allClosed_nil handler
  · exact ServeLoop.run_allClosed a handler _ hended

theorem streamsKept_of_idle {a : Acceptor} {handler : Handler}
    (h : g.phase = .idle { acceptor := a, handler }) (fresh : a.streams = 0) :
    g.StreamsKept { acceptor := a, handler } := by
  have hsettled : ∀ actions, (g.after actions).Settled := fun actions =>
    (after_forward (by simp [Settled, h]) actions).1
  have hlife := fun actions => (life_of_idle h actions).2
  have hcustody := fun actions =>
    ServeLoop.run_inCustody a fresh handler (turnsGiven false actions)
  have stops : ∀ before last later,
      (g.after (before ++ .stop last :: later)).state = .stopped := by
    intro before last later
    rw [state, (phase_after h (before ++ .stop last :: later)).1 ⟨last, by simp⟩]
  have hdrop : ∀ actions last, ((g.after actions).drop last).1 =
      (g.after actions).lifeEvents [.stop last] := by
    intro actions last
    rw [drop_events (hsettled actions) last, lifeEvents, lifeEvents, List.append_nil]
    rfl
  refine ⟨?_, ?_, ?_, ?_, stops, ?_⟩
  · intro actions
    rw [hlife]
    exact ServeLoop.run_told a handler _
  · intro actions
    rw [hlife]
    exact hcustody actions
  · intro actions unstopped
    rw [hlife]
    exact ServeLoop.run_heldOpen a handler _ (goes_of_unstopped h rfl unstopped)
  · intro actions stopped
    refine ⟨allClosed_of_stopped h stopped, fun later => ?_⟩
    rw [lifeEvents_append, silent_of_stopped (hsettled actions) stopped, List.append_nil]
  · intro actions last
    rw [hdrop, ← lifeEvents_append]
    refine ⟨allClosed_of_stopped h (stops actions last []), ?_, fun stopped => ?_⟩
    · rw [hlife]
      exact hcustody (actions ++ [.stop last])
    · exact silent_of_stopped (hsettled actions) stopped _

/-- **Every stream is closed once, and every admitted connection handled once.** For every gate
that is built, every listener, every handler and every sequence of calls: at any point of its life
the handler has been called once for each connection that the pipeline has admitted, in the order
in which they were yielded, and for no other; a held stream is open as long as the loop goes on;
and once the gate has been stopped, its loop has ended by itself, or the gate has been dropped,
every stream ever yielded has been closed once, the held ones last and in the order in which they
were admitted, and nothing more happens. -/
theorem every_stream_is_closed_once {localAddr : Except IoFailure Endpoint}
    {config : ListenerConfig} {rule : AccessRule} {handler : Handler} {now : Instant}
    {log : List LogRecord}
    (created : Gate.create localAddr config rule handler now = .ok (g, log)) :
    ∃ pipeline, g.phase = .idle { acceptor := { name := g.name, pipeline }, handler } ∧
      g.StreamsKept { acceptor := { name := g.name, pipeline }, handler } := by
  obtain ⟨pipeline, hphase⟩ := create_idle created
  exact ⟨pipeline, hphase, streamsKept_of_idle hphase rfl⟩

/-- Two connections that the handler holds and one that comes with the signal, on a gate that is
stopped. -/
theorem every_stream_is_closed_once_when_held :
    let peer : Endpoint := .v4 10 5000
    let turn : Turn := { arrival := .connection peer, now := .origin }
    ∃ g log, Gate.create (.ok (.v4 10 1080)) .default AccessList.any.rule (fun _ _ => .holds)
        .origin = .ok (g, log) ∧
      (∃ pipeline,
        g.phase = .idle { acceptor := { name := g.name, pipeline }, handler := fun _ _ => .holds } ∧
        g.StreamsKept
          { acceptor := { name := g.name, pipeline }, handler := fun _ _ => .holds }) ∧
      g.lifeEvents [.start, .advance [turn, turn], .stop turn] =
        [.yielded 1 peer, .returned 1 peer, .handled 1 peer,
          .yielded 2 peer, .returned 2 peer, .handled 2 peer,
          .yielded 3 peer, .closed 3, .closed 1, .closed 2] := by
  intro peer turn
  have created : Gate.create (.ok (.v4 10 1080)) .default AccessList.any.rule (fun _ _ => .holds)
      .origin = .ok (_, _) := rfl
  exact ⟨_, _, created, every_stream_is_closed_once created, by decide +kernel⟩

end Gate

end Gatehouse
