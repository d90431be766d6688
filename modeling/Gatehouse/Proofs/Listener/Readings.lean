import Gatehouse.Proofs.Listener.Raising
/-!
# What is read of the signal

The signal is read for the loop after every call to the listener, and by the pipeline for every
connection that is put to it. Once it is read as raised nothing moves any more: the pipeline stays
the same, and the call of the accept loop whose reading it is ends because of the signal.

* `pipeline_settled` — from the first reading of the raised signal on;
* `accept_reads` — the calls that end because of the signal are those that read it as raised;
* `readings_raiseAfter` — the signal may be raised before any of its readings.
-/

namespace Gatehouse

/-! ## From the first reading of the raised signal on -/

/-- Once the signal has been read as raised, the pipeline stays as it is and the signal is read as
raised. -/
def Settles (x y : HistoryEntry) : Prop :=
  x.moment.reading? = some true → y.pipeline = x.pipeline ∧ y.moment.reading? ≠ some false

/-- In this part of a history the pipeline stays as it is, and nothing is read as not raised. -/
def SettledAt (p : Pipeline) (entries : List HistoryEntry) : Prop :=
  ∀ x ∈ entries, x.pipeline = p ∧ x.moment.reading? ≠ some false

/-- In this part of a history nothing is read as raised. -/
def Unraised (entries : List HistoryEntry) : Prop :=
  ∀ x ∈ entries, x.moment.reading? ≠ some true

theorem settledAt_momentsAt {p : Pipeline} {moments : List Moment}
    (h : ∀ m ∈ moments, m.reading? ≠ some false) : SettledAt p (momentsAt p moments) := by
  intro x hx
  obtain ⟨m, hm, rfl⟩ := List.mem_map.mp hx
  exact ⟨rfl, h m hm⟩

theorem unraised_momentsAt {p : Pipeline} {moments : List Moment}
    (h : ∀ m ∈ moments, m.reading? ≠ some true) : Unraised (momentsAt p moments) := by
  intro x hx
  obtain ⟨m, hm, rfl⟩ := List.mem_map.mp hx
  exact h m hm

theorem settledAt_handling (p : Pipeline) (handling : List StreamEvent) :
    SettledAt p (momentsAt p (handling.map .happens)) := by
  refine settledAt_momentsAt fun m hm => ?_
  obtain ⟨e, -, rfl⟩ := List.mem_map.mp hm
  simp [Moment.reading?]

theorem unraised_handling (p : Pipeline) (handling : List StreamEvent) :
    Unraised (momentsAt p (handling.map .happens)) := by
  refine unraised_momentsAt fun m hm => ?_
  obtain ⟨e, -, rfl⟩ := List.mem_map.mp hm
  simp [Moment.reading?]

theorem SettledAt.append {p : Pipeline} {xs ys : List HistoryEntry} (hx : SettledAt p xs)
    (hy : SettledAt p ys) : SettledAt p (xs ++ ys) := by
  intro x h
  exact (List.mem_append.mp h).elim (hx x) (hy x)

theorem Unraised.append {xs ys : List HistoryEntry} (hx : Unraised xs) (hy : Unraised ys) :
    Unraised (xs ++ ys) := by
  intro x h
  exact (List.mem_append.mp h).elim (hx x) (hy x)

/-- A history settles if it has a first part that reads nothing as raised and a rest in which
nothing moves. -/
theorem pairwise_settles {p : Pipeline} {xs ys : List HistoryEntry} (hx : Unraised xs)
    (hy : SettledAt p ys) : (xs ++ ys).Pairwise Settles := by
  refine List.pairwise_append.mpr ⟨?_, ?_, ?_⟩
  · exact List.Pairwise.imp_of_mem (fun hmem _ _ h => absurd h (hx _ hmem))
      (List.pairwise_of_forall fun _ _ => trivial)
  · exact List.Pairwise.imp_of_mem
      (fun hu hv _ _ => ⟨(hy _ hv).1.trans (hy _ hu).1.symm, (hy _ hv).2⟩)
      (List.pairwise_of_forall fun _ _ => trivial)
  · exact fun x hmem _ _ h => absurd h (hx x hmem)

namespace Acceptor

theorem triggerAtLoop_of_raised {a : Acceptor} (raised : a.trigger.isRaised = true) (t : Turn) :
    (a.triggerAtLoop t).isRaised = true := by
  unfold triggerAtLoop raiseIf
  cases htrigger : a.trigger <;> cases t.raisedInCall <;>
    simp_all [Trigger.isRaised, Trigger.fire]

/-- A turn that reads the signal as raised for the loop. -/
theorem settledAt_turnHistory {a : Acceptor} {t : Turn}
    (raised : (a.triggerAtLoop t).isRaised = true) : SettledAt a.pipeline (a.turnHistory t) := by
  rw [turnHistory_signaled raised]
  refine settledAt_momentsAt ?_
  cases t.arrival <;> simp [Moment.reading?]

/-- With the signal raised, the pipeline stays as it is and the signal reads as raised. -/
theorem settledAt_stageHistory {a : Acceptor} (raised : a.trigger.isRaised = true)
    (stages : List Stage) : SettledAt a.pipeline (a.stageHistory stages) := by
  induction stages generalizing a with
  | nil =>
      intro x hx
      cases hx
  | cons stage stages ih =>
      obtain ⟨t, handling⟩ := stage
      have hloop := triggerAtLoop_of_raised raised t
      obtain ⟨hmove, -, -⟩ := turn_signaled hloop
      have hsame : (a.turn t).acceptor.pipeline = a.pipeline := by rw [hmove]
      have hraised : (a.turn t).acceptor.trigger.isRaised = true := by rwa [hmove]
      have hlater := ih hraised
      rw [hsame] at hlater
      rw [stageHistory_cons, hsame]
      exact ((settledAt_turnHistory hloop).append (settledAt_handling _ handling)).append hlater

/-- A turn has a first part that reads nothing as raised. There is more to it only if the signal
stays raised and the pipeline as it is. -/
theorem turnHistory_parts (a : Acceptor) (t : Turn) :
    ∃ first later, a.turnHistory t = first ++ later ∧ Unraised first ∧
      (later = [] ∨ ((a.turn t).acceptor.trigger.isRaised = true ∧
        SettledAt (a.turn t).acceptor.pipeline later)) := by
  rcases a.turn_ways t with raised | ⟨e, unread, harr⟩ | ⟨peer, unread, harr⟩
  · obtain ⟨hmove, -, -⟩ := turn_signaled raised
    refine ⟨[], a.turnHistory t, rfl, fun x hx => absurd hx List.not_mem_nil, .inr ⟨?_, ?_⟩⟩
    · rwa [hmove]
    · rw [hmove]
      exact settledAt_turnHistory raised
  · refine ⟨a.turnHistory t, [], (List.append_nil _).symm, ?_, .inl rfl⟩
    rw [turnHistory_failure unread harr]
    refine unraised_momentsAt ?_
    cases e.isTransient <;> simp [Moment.reading?]
  · cases hraised : (a.triggerAtPipeline t).isRaised with
    | false =>
        refine ⟨a.turnHistory t, [], (List.append_nil _).symm, ?_, .inl rfl⟩
        rw [turnHistory_connection unread harr, hraised]
        refine (unraised_momentsAt (by simp [Moment.reading?])).append (unraised_momentsAt ?_)
        cases (a.screening t peer).verdict <;> simp [Moment.reading?]
    | true =>
        -- The pipeline turns the connection away without looking at it.
        have hscreen : a.screening t peer =
            { pipeline := a.pipeline, verdict := .rejected .shuttingDown } := by
          unfold screening
          rw [hraised]
          rfl
        obtain ⟨hmove, -, -⟩ := turn_connection unread harr
        rw [turnHistory_connection unread harr, hmove, hscreen, hraised]
        refine ⟨momentsAt a.pipeline
            [.callBegins, .happens (.yielded (a.streams + 1) peer), .loopReads false],
          momentsAt a.pipeline
            [.pipelineReads (a.streams + 1) true,
              .judged (a.streams + 1) (.rejected .shuttingDown),
              .happens (.closed (a.streams + 1))], rfl, ?_, .inr ⟨rfl, ?_⟩⟩
        · exact unraised_momentsAt (by simp [Moment.reading?])
        · exact settledAt_momentsAt (by simp [Moment.reading?])

/-- A history has a first part that reads nothing as raised, and a rest in which nothing moves and
nothing is read otherwise. -/
theorem stageHistory_parts (a : Acceptor) (stages : List Stage) :
    ∃ p first later, a.stageHistory stages = first ++ later ∧ Unraised first ∧
      SettledAt p later := by
  induction stages generalizing a with
  | nil =>
      refine ⟨a.pipeline, [], [], rfl, ?_, ?_⟩ <;>
        exact fun _ hx => absurd hx List.not_mem_nil
  | cons stage stages ih =>
      obtain ⟨t, handling⟩ := stage
      obtain ⟨first, later, heq, hfirst, hlater⟩ := turnHistory_parts a t
      rw [stageHistory_cons, heq]
      rcases hlater with rfl | ⟨hraised, hlater⟩
      · obtain ⟨p, more, rest, heq', hmore, hrest⟩ := ih (a.turn t).acceptor
        rw [heq', List.append_nil, ← List.append_assoc]
        exact ⟨p, _, rest, rfl, (hfirst.append (unraised_handling _ handling)).append hmore, hrest⟩
      · refine ⟨_, first, _, ?_, hfirst, (hlater.append (settledAt_handling _ handling)).append
          (settledAt_stageHistory hraised stages)⟩
        simp only [List.append_assoc]

/-- From the first reading of the raised signal on, the pipeline stays the same, and the signal
is read as raised. -/
theorem pipeline_settled (a : Acceptor) (stages : List Stage) :
    (a.stageHistory stages).Pairwise Settles := by
  obtain ⟨p, first, later, heq, hfirst, hlater⟩ := a.stageHistory_parts stages
  rw [heq]
  exact pairwise_settles hfirst hlater

/-! ## What the loop reads, and how its calls end -/

/-- A turn whose reading for the loop is that the signal is raised ends its call because of the
signal, whatever the listener brought; no other turn does. -/
theorem turn_reads (a : Acceptor) (t : Turn) :
    (.loopReads true ∈ a.turnMoments t ↔ (a.turn t).ending = .shuttingDown) ∧
      (.shutsDown ∈ a.turnMoments t ↔ (a.turn t).ending = .shuttingDown) := by
  rcases a.turn_ways t with raised | ⟨e, unread, harr⟩ | ⟨peer, unread, harr⟩
  · rw [turnMoments_signaled raised, (turn_signaled raised).2.1]
    cases t.arrival <;> simp
  · rw [turnMoments_failure unread harr, (turn_failure unread harr).2.1]
    cases e.isTransient <;> simp
  · rw [turnMoments_connection unread harr, (turn_connection unread harr).2.1]
    cases (a.screening t peer).verdict <;> simp

theorem history_reads (a : Acceptor) (ts : List Turn) :
    .loopReads true ∈ (a.history ts).map (·.moment) ↔
      .shutsDown ∈ (a.history ts).map (·.moment) := by
  induction ts generalizing a with
  | nil => simp [history, stageHistory, stageHistories]
  | cons t ts ih =>
      obtain ⟨hreads, hends⟩ := turn_reads a t
      unfold turnMoments at hreads hends
      rw [history_cons, List.map_append, List.mem_append, List.mem_append, ih, hreads, hends]

theorem mem_shutsDown (entries : List HistoryEntry) :
    .shutsDown ∈ entries.map (·.moment) ↔
      .shuttingDown ∈ entries.filterMap (·.moment.outcome?) := by
  constructor
  · intro hmem
    obtain ⟨x, hx, hmoment⟩ := List.mem_map.mp hmem
    exact List.mem_filterMap.mpr ⟨x, hx, by rw [hmoment]; rfl⟩
  · intro hmem
    obtain ⟨x, hx, hmoment⟩ := List.mem_filterMap.mp hmem
    refine List.mem_map.mpr ⟨x, hx, ?_⟩
    revert hmoment
    cases x.moment with
    | happens e => cases e <;> simp [Moment.outcome?]
    | _ => simp [Moment.outcome?]

/-- A call of the accept loop ends because of the signal exactly if it reads it as raised after a
call to the listener. -/
theorem accept_reads {a : Acceptor} {turns taken : List Turn}
    (h : a.CallsAre turns taken [a.accept turns]) :
    .loopReads true ∈ (a.history taken).map (·.moment) ↔
      (a.accept turns).outcome = .shuttingDown := by
  rw [history_reads, mem_shutsDown, ← h.outcomes]
  cases houtcome : (a.accept turns).outcome <;> simp [houtcome, Outcome.ended?]

/-- Once the signal is raised, a call of the accept loop ends with its first turn. -/
theorem accept_of_raised {a : Acceptor} (raised : a.trigger.isRaised = true) (t : Turn)
    (ts : List Turn) :
    (a.accept (t :: ts)).outcome = .shuttingDown ∧ (a.accept (t :: ts)).rest = ts ∧
      (a.accept (t :: ts)).acceptor.pipeline = a.pipeline ∧
      (a.accept (t :: ts)).acceptor.trigger.isRaised = true := by
  obtain ⟨hmove, hend, -⟩ := turn_signaled (triggerAtLoop_of_raised raised t)
  obtain ⟨hacceptor, houtcome, hrest, -⟩ :=
    accept_cons_ended a t ts (o := .shuttingDown) (by rw [hend]; rfl)
  rw [hacceptor, hmove]
  exact ⟨houtcome, hrest, rfl, triggerAtLoop_of_raised raised t⟩

/-! ## Every position of the raising occurs -/

end Acceptor

/-- These results of the listener, with the signal raised just before it is read for the
`k + 1`-th time. -/
def raiseAfter : Nat → List (Arrival × Instant) → List Turn
  | _, [] => []
  | 0, (arrival, now) :: results =>
      { arrival, now, raisedInCall := true } :: raiseAfter 0 results
  | k + 1, (.failure e, now) :: results =>
      { arrival := .failure e, now } :: raiseAfter k results
  | 1, (.connection peer, now) :: results =>
      { arrival := .connection peer, now, raisedInBetween := true } :: raiseAfter 0 results
  | k + 2, (.connection peer, now) :: results =>
      { arrival := .connection peer, now } :: raiseAfter k results

/-- The signal is read as raised from the `k + 1`-th time on, and not before. -/
def RaisedFrom (k : Nat) (readings : List Bool) : Prop :=
  ∀ i raised, readings[i]? = some raised → raised = decide (k ≤ i)

theorem RaisedFrom.cons {k : Nat} {readings : List Bool} (h : RaisedFrom k readings) :
    RaisedFrom (k + 1) (false :: readings) := by
  intro i raised hget
  cases i with
  | zero => simpa using hget.symm
  | succ i => simpa using h i raised hget

theorem raisedFrom_zero {readings : List Bool} (h : ∀ raised ∈ readings, raised = true) :
    RaisedFrom 0 readings := by
  intro i raised hget
  simpa using h raised (List.mem_of_getElem? hget)

namespace Acceptor

/-- The readings of the signal in some turns. -/
def readings (a : Acceptor) (ts : List Turn) : List Bool :=
  (a.history ts).filterMap (·.moment.reading?)

theorem readings_cons (a : Acceptor) (t : Turn) (ts : List Turn) :
    a.readings (t :: ts) =
      (a.turnMoments t).filterMap Moment.reading? ++ (a.turn t).acceptor.readings ts := by
  unfold readings turnMoments
  rw [history_cons, List.filterMap_append, List.filterMap_map]
  rfl

theorem readings_settled {p : Pipeline} {entries : List HistoryEntry} (h : SettledAt p entries) :
    ∀ r ∈ entries.filterMap (·.moment.reading?), r = true := by
  intro r hr
  obtain ⟨x, hx, hread⟩ := List.mem_filterMap.mp hr
  cases r with
  | true => rfl
  | false => exact absurd hread (h x hx).2

/-- A turn for which the signal is read as raised, and all after it. -/
theorem readings_signaled {a : Acceptor} {t : Turn} (raised : (a.triggerAtLoop t).isRaised = true)
    (ts : List Turn) : ∀ r ∈ a.readings (t :: ts), r = true := by
  obtain ⟨hmove, -, -⟩ := turn_signaled raised
  have hraised : (a.turn t).acceptor.trigger.isRaised = true := by rwa [hmove]
  unfold readings
  rw [history_cons, List.filterMap_append]
  intro r hr
  rcases List.mem_append.mp hr with hr | hr
  · exact readings_settled (settledAt_turnHistory raised) r hr
  · exact readings_settled (settledAt_stageHistory hraised _) r hr

theorem readings_failure {a : Acceptor} {t : Turn} {e : IoFailure}
    (unread : (a.triggerAtLoop t).isRaised = false) (harr : t.arrival = .failure e)
    (ts : List Turn) : a.readings (t :: ts) = false :: a.readings ts := by
  rw [readings_cons, (turn_failure unread harr).1, turnMoments_failure unread harr]
  cases e.isTransient <;> rfl

theorem readings_connection {a : Acceptor} {t : Turn} {peer : Endpoint}
    (unread : (a.triggerAtLoop t).isRaised = false) (harr : t.arrival = .connection peer)
    (ts : List Turn) :
    a.readings (t :: ts) =
      false :: (a.triggerAtPipeline t).isRaised :: (a.turn t).acceptor.readings ts := by
  rw [readings_cons, turnMoments_connection unread harr]
  cases (a.screening t peer).verdict <;> rfl

theorem raiseAfter_results (k : Nat) (results : List (Arrival × Instant)) :
    (raiseAfter k results).map (fun t => (t.arrival, t.now)) = results := by
  fun_induction raiseAfter k results <;> simp_all

/-- Whatever the listener yields, the signal can be raised before any of its readings. -/
theorem readings_raiseAfter {a : Acceptor} (armed : a.trigger = .armed) (k : Nat)
    (results : List (Arrival × Instant)) : RaisedFrom k (a.readings (raiseAfter k results)) := by
  fun_induction raiseAfter k results generalizing a with
  | case1 k =>
      intro i raised hget
      cases hget
  | case2 arrival now results ih =>
      refine raisedFrom_zero (readings_signaled ?_ _)
      simp [triggerAtLoop, raiseIf, armed, Trigger.fire, Trigger.isRaised]
  | case3 k e now results ih =>
      rw [readings_failure (e := e) (by simp [triggerAtLoop, raiseIf, armed, Trigger.isRaised]) rfl]
      exact (ih armed).cons
  | case4 peer now results ih =>
      have unread : (a.triggerAtLoop
          { arrival := .connection peer, now, raisedInBetween := true }).isRaised = false := by
        simp [triggerAtLoop, raiseIf, armed, Trigger.isRaised]
      have raised : (a.triggerAtPipeline
          { arrival := .connection peer, now, raisedInBetween := true }).isRaised = true := by
        simp [triggerAtPipeline, triggerAtLoop, raiseIf, armed, Trigger.fire, Trigger.isRaised]
      rw [readings_connection unread rfl, raised, (turn_connection unread rfl).1]
      refine RaisedFrom.cons (raisedFrom_zero ?_)
      intro r hr
      rcases List.mem_cons.mp hr with rfl | hr
      · rfl
      · exact readings_settled (settledAt_stageHistory raised _) r hr
  | case5 k peer now results ih =>
      have unread : (a.triggerAtLoop { arrival := .connection peer, now }).isRaised = false := by
        simp [triggerAtLoop, raiseIf, armed, Trigger.isRaised]
      have quiet : a.triggerAtPipeline { arrival := .connection peer, now } = .armed := by
        simp [triggerAtPipeline, triggerAtLoop, raiseIf, armed]
      rw [readings_connection unread rfl, quiet]
      exact (ih (by rw [(turn_connection unread rfl).1, quiet])).cons.cons

end Acceptor

end Gatehouse
