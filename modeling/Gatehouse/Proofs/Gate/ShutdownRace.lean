import Gatehouse.Proofs.Gate.Streams
import Gatehouse.Proofs.Listener.Readings
/-!
# The signal against the loop

The signal may be raised at any moment of a run: before a call to the listener, during it, after
it, or between the two readings for one connection. Wherever that is, at most one more connection
gets through, the pipeline is left alone from the first reading of the raised signal on, no stream
is left open that was not passed on, and the loop ends as it was asked to.

* `run_history` — a run of the serve loop is what its history says;
* `run_reads` — it is finished exactly if it reads the signal as raised;
* `raising_is_safe_anywhere` — for the accept loop and for the serve loop.
-/

namespace Gatehouse

/-- What holds of a history, wherever the signal is raised in it. -/
structure WithstandsRaising (entries : List HistoryEntry) : Prop where
  /-- The signal is read as not raised up to some moment, and as raised from then on. -/
  raised : ∃ before after, entries.map (·.moment) = before ++ after ∧
    (∀ m ∈ before, m.reading? ≠ some true) ∧ ∀ m ∈ after, m.reading? ≠ some false
  /-- The raising may have been at any moment that fits the readings. -/
  cuts : ∀ before after, entries.map (·.moment) = before ++ after →
    (∀ m ∈ before, m.reading? ≠ some true) → (∀ m ∈ after, m.reading? ≠ some false) →
    AfterRaising before after
  settles : entries.Pairwise Settles

/-- A stream that is yielded and not returned is closed once. -/
def ClosesUnreturned (events : List StreamEvent) : Prop :=
  ∀ stream peer, .yielded stream peer ∈ events →
    (∀ other, .returned stream other ∉ events) → events.count (.closed stream) = 1

namespace Acceptor

theorem withstands_raising {a : Acceptor} {stages : List Stage} (handled : a.Handled stages) :
    WithstandsRaising (a.stageHistory stages) := by
  refine ⟨?_, ?_, a.pipeline_settled stages⟩
  · obtain ⟨p, first, later, heq, hfirst, hlater⟩ := a.stageHistory_parts stages
    refine ⟨first.map (·.moment), later.map (·.moment), by rw [heq, List.map_append], ?_, ?_⟩
    · intro m hm
      obtain ⟨x, hx, rfl⟩ := List.mem_map.mp hm
      exact hfirst x hx
    · intro m hm
      obtain ⟨x, hx, rfl⟩ := List.mem_map.mp hm
      exact (hlater x hx).2
  · intro before after cut _ read
    obtain ⟨turns, hturns, law⟩ := stageHistory_turns handled
    exact afterRaising_of_turns law (hturns.symm.trans cut) read

theorem handled_alone (a : Acceptor) (ts : List Turn) :
    a.Handled (ts.map fun t => (t, [])) := by
  induction ts generalizing a with
  | nil => trivial
  | cons t ts ih => exact ⟨⟨[], .inl rfl⟩, ih (a.turn t).acceptor⟩

end Acceptor

/-- Among fates of different streams, what is yielded and not returned is closed once. -/
theorem Fate.closes_unreturned {fs : List Fate} (apart : (fs.filterMap stream?).Nodup) :
    ClosesUnreturned (fs.flatMap events) := by
  intro stream peer hyielded unreturned
  obtain ⟨f, hf, hevent⟩ := List.mem_flatMap.mp hyielded
  cases f with
  | returned s p =>
      obtain ⟨rfl, rfl⟩ : stream = s ∧ peer = p := by simpa [events] using hevent
      exact absurd (List.mem_flatMap.mpr ⟨_, hf, by simp [events]⟩) (unreturned peer)
  | turnedAway s p why =>
      obtain ⟨rfl, rfl⟩ : stream = s ∧ peer = p := by simpa [events] using hevent
      exact (closed_once apart hf).1
  | passedOver e => simp [events] at hevent
  | fatal e => simp [events] at hevent

namespace ServeLoop

variable {l : ServeLoop} {t : Turn}

theorem momentsAt_events (p : Pipeline) (events : List StreamEvent) :
    (momentsAt p (events.map .happens)).filterMap (·.moment.event?) = events := by
  induction events with
  | nil => rfl
  | cons e events ih => exact congrArg (e :: ·) ih

/-- The history of a run, with what is done with streams outside the accept loop. -/
def runHistory (l : ServeLoop) (ts : List Turn) : List HistoryEntry :=
  l.acceptor.stageHistory (l.staged ts)

theorem reaction_allowed (running : l.ending = none) (t : Turn) :
    (l.acceptor.turn t).ending.Allows (l.reaction t) := by
  have hfits := ending_fits l.acceptor t
  obtain ⟨-, hreaction⟩ := turn_running running t
  have hclosings : ∃ streams : List Nat, (if (l.endOf? t).isSome then
      (l.keeping [l.acceptor.turnFate t]).map StreamEvent.closed else []) =
        streams.map .closed := by
    cases (l.endOf? t).isSome
    · exact ⟨[], rfl⟩
    · exact ⟨_, rfl⟩
  obtain ⟨streams, hclosings⟩ := hclosings
  rw [hreaction, hclosings]
  cases hending : (l.acceptor.turn t).ending with
  | admitted stream peer =>
      rw [hending] at hfits
      replace hfits : l.acceptor.turnFate t = .returned stream peer := hfits
      rw [hfits]
      refine ⟨(if l.handler stream peer = .holds then [] else [stream]) ++ streams,
        .inr ⟨stream, peer, rfl, ?_⟩⟩
      cases hhandler : l.handler stream peer <;> simp [Fate.handling, hhandler]
  | again | shuttingDown =>
      rw [hending] at hfits
      rw [(nothing_handled l.handler hfits).2]
      exact ⟨streams, .inl rfl⟩
  | failed e =>
      rw [hending] at hfits
      replace hfits : l.acceptor.turnFate t = .fatal e := hfits
      rw [hfits]
      exact ⟨streams, .inl rfl⟩

theorem staged_handled (running : l.ending = none) (ts : List Turn) :
    l.acceptor.Handled (l.staged ts) := by
  induction ts generalizing l with
  | nil => trivial
  | cons t ts ih =>
      obtain ⟨hturn, -⟩ := turn_running running t
      rw [staged_cons running]
      refine ⟨reaction_allowed running t, ?_⟩
      by_cases hnext : (l.turn t).loop.ending = none
      · have hlater := ih hnext
        rwa [hturn] at hlater ⊢
      · rw [staged_ended hnext]
        trivial

/-- What happens to streams in a run is what its history says. -/
theorem run_history (l : ServeLoop) (ts : List Turn) :
    (l.run ts).events = (l.runHistory ts).filterMap (·.moment.event?) := by
  unfold runHistory
  induction ts generalizing l with
  | nil => rfl
  | cons t ts ih =>
      by_cases running : l.ending = none
      · obtain ⟨hturn, -⟩ := turn_running running t
        have hacceptor : (l.turn t).loop.acceptor = (l.acceptor.turn t).acceptor := by rw [hturn]
        rw [(run_cons running t ts).2.2, turn_events_running running, staged_cons running,
          Acceptor.stageHistory_cons, ih, hacceptor, List.filterMap_append,
          List.filterMap_append, Acceptor.turnHistory_events, momentsAt_events]
      · rw [run_ended running, staged_ended running]
        rfl

/-- The pipeline after a run is the one that its history ends with. -/
theorem run_pipeline (running : l.ending = none) (ts : List Turn) :
    lastPipeline l.acceptor.pipeline (l.runHistory ts) = (l.run ts).loop.acceptor.pipeline := by
  rw [(run_is running ts).acceptor, runHistory, Acceptor.stageHistory_pipeline, staged_turns]

theorem finished_iff : l.endOf? t = some .finished ↔
    (l.acceptor.turn t).ending = .shuttingDown := by
  unfold endOf?
  cases (l.acceptor.turn t).ending <;> simp [Acceptor.TurnEnd.loopEnd?]

/-- A run is finished exactly if the signal is read for the loop as raised. -/
theorem run_reads (running : l.ending = none) (ts : List Turn) :
    .loopReads true ∈ (l.runHistory ts).map (·.moment) ↔
      (l.run ts).loop.ending = some .finished := by
  unfold runHistory
  induction ts generalizing l with
  | nil => simp [run, staged, running, Acceptor.stageHistory, Acceptor.stageHistories]
  | cons t ts ih =>
      obtain ⟨hturn, -⟩ := turn_running running t
      obtain ⟨hreads, -⟩ := Acceptor.turn_reads l.acceptor t
      have hhandling : Moment.loopReads true ∉
          (momentsAt (l.acceptor.turn t).acceptor.pipeline ((l.reaction t).map .happens)).map
            (·.moment) := by
        rw [Acceptor.momentsAt_moments]
        simp
      rw [staged_cons running, Acceptor.stageHistory_cons, List.map_append, List.map_append,
        List.mem_append, List.mem_append, (run_cons running t ts).1]
      unfold Acceptor.turnMoments at hreads
      rw [hreads]
      have hacceptor : (l.turn t).loop.acceptor = (l.acceptor.turn t).acceptor := by rw [hturn]
      have hend : (l.turn t).loop.ending = l.endOf? t := by rw [hturn]
      rw [← finished_iff, or_iff_left hhandling]
      by_cases hnext : (l.turn t).loop.ending = none
      · have hgoes : l.endOf? t ≠ some .finished := by
          rw [← hend, hnext]
          simp
        rw [or_iff_right hgoes, ← ih hnext, hacceptor]
      · rw [run_ended hnext, staged_ended hnext, hend]
        exact or_iff_left (List.not_mem_nil)

/-- The serve loop, from its start, closes what it does not pass on. -/
theorem run_closes_unreturned (a : Acceptor) (handler : Handler) (ts : List Turn) :
    ClosesUnreturned (({ acceptor := a, handler } : ServeLoop).run ts).events := by
  intro stream peer hyielded unreturned
  generalize hl : ({ acceptor := a, handler } : ServeLoop) = l at hyielded unreturned ⊢
  have running : l.ending = none := by rw [← hl]
  have hheldNone : l.held = [] := by rw [← hl]
  have hbalance := run_closed running ts
  obtain ⟨-, -, hheld, hevents⟩ := run_is running ts
  have hnew : stream ∈
      List.range' (l.acceptor.streams + 1) (connectionsOf (l.taken ts)).length := by
    rw [← run_yielded running ts]
    exact List.mem_filterMap.mpr ⟨_, hyielded, rfl⟩
  have hopen : stream ∉ (l.run ts).loop.held := by
    intro hmem
    rw [hheld] at hmem
    cases hended : (l.run ts).loop.hasEnded with
    | true => simp [hended] at hmem
    | false =>
        rw [hended, if_neg Bool.false_ne_true, keeping, hheldNone, List.nil_append] at hmem
        obtain ⟨other, hfate, -⟩ := Fate.returned_of_kept _ _ hmem
        refine unreturned other ?_
        rw [hevents]
        refine List.mem_append_left _ (List.mem_flatMap.mpr ⟨_, hfate, ?_⟩)
        simp [Fate.happenings, Fate.events]
  rw [StreamEvent.count_closed]
  have hcount := hbalance.count_eq stream
  rw [List.count_append, List.count_eq_zero.mpr hopen, hheldNone, List.nil_append,
    List.count_eq_one_of_mem List.nodup_range' hnew] at hcount
  exact hcount

/-- If the signal has been raised by the end of a run that goes on, the next turn finishes it. -/
theorem finished_of_raised (running : l.ending = none)
    (raised : l.acceptor.trigger.isRaised = true) (t : Turn) :
    (l.turn t).loop.ending = some .finished := by
  rw [(turn_running running t).1]
  exact finished_iff.mpr (Acceptor.turn_signaled (Acceptor.triggerAtLoop_of_raised raised t)).2.1

end ServeLoop

namespace Acceptor

/-- **The signal may be raised anywhere.** For every acceptor, every handler and whatever the
listener yields: at most one connection is returned after the raising, and is handed over, and the
pipeline had read the signal as not raised about it before; at most one more call to the listener
begins until a call of the accept loop ends because of the signal; the pipeline stays as it is
from the first reading of the raised signal on; the call that reads it as raised after a call to
the listener ends because of it, even if the listener failed, and so does the serve loop; a call
waits only when the listener has nothing left; and a stream that is not returned is closed once. -/
theorem raising_is_safe_anywhere :
    -- Any number of calls of the accept loop,
    (∀ (a : Acceptor) (n : Nat) (turns : List Turn), ∃ taken,
      a.CallsAre turns taken (a.calls n turns) ∧
        lastPipeline a.pipeline (a.history taken) = (a.afterCalls (a.calls n turns)).pipeline ∧
        WithstandsRaising (a.history taken) ∧
        ClosesUnreturned ((a.calls n turns).flatMap (·.events))) ∧
    -- each of them,
    (∀ (a : Acceptor) (turns : List Turn), ∃ taken,
      a.CallsAre turns taken [a.accept turns] ∧
        (.loopReads true ∈ (a.history taken).map (·.moment) ↔
          (a.accept turns).outcome = .shuttingDown)) ∧
    -- and those that are made when the signal has been raised.
    (∀ (a : Acceptor) (t : Turn) (ts : List Turn), a.trigger.isRaised = true →
      (a.accept (t :: ts)).outcome = .shuttingDown ∧ (a.accept (t :: ts)).rest = ts ∧
        (a.accept (t :: ts)).acceptor.pipeline = a.pipeline ∧
        (a.accept (t :: ts)).acceptor.trigger.isRaised = true) ∧
    -- The serve loop from its start, for any number of turns.
    (∀ (a : Acceptor) (handler : Handler) (turns : List Turn),
      let l : ServeLoop := { acceptor := a, handler }
      let report := l.run turns
      let history := l.runHistory turns
      l.taken turns ++ report.rest = turns ∧ l.RunIs (l.taken turns) report ∧
        report.events = history.filterMap (·.moment.event?) ∧
        lastPipeline a.pipeline history = report.loop.acceptor.pipeline ∧
        WithstandsRaising history ∧
        ClosesUnreturned report.events ∧
        (.loopReads true ∈ history.map (·.moment) ↔ report.loop.ending = some .finished) ∧
        (report.loop.ending = none → report.loop.acceptor.trigger.isRaised = true →
          ∀ t, (report.loop.turn t).loop.ending = some .finished)) ∧
    -- Whatever the listener yields, the signal may be raised before any of its readings.
    (∀ (a : Acceptor) (k : Nat) (results : List (Arrival × Instant)), a.trigger = .armed →
      ∃ turns, turns.map (fun t => (t.arrival, t.now)) = results ∧
        RaisedFrom k (a.readings turns)) := by
  refine ⟨?_, fun a turns => ?_, fun a t ts raised => accept_of_raised raised t ts,
    fun a handler turns => ?_, fun a k results armed => ?_⟩
  · intro a n turns
    obtain ⟨taken, h⟩ := a.calls_are n turns
    refine ⟨taken, h, ?_, withstands_raising (handled_alone a taken), ?_⟩
    · rw [h.moved, history_pipeline]
    · rw [h.events, history_events]
      exact Fate.closes_unreturned (turnFates_nodup a taken)
  · obtain ⟨taken, h⟩ := a.accept_is turns
    exact ⟨taken, h, accept_reads h⟩
  · have running : ({ acceptor := a, handler } : ServeLoop).ending = none := rfl
    exact ⟨ServeLoop.taken_rest _ turns, ServeLoop.run_is running turns,
      ServeLoop.run_history _ turns, ServeLoop.run_pipeline running turns,
      withstands_raising (ServeLoop.staged_handled running turns),
      ServeLoop.run_closes_unreturned a handler turns, ServeLoop.run_reads running turns,
      fun still raised t => ServeLoop.finished_of_raised still raised t⟩
  · exact ⟨raiseAfter k results, raiseAfter_results k results, readings_raiseAfter armed k results⟩

end Acceptor

end Gatehouse
