import Gatehouse.Proofs.Listener.History
/-!
# Where the signal may be raised

A history is read for the signal time and again; raising it cuts the history in two, so that
everything read before it reads as not raised and everything after it as raised. The cut may fall
between any two moments, be it before, during or after a call to the listener.

* `OneTurn` — what the moments of one turn keep to, whatever is done with its stream afterwards;
* `afterRaising_of_turns` — so after the cut at most one more call to the listener begins, and at
  most one connection is returned, which the pipeline had read as not signaled before;
* `stageHistory_turns` — a history of the accept loop consists of such turns.
-/

namespace Gatehouse

namespace Moment

/-- The connection that a call of the accept loop returns, if the moment is that. -/
def returned? : Moment → Option (Nat × Endpoint)
  | .happens (.returned stream peer) => some (stream, peer)
  | _ => none

/-- The connection that the handler gets, if the moment is that. -/
def handled? : Moment → Option (Nat × Endpoint)
  | .happens (.handled stream peer) => some (stream, peer)
  | _ => none

/-- The connections that are passed on: returned by the accept loop, or given to the handler. -/
def passedOn (moments : List Moment) : List (Nat × Endpoint) :=
  moments.filterMap returned? ++ moments.filterMap handled?

/-- How often the listener is called before a call of the accept loop ends because of the
signal. -/
def callsBeforeShutdown (moments : List Moment) : Nat :=
  (moments.takeWhile (· ≠ .shutsDown)).count .callBegins

end Moment

open Moment

/-- What the moments of one turn keep to. -/
structure OneTurn (moments : List Moment) : Prop where
  begins : ∃ rest, moments = .callBegins :: rest ∧ .callBegins ∉ rest
  reads : ∃ raised, .loopReads raised ∈ moments
  /-- If the loop reads the signal as raised, its call ends with just that. -/
  signaled : .loopReads true ∈ moments → .shutsDown ∈ moments ∧ passedOn moments = []
  returned_le : (moments.filterMap returned?).length ≤ 1
  handled_le : (moments.filterMap handled?).length ≤ 1
  /-- A connection is passed on only if the pipeline reads the signal as not raised about it. -/
  read : ∀ c ∈ passedOn moments, .pipelineReads c.1 false ∈ moments

/-- What is left of a history once the signal is raised, at this cut of it. -/
structure AfterRaising (before after : List Moment) : Prop where
  /-- At most one more connection is returned, and at most one is given to the handler, -/
  returned_le : (after.filterMap returned?).length ≤ 1
  handled_le : (after.filterMap handled?).length ≤ 1
  /-- and only if the pipeline had read the signal as not raised about it before. -/
  read_before : ∀ c ∈ passedOn after, .pipelineReads c.1 false ∈ before
  /-- At most one more call to the listener begins until a call of the accept loop ends because
  of the signal, -/
  calls_le : callsBeforeShutdown after ≤ 1
  /-- and every call to the listener that begins leads to such an end. -/
  calls_end : after.count .callBegins ≤ after.count .shutsDown

/-! ## A cut of some turns -/

theorem passedOn_append (ms ns : List Moment) (c : Nat × Endpoint) :
    c ∈ passedOn (ms ++ ns) ↔ c ∈ passedOn ms ∨ c ∈ passedOn ns := by
  simp only [passedOn, List.filterMap_append, List.mem_append]
  tauto

theorem passedOn_eq_nil {ms : List Moment} (h : passedOn ms = []) :
    ms.filterMap returned? = [] ∧ ms.filterMap handled? = [] :=
  List.append_eq_nil_iff.mp h

theorem callsBeforeShutdown_append_le (ms ns : List Moment) :
    callsBeforeShutdown (ms ++ ns) ≤ ms.count .callBegins + callsBeforeShutdown ns := by
  induction ms with
  | nil => simp
  | cons m ms ih =>
      unfold callsBeforeShutdown at ih ⊢
      rw [List.cons_append, List.takeWhile_cons, List.count_cons]
      split
      · rw [List.count_cons]
        omega
      · simp

/-- What comes after the end of a call because of the signal does not count. -/
theorem callsBeforeShutdown_append_of_mem {ms : List Moment} (h : .shutsDown ∈ ms)
    (ns : List Moment) : callsBeforeShutdown (ms ++ ns) ≤ ms.count .callBegins := by
  induction ms with
  | nil => cases h
  | cons m ms ih =>
      unfold callsBeforeShutdown at ih ⊢
      rw [List.cons_append, List.takeWhile_cons, List.count_cons]
      split
      · have hm : m ≠ .shutsDown := by simpa using ‹decide (m ≠ .shutsDown) = true›
        have hlater : .shutsDown ∈ ms := (List.mem_cons.mp h).resolve_left (Ne.symm hm)
        have := ih hlater
        rw [List.count_cons]
        omega
      · simp

namespace OneTurn

variable {moments : List Moment}

theorem count_callBegins (h : OneTurn moments) : moments.count .callBegins = 1 := by
  obtain ⟨rest, rfl, hrest⟩ := h.begins
  rw [List.count_cons_self, List.count_eq_zero.mpr hrest]

/-- A turn all of whose readings are after the raising ends its call because of the signal. -/
theorem reads_raised (h : OneTurn moments) (read : ∀ m ∈ moments, m.reading? ≠ some false) :
    .loopReads true ∈ moments := by
  obtain ⟨raised, hmem⟩ := h.reads
  cases raised with
  | true => exact hmem
  | false => exact absurd rfl (read _ hmem)

end OneTurn

/-- Turns that come after the raising pass nothing on, and each ends because of the signal. -/
theorem turns_after {turns : List (List Moment)} (law : ∀ turn ∈ turns, OneTurn turn)
    (read : ∀ m ∈ turns.flatten, m.reading? ≠ some false) :
    passedOn turns.flatten = [] ∧ callsBeforeShutdown turns.flatten ≤ 1 ∧
      turns.flatten.count .callBegins ≤ turns.flatten.count .shutsDown := by
  induction turns with
  | nil => exact ⟨rfl, Nat.zero_le _, Nat.le_refl _⟩
  | cons turn turns ih =>
      rw [List.flatten_cons] at read ⊢
      have hturn := law turn List.mem_cons_self
      have hraised := hturn.reads_raised fun m hm => read m (List.mem_append_left _ hm)
      obtain ⟨hends, hpasses⟩ := hturn.signaled hraised
      obtain ⟨hlater, -, hcount⟩ := ih (fun t ht => law t (List.mem_cons_of_mem _ ht))
        (fun m hm => read m (List.mem_append_right _ hm))
      have hone := hturn.count_callBegins
      have hshut : 0 < turn.count .shutsDown := List.count_pos_iff.mpr hends
      refine ⟨?_, ?_, ?_⟩
      · obtain ⟨h1, h2⟩ := passedOn_eq_nil hpasses
        obtain ⟨h3, h4⟩ := passedOn_eq_nil hlater
        simp [passedOn, h1, h2, h3, h4]
      · exact (callsBeforeShutdown_append_of_mem hends _).trans (Nat.le_of_eq hone)
      · rw [List.count_append, List.count_append]
        omega

/-- The rest of a turn, once it has begun, calls the listener no more. -/
theorem OneTurn.count_callBegins_rest {done left : List Moment} (h : OneTurn (done ++ left))
    (begun : done ≠ []) : left.count .callBegins = 0 := by
  obtain ⟨rest, heq, hrest⟩ := h.begins
  cases done with
  | nil => exact absurd rfl begun
  | cons m done =>
      rw [List.cons_append, List.cons.injEq] at heq
      refine List.count_eq_zero.mpr fun hmem => hrest ?_
      rw [← heq.2]
      exact List.mem_append_right _ hmem

/-- The raising falls into a turn that has begun. The rest of that turn is all that can still pass
a connection on. -/
theorem afterRaising_within {done left before : List Moment} {future : List (List Moment)}
    (hturn : OneTurn (done ++ left)) (begun : done ≠ []) (sub : ∀ m ∈ done, m ∈ before)
    (law : ∀ turn ∈ future, OneTurn turn)
    (read : ∀ m ∈ left ++ future.flatten, m.reading? ≠ some false) :
    AfterRaising before (left ++ future.flatten) := by
  obtain ⟨hpasses, hcalls, hcount⟩ :=
    turns_after law fun m hm => read m (List.mem_append_right _ hm)
  obtain ⟨h1, h2⟩ := passedOn_eq_nil hpasses
  have hrest := hturn.count_callBegins_rest begun
  refine ⟨?_, ?_, ?_, ?_, ?_⟩
  · have hle := hturn.returned_le
    rw [List.filterMap_append, List.length_append] at hle
    rw [List.filterMap_append, h1, List.append_nil]
    omega
  · have hle := hturn.handled_le
    rw [List.filterMap_append, List.length_append] at hle
    rw [List.filterMap_append, h2, List.append_nil]
    omega
  · intro c hc
    rw [passedOn_append, hpasses] at hc
    have hc := hc.resolve_right List.not_mem_nil
    have hread := hturn.read c ((passedOn_append done left c).mpr (.inr hc))
    -- A reading as not raised is not after the raising.
    rcases List.mem_append.mp hread with hmem | hmem
    · exact sub _ hmem
    · exact absurd rfl (read _ (List.mem_append_left _ hmem))
  · have := callsBeforeShutdown_append_le left future.flatten
    omega
  · rw [List.count_append, List.count_append]
    omega

/-- What a raising leaves of some turns, wherever it cuts their moments. -/
theorem afterRaising_of_turns {turns : List (List Moment)} {before after : List Moment}
    (law : ∀ turn ∈ turns, OneTurn turn) (cut : turns.flatten = before ++ after)
    (read : ∀ m ∈ after, m.reading? ≠ some false) : AfterRaising before after := by
  have between : ∀ {past future}, turns = past ++ future → before = past.flatten →
      after = future.flatten → AfterRaising before after := by
    rintro past future rfl rfl rfl
    obtain ⟨hpasses, hcalls, hcount⟩ :=
      turns_after (fun t ht => law t (List.mem_append_right _ ht)) read
    obtain ⟨h1, h2⟩ := passedOn_eq_nil hpasses
    exact ⟨by simp [h1], by simp [h2], by simp [hpasses], hcalls, hcount⟩
  rcases List.flatten_eq_append_iff.mp cut with
    ⟨past, future, hturns, hbefore, hafter⟩ | ⟨past, done, m, left, future, rfl, rfl, rfl⟩
  · exact between hturns hbefore hafter
  · cases done with
    | nil => exact between rfl (List.append_nil _) rfl
    | cons first done =>
        refine afterRaising_within (law _ ?_) (List.cons_ne_nil first done) ?_ ?_ read
        · simp
        · exact fun m hm => List.mem_append_right _ hm
        · exact fun t ht => law t (by simp [ht])

/-! ## The turns of the accept loop -/

/-- What may be done with streams after a turn that ends so: the connection that it returned is
given to the handler, and streams are closed. -/
def Acceptor.TurnEnd.Allows (ending : Acceptor.TurnEnd) (handling : List StreamEvent) : Prop :=
  ∃ streams : List Nat, handling = streams.map .closed ∨
    ∃ stream peer, ending = .admitted stream peer ∧
      handling = .handled stream peer :: streams.map .closed

theorem OneTurn.append_closings {moments : List Moment} (h : OneTurn moments)
    (streams : List Nat) :
    OneTurn (moments ++ (streams.map StreamEvent.closed).map .happens) := by
  have hreturned : ((streams.map StreamEvent.closed).map Moment.happens).filterMap returned? =
      [] := by simp [returned?]
  have hhandled : ((streams.map StreamEvent.closed).map Moment.happens).filterMap handled? =
      [] := by simp [handled?]
  have hpassed : passedOn (moments ++ (streams.map StreamEvent.closed).map .happens) =
      passedOn moments := by
    simp only [passedOn, List.filterMap_append, hreturned, hhandled, List.append_nil]
  obtain ⟨rest, heq, hrest⟩ := h.begins
  refine ⟨⟨rest ++ (streams.map StreamEvent.closed).map .happens, ?_, ?_⟩, ?_, ?_, ?_, ?_, ?_⟩
  · rw [heq]
    rfl
  · simp [hrest]
  · obtain ⟨raised, hmem⟩ := h.reads
    exact ⟨raised, List.mem_append_left _ hmem⟩
  · intro hraised
    rw [hpassed]
    have hmem : .loopReads true ∈ moments := by simpa using hraised
    exact ⟨List.mem_append_left _ (h.signaled hmem).1, (h.signaled hmem).2⟩
  · rw [List.filterMap_append, hreturned, List.append_nil]
    exact h.returned_le
  · rw [List.filterMap_append, hhandled, List.append_nil]
    exact h.handled_le
  · intro c hc
    rw [hpassed] at hc
    exact List.mem_append_left _ (h.read c hc)

/-- A connection that a turn returns is given to the handler. -/
theorem OneTurn.append_handled {moments : List Moment} (h : OneTurn moments) {stream : Nat}
    {peer : Endpoint} (returned : (stream, peer) ∈ moments.filterMap returned?)
    (unhandled : moments.filterMap handled? = []) :
    OneTurn (moments ++ [.happens (.handled stream peer)]) := by
  obtain ⟨rest, heq, hrest⟩ := h.begins
  refine ⟨⟨rest ++ [.happens (.handled stream peer)], ?_, ?_⟩, ?_, ?_, ?_, ?_, ?_⟩
  · rw [heq]
    rfl
  · simp [hrest]
  · obtain ⟨raised, hmem⟩ := h.reads
    exact ⟨raised, List.mem_append_left _ hmem⟩
  · intro hraised
    have hmem : .loopReads true ∈ moments := by simpa using hraised
    rw [(passedOn_eq_nil (h.signaled hmem).2).1] at returned
    exact absurd returned List.not_mem_nil
  · simpa [List.filterMap_cons, returned?] using h.returned_le
  · simp [unhandled, handled?]
  · intro c hc
    have hmem : c ∈ passedOn moments := by
      rcases (passedOn_append _ _ c).mp hc with hc | hc
      · exact hc
      · obtain rfl : c = (stream, peer) := by simpa [passedOn, returned?, handled?] using hc
        exact List.mem_append_left _ returned
    exact List.mem_append_left _ (h.read c hmem)

namespace Acceptor

/-- The pipeline admits a connection only when it reads the signal as not raised. -/
theorem unread_of_admitted {a : Acceptor} {t : Turn} {peer : Endpoint}
    (h : (a.screening t peer).verdict = .admitted) : (a.triggerAtPipeline t).isRaised = false := by
  unfold screening at h
  cases hraised : (a.triggerAtPipeline t).isRaised with
  | false => rfl
  | true =>
      rw [hraised] at h
      cases h

theorem oneTurn_turn (a : Acceptor) (t : Turn) : OneTurn (a.turnMoments t) := by
  rcases a.turn_ways t with raised | ⟨e, unread, harr⟩ | ⟨peer, unread, harr⟩
  · rw [turnMoments_signaled raised]
    cases t.arrival <;> refine ⟨⟨_, rfl, ?_⟩, ⟨true, ?_⟩, ?_, ?_, ?_, ?_⟩ <;>
      simp [passedOn, List.filterMap_cons, returned?, handled?]
  · rw [turnMoments_failure unread harr]
    cases e.isTransient <;> refine ⟨⟨_, rfl, ?_⟩, ⟨false, ?_⟩, ?_, ?_, ?_, ?_⟩ <;>
      simp [passedOn, List.filterMap_cons, returned?, handled?]
  · rw [turnMoments_connection unread harr]
    cases hv : (a.screening t peer).verdict with
    | rejected why =>
        refine ⟨⟨_, rfl, ?_⟩, ⟨false, ?_⟩, ?_, ?_, ?_, ?_⟩ <;>
          simp [passedOn, List.filterMap_cons, returned?, handled?]
    | admitted =>
        rw [unread_of_admitted hv]
        refine ⟨⟨_, rfl, ?_⟩, ⟨false, ?_⟩, ?_, ?_, ?_, ?_⟩ <;>
          simp [passedOn, List.filterMap_cons, returned?, handled?]

theorem returned_turnMoments {a : Acceptor} {t : Turn} {stream : Nat} {peer : Endpoint}
    (h : (a.turn t).ending = .admitted stream peer) :
    (stream, peer) ∈ (a.turnMoments t).filterMap returned? := by
  have houtcome := (turn_moments a t).2
  rw [h] at houtcome
  have hmem : Outcome.admitted stream peer ∈ (a.turnMoments t).filterMap Moment.outcome? := by
    rw [houtcome]
    exact List.mem_singleton.mpr rfl
  obtain ⟨m, hm, hm'⟩ := List.mem_filterMap.mp hmem
  refine List.mem_filterMap.mpr ⟨m, hm, ?_⟩
  revert hm'
  cases m with
  | happens e => cases e <;> simp [Moment.outcome?, returned?]
  | _ => simp [Moment.outcome?]

theorem unhandled_turnMoments (a : Acceptor) (t : Turn) :
    (a.turnMoments t).filterMap handled? = [] := by
  rcases a.turn_ways t with raised | ⟨e, unread, harr⟩ | ⟨peer, unread, harr⟩
  · rw [turnMoments_signaled raised]
    cases t.arrival <;> rfl
  · rw [turnMoments_failure unread harr]
    cases e.isTransient <;> rfl
  · rw [turnMoments_connection unread harr]
    cases (a.screening t peer).verdict <;> rfl

theorem oneTurn_stage {a : Acceptor} {t : Turn} {handling : List StreamEvent}
    (allowed : (a.turn t).ending.Allows handling) :
    OneTurn (a.turnMoments t ++ handling.map .happens) := by
  have hturn := oneTurn_turn a t
  obtain ⟨streams, rfl | ⟨stream, peer, hend, rfl⟩⟩ := allowed
  · exact hturn.append_closings streams
  · have hhandled := hturn.append_handled (returned_turnMoments hend) (unhandled_turnMoments a t)
    have hall := hhandled.append_closings streams
    rwa [List.append_assoc] at hall

/-- What is done with streams is allowed after each turn. -/
def Handled (a : Acceptor) : List Stage → Prop
  | [] => True
  | (t, handling) :: stages =>
      (a.turn t).ending.Allows handling ∧ (a.turn t).acceptor.Handled stages

/-- The moments of a history, turn by turn. -/
theorem stageHistory_turns {a : Acceptor} {stages : List Stage} (h : a.Handled stages) :
    ∃ turns : List (List Moment), (a.stageHistory stages).map (·.moment) = turns.flatten ∧
      ∀ turn ∈ turns, OneTurn turn := by
  induction stages generalizing a with
  | nil => exact ⟨[], rfl, by simp⟩
  | cons stage stages ih =>
      obtain ⟨t, handling⟩ := stage
      obtain ⟨turns, heq, hlaw⟩ := ih h.2
      refine ⟨(a.turnMoments t ++ handling.map .happens) :: turns, ?_, ?_⟩
      · rw [stageHistory_cons, List.map_append, List.map_append, momentsAt_moments, heq]
        rfl
      · intro turn hturn
        rcases List.mem_cons.mp hturn with rfl | hturn
        · exact oneTurn_stage h.1
        · exact hlaw turn hturn

end Acceptor

end Gatehouse
