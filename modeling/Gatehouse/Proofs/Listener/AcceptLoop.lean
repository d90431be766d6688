import Mathlib
import Gatehouse.Listener.Acceptor
/-!
# What the accept loop does with the results of its listener

Successive calls of the accept loop, as long as the shutdown signal is not raised, are told by a
single fold: the pipeline goes over the connections among the listener's results, in order and
past all failures, and that alone fixes what becomes of every result (`Pipeline.fates`). The
calls merely cut this list of fates into shares, each ending at the first fate that ends a call.

* `turn_quiet` — one turn carries out one fate;
* `accept_quiet` — one call carries out one share;
* `accept_calls_account_for_every_result` — any number of calls, from any pipeline.
-/

namespace Gatehouse

/-- The signal is not raised during a turn. -/
def Turn.IsQuiet (t : Turn) : Prop :=
  t.raisedInCall = false ∧ t.raisedInBetween = false

/-- The connection among the results of a listener that a turn brings, if it brings one, and the
clock when it is screened. -/
def Turn.connection? (t : Turn) : Option (Endpoint × Instant) :=
  match t.arrival with
  | .connection peer => some (peer, t.now)
  | .failure _ => none

/-- The connections among some results; failures are skipped. -/
def connectionsOf (turns : List Turn) : List (Endpoint × Instant) :=
  turns.filterMap Turn.connection?

@[simp] theorem connectionsOf_nil : connectionsOf [] = [] := rfl

@[simp] theorem connectionsOf_append (ts us : List Turn) :
    connectionsOf (ts ++ us) = connectionsOf ts ++ connectionsOf us :=
  List.filterMap_append

theorem connectionsOf_failure {t : Turn} {e : IoFailure} (h : t.arrival = .failure e) :
    connectionsOf [t] = [] := by
  simp [connectionsOf, Turn.connection?, h]

theorem connectionsOf_connection {t : Turn} {peer : Endpoint}
    (h : t.arrival = .connection peer) : connectionsOf [t] = [(peer, t.now)] := by
  simp [connectionsOf, Turn.connection?, h]

namespace Pipeline

/-- The pipeline after connections were put to it in order. -/
def afterAll (p : Pipeline) (connections : List (Endpoint × Instant)) : Pipeline :=
  connections.foldl (fun p c => (p.screen false c.1 c.2).pipeline) p

/-- The verdicts on connections that are put to the pipeline in order. -/
def verdicts (p : Pipeline) : List (Endpoint × Instant) → List Verdict
  | [] => []
  | c :: rest =>
      (p.screen false c.1 c.2).verdict :: (p.screen false c.1 c.2).pipeline.verdicts rest

end Pipeline

/-! ## Fates -/

/-- What becomes of one result of the listener. -/
inductive Fate where
  | returned (stream : Nat) (peer : Endpoint)
  | turnedAway (stream : Nat) (peer : Endpoint) (why : Rejection)
  | passedOver (e : IoFailure)
  | fatal (e : IoFailure)
deriving DecidableEq

/-- Kinds of failure that the loop passes over. -/
def passingKinds : List IoKind :=
  [.timedOut, .wouldBlock, .interrupted, .connectionAborted, .connectionReset]

namespace Fate

/-- What a verdict makes of a connection. -/
def ofVerdict (stream : Nat) (peer : Endpoint) : Verdict → Fate
  | .admitted => .returned stream peer
  | .rejected why => .turnedAway stream peer why

/-- How a call ends that meets this fate; a call goes on past all others. -/
def outcome? : Fate → Option Acceptor.Outcome
  | .returned stream peer => some (.admitted stream peer)
  | .fatal e => some (.failed e)
  | .turnedAway .. | .passedOver _ => none

/-- What happens to the stream, from its being yielded to the next call to the listener. -/
def events : Fate → List StreamEvent
  | .returned stream peer => [.yielded stream peer, .returned stream peer]
  | .turnedAway stream peer _ => [.yielded stream peer, .closed stream]
  | .passedOver _ | .fatal _ => []

/-- The verdict on a connection; failures have none. -/
def verdict? : Fate → Option Verdict
  | .returned .. => some .admitted
  | .turnedAway _ _ why => some (.rejected why)
  | .passedOver _ | .fatal _ => none

/-- The stream that is returned, if one is. -/
def returned? : Fate → Option (Nat × Endpoint)
  | .returned stream peer => some (stream, peer)
  | _ => none

/-- The stream that a result brings, if it brings one. -/
def stream? : Fate → Option Nat
  | .returned stream _ => some stream
  | .turnedAway stream _ _ => some stream
  | .passedOver _ | .fatal _ => none

end Fate

namespace Pipeline

/-- What becomes of a result, `streams` streams having been yielded before. -/
def fateOf (p : Pipeline) (streams : Nat) (t : Turn) : Fate :=
  match t.arrival with
  | .connection peer => .ofVerdict (streams + 1) peer (p.screen false peer t.now).verdict
  | .failure e => if e.kind ∈ passingKinds then .passedOver e else .fatal e

/-- What becomes of results, in order: the pipeline is folded over the connections. -/
def fates (p : Pipeline) (streams : Nat) : List Turn → List Fate
  | [] => []
  | t :: ts =>
      p.fateOf streams t ::
        (p.afterAll (connectionsOf [t])).fates (streams + (connectionsOf [t]).length) ts

end Pipeline

/-! ## Successive calls -/

namespace Acceptor

/-- Successive calls of the accept loop, each on the results that the one before it left. A call
that is still waiting is the last one. -/
def calls (a : Acceptor) : Nat → List Turn → List Report
  | 0, _ => []
  | n + 1, ts =>
      let report := a.accept ts
      if report.outcome = .waiting then [report]
      else report :: report.acceptor.calls n report.rest

/-- The results that some calls leave. -/
def leftOver (turns : List Turn) (calls : List Report) : List Turn :=
  calls.foldl (fun _ report => report.rest) turns

/-- The acceptor after some calls. -/
def afterCalls (a : Acceptor) (calls : List Report) : Acceptor :=
  calls.foldl (fun _ report => report.acceptor) a

/-- The connection that a call returns, if it does. -/
def Outcome.connection? : Outcome → Option (Nat × Endpoint)
  | .admitted stream peer => some (stream, peer)
  | _ => none

/-- The turns that a call of the accept loop consists of: one for each call to the listener. -/
def turnReports (a : Acceptor) : List Turn → List TurnReport
  | [] => []
  | t :: ts =>
      a.turn t ::
        (if (a.turn t).ending = .again then (a.turn t).acceptor.turnReports ts else [])

/-- The turns of successive calls. -/
def callReports (a : Acceptor) : Nat → List Turn → List TurnReport
  | 0, _ => []
  | n + 1, ts =>
      a.turnReports ts ++
        (if (a.accept ts).outcome = .waiting then []
        else (a.accept ts).acceptor.callReports n (a.accept ts).rest)

/-- The acceptor after results whose connections the pipeline has screened. -/
def past (a : Acceptor) (turns : List Turn) : Acceptor :=
  { a with
    pipeline := a.pipeline.afterAll (connectionsOf turns)
    streams := a.streams + (connectionsOf turns).length }

end Acceptor

/-! ## One turn carries out one fate -/

/-- The outcome of a call that a turn settles, if it settles one. -/
def Acceptor.TurnEnd.outcome? : Acceptor.TurnEnd → Option Acceptor.Outcome
  | .again => none
  | .admitted stream peer => some (.admitted stream peer)
  | .shuttingDown => some .shuttingDown
  | .failed e => some (.failed e)

theorem isTransient_iff (e : IoFailure) : e.isTransient = true ↔ e.kind ∈ passingKinds := by
  unfold IoFailure.isTransient
  cases e.kind <;> simp [IoKind.isTransient, passingKinds]

namespace Acceptor

@[simp] theorem past_trigger (a : Acceptor) (ts : List Turn) :
    (a.past ts).trigger = a.trigger := rfl

theorem past_append (a : Acceptor) (ts us : List Turn) :
    a.past (ts ++ us) = (a.past ts).past us := by
  simp [past, connectionsOf, Pipeline.afterAll, Nat.add_assoc]

theorem past_failure (a : Acceptor) {t : Turn} {e : IoFailure} (h : t.arrival = .failure e) :
    a.past [t] = a := by
  simp [past, connectionsOf_failure h, Pipeline.afterAll]

/-- With the signal quiet, a turn does to the streams what the fate of its result says, and moves
the acceptor past the result. -/
theorem turn_quiet (a : Acceptor) (t : Turn) (armed : a.trigger = .armed) (quiet : t.IsQuiet) :
    (a.turn t).acceptor = a.past [t] ∧
      (a.turn t).events = (a.pipeline.fateOf a.streams t).events ∧
      (a.turn t).ending.outcome? = (a.pipeline.fateOf a.streams t).outcome? := by
  obtain ⟨hCall, hBetween⟩ := quiet
  cases harr : t.arrival with
  | failure e =>
      rw [past_failure a harr]
      by_cases transient : e.kind ∈ passingKinds
      · have h := (isTransient_iff e).mpr transient
        simp [turn, raiseIf, failureTurn, harr, hCall, armed, Trigger.isRaised, h,
          Pipeline.fateOf, transient, Fate.events, Fate.outcome?, TurnEnd.outcome?]
        rw [← armed]
      · have h : e.isTransient = false := by
          rw [← Bool.not_eq_true, isTransient_iff]
          exact transient
        simp [turn, raiseIf, failureTurn, harr, hCall, armed, Trigger.isRaised, h,
          Pipeline.fateOf, transient, Fate.events, Fate.outcome?, TurnEnd.outcome?]
        rw [← armed]
  | connection peer =>
      have hconn := connectionsOf_connection harr
      cases hv : (a.pipeline.screen false peer t.now).verdict <;>
        simp [turn, raiseIf, connectionTurn, harr, hCall, hBetween, armed, Trigger.isRaised, hv,
          past, hconn, Pipeline.afterAll, Pipeline.fateOf, Fate.ofVerdict, Fate.events,
          Fate.outcome?, TurnEnd.outcome?]

end Acceptor

/-! ## One call carries out one share -/

theorem Fate.outcome?_ne_waiting (f : Fate) : f.outcome? ≠ some .waiting := by
  cases f <;> simp [Fate.outcome?]

/-- A call carries out these fates and ends like this: at the first fate that ends a call, or,
when there is none among them, not yet. -/
inductive EndsIn : List Fate → Acceptor.Outcome → Prop
  | waiting : EndsIn [] .waiting
  | ended {f : Fate} {o : Acceptor.Outcome} : f.outcome? = some o → EndsIn [f] o
  | again {f : Fate} {fs : List Fate} {o : Acceptor.Outcome} :
      f.outcome? = none → EndsIn fs o → EndsIn (f :: fs) o

namespace Pipeline

theorem fates_append (p : Pipeline) (streams : Nat) (ts us : List Turn) :
    p.fates streams (ts ++ us) =
      p.fates streams ts ++
        (p.afterAll (connectionsOf ts)).fates (streams + (connectionsOf ts).length) us := by
  induction ts generalizing p streams with
  | nil => simp [fates, afterAll]
  | cons t ts ih =>
      have hsplit : connectionsOf (t :: ts) = connectionsOf [t] ++ connectionsOf ts :=
        connectionsOf_append [t] ts
      simp only [List.cons_append, fates, ih, hsplit, List.length_append, Nat.add_assoc]
      simp [afterAll]

theorem fates_singleton (p : Pipeline) (streams : Nat) (t : Turn) :
    p.fates streams [t] = [p.fateOf streams t] := rfl

end Pipeline

namespace Acceptor

/-- A call of the accept loop takes these of the results before it, and does with them what their
fates say. -/
structure CallCarriesOut (a : Acceptor) (turns taken : List Turn) : Prop where
  takes : taken ++ (a.accept turns).rest = turns
  moved : (a.accept turns).acceptor = a.past taken
  events : (a.accept turns).events = (a.pipeline.fates a.streams taken).flatMap Fate.events
  byTurn : (a.turnReports turns).map (·.events) =
    (a.pipeline.fates a.streams taken).map Fate.events
  ends : EndsIn (a.pipeline.fates a.streams taken) (a.accept turns).outcome
  waits : (a.accept turns).outcome = .waiting → (a.accept turns).rest = []

/-- A turn that ends the call is the whole call. -/
theorem accept_cons_ended (a : Acceptor) (t : Turn) (ts : List Turn) {o : Outcome}
    (h : (a.turn t).ending.outcome? = some o) :
    (a.accept (t :: ts)).acceptor = (a.turn t).acceptor ∧
      (a.accept (t :: ts)).outcome = o ∧
      (a.accept (t :: ts)).rest = ts ∧
      (a.accept (t :: ts)).events = (a.turn t).events := by
  cases hend : (a.turn t).ending <;> simp_all [accept, TurnEnd.outcome?]

theorem accept_cons_again (a : Acceptor) (t : Turn) (ts : List Turn)
    (h : (a.turn t).ending.outcome? = none) :
    (a.accept (t :: ts)).acceptor = ((a.turn t).acceptor.accept ts).acceptor ∧
      (a.accept (t :: ts)).outcome = ((a.turn t).acceptor.accept ts).outcome ∧
      (a.accept (t :: ts)).rest = ((a.turn t).acceptor.accept ts).rest ∧
      (a.accept (t :: ts)).events =
        (a.turn t).events ++ ((a.turn t).acceptor.accept ts).events := by
  cases hend : (a.turn t).ending <;> simp_all [accept, TurnEnd.outcome?]

theorem turnReports_cons_ended (a : Acceptor) (t : Turn) (ts : List Turn) {o : Outcome}
    (h : (a.turn t).ending.outcome? = some o) : a.turnReports (t :: ts) = [a.turn t] := by
  cases hend : (a.turn t).ending <;> simp_all [turnReports, TurnEnd.outcome?]

theorem turnReports_cons_again (a : Acceptor) (t : Turn) (ts : List Turn)
    (h : (a.turn t).ending.outcome? = none) :
    a.turnReports (t :: ts) = a.turn t :: (a.turn t).acceptor.turnReports ts := by
  cases hend : (a.turn t).ending <;> simp_all [turnReports, TurnEnd.outcome?]

/-- A turn whose fate ends the call is carried out by it alone. -/
theorem carriesOut_ended {a : Acceptor} {t : Turn} (ts : List Turn) {o : Outcome}
    (armed : a.trigger = .armed) (quiet : t.IsQuiet)
    (hfate : (a.pipeline.fateOf a.streams t).outcome? = some o) :
    a.CallCarriesOut (t :: ts) [t] := by
  obtain ⟨hmove, hevents, hend⟩ := turn_quiet a t armed quiet
  have hended := hend.trans hfate
  obtain ⟨h1, h2, h3, h4⟩ := accept_cons_ended a t ts hended
  refine ⟨by rw [h3]; rfl, by rw [h1, hmove], ?_, ?_, ?_, ?_⟩
  · rw [h4, hevents, Pipeline.fates_singleton]
    simp
  · rw [turnReports_cons_ended a t ts hended, Pipeline.fates_singleton]
    simp [hevents]
  · rw [h2, Pipeline.fates_singleton]
    exact .ended hfate
  · intro hwait
    rw [h2] at hwait
    subst hwait
    exact absurd hfate (Fate.outcome?_ne_waiting _)

/-- A turn whose fate does not end the call comes before what the rest of the call carries out. -/
theorem CallCarriesOut.cons {a : Acceptor} {t : Turn} {ts taken : List Turn}
    (armed : a.trigger = .armed) (quiet : t.IsQuiet)
    (hfate : (a.pipeline.fateOf a.streams t).outcome? = none)
    (h : (a.past [t]).CallCarriesOut ts taken) : a.CallCarriesOut (t :: ts) (t :: taken) := by
  obtain ⟨hmove, hevents, hend⟩ := turn_quiet a t armed quiet
  have hagain := hend.trans hfate
  obtain ⟨h1, h2, h3, h4⟩ := accept_cons_again a t ts hagain
  have h5 := turnReports_cons_again a t ts hagain
  rw [hmove] at h1 h2 h3 h4 h5
  have hfates : a.pipeline.fates a.streams (t :: taken) =
      a.pipeline.fateOf a.streams t ::
        (a.past [t]).pipeline.fates (a.past [t]).streams taken := rfl
  refine ⟨?_, ?_, ?_, ?_, ?_, ?_⟩
  · rw [h3, List.cons_append, h.takes]
  · rw [h1, h.moved, ← past_append]
    rfl
  · rw [h4, hevents, h.events, hfates, List.flatMap_cons]
  · rw [h5, hfates, List.map_cons, List.map_cons, hevents, h.byTurn]
  · rw [h2, hfates]
    exact .again hfate h.ends
  · intro hwait
    rw [h3]
    exact h.waits (h2.symm.trans hwait)

/-- A call takes a first part of its results and carries out their fates. -/
theorem accept_quiet (a : Acceptor) (ts : List Turn) (armed : a.trigger = .armed)
    (quiet : ∀ t ∈ ts, t.IsQuiet) : ∃ taken, a.CallCarriesOut ts taken := by
  induction ts generalizing a with
  | nil => exact ⟨[], rfl, rfl, rfl, rfl, .waiting, fun _ => rfl⟩
  | cons t ts ih =>
      have ht := quiet t List.mem_cons_self
      cases hfate : (a.pipeline.fateOf a.streams t).outcome? with
      | some o => exact ⟨[t], carriesOut_ended ts armed ht hfate⟩
      | none =>
          -- The signal is not touched, so the rest of the call starts from the same premises.
          obtain ⟨taken, hcall⟩ := ih (a.past [t]) armed
            (fun u hu => quiet u (List.mem_cons_of_mem t hu))
          exact ⟨t :: taken, hcall.cons armed ht hfate⟩

end Acceptor

/-! ## Streams are numbered apart -/

namespace Pipeline

/-- Streams are numbered in the order in which they are yielded. -/
theorem fates_streams (p : Pipeline) (streams : Nat) (ts : List Turn) :
    (p.fates streams ts).filterMap Fate.stream? =
      List.range' (streams + 1) (connectionsOf ts).length := by
  induction ts generalizing p streams with
  | nil => rfl
  | cons t ts ih =>
      have hsplit : connectionsOf (t :: ts) = connectionsOf [t] ++ connectionsOf ts :=
        connectionsOf_append [t] ts
      rw [fates, hsplit, List.filterMap_cons, ih]
      cases harr : t.arrival with
      | failure e =>
          by_cases transient : e.kind ∈ passingKinds <;>
            simp [fateOf, harr, transient, Fate.stream?, connectionsOf_failure harr]
      | connection peer =>
          cases hv : (p.screen false peer t.now).verdict <;>
            simp [fateOf, harr, hv, Fate.ofVerdict, Fate.stream?, connectionsOf_connection harr,
              List.range'_succ]

/-- The verdicts among the fates are those of the pipeline on the connections alone. -/
theorem fates_verdicts (p : Pipeline) (streams : Nat) (ts : List Turn) :
    (p.fates streams ts).filterMap Fate.verdict? = p.verdicts (connectionsOf ts) := by
  induction ts generalizing p streams with
  | nil => rfl
  | cons t ts ih =>
      have hsplit : connectionsOf (t :: ts) = connectionsOf [t] ++ connectionsOf ts :=
        connectionsOf_append [t] ts
      rw [fates, hsplit, List.filterMap_cons, ih]
      cases harr : t.arrival with
      | failure e =>
          by_cases transient : e.kind ∈ passingKinds <;>
            simp [fateOf, harr, transient, Fate.verdict?, connectionsOf_failure harr, afterAll]
      | connection peer =>
          cases hv : (p.screen false peer t.now).verdict <;>
            simp [fateOf, harr, hv, Fate.ofVerdict, Fate.verdict?, connectionsOf_connection harr,
              verdicts, afterAll]

end Pipeline

namespace Fate

theorem untouched (fs : List Fate) (stream : Nat) (h : stream ∉ fs.filterMap stream?) :
    .closed stream ∉ fs.flatMap events ∧ ∀ peer, (stream, peer) ∉ fs.filterMap returned? := by
  induction fs with
  | nil => simp
  | cons f fs ih =>
      cases f <;> simp_all [events, returned?, stream?]

/-- Around a fate of a stream, fates of other streams leave that stream alone. -/
theorem untouched_around {before after : List Fate} {f : Fate} {stream : Nat}
    (hf : f.stream? = some stream)
    (apart : ((before ++ f :: after).filterMap stream?).Nodup) :
    stream ∉ before.filterMap stream? ∧ stream ∉ after.filterMap stream? := by
  rw [List.filterMap_append, List.filterMap_cons, hf] at apart
  have h := (List.nodup_cons.mp (List.nodup_middle.mp apart)).1
  rw [List.mem_append, not_or] at h
  exact h

/-- Among fates of different streams, one that is returned is returned once and not closed. -/
theorem returned_once {fs : List Fate} (apart : (fs.filterMap stream?).Nodup) {stream : Nat}
    {peer : Endpoint} (h : .returned stream peer ∈ fs) :
    (fs.filterMap returned?).count (stream, peer) = 1 ∧
      .closed stream ∉ fs.flatMap events := by
  obtain ⟨before, after, rfl⟩ := List.append_of_mem h
  obtain ⟨hbefore, hafter⟩ := untouched_around rfl apart
  obtain ⟨hclosed1, hreturned1⟩ := untouched before stream hbefore
  obtain ⟨hclosed2, hreturned2⟩ := untouched after stream hafter
  have hcount1 := List.count_eq_zero.mpr (hreturned1 peer)
  have hcount2 := List.count_eq_zero.mpr (hreturned2 peer)
  constructor
  · simp [returned?, hcount1, hcount2]
  · rw [List.flatMap_append, List.flatMap_cons]
    simp [events, hclosed1, hclosed2]

/-- Among fates of different streams, one that is turned away is closed once and not returned. -/
theorem closed_once {fs : List Fate} (apart : (fs.filterMap stream?).Nodup) {stream : Nat}
    {peer : Endpoint} {why : Rejection} (h : .turnedAway stream peer why ∈ fs) :
    (fs.flatMap events).count (.closed stream) = 1 ∧
      ∀ other, (stream, other) ∉ fs.filterMap returned? := by
  obtain ⟨before, after, rfl⟩ := List.append_of_mem h
  obtain ⟨hbefore, hafter⟩ := untouched_around rfl apart
  obtain ⟨hclosed1, hreturned1⟩ := untouched before stream hbefore
  obtain ⟨hclosed2, hreturned2⟩ := untouched after stream hafter
  have hcount1 := List.count_eq_zero.mpr hclosed1
  have hcount2 := List.count_eq_zero.mpr hclosed2
  constructor
  · rw [List.flatMap_append, List.flatMap_cons]
    simp [events, hcount1, hcount2]
  · intro other
    rw [List.filterMap_append, List.filterMap_cons]
    simp only [returned?, List.mem_append, not_or]
    exact ⟨hreturned1 other, hreturned2 other⟩

end Fate

/-! ## Any number of calls -/

namespace Acceptor

/-- Calls of the accept loop take these of the results before them, and do with them what their
fates say, each call with a share of its own. -/
structure CallsCarryOut (a : Acceptor) (n : Nat) (turns taken : List Turn)
    (shares : List (List Fate)) : Prop where
  /-- Results are taken in order, from the first on. -/
  takes : taken ++ leftOver turns (a.calls n turns) = turns
  /-- Every result taken is in the share of one call; the shares come in the order of the calls. -/
  inShares : shares.flatten = a.pipeline.fates a.streams taken
  /-- A call goes on until the first connection that is admitted or failure that is not passed
  over, and ends with just that. -/
  ends : List.Forall₂ (fun share report => EndsIn share report.outcome) shares (a.calls n turns)
  events : List.Forall₂ (fun share (report : Report) => report.events = share.flatMap Fate.events)
    shares (a.calls n turns)
  /-- What is to happen to a stream happens before the next call to the listener. -/
  byTurn : (a.callReports n turns).map (·.events) =
    (a.pipeline.fates a.streams taken).map Fate.events
  /-- The pipeline has screened the connections taken, and nothing else happened to it. -/
  moved : a.afterCalls (a.calls n turns) = a.past taken
  /-- A call waits only when there is no result left. -/
  waits : ∀ report ∈ a.calls n turns, report.outcome = .waiting →
    leftOver turns (a.calls n turns) = []
  made : (a.calls n turns).length = n ∨ ∃ report ∈ a.calls n turns, report.outcome = .waiting

theorem calls_succ_waiting (a : Acceptor) (n : Nat) (ts : List Turn)
    (h : (a.accept ts).outcome = .waiting) : a.calls (n + 1) ts = [a.accept ts] := by
  simp [calls, h]

theorem calls_succ_ended (a : Acceptor) (n : Nat) (ts : List Turn)
    (h : (a.accept ts).outcome ≠ .waiting) :
    a.calls (n + 1) ts = a.accept ts :: (a.accept ts).acceptor.calls n (a.accept ts).rest := by
  simp [calls, h]

theorem callReports_succ_waiting (a : Acceptor) (n : Nat) (ts : List Turn)
    (h : (a.accept ts).outcome = .waiting) : a.callReports (n + 1) ts = a.turnReports ts := by
  simp [callReports, h]

theorem callReports_succ_ended (a : Acceptor) (n : Nat) (ts : List Turn)
    (h : (a.accept ts).outcome ≠ .waiting) :
    a.callReports (n + 1) ts =
      a.turnReports ts ++ (a.accept ts).acceptor.callReports n (a.accept ts).rest := by
  simp [callReports, h]

/-- A call that waits is the last one. -/
theorem CallCarriesOut.last {a : Acceptor} {turns taken : List Turn}
    (h : a.CallCarriesOut turns taken) (n : Nat) (hwait : (a.accept turns).outcome = .waiting) :
    a.CallsCarryOut (n + 1) turns taken [a.pipeline.fates a.streams taken] := by
  have hcalls := calls_succ_waiting a n turns hwait
  refine ⟨?_, by simp, ?_, ?_, ?_, ?_, ?_, ?_⟩
  · rw [hcalls]
    exact h.takes
  · rw [hcalls]
    exact .cons h.ends .nil
  · rw [hcalls]
    exact .cons h.events .nil
  · rw [callReports_succ_waiting a n turns hwait]
    exact h.byTurn
  · rw [hcalls]
    exact h.moved
  · intro report _ _
    rw [hcalls]
    exact h.waits hwait
  · exact .inr ⟨a.accept turns, by simp [hcalls], hwait⟩

/-- A call that has ended comes before calls on what it has left. -/
theorem CallCarriesOut.andThen {a : Acceptor} {turns taken later : List Turn}
    {shares : List (List Fate)} {n : Nat} (h : a.CallCarriesOut turns taken)
    (hwait : (a.accept turns).outcome ≠ .waiting)
    (hlater : (a.past taken).CallsCarryOut n (a.accept turns).rest later shares) :
    a.CallsCarryOut (n + 1) turns (taken ++ later)
      (a.pipeline.fates a.streams taken :: shares) := by
  have hcalls := calls_succ_ended a n turns hwait
  have hreports := callReports_succ_ended a n turns hwait
  rw [h.moved] at hcalls hreports
  have hfates : a.pipeline.fates a.streams (taken ++ later) =
      a.pipeline.fates a.streams taken ++
        (a.past taken).pipeline.fates (a.past taken).streams later :=
    Pipeline.fates_append a.pipeline a.streams taken later
  refine ⟨?_, ?_, ?_, ?_, ?_, ?_, ?_, ?_⟩
  · rw [hcalls, List.append_assoc]
    exact (congrArg (taken ++ ·) hlater.takes).trans h.takes
  · rw [hfates, List.flatten_cons, hlater.inShares]
  · rw [hcalls]
    exact .cons h.ends hlater.ends
  · rw [hcalls]
    exact .cons h.events hlater.events
  · rw [hreports, hfates, List.map_append, List.map_append, h.byTurn, hlater.byTurn]
  · rw [hcalls, past_append]
    exact (congrArg (fun b : Acceptor => b.afterCalls _) h.moved).trans hlater.moved
  · -- The first call does not wait, so the report is one of the later ones.
    intro report hmem hw
    rw [hcalls] at hmem ⊢
    rcases List.mem_cons.mp hmem with rfl | hmem
    · exact absurd hw hwait
    · exact hlater.waits report hmem hw
  · rw [hcalls]
    rcases hlater.made with hlen | ⟨report, hmem, hw⟩
    · exact .inl (by simp [hlen])
    · exact .inr ⟨report, List.mem_cons_of_mem _ hmem, hw⟩

theorem calls_quiet (a : Acceptor) (n : Nat) (turns : List Turn) (armed : a.trigger = .armed)
    (quiet : ∀ t ∈ turns, t.IsQuiet) : ∃ taken shares, a.CallsCarryOut n turns taken shares := by
  induction n generalizing a turns with
  | zero => exact ⟨[], [], rfl, rfl, .nil, .nil, rfl, rfl, by simp [calls], .inl rfl⟩
  | succ n ih =>
      obtain ⟨taken, hcall⟩ := accept_quiet a turns armed quiet
      by_cases hwait : (a.accept turns).outcome = .waiting
      · exact ⟨taken, _, hcall.last n hwait⟩
      · have hquiet : ∀ t ∈ (a.accept turns).rest, t.IsQuiet := by
          intro t ht
          apply quiet
          rw [← hcall.takes]
          exact List.mem_append_right taken ht
        obtain ⟨later, shares, hlater⟩ := ih (a.past taken) (a.accept turns).rest armed hquiet
        exact ⟨taken ++ later, _, hcall.andThen hwait hlater⟩

/-- A call returns just the connection whose fate it is to be returned, if its share has one. -/
theorem returned_of_endsIn {share : List Fate} {o : Outcome} (h : EndsIn share o) :
    share.filterMap Fate.returned? = o.connection?.toList := by
  induction h with
  | waiting => rfl
  | @ended f o hf => cases f <;> simp_all [Fate.outcome?, Fate.returned?] <;> subst hf <;> rfl
  | @again f fs o hf _ ih =>
      rw [List.filterMap_cons, ih]
      cases f <;> simp_all [Fate.outcome?, Fate.returned?]

variable {a : Acceptor} {n : Nat} {turns taken : List Turn} {shares : List (List Fate)}

theorem CallsCarryOut.returned (h : a.CallsCarryOut n turns taken shares) :
    (a.calls n turns).filterMap (·.outcome.connection?) =
      (a.pipeline.fates a.streams taken).filterMap Fate.returned? := by
  rw [← h.inShares]
  have hends := h.ends
  clear h
  generalize a.calls n turns = calls at hends
  induction hends with
  | nil => rfl
  | @cons share report shares calls hend _ ih =>
      rw [List.flatten_cons, List.filterMap_append, ← ih, returned_of_endsIn hend,
        List.filterMap_cons]
      cases report.outcome.connection? <;> rfl

theorem CallsCarryOut.allEvents (h : a.CallsCarryOut n turns taken shares) :
    (a.calls n turns).flatMap (·.events) =
      (a.pipeline.fates a.streams taken).flatMap Fate.events := by
  rw [← h.inShares]
  have hevents := h.events
  clear h
  generalize a.calls n turns = calls at hevents
  induction hevents with
  | nil => rfl
  | cons hevent _ ih =>
      rw [List.flatten_cons, List.flatMap_append, List.flatMap_cons, ih, hevent]

/-- **No connection is lost, leaked or returned twice.** From any state of the pipeline and for
any number of calls, the results of the listener are taken in order and meet the fates that the
pipeline, folded over the connections among them, gives them. A connection is returned, by one
call and in the order in which connections are yielded, exactly if the pipeline admits it, and is
then not closed; any other connection is closed once and not returned. -/
theorem accept_calls_account_for_every_result (a : Acceptor) (n : Nat) (turns : List Turn)
    (armed : a.trigger = .armed) (quiet : ∀ t ∈ turns, t.IsQuiet) :
    ∃ taken shares, a.CallsCarryOut n turns taken shares ∧
      let fates := a.pipeline.fates a.streams taken
      let returned := (a.calls n turns).filterMap (·.outcome.connection?)
      let events := (a.calls n turns).flatMap (·.events)
      fates.filterMap Fate.verdict? = a.pipeline.verdicts (connectionsOf taken) ∧
      returned = fates.filterMap Fate.returned? ∧
      (∀ stream peer, .returned stream peer ∈ fates →
        returned.count (stream, peer) = 1 ∧ .closed stream ∉ events) ∧
      (∀ stream peer why, .turnedAway stream peer why ∈ fates →
        events.count (.closed stream) = 1 ∧ ∀ other, (stream, other) ∉ returned) := by
  obtain ⟨taken, shares, h⟩ := calls_quiet a n turns armed quiet
  have apart : ((a.pipeline.fates a.streams taken).filterMap Fate.stream?).Nodup := by
    rw [Pipeline.fates_streams]
    exact List.nodup_range'
  refine ⟨taken, shares, h, Pipeline.fates_verdicts a.pipeline a.streams taken, h.returned,
    ?_, ?_⟩
  · intro stream peer hmem
    rw [h.returned, h.allEvents]
    exact Fate.returned_once apart hmem
  · intro stream peer why hmem
    rw [h.returned, h.allEvents]
    exact Fate.closed_once apart hmem

/-- One admission an hour, in all and for each host. -/
def oneAnHour : Rate :=
  ⟨.one, Duration.ofSeconds 3600, by decide +kernel, by decide +kernel⟩

/-- Two connections of one host with failures around them: the host's second connection is turned
away, and the failure after it is fatal. -/
theorem accept_calls_account_for_a_mixed_run :
    let a : Acceptor :=
      { name := "gate"
        pipeline := .create oneAnHour oneAnHour Rate.second AccessList.any.rule .origin }
    let peer : Endpoint := .v4 10 5000
    let lost : IoFailure := .custom .timedOut "poll accept"
    let broken : IoFailure := .custom .permissionDenied "accept"
    let turns : List Turn :=
      [⟨.failure lost, .origin, false, false⟩, ⟨.connection peer, .origin, false, false⟩,
        ⟨.connection peer, .origin, false, false⟩, ⟨.failure broken, .origin, false, false⟩]
    a.trigger = .armed ∧ (∀ t ∈ turns, t.IsQuiet) ∧
      (a.calls 2 turns).map (·.outcome) = [.admitted 1 peer, .failed broken] ∧
      ∃ taken shares, a.CallsCarryOut 2 turns taken shares := by
  intro a peer lost broken turns
  have quiet : ∀ t ∈ turns, t.IsQuiet := by simp [turns, Turn.IsQuiet]
  obtain ⟨taken, shares, h, -⟩ := accept_calls_account_for_every_result a 2 turns rfl quiet
  exact ⟨rfl, quiet, by decide +kernel, taken, shares, h⟩

end Acceptor

end Gatehouse
