import Gatehouse.Proofs.Listener.AcceptLoop
/-!
# The accept loop, moment by moment

A turn of the accept loop is a sequence of moments between which anything else may happen: the
call to the listener begins and ends, the signal is read for the loop and, for a connection, once
more by the pipeline, and the stream is returned or closed. The history of a run lists them, each
with the pipeline as it stands just after it. Raising the signal is no moment of the loop's: it
falls between two moments, and shows in what is read from then on.

* `turn_signaled`, `turn_failure`, `turn_connection` — what a turn can do;
* `turn_moments` — a turn is what its history says;
* `calls_are` — and so are successive calls of the loop, however they end.
-/

namespace Gatehouse

/-- What can be told apart in the course of a run. -/
inductive Moment where
  /-- the listener is called -/
  | callBegins
  /-- the call ends with a failure; with a connection, it ends with its stream being yielded -/
  | callFails (e : IoFailure)
  | happens (e : StreamEvent)
  /-- the signal is read for the loop -/
  | loopReads (raised : Bool)
  /-- the signal is read by the pipeline, about a stream -/
  | pipelineReads (stream : Nat) (raised : Bool)
  | judged (stream : Nat) (v : Verdict)
  /-- a call of the accept loop ends because of the signal -/
  | shutsDown
  /-- a call of the accept loop ends with a failure of the listener -/
  | givesUp (e : IoFailure)
deriving DecidableEq

namespace Moment

/-- The reading of the signal, if the moment is one. -/
def reading? : Moment → Option Bool
  | .loopReads raised | .pipelineReads _ raised => some raised
  | _ => none

/-- What happens to a stream. -/
def event? : Moment → Option StreamEvent
  | .happens e => some e
  | _ => none

/-- How a call of the accept loop ends, if the moment ends one. -/
def outcome? : Moment → Option Acceptor.Outcome
  | .happens (.returned stream peer) => some (.admitted stream peer)
  | .shutsDown => some .shuttingDown
  | .givesUp e => some (.failed e)
  | _ => none

end Moment

/-- A moment of a history, with the pipeline just after it. -/
structure HistoryEntry where
  moment : Moment
  pipeline : Pipeline

/-- Some moments at which the pipeline stays the same. -/
def momentsAt (p : Pipeline) (moments : List Moment) : List HistoryEntry :=
  moments.map fun moment => ⟨moment, p⟩

/-- The pipeline at the end of a part of a history that begins with this one. -/
def lastPipeline (p : Pipeline) (entries : List HistoryEntry) : Pipeline :=
  entries.foldl (fun _ entry => entry.pipeline) p

theorem lastPipeline_append (p : Pipeline) (xs ys : List HistoryEntry) :
    lastPipeline p (xs ++ ys) = lastPipeline (lastPipeline p xs) ys :=
  List.foldl_append

theorem lastPipeline_momentsAt (p : Pipeline) (moments : List Moment) :
    lastPipeline p (momentsAt p moments) = p := by
  induction moments with
  | nil => rfl
  | cons m moments ih => exact ih

/-! ## What a turn can do -/

namespace Acceptor

/-- The trigger when the signal is read for the loop. -/
def triggerAtLoop (a : Acceptor) (t : Turn) : Trigger := (raiseIf t.raisedInCall a.trigger).1

/-- The trigger when the pipeline reads the signal. -/
def triggerAtPipeline (a : Acceptor) (t : Turn) : Trigger :=
  (raiseIf t.raisedInBetween (a.triggerAtLoop t)).1

/-- What the pipeline makes of a connection that the loop puts to it. -/
def screening (a : Acceptor) (t : Turn) (peer : Endpoint) : Screening :=
  a.pipeline.screen (a.triggerAtPipeline t).isRaised peer t.now

/-- The moments of a turn. -/
def turnHistory (a : Acceptor) (t : Turn) : List HistoryEntry :=
  let raised := (a.triggerAtLoop t).isRaised
  match t.arrival with
  | .failure e =>
      momentsAt a.pipeline
        ([.callBegins, .callFails e, .loopReads raised] ++
          if raised then [.shutsDown] else if e.isTransient then [] else [.givesUp e])
  | .connection peer =>
      let stream := a.streams + 1
      let opening := [.callBegins, .happens (.yielded stream peer), .loopReads raised]
      if raised then
        momentsAt a.pipeline (opening ++ [.happens (.closed stream), .shutsDown])
      else
        let screening := a.screening t peer
        momentsAt a.pipeline
            (opening ++ [.pipelineReads stream (a.triggerAtPipeline t).isRaised]) ++
          momentsAt screening.pipeline
            [.judged stream screening.verdict,
              match screening.verdict with
              | .admitted => .happens (.returned stream peer)
              | .rejected _ => .happens (.closed stream)]

/-- The acceptor after some turns; whenever a call of the loop has ended, the next is made. -/
def afterTurns (a : Acceptor) (ts : List Turn) : Acceptor :=
  ts.foldl (fun a t => (a.turn t).acceptor) a

/-- What becomes of the result that a turn brings. -/
def turnFate (a : Acceptor) (t : Turn) : Fate :=
  let raised := (a.triggerAtLoop t).isRaised
  match t.arrival with
  | .failure e => if raised || e.isTransient then .passedOver e else .fatal e
  | .connection peer =>
      if raised then .turnedAway (a.streams + 1) peer .shuttingDown
      else .ofVerdict (a.streams + 1) peer (a.screening t peer).verdict

/-- What becomes of the results that some turns bring. -/
def turnFates (a : Acceptor) : List Turn → List Fate
  | [] => []
  | t :: ts => a.turnFate t :: (a.turn t).acceptor.turnFates ts

variable {a : Acceptor} {t : Turn} {peer : Endpoint} {e : IoFailure}

/-- The signal is raised when it is read for the loop: the turn ends the call, and closes the
stream if it brought one. -/
theorem turn_signaled (raised : (a.triggerAtLoop t).isRaised = true) :
    (a.turn t).acceptor =
        { a with
          trigger := a.triggerAtLoop t
          streams := a.streams + (connectionsOf [t]).length } ∧
      (a.turn t).ending = .shuttingDown ∧
      (a.turn t).events =
        match t.arrival with
        | .failure _ => []
        | .connection peer => [.yielded (a.streams + 1) peer, .closed (a.streams + 1)] := by
  unfold triggerAtLoop at raised ⊢
  cases harr : t.arrival with
  | failure e => simp [turn, failureTurn, harr, raised, connectionsOf_failure harr]
  | connection peer => simp [turn, connectionTurn, harr, raised, connectionsOf_connection harr]

/-- An unread signal has not been raised during the call. -/
theorem triggerAtLoop_of_unread (unread : (a.triggerAtLoop t).isRaised = false) :
    a.triggerAtLoop t = a.trigger := by
  unfold triggerAtLoop raiseIf at unread ⊢
  cases hcall : t.raisedInCall with
  | false => rfl
  | true =>
      rw [hcall] at unread
      cases htrigger : a.trigger <;> simp [htrigger, Trigger.fire, Trigger.isRaised] at unread

theorem turn_failure (unread : (a.triggerAtLoop t).isRaised = false)
    (harr : t.arrival = .failure e) :
    (a.turn t).acceptor = a ∧
      (a.turn t).ending = (if e.isTransient then .again else .failed e) ∧
      (a.turn t).events = [] := by
  have hsame := triggerAtLoop_of_unread unread
  have hacceptor : { a with trigger := a.triggerAtLoop t } = a := by rw [hsame]
  unfold triggerAtLoop at unread hacceptor
  cases htransient : e.isTransient <;>
    simp [turn, failureTurn, harr, unread, htransient, hacceptor]

theorem turn_connection (unread : (a.triggerAtLoop t).isRaised = false)
    (harr : t.arrival = .connection peer) :
    (a.turn t).acceptor =
        { a with
          trigger := a.triggerAtPipeline t
          pipeline := (a.screening t peer).pipeline
          streams := a.streams + 1 } ∧
      (a.turn t).ending =
        (match (a.screening t peer).verdict with
        | .admitted => .admitted (a.streams + 1) peer
        | .rejected _ => .again) ∧
      (a.turn t).events =
        [.yielded (a.streams + 1) peer,
          match (a.screening t peer).verdict with
          | .admitted => .returned (a.streams + 1) peer
          | .rejected _ => .closed (a.streams + 1)] := by
  unfold screening triggerAtPipeline
  unfold triggerAtLoop at unread ⊢
  cases hv : (a.pipeline.screen
      (raiseIf t.raisedInBetween (raiseIf t.raisedInCall a.trigger).1).1.isRaised
      peer t.now).verdict <;>
    simp [turn, connectionTurn, harr, unread, hv]

theorem turnHistory_signaled (raised : (a.triggerAtLoop t).isRaised = true) :
    a.turnHistory t = momentsAt a.pipeline
      (match t.arrival with
      | .failure e => [.callBegins, .callFails e, .loopReads true, .shutsDown]
      | .connection peer =>
          [.callBegins, .happens (.yielded (a.streams + 1) peer), .loopReads true,
            .happens (.closed (a.streams + 1)), .shutsDown]) := by
  unfold turnHistory
  rw [raised]
  cases t.arrival <;> rfl

theorem turnHistory_failure (unread : (a.triggerAtLoop t).isRaised = false)
    (harr : t.arrival = .failure e) :
    a.turnHistory t = momentsAt a.pipeline
      ([.callBegins, .callFails e, .loopReads false] ++
        if e.isTransient then [] else [.givesUp e]) := by
  simp [turnHistory, harr, unread]

theorem turnHistory_connection (unread : (a.triggerAtLoop t).isRaised = false)
    (harr : t.arrival = .connection peer) :
    a.turnHistory t =
      momentsAt a.pipeline
          [.callBegins, .happens (.yielded (a.streams + 1) peer), .loopReads false,
            .pipelineReads (a.streams + 1) (a.triggerAtPipeline t).isRaised] ++
        momentsAt (a.screening t peer).pipeline
          [.judged (a.streams + 1) (a.screening t peer).verdict,
            match (a.screening t peer).verdict with
            | .admitted => .happens (.returned (a.streams + 1) peer)
            | .rejected _ => .happens (.closed (a.streams + 1))] := by
  simp [turnHistory, harr, unread]

/-- The ways a turn can go. -/
theorem turn_ways (a : Acceptor) (t : Turn) :
    (a.triggerAtLoop t).isRaised = true ∨
      (∃ e, (a.triggerAtLoop t).isRaised = false ∧ t.arrival = .failure e) ∨
      ∃ peer, (a.triggerAtLoop t).isRaised = false ∧ t.arrival = .connection peer := by
  cases (a.triggerAtLoop t).isRaised <;> cases t.arrival <;> simp

/-! ## A turn is what its history says -/

theorem momentsAt_moments (p : Pipeline) (moments : List Moment) :
    (momentsAt p moments).map (·.moment) = moments := by
  simp [momentsAt, Function.comp_def]

/-- The moments of a turn, without the pipeline. -/
def turnMoments (a : Acceptor) (t : Turn) : List Moment := (a.turnHistory t).map (·.moment)

theorem turnMoments_signaled (raised : (a.triggerAtLoop t).isRaised = true) :
    a.turnMoments t =
      match t.arrival with
      | .failure e => [.callBegins, .callFails e, .loopReads true, .shutsDown]
      | .connection peer =>
          [.callBegins, .happens (.yielded (a.streams + 1) peer), .loopReads true,
            .happens (.closed (a.streams + 1)), .shutsDown] := by
  rw [turnMoments, turnHistory_signaled raised, momentsAt_moments]

theorem turnMoments_failure (unread : (a.triggerAtLoop t).isRaised = false)
    (harr : t.arrival = .failure e) :
    a.turnMoments t = [.callBegins, .callFails e, .loopReads false] ++
      if e.isTransient then [] else [.givesUp e] := by
  rw [turnMoments, turnHistory_failure unread harr, momentsAt_moments]

theorem turnMoments_connection (unread : (a.triggerAtLoop t).isRaised = false)
    (harr : t.arrival = .connection peer) :
    a.turnMoments t =
      [.callBegins, .happens (.yielded (a.streams + 1) peer), .loopReads false,
        .pipelineReads (a.streams + 1) (a.triggerAtPipeline t).isRaised,
        .judged (a.streams + 1) (a.screening t peer).verdict,
        match (a.screening t peer).verdict with
        | .admitted => .happens (.returned (a.streams + 1) peer)
        | .rejected _ => .happens (.closed (a.streams + 1))] := by
  rw [turnMoments, turnHistory_connection unread harr, List.map_append, momentsAt_moments,
    momentsAt_moments]
  rfl

theorem turn_moments (a : Acceptor) (t : Turn) :
    (a.turnMoments t).filterMap Moment.event? = (a.turn t).events ∧
      (a.turnMoments t).filterMap Moment.outcome? = (a.turn t).ending.outcome?.toList := by
  rcases a.turn_ways t with raised | ⟨e, unread, harr⟩ | ⟨peer, unread, harr⟩
  · obtain ⟨-, hending, hevents⟩ := turn_signaled raised
    rw [turnMoments_signaled raised, hending, hevents]
    cases t.arrival <;> exact ⟨rfl, rfl⟩
  · obtain ⟨-, hending, hevents⟩ := turn_failure unread harr
    rw [turnMoments_failure unread harr, hending, hevents]
    cases e.isTransient <;> exact ⟨rfl, rfl⟩
  · obtain ⟨-, hending, hevents⟩ := turn_connection unread harr
    rw [turnMoments_connection unread harr, hending, hevents]
    cases (a.screening t peer).verdict <;> exact ⟨rfl, rfl⟩

/-- A turn does to its stream what the fate of its result says. -/
theorem turn_events (a : Acceptor) (t : Turn) :
    (a.turn t).events = (a.turnFate t).events := by
  unfold turnFate
  rcases a.turn_ways t with raised | ⟨e, unread, harr⟩ | ⟨peer, unread, harr⟩
  · obtain ⟨-, -, hevents⟩ := turn_signaled raised
    rw [hevents, raised]
    cases t.arrival <;> rfl
  · obtain ⟨-, -, hevents⟩ := turn_failure unread harr
    rw [hevents, unread, harr]
    cases h : e.isTransient <;> simp [h, Fate.events]
  · obtain ⟨-, -, hevents⟩ := turn_connection unread harr
    rw [hevents, unread, harr]
    cases h : (a.screening t peer).verdict <;> simp [h, Fate.ofVerdict, Fate.events]

theorem turn_streams (a : Acceptor) (t : Turn) :
    (a.turn t).acceptor.streams = a.streams + (connectionsOf [t]).length ∧
      (a.turnFate t).stream?.toList = List.range' (a.streams + 1) (connectionsOf [t]).length := by
  unfold turnFate
  rcases a.turn_ways t with raised | ⟨e, unread, harr⟩ | ⟨peer, unread, harr⟩
  · obtain ⟨hmove, -, -⟩ := turn_signaled raised
    rw [hmove, raised]
    cases harr : t.arrival with
    | failure e => simp [connectionsOf_failure harr, Fate.stream?]
    | connection peer => simp [connectionsOf_connection harr, Fate.stream?]
  · obtain ⟨hmove, -, -⟩ := turn_failure unread harr
    rw [hmove, unread, harr, connectionsOf_failure harr]
    cases h : e.isTransient <;> simp [h, Fate.stream?]
  · obtain ⟨hmove, -, -⟩ := turn_connection unread harr
    rw [hmove, unread, harr, connectionsOf_connection harr]
    cases h : (a.screening t peer).verdict <;> simp [h, Fate.ofVerdict, Fate.stream?]

/-- Streams are numbered in the order in which they are yielded. -/
theorem turnFates_streams (a : Acceptor) (ts : List Turn) :
    (a.turnFates ts).filterMap Fate.stream? =
      List.range' (a.streams + 1) (connectionsOf ts).length := by
  induction ts generalizing a with
  | nil => rfl
  | cons t ts ih =>
      obtain ⟨hstreams, hfate⟩ := turn_streams a t
      have hsplit : connectionsOf (t :: ts) = connectionsOf [t] ++ connectionsOf ts :=
        connectionsOf_append [t] ts
      have hcons : (a.turnFates (t :: ts)).filterMap Fate.stream? =
          (a.turnFate t).stream?.toList ++
            ((a.turn t).acceptor.turnFates ts).filterMap Fate.stream? := by
        rw [turnFates, List.filterMap_cons]
        cases (a.turnFate t).stream? <;> rfl
      rw [hcons, hfate, ih, hstreams, hsplit, List.length_append, Nat.add_right_comm,
        List.range'_append_1]

theorem turnFates_nodup (a : Acceptor) (ts : List Turn) :
    ((a.turnFates ts).filterMap Fate.stream?).Nodup := by
  rw [turnFates_streams]
  exact List.nodup_range'

/-! ## Runs -/

/-- A turn, and what is done with streams outside the accept loop before the next one. -/
abbrev Stage := Turn × List StreamEvent

/-- The histories of some turns, each with what is done with streams after it. -/
def stageHistories (a : Acceptor) : List Stage → List (List HistoryEntry)
  | [] => []
  | (t, handling) :: stages =>
      (a.turnHistory t ++ momentsAt (a.turn t).acceptor.pipeline (handling.map .happens)) ::
        (a.turn t).acceptor.stageHistories stages

def stageHistory (a : Acceptor) (stages : List Stage) : List HistoryEntry :=
  (a.stageHistories stages).flatten

/-- The history of some turns of the accept loop alone. -/
def history (a : Acceptor) (ts : List Turn) : List HistoryEntry :=
  a.stageHistory (ts.map fun t => (t, []))

theorem stageHistory_cons (a : Acceptor) (t : Turn) (handling : List StreamEvent)
    (stages : List Stage) :
    a.stageHistory ((t, handling) :: stages) =
      a.turnHistory t ++ momentsAt (a.turn t).acceptor.pipeline (handling.map .happens) ++
        (a.turn t).acceptor.stageHistory stages := by
  simp [stageHistory, stageHistories]

theorem history_cons (a : Acceptor) (t : Turn) (ts : List Turn) :
    a.history (t :: ts) = a.turnHistory t ++ (a.turn t).acceptor.history ts := by
  simp [history, stageHistory_cons, momentsAt]

theorem history_append (a : Acceptor) (ts us : List Turn) :
    a.history (ts ++ us) = a.history ts ++ (a.afterTurns ts).history us := by
  induction ts generalizing a with
  | nil => rfl
  | cons t ts ih =>
      rw [List.cons_append, history_cons, history_cons, ih, List.append_assoc]
      rfl

theorem afterTurns_append (a : Acceptor) (ts us : List Turn) :
    a.afterTurns (ts ++ us) = (a.afterTurns ts).afterTurns us :=
  List.foldl_append

theorem turnHistory_pipeline (a : Acceptor) (t : Turn) :
    lastPipeline a.pipeline (a.turnHistory t) = (a.turn t).acceptor.pipeline := by
  rcases a.turn_ways t with raised | ⟨e, unread, harr⟩ | ⟨peer, unread, harr⟩
  · rw [turnHistory_signaled raised, lastPipeline_momentsAt, (turn_signaled raised).1]
  · rw [turnHistory_failure unread harr, lastPipeline_momentsAt, (turn_failure unread harr).1]
  · rw [turnHistory_connection unread harr, lastPipeline_append, lastPipeline_momentsAt,
      (turn_connection unread harr).1]
    rfl

/-- A history ends with the pipeline that its turns lead to. -/
theorem stageHistory_pipeline (a : Acceptor) (stages : List Stage) :
    lastPipeline a.pipeline (a.stageHistory stages) =
      (a.afterTurns (stages.map (·.1))).pipeline := by
  induction stages generalizing a with
  | nil => rfl
  | cons stage stages ih =>
      obtain ⟨t, handling⟩ := stage
      rw [stageHistory_cons, lastPipeline_append, lastPipeline_append, turnHistory_pipeline,
        lastPipeline_momentsAt, ih]
      rfl

theorem history_pipeline (a : Acceptor) (ts : List Turn) :
    lastPipeline a.pipeline (a.history ts) = (a.afterTurns ts).pipeline := by
  rw [history, stageHistory_pipeline, List.map_map]
  congr 2
  exact List.map_id ts

/-- What happens to the streams in the course of some turns. -/
theorem history_events (a : Acceptor) (ts : List Turn) :
    (a.history ts).filterMap (·.moment.event?) = (a.turnFates ts).flatMap Fate.events := by
  induction ts generalizing a with
  | nil => rfl
  | cons t ts ih =>
      have hturn : (a.turnHistory t).filterMap (·.moment.event?) = (a.turnFate t).events := by
        rw [← turn_events, ← (turn_moments a t).1, turnMoments, List.filterMap_map]
        rfl
      rw [history_cons, List.filterMap_append, hturn, ih]
      rfl

/-! ## Calls of the accept loop -/

/-- How a call ended, if it did. -/
def Outcome.ended? : Outcome → Option Outcome
  | .waiting => none
  | o => some o

/-- Calls of the accept loop are these turns, and end where their history says. -/
structure CallsAre (a : Acceptor) (turns taken : List Turn) (calls : List Report) : Prop where
  takes : taken ++ leftOver turns calls = turns
  moved : a.afterCalls calls = a.afterTurns taken
  events : calls.flatMap (·.events) = (a.history taken).filterMap (·.moment.event?)
  outcomes : calls.filterMap (·.outcome.ended?) = (a.history taken).filterMap (·.moment.outcome?)
  /-- A call waits only when there is no result left. -/
  waits : ∀ report ∈ calls, report.outcome = .waiting → leftOver turns calls = []

theorem history_singleton (a : Acceptor) (t : Turn) : a.history [t] = a.turnHistory t := by
  rw [history_cons]
  exact List.append_nil _

theorem turnHistory_events (a : Acceptor) (t : Turn) :
    (a.turnHistory t).filterMap (·.moment.event?) = (a.turn t).events := by
  rw [← (turn_moments a t).1, turnMoments, List.filterMap_map]
  rfl

theorem turnHistory_outcomes (a : Acceptor) (t : Turn) :
    (a.turnHistory t).filterMap (·.moment.outcome?) = (a.turn t).ending.outcome?.toList := by
  rw [← (turn_moments a t).2, turnMoments, List.filterMap_map]
  rfl

theorem ended_of_turn {o : Outcome} (h : (a.turn t).ending.outcome? = some o) :
    o.ended? = some o := by
  cases hend : (a.turn t).ending <;> rw [hend] at h <;> cases h <;> rfl

/-- A call of the accept loop is the turns up to the first that ends it. -/
theorem accept_is (a : Acceptor) (turns : List Turn) :
    ∃ taken, a.CallsAre turns taken [a.accept turns] := by
  induction turns generalizing a with
  | nil => exact ⟨[], rfl, rfl, rfl, rfl, fun _ _ _ => rfl⟩
  | cons t ts ih =>
      cases hend : (a.turn t).ending.outcome? with
      | some o =>
          obtain ⟨h1, h2, h3, h4⟩ := accept_cons_ended a t ts hend
          refine ⟨[t], ?_, ?_, ?_, ?_, ?_⟩
          · simp [leftOver, h3]
          · exact h1
          · rw [history_singleton, turnHistory_events, ← h4]
            simp
          · rw [history_singleton, turnHistory_outcomes, hend]
            simp [h2, ended_of_turn hend]
          · -- A call that a turn has ended does not wait.
            intro report hmem hwait
            have hended := ended_of_turn hend
            rw [List.mem_singleton.mp hmem, h2] at hwait
            rw [hwait] at hended
            cases hended
      | none =>
          obtain ⟨h1, h2, h3, h4⟩ := accept_cons_again a t ts hend
          obtain ⟨taken, later⟩ := ih (a.turn t).acceptor
          refine ⟨t :: taken, ?_, ?_, ?_, ?_, ?_⟩
          · show t :: (taken ++ (a.accept (t :: ts)).rest) = t :: ts
            rw [h3]
            exact congrArg _ later.takes
          · exact h1.trans later.moved
          · have hevents := later.events
            rw [history_cons, List.filterMap_append, turnHistory_events, ← hevents]
            simp [h4]
          · have houtcomes := later.outcomes
            rw [history_cons, List.filterMap_append, turnHistory_outcomes, hend, ← houtcomes]
            simp [List.filterMap_cons, h2]
          · intro report hmem hwait
            rw [List.mem_singleton.mp hmem, h2] at hwait
            show (a.accept (t :: ts)).rest = []
            rw [h3]
            exact later.waits _ (List.mem_singleton_self _) hwait

/-- Successive calls of the accept loop are the turns that they take, one call after the other. -/
theorem calls_are (a : Acceptor) (n : Nat) (turns : List Turn) :
    ∃ taken, a.CallsAre turns taken (a.calls n turns) := by
  induction n generalizing a turns with
  | zero => exact ⟨[], rfl, rfl, rfl, rfl, fun _ hmem => absurd hmem List.not_mem_nil⟩
  | succ n ih =>
      obtain ⟨taken, first⟩ := accept_is a turns
      by_cases hwait : (a.accept turns).outcome = .waiting
      · rw [calls_succ_waiting a n turns hwait]
        exact ⟨taken, first⟩
      · rw [calls_succ_ended a n turns hwait]
        obtain ⟨later, rest⟩ := ih (a.accept turns).acceptor (a.accept turns).rest
        have hmoved : (a.accept turns).acceptor = a.afterTurns taken := first.moved
        have htakes : taken ++ (a.accept turns).rest = turns := first.takes
        refine ⟨taken ++ later, ?_, ?_, ?_, ?_, ?_⟩
        · rw [List.append_assoc]
          exact (congrArg (taken ++ ·) rest.takes).trans htakes
        · rw [afterTurns_append, ← hmoved]
          exact rest.moved
        · rw [history_append, List.filterMap_append, ← first.events, ← hmoved, ← rest.events,
            ← List.flatMap_append]
          rfl
        · rw [history_append, List.filterMap_append, ← first.outcomes, ← hmoved, ← rest.outcomes,
            ← List.filterMap_append]
          rfl
        · -- The first call does not wait, so the report is one of the later ones.
          intro report hmem hw
          rcases List.mem_cons.mp hmem with rfl | hmem
          · exact absurd hw hwait
          · exact rest.waits report hmem hw

end Acceptor

end Gatehouse
