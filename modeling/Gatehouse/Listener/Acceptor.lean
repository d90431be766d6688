import Gatehouse.Admission.Pipeline
import Gatehouse.Listener.IoFailure
import Gatehouse.Shutdown
/-!
# The accept loop

A listener yields connections and failures, one for each call. An acceptor makes calls until one
of its outcomes: a connection that the pipeline admits, the shutdown signal, or a failure that
is not transient. Streams are numbered in the order in which they are yielded, and what happens
to them is recorded as events; a connection that is not returned is closed before the next call.

The signal is read once after each call and once by the pipeline. A `Turn` says what a call
yields and whether the signal is raised during the call or between the two readings, so that
every race between the loop and the signal is a list of turns.
-/

namespace Gatehouse

/-- What a call to the listener yields. -/
inductive Arrival where
  | connection (peer : Endpoint)
  | failure (error : IoFailure)
deriving DecidableEq

/-- One call to the listener, and what else happens meanwhile. -/
structure Turn where
  arrival : Arrival
  /-- the clock when a connection is put to the pipeline -/
  now : Instant
  /-- the signal is raised before the call ends -/
  raisedInCall : Bool := false
  /-- the signal is raised after it was read for the loop and before the pipeline reads it -/
  raisedInBetween : Bool := false
deriving DecidableEq

inductive StreamEvent where
  | yielded (stream : Nat) (peer : Endpoint)
  | returned (stream : Nat) (peer : Endpoint)
  | handled (stream : Nat) (peer : Endpoint)
  | closed (stream : Nat)
deriving DecidableEq

/-- An accept loop, with the shutdown signal as it stands. -/
structure Acceptor where
  name : String
  pipeline : Pipeline
  trigger : Trigger := .armed
  /-- how many streams the listener has yielded so far -/
  streams : Nat := 0

namespace Acceptor

inductive TurnEnd where
  /-- the loop calls the listener again -/
  | again
  | admitted (stream : Nat) (peer : Endpoint)
  | shuttingDown
  | failed (error : IoFailure)
deriving DecidableEq

structure TurnReport where
  acceptor : Acceptor
  ending : TurnEnd
  events : List StreamEvent := []
  log : List LogRecord := []

/-- A line of the log under the name of the listener. -/
def record (a : Acceptor) (level : Level) (text : String) : LogRecord :=
  ⟨level, a.name ++ ": " ++ text⟩

/-- The signal and its record after a turn's chance to raise it. -/
def raiseIf (raised : Bool) (trigger : Trigger) : Trigger × List LogRecord :=
  if raised then (trigger.fire, trigger.fireLog) else (trigger, [])

/-- A failure: it is passed over when transient, and ends the loop's call otherwise. The signal
goes before. -/
def failureTurn (a : Acceptor) (e : IoFailure) : TurnReport :=
  if a.trigger.isRaised then { acceptor := a, ending := .shuttingDown }
  else if e.isTransient then
    { acceptor := a, ending := .again, log := [a.record .trace ("accept: " ++ e.message)] }
  else
    { acceptor := a
      ending := .failed e
      log :=
        [a.record .error ("accept error: " ++ e.message),
          a.record .trace ("accept error: " ++ e.details)] }

/-- A connection, as the next stream: it is closed when the signal is raised or the pipeline
turns it away, and returned otherwise. -/
def connectionTurn (a : Acceptor) (peer : Endpoint) (now : Instant) (raisedInBetween : Bool) :
    TurnReport :=
  let stream := a.streams + 1
  let a := { a with streams := stream }
  if a.trigger.isRaised then
    { acceptor := a
      ending := .shuttingDown
      events := [.yielded stream peer, .closed stream]
      log := [a.record .debug ("shutting down: " ++ peer.render)] }
  else
    let (trigger, raiseLog) := raiseIf raisedInBetween a.trigger
    let screening := a.pipeline.screen trigger.isRaised peer now
    let a := { a with trigger, pipeline := screening.pipeline }
    match screening.verdict with
    | .admitted =>
      { acceptor := a
        ending := .admitted stream peer
        events := [.yielded stream peer, .returned stream peer]
        log := raiseLog ++ screening.log }
    | .rejected why =>
      { acceptor := a
        ending := .again
        events := [.yielded stream peer, .closed stream]
        log :=
          raiseLog ++ screening.log ++
            [a.record .debug (why.message ++ ": " ++ peer.render)] }

/-- One call to the listener and what the loop does about it. -/
def turn (a : Acceptor) (t : Turn) : TurnReport :=
  let (trigger, raiseLog) := raiseIf t.raisedInCall a.trigger
  let a := { a with trigger }
  let report :=
    match t.arrival with
    | .failure e => a.failureTurn e
    | .connection peer => a.connectionTurn peer t.now t.raisedInBetween
  { report with log := raiseLog ++ report.log }

/-! ## Whole calls -/

/-- How a call of the accept loop ends. -/
inductive Outcome where
  /-- the call is still waiting: every turn given to it ended in another -/
  | waiting
  | admitted (stream : Nat) (peer : Endpoint)
  | shuttingDown
  | failed (error : IoFailure)
deriving DecidableEq

/-- What a call of the accept loop leads to, and the turns it left. -/
structure Report where
  acceptor : Acceptor
  outcome : Outcome
  rest : List Turn := []
  events : List StreamEvent := []
  log : List LogRecord := []

/-- Waits for the next admitted connection. -/
def accept (a : Acceptor) : List Turn → Report
  | [] => { acceptor := a, outcome := .waiting }
  | t :: ts =>
    let report := a.turn t
    match report.ending with
    | .again =>
      let later := report.acceptor.accept ts
      { later with events := report.events ++ later.events, log := report.log ++ later.log }
    | .admitted stream peer =>
      { acceptor := report.acceptor
        outcome := .admitted stream peer
        rest := ts
        events := report.events
        log := report.log }
    | .shuttingDown =>
      { acceptor := report.acceptor
        outcome := .shuttingDown
        rest := ts
        events := report.events
        log := report.log }
    | .failed e =>
      { acceptor := report.acceptor
        outcome := .failed e
        rest := ts
        events := report.events
        log := report.log }

end Acceptor

end Gatehouse
