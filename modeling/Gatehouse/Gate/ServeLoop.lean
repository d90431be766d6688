import Gatehouse.Fault
import Gatehouse.Listener.Acceptor
/-!
# The serve loop

Every connection that the accept loop returns goes to a handler, until the signal or a failure
ends the loop, or the handler panics. A handler closes its stream at once or holds it; held
streams are closed when the loop ends, in the order in which they were admitted.
-/

namespace Gatehouse

/-- What a handler does with a stream. -/
inductive Handling where
  | closes
  /-- the stream stays open as long as the handler exists -/
  | holds
  | panics
deriving DecidableEq

/-- Deals with admitted connections. -/
abbrev Handler := Nat → Endpoint → Handling

inductive LoopEnd where
  /-- it was asked to -/
  | finished
  | failed (e : IoFailure)
  | panicked
deriving DecidableEq

/-- A serve loop: running, or ended and with nothing left open. -/
structure ServeLoop where
  acceptor : Acceptor
  handler : Handler
  /-- open streams with the handler, the first admitted first -/
  held : List Nat := []
  ending : Option LoopEnd := none

namespace ServeLoop

/-- What a turn, or a run of them, leads to, and the turns it left. -/
structure Report where
  loop : ServeLoop
  rest : List Turn := []
  events : List StreamEvent := []
  log : List LogRecord := []

def hasEnded (l : ServeLoop) : Bool := l.ending.isSome

/-- The loop ends; the handler goes, and what it holds is closed. -/
def finish (l : ServeLoop) (ending : LoopEnd) : ServeLoop × List StreamEvent :=
  ({ l with held := [], ending := some ending }, l.held.map .closed)

/-- Hands a stream to the handler. A panic closes the stream and ends the loop. -/
def handle (l : ServeLoop) (stream : Nat) (peer : Endpoint) : ServeLoop × List StreamEvent :=
  match l.handler stream peer with
  | .closes => (l, [.handled stream peer, .closed stream])
  | .holds => ({ l with held := l.held ++ [stream] }, [.handled stream peer])
  | .panics =>
    let (l, closing) := l.finish .panicked
    (l, [.handled stream peer, .closed stream] ++ closing)

/-- What the loop does about the end of a turn of its acceptor. -/
def react (l : ServeLoop) : Acceptor.TurnEnd → ServeLoop × List StreamEvent × List LogRecord
  | .again => (l, [], [])
  | .admitted stream peer =>
    let (next, events) := l.handle stream peer
    (next, events, [l.acceptor.record .debug ("accepted: " ++ peer.render)])
  | .shuttingDown =>
    let (next, events) := l.finish .finished
    (next, events, [l.acceptor.record .debug "accept loop finished"])
  | .failed e =>
    let (next, events) := l.finish (.failed e)
    (next, events,
      [l.acceptor.record .error ("accept loop aborted: " ++ (Fault.io e).message)])

/-- One call to the listener and what the loop does about it. A loop that has ended makes no more
calls. -/
def turn (l : ServeLoop) (t : Turn) : Report :=
  if l.hasEnded then { loop := l }
  else
    let report := l.acceptor.turn t
    let (next, events, log) := { l with acceptor := report.acceptor }.react report.ending
    { loop := next
      events := report.events ++ events
      log := report.log ++ log }

/-- Calls to the listener, in order, until the loop ends. -/
def run (l : ServeLoop) : List Turn → Report
  | [] => { loop := l }
  | t :: ts =>
    if l.hasEnded then { loop := l, rest := t :: ts }
    else
      let report := l.turn t
      let later := run report.loop ts
      { later with events := report.events ++ later.events, log := report.log ++ later.log }

/-- Raises the signal from outside, between two turns. -/
def signal (l : ServeLoop) : ServeLoop :=
  { l with acceptor := { l.acceptor with trigger := l.acceptor.trigger.fire } }

end ServeLoop

end Gatehouse
