import Gatehouse.Fault
import Gatehouse.Listener.Acceptor
/-!
# Scripted listeners

A script says beforehand what a listener yields, call by call, and during which calls the
shutdown signal is raised. Once it is used up every call yields the same failure.
-/

namespace Gatehouse

inductive ScriptEntry where
  | arrival (a : Arrival)
  /-- the signal is raised, and the call goes on to the next line -/
  | raise
deriving DecidableEq

/-- The calls that a script provides for. -/
structure Script where
  turns : List Turn := []
  /-- the signal is raised during the first call after those -/
  raisedAfter : Bool := false
deriving DecidableEq

namespace Script

/-- The calls of a list of lines; `raised` says that the signal is raised in the first one. -/
def ofEntriesFrom (raised : Bool) : List ScriptEntry → Script
  | [] => { raisedAfter := raised }
  | .raise :: entries => ofEntriesFrom true entries
  | .arrival arrival :: entries =>
    let later := ofEntriesFrom false entries
    { later with
      turns := { arrival, now := .origin, raisedInCall := raised } :: later.turns }

/-- The calls of a list of lines. The clock stands still at the origin. -/
def ofEntries (entries : List ScriptEntry) : Script := ofEntriesFrom false entries

/-- The call that finds the script used up. -/
def lastTurn (s : Script) (failure : IoFailure) : Turn where
  arrival := .failure failure
  now := .origin
  raisedInCall := s.raisedAfter

/-- All calls up to the one that finds the script used up. -/
def turnsThrough (s : Script) (failure : IoFailure) : List Turn :=
  s.turns ++ [s.lastTurn failure]

/-- What a listener yields when it fails because its script says so. -/
def failure (kind : IoKind) : IoFailure := .custom kind "scripted"

end Script

/-! ## Sessions with an acceptor -/

/-- An acceptor on a scripted listener. -/
structure AcceptSession where
  acceptor : Acceptor
  acceptTimeout : Duration
  script : Script
  /-- the timeout that was last given to the listener -/
  timeoutSeen : Option Duration := none

namespace AcceptSession

/-- What can be done in a session. -/
inductive Op where
  | accept
  | fire
  | drop
deriving DecidableEq

inductive Reply where
  | done
  | connection (stream : Nat) (peer : Endpoint)
  | fault (f : Fault)
deriving DecidableEq

structure Step where
  session : AcceptSession
  reply : Reply
  events : List StreamEvent := []
  log : List LogRecord := []

/-- The failure after the end of the script; it is not transient, so that every call of the accept
loop ends. -/
def scriptEnd : IoFailure := .custom .other "script end"

/-- The script that is left with the calls that were not made. -/
def scriptOfRest (s : Script) : List Turn → Script
  | [] => {}
  | rest@(_ :: _) => { s with turns := rest.dropLast }

/-- The answer to how a call of the accept loop ended. -/
def Reply.ofOutcome : Acceptor.Outcome → Reply
  | .waiting => .done
  | .admitted stream peer => .connection stream peer
  | .shuttingDown => .fault .shuttingDown
  | .failed e => .fault (.io e)

def step (s : AcceptSession) : Op → Step
  | .accept =>
    let report := s.acceptor.accept (s.script.turnsThrough scriptEnd)
    { session :=
        { s with
          acceptor := report.acceptor
          script := scriptOfRest s.script report.rest
          timeoutSeen := some s.acceptTimeout }
      reply := .ofOutcome report.outcome
      events := report.events
      log := report.log }
  | .fire =>
    { session := { s with acceptor := { s.acceptor with trigger := s.acceptor.trigger.fire } }
      reply := .done
      log := s.acceptor.trigger.fireLog }
  | .drop =>
    { session := { s with acceptor := { s.acceptor with trigger := s.acceptor.trigger.drop } }
      reply := .done }

/-- A run of operations: the steps in order. -/
def steps (s : AcceptSession) : List Op → List Step
  | [] => []
  | op :: ops => s.step op :: steps (s.step op).session ops

/-- The session after a run of operations. -/
def run (s : AcceptSession) (ops : List Op) : AcceptSession :=
  ops.foldl (fun s op => (s.step op).session) s

end AcceptSession

end Gatehouse
