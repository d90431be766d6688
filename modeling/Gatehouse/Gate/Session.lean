import Gatehouse.Gate.Basic
import Gatehouse.Listener.Script
/-!
# Sessions with a gate

A gate on a scripted listener, to which lines can be added at any time. As long as the gate runs,
its loop uses up the script between operations; then every call of the listener times out.
-/

namespace Gatehouse

/-- A gate in use, until it is dropped. -/
structure GateSession where
  gate : Option Gate
  acceptTimeout : Duration
  /-- what the listener has yet to yield -/
  pending : List Turn := []
  /-- the timeout that was last given to the listener -/
  timeoutSeen : Option Duration := none

namespace GateSession

/-- What can be done in a session. -/
inductive Op where
  | start
  | stop
  | observe
  | drop
  | feed (turns : List Turn)
deriving DecidableEq

/-- What an operation leads to, after the loop has used up the script. -/
structure Step where
  session : GateSession
  result : Except Fault Unit := .ok ()
  events : List StreamEvent := []
  log : List LogRecord := []

/-- The call that finds the script used up. -/
def idleTurn : Turn where
  arrival := .failure (Script.failure .timedOut)
  now := .origin

/-- The next call of the listener. -/
def nextTurn (s : GateSession) : Turn := s.pending.headD idleTurn

/-- What is observed of the gate, as long as it exists. -/
def state (s : GateSession) : Option GateState := s.gate.map Gate.state

/-- The session with the gate that an operation leaves, and what it answers. -/
def stepOf (s : GateSession) (report : Gate.Report) : Step :=
  { session := { s with gate := some report.gate }
    result := report.result
    events := report.events
    log := report.log }

def apply (s : GateSession) (op : Op) : Step :=
  match s.gate, op with
  | some gate, .start =>
    let step := s.stepOf gate.start
    let seen := if step.result.isOk then some s.acceptTimeout else s.timeoutSeen
    { step with session := { step.session with timeoutSeen := seen } }
  | some gate, .stop => s.stepOf (gate.stop s.nextTurn)
  | some gate, .drop =>
    let (events, log) := gate.drop s.nextTurn
    { session := { s with gate := none }, events, log }
  | _, .feed turns => { session := { s with pending := s.pending ++ turns } }
  | some _, .observe => { session := s }
  | none, .start | none, .stop | none, .observe | none, .drop => { session := s }

/-- The loop of a running gate uses up the script. -/
def settle (s : GateSession) : Step :=
  match s.gate with
  | some gate =>
    let report := gate.run s.pending
    { session := { s with gate := some report.gate, pending := report.rest }
      events := report.events
      log := report.log }
  | none => { session := s }

/-- An operation and what the loop then does. -/
def step (s : GateSession) (op : Op) : Step :=
  let done := s.apply op
  let settled := done.session.settle
  { session := settled.session
    result := done.result
    events := done.events ++ settled.events
    log := done.log ++ settled.log }

/-- A run of operations: the steps in order. -/
def steps (s : GateSession) : List Op → List Step
  | [] => []
  | op :: ops => s.step op :: steps (s.step op).session ops

/-- The session after a run of operations. -/
def run (s : GateSession) (ops : List Op) : GateSession :=
  ops.foldl (fun s op => (s.step op).session) s

end GateSession

end Gatehouse
