import Gatehouse.Config.Basic
import Gatehouse.Gate.ServeLoop
/-!
# Gates

A gate is a serve loop with a life: it is built idle, started at most once, and stopped for good.
Stopping raises the signal, waits for the loop to end and answers how it ended. A loop that ends
on its own leaves the gate as it is until then, but is observed as stopped.
-/

namespace Gatehouse

/-- Where a gate is in its life, with its loop as long as it has one. -/
inductive Phase where
  | idle (loop : ServeLoop)
  | running (loop : ServeLoop)
  /-- the signal is raised, and the loop, if it was ever started, is waited for -/
  | stopping (loop : Option ServeLoop)
  | stopped

/-- What is observed of the life of a gate. -/
inductive GateState where
  | idle
  | running
  | shuttingDown
  | stopped
deriving DecidableEq

def GateState.name : GateState → String
  | .idle => "Idle"
  | .running => "Running"
  | .shuttingDown => "ShuttingDown"
  | .stopped => "Stopped"

structure Gate where
  name : String
  localAddr : Endpoint
  phase : Phase

namespace Gate

/-- What an operation on a gate leads to. -/
structure Report where
  gate : Gate
  result : Except Fault Unit := .ok ()
  /-- turns of the listener that were not taken -/
  rest : List Turn := []
  events : List StreamEvent := []
  log : List LogRecord := []

/-- A line of the log under the name of the gate. -/
def record (g : Gate) (level : Level) (text : String) : LogRecord :=
  ⟨level, g.name ++ ": " ++ text⟩

/-! ## Building -/

/-- A gate on a bound listener, which says its own address or fails to; with what building it
logs. Without a name in the configuration the address is the name. -/
def create (localAddr : Except IoFailure Endpoint) (config : ListenerConfig) (rule : AccessRule)
    (handler : Handler) (now : Instant) : Except Fault (Gate × List LogRecord) :=
  if config.acceptTimeout.isZero then
    .error (.timeout "accept timeout" config.acceptTimeout)
  else
    match localAddr with
    | .error e => .error (.io e)
    | .ok addr =>
      let name := config.name.getD addr.render
      let limits := config.rateLimits
      let pipeline :=
        Pipeline.create limits.global limits.perHost limits.hostIdleTimeout rule now
      .ok
        ({ name
           localAddr := addr
           phase := .idle { acceptor := { name, pipeline }, handler } },
          HostRegistry.creationLog limits.perHost limits.hostIdleTimeout)

/-- What is observed of a gate. -/
def state (g : Gate) : GateState :=
  match g.phase with
  | .idle _ => .idle
  | .running loop => if loop.hasEnded then .stopped else .running
  | .stopping _ => .shuttingDown
  | .stopped => .stopped

/-! ## Starting -/

/-- The warning about a rate that admits nobody. -/
def rateWarning (g : Gate) (which : String) (rate : Rate) : List LogRecord :=
  if rate.admitsAny then []
  else
    [g.record .warn (which ++ " ratelimit " ++ rate.render ++
      " is below one connection: every connection will be rejected")]

def startLog (g : Gate) (pipeline : Pipeline) : List LogRecord :=
  let global := pipeline.global.rate
  let perHost := pipeline.perHost.rate
  [g.record .info ("starting on " ++ g.localAddr.render),
    g.record .info ("ratelimit: global " ++ global.render ++ ", per-host " ++ perHost.render)] ++
    g.rateWarning "global" global ++ g.rateWarning "per-host" perHost

/-- Starts the loop, which works only once in the life of a gate. -/
def start (g : Gate) : Report :=
  match g.phase with
  | .idle loop =>
    { gate := { g with phase := .running loop }
      log := g.startLog loop.acceptor.pipeline }
  | .running _ | .stopping _ | .stopped =>
    { gate := g, result := .error (.alreadyStarted g.name) }

/-- Turns of the listener of a running gate, until its loop ends. -/
def run (g : Gate) (turns : List Turn) : Report :=
  match g.phase with
  | .running loop =>
    let report := loop.run turns
    { gate := { g with phase := .running report.loop }
      rest := report.rest
      events := report.events
      log := report.log }
  | .idle _ | .stopping _ | .stopped => { gate := g, rest := turns }

/-! ## Stopping -/

/-- The name of the thread that the loop runs on. -/
def threadName (g : Gate) : String := "accept:" ++ g.name

/-- What stopping answers when the loop ended in this way. -/
def resultOf (g : Gate) : LoopEnd → Except Fault Unit
  | .finished => .ok ()
  | .failed e => .error (.io e)
  | .panicked => .error (.panicked g.threadName)

/-- What is logged before the signal is raised. -/
def stopRecord (g : Gate) : LogRecord := g.record .trace "stopping accept thread..."

def requestStop (g : Gate) : Report :=
  match g.phase with
  | .idle loop =>
    { gate := { g with phase := .stopping none }
      log := g.stopRecord :: loop.acceptor.trigger.fireLog }
  | .running loop =>
    { gate := { g with phase := .stopping (some loop.signal) }
      log := g.stopRecord :: loop.acceptor.trigger.fireLog }
  | .stopping _ | .stopped => { gate := g }

/-- Waits for the loop to end. Once the signal is raised a single turn of the listener ends it, so
`last` is all that is needed. -/
def awaitLoop (g : Gate) (last : Turn) : Report :=
  let goodbye := g.record .info "shutdown"
  match g.phase with
  | .stopping none => { gate := { g with phase := .stopped }, log := [goodbye] }
  | .stopping (some loop) =>
    let report := loop.turn last
    { gate := { g with phase := .stopped }
      result := g.resultOf (report.loop.ending.getD .finished)
      events := report.events
      log := report.log ++ [goodbye] }
  | .idle _ | .running _ | .stopped => { gate := g }

/-- Stops the gate; `last` is the call to the listener during which the signal is noticed. A gate
that is stopped stays so. -/
def stop (g : Gate) (last : Turn) : Report :=
  let request := g.requestStop
  let report := request.gate.awaitLoop last
  { report with events := request.events ++ report.events, log := request.log ++ report.log }

/-! ## Dropping -/

/-- What happens when a gate is dropped: the signal is raised, and a loop that still runs ends in
its next turn. -/
def drop (g : Gate) (last : Turn) : List StreamEvent × List LogRecord :=
  match g.phase with
  | .idle loop => ([], loop.acceptor.trigger.fireLog)
  | .running loop | .stopping (some loop) =>
    let report := loop.signal.turn last
    (report.events, loop.acceptor.trigger.fireLog ++ report.log)
  | .stopping none | .stopped => ([], [])

end Gate

end Gatehouse
