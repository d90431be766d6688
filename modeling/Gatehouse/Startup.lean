import Gatehouse.Config.Decode
import Gatehouse.Relay
/-!
# Starting from a configuration

A gate with a relay for each listener of a configuration, all started in order.
-/

namespace Gatehouse

/-- The configuration in a file, or the fault if there is no such file or it cannot be read. -/
def Config.ofFile (contents : Except IoFailure String) : Except Fault Config := do
  match contents with
  | .error e => throw (.io e)
  | .ok text =>
    match Config.ofText text with
    | .ok config => return config
    | .error e => throw (.config e)

/-- The gate of a listener, given the address that binding it came to. -/
def ListenerConfig.gate (c : ListenerConfig) (bound : Except IoFailure Endpoint) (now : Instant) :
    Except Fault (Gate × List LogRecord) :=
  match bound with
  | .error e => .error (.ofAddressFailure e c.listen)
  | .ok addr => Gate.create (.ok addr) c c.accessList.rule (Relay.ofConfig c).handler now

namespace Config

/-- The level down to which the log is shown, by its name. -/
def levelOf (debug : Bool) (config : Config) : Level :=
  if debug then .debug
  else
    let name := (config.logLevel.getD Level.info.name).toUpper
    ([.error, .warn, .info, .debug, .trace].find? fun level => level.name == name).getD .info

/-- The gates of some listeners, each bound where its configuration says, and what building them
logs. -/
def buildGates (now : Instant) : List ListenerConfig → Except Fault (List Gate × List LogRecord)
  | [] => .ok ([], [])
  | c :: cs => do
    let (gate, log) ← c.gate (.ok c.listen) now
    let (gates, more) ← buildGates now cs
    return (gate :: gates, log ++ more)

/-- What is logged until all gates of a configuration run. -/
def startupLog (config : Config) (now : Instant) : Except Fault (List LogRecord) := do
  let (gates, log) ← buildGates now config.listeners
  let warning := if config.listeners.isEmpty then [⟨.warn, "no listeners configured"⟩] else []
  return warning ++ log ++ gates.flatMap fun gate => gate.start.log

end Config

end Gatehouse
