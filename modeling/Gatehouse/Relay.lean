import Gatehouse.Fault
import Gatehouse.Gate.Basic
/-!
# Relays

A relay connects every admitted connection to a target, each on a thread of its own, so the gate is
not held up. A connection that cannot be relayed is closed. What is passed between the two ends does
not come back to the gate.
-/

namespace Gatehouse

/-- A relay to a target, or to none. -/
structure Relay where
  target : Option Endpoint
  connectTimeout : Duration
deriving DecidableEq

namespace Relay

def ofConfig (config : ListenerConfig) : Relay := ⟨config.target, config.connectTimeout⟩

/-- To the gate, the relay is done with a stream as soon as it has it. -/
def handler (_ : Relay) : Handler := fun _ _ => .closes

/-- The two ends of a connection in the log. -/
def between (peer target : Endpoint) : String := peer.render ++ " ==> " ++ target.render

/-- What is logged when a connection has been handed over, given what connecting to the target
came to. -/
def openingLog (r : Relay) (peer : Endpoint) (connected : Except IoFailure Unit) :
    List LogRecord :=
  match r.target, connected with
  | none, _ => [⟨.info, "no upstream configured: closing " ++ peer.render⟩]
  | some target, .ok () => [⟨.info, "connected: " ++ between peer target⟩]
  | some target, .error e =>
    [⟨.error, "relay error: " ++ between peer target ++ ": " ++ (Fault.io e).message⟩]

end Relay

end Gatehouse
