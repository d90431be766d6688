import Gatehouse.Config.Error
import Gatehouse.Listener.IoFailure
/-!
# Faults

Everything that can go wrong with a gate and with what it is built from.
-/

namespace Gatehouse

inductive Fault where
  | io (e : IoFailure)
  | config (e : ConfigError)
  | rate (e : InvalidRate)
  | network (e : NetworkError)
  | timeout (what : String) (length : Duration)
  | addressInUse (addr : Endpoint)
  | addressNotAvailable (addr : Endpoint)
  /-- a lock was held by a thread that panicked -/
  | poisoned (text : String)
  /-- the way in which an accept loop ends when it is asked to -/
  | shuttingDown
  | alreadyStarted (name : String)
  | panicked (thread : String)
deriving DecidableEq

namespace Fault

def message : Fault → String
  | .io e => "io error: " ++ e.message
  | .config e => "config error: " ++ e.message
  | .rate e => e.message
  | .network e => e.message
  | .timeout what length => "invalid " ++ what ++ ": " ++ length.render
  | .addressInUse addr => "address already in use: " ++ addr.render
  | .addressNotAvailable addr => "address not available: " ++ addr.render
  | .poisoned text => "poisoned error: " ++ text
  | .shuttingDown => "listener is shutting down"
  | .alreadyStarted name => "listener already started: " ++ name
  | .panicked thread => "thread panicked: " ++ thread

/-- The fault is no failure: an accept loop was asked to end. -/
def isShuttingDown : Fault → Bool
  | .shuttingDown => true
  | _ => false

/-- A lock is poisoned. -/
def poisonedLock : Fault := .poisoned "PoisonError \x7b .. \x7d"

/-- The fault of a failure on an address: two kinds of failure are about the address itself. -/
def ofAddressFailure (e : IoFailure) (addr : Endpoint) : Fault :=
  match e.kind with
  | .addrInUse => .addressInUse addr
  | .addrNotAvailable => .addressNotAvailable addr
  | _ => .io e

end Fault

end Gatehouse
