import Gatehouse.Admission.Pipeline
import Gatehouse.Shutdown
/-!
# Sessions with a pipeline

A pipeline together with the channel of its shutdown signal and a count of how often its rule of
access was consulted; a session runs operations on the three in any order. The pipeline holds one
of the tokens of the channel.
-/

namespace Gatehouse

/-- A pipeline in use. -/
structure Session where
  pipeline : Pipeline
  channel : SignalChannel := {}
  ruleCalls : Nat := 0

namespace Session

/-- What can be done in a session. Besides connections, the limiters can be used directly. -/
inductive Op where
  | screen (peer : Endpoint) (now : Instant)
  | signal (op : SignalChannel.Op)
  | evictIdle (now : Instant)
  | takeGlobal (now : Instant)
  | takeHost (host : IpAddr) (now : Instant)
deriving DecidableEq

inductive Reply where
  /-- what each token of the channel observes -/
  | readings (raised : List Bool)
  | verdict (v : Verdict)
  | evicted (count : Nat)
  | granted (ok : Bool)
deriving DecidableEq

structure Step where
  session : Session
  reply : Reply
  log : List LogRecord := []

def step (s : Session) : Op → Step
  | .screen peer now =>
    let screening := s.pipeline.screen s.channel.trigger.isRaised peer now
    { session :=
        { s with
          pipeline := screening.pipeline
          ruleCalls := s.ruleCalls + (if screening.ruleConsulted then 1 else 0) }
      reply := .verdict screening.verdict
      log := screening.log }
  | .signal op =>
    let (channel, log) := s.channel.step op
    { session := { s with channel }, reply := .readings channel.readings, log }
  | .evictIdle now =>
    let (perHost, count) := s.pipeline.perHost.evictIdle now
    { session := { s with pipeline := { s.pipeline with perHost } }, reply := .evicted count }
  | .takeGlobal now =>
    let (global, ok) := s.pipeline.global.tryTake now
    { session := { s with pipeline := { s.pipeline with global } }, reply := .granted ok }
  | .takeHost host now =>
    let (perHost, ok) := s.pipeline.perHost.tryTake host now
    { session := { s with pipeline := { s.pipeline with perHost } }
      reply := .granted ok
      log := s.pipeline.perHost.lookupLog now }

/-- A run of operations: the steps in order. -/
def steps (s : Session) : List Op → List Step
  | [] => []
  | op :: ops => s.step op :: steps (s.step op).session ops

/-- The session after a run of operations. -/
def run (s : Session) (ops : List Op) : Session :=
  ops.foldl (fun s op => (s.step op).session) s

end Session

end Gatehouse
