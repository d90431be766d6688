import Gatehouse.Access.AccessList
import Gatehouse.Limiter.Global
import Gatehouse.Limiter.HostRegistry
/-!
# The admission pipeline

Every connection passes four checks in order: the shutdown signal, the global limit, the limit
of its host, and the rule of access. The first check that fails decides, and later ones are not
consulted, so a connection refused by the global limit costs its host nothing. Tokens taken by
earlier checks are not given back.
-/

namespace Gatehouse

/-- Why a connection is turned away. -/
inductive Rejection where
  | shuttingDown
  | globalRateLimit
  | hostRateLimit
  | accessDenied
deriving DecidableEq

def Rejection.message : Rejection → String
  | .shuttingDown => "shutting down"
  | .globalRateLimit => "global ratelimit reached"
  | .hostRateLimit => "per-host ratelimit reached"
  | .accessDenied => "ACL failure"

inductive Verdict where
  | admitted
  | rejected (why : Rejection)
deriving DecidableEq

/-- The state and the rule that the checks consult; the signal is read anew for each
connection. -/
structure Pipeline where
  global : GlobalLimiter
  perHost : HostRegistry
  rule : AccessRule

/-- What the checks made of one connection. -/
structure Screening where
  pipeline : Pipeline
  verdict : Verdict
  ruleConsulted : Bool := false
  log : List LogRecord := []

namespace Pipeline

/-- A pipeline with full buckets and no hosts. -/
def create (global perHost : Rate) (idleTimeout : Duration) (rule : AccessRule) (now : Instant) :
    Pipeline where
  global := .create global now
  perHost := .create perHost idleTimeout now
  rule := rule

/-- Puts a connection to the checks; `signaled` is what the shutdown token reads. -/
def screen (p : Pipeline) (signaled : Bool) (peer : Endpoint) (now : Instant) : Screening :=
  if signaled then
    { pipeline := p, verdict := .rejected .shuttingDown }
  else
    let (global, granted) := p.global.tryTake now
    let p := { p with global }
    if !granted then
      { pipeline := p, verdict := .rejected .globalRateLimit }
    else
      let lookupLog := p.perHost.lookupLog now
      let (perHost, granted) := p.perHost.tryTake peer.hostKey now
      let p := { p with perHost }
      if !granted then
        { pipeline := p, verdict := .rejected .hostRateLimit, log := lookupLog }
      else
        let judgement := p.rule peer
        { pipeline := p
          verdict := if judgement.allowed then .admitted else .rejected .accessDenied
          ruleConsulted := true
          log := lookupLog ++ judgement.log }

end Pipeline

end Gatehouse
