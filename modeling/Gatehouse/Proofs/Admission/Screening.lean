import Gatehouse.Admission.Pipeline
import Gatehouse.Proofs.TokenBucket.Calls
/-!
# What one screening does

The checks on a connection are listed once, each as it comes out (`Pipeline.checks`), and the
verdict is that of the first one that fails (`screen_verdict`). What a screening does to the
pipeline depends on its verdict alone (`Pipeline.Effect`, `screen_effect`): the checks before the
failing one have taken their tokens, the failing limiter has only refilled its bucket, and what
comes after it is untouched.
-/

namespace Gatehouse

namespace TokenBucket

/-- There is a token to take at an instant, after refilling. -/
def hasToken (b : TokenBucket) (now : Instant) : Bool := !(b.refill now).tokens.lt .one

/-- The bucket refilled up to an instant and short of one token. -/
def spent (b : TokenBucket) (now : Instant) : TokenBucket :=
  { b.refill now with tokens := (b.refill now).tokens - .one }

/-- A call takes a token if there is one, and refills the bucket in any case. -/
theorem tryTakeOne_eq (b : TokenBucket) (now : Instant) :
    b.tryTakeOne now = if b.hasToken now then (b.spent now, true) else (b.refill now, false) := by
  unfold tryTakeOne tryTake hasToken spent
  cases h : (b.refill now).tokens.lt .one <;> simp [h]

end TokenBucket

namespace GlobalLimiter

def hasToken (g : GlobalLimiter) (now : Instant) : Bool := g.bucket.hasToken now

def refilled (g : GlobalLimiter) (now : Instant) : GlobalLimiter :=
  { g with bucket := g.bucket.refill now }

def spent (g : GlobalLimiter) (now : Instant) : GlobalLimiter :=
  { g with bucket := g.bucket.spent now }

theorem tryTake_eq (g : GlobalLimiter) (now : Instant) :
    g.tryTake now = if g.hasToken now then (g.spent now, true) else (g.refilled now, false) := by
  unfold tryTake hasToken spent refilled
  rw [TokenBucket.tryTakeOne_eq]
  cases g.bucket.hasToken now <;> rfl

end GlobalLimiter

namespace HostRegistry

/-- The bucket of a host, found by a lookup or made by it, has a token to take. -/
def hasToken (r : HostRegistry) (host : IpAddr) (now : Instant) : Bool :=
  ((r.swept now).entryOf host now).bucket.hasToken now

/-- The registry after a lookup that takes a token of a host: the sweep, if one was due, and the
host's entry with one token less. -/
def spent (r : HostRegistry) (host : IpAddr) (now : Instant) : HostRegistry :=
  let found := (r.swept now).entryOf host now
  { r.swept now with
    entries := (r.swept now).entries.put host
      ⟨found.bucket.spent now, found.lastAccess.latest now⟩ }

/-- The registry after a lookup that finds no token of a host: the sweep, if one was due, and the
host's entry refilled. -/
def refilled (r : HostRegistry) (host : IpAddr) (now : Instant) : HostRegistry :=
  let found := (r.swept now).entryOf host now
  { r.swept now with
    entries := (r.swept now).entries.put host
      ⟨found.bucket.refill now, found.lastAccess.latest now⟩ }

theorem tryTake_eq (r : HostRegistry) (host : IpAddr) (now : Instant) :
    r.tryTake host now =
      if r.hasToken host now then (r.spent host now, true) else (r.refilled host now, false) := by
  unfold tryTake hasToken spent refilled
  dsimp only
  rw [TokenBucket.tryTakeOne_eq]
  cases ((r.swept now).entryOf host now).bucket.hasToken now <;> rfl

end HostRegistry

/-! ## The order of the checks -/

/-- How a check on a connection comes out, with the reason for which it turns connections away. -/
structure CheckResult where
  reason : Rejection
  passed : Bool
deriving DecidableEq

namespace CheckResult

/-- The first check that fails decides. -/
def verdict (checks : List CheckResult) : Verdict :=
  match checks.find? (fun check => !check.passed) with
  | some check => .rejected check.reason
  | none => .admitted

/-- The checks that are made: all up to the first that fails, and that one. -/
def made : List CheckResult → List CheckResult
  | [] => []
  | check :: later => check :: if check.passed then made later else []

/-- The check for a reason, if it is made. -/
def made? (checks : List CheckResult) (reason : Rejection) : Option CheckResult :=
  (made checks).find? fun check => check.reason = reason

end CheckResult

namespace Pipeline

/-- The checks on a connection in their order, each on the pipeline as it stands. -/
def checks (p : Pipeline) (signaled : Bool) (peer : Endpoint) (now : Instant) :
    List CheckResult :=
  [⟨.shuttingDown, !signaled⟩,
    ⟨.globalRateLimit, (p.global.tryTake now).2⟩,
    ⟨.hostRateLimit, (p.perHost.tryTake peer.hostKey now).2⟩,
    ⟨.accessDenied, (p.rule peer).allowed⟩]

/-- The pipeline after a screening that got as far as the rule of access: one token of the global
bucket is gone and one of the peer's host. -/
def charged (p : Pipeline) (peer : Endpoint) (now : Instant) : Pipeline :=
  { p with global := p.global.spent now, perHost := p.perHost.spent peer.hostKey now }

/-- What a screening did, by its verdict. The two verdicts that the rule of access gives leave the
same pipeline behind. -/
def Effect (p : Pipeline) (peer : Endpoint) (now : Instant) (s : Screening) : Prop :=
  match s.verdict with
  | .rejected .shuttingDown => s.pipeline = p ∧ s.ruleConsulted = false
  | .rejected .globalRateLimit =>
      p.global.hasToken now = false ∧
      s.pipeline = { p with global := p.global.refilled now } ∧ s.ruleConsulted = false
  | .rejected .hostRateLimit =>
      p.global.hasToken now = true ∧ (p.perHost.tryTake peer.hostKey now).2 = false ∧
      s.pipeline =
        { p with
          global := p.global.spent now
          perHost := (p.perHost.tryTake peer.hostKey now).1 } ∧
      s.ruleConsulted = false
  | .rejected .accessDenied | .admitted =>
      p.global.hasToken now = true ∧ p.perHost.hasToken peer.hostKey now = true ∧
      s.pipeline = p.charged peer now ∧ s.ruleConsulted = true

/-! ## One screening -/

theorem screen_signaled (p : Pipeline) (peer : Endpoint) (now : Instant) :
    p.screen true peer now = { pipeline := p, verdict := .rejected .shuttingDown } :=
  rfl

theorem screen_global_refused {p : Pipeline} {now : Instant} (peer : Endpoint)
    (empty : p.global.hasToken now = false) :
    p.screen false peer now =
      { pipeline := { p with global := p.global.refilled now }
        verdict := .rejected .globalRateLimit } := by
  simp [screen, GlobalLimiter.tryTake_eq, empty]

theorem screen_host_refused {p : Pipeline} {peer : Endpoint} {now : Instant}
    (granted : p.global.hasToken now = true)
    (empty : p.perHost.hasToken peer.hostKey now = false) :
    p.screen false peer now =
      { pipeline :=
          { p with
            global := p.global.spent now
            perHost := p.perHost.refilled peer.hostKey now }
        verdict := .rejected .hostRateLimit
        log := p.perHost.lookupLog now } := by
  simp [screen, GlobalLimiter.tryTake_eq, HostRegistry.tryTake_eq, granted, empty]

theorem screen_judged {p : Pipeline} {peer : Endpoint} {now : Instant}
    (granted : p.global.hasToken now = true)
    (hostGranted : p.perHost.hasToken peer.hostKey now = true) :
    p.screen false peer now =
      { pipeline := p.charged peer now
        verdict := if (p.rule peer).allowed then .admitted else .rejected .accessDenied
        ruleConsulted := true
        log := p.perHost.lookupLog now ++ (p.rule peer).log } := by
  simp [screen, charged, GlobalLimiter.tryTake_eq, HostRegistry.tryTake_eq, granted, hostGranted]

/-- How far a screening gets: the signal stops it, the global limiter, the limiter of the host, or
it reaches the rule of access. -/
theorem screening_reach (p : Pipeline) (signaled : Bool) (peer : Endpoint) (now : Instant) :
    signaled = true ∨
      (signaled = false ∧ p.global.hasToken now = false) ∨
      (signaled = false ∧ p.global.hasToken now = true ∧
        p.perHost.hasToken peer.hostKey now = false) ∨
      (signaled = false ∧ p.global.hasToken now = true ∧
        p.perHost.hasToken peer.hostKey now = true) := by
  cases signaled <;> cases p.global.hasToken now <;>
    cases p.perHost.hasToken peer.hostKey now <;> simp

theorem checks_eq (p : Pipeline) (signaled : Bool) (peer : Endpoint) (now : Instant) :
    p.checks signaled peer now =
      [⟨.shuttingDown, !signaled⟩, ⟨.globalRateLimit, p.global.hasToken now⟩,
        ⟨.hostRateLimit, p.perHost.hasToken peer.hostKey now⟩,
        ⟨.accessDenied, (p.rule peer).allowed⟩] := by
  have hglobal : (p.global.tryTake now).2 = p.global.hasToken now := by
    rw [GlobalLimiter.tryTake_eq]
    cases p.global.hasToken now <;> rfl
  have hhost : (p.perHost.tryTake peer.hostKey now).2 = p.perHost.hasToken peer.hostKey now := by
    rw [HostRegistry.tryTake_eq]
    cases p.perHost.hasToken peer.hostKey now <;> rfl
  rw [checks, hglobal, hhost]

/-- The first failing check decides. -/
theorem screen_verdict (p : Pipeline) (signaled : Bool) (peer : Endpoint) (now : Instant) :
    (p.screen signaled peer now).verdict = CheckResult.verdict (p.checks signaled peer now) := by
  rw [checks_eq]
  rcases p.screening_reach signaled peer now with
    rfl | ⟨rfl, global⟩ | ⟨rfl, global, host⟩ | ⟨rfl, global, host⟩
  · rfl
  · simp [screen_global_refused peer global, CheckResult.verdict, global]
  · simp [screen_host_refused global host, CheckResult.verdict, global, host]
  · rw [screen_judged global host]
    cases h : (p.rule peer).allowed <;> simp [CheckResult.verdict, global, host]

theorem screen_effect (p : Pipeline) (signaled : Bool) (peer : Endpoint) (now : Instant) :
    p.Effect peer now (p.screen signaled peer now) := by
  rcases p.screening_reach signaled peer now with
    rfl | ⟨rfl, global⟩ | ⟨rfl, global, host⟩ | ⟨rfl, global, host⟩
  · exact ⟨rfl, rfl⟩
  · rw [screen_global_refused peer global]
    exact ⟨global, rfl, rfl⟩
  · rw [screen_host_refused global host]
    have hcall : p.perHost.tryTake peer.hostKey now =
        (p.perHost.refilled peer.hostKey now, false) := by
      simp [HostRegistry.tryTake_eq, host]
    exact ⟨global, by rw [hcall], by rw [hcall], rfl⟩
  · rw [screen_judged global host]
    cases (p.rule peer).allowed <;> exact ⟨global, host, rfl, rfl⟩

end Pipeline

end Gatehouse
