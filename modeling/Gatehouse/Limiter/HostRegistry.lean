import Gatehouse.Address.Basic
import Gatehouse.Log
import Gatehouse.Text.Digits
import Gatehouse.TokenBucket
/-!
# The host registry

One bucket per host, made full at the first connection from the host. Hosts that have been idle
for the idle timeout are dropped: on request, and on a lookup when the last sweep is that long
ago. The timeout is never shorter than the period of the rate, after which a bucket should be
full again.
-/

namespace Gatehouse

/-- The bucket of one host, and the latest instant at which the host called. -/
structure HostEntry where
  bucket : TokenBucket
  lastAccess : Instant
deriving DecidableEq

/-- Entries by host; each host stands at most once. -/
abbrev HostTable := List (IpAddr × HostEntry)

namespace HostTable

def entry? (table : HostTable) (host : IpAddr) : Option HostEntry :=
  (List.find? (fun row => row.1 == host) table).map (·.2)

/-- The table with the entry of a host replaced, or added at the end. -/
def put (host : IpAddr) (entry : HostEntry) : HostTable → HostTable
  | [] => [(host, entry)]
  | row :: rows => if row.1 = host then (host, entry) :: rows else row :: put host entry rows

end HostTable

/-- Independent buckets of one rate, by host. -/
structure HostRegistry where
  rate : Rate
  idleTimeout : Duration
  entries : HostTable
  lastSweep : Instant
deriving DecidableEq

namespace HostRegistry

/-- An empty registry. A timeout shorter than the period of the rate is raised to it. -/
def create (rate : Rate) (idleTimeout : Duration) (now : Instant) : HostRegistry where
  rate := rate
  idleTimeout := idleTimeout.max rate.period
  entries := []
  lastSweep := now

/-- What is logged when a registry is made. -/
def creationLog (rate : Rate) (idleTimeout : Duration) : List LogRecord :=
  if idleTimeout.nanos < rate.period.nanos then
    [⟨.debug, "host idle timeout " ++ idleTimeout.render ++ " raised to ratelimit period " ++
      rate.period.render⟩]
  else []

/-- An entry has not been used for the idle timeout. -/
def isIdle (r : HostRegistry) (now : Instant) (entry : HostEntry) : Bool :=
  r.idleTimeout.nanos ≤ (now.since entry.lastAccess).nanos

/-- Drops the idle entries; says how many went. -/
def evictIdle (r : HostRegistry) (now : Instant) : HostRegistry × Nat :=
  let kept := r.entries.filter fun row => !r.isIdle now row.2
  ({ r with entries := kept, lastSweep := now }, r.entries.length - kept.length)

/-- A lookup at this instant sweeps first. -/
def sweepIsDue (r : HostRegistry) (now : Instant) : Bool :=
  r.idleTimeout.nanos ≤ (now.since r.lastSweep).nanos

/-- The registry as a lookup at this instant finds it, after the sweep if one is due. -/
def swept (r : HostRegistry) (now : Instant) : HostRegistry :=
  if r.sweepIsDue now then (r.evictIdle now).1 else r

/-- The entry of a host, or the full one that it starts with. -/
def entryOf (r : HostRegistry) (host : IpAddr) (now : Instant) : HostEntry :=
  (r.entries.entry? host).getD ⟨.full r.rate now, now⟩

/-- Takes a token of a host. -/
def tryTake (r : HostRegistry) (host : IpAddr) (now : Instant) : HostRegistry × Bool :=
  let r := r.swept now
  let entry := r.entryOf host now
  let (bucket, granted) := entry.bucket.tryTakeOne now
  let entry := ⟨bucket, entry.lastAccess.latest now⟩
  ({ r with entries := r.entries.put host entry }, granted)

/-- What a lookup at this instant logs. -/
def lookupLog (r : HostRegistry) (now : Instant) : List LogRecord :=
  let evicted := (r.evictIdle now).2
  if r.sweepIsDue now && 0 < evicted then
    [⟨.trace, "evicted " ++ Text.decimal evicted ++ " idle host limiter(s)"⟩]
  else []

/-- The number of hosts with a bucket. -/
def size (r : HostRegistry) : Nat := r.entries.length

def isEmpty (r : HostRegistry) : Bool := r.size = 0

end HostRegistry

end Gatehouse
