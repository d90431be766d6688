import Gatehouse.Proofs.Address.Hosts
import Gatehouse.Proofs.Admission.Accounting
import Gatehouse.Proofs.Limiter.Batches
import Gatehouse.Proofs.Listener.AcceptLoop
import Gatehouse.Proofs.TokenBucket.Conservation
/-!
# A pipeline on a stopped clock

While the clock stands still nothing flows in and no host is idle, so a verdict is a matter of
counting. After some peers (`Counted`) the global bucket has had one call of each, and as long as
these were granted, so has the bucket of each peer's host.

* `answer_at_start` — a bucket that started full grants as many calls as it has whole tokens;
* `Counted.screen`, `counted_afterAll` — one screening and a run of them keep the count;
* `stopped_clock_verdicts` — so every verdict is that of `countingVerdict`.
-/

namespace Gatehouse

/-! ## Buckets -/

namespace TokenBucket

variable {rate : Rate}

theorem full_verdicts_at_start (small : rate.capacity.toRat ≤ 2 ^ 53) (start : Instant)
    (calls : Nat) :
    (full rate start).verdicts (List.replicate calls start) =
      firstAdmitted ⌊rate.capacity.toRat⌋₊ calls := by
  have hfull := full_holds rate start
  have hnow : ∀ t ∈ List.replicate calls start,
      t.nanos ≤ (full rate start).lastRefill.nanos := by
    intro t ht
    rw [List.eq_of_mem_replicate ht]
    rfl
  have hfloor : ⌊rate.capacity.toRat⌋₊ = rate.units / Binary64.unitsPerOne := hfull.floor_tokens
  rw [hfull.verdicts_stalled (Rate.units_le_of_capacity small) hnow, List.length_replicate, hfloor]

/-- At the instant at which a bucket started full, it grants its whole tokens and no more. -/
theorem hasToken_at_start (small : rate.capacity.toRat ≤ 2 ^ 53) (start : Instant) (calls : Nat) :
    ((full rate start).afterCalls (List.replicate calls start)).hasToken start =
      decide (calls < ⌊rate.capacity.toRat⌋₊) := by
  have hearlier := congrArg (List.count true) (full_verdicts_at_start small start calls)
  have hwith := congrArg (List.count true) (full_verdicts_at_start small start (calls + 1))
  rw [count_firstAdmitted] at hearlier hwith
  -- The next call is granted if one more of the calls is.
  rw [List.replicate_succ', verdicts_append, List.count_append, hearlier] at hwith
  generalize (full rate start).afterCalls (List.replicate calls start) = b at hwith ⊢
  rw [verdicts, verdicts, tryTakeOne_eq] at hwith
  cases h : b.hasToken start <;> simp [h] at hwith ⊢ <;> omega

/-- So does a bucket that a host finds or makes at that instant. -/
theorem answer_at_start (small : rate.capacity.toRat ≤ 2 ^ 53) (start : Instant) (calls : Nat) :
    answer rate (List.replicate calls start) start = decide (calls < ⌊rate.capacity.toRat⌋₊) := by
  have hfound : (ofCalls? rate (List.replicate calls start)).getD (full rate start) =
      (full rate start).afterCalls (List.replicate calls start) := by
    cases calls <;> rfl
  rw [answer, hfound, ← hasToken_at_start small start calls, tryTakeOne_eq]
  split <;> simp_all

end TokenBucket

/-! ## Registries -/

namespace HostRegistry

variable {r : HostRegistry} {calls : IpAddr → List Instant} {start : Instant}

theorem hasToken_eq_tryTake (r : HostRegistry) (host : IpAddr) (now : Instant) :
    (r.tryTake host now).2 = r.hasToken host now := by
  rw [tryTake_eq]
  cases r.hasToken host now <;> rfl

/-- A lookup at the instant of the last sweep adds to the calls of its host, and answers by their
number. -/
theorem Tracks.take_at_lastSweep (pos : 0 < r.idleTimeout.nanos) (sweep : r.lastSweep = start)
    (h : r.Tracks calls) (caller : IpAddr) :
    (r.tryTake caller start).1.Tracks (fun host =>
      calls host ++ if caller = host then [start] else []) ∧
    r.hasToken caller start = TokenBucket.answer r.rate (calls caller) start := by
  obtain ⟨htracks, hanswer⟩ := h.take_not_due (not_due_at_lastSweep pos sweep) caller
  rw [← hasToken_eq_tryTake]
  exact ⟨htracks, RegistryReply.granted.inj hanswer⟩

theorem tryTake_lastSweep (pos : 0 < r.idleTimeout.nanos) (sweep : r.lastSweep = start)
    (host : IpAddr) : (r.tryTake host start).1.lastSweep = start :=
  (step_not_due (not_due_at_lastSweep pos sweep) host).1.trans sweep

end HostRegistry

/-! ## The count -/

/-- The verdict on a peer after others at one instant, by counting: the tokens of the global
bucket go to the first peers whatever becomes of them, and those of a host to the first of its
peers that come so far. -/
def countingVerdict (globalTokens hostTokens : Nat) (rule : AccessRule) (earlier : List Endpoint)
    (peer : Endpoint) : Verdict :=
  if globalTokens ≤ earlier.length then .rejected .globalRateLimit
  else if hostTokens ≤ earlier.countP (fun other => other.hostKey = peer.hostKey) then
    .rejected .hostRateLimit
  else if (rule peer).allowed then .admitted
  else .rejected .accessDenied

namespace Pipeline

/-- What a screening that no signal stops leaves of the limiters. -/
theorem screen_limiters (p : Pipeline) (peer : Endpoint) (now : Instant) :
    (p.screen false peer now).pipeline =
      { p with
        global := (p.global.tryTake now).1
        perHost :=
          if p.global.hasToken now then (p.perHost.tryTake peer.hostKey now).1
          else p.perHost } := by
  rw [GlobalLimiter.tryTake_eq, HostRegistry.tryTake_eq]
  rcases p.screening_reach false peer now with
    h | ⟨-, global⟩ | ⟨-, global, host⟩ | ⟨-, global, host⟩
  · exact absurd h Bool.false_ne_true
  · simp [screen_global_refused peer global, global]
  · simp [screen_host_refused global host, global, host]
  · simp [screen_judged global host, charged, global, host]

/-- The verdict of a screening that no signal stops. -/
theorem screen_verdict_eq (p : Pipeline) (peer : Endpoint) (now : Instant) :
    (p.screen false peer now).verdict =
      if p.global.hasToken now = false then .rejected .globalRateLimit
      else if p.perHost.hasToken peer.hostKey now = false then .rejected .hostRateLimit
      else if (p.rule peer).allowed then .admitted
      else .rejected .accessDenied := by
  rw [screen_verdict, checks_eq]
  cases p.global.hasToken now <;> cases p.perHost.hasToken peer.hostKey now <;>
    cases (p.rule peer).allowed <;> rfl

/-- The verdict at some place of a run is that of the pipeline after the places before. -/
theorem getElem?_verdicts (p : Pipeline) (connections : List (Endpoint × Instant)) (i : Nat) :
    (p.verdicts connections)[i]? = connections[i]?.map fun c =>
      ((p.afterAll (connections.take i)).screen false c.1 c.2).verdict := by
  induction connections generalizing p i with
  | nil => rfl
  | cons c rest ih =>
      cases i with
      | zero => rfl
      | succ i =>
          rw [verdicts, List.getElem?_cons_succ, ih, List.getElem?_cons_succ, List.take_succ_cons]
          rfl

theorem length_verdicts (p : Pipeline) (connections : List (Endpoint × Instant)) :
    (p.verdicts connections).length = connections.length := by
  induction connections generalizing p with
  | nil => rfl
  | cons c rest ih => rw [verdicts, List.length_cons, ih, List.length_cons]

/-- The pipeline has had some peers at the instant at which it was made: the global bucket a call
of each, and as long as it granted them, the bucket of each host a call of each peer of the host. -/
structure Counted (p : Pipeline) (global perHost : Rate) (rule : AccessRule) (start : Instant)
    (earlier : List Endpoint) : Prop where
  rule : p.rule = rule
  bucket : p.global.bucket =
    (TokenBucket.full global start).afterCalls (List.replicate earlier.length start)
  rate : p.perHost.rate = perHost
  idle : 0 < p.perHost.idleTimeout.nanos
  sweep : p.perHost.lastSweep = start
  hosts : earlier.length ≤ ⌊global.capacity.toRat⌋₊ → p.perHost.Tracks fun host =>
    List.replicate (earlier.countP fun other => other.hostKey = host) start

variable {p : Pipeline} {global perHost : Rate} {rule : AccessRule} {start : Instant}
  {earlier : List Endpoint}

theorem counted_create (global perHost : Rate) (timeout : Duration) (rule : AccessRule)
    (start : Instant) : (create global perHost timeout rule start).Counted global perHost rule start
      [] where
  rule := rfl
  bucket := rfl
  rate := rfl
  idle := HostRegistry.create_idleTimeout_pos perHost timeout start
  sweep := rfl
  hosts := fun _ => HostRegistry.tracks_create perHost timeout start

/-- The global bucket has a token as long as there have been fewer peers than whole tokens. -/
theorem Counted.global_hasToken (h : p.Counted global perHost rule start earlier)
    (small : global.capacity.toRat ≤ 2 ^ 53) :
    p.global.hasToken start = decide (earlier.length < ⌊global.capacity.toRat⌋₊) := by
  unfold GlobalLimiter.hasToken
  rw [h.bucket, TokenBucket.hasToken_at_start small]

/-- While it has, the bucket of a host has one as long as fewer peers of the host came before. -/
theorem Counted.host_hasToken (h : p.Counted global perHost rule start earlier)
    (small : perHost.capacity.toRat ≤ 2 ^ 53)
    (granted : earlier.length < ⌊global.capacity.toRat⌋₊) (host : IpAddr) :
    p.perHost.hasToken host start =
      decide ((earlier.countP fun other => other.hostKey = host) <
        ⌊perHost.capacity.toRat⌋₊) := by
  have hanswer := ((h.hosts granted.le).take_at_lastSweep h.idle h.sweep host).2
  rw [hanswer, h.rate, TokenBucket.answer_at_start small]

theorem Counted.verdict (h : p.Counted global perHost rule start earlier)
    (globalSmall : global.capacity.toRat ≤ 2 ^ 53) (hostSmall : perHost.capacity.toRat ≤ 2 ^ 53)
    (peer : Endpoint) :
    (p.screen false peer start).verdict =
      countingVerdict ⌊global.capacity.toRat⌋₊ ⌊perHost.capacity.toRat⌋₊ rule earlier peer := by
  rw [screen_verdict_eq, h.global_hasToken globalSmall, h.rule]
  unfold countingVerdict
  rcases Nat.lt_or_ge earlier.length ⌊global.capacity.toRat⌋₊ with granted | refused
  · rw [h.host_hasToken hostSmall granted]
    simp [granted, not_le.mpr granted]
  · simp [refused, not_lt.mpr refused]

/-- One more peer. -/
theorem Counted.screen (h : p.Counted global perHost rule start earlier)
    (small : global.capacity.toRat ≤ 2 ^ 53) (peer : Endpoint) :
    (p.screen false peer start).pipeline.Counted global perHost rule start (earlier ++ [peer]) := by
  rw [screen_limiters, h.global_hasToken small]
  have hsweep := HostRegistry.tryTake_lastSweep h.idle h.sweep peer.hostKey
  refine ⟨h.rule, ?_, ?_, ?_, ?_, ?_⟩
  · show (p.global.tryTake start).1.bucket = _
    rw [(Session.global_afterCall p.global start).1, List.length_append, List.length_singleton,
      List.replicate_succ', TokenBucket.afterCalls_append, ← h.bucket]
  · show HostRegistry.rate (if _ then _ else _) = perHost
    rw [← h.rate]
    split
    · exact HostRegistry.step_rate p.perHost (.take peer.hostKey start)
    · rfl
  · show 0 < (HostRegistry.idleTimeout (if _ then _ else _)).nanos
    split
    · exact (HostRegistry.step_idleTimeout p.perHost (.take peer.hostKey start)).symm ▸ h.idle
    · exact h.idle
  · show HostRegistry.lastSweep (if _ then _ else _) = start
    split
    · exact hsweep
    · exact h.sweep
  · intro le
    rw [List.length_append, List.length_singleton] at le
    have hgranted : earlier.length < ⌊global.capacity.toRat⌋₊ := le
    have htracks := ((h.hosts hgranted.le).take_at_lastSweep h.idle h.sweep peer.hostKey).1
    simp only [hgranted, decide_true, if_true]
    -- The peer adds one call to those of its own host.
    have hcalls : (fun host => List.replicate (earlier.countP fun other => other.hostKey = host)
          start ++ if peer.hostKey = host then [start] else []) =
        fun host => List.replicate ((earlier ++ [peer]).countP fun other => other.hostKey = host)
          start := by
      funext host
      rw [List.countP_append, List.countP_singleton]
      by_cases same : peer.hostKey = host
      · simp [same, List.replicate_succ']
      · simp [same]
    rw [hcalls] at htracks
    exact htracks

theorem counted_afterAll (small : global.capacity.toRat ≤ 2 ^ 53) (perHost : Rate)
    (timeout : Duration) (rule : AccessRule) (start : Instant) (peers : List Endpoint) :
    ((create global perHost timeout rule start).afterAll (peers.map (·, start))).Counted global
      perHost rule start peers := by
  induction peers using List.reverseRecOn with
  | nil => exact counted_create global perHost timeout rule start
  | append_singleton peers peer ih =>
      have hnext := ih.screen small peer
      unfold afterAll at hnext ⊢
      rw [List.map_append, List.foldl_append]
      exact hnext

/-- **On a stopped clock verdicts are a matter of counting.** Take rates with capacities of at most
`2 ^ 53`, any timeout and any rule of access, and put any peers to a new pipeline at the instant at
which it was made. Each verdict is told by the number of earlier peers, that of earlier peers of
the same host, and the rule. Peers are of one host whatever their ports, and also if one has the
version 4 address that the other's carries. -/
theorem stopped_clock_verdicts (global perHost : Rate)
    (globalSmall : global.capacity.toRat ≤ 2 ^ 53) (hostSmall : perHost.capacity.toRat ≤ 2 ^ 53)
    (timeout : Duration) (rule : AccessRule) (start : Instant) (peers : List Endpoint) :
    let verdicts := (create global perHost timeout rule start).verdicts (peers.map (·, start))
    verdicts.length = peers.length ∧
    (∀ earlier peer later, peers = earlier ++ peer :: later →
      verdicts[earlier.length]? = some (countingVerdict ⌊global.capacity.toRat⌋₊
        ⌊perHost.capacity.toRat⌋₊ rule earlier peer)) ∧
    ∀ a b : Endpoint, a.hostKey = b.hostKey ↔ a.SameHost b := by
  refine ⟨?_, ?_, Endpoint.hostKey_eq_iff⟩
  · exact (length_verdicts _ _).trans (List.length_map _)
  · rintro earlier peer later rfl
    have hcounted := counted_afterAll globalSmall perHost timeout rule start earlier
    have hplace : ((earlier ++ peer :: later).map (·, start))[earlier.length]? =
        some (peer, start) := by simp
    have htaken : ((earlier ++ peer :: later).map (·, start)).take earlier.length =
        earlier.map (·, start) := by
      rw [← List.map_take, List.take_left]
    rw [getElem?_verdicts, hplace, htaken, Option.map_some]
    exact congrArg some (hcounted.verdict globalSmall hostSmall peer)

/-- Five tokens for all and one for each host. A host comes under its version 4 address, under the
version 6 address that carries it, and from another port; the rule keeps the second host out. The
third host comes too late. -/
theorem stopped_clock_verdicts_of_three_hosts :
    let first := Endpoint.v4 0x0a000001 50000
    let mapped := Endpoint.v6 (IpAddr.mapped 0x0a000001) 50001 0 0
    let again := Endpoint.v4 0x0a000001 50002
    let second := Endpoint.v4 0x0a000002 50000
    let third := Endpoint.v4 0x0a000003 50000
    let rule : AccessRule := fun peer => ⟨peer.hostKey ≠ second.hostKey, []⟩
    let peers := [first, mapped, second, again, second, third]
    let verdicts := (create TokenBucket.fiveInEight HostRegistry.oneIn49Seconds Rate.second rule
      .origin).verdicts (peers.map (·, .origin))
    verdicts.length = 6 ∧ verdicts[0]? = some Verdict.admitted ∧
    verdicts[1]? = some (Verdict.rejected .hostRateLimit) ∧
    verdicts[2]? = some (Verdict.rejected .accessDenied) ∧
    verdicts[3]? = some (Verdict.rejected .hostRateLimit) ∧
    verdicts[4]? = some (Verdict.rejected .hostRateLimit) ∧
    verdicts[5]? = some (Verdict.rejected .globalRateLimit) ∧ first.SameHost mapped := by
  intro first mapped again second third rule peers verdicts
  have hfive : TokenBucket.fiveInEight.capacity.toRat = (5 : Nat) :=
    Binary64.ofNat_toRat (by decide +kernel)
  have hone : HostRegistry.oneIn49Seconds.capacity.toRat = (1 : Nat) :=
    Binary64.ofNat_toRat (by decide +kernel)
  obtain ⟨hlength, hverdict, hhost⟩ := stopped_clock_verdicts TokenBucket.fiveInEight
    HostRegistry.oneIn49Seconds (by rw [hfive]; norm_num) (by rw [hone]; norm_num) Rate.second rule
    .origin peers
  rw [hfive, hone, Nat.floor_natCast, Nat.floor_natCast] at hverdict
  have hcounting : (countingVerdict 5 1 rule [] first = .admitted ∧
      countingVerdict 5 1 rule [first] mapped = .rejected .hostRateLimit ∧
      countingVerdict 5 1 rule [first, mapped] second = .rejected .accessDenied) ∧
      countingVerdict 5 1 rule [first, mapped, second] again = .rejected .hostRateLimit ∧
      countingVerdict 5 1 rule [first, mapped, second, again] second = .rejected .hostRateLimit ∧
      countingVerdict 5 1 rule [first, mapped, second, again, second] third =
        .rejected .globalRateLimit := by decide +kernel
  obtain ⟨⟨hfirst, hmapped, hsecond⟩, hagain, htwice, hthird⟩ := hcounting
  refine ⟨hlength, ?_, ?_, ?_, ?_, ?_, ?_, (hhost first mapped).mp (by decide +kernel)⟩
  · rw [← hfirst]
    exact hverdict [] first [mapped, second, again, second, third] rfl
  · rw [← hmapped]
    exact hverdict [first] mapped [second, again, second, third] rfl
  · rw [← hsecond]
    exact hverdict [first, mapped] second [again, second, third] rfl
  · rw [← hagain]
    exact hverdict [first, mapped, second] again [second, third] rfl
  · rw [← htwice]
    exact hverdict [first, mapped, second, again] second [third] rfl
  · rw [← hthird]
    exact hverdict [first, mapped, second, again, second] third [] rfl

end Pipeline

end Gatehouse
