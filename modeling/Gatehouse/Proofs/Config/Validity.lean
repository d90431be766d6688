import Gatehouse.Gate.Basic
import Gatehouse.Listener.Poll
import Gatehouse.Proofs.Config.Records
import Gatehouse.Proofs.Limiter.BucketFamily
import Gatehouse.Proofs.TokenBucket.Level
/-!
# What accepted configurations are good for

A listener of an accepted configuration is valid (`ListenerConfig.Valid`): its rates are finite,
positive and over some time, its timeouts are not zero, and its networks are no longer than their
addresses. A timeout is either a default or read as a duration, and neither is zero; no field of a
record undoes that (`readRateLimits_positive`, `readListener_positive`). So a gate can be built from
the listener, its registry forgets hosts after a time above zero, and its waits neither return at
once nor early (`accepted_listeners_are_valid`).
-/

namespace Gatehouse

/-- The number is finite and above zero, and the period is at least a nanosecond. -/
def Rate.Valid (r : Rate) : Prop :=
  r.capacity.isFinite = true ∧ 0 < r.capacity.toRat ∧ 1 ≤ r.period.nanos

theorem Rate.valid (r : Rate) : r.Valid := by
  obtain ⟨hunits, hpos⟩ := r.count_isUnits
  refine ⟨hunits.isFinite, ?_, r.period_pos⟩
  show 0 < r.count.toRat
  rw [hunits.toRat_eq]
  exact div_pos (Nat.cast_pos.mpr hpos) Binary64.cast_unitsPerOne_pos

/-- The number of leading bits is one that addresses of the family have. -/
def Network.Valid (net : Network) : Prop :=
  match net.addr with
  | .v4 _ => net.length ≤ 32
  | .v6 _ => net.length ≤ 128

theorem Network.valid (net : Network) : net.Valid := by
  have hle := net.length_le
  unfold Network.Valid
  cases haddr : net.addr with
  | v4 bits =>
      rw [haddr] at hle
      exact hle
  | v6 bits =>
      rw [haddr] at hle
      exact hle

/-- None of the timeouts of the listener is zero. -/
structure ListenerConfig.PositiveTimeouts (l : ListenerConfig) : Prop where
  connect : 0 < l.connectTimeout.nanos
  accept : 0 < l.acceptTimeout.nanos
  hostIdle : 0 < l.rateLimits.hostIdleTimeout.nanos

/-- Everything in the listener can be used as it stands. -/
structure ListenerConfig.Valid (l : ListenerConfig) : Prop extends l.PositiveTimeouts where
  globalRate : l.rateLimits.global.Valid
  hostRate : l.rateLimits.perHost.Valid
  allowed : ∀ net ∈ l.allow, net.Valid
  denied : ∀ net ∈ l.deny, net.Valid

namespace Config

open Gatehouse.Yaml

/-! ## Timeouts -/

theorem readDuration_positive {place : Spot} {node : Node} {d : Duration}
    (h : readDuration place node = .ok d) : 0 < d.nanos := by
  obtain ⟨seconds, -, hread⟩ := Decoded.bind_ok h
  split at hread
  · exact absurd hread nofun
  · rename_i found hfound
    cases hzero : found.isZero with
    | true =>
        rw [hzero] at hread
        exact absurd hread nofun
    | false =>
        rw [hzero] at hread
        cases hread
        unfold Duration.isZero at hzero
        exact Nat.pos_of_ne_zero (of_decide_eq_false hzero)

/-- A timeout of a draft is unset or not zero. -/
def UnsetOrPositive (timeout : Option Duration) : Prop := ∀ d, timeout = some d → 0 < d.nanos

theorem UnsetOrPositive.none : UnsetOrPositive none := by
  intro d h
  cases h

theorem UnsetOrPositive.some {d : Duration} (pos : 0 < d.nanos) : UnsetOrPositive (some d) := by
  rintro _ ⟨⟩
  exact pos

theorem UnsetOrPositive.getD {timeout : Option Duration} (h : UnsetOrPositive timeout)
    {default : Duration} (pos : 0 < default.nanos) : 0 < (timeout.getD default).nanos := by
  cases timeout with
  | none => exact pos
  | some d => exact h d rfl

/-! ## Records with timeouts -/

theorem default_hostIdleTimeout_pos : 0 < RateLimits.default.hostIdleTimeout.nanos := by
  show 0 < 60 * nanosPerSecond
  decide

theorem default_positive : ListenerConfig.default.PositiveTimeouts where
  connect := by
    show 0 < 5 * nanosPerSecond
    decide
  accept := by
    show 0 < 2 * nanosPerSecond
    decide
  hostIdle := default_hostIdleTimeout_pos

theorem readRateLimits_positive {place : Spot} {node : Node} {limits : RateLimits}
    (h : readRateLimits place node = .ok limits) : 0 < limits.hostIdleTimeout.nanos := by
  obtain ⟨draft, hdraft, rfl⟩ := Decoded.map_ok h
  have hkept : UnsetOrPositive draft.hostIdleTimeout := by
    refine rateLimitsShape.read_keeps (P := fun d => UnsetOrPositive d.hostIdleTimeout) ?_ hdraft
      .none
    simp only [rateLimitsShape, List.mem_cons, List.not_mem_nil, or_false]
    rintro field (rfl | rfl | rfl) place node d d' hread kept
    · obtain ⟨_, -, rfl⟩ := Decoded.map_ok hread
      exact kept
    · obtain ⟨_, -, rfl⟩ := Decoded.map_ok hread
      exact kept
    · obtain ⟨timeout, htimeout, rfl⟩ := Decoded.map_ok hread
      exact .some (readDuration_positive htimeout)
  exact hkept.getD default_hostIdleTimeout_pos

/-- What the fields of a listener keep of its draft: no timeout in it is zero. -/
structure ListenerDraft.PositiveTimeouts (d : ListenerDraft) : Prop where
  connect : UnsetOrPositive d.connectTimeout
  accept : UnsetOrPositive d.acceptTimeout
  hostIdle : ∀ limits, d.rateLimits = some limits → 0 < limits.hostIdleTimeout.nanos

theorem ListenerDraft.empty_positive : ListenerDraft.PositiveTimeouts {} where
  connect := .none
  accept := .none
  hostIdle := by
    intro limits h
    cases h

theorem readListener_positive {place : Spot} {node : Node} {listener : ListenerConfig}
    (h : readListener place node = .ok listener) : listener.PositiveTimeouts := by
  obtain ⟨draft, hdraft, rfl⟩ := Decoded.map_ok h
  have hkept : draft.PositiveTimeouts := by
    refine listenerShape.read_keeps ?_ hdraft ListenerDraft.empty_positive
    simp only [listenerShape, List.mem_cons, List.not_mem_nil, or_false]
    rintro field (rfl | rfl | rfl | rfl | rfl | rfl | rfl | rfl) place node d d' hread kept
    case inr.inr.inr.inl =>
      obtain ⟨timeout, htimeout, rfl⟩ := Decoded.map_ok hread
      exact ⟨.some (readDuration_positive htimeout), kept.accept, kept.hostIdle⟩
    case inr.inr.inr.inr.inl =>
      obtain ⟨limits, hlimits, rfl⟩ := Decoded.map_ok hread
      refine ⟨kept.connect, kept.accept, ?_⟩
      rintro _ ⟨⟩
      exact readRateLimits_positive hlimits
    case inr.inr.inr.inr.inr.inr.inr =>
      obtain ⟨timeout, htimeout, rfl⟩ := Decoded.map_ok hread
      exact ⟨kept.connect, .some (readDuration_positive htimeout), kept.hostIdle⟩
    all_goals
      obtain ⟨_, -, rfl⟩ := Decoded.map_ok hread
      exact ⟨kept.connect, kept.accept, kept.hostIdle⟩
  refine ⟨hkept.connect.getD default_positive.connect, hkept.accept.getD default_positive.accept,
    ?_⟩
  show 0 < (draft.rateLimits.getD RateLimits.default).hostIdleTimeout.nanos
  cases hlimits : draft.rateLimits with
  | none => exact default_positive.hostIdle
  | some limits => exact hkept.hostIdle limits hlimits

/-! ## Listeners of a configuration -/

theorem readListeners_from {spot : Spot} {node : Node} {listeners : List ListenerConfig}
    (h : readListeners spot node = .ok listeners) :
    ∀ listener ∈ listeners, ∃ place item, readListener place item = .ok listener := by
  intro listener hmem
  unfold readListeners at h
  split at h
  · obtain ⟨place, item, hread, -⟩ := (readListenerItems_mem h).2 listener hmem
    exact ⟨place, item, hread⟩
  · exact absurd h (Spot.mismatch_ne_ok _ _ _ _)

/-- Every listener of an accepted configuration has been read from a node. -/
theorem listener_from {root : Node} {config : Config} (accepted : ofNode root = .ok config) :
    ∀ listener ∈ config.listeners, ∃ place item, readListener place item = .ok listener := by
  obtain ⟨draft, hdraft, rfl⟩ := Decoded.map_ok accepted
  have hkept : ∀ listeners, draft.listeners = some listeners → ∀ listener ∈ listeners,
      ∃ place item, readListener place item = .ok listener := by
    refine configShape.read_keeps (P := fun d => ∀ listeners, d.listeners = some listeners →
      ∀ listener ∈ listeners, ∃ place item, readListener place item = .ok listener) ?_ hdraft nofun
    simp only [configShape, List.mem_cons, List.not_mem_nil, or_false]
    rintro field (rfl | rfl) place node d d' hread kept
    · obtain ⟨_, -, rfl⟩ := Decoded.map_ok hread
      exact kept
    · obtain ⟨listeners, hlisteners, rfl⟩ := Decoded.map_ok hread
      rintro _ ⟨⟩
      exact readListeners_from hlisteners
  intro listener hmem
  change listener ∈ draft.listeners.getD [] at hmem
  cases hset : draft.listeners with
  | none =>
      rw [hset] at hmem
      exact absurd hmem List.not_mem_nil
  | some listeners =>
      rw [hset] at hmem
      exact hkept listeners hset listener hmem

end Config

/-! ## Gates -/

/-- From a listener that can wait and an address a gate can be built. It has the limiters that the
configuration asks for. -/
theorem Gate.create_ok {config : ListenerConfig} (pos : 0 < config.acceptTimeout.nanos)
    (addr : Endpoint) (rule : AccessRule) (handler : Handler) (now : Instant) :
    ∃ gate log loop, Gate.create (.ok addr) config rule handler now = .ok (gate, log) ∧
      gate.phase = .idle loop ∧
      loop.acceptor.pipeline = Pipeline.create config.rateLimits.global config.rateLimits.perHost
        config.rateLimits.hostIdleTimeout rule now := by
  have hwait : config.acceptTimeout.isZero = false :=
    decide_eq_false (Nat.pos_iff_ne_zero.mp pos)
  unfold Gate.create
  rw [hwait, if_neg Bool.false_ne_true]
  exact ⟨_, _, _, rfl, rfl, rfl⟩

namespace Config

open Gatehouse.Yaml

/-- **Accepted configurations are fully valid.** Whatever tree a configuration is read from, each of
its listeners is valid, and once it is bound a gate can be built from it. The registry of the gate
drops hosts after the longer of the idle timeout and the period of the rate for hosts, which is
some time. A call of the listener waits for one to `2 ^ 31 - 1` milliseconds, and if it is for fewer
than that, for no shorter than it was told. -/
theorem accepted_listeners_are_valid {root : Node} {config : Config}
    (accepted : ofNode root = .ok config) (listener : ListenerConfig)
    (mem : listener ∈ config.listeners) :
    listener.Valid ∧
    (∀ (addr : Endpoint) (rule : AccessRule) (handler : Handler) (now : Instant),
      ∃ gate log loop, Gate.create (.ok addr) listener rule handler now = .ok (gate, log) ∧
        gate.phase = .idle loop ∧
        let timeout := loop.acceptor.pipeline.perHost.idleTimeout
        timeout.nanos = max listener.rateLimits.hostIdleTimeout.nanos
          listener.rateLimits.perHost.period.nanos ∧
        0 < timeout.nanos) ∧
    1 ≤ listener.acceptTimeout.pollMillis ∧
    listener.acceptTimeout.pollMillis ≤ 2 ^ 31 - 1 ∧
    (listener.acceptTimeout.pollMillis ≠ 2 ^ 31 - 1 →
      listener.acceptTimeout.nanos ≤ listener.acceptTimeout.pollMillis * 1000000) := by
  obtain ⟨place, item, hread⟩ := listener_from accepted listener mem
  have hpos := readListener_positive hread
  have hlongest : longestPoll = 2 ^ 31 - 1 := by decide
  have hle := listener.acceptTimeout.pollMillis_le
  rw [hlongest] at hle
  refine ⟨?_, ?_, ?_, hle, ?_⟩
  · exact
      { hpos with
        globalRate := listener.rateLimits.global.valid
        hostRate := listener.rateLimits.perHost.valid
        allowed := fun net _ => net.valid
        denied := fun net _ => net.valid }
  · intro addr rule handler now
    obtain ⟨gate, log, loop, hcreate, hphase, hpipeline⟩ :=
      Gate.create_ok hpos.accept addr rule handler now
    refine ⟨gate, log, loop, hcreate, hphase, ?_⟩
    rw [hpipeline]
    exact ⟨HostRegistry.create_idleTimeout_nanos _ _ _, HostRegistry.create_idleTimeout_pos _ _ _⟩
  · -- A wait of no milliseconds would be for a timeout of no nanoseconds.
    by_contra hnone
    have hzero := (listener.acceptTimeout.pollMillis_le_iff (by decide : 0 < longestPoll)).mp
      (by omega)
    have := hpos.accept
    omega
  · intro short
    have hlt : listener.acceptTimeout.pollMillis < longestPoll := by omega
    exact (listener.acceptTimeout.pollMillis_le_iff hlt).mp (Nat.le_refl _)

/-! ## A listener that hardly waits -/

/-- A listener that waits for 0.4 milliseconds, and grants a host six connections in 90 seconds,
which is longer than the default after which hosts are forgotten. It is for the hosts of one network
without those of a smaller one. -/
def hastyTree : Node :=
  let limits : Node := .mapping
    [(.scalar { text := "per_host" }, .mapping
      [(.scalar { text := "rate" }, .scalar { text := "6" }),
        (.scalar { text := "per" }, .scalar { text := "90" })])]
  let listener : Node := .mapping
    [(.scalar { text := "accept_timeout" }, .scalar { text := "0.0004" }),
      (.scalar { text := "ratelimit" }, limits),
      (.scalar { text := "allow" }, .sequence [.scalar { text := "10.0.0.0/8" }]),
      (.scalar { text := "deny" }, .sequence [.scalar { text := "10.1.0.0/16" }])]
  .mapping [(.scalar { text := "listeners" }, .sequence [listener])]

def hastyListener : ListenerConfig :=
  { ListenerConfig.default with
    acceptTimeout := ⟨400000, by decide +kernel⟩
    allow := [⟨.v4 0x0a000000, 8, by decide⟩]
    deny := [⟨.v4 0x0a010000, 16, by decide⟩]
    rateLimits :=
      { RateLimits.default with
        perHost := ⟨.ofNat 6, Duration.ofSeconds 90, by decide +kernel, by decide⟩ } }

theorem hastyTree_accepted : ofNode hastyTree = .ok ⟨none, [hastyListener]⟩ := by decide +kernel

/-- It waits for a whole millisecond, its hosts are remembered for 90 seconds, and the gate is built
with the rule of its own networks. -/
theorem accepted_listeners_are_valid_in_haste :
    ofNode hastyTree = .ok ⟨none, [hastyListener]⟩ ∧ hastyListener.Valid ∧
    hastyListener.allow ≠ [] ∧ hastyListener.deny ≠ [] ∧
    (∃ gate log loop, Gate.create (.ok (.v4 0x7f000001 1080)) hastyListener
        hastyListener.accessList.rule (fun _ _ => .closes) .origin = .ok (gate, log) ∧
      gate.phase = .idle loop ∧
      loop.acceptor.pipeline.perHost.idleTimeout.nanos = 90 * nanosPerSecond) ∧
    hastyListener.acceptTimeout.pollMillis = 1 := by
  obtain ⟨hvalid, hgate, hleast, -, hlong⟩ :=
    accepted_listeners_are_valid hastyTree_accepted hastyListener (List.mem_singleton_self _)
  obtain ⟨gate, log, loop, hcreate, hphase, htimeout, -⟩ :=
    hgate (.v4 0x7f000001 1080) hastyListener.accessList.rule (fun _ _ => .closes) .origin
  refine ⟨hastyTree_accepted, hvalid, List.cons_ne_nil _ _, List.cons_ne_nil _ _,
    ⟨gate, log, loop, hcreate, hphase, ?_⟩, ?_⟩
  · rw [htimeout]
    show max (60 * nanosPerSecond) (90 * nanosPerSecond) = 90 * nanosPerSecond
    decide
  · have hmost : hastyListener.acceptTimeout.pollMillis ≤ 1 :=
      (hastyListener.acceptTimeout.pollMillis_le_iff (by decide)).mpr (by decide)
    exact Nat.le_antisymm hmost hleast

end Config

end Gatehouse
