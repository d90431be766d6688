import Gatehouse.Proofs.Limiter.BucketFamily
import Gatehouse.Proofs.TokenBucket.Conservation
/-!
# How long a registry remembers a host

While the clock does not run backwards, a registry holds the hosts that called a short while ago
and no others. Of one host, the last sweep splits its calls (`Remembers`): those within the idle
timeout before it, or after it, are all behind the bucket in use, and there is a bucket only if
there is such a call.

* `remembers_step`, `remembers_after` — one operation and a run of them keep that;
* `le_lastSweep`, `lookup_lastSweep` — the last sweep never moves back, and after a lookup it lies
  less than the idle timeout in the past;
* `tracked_after_lookup`, `tracked_after_evictIdle` — so the hosts with a bucket are told by when
  they called, counted from the operation itself;
* `lookup_moves_lastSweep`, `sweeps_apart` — a lookup sweeps exactly if it moves the last sweep, and
  no sooner than one timeout after it;
* `registry_remembers_recent_hosts` — so a host is gone two timeouts after its last call at the
  latest, if there are any lookups, and one timeout after it at the earliest.
-/

namespace Gatehouse

open Instant TokenBucket

/-- A host has called within a span (in nanoseconds) up to an instant. -/
def CalledWithin (span : Nat) (now : Instant) (host : IpAddr) (ops : List RegistryOp) : Prop :=
  ∃ t, .take host t ∈ ops ∧ now.nanos < t.nanos + span ∧ t.nanos ≤ now.nanos

/-! ## The last sweep -/

namespace RegistryOp

variable {idle : Nat} {last : Instant} {op : RegistryOp}

theorem lastSweep_cases (idle : Nat) (last : Instant) (op : RegistryOp) :
    op.Sweeps idle last ∧ op.lastSweep idle last = op.now ∨
      ¬ op.Sweeps idle last ∧ op.lastSweep idle last = last := by
  by_cases sweeps : op.Sweeps idle last
  · exact .inl ⟨sweeps, if_pos sweeps⟩
  · exact .inr ⟨sweeps, if_neg sweeps⟩

theorem le_lastSweep (le : last.nanos ≤ op.now.nanos) :
    last.nanos ≤ (op.lastSweep idle last).nanos ∧
      (op.lastSweep idle last).nanos ≤ op.now.nanos := by
  rcases lastSweep_cases idle last op with ⟨-, h⟩ | ⟨-, h⟩
  · rw [h]
    exact ⟨le, le_rfl⟩
  · rw [h]
    exact ⟨le_rfl, le⟩

/-- What comes in order after an operation comes in order after the last sweep, too. -/
theorem inOrder_lastSweep {later : List Instant} (order : InOrder (last :: op.now :: later)) :
    InOrder (op.lastSweep idle last :: later) := by
  obtain ⟨hlast, hrest⟩ := inOrder_cons.mp order
  exact hrest.earlier (le_lastSweep (hlast op.now List.mem_cons_self)).2

/-- After a lookup the last sweep lies less than the idle timeout in the past. -/
theorem lookup_lastSweep (pos : 0 < idle) (host : IpAddr) (now : Instant) :
    now.nanos < ((RegistryOp.take host now).lastSweep idle last).nanos + idle := by
  rcases lastSweep_cases idle last (.take host now) with ⟨-, h⟩ | ⟨early, h⟩
  · rw [h]
    show now.nanos < now.nanos + idle
    omega
  · rw [h]
    exact not_le.mp early

end RegistryOp

/-- The last sweep after a run of operations, given that before it. -/
def lastSweepAfter (idle : Nat) (last : Instant) (ops : List RegistryOp) : Instant :=
  ops.foldl (fun last op => op.lastSweep idle last) last

theorem lastSweepAfter_append (idle : Nat) (last : Instant) (ops later : List RegistryOp) :
    lastSweepAfter idle last (ops ++ later) =
      lastSweepAfter idle (lastSweepAfter idle last ops) later :=
  List.foldl_append

/-- The last sweep never moves back. -/
theorem le_lastSweepAfter {idle : Nat} {last : Instant} {ops : List RegistryOp}
    (order : InOrder (last :: ops.map RegistryOp.now)) :
    last.nanos ≤ (lastSweepAfter idle last ops).nanos := by
  induction ops generalizing last with
  | nil => exact le_rfl
  | cons op ops ih =>
      rw [List.map_cons] at order
      have hop := (inOrder_cons.mp order).1 op.now List.mem_cons_self
      have hswept : InOrder (op.lastSweep idle last :: ops.map RegistryOp.now) :=
        RegistryOp.inOrder_lastSweep order
      have hrest := ih hswept
      exact (RegistryOp.le_lastSweep hop).1.trans hrest

/-- The last sweep lies at or before any instant that comes after the run. -/
theorem lastSweepAfter_le {idle : Nat} {last now : Instant} {ops : List RegistryOp}
    (order : InOrder (last :: (ops.map RegistryOp.now ++ [now]))) :
    (lastSweepAfter idle last ops).nanos ≤ now.nanos := by
  induction ops generalizing last with
  | nil => exact (inOrder_cons.mp order).1 now List.mem_cons_self
  | cons op ops ih => exact ih (RegistryOp.inOrder_lastSweep order)

/-! ## The calls of one host -/

/-- The calls behind the bucket in use are calls of the host, all that the last sweep found less
than the idle timeout old or that came after it are among them, and there is one of these if there
is a bucket. -/
structure Remembers (idle : Nat) (last : Instant) (made kept : List Instant) : Prop where
  own : ∀ t ∈ kept, t ∈ made
  recent : ∀ t ∈ made, last.nanos < t.nanos + idle → t ∈ kept
  alive : kept ≠ [] → ∃ t ∈ kept, last.nanos < t.nanos + idle

variable {idle : Nat} {last now : Instant} {made kept : List Instant} {host : IpAddr}

theorem Remembers.nothing (idle : Nat) (last : Instant) : Remembers idle last [] [] where
  own := by simp
  recent := by simp
  alive := by simp

/-- A sweep that is not earlier than the last one. -/
theorem Remembers.swept (h : Remembers idle last made kept) (le : last.nanos ≤ now.nanos) :
    Remembers idle now made (sweptCalls idle kept (some now)) := by
  by_cases old : ∀ t ∈ kept, t.nanos + idle ≤ now.nanos
  · rw [sweptCalls_lapsed old]
    refine ⟨by simp, ?_, by simp⟩
    intro t ht hrecent
    have hkept := h.recent t ht (by omega)
    have := old t hkept
    omega
  · rw [sweptCalls_kept old]
    refine ⟨h.own, ?_, ?_⟩
    · intro t ht hrecent
      exact h.recent t ht (by omega)
    · intro _
      push Not at old
      exact old

/-- A call that is not earlier than the last sweep. -/
theorem Remembers.called (pos : 0 < idle) (h : Remembers idle last made kept)
    (le : last.nanos ≤ now.nanos) : Remembers idle last (made ++ [now]) (kept ++ [now]) where
  own := by
    intro t ht
    rcases List.mem_append.mp ht with hkept | hnow
    · exact List.mem_append_left _ (h.own t hkept)
    · exact List.mem_append_right _ hnow
  recent := by
    intro t ht hrecent
    rcases List.mem_append.mp ht with hmade | hnow
    · exact List.mem_append_left _ (h.recent t hmade hrecent)
    · exact List.mem_append_right _ hnow
  alive := by
    intro _
    exact ⟨now, List.mem_append_right _ (List.mem_singleton.mpr rfl), by omega⟩

theorem remembers_step (pos : 0 < idle) (h : Remembers idle last made kept) (host : IpAddr)
    (op : RegistryOp) (le : last.nanos ≤ op.now.nanos) :
    Remembers idle (op.lastSweep idle last) (made ++ (op.callOf host).toList)
      ((op.event idle last host).calls idle kept) := by
  have hsweep : Remembers idle (op.lastSweep idle last) made
      (sweptCalls idle kept (op.event idle last host).sweep) := by
    rcases RegistryOp.lastSweep_cases idle last op with ⟨sweeps, hlast⟩ | ⟨not, hlast⟩
    · rw [hlast, RegistryOp.event, if_pos sweeps]
      exact h.swept le
    · rw [hlast, RegistryOp.event, if_neg not]
      exact h
  -- A call comes after the sweep of the same operation.
  have hle : (op.lastSweep idle last).nanos ≤ op.now.nanos := (RegistryOp.le_lastSweep le).2
  unfold HostEvent.calls
  show Remembers _ _ _ (_ ++ (op.callOf host).toList)
  rcases op.callOf_cases host with hnone | hcall
  · rw [hnone, Option.toList_none, List.append_nil, List.append_nil]
    exact hsweep
  · rw [hcall]
    exact hsweep.called pos hle

theorem remembers_after (pos : 0 < idle) (h : Remembers idle last made kept) (host : IpAddr)
    {ops : List RegistryOp} (order : InOrder (last :: ops.map RegistryOp.now)) :
    Remembers idle (lastSweepAfter idle last ops)
      (made ++ ops.filterMap (RegistryOp.callOf host))
      ((hostEvents idle host last ops).foldl (HostEvent.calls idle) kept) := by
  induction ops generalizing last made kept with
  | nil =>
      rw [List.filterMap_nil, List.append_nil]
      exact h
  | cons op ops ih =>
      rw [List.map_cons] at order
      have hop := (inOrder_cons.mp order).1 op.now List.mem_cons_self
      have hrest := ih (remembers_step pos h host op hop) (RegistryOp.inOrder_lastSweep order)
      have hmade : (op :: ops).filterMap (RegistryOp.callOf host) =
          (op.callOf host).toList ++ ops.filterMap (RegistryOp.callOf host) := by
        rw [List.filterMap_cons]
        cases op.callOf host <;> rfl
      rw [hmade, ← List.append_assoc]
      exact hrest

/-! ## Whole registries -/

theorem mem_filterMap_callOf {ops : List RegistryOp} {t : Instant} :
    t ∈ ops.filterMap (RegistryOp.callOf host) ↔ .take host t ∈ ops := by
  rw [List.mem_filterMap]
  constructor
  · rintro ⟨op, hmem, hcall⟩
    cases op with
    | evictIdle now => simp [RegistryOp.callOf] at hcall
    | take caller now =>
        by_cases same : caller = host
        · rw [RegistryOp.callOf, if_pos same, Option.some.injEq] at hcall
          rw [← same, ← hcall]
          exact hmem
        · rw [RegistryOp.callOf, if_neg same] at hcall
          exact absurd hcall (by simp)
  · intro hmem
    exact ⟨.take host t, hmem, if_pos rfl⟩

namespace HostRegistry

/-- The host has a bucket. -/
def IsTracked (r : HostRegistry) (host : IpAddr) : Prop := (r.entries.entry? host).isSome = true

instance (r : HostRegistry) (host : IpAddr) : Decidable (r.IsTracked host) :=
  inferInstanceAs (Decidable ((r.entries.entry? host).isSome = true))

/-- A host is tracked exactly if it has called since the time that the last sweep looked back to:
one idle timeout before it. -/
theorem isTracked_iff (rate : Rate) (timeout : Duration) {start : Instant} {ops : List RegistryOp}
    (order : InOrder (start :: ops.map RegistryOp.now)) (host : IpAddr) :
    let idle := max timeout.nanos rate.period.nanos
    ((create rate timeout start).after ops).IsTracked host ↔
      ∃ t, .take host t ∈ ops ∧ (lastSweepAfter idle start ops).nanos < t.nanos + idle := by
  intro idle
  have hpos := create_idleTimeout_pos rate timeout start
  have hidle := create_idleTimeout_nanos rate timeout start
  have hrow := (tracks_after hpos (tracks_create rate timeout start) ops).rows host
  rw [hidle] at hpos hrow
  have hremembers := remembers_after hpos (Remembers.nothing idle start) host order
  rw [List.nil_append] at hremembers
  unfold IsTracked
  rw [hrow, entryOf?_isSome_iff]
  constructor
  · intro inUse
    obtain ⟨t, ht, hrecent⟩ := hremembers.alive inUse
    exact ⟨t, mem_filterMap_callOf.mp (hremembers.own t ht), hrecent⟩
  · rintro ⟨t, ht, hrecent⟩
    exact List.ne_nil_of_mem (hremembers.recent t (mem_filterMap_callOf.mpr ht) hrecent)

/-- No call of a run in order is later than its last operation. -/
theorem call_le_last {start : Instant} {ops : List RegistryOp} {last : RegistryOp}
    (order : InOrder (start :: (ops ++ [last]).map RegistryOp.now)) {host : IpAddr} {t : Instant}
    (mem : .take host t ∈ ops ++ [last]) : t.nanos ≤ last.now.nanos := by
  rw [List.map_append, ← List.cons_append] at order
  obtain ⟨-, -, hbefore⟩ := inOrder_append.mp order
  rcases List.mem_append.mp mem with hearlier | hlast
  · have hmem : t ∈ start :: ops.map RegistryOp.now :=
      List.mem_cons_of_mem _ (List.mem_map_of_mem (f := RegistryOp.now) hearlier)
    exact hbefore t hmem last.now List.mem_cons_self
  · rw [← List.mem_singleton.mp hlast]
    exact le_rfl

theorem after_lastSweep_create (rate : Rate) (timeout : Duration) (start : Instant)
    (ops : List RegistryOp) :
    ((create rate timeout start).after ops).lastSweep =
      lastSweepAfter (max timeout.nanos rate.period.nanos) start ops := by
  have h := after_lastSweep (create_idleTimeout_pos rate timeout start) ops
  rw [create_idleTimeout_nanos] at h
  exact h

/-- After a run, an operation sweeps as the clocks of the run say. -/
theorem sweeps_after_iff (rate : Rate) (timeout : Duration) (start : Instant)
    (ops : List RegistryOp) (op : RegistryOp) :
    let idle := max timeout.nanos rate.period.nanos
    ((create rate timeout start).after ops).Sweeps op ↔
      op.Sweeps idle (lastSweepAfter idle start ops) := by
  intro idle
  have hpos := after_idleTimeout_pos (create_idleTimeout_pos rate timeout start) ops
  rw [sweeps_iff hpos, after_lastSweep_create, after_idleTimeout, create_idleTimeout_nanos]

/-- A lookup that sweeps moves the last sweep to its own instant, and one that does not leaves it
where it was. -/
theorem lookup_moves_lastSweep {r : HostRegistry} (pos : 0 < r.idleTimeout.nanos) (host : IpAddr)
    (now : Instant) :
    let left := (r.step (.take host now)).1
    (r.Sweeps (.take host now) ↔ left.lastSweep ≠ r.lastSweep) ∧
    (r.Sweeps (.take host now) → left.lastSweep = now) := by
  intro left
  have hmoved : r.Sweeps (.take host now) → left.lastSweep = now := lastSweep_step_of_sweeps
  refine ⟨⟨fun sweeps same => ?_, fun moved => ?_⟩, hmoved⟩
  · have hlong : r.lastSweep.nanos + r.idleTimeout.nanos ≤ now.nanos :=
      (sweeps_iff pos (.take host now)).mp sweeps
    rw [← same, hmoved sweeps] at hlong
    omega
  · by_contra quiet
    exact moved (lastSweep_step_of_not_sweeps quiet)

section Runs

variable (rate : Rate) (timeout : Duration) {start now : Instant} {before : List RegistryOp}

/-- After a lookup a host is tracked if it has called within one timeout, and only if it has called
within two. -/
theorem tracked_after_lookup {caller : IpAddr}
    (order : InOrder (start :: (before ++ [RegistryOp.take caller now]).map RegistryOp.now))
    (host : IpAddr) :
    let idle := max timeout.nanos rate.period.nanos
    let seen := before ++ [RegistryOp.take caller now]
    let left := (create rate timeout start).after seen
    (left.IsTracked host → CalledWithin (2 * idle) now host seen) ∧
      (CalledWithin idle now host seen → left.IsTracked host) := by
  intro idle seen left
  have hpos : 0 < idle := lt_max_of_lt_right rate.period_pos
  have htracked : left.IsTracked host ↔
      ∃ t, .take host t ∈ seen ∧ (lastSweepAfter idle start seen).nanos < t.nanos + idle :=
    isTracked_iff rate timeout order host
  -- The last sweep lies less than the timeout before the lookup, and not after it.
  have hlast : lastSweepAfter idle start seen =
      (RegistryOp.take caller now).lastSweep idle (lastSweepAfter idle start before) :=
    lastSweepAfter_append idle start before [.take caller now]
  have hbefore : (lastSweepAfter idle start before).nanos ≤ now.nanos := by
    apply lastSweepAfter_le
    rw [List.map_append] at order
    exact order
  have hupper : (lastSweepAfter idle start seen).nanos ≤ now.nanos := by
    rw [hlast]
    exact (RegistryOp.le_lastSweep hbefore).2
  have hlower : now.nanos < (lastSweepAfter idle start seen).nanos + idle := by
    rw [hlast]
    exact RegistryOp.lookup_lastSweep hpos caller now
  constructor
  · intro h
    obtain ⟨t, ht, hrecent⟩ := htracked.mp h
    exact ⟨t, ht, by omega, call_le_last order ht⟩
  · rintro ⟨t, ht, hrecent, -⟩
    exact htracked.mpr ⟨t, ht, by omega⟩

/-- After a requested sweep a host is tracked exactly if it has called within one timeout. -/
theorem tracked_after_evictIdle
    (order : InOrder (start :: (before ++ [RegistryOp.evictIdle now]).map RegistryOp.now))
    (host : IpAddr) :
    let idle := max timeout.nanos rate.period.nanos
    let seen := before ++ [RegistryOp.evictIdle now]
    ((create rate timeout start).after seen).IsTracked host ↔ CalledWithin idle now host seen := by
  intro idle seen
  have htracked : ((create rate timeout start).after seen).IsTracked host ↔
      ∃ t, .take host t ∈ seen ∧ (lastSweepAfter idle start seen).nanos < t.nanos + idle :=
    isTracked_iff rate timeout order host
  have hlast : lastSweepAfter idle start seen = now :=
    lastSweepAfter_append idle start before [.evictIdle now]
  rw [hlast] at htracked
  refine htracked.trans ?_
  constructor
  · rintro ⟨t, ht, hrecent⟩
    exact ⟨t, ht, hrecent, call_le_last order ht⟩
  · rintro ⟨t, ht, hrecent, -⟩
    exact ⟨t, ht, hrecent⟩

/-- From a sweep to a later lookup that sweeps it is at least the timeout. -/
theorem sweeps_apart {op : RegistryOp} {between : List RegistryOp} {caller : IpAddr}
    (order : InOrder (op.now :: between.map RegistryOp.now))
    (sweeps : ((create rate timeout start).after before).Sweeps op)
    (later : ((create rate timeout start).after (before ++ op :: between)).Sweeps
      (.take caller now)) :
    op.now.nanos + (max timeout.nanos rate.period.nanos : Nat) ≤ now.nanos := by
  let idle := max timeout.nanos rate.period.nanos
  have hswept : op.lastSweep idle (lastSweepAfter idle start before) = op.now :=
    if_pos ((sweeps_after_iff rate timeout start before op).mp sweeps)
  have hlater : (lastSweepAfter idle start (before ++ op :: between)).nanos + idle ≤ now.nanos :=
    (sweeps_after_iff rate timeout start _ (.take caller now)).mp later
  -- Nothing between the two moves the last sweep back to before the first of them.
  have hlast : op.now.nanos ≤ (lastSweepAfter idle start (before ++ op :: between)).nanos := by
    rw [lastSweepAfter_append]
    show op.now.nanos ≤ (lastSweepAfter idle (RegistryOp.lastSweep idle _ op) between).nanos
    rw [hswept]
    exact le_lastSweepAfter order
  exact (Int.add_le_add_right hlast idle).trans hlater

end Runs

/-- **A registry remembers the hosts that called a short while ago.** Take any run of lookups and
requested sweeps during which the clock does not run backwards, and the idle timeout in effect.
After a lookup a host is tracked only if it has called within two timeouts, and is if it has called
within one. After a requested sweep it is tracked exactly if it has called within one. Lookups sweep
exactly if they move the last sweep, which is then their own; and from any sweep to a later lookup
that sweeps it is at least one timeout. -/
theorem registry_remembers_recent_hosts (rate : Rate) (timeout : Duration) {start : Instant}
    {ops : List RegistryOp} (order : InOrder (start :: ops.map RegistryOp.now)) :
    let r := create rate timeout start
    let idle := max timeout.nanos rate.period.nanos
    (∀ before caller now after, ops = before ++ RegistryOp.take caller now :: after → ∀ host,
      let seen := before ++ [RegistryOp.take caller now]
      ((r.after seen).IsTracked host → CalledWithin (2 * idle) now host seen) ∧
      (CalledWithin idle now host seen → (r.after seen).IsTracked host)) ∧
    (∀ before now after, ops = before ++ RegistryOp.evictIdle now :: after → ∀ host,
      let seen := before ++ [RegistryOp.evictIdle now]
      (r.after seen).IsTracked host ↔ CalledWithin idle now host seen) ∧
    (∀ before caller now after, ops = before ++ RegistryOp.take caller now :: after →
      let found := r.after before
      let left := r.after (before ++ [RegistryOp.take caller now])
      (found.Sweeps (.take caller now) ↔ left.lastSweep ≠ found.lastSweep) ∧
      (found.Sweeps (.take caller now) → left.lastSweep = now)) ∧
    ∀ before op between caller now after,
      ops = before ++ op :: between ++ RegistryOp.take caller now :: after →
      (r.after before).Sweeps op →
      (r.after (before ++ op :: between)).Sweeps (.take caller now) →
      op.now.nanos + idle ≤ now.nanos := by
  intro r idle
  have horder : ∀ before op after, ops = before ++ op :: after →
      InOrder (start :: (before ++ [op]).map RegistryOp.now) := by
    rintro before op after rfl
    refine List.Pairwise.sublist (List.Sublist.cons_cons start (List.Sublist.map _ ?_)) order
    exact List.Sublist.append_left (List.Sublist.cons_cons op (List.nil_sublist after)) before
  refine ⟨?_, ?_, ?_, ?_⟩
  · intro before caller now after hops host
    exact tracked_after_lookup rate timeout (horder before _ after hops) host
  · intro before now after hops host
    exact tracked_after_evictIdle rate timeout (horder before _ after hops) host
  · intro before caller now after _ found left
    have hleft : left = (found.step (.take caller now)).1 := r.after_snoc before _
    rw [hleft]
    have hidle := after_idleTimeout_pos (create_idleTimeout_pos rate timeout start) before
    exact lookup_moves_lastSweep hidle caller now
  · intro before op between caller now after hops sweeps later
    have hbetween : InOrder (op.now :: between.map RegistryOp.now) := by
      rw [hops, List.append_assoc, List.map_append] at order
      have hrest := (inOrder_append.mp (inOrder_cons.mp order).2).2.1
      rw [List.cons_append, List.map_cons, List.map_append, ← List.cons_append] at hrest
      exact (inOrder_append.mp hrest).1
    exact sweeps_apart rate timeout hbetween sweeps later

/-- Two hosts under a timeout of eight seconds. The lookup after eight seconds sweeps and leaves
the one that called a second ago; the sweep after fifteen finds that call too old, and keeps the
host that called since. -/
theorem registry_remembers_recent_hosts_for_eight_seconds :
    let first : IpAddr := .v4 0x0a000001
    let second : IpAddr := .v4 0x0a000002
    let seven : Instant := ⟨7000000000, by decide +kernel, by decide +kernel⟩
    let eight : Instant := ⟨8000000000, by decide +kernel, by decide +kernel⟩
    let fifteen : Instant := ⟨15000000000, by decide +kernel, by decide +kernel⟩
    let lookups : List RegistryOp := [.take first .origin, .take second seven, .take first eight]
    let ops : List RegistryOp := lookups ++ [.evictIdle fifteen]
    let r := create fiveInEight Rate.second .origin
    InOrder (.origin :: ops.map RegistryOp.now) ∧ (r.after lookups).lastSweep = eight ∧
    (r.after lookups).IsTracked second ∧
    (r.after ops).IsTracked first ∧ ¬ (r.after ops).IsTracked second := by
  intro first second seven eight fifteen lookups ops r
  have horder : InOrder (.origin :: ops.map RegistryOp.now) := by decide +kernel
  obtain ⟨hlookup, hsweep, hmoves, -⟩ :=
    registry_remembers_recent_hosts fiveInEight Rate.second horder
  refine ⟨horder, ?_, ?_, ?_, ?_⟩
  · have hsweeps : (r.after [.take first .origin, .take second seven]).Sweeps
        (.take first eight) := by
      show (r.after [.take first .origin, .take second seven]).sweepIsDue eight = true
      decide +kernel
    exact (hmoves [.take first .origin, .take second seven] first eight
      [.evictIdle fifteen] rfl).2 hsweeps
  · have hkept := (hlookup [.take first .origin, .take second seven] first eight
      [.evictIdle fifteen] rfl second).2
    exact hkept ⟨seven, by simp, by decide +kernel, by decide +kernel⟩
  · have htracked := hsweep lookups fifteen [] rfl first
    exact htracked.mpr ⟨eight, by simp [lookups], by decide +kernel, by decide +kernel⟩
  · intro h
    obtain ⟨t, hmem, hrecent, -⟩ := (hsweep lookups fifteen [] rfl second).mp h
    have hseven : t = seven := by simpa [lookups, first, second] using hmem
    rw [hseven] at hrecent
    exact absurd hrecent (by decide +kernel)

end HostRegistry

end Gatehouse
