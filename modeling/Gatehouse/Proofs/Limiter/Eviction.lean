import Gatehouse.Proofs.Limiter.BucketFamily
import Gatehouse.Proofs.TokenBucket.Recovery
/-!
# What dropping idle hosts admits

A registry drops the buckets of idle hosts, so a host that comes back starts full. Beside it stand
buckets that are never dropped (`PermanentBuckets`). While the clock does not run backwards:

* `Shadows` — the two hold, for every host, pasts that no later call can tell apart; where buckets
  recover within the idle timeout, an operation keeps that (`shadows_step`) and answers alike, and
  so does a run (`Shadows.verdicts_eq`);
* `recovers_of_dropsInvisibly` — a bucket that does not recover shows: sweep while it is idle;
* `dropping_is_invisible_iff` — so whether dropping can be seen is a matter of one bucket, and for
  whole capacities of the rounded flow during the timeout alone.

The timeout is raised to the period of the rate, but what flows in during one period is the
capacity only up to rounding. At one call in 49 seconds it is not enough.
-/

namespace Gatehouse

open Instant TokenBucket

/-! ## Buckets that stay -/

/-- A bucket for each host, made full at its first call and never dropped. -/
structure PermanentBuckets where
  rate : Rate
  bucketOf : IpAddr → Option TokenBucket

namespace PermanentBuckets

/-- No bucket yet. -/
def create (rate : Rate) : PermanentBuckets := ⟨rate, fun _ => none⟩

/-- Takes a token of a host. -/
def tryTake (p : PermanentBuckets) (host : IpAddr) (now : Instant) : PermanentBuckets × Bool :=
  let found := (p.bucketOf host).getD (.full p.rate now)
  let (bucket, granted) := found.tryTakeOne now
  ({ p with bucketOf := Function.update p.bucketOf host (some bucket) }, granted)

/-- One operation; a sweep does nothing. -/
def step (p : PermanentBuckets) : RegistryOp → PermanentBuckets × Option Bool
  | .take host now => ((p.tryTake host now).1, some (p.tryTake host now).2)
  | .evictIdle _ => (p, none)

/-- The verdicts given to the calls of a run, in order. -/
def verdicts (p : PermanentBuckets) : List RegistryOp → List Bool
  | [] => []
  | op :: ops => (p.step op).2.toList ++ (p.step op).1.verdicts ops

theorem step_rate (p : PermanentBuckets) (op : RegistryOp) : (p.step op).1.rate = p.rate := by
  cases op <;> rfl

/-- A host's bucket gets the host's calls and no others. -/
theorem step_bucketOf {p : PermanentBuckets} {host : IpAddr} {calls : List Instant}
    (h : p.bucketOf host = ofCalls? p.rate calls) (op : RegistryOp) :
    (p.step op).1.bucketOf host = ofCalls? p.rate (calls ++ (op.callOf host).toList) := by
  cases op with
  | evictIdle now =>
      show p.bucketOf host = ofCalls? p.rate (calls ++ [])
      rw [List.append_nil, h]
  | take caller now =>
      show Function.update p.bucketOf caller _ host = _
      by_cases same : caller = host
      · subst same
        rw [Function.update_self, h, RegistryOp.callOf, if_pos rfl]
        exact (ofCalls?_snoc p.rate calls now).symm
      · rw [Function.update_of_ne (Ne.symm same), h, RegistryOp.callOf, if_neg same]
        simp

theorem step_verdict {p : PermanentBuckets} {host : IpAddr} {calls : List Instant}
    (h : p.bucketOf host = ofCalls? p.rate calls) (now : Instant) :
    (p.step (.take host now)).2 = some (answer p.rate calls now) := by
  rw [answer, ← h]
  rfl

end PermanentBuckets

namespace HostRegistry

/-- The verdicts given to the calls of a run, in order. -/
def verdicts (r : HostRegistry) (ops : List RegistryOp) : List Bool :=
  (r.replies ops).filterMap RegistryReply.verdict?

/-- While the clock does not run backwards, no verdict of the registry tells that it drops idle
hosts. -/
def DropsInvisibly (rate : Rate) (timeout : Duration) : Prop :=
  ∀ start ops, InOrder (start :: ops.map RegistryOp.now) →
    (create rate timeout start).verdicts ops = (PermanentBuckets.create rate).verdicts ops

theorem verdicts_cons (r : HostRegistry) (op : RegistryOp) (ops : List RegistryOp) :
    r.verdicts (op :: ops) = (r.step op).2.verdict?.toList ++ (r.step op).1.verdicts ops := by
  unfold verdicts
  rw [replies, List.filterMap_cons]
  cases (r.step op).2.verdict? <;> rfl

theorem verdicts_append (r : HostRegistry) (ops later : List RegistryOp) :
    r.verdicts (ops ++ later) = r.verdicts ops ++ (r.after ops).verdicts later := by
  induction ops generalizing r with
  | nil => rfl
  | cons op ops ih =>
      rw [List.cons_append, verdicts_cons, verdicts_cons, ih, after_cons, List.append_assoc]

/-! ## Dropping what recovers -/

variable {rate : Rate} {clock now : Instant} {past calls : List Instant} {idle : Nat}

/-- A sweep leaves calls that are in order, and that later calls cannot tell from the past. -/
theorem sweptCalls_alike (recovers : Recovers rate idle) (alike : Alike rate clock past calls)
    (order : InOrder (calls ++ [clock])) (le : clock.nanos ≤ now.nanos) {sweep : Option Instant}
    (atNow : ∀ s ∈ sweep, s = now) :
    Alike rate now past (sweptCalls idle calls sweep) ∧
      InOrder (sweptCalls idle calls sweep ++ [now]) := by
  have hkept : InOrder (calls ++ [now]) := by
    obtain ⟨hcalls, -, hclock⟩ := inOrder_append.mp order
    refine inOrder_append.mpr ⟨hcalls, inOrder_replicate 1 now, ?_⟩
    intro t ht u hu
    rw [List.mem_singleton.mp hu]
    exact (hclock t ht clock List.mem_cons_self).trans le
  have hnow := alike.mono le
  cases sweep with
  | none => exact ⟨hnow, hkept⟩
  | some s =>
      rw [atNow s rfl]
      by_cases old : ∀ t ∈ calls, t.nanos + idle ≤ now.nanos
      · rw [sweptCalls_lapsed old]
        exact ⟨hnow.trans (recovers.alike hkept old), inOrder_replicate 1 now⟩
      · rw [sweptCalls_kept old]
        exact ⟨hnow, hkept⟩

/-- The registry holds buckets with some calls behind them, the permanent buckets have the whole
past behind them, and no call from the clock on can tell the two apart. -/
structure Shadows (r : HostRegistry) (p : PermanentBuckets) (clock : Instant)
    (calls past : IpAddr → List Instant) : Prop where
  tracks : r.Tracks calls
  rate : p.rate = r.rate
  buckets : ∀ host, p.bucketOf host = ofCalls? r.rate (past host)
  order : ∀ host, InOrder (calls host ++ [clock])
  alike : ∀ host, Alike r.rate clock (past host) (calls host)

variable {r : HostRegistry} {p : PermanentBuckets} {behind before : IpAddr → List Instant}

theorem Shadows.bucketOf_eq (h : Shadows r p clock behind before) (host : IpAddr) :
    p.bucketOf host = ofCalls? p.rate (before host) := by
  rw [h.rate]
  exact h.buckets host

/-- Where buckets recover, the sweep of an operation, if it has one, leaves the two alike. -/
theorem Shadows.swept (recovers : Recovers r.rate r.idleTimeout.nanos)
    (h : Shadows r p clock behind before) {op : RegistryOp} (le : clock.nanos ≤ op.now.nanos)
    (host : IpAddr) :
    let left := sweptCalls r.idleTimeout.nanos (behind host)
      (op.event r.idleTimeout.nanos r.lastSweep host).sweep
    Alike r.rate op.now (before host) left ∧ InOrder (left ++ [op.now]) := by
  refine sweptCalls_alike recovers (h.alike host) (h.order host) le ?_
  intro s hs
  simp only [RegistryOp.event, Option.mem_def] at hs
  split at hs
  · exact (Option.some.inj hs).symm
  · exact absurd hs (by simp)

theorem Shadows.verdict_eq (pos : 0 < r.idleTimeout.nanos)
    (recovers : Recovers r.rate r.idleTimeout.nanos) (h : Shadows r p clock behind before)
    {op : RegistryOp} (le : clock.nanos ≤ op.now.nanos) :
    (r.step op).2.verdict? = (p.step op).2 := by
  cases op with
  | evictIdle now => rfl
  | take caller now =>
      have hanswer := verdictFor?_eq pos h.tracks caller (.take caller now)
      simp only [verdictFor?, RegistryOp.event, RegistryOp.callOf, if_true, Option.bind_some,
        Option.map_some] at hanswer
      rw [hanswer, PermanentBuckets.step_verdict (h.bucketOf_eq caller), h.rate]
      exact congrArg some (h.swept recovers le caller).1.answer_eq.symm

/-- Where buckets recover, an operation keeps the two alike. -/
theorem shadows_step (pos : 0 < r.idleTimeout.nanos)
    (recovers : Recovers r.rate r.idleTimeout.nanos) (h : Shadows r p clock behind before)
    (op : RegistryOp) (le : clock.nanos ≤ op.now.nanos) :
    Shadows (r.step op).1 (p.step op).1 op.now
      (fun host =>
        (op.event r.idleTimeout.nanos r.lastSweep host).calls r.idleTimeout.nanos (behind host))
      (fun host => before host ++ (op.callOf host).toList) := by
  refine ⟨tracks_step pos h.tracks op, ?_, ?_, ?_, ?_⟩
  · rw [step_rate, PermanentBuckets.step_rate, h.rate]
  · intro host
    rw [step_rate, ← h.rate]
    exact PermanentBuckets.step_bucketOf (h.bucketOf_eq host) op
  · intro host
    obtain ⟨-, horder⟩ := h.swept recovers le host
    show InOrder (_ ++ (op.callOf host).toList ++ [op.now])
    rcases op.callOf_cases host with hnone | hcall
    · rw [hnone, Option.toList_none, List.append_nil]
      exact horder
    · rw [hcall]
      exact horder.again
  · intro host
    obtain ⟨halike, -⟩ := h.swept recovers le host
    rw [step_rate]
    show Alike r.rate op.now _ (_ ++ (op.callOf host).toList)
    rcases op.callOf_cases host with hnone | hcall
    · rw [hnone, Option.toList_none, List.append_nil, List.append_nil]
      exact halike
    · rw [hcall]
      exact halike.snoc

/-- So a run is answered alike. -/
theorem Shadows.verdicts_eq (pos : 0 < r.idleTimeout.nanos)
    (recovers : Recovers r.rate r.idleTimeout.nanos) (h : Shadows r p clock behind before)
    {ops : List RegistryOp} (order : InOrder (clock :: ops.map RegistryOp.now)) :
    r.verdicts ops = p.verdicts ops := by
  induction ops generalizing r p clock behind before with
  | nil => rfl
  | cons op ops ih =>
      rw [List.map_cons, inOrder_cons] at order
      have hclock := order.1 op.now List.mem_cons_self
      have hverdict := h.verdict_eq pos recovers hclock
      have hstep := shadows_step pos recovers h op hclock
      have hpos := step_idleTimeout_pos pos op
      have hrecovers : Recovers (r.step op).1.rate (r.step op).1.idleTimeout.nanos := by
        rw [step_rate, step_idleTimeout]
        exact recovers
      rw [verdicts_cons, PermanentBuckets.verdicts, hverdict, ih hpos hrecovers hstep order.2]

theorem shadows_create (rate : Rate) (timeout : Duration) (start : Instant) :
    Shadows (create rate timeout start) (.create rate) start (fun _ => []) (fun _ => []) where
  tracks := tracks_create rate timeout start
  rate := rfl
  buckets := fun _ => rfl
  order := fun _ => inOrder_replicate 1 start
  alike := fun _ => Alike.refl rate start []

theorem dropsInvisibly_of_recovers {timeout : Duration}
    (recovers : Recovers rate (timeout.max rate.period).nanos) : DropsInvisibly rate timeout := by
  intro start ops order
  exact (shadows_create rate timeout start).verdicts_eq
    (create_idleTimeout_pos rate timeout start) recovers order

/-! ## Dropping what does not recover -/

/-- Calls of one host. -/
def callsOf (host : IpAddr) (ts : List Instant) : List RegistryOp := ts.map (.take host)

theorem map_now_callsOf (host : IpAddr) (ts : List Instant) :
    (callsOf host ts).map RegistryOp.now = ts := by
  unfold callsOf
  rw [List.map_map]
  exact List.map_id ts

theorem filterMap_callsOf (host : IpAddr) (ts : List Instant) :
    (callsOf host ts).filterMap (RegistryOp.callOf host) = ts := by
  unfold callsOf
  induction ts with
  | nil => rfl
  | cons t ts ih => simp [RegistryOp.callOf, ih]

theorem mem_callsOf {host caller : IpAddr} {ts : List Instant} {t : Instant}
    (h : .take caller t ∈ callsOf host ts) : caller = host ∧ t ∈ ts := by
  obtain ⟨s, hs, heq⟩ := List.mem_map.mp h
  cases heq
  exact ⟨rfl, hs⟩

/-- Where one host only calls, its bucket gives all verdicts. -/
theorem permanent_verdicts {host : IpAddr} {ops : List RegistryOp}
    (only : ∀ caller now, .take caller now ∈ ops → caller = host)
    (h : p.bucketOf host = ofCalls? p.rate calls) :
    p.verdicts ops = later p.rate calls (ops.filterMap (RegistryOp.callOf host)) := by
  induction ops generalizing p calls with
  | nil => rfl
  | cons op ops ih =>
      have hrest : ∀ caller now, .take caller now ∈ ops → caller = host := by
        intro caller now hmem
        exact only caller now (List.mem_cons_of_mem op hmem)
      have hbucket := PermanentBuckets.step_bucketOf h op
      rw [← PermanentBuckets.step_rate p op] at hbucket
      rw [PermanentBuckets.verdicts, ih hrest hbucket, PermanentBuckets.step_rate]
      cases op with
      | evictIdle now =>
          show later p.rate (calls ++ []) _ = later p.rate calls _
          rw [List.append_nil]
          rfl
      | take caller now =>
          obtain rfl := only caller now List.mem_cons_self
          have hcall : (RegistryOp.take caller now).callOf caller = some now := if_pos rfl
          rw [PermanentBuckets.step_verdict h, List.filterMap_cons, hcall]
          rfl

theorem permanent_callsOf (rate : Rate) (host : IpAddr) (ts : List Instant) :
    (PermanentBuckets.create rate).verdicts (callsOf host ts) = later rate [] ts := by
  have hrun : (PermanentBuckets.create rate).verdicts (callsOf host ts) =
      later rate [] ((callsOf host ts).filterMap (RegistryOp.callOf host)) := by
    refine permanent_verdicts ?_ rfl
    intro caller now hmem
    exact (mem_callsOf hmem).1
  rw [hrun, filterMap_callsOf]

/-- A sweep between calls is nothing to permanent buckets. -/
theorem permanent_around (rate : Rate) (host : IpAddr) (ts us : List Instant) (sweep : Instant) :
    (PermanentBuckets.create rate).verdicts
        (callsOf host ts ++ .evictIdle sweep :: callsOf host us) =
      later rate [] (ts ++ us) := by
  have hcalls : (callsOf host ts ++ .evictIdle sweep :: callsOf host us).filterMap
      (RegistryOp.callOf host) = ts ++ us := by
    rw [List.filterMap_append, List.filterMap_cons, filterMap_callsOf, filterMap_callsOf]
    rfl
  rw [← hcalls]
  refine permanent_verdicts ?_ rfl
  intro caller now hmem
  rcases List.mem_append.mp hmem with hfirst | hrest
  · exact (mem_callsOf hfirst).1
  · rcases List.mem_cons.mp hrest with hsweep | hlast
    · exact absurd hsweep (by simp)
    · exact (mem_callsOf hlast).1

/-- A sweep that finds every call of a run long past leaves no bucket in use. -/
theorem sweptCalls_of_old {start sweep : Instant} {ops : List RegistryOp}
    (old : ∀ caller now, .take caller now ∈ ops → now.nanos + idle ≤ sweep.nanos)
    (host : IpAddr) :
    sweptCalls idle ((hostEvents idle host start ops).foldl (HostEvent.calls idle) [])
      (some sweep) = [] := by
  apply sweptCalls_lapsed
  intro t ht
  rcases mem_of_mem_tenure ht with hnil | hcall
  · exact absurd hnil List.not_mem_nil
  · obtain ⟨op, hmem, hop⟩ := List.mem_filterMap.mp hcall
    cases op with
    | evictIdle now => exact absurd hop (by simp [RegistryOp.callOf])
    | take caller now =>
        rcases RegistryOp.callOf_cases host (.take caller now) with hnone | hnow
        · exact absurd (hnone.symm.trans hop) (by simp)
        · obtain rfl := Option.some.inj (hnow.symm.trans hop)
          exact old caller now hmem

/-- Such a sweep leaves the registry as if it were new. -/
theorem evictIdle_eq_create {timeout : Duration} {start sweep : Instant} {ops : List RegistryOp}
    (old : ∀ caller now, .take caller now ∈ ops →
      now.nanos + (timeout.max rate.period).nanos ≤ sweep.nanos) :
    (((create rate timeout start).after ops).evictIdle sweep).1 = create rate timeout sweep := by
  have hpos := create_idleTimeout_pos rate timeout start
  have hafter := tracks_after hpos (tracks_create rate timeout start) ops
  generalize hr : (create rate timeout start).after ops = r at *
  have hrate : r.rate = rate := by rw [← hr, after_rate]; rfl
  have hidle : r.idleTimeout = timeout.max rate.period := by rw [← hr, after_idleTimeout]; rfl
  have hempty : (r.evictIdle sweep).1.Tracks fun _ => [] := by
    have htracks := tracks_evictIdle (by rw [hidle]; exact hpos) hafter sweep
    refine ⟨htracks.nodup, ?_⟩
    intro host
    rw [htracks.rows host, hidle]
    exact congrArg (entryOf? _) (sweptCalls_of_old old host)
  -- No bucket is in use, so there is no row.
  have hsize : (r.evictIdle sweep).1.size = 0 := by simpa using hempty.size
  have hentries : (r.evictIdle sweep).1.entries = [] := List.length_eq_zero_iff.mp hsize
  show HostRegistry.mk r.rate r.idleTimeout (r.evictIdle sweep).1.entries sweep = _
  rw [hentries, hrate, hidle]
  rfl

/-- If dropping cannot be seen, buckets recover within the idle timeout. -/
theorem recovers_of_dropsInvisibly {timeout : Duration} (invisible : DropsInvisibly rate timeout) :
    Recovers rate (timeout.max rate.period).nanos := by
  intro before after order gap
  cases before with
  | nil => rfl
  | cons t ts =>
      cases after with
      | nil => rfl
      | cons u us =>
          obtain ⟨hbefore, hafter, hbetween⟩ := inOrder_append.mp order
          have hdouble : InOrder (t :: ts ++ u :: u :: us) := by
            refine inOrder_append.mpr ⟨hbefore, hafter.twice, ?_⟩
            intro s hs v hv
            rcases List.mem_cons.mp hv with rfl | hmem
            · exact hbetween s hs v List.mem_cons_self
            · exact hbetween s hs v hmem
          have hsweep :
              (((create rate timeout t).after (callsOf default (t :: ts))).evictIdle u).1 =
                create rate timeout u := by
            apply evictIdle_eq_create
            intro caller now hmem
            exact gap now (mem_callsOf hmem).2 u List.mem_cons_self
          have hfirst := invisible t (callsOf default (t :: ts)) (by
            rw [map_now_callsOf]
            exact hbefore.twice)
          have hrest := invisible u (callsOf default (u :: us)) (by
            rw [map_now_callsOf]
            exact hafter.twice)
          -- The run that sweeps while the bucket is idle goes on as a new registry does.
          have hwhole := invisible t
            (callsOf default (t :: ts) ++ .evictIdle u :: callsOf default (u :: us)) (by
              rw [List.map_append, List.map_cons, map_now_callsOf, map_now_callsOf]
              exact hdouble.twice)
          rw [permanent_callsOf] at hfirst hrest
          rw [permanent_around, verdicts_append, verdicts_cons, hfirst, later_append] at hwhole
          have hlater := List.append_cancel_left hwhole
          rw [← hrest, ← hsweep]
          exact hlater.symm

/-- **Dropping idle hosts is invisible exactly if a bucket recovers within the idle timeout.** The
timeout is the one in effect, at least the period of the rate. It is enough that what flows in
during it reaches the capacity, computed and rounded as the bucket does; for whole capacities up to
`2 ^ 53` it takes just that. Rates per second pass, whatever the capacity. -/
theorem dropping_is_invisible_iff (rate : Rate) (timeout : Duration) :
    (DropsInvisibly rate timeout ↔ Recovers rate (timeout.max rate.period).nanos) ∧
    (rate.refillsWithin (timeout.max rate.period) = true → DropsInvisibly rate timeout) ∧
    (∀ n : Nat, n ≤ 2 ^ 53 → rate.capacity = .ofNat n →
      (DropsInvisibly rate timeout ↔ rate.refillsWithin (timeout.max rate.period) = true)) ∧
    (rate.period = Rate.second → DropsInvisibly rate timeout) := by
  have hperiod : rate.period.nanos ≤ (timeout.max rate.period).nanos := by
    rw [durationMax_nanos]
    exact le_max_right _ _
  have hpos : 0 < (timeout.max rate.period).nanos := rate.period_pos.trans_le hperiod
  have hiff : DropsInvisibly rate timeout ↔ Recovers rate (timeout.max rate.period).nanos :=
    ⟨recovers_of_dropsInvisibly, dropsInvisibly_of_recovers⟩
  have hflow : rate.refillsWithin (timeout.max rate.period) = true →
      DropsInvisibly rate timeout := by
    intro refills
    exact hiff.mpr (recovers_of_refillsWithin hpos refills)
  refine ⟨hiff, hflow, ?_, ?_⟩
  · intro n small whole
    refine ⟨?_, hflow⟩
    intro invisible
    have hsmall : n ≤ twoTo 53 := by
      rw [twoTo_eq]
      exact small
    exact refillsWithin_of_recovers hsmall whole (hiff.mp invisible)
  · intro perSecond
    refine hflow (Rate.refillsWithin_perSecond perSecond ?_)
    rw [← perSecond]
    exact hperiod

/-- One call in 49 seconds. -/
def oneIn49Seconds : Rate where
  count := .one
  period := Duration.ofSeconds 49
  count_pos := Binary64.one_isUnits.isPositive Binary64.unitsPerOne_pos
  period_pos := by decide

/-- Five calls in eight seconds pass, one in 49 seconds does not. -/
theorem dropping_is_invisible_at_some_rates :
    DropsInvisibly fiveInEight Rate.second ∧
    ¬ DropsInvisibly oneIn49Seconds oneIn49Seconds.period := by
  have hfive : fiveInEight.refillsWithin
      (Rate.second.max fiveInEight.period) = true := by decide +kernel
  have hone : ¬ oneIn49Seconds.refillsWithin
      (oneIn49Seconds.period.max oneIn49Seconds.period) = true := by decide +kernel
  have hsmall : (1 : Nat) ≤ 2 ^ 53 := by decide
  obtain ⟨-, hflow, -, -⟩ := dropping_is_invisible_iff fiveInEight Rate.second
  obtain ⟨-, -, hwhole, -⟩ := dropping_is_invisible_iff oneIn49Seconds oneIn49Seconds.period
  refine ⟨hflow hfive, ?_⟩
  rw [hwhole 1 hsmall rfl]
  exact hone

/-- The second call of a host, 49 seconds after the first, is admitted only because the bucket of
the first was dropped: what has flowed in by then is a little less than one token. -/
theorem dropping_admits_one_more :
    let host : IpAddr := .v4 0x0a000001
    let wake : Instant := ⟨49000000000, by decide +kernel, by decide +kernel⟩
    let ops : List RegistryOp := [.take host .origin, .take host wake]
    InOrder (.origin :: ops.map RegistryOp.now) ∧
    (create oneIn49Seconds oneIn49Seconds.period .origin).verdicts ops = [true, true] ∧
    (PermanentBuckets.create oneIn49Seconds).verdicts ops = [true, false] := by
  decide +kernel

end HostRegistry

end Gatehouse
