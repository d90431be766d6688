import Gatehouse.Proofs.Limiter.RegistryRun
/-!
# The registry as a family of independent buckets

What other hosts do reaches a host only through sweeps, and a sweep is fixed by the clocks of the
operations alone. So every host is told what it would be told by buckets of its own: an event is
a sweep, a call of the host's, or a sweep and then the call, and all that matters of the past is
the list of calls on the bucket in use (`tenure`).

* `Tracks` — the registry holds exactly the buckets in use, each with its calls behind it;
* `tracks_step`, `tracks_after` — one operation and a run of them keep that;
* `registry_is_a_family_of_buckets` — verdicts, number of hosts and evictions follow.
-/

namespace Gatehouse

/-! ## What operations are to one host -/

namespace RegistryOp

/-- The operation sweeps, the last sweep having been at `last`: a request always does, a lookup
when at least the idle timeout (in nanoseconds) has passed. -/
def Sweeps (idle : Nat) (last : Instant) : RegistryOp → Prop
  | .take _ now => last.nanos + idle ≤ now.nanos
  | .evictIdle _ => True

instance (idle : Nat) (last : Instant) (op : RegistryOp) : Decidable (op.Sweeps idle last) := by
  cases op <;> unfold Sweeps <;> infer_instance

/-- The last sweep, as of after the operation. -/
def lastSweep (idle : Nat) (last : Instant) (op : RegistryOp) : Instant :=
  if op.Sweeps idle last then op.now else last

end RegistryOp

/-- What an operation is to one host: a sweep at some instant or none, and then a call of the
host's or none. -/
structure HostEvent where
  sweep : Option Instant
  call : Option Instant
deriving DecidableEq

/-- An operation as a host sees it. -/
def RegistryOp.event (idle : Nat) (last : Instant) (host : IpAddr) (op : RegistryOp) :
    HostEvent where
  sweep := if op.Sweeps idle last then some op.now else none
  call := op.callOf host

/-- Operations as a host sees them, the last sweep before them having been at `last`. -/
def hostEvents (idle : Nat) (host : IpAddr) : Instant → List RegistryOp → List HostEvent
  | _, [] => []
  | last, op :: ops =>
      op.event idle last host :: hostEvents idle host (op.lastSweep idle last) ops

/-- What a sweep leaves of a bucket with some calls behind it: nothing, if every call lies at
least the idle timeout before the sweep. -/
def sweptCalls (idle : Nat) (calls : List Instant) : Option Instant → List Instant
  | none => calls
  | some sweep => if ∀ t ∈ calls, t.nanos + idle ≤ sweep.nanos then [] else calls

theorem sweptCalls_lapsed {idle : Nat} {calls : List Instant} {sweep : Instant}
    (h : ∀ t ∈ calls, t.nanos + idle ≤ sweep.nanos) : sweptCalls idle calls (some sweep) = [] :=
  if_pos h

theorem sweptCalls_kept {idle : Nat} {calls : List Instant} {sweep : Instant}
    (h : ¬ ∀ t ∈ calls, t.nanos + idle ≤ sweep.nanos) :
    sweptCalls idle calls (some sweep) = calls :=
  if_neg h

namespace HostEvent

/-- The calls on the host's bucket after an event, given those before it. -/
def calls (idle : Nat) (before : List Instant) (e : HostEvent) : List Instant :=
  sweptCalls idle before e.sweep ++ e.call.toList

end HostEvent

/-- The calls on the bucket that a host has in use after some events; none if it has no bucket. -/
def tenure (idle : Nat) (events : List HostEvent) : List Instant :=
  events.foldl (HostEvent.calls idle) []

theorem mem_of_mem_sweptCalls {idle : Nat} {calls : List Instant} {sweep : Option Instant}
    {t : Instant} (h : t ∈ sweptCalls idle calls sweep) : t ∈ calls := by
  cases sweep with
  | none => exact h
  | some s =>
      by_cases old : ∀ u ∈ calls, u.nanos + idle ≤ s.nanos
      · rw [sweptCalls_lapsed old] at h
        exact absurd h List.not_mem_nil
      · rwa [sweptCalls_kept old] at h

/-- Behind a bucket in use are calls of its host. -/
theorem mem_of_mem_tenure {idle : Nat} {host : IpAddr} {last : Instant} {before : List Instant}
    {ops : List RegistryOp} {t : Instant}
    (h : t ∈ (hostEvents idle host last ops).foldl (HostEvent.calls idle) before) :
    t ∈ before ∨ t ∈ ops.filterMap (RegistryOp.callOf host) := by
  induction ops generalizing last before with
  | nil => exact .inl h
  | cons op ops ih =>
      rw [List.mem_filterMap]
      rcases ih h with hbefore | hlater
      · rcases List.mem_append.mp hbefore with hkept | hcall
        · exact .inl (mem_of_mem_sweptCalls hkept)
        · exact .inr ⟨op, List.mem_cons_self, Option.mem_toList.mp hcall⟩
      · obtain ⟨later, hmem, hcall⟩ := List.mem_filterMap.mp hlater
        exact .inr ⟨later, List.mem_cons_of_mem op hmem, hcall⟩

/-- The verdicts of a host's own succession of buckets. `calls` are behind the bucket in use; a
call that finds none is answered by a full bucket. -/
def successionVerdicts (rate : Rate) (idle : Nat) (calls : List Instant) :
    List HostEvent → List Bool
  | [] => []
  | e :: es =>
      (e.call.map (TokenBucket.answer rate (sweptCalls idle calls e.sweep))).toList ++
        successionVerdicts rate idle (e.calls idle calls) es

/-! ## The registry holds the buckets in use -/

/-- The row of a bucket with some calls behind it. -/
def entryOf? (rate : Rate) (calls : List Instant) : Option HostEntry :=
  (TokenBucket.ofCalls? rate calls).map fun b => ⟨b, b.lastRefill⟩

theorem entryOf?_eq_none_iff (rate : Rate) (calls : List Instant) :
    entryOf? rate calls = none ↔ calls = [] := by
  simp [entryOf?, TokenBucket.ofCalls?_eq_none_iff]

theorem entryOf?_isSome_iff (rate : Rate) (calls : List Instant) :
    (entryOf? rate calls).isSome ↔ calls ≠ [] := by
  rw [Option.isSome_iff_ne_none, ne_eq, entryOf?_eq_none_iff]

/-- One more call, on the bucket with some calls behind it or on a full one. -/
theorem entryOf?_snoc (rate : Rate) (calls : List Instant) (now : Instant) :
    let found := (entryOf? rate calls).getD ⟨.full rate now, now⟩
    entryOf? rate (calls ++ [now]) =
      some ⟨(found.bucket.tryTakeOne now).1, found.lastAccess.latest now⟩ := by
  cases h : TokenBucket.ofCalls? rate calls with
  | none =>
      simp [entryOf?, TokenBucket.ofCalls?_snoc, h, TokenBucket.tryTakeOne_lastRefill,
        TokenBucket.full]
  | some b => simp [entryOf?, TokenBucket.ofCalls?_snoc, h, TokenBucket.tryTakeOne_lastRefill]

theorem answer_eq (rate : Rate) (calls : List Instant) (now : Instant) :
    TokenBucket.answer rate calls now =
      (((entryOf? rate calls).getD ⟨.full rate now, now⟩).bucket.tryTakeOne now).2 := by
  cases h : TokenBucket.ofCalls? rate calls <;> simp [TokenBucket.answer, entryOf?, h]

namespace HostRegistry

/-- The registry holds a row for every host with calls behind its bucket, made by just these
calls, and no other row. -/
structure Tracks (r : HostRegistry) (calls : IpAddr → List Instant) : Prop where
  nodup : (HostTable.hosts r.entries).Nodup
  rows : ∀ host, r.entries.entry? host = entryOf? r.rate (calls host)

variable {r : HostRegistry} {calls : IpAddr → List Instant}

@[simp] theorem evictIdle_rate (r : HostRegistry) (now : Instant) :
    (r.evictIdle now).1.rate = r.rate := rfl

@[simp] theorem evictIdle_idleTimeout (r : HostRegistry) (now : Instant) :
    (r.evictIdle now).1.idleTimeout = r.idleTimeout := rfl

@[simp] theorem evictIdle_lastSweep (r : HostRegistry) (now : Instant) :
    (r.evictIdle now).1.lastSweep = now := rfl

/-- A row is idle exactly if every call behind it lies the idle timeout back. -/
theorem isIdle_iff (pos : 0 < r.idleTimeout.nanos) (now : Instant) {ts : List Instant}
    {entry : HostEntry} (h : entryOf? r.rate ts = some entry) :
    r.isIdle now entry = true ↔ ∀ t ∈ ts, t.nanos + r.idleTimeout.nanos ≤ now.nanos := by
  cases ts with
  | nil => simp [entryOf?, TokenBucket.ofCalls?] at h
  | cons t ts =>
      obtain ⟨b, hb, rfl⟩ := Option.map_eq_some_iff.mp h
      have hlatest := Instant.latestOf_nanos_le_iff t ts (now.nanos - r.idleTimeout.nanos)
      unfold isIdle
      simp only [decide_eq_true_eq]
      rw [Instant.le_since_iff pos, TokenBucket.ofCalls?_lastRefill hb, List.forall_mem_cons]
      constructor
      · intro hle
        obtain ⟨h1, h2⟩ := hlatest.mp (by omega)
        exact ⟨by omega, fun u hu => by have := h2 u hu; omega⟩
      · rintro ⟨h1, h2⟩
        have := hlatest.mpr ⟨by omega, fun u hu => by have := h2 u hu; omega⟩
        omega

/-- A sweep drops the bucket of each host whose calls all lie the idle timeout back. -/
theorem tracks_evictIdle (pos : 0 < r.idleTimeout.nanos) (h : r.Tracks calls) (now : Instant) :
    (r.evictIdle now).1.Tracks fun host =>
      sweptCalls r.idleTimeout.nanos (calls host) (some now) := by
  let keep : HostEntry → Bool := fun entry => !r.isIdle now entry
  refine ⟨HostTable.nodup_filter r.entries keep h.nodup, ?_⟩
  intro host
  have hfilter : (r.evictIdle now).1.entries.entry? host =
      (r.entries.entry? host).filter keep :=
    HostTable.lookup_filter r.entries keep host h.nodup
  rw [hfilter, h.rows host, evictIdle_rate]
  cases hentry : entryOf? r.rate (calls host) with
  | none =>
      rw [(entryOf?_eq_none_iff _ _).mp hentry, sweptCalls_lapsed (by simp)]
      rfl
  | some entry =>
      -- The latest access decides for the registry, all calls decide for `sweptCalls`.
      have hidle := isIdle_iff pos now hentry
      by_cases hold : ∀ t ∈ calls host, t.nanos + r.idleTimeout.nanos ≤ now.nanos
      · rw [sweptCalls_lapsed hold]
        simp [Option.filter, keep, hidle.mpr hold, entryOf?, TokenBucket.ofCalls?]
      · rw [sweptCalls_kept hold, hentry]
        have hkeep : r.isIdle now entry = false := by
          rw [← Bool.not_eq_true, hidle]
          exact hold
        simp [Option.filter, keep, hkeep]

theorem sweepIsDue_iff (pos : 0 < r.idleTimeout.nanos) (host : IpAddr) (now : Instant) :
    r.sweepIsDue now = true ↔
      (RegistryOp.take host now).Sweeps r.idleTimeout.nanos r.lastSweep := by
  unfold sweepIsDue RegistryOp.Sweeps
  rw [decide_eq_true_eq, Instant.le_since_iff pos]

/-- The operation sweeps. -/
def Sweeps (r : HostRegistry) : RegistryOp → Prop
  | .take _ now => r.sweepIsDue now = true
  | .evictIdle _ => True

theorem sweeps_iff (pos : 0 < r.idleTimeout.nanos) (op : RegistryOp) :
    r.Sweeps op ↔ op.Sweeps r.idleTimeout.nanos r.lastSweep := by
  cases op with
  | take host now => exact sweepIsDue_iff pos host now
  | evictIdle now => rfl

theorem lastSweep_step_of_sweeps {op : RegistryOp} (h : r.Sweeps op) :
    (r.step op).1.lastSweep = op.now := by
  cases op with
  | evictIdle now => rfl
  | take host now =>
      have hdue : r.sweepIsDue now = true := h
      simp [step, tryTake, swept, hdue, RegistryOp.now]

theorem lastSweep_step_of_not_sweeps {op : RegistryOp} (h : ¬ r.Sweeps op) :
    (r.step op).1.lastSweep = r.lastSweep := by
  cases op with
  | evictIdle now => exact absurd trivial h
  | take host now =>
      have hdue : ¬ r.sweepIsDue now = true := h
      simp [step, tryTake, swept, hdue]

/-- A lookup finds the buckets in use after the sweep that it may begin with. -/
theorem tracks_swept (pos : 0 < r.idleTimeout.nanos) (h : r.Tracks calls) (caller : IpAddr)
    (now : Instant) :
    (r.swept now).Tracks fun host =>
      sweptCalls r.idleTimeout.nanos (calls host)
        ((RegistryOp.take caller now).event r.idleTimeout.nanos r.lastSweep host).sweep := by
  have hdue := sweepIsDue_iff pos caller now
  by_cases sweeps : (RegistryOp.take caller now).Sweeps r.idleTimeout.nanos r.lastSweep
  · simp only [swept, hdue.mpr sweeps, RegistryOp.event, sweeps, if_true]
    exact tracks_evictIdle pos h now
  · have hdue' : r.sweepIsDue now = false := by
      rw [← Bool.not_eq_true, hdue]
      exact sweeps
    simpa [swept, hdue', RegistryOp.event, sweeps, sweptCalls] using h

theorem tracks_put (h : r.Tracks calls) (caller : IpAddr) (now : Instant) :
    let found := r.entryOf caller now
    let entry : HostEntry := ⟨(found.bucket.tryTakeOne now).1, found.lastAccess.latest now⟩
    ({ r with entries := r.entries.put caller entry } : HostRegistry).Tracks fun host =>
      calls host ++ ((RegistryOp.take caller now).callOf host).toList := by
  intro found entry
  refine ⟨HostTable.nodup_put r.entries caller entry h.nodup, ?_⟩
  intro host
  by_cases same : caller = host
  · subst same
    have hfound : found = (entryOf? r.rate (calls caller)).getD ⟨.full r.rate now, now⟩ := by
      rw [← h.rows caller]
      rfl
    have hsnoc := entryOf?_snoc r.rate (calls caller) now
    rw [← hfound] at hsnoc
    simp only [RegistryOp.callOf, if_true, Option.toList_some, hsnoc]
    exact HostTable.lookup_put_self r.entries caller entry
  · simp only [RegistryOp.callOf, if_neg same, Option.toList_none, List.append_nil]
    exact (HostTable.lookup_put_other r.entries entry (Ne.symm same)).trans (h.rows host)

@[simp] theorem swept_rate (r : HostRegistry) (now : Instant) : (r.swept now).rate = r.rate := by
  unfold swept
  split <;> rfl

@[simp] theorem swept_idleTimeout (r : HostRegistry) (now : Instant) :
    (r.swept now).idleTimeout = r.idleTimeout := by
  unfold swept
  split <;> rfl

theorem step_rate (r : HostRegistry) (op : RegistryOp) : (r.step op).1.rate = r.rate := by
  cases op with
  | take host now => exact swept_rate r now
  | evictIdle now => rfl

theorem step_idleTimeout (r : HostRegistry) (op : RegistryOp) :
    (r.step op).1.idleTimeout = r.idleTimeout := by
  cases op with
  | take host now => exact swept_idleTimeout r now
  | evictIdle now => rfl

theorem step_idleTimeout_pos (pos : 0 < r.idleTimeout.nanos) (op : RegistryOp) :
    0 < (r.step op).1.idleTimeout.nanos := by
  rw [step_idleTimeout]
  exact pos

theorem step_lastSweep (pos : 0 < r.idleTimeout.nanos) (op : RegistryOp) :
    (r.step op).1.lastSweep = op.lastSweep r.idleTimeout.nanos r.lastSweep := by
  unfold RegistryOp.lastSweep
  by_cases sweeps : op.Sweeps r.idleTimeout.nanos r.lastSweep
  · rw [if_pos sweeps, lastSweep_step_of_sweeps ((sweeps_iff pos op).mpr sweeps)]
  · rw [if_neg sweeps, lastSweep_step_of_not_sweeps ((sweeps_iff pos op).not.mpr sweeps)]

/-- One operation does to every host's calls what its event says. -/
theorem tracks_step (pos : 0 < r.idleTimeout.nanos) (h : r.Tracks calls) (op : RegistryOp) :
    (r.step op).1.Tracks fun host =>
      (op.event r.idleTimeout.nanos r.lastSweep host).calls r.idleTimeout.nanos (calls host) := by
  cases op with
  | take caller now => exact tracks_put (tracks_swept pos h caller now) caller now
  | evictIdle now =>
      have hevict := tracks_evictIdle pos h now
      simpa [step, HostEvent.calls, RegistryOp.event, RegistryOp.Sweeps, RegistryOp.now,
        RegistryOp.callOf] using hevict

/-- A call is answered by the caller's own bucket in use, as the sweep left it. -/
theorem verdictFor?_eq (pos : 0 < r.idleTimeout.nanos) (h : r.Tracks calls) (host : IpAddr)
    (op : RegistryOp) :
    r.verdictFor? host op =
      let e := op.event r.idleTimeout.nanos r.lastSweep host
      e.call.map (TokenBucket.answer r.rate
        (sweptCalls r.idleTimeout.nanos (calls host) e.sweep)) := by
  cases op with
  | evictIdle now => rfl
  | take caller now =>
      by_cases same : caller = host
      · subst same
        have hrow := (tracks_swept pos h caller now).rows caller
        rw [swept_rate] at hrow
        simp only [RegistryOp.event] at hrow
        simp only [verdictFor?, RegistryOp.event, RegistryOp.callOf, if_true, Option.map_some,
          Option.bind_some, step, RegistryReply.verdict?]
        rw [answer_eq, ← hrow]
        simp [tryTake, entryOf]
      · simp [verdictFor?, RegistryOp.event, RegistryOp.callOf, same]

/-! ## Whole runs -/

theorem after_idleTimeout (r : HostRegistry) (ops : List RegistryOp) :
    (r.after ops).idleTimeout = r.idleTimeout := by
  induction ops generalizing r with
  | nil => rfl
  | cons op ops ih => rw [after_cons, ih, step_idleTimeout]

theorem after_idleTimeout_pos (pos : 0 < r.idleTimeout.nanos) (ops : List RegistryOp) :
    0 < (r.after ops).idleTimeout.nanos := by
  rw [after_idleTimeout]
  exact pos

theorem after_rate (r : HostRegistry) (ops : List RegistryOp) :
    (r.after ops).rate = r.rate := by
  induction ops generalizing r with
  | nil => rfl
  | cons op ops ih => rw [after_cons, ih, step_rate]

theorem tracks_after (pos : 0 < r.idleTimeout.nanos) (h : r.Tracks calls)
    (ops : List RegistryOp) :
    (r.after ops).Tracks fun host =>
      (hostEvents r.idleTimeout.nanos host r.lastSweep ops).foldl
        (HostEvent.calls r.idleTimeout.nanos) (calls host) := by
  induction ops generalizing r calls with
  | nil => exact h
  | cons op ops ih =>
      have hrest := ih (step_idleTimeout_pos pos op) (tracks_step pos h op)
      rw [step_idleTimeout, step_lastSweep pos] at hrest
      exact hrest

/-- Through a run, every host is told what its own succession of buckets says. -/
theorem verdictsFor_eq (pos : 0 < r.idleTimeout.nanos) (h : r.Tracks calls) (host : IpAddr)
    (ops : List RegistryOp) :
    r.verdictsFor host ops =
      successionVerdicts r.rate r.idleTimeout.nanos (calls host)
        (hostEvents r.idleTimeout.nanos host r.lastSweep ops) := by
  induction ops generalizing r calls with
  | nil => rfl
  | cons op ops ih =>
      have hrest := ih (step_idleTimeout_pos pos op) (tracks_step pos h op)
      rw [step_rate, step_idleTimeout, step_lastSweep pos] at hrest
      rw [verdictsFor, verdictFor?_eq pos h, hrest]
      rfl

theorem after_lastSweep (pos : 0 < r.idleTimeout.nanos) (ops : List RegistryOp) :
    (r.after ops).lastSweep =
      ops.foldl (fun last op => op.lastSweep r.idleTimeout.nanos last) r.lastSweep := by
  induction ops generalizing r with
  | nil => rfl
  | cons op ops ih =>
      rw [after_cons, ih (step_idleTimeout_pos pos op), step_idleTimeout, step_lastSweep pos,
        List.foldl_cons]

theorem tracks_create (rate : Rate) (timeout : Duration) (start : Instant) :
    (create rate timeout start).Tracks fun _ => [] :=
  ⟨List.nodup_nil, fun _ => rfl⟩

theorem create_idleTimeout_nanos (rate : Rate) (timeout : Duration) (start : Instant) :
    (create rate timeout start).idleTimeout.nanos = max timeout.nanos rate.period.nanos :=
  durationMax_nanos timeout rate.period

theorem create_idleTimeout_pos (rate : Rate) (timeout : Duration) (start : Instant) :
    0 < (create rate timeout start).idleTimeout.nanos := by
  rw [create_idleTimeout_nanos]
  exact lt_max_of_lt_right rate.period_pos

theorem Tracks.hosts (h : r.Tracks calls) :
    {host | (r.entries.entry? host).isSome} = {host | calls host ≠ []} := by
  ext host
  rw [Set.mem_ofPred_eq, h.rows host, entryOf?_isSome_iff]
  rfl

theorem Tracks.size (h : r.Tracks calls) : r.size = {host | calls host ≠ []}.ncard := by
  rw [← h.hosts]
  exact HostTable.length_eq_ncard r.entries h.nodup

theorem Tracks.finite (h : r.Tracks calls) : {host | calls host ≠ []}.Finite := by
  rw [← h.hosts]
  exact HostTable.finite_hosts r.entries

/-- A sweep counts the hosts whose bucket it drops. -/
theorem Tracks.evicted (pos : 0 < r.idleTimeout.nanos) (h : r.Tracks calls) (now : Instant) :
    (r.evictIdle now).2 =
      {host | calls host ≠ [] ∧
        sweptCalls r.idleTimeout.nanos (calls host) (some now) = []}.ncard := by
  have hafter := tracks_evictIdle pos h now
  have hcount : (r.evictIdle now).2 = r.size - (r.evictIdle now).1.size := rfl
  have hsub : {host | sweptCalls r.idleTimeout.nanos (calls host) (some now) ≠ []} ⊆
      {host | calls host ≠ []} := by
    intro host hkept hnil
    apply hkept
    rw [hnil, sweptCalls_lapsed (by simp)]
  rw [hcount, h.size, hafter.size, ← Set.ncard_sdiff hsub hafter.finite]
  congr 1
  ext host
  simp

/-- **The registry is a family of independent buckets.** Whatever the clocks of a run: every host
is told what its own succession of buckets says, which sees the run only through sweeps and the
host's own calls; the registry has as many rows as hosts have buckets in use; and a requested
sweep counts the buckets that it drops. -/
theorem registry_is_a_family_of_buckets (rate : Rate) (timeout : Duration) (start : Instant)
    (ops : List RegistryOp) :
    let r := create rate timeout start
    let idle := max timeout.nanos rate.period.nanos
    let inUse := fun host => tenure idle (hostEvents idle host start ops)
    (∀ host, r.verdictsFor host ops =
      successionVerdicts rate idle [] (hostEvents idle host start ops)) ∧
    (∀ host, (r.after ops).entries.entry? host = entryOf? rate (inUse host)) ∧
    (r.after ops).lastSweep = ops.foldl (fun last op => op.lastSweep idle last) start ∧
    (r.after ops).size = {host | inUse host ≠ []}.ncard ∧
    ∀ now, ((r.after ops).step (.evictIdle now)).2 =
      .evicted {host | inUse host ≠ [] ∧ sweptCalls idle (inUse host) (some now) = []}.ncard := by
  intro r idle inUse
  have pos : 0 < r.idleTimeout.nanos := create_idleTimeout_pos rate timeout start
  have hidle : r.idleTimeout.nanos = idle := create_idleTimeout_nanos rate timeout start
  have hstart := tracks_create rate timeout start
  have htracks : (r.after ops).Tracks inUse := by
    have h := tracks_after pos hstart ops
    rw [hidle] at h
    exact h
  refine ⟨?_, ?_, ?_, htracks.size, ?_⟩
  · intro host
    have h := verdictsFor_eq pos hstart host ops
    rw [hidle] at h
    exact h
  · intro host
    have h := htracks.rows host
    rw [after_rate] at h
    exact h
  · have h := after_lastSweep pos ops
    rw [hidle] at h
    exact h
  · intro now
    have h := htracks.evicted (after_idleTimeout_pos pos ops) now
    rw [after_idleTimeout, hidle] at h
    exact congrArg RegistryReply.evicted h

end HostRegistry

end Gatehouse
