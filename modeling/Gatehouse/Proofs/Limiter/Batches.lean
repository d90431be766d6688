import Gatehouse.Proofs.Limiter.Eviction
/-!
# Calls at one instant

Calls that come at one instant may be put in any order. Only the first of them can sweep, and it
leaves every host what it would leave it if any other came first:

* `swept_swept` — a sweep is not repeated at its own instant, so a batch of calls does what it does
  to the registry as swept (`after_swept`, `verdictsFor_swept`);
* `Tracks.after_batch`, `Tracks.verdictsFor_batch` — and there a host gets as many more calls as the
  batch has of it, and the verdicts of its own bucket on these, whatever comes in between;
* `batches_commute` — so a batch in another order tells every host the same, and leaves the same.
-/

namespace Gatehouse

open TokenBucket

namespace HostRegistry

/-- Calls of some hosts, one after the other, at one instant. -/
def batch (hosts : List IpAddr) (now : Instant) : List RegistryOp :=
  hosts.map fun host => .take host now

variable {r : HostRegistry} {calls : IpAddr → List Instant} {now : Instant}

/-! ## The sweep of a batch -/

theorem swept_of_not_due (notDue : r.sweepIsDue now = false) : r.swept now = r := by
  unfold swept
  rw [notDue]
  exact if_neg Bool.false_ne_true

/-- No sweep is due at the instant of the last one. -/
theorem not_due_at_lastSweep (pos : 0 < r.idleTimeout.nanos) (sweep : r.lastSweep = now) :
    r.sweepIsDue now = false := by
  unfold sweepIsDue
  rw [sweep, Instant.since_eq_zero le_rfl]
  exact decide_eq_false (not_le.mpr pos)

theorem sweepIsDue_swept (pos : 0 < r.idleTimeout.nanos) (now : Instant) :
    (r.swept now).sweepIsDue now = false := by
  cases due : r.sweepIsDue now with
  | false => rwa [swept_of_not_due due]
  | true =>
      unfold swept
      rw [due, if_pos rfl]
      exact not_due_at_lastSweep pos rfl

theorem swept_swept (pos : 0 < r.idleTimeout.nanos) (now : Instant) :
    (r.swept now).swept now = r.swept now :=
  swept_of_not_due (sweepIsDue_swept pos now)

/-- Whoever calls finds the registry as swept. -/
theorem tryTake_swept (pos : 0 < r.idleTimeout.nanos) (host : IpAddr) (now : Instant) :
    (r.swept now).tryTake host now = r.tryTake host now := by
  unfold tryTake
  rw [swept_swept pos]

theorem step_swept (pos : 0 < r.idleTimeout.nanos) (host : IpAddr) (now : Instant) :
    (r.swept now).step (.take host now) = r.step (.take host now) := by
  simp only [step, tryTake_swept pos]

theorem after_swept (pos : 0 < r.idleTimeout.nanos) {hosts : List IpAddr} (some : hosts ≠ [])
    (now : Instant) : (r.swept now).after (batch hosts now) = r.after (batch hosts now) := by
  cases hosts with
  | nil => exact absurd rfl some
  | cons caller rest =>
      unfold batch
      rw [List.map_cons, after_cons, after_cons, step_swept pos]

theorem verdictsFor_swept (pos : 0 < r.idleTimeout.nanos) {hosts : List IpAddr}
    (some : hosts ≠ []) (now : Instant) (host : IpAddr) :
    (r.swept now).verdictsFor host (batch hosts now) = r.verdictsFor host (batch hosts now) := by
  cases hosts with
  | nil => exact absurd rfl some
  | cons caller rest =>
      unfold batch
      rw [List.map_cons, verdictsFor, verdictsFor, verdictFor?, verdictFor?, step_swept pos]

/-! ## A batch that does not sweep -/

theorem tryTake_not_due (notDue : r.sweepIsDue now = false) (caller : IpAddr) :
    let found := r.entryOf caller now
    let entry : HostEntry := ⟨(found.bucket.tryTakeOne now).1, found.lastAccess.latest now⟩
    r.tryTake caller now =
      ({ r with entries := r.entries.put caller entry }, (found.bucket.tryTakeOne now).2) := by
  unfold tryTake
  rw [swept_of_not_due notDue]

/-- A call that does not sweep is one more call of its host. -/
theorem Tracks.take_not_due (h : r.Tracks calls) (notDue : r.sweepIsDue now = false)
    (caller : IpAddr) :
    (r.step (.take caller now)).1.Tracks (fun host =>
      calls host ++ if caller = host then [now] else []) ∧
    (r.step (.take caller now)).2 = .granted (answer r.rate (calls caller) now) := by
  have hcalls : (fun host => calls host ++ ((RegistryOp.take caller now).callOf host).toList) =
      fun host => calls host ++ if caller = host then [now] else [] := by
    funext host
    simp only [RegistryOp.callOf]
    split <;> rfl
  have hput := tracks_put h caller now
  rw [hcalls] at hput
  simp only [step, tryTake_not_due notDue]
  refine ⟨hput, ?_⟩
  rw [answer_eq, ← h.rows caller]
  rfl

theorem replicate_count_cons (caller : IpAddr) (hosts : List IpAddr) (host : IpAddr)
    (now : Instant) :
    List.replicate ((caller :: hosts).count host) now =
      (if caller = host then [now] else []) ++ List.replicate (hosts.count host) now := by
  by_cases same : caller = host
  · simp [same, List.replicate_succ]
  · simp [same]

theorem step_not_due (notDue : r.sweepIsDue now = false) (caller : IpAddr) :
    (r.step (.take caller now)).1.lastSweep = r.lastSweep ∧
    (r.step (.take caller now)).1.sweepIsDue now = false := by
  have hsweep : (r.step (.take caller now)).1.lastSweep = r.lastSweep := by
    simp only [step, tryTake_not_due notDue]
  refine ⟨hsweep, ?_⟩
  unfold sweepIsDue
  rw [hsweep, step_idleTimeout]
  exact notDue

/-- A batch that does not sweep adds to the calls of each host as many as it has of the host. -/
theorem Tracks.after_batch (h : r.Tracks calls) (notDue : r.sweepIsDue now = false)
    (hosts : List IpAddr) :
    (r.after (batch hosts now)).Tracks (fun host =>
      calls host ++ List.replicate (hosts.count host) now) ∧
    (r.after (batch hosts now)).lastSweep = r.lastSweep := by
  induction hosts generalizing r calls with
  | nil => simpa [batch] using h
  | cons caller hosts ih =>
      obtain ⟨hsweep, hnotDue⟩ := step_not_due notDue caller
      obtain ⟨hrest, hlast⟩ := ih (h.take_not_due notDue caller).1 hnotDue
      refine ⟨?_, hlast.trans hsweep⟩
      simp only [replicate_count_cons, ← List.append_assoc]
      exact hrest

/-- Every host gets the verdicts of its own bucket on that many calls. -/
theorem Tracks.verdictsFor_batch (h : r.Tracks calls) (notDue : r.sweepIsDue now = false)
    (hosts : List IpAddr) (host : IpAddr) :
    r.verdictsFor host (batch hosts now) =
      later r.rate (calls host) (List.replicate (hosts.count host) now) := by
  induction hosts generalizing r calls with
  | nil => simp [batch, verdictsFor, later]
  | cons caller hosts ih =>
      obtain ⟨hnext, hanswer⟩ := h.take_not_due notDue caller
      have hrest := ih hnext (step_not_due notDue caller).2
      rw [step_rate] at hrest
      show (r.verdictFor? host _).toList ++ (r.step _).1.verdictsFor host (batch hosts now) = _
      rw [hrest, replicate_count_cons, verdictFor?, hanswer]
      by_cases same : caller = host
      · subst same
        simp [RegistryOp.callOf, RegistryReply.verdict?, later]
      · simp [RegistryOp.callOf, same]

/-! ## Batches in another order -/

/-- Two registries of one rate with the same buckets in use hold the same, in some order. -/
theorem Tracks.same (h : r.Tracks calls) {other : HostRegistry} (h' : other.Tracks calls)
    (rate : r.rate = other.rate) :
    (∀ host, r.entries.entry? host = other.entries.entry? host) ∧
      r.entries.Perm other.entries := by
  have hfound : ∀ host, r.entries.entry? host = other.entries.entry? host := by
    intro host
    rw [h.rows, h'.rows, rate]
  exact ⟨hfound, HostTable.perm_of_lookup h.nodup h'.nodup hfound⟩

/-- Batches with as many calls of each host leave the same, and tell every host the same. -/
theorem Tracks.batches_alike (h : r.Tracks calls) (notDue : r.sweepIsDue now = false)
    {hosts reordered : List IpAddr} (perm : hosts.Perm reordered) :
    let one := r.after (batch hosts now)
    let other := r.after (batch reordered now)
    (∀ host, r.verdictsFor host (batch hosts now) = r.verdictsFor host (batch reordered now)) ∧
    (∀ host, one.entries.entry? host = other.entries.entry? host) ∧
    one.entries.Perm other.entries ∧ one.lastSweep = other.lastSweep := by
  intro one other
  obtain ⟨hone, hsweep⟩ := h.after_batch notDue hosts
  obtain ⟨hother, hsweep'⟩ := h.after_batch notDue reordered
  simp only [perm.count_eq] at hone
  have hrate : one.rate = other.rate := (after_rate r _).trans (after_rate r _).symm
  obtain ⟨hfound, hperm⟩ := hone.same hother hrate
  refine ⟨?_, hfound, hperm, hsweep.trans hsweep'.symm⟩
  intro host
  rw [h.verdictsFor_batch notDue, h.verdictsFor_batch notDue, perm.count_eq]

/-- **Calls at one instant commute.** Take any registry that there can be, whatever the clocks of
the operations behind it, and any batch of calls at one instant, which may lie before the last sweep
and before calls that the registry has seen. Put the calls in any order; those of one host are
alike, so each host keeps its own. Every host gets the same verdicts, and the registry is the same
in the end: it tracks the same hosts, with the same entries, and has last swept at the same instant.
It does not matter which of the calls found a sweep due, nor whose buckets that sweep dropped. -/
theorem batches_commute (rate : Rate) (timeout : Duration) (start : Instant)
    (ops : List RegistryOp) (now : Instant) {hosts reordered : List IpAddr}
    (perm : hosts.Perm reordered) :
    let r := (create rate timeout start).after ops
    let one := r.after (batch hosts now)
    let other := r.after (batch reordered now)
    (∀ host, r.verdictsFor host (batch hosts now) = r.verdictsFor host (batch reordered now)) ∧
    (∀ host, one.entries.entry? host = other.entries.entry? host) ∧
    one.entries.Perm other.entries ∧ one.lastSweep = other.lastSweep ∧
    one.rate = other.rate ∧ one.idleTimeout = other.idleTimeout := by
  intro r one other
  have hpos : 0 < r.idleTimeout.nanos :=
    after_idleTimeout_pos (create_idleTimeout_pos rate timeout start) ops
  have htracks := tracks_after (create_idleTimeout_pos rate timeout start)
    (tracks_create rate timeout start) ops
  have hrate : one.rate = other.rate := (after_rate r _).trans (after_rate r _).symm
  have hidle : one.idleTimeout = other.idleTimeout :=
    (after_idleTimeout r _).trans (after_idleTimeout r _).symm
  rcases eq_or_ne hosts [] with rfl | some
  · obtain rfl := perm.nil_eq
    exact ⟨fun _ => rfl, fun _ => rfl, .refl _, rfl, rfl, rfl⟩
  · have some' : reordered ≠ [] := by
      rintro rfl
      exact some perm.eq_nil
    -- Both batches do what they do to the registry as swept, where nothing is due any more.
    have hswept := tracks_swept hpos htracks default now
    obtain ⟨hverdicts, hfound, hperm, hsweep⟩ :=
      hswept.batches_alike (sweepIsDue_swept hpos now) perm
    simp only [after_swept hpos some, after_swept hpos some', verdictsFor_swept hpos some,
      verdictsFor_swept hpos some'] at hverdicts hfound hperm hsweep
    exact ⟨hverdicts, hfound, hperm, hsweep, hrate, hidle⟩

/-- A sweep is due when three calls come at once. It drops the bucket of the host that calls twice
and keeps that of the other. Whoever is first, the one host is admitted once, from a new bucket, and
the other is refused. -/
theorem batches_commute_around_a_sweep :
    let idle : IpAddr := .v4 0x0a000001
    let busy : IpAddr := .v4 0x0a000002
    let forty : Instant := ⟨40000000000, by decide +kernel, by decide +kernel⟩
    let late : Instant := ⟨50000000000, by decide +kernel, by decide +kernel⟩
    let r := (create oneIn49Seconds oneIn49Seconds.period .origin).after
      [.take idle .origin, .take busy forty]
    let hosts := [busy, idle, idle]
    let reordered := [idle, busy, idle]
    hosts.Perm reordered ∧ r.sweepIsDue late = true ∧
    r.verdictsFor idle (batch reordered late) = [true, false] ∧
    r.verdictsFor busy (batch reordered late) = [false] ∧
    (r.after (batch hosts late)).entries.Perm (r.after (batch reordered late)).entries := by
  intro idle busy forty late r hosts reordered
  have hperm : hosts.Perm reordered := by decide
  have hdue : r.sweepIsDue late = true := by decide +kernel
  obtain ⟨hverdicts, -, hentries, -⟩ := batches_commute oneIn49Seconds oneIn49Seconds.period
    .origin [.take idle .origin, .take busy forty] late hperm
  have hidle : r.verdictsFor idle (batch hosts late) = [true, false] := by decide +kernel
  have hbusy : r.verdictsFor busy (batch hosts late) = [false] := by decide +kernel
  exact ⟨hperm, hdue, (hverdicts idle).symm.trans hidle, (hverdicts busy).symm.trans hbusy,
    hentries⟩

end HostRegistry

end Gatehouse
