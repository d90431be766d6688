import Gatehouse.Proofs.Limiter.BucketFamily
import Gatehouse.Proofs.TokenBucket.Costs
/-!
# What a registry keeps

A row keeps two clocks: the registry moves the time of the last access, and the bucket that of its
own last refill. What an operation does to a row is said once (`RowStep`, `step_row`), and neither
clock moves without the other.

A row is told by its history since it was made, and the time of the last sweep by that sweep. For
both, a run is cut at the last of its operations that are of some kind (`LastIs`).
-/

namespace Gatehouse

open Binary64

namespace HostRegistry

/-! ## The last operation of a kind -/

section Kinds

variable (kind : HostRegistry → RegistryOp → Prop)

/-- None of the operations is of the kind when its turn comes. -/
def Never (r : HostRegistry) : List RegistryOp → Prop
  | [] => True
  | op :: ops => ¬ kind r op ∧ (r.step op).1.Never ops

/-- A run, cut at the last of its operations that are of the kind. -/
structure LastIs (r : HostRegistry) (ops before : List RegistryOp) (op : RegistryOp)
    (later : List RegistryOp) : Prop where
  cut : ops = before ++ op :: later
  of_kind : kind (r.after before) op
  never_later : (r.after (before ++ [op])).Never kind later

variable {kind} {r : HostRegistry} {ops before later : List RegistryOp} {op next : RegistryOp}

theorem never_append : r.Never kind (ops ++ later) ↔
    r.Never kind ops ∧ (r.after ops).Never kind later := by
  induction ops generalizing r with
  | nil => simp [Never]
  | cons op ops ih => rw [List.cons_append, Never, Never, ih, after_cons, and_assoc]

theorem Never.snoc (h : r.Never kind ops) (other : ¬ kind (r.after ops) op) :
    r.Never kind (ops ++ [op]) :=
  never_append.mpr ⟨h, other, trivial⟩

theorem lastIs_snoc (of_kind : kind (r.after ops) op) : r.LastIs kind (ops ++ [op]) ops op [] :=
  ⟨rfl, of_kind, trivial⟩

theorem LastIs.snoc (h : r.LastIs kind ops before op later) (other : ¬ kind (r.after ops) next) :
    r.LastIs kind (ops ++ [next]) before op (later ++ [next]) := by
  obtain ⟨rfl, of_kind, never_later⟩ := h
  refine ⟨by simp, of_kind, never_later.snoc ?_⟩
  rwa [← after_append, List.append_assoc]

end Kinds

/-! ## Rows -/

/-- The operation makes a row for a host: it is a lookup that finds none, once it has swept. -/
def Makes (host : IpAddr) (r : HostRegistry) (op : RegistryOp) : Prop :=
  ∃ now, op = .take host now ∧ (r.swept now).entries.entry? host = none

/-- Where the row that a host has after an operation comes from. -/
inductive RowStep (r : HostRegistry) (host : IpAddr) (op : RegistryOp) : HostEntry → Prop
  /-- The host's row has been left as it was, the operation being no call of the host's. -/
  | kept {entry : HostEntry} (found : r.entries.entry? host = some entry)
      (quiet : op.callOf host = none) : RowStep r host op entry
  /-- The host has called, and both the bucket and the row have moved on to the call. -/
  | used {now : Instant} {old : HostEntry} (found : r.entries.entry? host = some old)
      (call : op = .take host now) (other : ¬ r.Makes host op) :
      RowStep r host op ⟨(old.bucket.tryTakeOne now).1, old.lastAccess.latest now⟩
  /-- The row has been made by a call of the host's. -/
  | made {now : Instant} (call : op = .take host now) (makes : r.Makes host op) :
      RowStep r host op ⟨((TokenBucket.full r.rate now).tryTakeOne now).1, now⟩

variable {r : HostRegistry} {host : IpAddr} {op : RegistryOp} {entry : HostEntry}

theorem not_makes_of_quiet (quiet : op.callOf host = none) : ¬ r.Makes host op := by
  rintro ⟨now, rfl, -⟩
  rw [RegistryOp.callOf, if_pos rfl] at quiet
  cases quiet

/-- A sweep drops rows and changes none. -/
theorem row_of_evictIdle (nodup : (HostTable.hosts r.entries).Nodup) {now : Instant}
    (h : (r.evictIdle now).1.entries.entry? host = some entry) :
    r.entries.entry? host = some entry := by
  have hfilter := HostTable.lookup_filter r.entries (fun entry => !r.isIdle now entry) host nodup
  exact (Option.filter_eq_some_iff.mp (hfilter.symm.trans h)).1

theorem row_of_swept (nodup : (HostTable.hosts r.entries).Nodup) {now : Instant}
    (h : (r.swept now).entries.entry? host = some entry) :
    r.entries.entry? host = some entry := by
  unfold swept at h
  split at h
  · exact row_of_evictIdle nodup h
  · exact h

/-- One operation. -/
theorem step_row (nodup : (HostTable.hosts r.entries).Nodup)
    (h : (r.step op).1.entries.entry? host = some entry) : r.RowStep host op entry := by
  cases op with
  | evictIdle now => exact .kept (row_of_evictIdle nodup h) rfl
  | take caller now =>
      by_cases same : caller = host
      · subst same
        have hentry := Option.some.inj (h.symm.trans (HostTable.lookup_put_self _ caller _))
        cases hfound : (r.swept now).entries.entry? caller with
        | none =>
            rw [hentry, entryOf, hfound, Option.getD_none, swept_rate, Instant.latest_self]
            exact .made rfl ⟨now, rfl, hfound⟩
        | some old =>
            rw [hentry, entryOf, hfound, Option.getD_some]
            refine .used (row_of_swept nodup hfound) rfl ?_
            rintro ⟨_, hcall, hnone⟩
            cases hcall
            rw [hfound] at hnone
            cases hnone
      · have hother := HostTable.lookup_put_other (r.swept now).entries
          ⟨(((r.swept now).entryOf caller now).bucket.tryTakeOne now).1,
            ((r.swept now).entryOf caller now).lastAccess.latest now⟩ (Ne.symm same)
        exact .kept (row_of_swept nodup (hother.symm.trans h)) (if_neg same)

/-- What the row of a host is like after operations. -/
structure RowKept (r : HostRegistry) (ops : List RegistryOp) (host : IpAddr) (entry : HostEntry) :
    Prop where
  bucket : ∃ level, entry.bucket.Holds r.rate level
  clocks : entry.lastAccess = entry.bucket.lastRefill
  since_made : ∃ before made later, r.LastIs (Makes host) ops before made later ∧
    entry.lastAccess = Instant.latestOf made.now (later.filterMap (RegistryOp.callOf host))

/-- One more operation, if it keeps the row or makes use of it. -/
theorem RowKept.snoc {ops : List RegistryOp} {old : HostEntry} (h : r.RowKept ops host old)
    (other : ¬ (r.after ops).Makes host op)
    (bucket : ∃ level, entry.bucket.Holds r.rate level)
    (clocks : entry.lastAccess = entry.bucket.lastRefill)
    (moves : entry.lastAccess = Instant.latestOf old.lastAccess (op.callOf host).toList) :
    r.RowKept (ops ++ [op]) host entry := by
  obtain ⟨before, made, later, hlast, haccess⟩ := h.since_made
  refine ⟨bucket, clocks, before, made, later ++ [op], hlast.snoc other, ?_⟩
  rw [moves, haccess, Instant.latestOf, Instant.latestOf, Instant.latestOf, ← List.foldl_append,
    List.filterMap_append]
  cases hcall : op.callOf host <;> simp [hcall]

/-- All rows after operations on a registry that starts without any. -/
theorem rowKept_after (empty : r.entries = []) (ops : List RegistryOp)
    (nodup : ∀ ops, (HostTable.hosts (r.after ops).entries).Nodup)
    (h : (r.after ops).entries.entry? host = some entry) : r.RowKept ops host entry := by
  induction ops using List.reverseRecOn generalizing entry with
  | nil =>
      rw [after_nil, empty] at h
      cases h
  | append_singleton ops op ih =>
      rw [after_snoc] at h
      cases step_row (nodup ops) h with
      | kept found quiet =>
          have hold := ih found
          refine hold.snoc (not_makes_of_quiet quiet) hold.bucket hold.clocks ?_
          rw [quiet]
          rfl
      | @used now old found call other =>
          have hold := ih found
          obtain ⟨level, hlevel⟩ := hold.bucket
          refine hold.snoc other (hlevel.tryTakeOne_holds now) ?_ ?_
          · rw [TokenBucket.tryTakeOne_lastRefill, hold.clocks]
          · rw [call, RegistryOp.callOf, if_pos rfl]
            rfl
      | @made now call makes =>
          refine ⟨?_, ?_, ops, op, [], lastIs_snoc makes, ?_⟩
          · rw [after_rate]
            exact (TokenBucket.full_holds r.rate now).tryTakeOne_holds now
          · rw [TokenBucket.tryTakeOne_lastRefill]
            exact (Instant.latest_self now).symm
          · rw [call]
            rfl

/-! ## Sweeps -/

/-- The last sweep in a run is the time of its last operation that sweeps. -/
theorem lastSweep_after (r : HostRegistry) (ops : List RegistryOp) :
    (r.Never Sweeps ops ∧ (r.after ops).lastSweep = r.lastSweep) ∨
      ∃ before op later, r.LastIs Sweeps ops before op later ∧
        (r.after ops).lastSweep = op.now := by
  induction ops using List.reverseRecOn with
  | nil => exact .inl ⟨trivial, rfl⟩
  | append_singleton ops op ih =>
      rw [after_snoc]
      by_cases sweeps : (r.after ops).Sweeps op
      · exact .inr ⟨ops, op, [], lastIs_snoc sweeps, lastSweep_step_of_sweeps sweeps⟩
      · rw [lastSweep_step_of_not_sweeps sweeps]
        rcases ih with ⟨hnever, hstart⟩ | ⟨before, last, later, hlast, hnow⟩
        · exact .inl ⟨hnever.snoc sweeps, hstart⟩
        · exact .inr ⟨before, last, later ++ [op], hlast.snoc sweeps, hnow⟩

/-! ## The invariant -/

/-- What holds of a new registry after any operations. -/
structure Kept (rate : Rate) (timeout : Duration) (start : Instant) (ops : List RegistryOp)
    (r : HostRegistry) : Prop where
  of_rate : r.rate = rate
  /-- The effective timeout is no shorter than the period of the rate. -/
  idleTimeout : rate.period.nanos ≤ r.idleTimeout.nanos
  /-- No host has two rows. -/
  hosts : (HostTable.hosts r.entries).Nodup
  /-- Every row has a bucket of the rate. -/
  bucket : ∀ row ∈ r.entries, row.2.bucket.capacity = rate.capacity ∧
    row.2.bucket.refillPerSecond = rate.refillPerSecond
  /-- The level of every bucket is a number, from zero to the capacity. -/
  level : ∀ row ∈ r.entries, row.2.bucket.tokens.isNaN = false ∧
    Binary64.zero.le row.2.bucket.tokens = true ∧ row.2.bucket.tokens.le rate.capacity = true
  /-- The two clocks of a row agree. -/
  clocks : ∀ row ∈ r.entries, row.2.lastAccess = row.2.bucket.lastRefill
  /-- They are at the latest of the host's calls since the last one that made a row for it. -/
  lastAccess : ∀ row ∈ r.entries, ∃ before made later,
    (create rate timeout start).LastIs (Makes row.1) ops before made later ∧
    IsGreatest {nanos | ∃ t ∈ (made :: later).filterMap (RegistryOp.callOf row.1),
      t.nanos = nanos} row.2.lastAccess.nanos
  /-- The last sweep is that of the last operation that swept, or the start. -/
  lastSweep : ((create rate timeout start).Never Sweeps ops ∧ r.lastSweep = start) ∨
    ∃ before op later, (create rate timeout start).LastIs Sweeps ops before op later ∧
      r.lastSweep = op.now

/-- **The invariant of a registry**, whatever lookups and sweeps are behind it, at whatever
instants. -/
theorem registry_is_kept (rate : Rate) (timeout : Duration) (start : Instant)
    (ops : List RegistryOp) :
    Kept rate timeout start ops ((create rate timeout start).after ops) := by
  have hpos := create_idleTimeout_pos rate timeout start
  have nodup : ∀ ops, (HostTable.hosts ((create rate timeout start).after ops).entries).Nodup :=
    fun ops => (tracks_after hpos (tracks_create rate timeout start) ops).nodup
  have hrow : ∀ row ∈ ((create rate timeout start).after ops).entries,
      (create rate timeout start).RowKept ops row.1 row.2 := by
    intro row mem
    exact rowKept_after rfl ops nodup ((HostTable.mem_iff_lookup (nodup ops) row).mp mem)
  constructor
  case of_rate => exact after_rate _ ops
  case idleTimeout =>
    rw [after_idleTimeout, create_idleTimeout_nanos]
    exact le_max_right _ _
  case hosts => exact nodup ops
  case bucket =>
    intro row mem
    obtain ⟨level, hlevel⟩ := (hrow row mem).bucket
    exact ⟨hlevel.capacity, hlevel.refill⟩
  case level =>
    intro row mem
    obtain ⟨level, hlevel⟩ := (hrow row mem).bucket
    exact ⟨hlevel.tokens.not_isNaN, hlevel.tokens.zero_le,
      (hlevel.tokens.le_iff rate.capacity_isUnits).mpr hlevel.level_le⟩
  case clocks =>
    intro row mem
    exact (hrow row mem).clocks
  case lastAccess =>
    intro row mem
    obtain ⟨before, made, later, hlast, haccess⟩ := (hrow row mem).since_made
    refine ⟨before, made, later, hlast, ?_⟩
    obtain ⟨now, rfl, -⟩ := hlast.of_kind
    have hcall : (RegistryOp.take row.1 now).callOf row.1 = some now := if_pos rfl
    rw [List.filterMap_cons, hcall, haccess]
    exact Instant.isGreatest_latestOf now _
  case lastSweep => exact lastSweep_after _ ops

end HostRegistry

end Gatehouse
