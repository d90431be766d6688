import Gatehouse.Limiter.HostRegistry
import Gatehouse.Proofs.TokenBucket.Calls
/-!
# Runs of a host registry

Lookups and requested sweeps in any order, and what the table of entries makes of them: a row is
found by its host, a sweep keeps the rows that are not idle, and no host ever has two rows.
-/

namespace Gatehouse

/-- What can be done with a registry. -/
inductive RegistryOp where
  | take (host : IpAddr) (now : Instant)
  | evictIdle (now : Instant)
deriving DecidableEq

/-- What a registry answers. -/
inductive RegistryReply where
  | granted (ok : Bool)
  | evicted (count : Nat)
deriving DecidableEq

namespace RegistryOp

/-- The clock when an operation is done. -/
def now : RegistryOp → Instant
  | .take _ now => now
  | .evictIdle now => now

/-- The call of a host's that the operation is, if it is one. -/
def callOf (host : IpAddr) : RegistryOp → Option Instant
  | .take caller now => if caller = host then some now else none
  | .evictIdle _ => none

theorem callOf_cases (host : IpAddr) (op : RegistryOp) :
    op.callOf host = none ∨ op.callOf host = some op.now := by
  cases op with
  | evictIdle now => exact .inl rfl
  | take caller now =>
      by_cases same : caller = host
      · exact .inr (if_pos same)
      · exact .inl (if_neg same)

end RegistryOp

/-- The verdict in a reply, if the reply is one. -/
def RegistryReply.verdict? : RegistryReply → Option Bool
  | .granted ok => some ok
  | .evicted _ => none

namespace HostRegistry

/-- One operation. -/
def step (r : HostRegistry) : RegistryOp → HostRegistry × RegistryReply
  | .take host now => ((r.tryTake host now).1, .granted (r.tryTake host now).2)
  | .evictIdle now => ((r.evictIdle now).1, .evicted (r.evictIdle now).2)

/-- The registry after operations. -/
def after (r : HostRegistry) (ops : List RegistryOp) : HostRegistry :=
  ops.foldl (fun r op => (r.step op).1) r

/-- What the registry answers, operation by operation. -/
def replies (r : HostRegistry) : List RegistryOp → List RegistryReply
  | [] => []
  | op :: ops => (r.step op).2 :: (r.step op).1.replies ops

/-- The verdict that an operation gives to a host: none unless it is a call of the host's. -/
def verdictFor? (r : HostRegistry) (host : IpAddr) (op : RegistryOp) : Option Bool :=
  (op.callOf host).bind fun _ => (r.step op).2.verdict?

/-- The verdicts given to a host, in order. -/
def verdictsFor (r : HostRegistry) (host : IpAddr) : List RegistryOp → List Bool
  | [] => []
  | op :: ops => (r.verdictFor? host op).toList ++ (r.step op).1.verdictsFor host ops

@[simp] theorem after_nil (r : HostRegistry) : r.after [] = r := rfl

@[simp] theorem after_cons (r : HostRegistry) (op : RegistryOp) (ops : List RegistryOp) :
    r.after (op :: ops) = (r.step op).1.after ops := rfl

theorem after_append (r : HostRegistry) (ops later : List RegistryOp) :
    r.after (ops ++ later) = (r.after ops).after later :=
  List.foldl_append

theorem after_snoc (r : HostRegistry) (ops : List RegistryOp) (op : RegistryOp) :
    r.after (ops ++ [op]) = ((r.after ops).step op).1 :=
  r.after_append ops [op]

end HostRegistry

/-! ## Rows of the table -/

namespace HostTable

/-- The hosts that have a row. -/
def hosts (table : HostTable) : List IpAddr := List.map Prod.fst table

@[simp] theorem hosts_cons (row : IpAddr × HostEntry) (rows : HostTable) :
    hosts (row :: rows) = row.1 :: hosts rows := rfl

@[simp] theorem lookup_nil (host : IpAddr) : entry? [] host = none := rfl

theorem lookup_cons (row : IpAddr × HostEntry) (rows : HostTable) (host : IpAddr) :
    entry? (row :: rows) host = if row.1 = host then some row.2 else entry? rows host := by
  unfold entry?
  rw [List.find?_cons]
  by_cases h : row.1 = host
  · simp [h]
  · simp [beq_false_of_ne h, h]

theorem lookup_isSome_iff (table : HostTable) (host : IpAddr) :
    (table.entry? host).isSome ↔ host ∈ hosts table := by
  induction table with
  | nil => simp [hosts]
  | cons row rows ih =>
      rw [lookup_cons, hosts_cons, List.mem_cons, ← ih]
      by_cases h : row.1 = host
      · simp [h]
      · simp [h, Ne.symm h]

theorem lookup_eq_none_iff (table : HostTable) (host : IpAddr) :
    table.entry? host = none ↔ host ∉ hosts table := by
  rw [← Option.not_isSome_iff_eq_none, lookup_isSome_iff]

theorem lookup_put_self (table : HostTable) (host : IpAddr) (entry : HostEntry) :
    entry? (put host entry table) host = some entry := by
  induction table with
  | nil => simp [put, lookup_cons]
  | cons row rows ih =>
      by_cases h : row.1 = host <;> simp [put, h, lookup_cons, ih]

theorem lookup_put_other (table : HostTable) {host other : IpAddr} (entry : HostEntry)
    (ne : other ≠ host) : entry? (put host entry table) other = entry? table other := by
  induction table with
  | nil => simp [put, lookup_cons, ne.symm]
  | cons row rows ih =>
      by_cases h : row.1 = host
      · simp [put, h, lookup_cons, ne.symm]
      · simp [put, h, lookup_cons, ih]

theorem mem_hosts_put (table : HostTable) (host other : IpAddr) (entry : HostEntry) :
    other ∈ hosts (put host entry table) ↔ other = host ∨ other ∈ hosts table := by
  rw [← lookup_isSome_iff, ← lookup_isSome_iff]
  by_cases h : other = host
  · subst h
    simp [lookup_put_self]
  · simp [lookup_put_other table entry h, h]

theorem nodup_put (table : HostTable) (host : IpAddr) (entry : HostEntry)
    (nodup : (hosts table).Nodup) : (hosts (put host entry table)).Nodup := by
  induction table with
  | nil => simp [put, hosts]
  | cons row rows ih =>
      rw [hosts_cons, List.nodup_cons] at nodup
      by_cases h : row.1 = host
      · simpa [put, h, hosts_cons] using h ▸ nodup
      · simp only [put, h, if_false, hosts_cons, List.nodup_cons]
        refine ⟨?_, ih nodup.2⟩
        rw [mem_hosts_put]
        exact fun hmem => hmem.elim h nodup.1

theorem nodup_filter (table : HostTable) (keep : HostEntry → Bool)
    (nodup : (hosts table).Nodup) :
    (hosts (List.filter (fun row => keep row.2) table)).Nodup :=
  (List.Sublist.map Prod.fst List.filter_sublist).nodup nodup

/-- A sweep finds and drops a host's row by the entry in it. -/
theorem lookup_filter (table : HostTable) (keep : HostEntry → Bool) (host : IpAddr)
    (nodup : (hosts table).Nodup) :
    entry? (List.filter (fun row => keep row.2) table) host = (table.entry? host).filter keep := by
  induction table with
  | nil => rfl
  | cons row rows ih =>
      rw [hosts_cons, List.nodup_cons] at nodup
      specialize ih nodup.2
      rw [lookup_cons, List.filter_cons]
      by_cases h : row.1 = host
      · -- The row is the host's only one: if it goes, nothing is found further on.
        have habsent : entry? rows host = none := by
          rw [lookup_eq_none_iff, ← h]
          exact nodup.1
        cases hkeep : keep row.2
        · rw [if_neg (by simp), ih, habsent, if_pos h]
          simp [Option.filter, hkeep]
        · rw [if_pos rfl, lookup_cons, if_pos h, if_pos h]
          simp [Option.filter, hkeep]
      · rw [if_neg h]
        cases hkeep : keep row.2
        · rw [if_neg (by simp), ih]
        · rw [if_pos rfl, lookup_cons, if_neg h, ih]

/-- Where no host has two rows, the rows are what is found under their hosts. -/
theorem mem_iff_lookup {table : HostTable} (nodup : (hosts table).Nodup)
    (row : IpAddr × HostEntry) : row ∈ table ↔ table.entry? row.1 = some row.2 := by
  induction table with
  | nil => simp
  | cons first rows ih =>
      rw [hosts_cons, List.nodup_cons] at nodup
      rw [List.mem_cons, lookup_cons, ih nodup.2]
      by_cases same : first.1 = row.1
      · have habsent : entry? rows row.1 = none := by
          rw [lookup_eq_none_iff, ← same]
          exact nodup.1
        rw [if_pos same, habsent, Option.some.injEq]
        simp [Prod.ext_iff, same, eq_comm]
      · rw [if_neg same, or_iff_right]
        rintro rfl
        exact same rfl

/-- So two tables in which the same is found differ by the order of their rows at most. -/
theorem perm_of_lookup {table other : HostTable} (nodup : (hosts table).Nodup)
    (nodup' : (hosts other).Nodup) (same : ∀ host, table.entry? host = other.entry? host) :
    List.Perm table other := by
  rw [List.perm_ext_iff_of_nodup (List.Nodup.of_map _ nodup) (List.Nodup.of_map _ nodup')]
  intro row
  rw [mem_iff_lookup nodup, mem_iff_lookup nodup', same]

theorem setOf_hosts (table : HostTable) :
    {host | (table.entry? host).isSome} = ((hosts table).toFinset : Set IpAddr) := by
  ext host
  simp [← lookup_isSome_iff]

theorem finite_hosts (table : HostTable) : {host | (table.entry? host).isSome}.Finite := by
  rw [setOf_hosts]
  exact Finset.finite_toSet _

theorem length_eq_ncard (table : HostTable) (nodup : (hosts table).Nodup) :
    List.length table = {host | (table.entry? host).isSome}.ncard := by
  rw [setOf_hosts, Set.ncard_coe_finset, List.toFinset_card_of_nodup nodup]
  simp [hosts]

end HostTable

end Gatehouse
