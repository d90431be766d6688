import Gatehouse.Proofs.Access.Blocks
/-!
# Networks that overlap

Of two networks of one family one holds the other or they have no address in common, and which it
is can be told by the lengths and one address (`members_subset_iff`). So a list of networks can be
written in many ways (`Relisted`): in another order, with networks twice, with other bits after the
leading ones, and with or without networks that another one covers. An access list decides by
whether it has networks to allow and by who is held (`allowed_iff`), and that is the same however
its lists are written (`Relisted.alike`). One more network to deny admits nobody, and one more to
allow refuses nobody, unless it is the first: then everyone was allowed before, and it admits
nobody.
-/

namespace Gatehouse

namespace Network

variable {n m : Network}

/-- The addresses that the network holds. -/
def members (net : Network) : Set IpAddr := {a | net.contains a = true}

/-- Networks of one family that agree in their leading bits, and in how many these are. -/
structure Alike (n m : Network) : Prop where
  family : n.addr.width = m.addr.width
  length : n.length = m.length
  lead : n.lead = m.lead

/-! ## Blocks in blocks -/

/-- A network holds the address that it was made of. -/
theorem contains_addr (net : Network) : net.contains net.addr = true := by
  rw [contains_iff_mem_block]
  exact ⟨net.addr.value, net.value_mem_block, net.addr.numberIn?_self⟩

/-- Blocks of one width that meet are one in the other: that with more leading bits is inside. -/
theorem block_subset_of_meet (family : n.addr.width = m.addr.width) (le : n.length ≤ m.length)
    {number : Nat} (inN : number ∈ n.block) (inM : number ∈ m.block) : m.block ⊆ n.block := by
  intro other mem
  rw [mem_block_iff] at inN inM mem ⊢
  have hsame : other / m.blockSize = number / m.blockSize := mem.trans inM.symm
  have hexponent : m.addr.width - m.length ≤ n.addr.width - n.length := by omega
  exact (div_pow_eq_of_le hexponent hsame).trans inN

theorem length_le_of_block_subset (family : n.addr.width = m.addr.width)
    (subset : m.block ⊆ n.block) : n.length ≤ m.length := by
  have hfirst : m.lead * m.blockSize ≤ m.lead * m.blockSize + m.blockSize - 1 := by
    have := m.blockSize_pos
    omega
  obtain ⟨hlow, hhigh⟩ := (Set.Icc_subset_Icc_iff hfirst).mp subset
  have hsize : m.blockSize ≤ n.blockSize := by
    have := m.blockSize_pos
    have := n.blockSize_pos
    omega
  have hexponent := (Nat.pow_le_pow_iff_right Nat.one_lt_two).mp hsize
  have hle := n.length_le
  omega

/-- A network holds what another holds exactly if its block does. -/
theorem members_subset_iff_block (family : n.addr.width = m.addr.width) :
    m.members ⊆ n.members ↔ m.block ⊆ n.block := by
  have hreads := IpAddr.numberIn?_family family
  constructor
  · intro subset number mem
    obtain ⟨a, ha⟩ := m.addr.exists_numberIn? (lt_of_mem_block mem)
    have hheld : n.contains a = true := subset ((m.contains_iff_mem_block a).mpr ⟨_, mem, ha⟩)
    obtain ⟨number', mem', ha'⟩ := (n.contains_iff_mem_block a).mp hheld
    rw [hreads, ha, Option.some.injEq] at ha'
    rwa [ha']
  · intro subset a held
    obtain ⟨number, mem, ha⟩ := (m.contains_iff_mem_block a).mp held
    exact (n.contains_iff_mem_block a).mpr ⟨number, subset mem, hreads ▸ ha⟩

/-! ## Networks in networks -/

theorem members_subset_of_meet (family : n.addr.width = m.addr.width) (le : n.length ≤ m.length)
    {a : IpAddr} (inN : a ∈ n.members) (inM : a ∈ m.members) : m.members ⊆ n.members := by
  obtain ⟨number, mem, ha⟩ := (n.contains_iff_mem_block a).mp inN
  obtain ⟨number', mem', ha'⟩ := (m.contains_iff_mem_block a).mp inM
  rw [← IpAddr.numberIn?_family family, ha, Option.some.injEq] at ha'
  rw [members_subset_iff_block family]
  exact block_subset_of_meet family le mem (ha' ▸ mem')

theorem disjoint_or_nested (family : n.addr.width = m.addr.width) :
    Disjoint n.members m.members ∨ n.members ⊆ m.members ∨ m.members ⊆ n.members := by
  rcases em (Disjoint n.members m.members) with apart | meet
  · exact .inl apart
  · obtain ⟨a, inN, inM⟩ := Set.not_disjoint_iff.mp meet
    rcases Nat.le_total n.length m.length with le | le
    · exact .inr (.inr (members_subset_of_meet family le inN inM))
    · exact .inr (.inl (members_subset_of_meet family.symm le inM inN))

theorem members_subset_iff (family : n.addr.width = m.addr.width) :
    m.members ⊆ n.members ↔ n.length ≤ m.length ∧ n.contains m.addr = true := by
  constructor
  · intro subset
    have hblock := (members_subset_iff_block family).mp subset
    exact ⟨length_le_of_block_subset family hblock, subset m.contains_addr⟩
  · rintro ⟨le, held⟩
    exact members_subset_of_meet family le held m.contains_addr

/-- Bits after the leading ones do not matter. -/
theorem Alike.contains (h : n.Alike m) (a : IpAddr) : n.contains a = m.contains a := by
  have hblock : n.block = m.block := by
    unfold block blockSize
    rw [h.lead, h.length, h.family]
  rw [Bool.eq_iff_iff, contains_iff_mem_block, contains_iff_mem_block, hblock,
    IpAddr.numberIn?_family h.family]

end Network

namespace AccessList

open Network

variable {acl : AccessList} {nets nets' : List Network} {peer : Endpoint}

/-! ## Lists written in another way -/

/-- Two lists of networks that differ in how they are written. -/
inductive Relisted : List Network → List Network → Prop
  | refl (nets : List Network) : Relisted nets nets
  | symm {nets nets' : List Network} : Relisted nets nets' → Relisted nets' nets
  | trans {nets nets' nets'' : List Network} :
      Relisted nets nets' → Relisted nets' nets'' → Relisted nets nets''
  /-- the same networks in any order, each as often as may be -/
  | rearranged {nets nets' : List Network} (same : ∀ net, net ∈ nets ↔ net ∈ nets') :
      Relisted nets nets'
  /-- a network with other bits after its leading ones -/
  | rewritten {before after : List Network} {net net' : Network} (alike : net.Alike net') :
      Relisted (before ++ net :: after) (before ++ net' :: after)
  /-- a network that another one of the list covers -/
  | covered {before after : List Network} {net other : Network} (mem : other ∈ before ++ after)
      (covers : net.members ⊆ other.members) :
      Relisted (before ++ net :: after) (before ++ after)

theorem holding_isSome_iff :
    (holding nets peer).isSome = true ↔ ∃ net ∈ nets, net.contains peer.ip = true := by
  unfold holding
  rw [List.find?_isSome]

theorem exists_mem_middle {before after : List Network} {net : Network}
    {p : Network → Prop} :
    (∃ other ∈ before ++ net :: after, p other) ↔ p net ∨ ∃ other ∈ before ++ after, p other := by
  simp only [List.mem_append, List.mem_cons]
  grind

/-- **Such lists hold the same peers**, and one is empty only if the other is. -/
theorem Relisted.alike (h : Relisted nets nets') :
    (nets = [] ↔ nets' = []) ∧ ∀ a : IpAddr,
      (∃ net ∈ nets, net.contains a = true) ↔ ∃ net ∈ nets', net.contains a = true := by
  induction h with
  | refl nets => exact ⟨Iff.rfl, fun _ => Iff.rfl⟩
  | symm _ ih => exact ⟨ih.1.symm, fun a => (ih.2 a).symm⟩
  | trans _ _ ih ih' => exact ⟨ih.1.trans ih'.1, fun a => (ih.2 a).trans (ih'.2 a)⟩
  | rearranged same =>
      simp only [List.eq_nil_iff_forall_not_mem, same, implies_true, and_self]
  | rewritten alike =>
      refine ⟨by simp, fun a => ?_⟩
      rw [exists_mem_middle, exists_mem_middle, alike.contains]
  | covered mem covers =>
      refine ⟨?_, fun a => ?_⟩
      · simp [List.ne_nil_of_mem mem]
      · rw [exists_mem_middle, or_iff_right_of_imp]
        exact fun held => ⟨_, mem, covers held⟩

/-! ## Decisions -/

/-- Who is allowed: whoever no network to deny holds, if there are no networks to allow or one of
these does. -/
theorem allowed_iff :
    acl.allowed peer = true ↔ (¬ ∃ net ∈ acl.deny, net.contains peer.ip = true) ∧
      (acl.allow = [] ∨ ∃ net ∈ acl.allow, net.contains peer.ip = true) := by
  unfold allowed
  rw [← holding_isSome_iff, ← holding_isSome_iff, Bool.and_eq_true, Bool.or_eq_true,
    List.isEmpty_iff, Option.isNone_iff_eq_none, ← Option.not_isSome_iff_eq_none]

theorem allowed_relisted {allow allow' deny deny' : List Network} (hallow : Relisted allow allow')
    (hdeny : Relisted deny deny') (peer : Endpoint) :
    (AccessList.mk allow' deny').allowed peer = (AccessList.mk allow deny).allowed peer := by
  rw [Bool.eq_iff_iff, allowed_iff, allowed_iff, hallow.alike.1, hallow.alike.2, hdeny.alike.2]

/-- One more network to deny admits nobody. -/
theorem allowed_of_addDeny {net : Network} (h : (acl.addDeny net).allowed peer = true) :
    acl.allowed peer = true := by
  obtain ⟨notDenied, allowed⟩ := allowed_iff.mp h
  refine allowed_iff.mpr ⟨?_, allowed⟩
  rintro ⟨other, mem, held⟩
  exact notDenied ⟨other, List.mem_append_left [net] mem, held⟩

/-- One more network to allow refuses nobody. -/
theorem allowed_addAllow {net : Network} (some : acl.allow ≠ []) (h : acl.allowed peer = true) :
    (acl.addAllow net).allowed peer = true := by
  obtain ⟨notDenied, allowed⟩ := allowed_iff.mp h
  obtain ⟨other, mem, held⟩ := allowed.resolve_left some
  exact allowed_iff.mpr ⟨notDenied, .inr ⟨other, List.mem_append_left [net] mem, held⟩⟩

/-- The first one admits nobody. -/
theorem allowed_of_addAllow {net : Network} (none : acl.allow = [])
    (h : (acl.addAllow net).allowed peer = true) : acl.allowed peer = true :=
  allowed_iff.mpr ⟨(allowed_iff.mp h).1, .inl none⟩

/-- **Networks nest, and lists of them can be written in many ways.** Two networks of one family
have no address in common or one holds the other, and one covers the other exactly if it has at
most as many leading bits and holds the address of the other. Write the lists of an access list in
any other order, with repetitions or without, with other bits after the leading ones, with or
without networks that others in the same list cover, and all this any number of times: no decision
on any peer changes. One more network to deny lets no refused peer in. One more network to allow
keeps no allowed peer out if there were others, and lets no refused peer in if it is the first. -/
theorem networks_nest_and_lists_simplify :
    (∀ n m : Network, n.addr.width = m.addr.width →
      (Disjoint n.members m.members ∨ n.members ⊆ m.members ∨ m.members ⊆ n.members) ∧
      (m.members ⊆ n.members ↔ n.length ≤ m.length ∧ n.contains m.addr = true)) ∧
    (∀ allow allow' deny deny' : List Network, Relisted allow allow' → Relisted deny deny' →
      ∀ peer, (AccessList.mk allow' deny').allowed peer = (AccessList.mk allow deny).allowed peer) ∧
    ∀ (acl : AccessList) (net : Network) (peer : Endpoint),
      (acl.allowed peer = false → (acl.addDeny net).allowed peer = false) ∧
      (acl.allow ≠ [] → acl.allowed peer = true → (acl.addAllow net).allowed peer = true) ∧
      (acl.allow = [] → acl.allowed peer = false → (acl.addAllow net).allowed peer = false) := by
  refine ⟨?_, ?_, ?_⟩
  · intro n m family
    exact ⟨disjoint_or_nested family, members_subset_iff family⟩
  · intro allow allow' deny deny' hallow hdeny peer
    exact allowed_relisted hallow hdeny peer
  · intro acl net peer
    simp only [← Bool.not_eq_true]
    exact ⟨mt allowed_of_addDeny, allowed_addAllow, fun none => mt (allowed_of_addAllow none)⟩

/-- A guest of a small network in a wide one. With both allowed, the guest stays allowed if the
small one is left out and the wide one is written with other bits, and if one more is allowed. With
the small one denied, the guest stays refused if the wide one is denied as well, and if it is the
first to be allowed. -/
theorem lists_of_a_network_in_another :
    let wide : Network := ⟨.v4 0xc0a80000, 16, by decide⟩
    let inner : Network := ⟨.v4 0xc0a80900, 24, by decide⟩
    let wide' : Network := ⟨.v4 0xc0a80707, 16, by decide⟩
    let guest := Endpoint.v4 0xc0a80902 5000
    let both : AccessList := ⟨[wide, inner], []⟩
    let closed : AccessList := ⟨[wide], [inner]⟩
    let denying : AccessList := ⟨[], [inner]⟩
    wide.addr.width = inner.addr.width ∧ inner.members ⊆ wide.members ∧
    Relisted both.allow [wide'] ∧ (AccessList.mk [wide'] []).allowed guest = true ∧
    both.allow ≠ [] ∧ (both.addAllow inner).allowed guest = true ∧
    closed.allowed guest = false ∧ (closed.addDeny wide).allowed guest = false ∧
    denying.allow = [] ∧ denying.allowed guest = false ∧
    (denying.addAllow wide).allowed guest = false := by
  intro wide inner wide' guest both closed denying
  obtain ⟨hnest, hlists, hmore⟩ := networks_nest_and_lists_simplify
  have hinner : inner.members ⊆ wide.members := (hnest wide inner rfl).2.mpr (by decide)
  have hcovered : Relisted both.allow [wide] :=
    @Relisted.covered [wide] [] inner wide (by simp) hinner
  have hrewritten : Relisted [wide] [wide'] :=
    @Relisted.rewritten [] [] wide wide' ⟨rfl, rfl, by decide⟩
  have hrelisted := hcovered.trans hrewritten
  refine ⟨rfl, hinner, hrelisted, ?_, by decide, ?_, by decide, ?_, rfl, by decide, ?_⟩
  · exact (hlists _ _ _ _ hrelisted (.refl []) guest).trans (by decide)
  · exact (hmore both inner guest).2.1 (by decide) (by decide)
  · exact (hmore closed wide guest).1 (by decide)
  · exact (hmore denying wide guest).2.2 rfl (by decide)

end AccessList

end Gatehouse
