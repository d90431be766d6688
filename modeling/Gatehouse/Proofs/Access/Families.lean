import Gatehouse.Access.AccessList
import Gatehouse.Proofs.Address.Hosts
/-!
# Networks and the two families

A version 4 network goes by the canonical address of a peer, so peers of one host are all in it or
all out of it. A version 6 network takes mapped addresses as they are: peers of one host can part
there, and do so only if the network holds a mapped address (`Network.contains_sameHost`). That it
holds none (`Network.SparesMapped`) can be read off its leading bits (`sparesMapped_iff`). An access
list of networks that hold none judges hosts, not peers (`AccessList.allowed_sameHost`).
-/

namespace Gatehouse

namespace Network

/-! ## Leading bits -/

/-- A mask takes off what is beyond a multiple of a power of two. -/
theorem toNat_masked {w : Nat} (length : Nat) (a : BitVec w) :
    (a &&& mask w length).toNat = a.toNat / 2 ^ (w - length) * 2 ^ (w - length) := by
  have hlt : a.toNat / 2 ^ (w - length) * 2 ^ (w - length) < 2 ^ w :=
    (Nat.div_mul_le_self _ _).trans_lt a.isLt
  rw [mask, ← BitVec.shiftLeft_ushiftRight, BitVec.toNat_shiftLeft, BitVec.toNat_ushiftRight,
    Nat.shiftRight_eq_div_pow, Nat.shiftLeft_eq, Nat.mod_eq_of_lt hlt]

theorem sameLead_iff {w : Nat} (length : Nat) (a b : BitVec w) :
    sameLead length a b = true ↔
      a.toNat / 2 ^ (w - length) = b.toNat / 2 ^ (w - length) := by
  unfold sameLead
  rw [beq_iff_eq, ← BitVec.toNat_inj, toNat_masked, toNat_masked,
    Nat.mul_left_inj (Nat.two_pow_pos _).ne']

/-- Numbers that are the same without some of their last bits are so without more of them. -/
theorem div_pow_eq_of_le {a b less more : Nat} (le : less ≤ more)
    (h : a / 2 ^ less = b / 2 ^ less) : a / 2 ^ more = b / 2 ^ more := by
  rw [← Nat.add_sub_cancel' le, pow_add, ← Nat.div_div_eq_div_mul, ← Nat.div_div_eq_div_mul, h]

/-- Addresses that agree in some leading bits agree in fewer of them. -/
theorem sameLead_mono {w : Nat} {less length : Nat} (le : less ≤ length) {a b : BitVec w}
    (h : sameLead length a b = true) : sameLead less a b = true := by
  rw [sameLead_iff] at h ⊢
  exact div_pow_eq_of_le (Nat.sub_le_sub_left le w) h

/-- Mapped addresses agree in their first 96 bits. -/
theorem sameLead_mapped (length : Nat) (le : length ≤ 96) (bits : BitVec 128)
    (inner inner' : BitVec 32) :
    sameLead length bits (IpAddr.mapped inner) = sameLead length bits (IpAddr.mapped inner') := by
  have hlt := inner.isLt
  have hlt' := inner'.isLt
  have hcut : ∀ n : Nat, n < 2 ^ 32 →
      (0xffff * 2 ^ 32 + n) / 2 ^ (128 - length) = 0xffff / 2 ^ (96 - length) := by
    intro n hn
    have hsplit : 128 - length = 32 + (96 - length) := by omega
    rw [hsplit, pow_add, ← Nat.div_div_eq_div_mul]
    congr 1
    omega
  rw [Bool.eq_iff_iff, sameLead_iff, sameLead_iff, IpAddr.toNat_mapped, IpAddr.toNat_mapped,
    hcut _ hlt, hcut _ hlt']

/-! ## Mapped addresses in networks -/

/-- The network is of version 4, or holds no mapped address. -/
def SparesMapped (net : Network) : Prop :=
  ∀ bits, net.addr = .v6 bits → ∀ inner, net.contains (.v6 (IpAddr.mapped inner)) = false

theorem sparesMapped_v4 {net : Network} {bits : BitVec 32} (addr : net.addr = .v4 bits) :
    net.SparesMapped := by
  intro bits' addr'
  rw [addr] at addr'
  cases addr'

theorem contains_v6 {net : Network} {bits : BitVec 128} (addr : net.addr = .v6 bits)
    (member : BitVec 128) : net.contains (.v6 member) = sameLead net.length bits member := by
  simp only [contains, addr]

/-- A version 6 network holds a mapped address exactly if it agrees with them in as many of the
first 96 bits as it fixes. -/
theorem sparesMapped_iff {net : Network} {bits : BitVec 128} (addr : net.addr = .v6 bits) :
    net.SparesMapped ↔ sameLead (min net.length 96) bits (IpAddr.mapped 0) = false := by
  constructor
  · intro spares
    rcases Nat.le_total net.length 96 with short | long
    · rw [Nat.min_eq_left short, ← contains_v6 addr]
      exact spares bits addr 0
    · -- Were the first 96 bits those of a mapped address, the address itself would be one.
      rw [Nat.min_eq_right long, Bool.eq_false_iff]
      intro lead
      have hmapped : bits = IpAddr.mapped (bits.setWidth 32) := by
        rw [sameLead_iff, IpAddr.toNat_mapped] at lead
        rw [← BitVec.toNat_inj, IpAddr.toNat_mapped, BitVec.toNat_setWidth]
        have hzero : (0 : BitVec 32).toNat = 0 := rfl
        rw [hzero] at lead
        omega
      have hspared := spares bits addr (bits.setWidth 32)
      rw [contains_v6 addr, ← hmapped] at hspared
      have hself : sameLead net.length bits bits = true := by rw [sameLead_iff]
      rw [hself] at hspared
      cases hspared
  · intro apart bits' addr' inner
    rw [contains_v6 addr, Bool.eq_false_iff]
    intro member
    have hlead := sameLead_mono (Nat.min_le_left net.length 96) member
    rw [sameLead_mapped _ (Nat.min_le_right _ _) bits inner 0, apart] at hlead
    cases hlead

/-- **Networks without mapped addresses hold hosts.** -/
theorem contains_sameHost {net : Network} (spares : net.SparesMapped) {a b : Endpoint}
    (same : a.SameHost b) : net.contains a.ip = net.contains b.ip := by
  cases haddr : net.addr with
  | v4 bits =>
      -- Membership in a version 4 network is a matter of the key.
      have hkey : a.ip.canonical = b.ip.canonical := (Endpoint.hostKey_eq_iff a b).mpr same
      simp only [contains, haddr, hkey]
  | v6 bits =>
      have hspared := spares bits haddr
      have hv4 : ∀ member, net.contains (.v4 member) = false := by
        intro member
        simp only [contains, haddr]
      cases a with
      | v4 a port =>
          cases b with
          | v4 b port' => exact (hv4 a).trans (hv4 b).symm
          | v6 b port' flow scope =>
              obtain rfl : b = IpAddr.mapped a := same
              exact (hv4 a).trans (hspared a).symm
      | v6 a port flow scope =>
          cases b with
          | v4 b port' =>
              obtain rfl : a = IpAddr.mapped b := same
              exact (hspared b).trans (hv4 b).symm
          | v6 b port' flow' scope' =>
              obtain rfl : a = b := same
              rfl

end Network

namespace AccessList

/-- No version 6 network of the list holds a mapped address. -/
def SparesMapped (acl : AccessList) : Prop := ∀ net ∈ acl.allow ++ acl.deny, net.SparesMapped

theorem holding_sameHost {nets : List Network} (spares : ∀ net ∈ nets, net.SparesMapped)
    {a b : Endpoint} (same : a.SameHost b) : holding nets a = holding nets b := by
  unfold holding
  induction nets with
  | nil => rfl
  | cons net nets ih =>
      rw [List.forall_mem_cons] at spares
      rw [List.find?_cons, List.find?_cons, Network.contains_sameHost spares.1 same, ih spares.2]

/-- **Such a list judges hosts.** -/
theorem allowed_sameHost {acl : AccessList} (spares : acl.SparesMapped) {a b : Endpoint}
    (same : a.SameHost b) : acl.allowed a = acl.allowed b := by
  have hallow : ∀ net ∈ acl.allow, net.SparesMapped := fun net mem =>
    spares net (List.mem_append_left _ mem)
  have hdeny : ∀ net ∈ acl.deny, net.SparesMapped := fun net mem =>
    spares net (List.mem_append_right _ mem)
  unfold allowed
  rw [holding_sameHost hallow same, holding_sameHost hdeny same]

end AccessList

end Gatehouse
