import Gatehouse.Proofs.Access.Families
/-!
# Networks as blocks of numbers

Read as numbers, the addresses that agree in their first `length` bits are an aligned block of
`2 ^ (width - length)` numbers (`Network.block`). A network holds an address exactly if the number
that it reads in the address lies in its block (`contains_iff_mem_block`). Which number that is
depends on the family of the network alone (`IpAddr.numberIn?`): version 4 networks read version 4
addresses and the mapped ones, version 6 networks read version 6 addresses as they are.

* `sameLead_iff_mem_block` — agreeing under the mask of the leading bits is being in the block;
* `contains_iff_in_block` — membership case by case, and the longest and the shortest networks.
-/

namespace Gatehouse

namespace IpAddr

/-- The address as a number. -/
def value : IpAddr → Nat
  | .v4 bits => bits.toNat
  | .v6 bits => bits.toNat

/-- The number that a network at the first address reads in the second, if it reads it at all. -/
def numberIn? : IpAddr → IpAddr → Option Nat
  | .v4 _, .v4 member => some member.toNat
  | .v4 _, .v6 member => (unmapped? member).map BitVec.toNat
  | .v6 _, .v4 _ => none
  | .v6 _, .v6 member => some member.toNat

/-- Networks of one family read the same. -/
theorem numberIn?_family {a b : IpAddr} (family : a.width = b.width) :
    a.numberIn? = b.numberIn? := by
  funext member
  cases a <;> cases b <;> cases member <;> first | rfl | cases family

theorem numberIn?_self (a : IpAddr) : a.numberIn? a = some a.value := by
  cases a <;> rfl

theorem value_lt (a : IpAddr) : a.value < 2 ^ a.width := by
  cases a with
  | v4 bits => exact bits.isLt
  | v6 bits => exact bits.isLt

/-- Every number of the width is read in some address. -/
theorem exists_numberIn? (a : IpAddr) {number : Nat} (lt : number < 2 ^ a.width) :
    ∃ member, a.numberIn? member = some number := by
  cases a with
  | v4 bits => exact ⟨.v4 (BitVec.ofNatLT number lt), rfl⟩
  | v6 bits => exact ⟨.v6 (BitVec.ofNatLT number lt), rfl⟩

theorem numberIn?_v4_eq_some_iff {bits : BitVec 32} {a : IpAddr} {number : Nat} :
    (IpAddr.v4 bits).numberIn? a = some number ↔
      ∃ member : BitVec 32, (a = .v4 member ∨ a = .v6 (mapped member)) ∧
        member.toNat = number := by
  cases a with
  | v4 member => simp [numberIn?]
  | v6 member => simp [numberIn?, unmapped?_eq_some_iff]

theorem numberIn?_v6_eq_some_iff {bits : BitVec 128} {a : IpAddr} {number : Nat} :
    (IpAddr.v6 bits).numberIn? a = some number ↔
      ∃ member : BitVec 128, a = .v6 member ∧ member.toNat = number := by
  cases a with
  | v4 member => simp [numberIn?]
  | v6 member => simp [numberIn?]

end IpAddr

namespace Network

/-! ## Blocks -/

/-- How many numbers agree in the leading bits of the network. -/
def blockSize (net : Network) : Nat := 2 ^ (net.addr.width - net.length)

/-- The leading bits, as a number. -/
def lead (net : Network) : Nat := net.addr.value / net.blockSize

/-- The numbers with these leading bits, from the first to the last. -/
def block (net : Network) : Set Nat :=
  Set.Icc (net.lead * net.blockSize) (net.lead * net.blockSize + net.blockSize - 1)

theorem blockSize_pos (net : Network) : 0 < net.blockSize :=
  Nat.two_pow_pos _

theorem mem_block_iff (net : Network) (number : Nat) :
    number ∈ net.block ↔ number / net.blockSize = net.lead :=
  (Nat.div_eq_iff net.blockSize_pos).symm

theorem value_mem_block (net : Network) : net.addr.value ∈ net.block :=
  (net.mem_block_iff _).mpr rfl

/-- The block consists of numbers of the width. -/
theorem lt_of_mem_block {net : Network} {number : Nat} (mem : number ∈ net.block) :
    number < 2 ^ net.addr.width := by
  have hwidth : 2 ^ net.addr.width = 2 ^ net.length * net.blockSize := by
    unfold blockSize
    rw [← pow_add, Nat.add_sub_cancel' net.length_le]
  have hlead : net.lead < 2 ^ net.length := by
    rw [lead, Nat.div_lt_iff_lt_mul net.blockSize_pos, ← hwidth]
    exact net.addr.value_lt
  rw [hwidth, ← Nat.div_lt_iff_lt_mul net.blockSize_pos, (net.mem_block_iff number).mp mem]
  exact hlead

/-- No leading bits leave every number of the width. -/
theorem mem_block_of_no_bits {net : Network} {w : Nat} (none : net.length = 0)
    (width : net.addr.width = w) (member : BitVec w) : member.toNat ∈ net.block := by
  have hsize : net.blockSize = 2 ^ w := by rw [blockSize, none, width, Nat.sub_zero]
  have hvalue : net.addr.value < 2 ^ w := width ▸ net.addr.value_lt
  rw [mem_block_iff, lead, hsize, Nat.div_eq_of_lt member.isLt, Nat.div_eq_of_lt hvalue]

/-- As many as the width leave one. -/
theorem mem_block_of_all_bits {net : Network} {w : Nat} {bits : BitVec w}
    (all : net.length = net.addr.width) (value : net.addr.value = bits.toNat)
    (member : BitVec w) : member.toNat ∈ net.block ↔ member = bits := by
  have hsize : net.blockSize = 1 := by rw [blockSize, all, Nat.sub_self, pow_zero]
  rw [mem_block_iff, lead, hsize, Nat.div_one, Nat.div_one, value, BitVec.toNat_inj]

/-! ## Membership -/

theorem sameLead_iff_mem_block {net : Network} {w : Nat} {bits : BitVec w}
    (width : net.addr.width = w) (value : net.addr.value = bits.toNat) (member : BitVec w) :
    sameLead net.length bits member = true ↔ member.toNat ∈ net.block := by
  rw [sameLead_iff, mem_block_iff, lead, blockSize, width, value, eq_comm]

theorem contains_v4_iff {net : Network} {bits : BitVec 32} (addr : net.addr = .v4 bits)
    (a : IpAddr) : net.contains a = true ↔ ∃ member : BitVec 32,
      (a = .v4 member ∨ a = .v6 (IpAddr.mapped member)) ∧ member.toNat ∈ net.block := by
  have hwidth : net.addr.width = 32 := by rw [addr]; rfl
  have hvalue : net.addr.value = bits.toNat := by rw [addr]; rfl
  simp only [← IpAddr.canonical_eq_v4_iff, ← sameLead_iff_mem_block hwidth hvalue]
  cases h : a.canonical <;> simp [contains, addr, h]

theorem contains_v6_iff {net : Network} {bits : BitVec 128} (addr : net.addr = .v6 bits)
    (a : IpAddr) : net.contains a = true ↔ ∃ member : BitVec 128,
      a = .v6 member ∧ member.toNat ∈ net.block := by
  have hwidth : net.addr.width = 128 := by rw [addr]; rfl
  have hvalue : net.addr.value = bits.toNat := by rw [addr]; rfl
  simp only [← sameLead_iff_mem_block hwidth hvalue]
  cases a <;> simp [contains, addr]

/-- A network holds the addresses in which it reads a number of its block. -/
theorem contains_iff_mem_block (net : Network) (a : IpAddr) :
    net.contains a = true ↔ ∃ number ∈ net.block, net.addr.numberIn? a = some number := by
  cases haddr : net.addr with
  | v4 bits =>
      simp only [contains_v4_iff haddr, IpAddr.numberIn?_v4_eq_some_iff]
      constructor
      · rintro ⟨member, is, mem⟩
        exact ⟨member.toNat, mem, member, is, rfl⟩
      · rintro ⟨-, mem, member, is, rfl⟩
        exact ⟨member, is, mem⟩
  | v6 bits =>
      simp only [contains_v6_iff haddr, IpAddr.numberIn?_v6_eq_some_iff]
      constructor
      · rintro ⟨member, is, mem⟩
        exact ⟨member.toNat, mem, member, is, rfl⟩
      · rintro ⟨-, mem, member, is, rfl⟩
        exact ⟨member, is, mem⟩

/-- **A network is a block of numbers.** Take any network, whatever bits follow its leading ones,
and any address. A version 4 network holds it if it is a version 4 address, or the mapped form of
one, with a number between the multiple of `2 ^ (32 - length)` at or below that of the network and
the last before the next multiple. A version 6 network holds it if it is a version 6 address, mapped
or not, with a number in the same way within `2 ^ (128 - length)`. Nothing else is held. With no
leading bits this is the whole family, and with all bits it is one value. -/
theorem contains_iff_in_block (net : Network) (a : IpAddr) :
    let size := 2 ^ (net.addr.width - net.length)
    let first := net.addr.value / size * size
    (net.contains a = true ↔
      match net.addr with
      | .v4 _ => ∃ member : BitVec 32, (a = .v4 member ∨ a = .v6 (IpAddr.mapped member)) ∧
          member.toNat ∈ Set.Icc first (first + size - 1)
      | .v6 _ => ∃ member : BitVec 128, a = .v6 member ∧
          member.toNat ∈ Set.Icc first (first + size - 1)) ∧
    (net.length = 0 → (net.contains a = true ↔
      match net.addr with
      | .v4 _ => ∃ member, a = .v4 member ∨ a = .v6 (IpAddr.mapped member)
      | .v6 _ => ∃ member, a = .v6 member)) ∧
    (net.length = net.addr.width → (net.contains a = true ↔
      match net.addr with
      | .v4 bits => a = .v4 bits ∨ a = .v6 (IpAddr.mapped bits)
      | .v6 bits => a = .v6 bits)) := by
  intro size first
  show (_ ↔ match net.addr with
    | .v4 _ => ∃ member : BitVec 32, (a = .v4 member ∨ a = .v6 (IpAddr.mapped member)) ∧
        member.toNat ∈ net.block
    | .v6 _ => ∃ member : BitVec 128, a = .v6 member ∧ member.toNat ∈ net.block) ∧ _
  cases haddr : net.addr with
  | v4 bits =>
      have hwidth : net.addr.width = 32 := by rw [haddr]; rfl
      have hvalue : net.addr.value = bits.toNat := by rw [haddr]; rfl
      refine ⟨contains_v4_iff haddr a, ?_, ?_⟩
      · intro none
        simp only [contains_v4_iff haddr, mem_block_of_no_bits none hwidth, and_true]
      · intro all
        have hall : net.length = net.addr.width := haddr ▸ all
        simp only [contains_v4_iff haddr, mem_block_of_all_bits hall hvalue, exists_eq_right]
  | v6 bits =>
      have hwidth : net.addr.width = 128 := by rw [haddr]; rfl
      have hvalue : net.addr.value = bits.toNat := by rw [haddr]; rfl
      refine ⟨contains_v6_iff haddr a, ?_, ?_⟩
      · intro none
        simp only [contains_v6_iff haddr, mem_block_of_no_bits none hwidth, and_true]
      · intro all
        have hall : net.length = net.addr.width := haddr ▸ all
        simp only [contains_v6_iff haddr, mem_block_of_all_bits hall hvalue, exists_eq_right]

/-- The network 192.168.9.2/23 starts at 192.168.8.0 and ends before 192.168.10.0. All of version 4
holds a mapped address and no other version 6 address. The version 6 network of that one address
does not hold the version 4 address in it. -/
theorem contains_at_edges :
    let carrier := IpAddr.v6 (IpAddr.mapped 0x0a000001)
    let net : Network := ⟨.v4 0xc0a80902, 23, by decide⟩
    let everyV4 : Network := ⟨.v4 0xc0a80902, 0, by decide⟩
    let one := host carrier
    net.contains (.v4 0xc0a80800) = true ∧ net.contains (.v4 0xc0a80a00) = false ∧
    everyV4.length = 0 ∧ everyV4.contains carrier = true ∧ everyV4.contains (.v6 1) = false ∧
    one.length = one.addr.width ∧ one.contains (.v4 0x0a000001) = false := by
  intro carrier net everyV4 one
  have hevery : ∀ a, everyV4.contains a = true ↔
      ∃ member, a = .v4 member ∨ a = .v6 (IpAddr.mapped member) :=
    fun a => (contains_iff_in_block everyV4 a).2.1 rfl
  have hone : ∀ a, one.contains a = true ↔ a = carrier := fun a =>
    (contains_iff_in_block one a).2.2 rfl
  refine ⟨?_, by decide, rfl, (hevery _).mpr ⟨_, .inr rfl⟩, by decide, rfl, ?_⟩
  · exact (contains_iff_in_block net _).1.mpr ⟨_, .inl rfl, by decide, by decide⟩
  · exact Bool.eq_false_iff.mpr fun holds => absurd ((hone _).mp holds) (by decide)

end Network

end Gatehouse
