import Mathlib
import Gatehouse.Address.Basic
/-!
# Peers of one host

The limiters tell hosts by their keys. Two peers have the same key exactly if they are one host
(`hostKey_eq_iff`): ports, flow labels and scopes do not matter, and a version 4 address is the
same host as the version 6 address that carries it.
-/

namespace Gatehouse

namespace IpAddr

theorem toNat_mapped (bits : BitVec 32) : (mapped bits).toNat = 0xffff * 2 ^ 32 + bits.toNat := by
  unfold mapped
  rw [BitVec.toNat_append, ← Nat.shiftLeft_add_eq_or_of_lt bits.isLt, Nat.shiftLeft_eq]
  rfl

/-- A version 6 address carries a version 4 address exactly if it is the mapped one. -/
theorem unmapped?_eq_some_iff {bits : BitVec 128} {inner : BitVec 32} :
    unmapped? bits = some inner ↔ bits = mapped inner := by
  have hlt := inner.isLt
  have hhigh : bits >>> 32 = 0xffff#128 ↔ bits.toNat / 2 ^ 32 = 0xffff := by
    rw [← BitVec.toNat_inj, BitVec.toNat_ushiftRight, Nat.shiftRight_eq_div_pow]
    rfl
  have hlow : bits.setWidth 32 = inner ↔ bits.toNat % 2 ^ 32 = inner.toNat := by
    rw [← BitVec.toNat_inj, BitVec.toNat_setWidth]
  have hmapped : bits = mapped inner ↔ bits.toNat = 0xffff * 2 ^ 32 + inner.toNat := by
    rw [← BitVec.toNat_inj, toNat_mapped]
  unfold unmapped?
  rw [hmapped]
  split
  · rename_i h
    rw [Option.some.injEq, hlow]
    have := hhigh.mp h
    omega
  · rename_i h
    have := mt hhigh.mpr h
    simp only [reduceCtorEq, false_iff]
    omega

theorem canonical_carrying {bits : BitVec 128} {inner : BitVec 32}
    (h : unmapped? bits = some inner) : canonical (.v6 bits) = .v4 inner := by
  simp only [canonical, h]

theorem canonical_plain {bits : BitVec 128} (h : unmapped? bits = none) :
    canonical (.v6 bits) = .v6 bits := by
  simp only [canonical, h]

theorem canonical_v6_eq_v4_iff {bits : BitVec 128} {inner : BitVec 32} :
    canonical (.v6 bits) = .v4 inner ↔ bits = mapped inner := by
  rw [← unmapped?_eq_some_iff]
  cases h : unmapped? bits with
  | some found => rw [canonical_carrying h, IpAddr.v4.injEq, Option.some.injEq]
  | none => simp [canonical_plain h]

theorem canonical_eq_v4_iff {a : IpAddr} {inner : BitVec 32} :
    a.canonical = .v4 inner ↔ a = .v4 inner ∨ a = .v6 (mapped inner) := by
  cases a with
  | v4 bits => simp [canonical]
  | v6 bits => simp [canonical_v6_eq_v4_iff]

theorem canonical_v6_injective {a b : BitVec 128} (h : canonical (.v6 a) = canonical (.v6 b)) :
    a = b := by
  cases hb : unmapped? b with
  | some inner =>
      rw [canonical_carrying hb, canonical_v6_eq_v4_iff] at h
      rw [h]
      exact (unmapped?_eq_some_iff.mp hb).symm
  | none =>
      rw [canonical_plain hb] at h
      cases ha : unmapped? a with
      | some inner =>
          rw [canonical_carrying ha] at h
          cases h
      | none =>
          rw [canonical_plain ha] at h
          exact IpAddr.v6.inj h

end IpAddr

namespace Endpoint

/-- The peers are of one host: they have one address, or one has the version 4 address that the
other's carries. -/
def SameHost : Endpoint → Endpoint → Prop
  | .v4 a _, .v4 b _ => a = b
  | .v4 a _, .v6 b _ _ _ => b = IpAddr.mapped a
  | .v6 a _ _ _, .v4 b _ => a = IpAddr.mapped b
  | .v6 a _ _ _, .v6 b _ _ _ => a = b

/-- **Peers have one key exactly if they are of one host.** -/
theorem hostKey_eq_iff (a b : Endpoint) : a.hostKey = b.hostKey ↔ SameHost a b := by
  cases a with
  | v4 a port =>
      cases b with
      | v4 b port' =>
          show IpAddr.v4 a = IpAddr.v4 b ↔ a = b
          rw [IpAddr.v4.injEq]
      | v6 b port' flow scope =>
          show IpAddr.v4 a = IpAddr.canonical (.v6 b) ↔ b = IpAddr.mapped a
          rw [eq_comm, IpAddr.canonical_v6_eq_v4_iff]
  | v6 a port flow scope =>
      cases b with
      | v4 b port' => exact IpAddr.canonical_v6_eq_v4_iff
      | v6 b port' flow' scope' =>
          show IpAddr.canonical (.v6 a) = IpAddr.canonical (.v6 b) ↔ a = b
          exact ⟨IpAddr.canonical_v6_injective, fun h => by rw [h]⟩

end Endpoint

end Gatehouse
