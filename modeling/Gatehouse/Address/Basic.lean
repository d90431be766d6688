/-!
# Addresses

Internet addresses of both families, and endpoints: an address with a port. A version 6 address
can carry a version 4 address in its last 32 bits (a *mapped* address); its canonical form is
the version 4 address, so that one host counts once whichever family it is reached by.
-/

namespace Gatehouse

inductive IpAddr where
  | v4 (bits : BitVec 32)
  | v6 (bits : BitVec 128)
deriving DecidableEq

namespace IpAddr

instance : Inhabited IpAddr := ⟨.v4 0⟩

/-- The number of bits of an address. -/
def width : IpAddr → Nat
  | .v4 _ => 32
  | .v6 _ => 128

/-- The version 6 address that carries a version 4 address. -/
def mapped (bits : BitVec 32) : BitVec 128 := 0xffff#96 ++ bits

/-- The version 4 address that a version 6 address carries, if its other bits say so. -/
def unmapped? (bits : BitVec 128) : Option (BitVec 32) :=
  if bits >>> 32 = 0xffff#128 then some (bits.setWidth 32) else none

/-- The same address in version 4 if it is mapped, and itself otherwise. -/
def canonical : IpAddr → IpAddr
  | .v4 bits => .v4 bits
  | .v6 bits =>
    match unmapped? bits with
    | some inner => .v4 inner
    | none => .v6 bits

end IpAddr

/-- An address with a port; in version 6 also with a flow label and a scope. -/
inductive Endpoint where
  | v4 (host : BitVec 32) (port : UInt16)
  | v6 (host : BitVec 128) (port : UInt16) (flow scope : UInt32)
deriving DecidableEq

namespace Endpoint

def ip : Endpoint → IpAddr
  | .v4 host _ => .v4 host
  | .v6 host _ _ _ => .v6 host

/-- Who a peer is to the limiters: its canonical address, without the port. -/
def hostKey (peer : Endpoint) : IpAddr := peer.ip.canonical

end Endpoint

end Gatehouse
