import Gatehouse.Address.Basic
import Gatehouse.Text.Digits
import Gatehouse.Text.Fields
/-!
# Writing addresses

A version 4 address is four decimal octets. A version 6 address is eight groups in lower-case
hexadecimal, of which the first longest run of two or more zero groups becomes `::`; a mapped
address is written with the version 4 address it carries.
-/

namespace Gatehouse

open Gatehouse.Text

namespace IpAddr

/-- The four octets of a version 4 address, from the left. -/
def octets (bits : BitVec 32) : List Nat :=
  [24, 16, 8, 0].map fun shift => (bits >>> shift).toNat % 256

/-- The eight groups of a version 6 address, from the left. -/
def groups (bits : BitVec 128) : List Nat :=
  [112, 96, 80, 64, 48, 32, 16, 0].map fun shift => (bits >>> shift).toNat % 65536

/-- The number of zeros at the front. -/
def leadingZeros (gs : List Nat) : Nat := (gs.takeWhile (· == 0)).length

/-- Where the first longest run of zeros starts, and how long it is. -/
def zeroRun : List Nat → Nat × Nat
  | [] => (0, 0)
  | g :: gs =>
    let (start, length) := zeroRun gs
    if length ≤ leadingZeros (g :: gs) then (0, leadingZeros (g :: gs)) else (start + 1, length)

def renderV4 (bits : BitVec 32) : List Char := join ['.'] ((octets bits).map (digits 10))

/-- Groups in hexadecimal, with colons between them. -/
def renderGroups (gs : List Nat) : List Char := join [':'] (gs.map (digits 16))

def renderV6 (bits : BitVec 128) : List Char :=
  match unmapped? bits with
  | some inner => "::ffff:".toList ++ renderV4 inner
  | none =>
    let gs := groups bits
    let (start, length) := zeroRun gs
    if 2 ≤ length then
      renderGroups (gs.take start) ++ [':', ':'] ++ renderGroups (gs.drop (start + length))
    else renderGroups gs

def renderChars : IpAddr → List Char
  | .v4 bits => renderV4 bits
  | .v6 bits => renderV6 bits

def render (a : IpAddr) : String := String.ofList a.renderChars

end IpAddr

namespace Endpoint

/-- The text of an endpoint; a version 6 address stands in brackets, with its scope unless that
is zero. -/
def render : Endpoint → String
  | .v4 host port => (IpAddr.v4 host).render ++ ":" ++ decimal port.toNat
  | .v6 host port _ scope =>
    let inner := (IpAddr.v6 host).render ++ (if scope = 0 then "" else "%" ++ decimal scope.toNat)
    "[" ++ inner ++ "]:" ++ decimal port.toNat

end Endpoint

end Gatehouse
