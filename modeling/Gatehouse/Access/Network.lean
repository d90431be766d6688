import Gatehouse.Address.Printer
import Gatehouse.Address.Reader
/-!
# Networks

A network is an address and the number of its leading bits that members share; the bits after
those are kept but do not matter to membership. A version 4 network also holds the mapped forms
of its members, a version 6 network takes mapped addresses as they are.
-/

namespace Gatehouse

open Gatehouse.Text

/-- A block of addresses that agree with `addr` in their first `length` bits. -/
structure Network where
  addr : IpAddr
  length : Nat
  length_le : length ≤ addr.width
deriving DecidableEq

/-- Why a network cannot be had. -/
inductive NetworkError where
  | tooLong (addr : IpAddr) (length : Nat)
  | badPattern (pattern : String)
deriving DecidableEq

def NetworkError.message : NetworkError → String
  | .tooLong addr length =>
    "invalid prefix: " ++ decimal length ++ " is too large for " ++ addr.render
  | .badPattern pattern => "invalid address pattern: " ++ pattern

namespace Network

/-- The network of an address and a number of leading bits, which must not exceed its width. -/
def create (addr : IpAddr) (length : Nat) : Except NetworkError Network :=
  if h : length ≤ addr.width then .ok ⟨addr, length, h⟩ else .error (.tooLong addr length)

/-- The network of exactly one address. -/
def host (addr : IpAddr) : Network := ⟨addr, addr.width, Nat.le_refl _⟩

/-- The first `length` bits are set. For no bits all are shifted out. -/
def mask (w length : Nat) : BitVec w := BitVec.allOnes w <<< (w - length)

/-- Two bit strings agree in their first `length` bits. -/
def sameLead {w : Nat} (length : Nat) (a b : BitVec w) : Bool :=
  a &&& mask w length == b &&& mask w length

/-- Membership. -/
def contains (net : Network) (addr : IpAddr) : Bool :=
  match net.addr with
  | .v4 bits =>
    match addr.canonical with
    | .v4 member => sameLead net.length bits member
    | .v6 _ => false
  | .v6 bits =>
    match addr with
    | .v4 _ => false
    | .v6 member => sameLead net.length bits member

/-! ## Text -/

def renderChars (net : Network) : List Char :=
  net.addr.renderChars ++ '/' :: digits 10 net.length

/-- The text of a network: address, slash, number of bits. -/
def render (net : Network) : String := String.ofList net.renderChars

/-- A number of bits in text: digits after an optional plus sign, below 256. -/
def readLength? (cs : List Char) : Option Nat :=
  let ds := match cs with
    | '+' :: rest => rest
    | other => other
  match natural? 10 ds with
  | some n => if n < 256 then some n else none
  | none => none

/-- Reads an address, or an address and a number of bits around the first slash, each possibly
between blanks. -/
def parse (text : String) : Except NetworkError Network :=
  match splitFirst '/' text.toList with
  | some (addr, length) =>
    match IpAddr.read? (trim addr), readLength? (trim length) with
    | some a, some n => create a n
    | _, _ => .error (.badPattern text)
  | none =>
    match IpAddr.read? (trim text.toList) with
    | some a => .ok (host a)
    | none => .error (.badPattern text)

end Network

end Gatehouse
