import Gatehouse.Address.Basic
import Gatehouse.Text.Digits
import Gatehouse.Text.Fields
/-!
# Reading addresses

A version 4 address is exactly four decimal octets without leading zeros. A version 6 address is
eight groups of one to four hexadecimal digits; one `::` may stand for one or more zero groups,
and the last two groups may be written as a version 4 address. Nothing may stand around an
address, not even blanks.
-/

namespace Gatehouse

open Gatehouse.Text

namespace IpAddr

/-- One octet: up to three digits, the first not zero unless it is the only one. -/
def readOctet? (cs : List Char) : Option Nat :=
  if 3 < cs.length ∨ (1 < cs.length ∧ cs.head? = some '0') then none
  else
    match natural? 10 cs with
    | some n => if n < 256 then some n else none
    | none => none

def readV4? (cs : List Char) : Option (BitVec 32) :=
  match (fields '.' cs).map readOctet? with
  | [some a, some b, some c, some d] =>
    some (BitVec.ofNat 32 (((a * 256 + b) * 256 + c) * 256 + d))
  | _ => none

/-- One group: up to four hexadecimal digits. -/
def readGroup? (cs : List Char) : Option Nat :=
  if 4 < cs.length then none else natural? 16 cs

/-- Groups that make up the end of an address: the last piece may be a version 4 address, which
gives two groups. -/
def readEnd? : List (List Char) → Option (List Nat)
  | [] => some []
  | [piece] =>
    match readV4? piece with
    | some bits => some [bits.toNat / 65536, bits.toNat % 65536]
    | none => (readGroup? piece).map ([·])
  | piece :: more =>
    match readGroup? piece, readEnd? more with
    | some g, some gs => some (g :: gs)
    | _, _ => none

/-- Groups that something else follows. -/
def readGroups? (pieces : List (List Char)) : Option (List Nat) := pieces.mapM readGroup?

/-- The pieces between colons on one side of `::`; an empty side has none. -/
def sidePieces (cs : List Char) : List (List Char) := if cs.isEmpty then [] else fields ':' cs

/-- The address with the given eight groups. -/
def ofGroups (gs : List Nat) : BitVec 128 :=
  BitVec.ofNat 128 (gs.foldl (fun n g => n * 65536 + g) 0)

def readV6? (cs : List Char) : Option (BitVec 128) :=
  match splitDoubled ':' cs with
  | some (left, right) =>
    match readGroups? (sidePieces left), readEnd? (sidePieces right) with
    | some ls, some rs =>
      if ls.length + rs.length ≤ 7 then
        some (ofGroups (ls ++ List.replicate (8 - (ls.length + rs.length)) 0 ++ rs))
      else none
    | _, _ => none
  | none =>
    match readEnd? (fields ':' cs) with
    | some gs => if gs.length = 8 then some (ofGroups gs) else none
    | none => none

/-- The address that a text writes. -/
def read? (cs : List Char) : Option IpAddr :=
  match readV4? cs with
  | some bits => some (.v4 bits)
  | none => (readV6? cs).map .v6

end IpAddr

namespace Endpoint

/-- A port: one or more digits, leading zeros allowed. -/
def readPort? (cs : List Char) : Option UInt16 :=
  match natural? 10 cs with
  | some n => if n < 65536 then some (UInt16.ofNat n) else none
  | none => none

/-- A scope: one or more digits, leading zeros allowed. -/
def readScope? (cs : List Char) : Option UInt32 :=
  match natural? 10 cs with
  | some n => if n < 4294967296 then some (UInt32.ofNat n) else none
  | none => none

def readV4? (cs : List Char) : Option Endpoint :=
  match splitFirst ':' cs with
  | some (host, port) =>
    match IpAddr.readV4? host, readPort? port with
    | some bits, some p => some (.v4 bits p)
    | _, _ => none
  | none => none

/-- The part in brackets: an address, and a scope after a percent sign. -/
def readScoped? (cs : List Char) : Option (BitVec 128 × UInt32) :=
  match splitFirst '%' cs with
  | some (host, scope) =>
    match IpAddr.readV6? host, readScope? scope with
    | some bits, some s => some (bits, s)
    | _, _ => none
  | none => (IpAddr.readV6? cs).map fun bits => (bits, 0)

def readV6? (cs : List Char) : Option Endpoint :=
  match splitFirst ']' cs with
  | some (inner, ':' :: port) =>
    match readScoped? inner, readPort? port with
    | some (bits, scope), some p => some (.v6 bits p 0 scope)
    | _, _ => none
  | _ => none

/-- The endpoint that a text writes. -/
def read? (cs : List Char) : Option Endpoint :=
  match cs with
  | '[' :: rest => readV6? rest
  | _ => readV4? cs

end Endpoint

end Gatehouse
