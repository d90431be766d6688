import Gatehouse.Access.Network
import Gatehouse.Log
/-!
# Access lists

A rule of access says of every peer whether it may connect, and what is logged on the way. An
access list is such a rule made of networks: a peer in a denied network is refused even if it is
also allowed, and an empty list of allowed networks allows everyone else.
-/

namespace Gatehouse

/-- What a rule of access says of one peer. -/
structure Judgement where
  allowed : Bool
  log : List LogRecord := []
deriving DecidableEq

/-- Decides about peers; it keeps no state. -/
abbrev AccessRule := Endpoint → Judgement

/-- Networks to allow and networks to deny. -/
structure AccessList where
  allow : List Network := []
  deny : List Network := []
deriving DecidableEq

namespace AccessList

/-- Lets everyone in. -/
def any : AccessList := {}

def addAllow (acl : AccessList) (net : Network) : AccessList :=
  { acl with allow := acl.allow ++ [net] }

def addDeny (acl : AccessList) (net : Network) : AccessList :=
  { acl with deny := acl.deny ++ [net] }

/-- The first network of a list that holds the peer. -/
def holding (nets : List Network) (peer : Endpoint) : Option Network :=
  nets.find? fun net => net.contains peer.ip

def allowed (acl : AccessList) (peer : Endpoint) : Bool :=
  (holding acl.deny peer).isNone && (acl.allow.isEmpty || (holding acl.allow peer).isSome)

/-- The record of a network that settled the matter. -/
def hit (list : String) (net : Network) (peer : Endpoint) : LogRecord :=
  ⟨.trace, "match(" ++ list ++ "): " ++ net.render ++ ": " ++ peer.render⟩

/-- What is logged about a peer: the network that decided, if one did. -/
def log (acl : AccessList) (peer : Endpoint) : List LogRecord :=
  match holding acl.deny peer with
  | some net => [hit "deny" net peer]
  | none =>
    match holding acl.allow peer with
    | some net => [hit "allow" net peer]
    | none => []

/-- The access list as a rule. -/
def rule (acl : AccessList) : AccessRule := fun peer => ⟨acl.allowed peer, acl.log peer⟩

end AccessList

end Gatehouse
