import Gatehouse.Config.Basic
import Gatehouse.Config.Notation
import Gatehouse.Yaml.Unfolding
/-!
# From nodes to configurations

A configuration, its listeners and their limits are records. What a configuration means is
decided on the tree of nodes alone.
-/

namespace Gatehouse

open Gatehouse.Yaml

namespace Config

/-! ## Limits -/

/-- What has been read of the limits of a listener. -/
structure RateLimitsDraft where
  global : Option Rate := none
  perHost : Option Rate := none
  hostIdleTimeout : Option Duration := none
deriving DecidableEq

/-- The limits that a draft gives, with the defaults for what it lacks. -/
def RateLimitsDraft.limits (d : RateLimitsDraft) : RateLimits where
  global := d.global.getD RateLimits.default.global
  perHost := d.perHost.getD RateLimits.default.perHost
  hostIdleTimeout := d.hostIdleTimeout.getD RateLimits.default.hostIdleTimeout

/-- The collections around a rate in a configuration: the record, its list of listeners, a
listener and its limits. -/
def collectionsAroundRate : Nat := 4

def readLimit : Spot → Node → Decoded Rate := readRate (deepestNesting - collectionsAroundRate)

def rateLimitsShape : RecordShape RateLimitsDraft where
  what := "struct RateLimitConfig"
  empty := {}
  fields :=
    [{ name := "global"
       isSet := fun d => d.global.isSome
       read := fun spot node d => do return { d with global := some (← readLimit spot node) } },
     { name := "per_host"
       isSet := fun d => d.perHost.isSome
       read := fun spot node d => do return { d with perHost := some (← readLimit spot node) } },
     { name := "host_idle_timeout"
       isSet := fun d => d.hostIdleTimeout.isSome
       read := fun spot node d => do
        return { d with hostIdleTimeout := some (← readDuration spot node) } }]

def readRateLimits (spot : Spot) (node : Node) : Decoded RateLimits := do
  return (← rateLimitsShape.read spot node).limits

/-! ## Listeners -/

/-- What has been read of a listener. -/
structure ListenerDraft where
  name : Option (Option String) := none
  listen : Option Endpoint := none
  target : Option (Option Endpoint) := none
  connectTimeout : Option Duration := none
  rateLimits : Option RateLimits := none
  allow : Option (List Network) := none
  deny : Option (List Network) := none
  acceptTimeout : Option Duration := none
deriving DecidableEq

/-- The listener that a draft gives, with the defaults for what it lacks. -/
def ListenerDraft.listener (d : ListenerDraft) : ListenerConfig where
  name := d.name.getD ListenerConfig.default.name
  listen := d.listen.getD ListenerConfig.default.listen
  target := d.target.getD ListenerConfig.default.target
  connectTimeout := d.connectTimeout.getD ListenerConfig.default.connectTimeout
  rateLimits := d.rateLimits.getD ListenerConfig.default.rateLimits
  allow := d.allow.getD ListenerConfig.default.allow
  deny := d.deny.getD ListenerConfig.default.deny
  acceptTimeout := d.acceptTimeout.getD ListenerConfig.default.acceptTimeout

def listenerShape : RecordShape ListenerDraft where
  what := "struct ListenConfig"
  empty := {}
  fields :=
    [{ name := "name"
       isSet := fun d => d.name.isSome
       read := fun spot node d => do
        return { d with name := some (← readOptional readString spot node) } },
     { name := "listen"
       isSet := fun d => d.listen.isSome
       read := fun spot node d => do
        return { d with listen := some (← readEndpoint spot node) } },
     { name := "upstream"
       isSet := fun d => d.target.isSome
       read := fun spot node d => do
        return { d with target := some (← readOptional readEndpoint spot node) } },
     { name := "connect_timeout"
       isSet := fun d => d.connectTimeout.isSome
       read := fun spot node d => do
        return { d with connectTimeout := some (← readDuration spot node) } },
     { name := "ratelimit"
       isSet := fun d => d.rateLimits.isSome
       read := fun spot node d => do
        return { d with rateLimits := some (← readRateLimits spot node) } },
     { name := "allow"
       isSet := fun d => d.allow.isSome
       read := fun spot node d => do return { d with allow := some (← readNetworks spot node) } },
     { name := "deny"
       isSet := fun d => d.deny.isSome
       read := fun spot node d => do return { d with deny := some (← readNetworks spot node) } },
     { name := "accept_timeout"
       isSet := fun d => d.acceptTimeout.isSome
       read := fun spot node d => do
        return { d with acceptTimeout := some (← readDuration spot node) } }]

def readListener (spot : Spot) (node : Node) : Decoded ListenerConfig := do
  return (← listenerShape.read spot node).listener

/-- Listeners from the item with the given index on. -/
def readListenerItems (spot : Spot) (index : Nat) : List Node → Decoded (List ListenerConfig)
  | [] => .ok []
  | item :: items => do
    let listener ← readListener (spot.inside (.item index)) item
    let listeners ← readListenerItems spot (index + 1) items
    return listener :: listeners

def readListeners (spot : Spot) (node : Node) : Decoded (List ListenerConfig) :=
  match node.content with
  | .sequence items => readListenerItems spot 0 items
  | other => spot.mismatch other "a sequence"

/-! ## Configurations -/

/-- What has been read of a configuration. -/
structure ConfigDraft where
  logLevel : Option (Option String) := none
  listeners : Option (List ListenerConfig) := none
deriving DecidableEq

/-- The configuration that a draft gives. -/
def ConfigDraft.config (d : ConfigDraft) : Config where
  logLevel := d.logLevel.getD none
  listeners := d.listeners.getD []

def configShape : RecordShape ConfigDraft where
  what := "struct Config"
  empty := {}
  fields :=
    [{ name := "log_level"
       isSet := fun d => d.logLevel.isSome
       read := fun spot node d => do
        return { d with logLevel := some (← readOptional readString spot node) } },
     { name := "listeners"
       isSet := fun d => d.listeners.isSome
       required := true
       read := fun spot node d => do
        return { d with listeners := some (← readListeners spot node) } }]

/-- The configuration that a tree of nodes means. -/
def ofNode (node : Node) : Decoded Config := do
  return (← configShape.read .root node).config

/-! ## Whole texts -/

/-- Reads a text, which has to be exactly one document. -/
def ofDocument {α : Type} (decode : Node → Decoded α) (text : String) : Decoded α :=
  match documentsOf text with
  | .error why => .error (.malformed why)
  | .ok [] => .error .noDocument
  | .ok [doc] => decode doc.unfold
  | .ok (_ :: _ :: _) => .error .severalDocuments

/-- The configuration that a text means. -/
def ofText (text : String) : Decoded Config := ofDocument ofNode text

end Config

/-- The rate that a text means. -/
def Rate.ofText (text : String) : Config.Decoded Rate :=
  Config.ofDocument (Config.readRate deepestNesting .root) text

/-- The networks that a text means. -/
def Network.listOfText (text : String) : Config.Decoded (List Network) :=
  Config.ofDocument (Config.readNetworks .root) text

end Gatehouse
