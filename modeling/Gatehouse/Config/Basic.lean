import Gatehouse.Access.AccessList
import Gatehouse.Rate
/-!
# Configurations

What a gate is built from, and what holds where nothing is said.
-/

namespace Gatehouse

structure RateLimits where
  /-- shared by all clients -/
  global : Rate
  /-- for each client of its own -/
  perHost : Rate
  hostIdleTimeout : Duration
deriving DecidableEq

structure ListenerConfig where
  /-- the name in logs; without one it is the bound address -/
  name : Option String
  listen : Endpoint
  /-- where admitted connections are relayed to -/
  target : Option Endpoint
  connectTimeout : Duration
  rateLimits : RateLimits
  allow : List Network
  deny : List Network
  /-- the longest time for which a shutdown request goes unnoticed -/
  acceptTimeout : Duration
deriving DecidableEq

structure Config where
  logLevel : Option String
  listeners : List ListenerConfig
deriving DecidableEq

/-- 2000 connections per second in all and 10 for each host; hosts are forgotten after a minute. -/
def RateLimits.default : RateLimits where
  global := ⟨.ofNat 2000, Rate.second, by decide +kernel, by decide⟩
  perHost := ⟨.ofNat 10, Rate.second, by decide +kernel, by decide⟩
  hostIdleTimeout := Duration.ofSeconds 60

namespace ListenerConfig

/-- Every address on port 1080, without a target and open to all. -/
def default : ListenerConfig where
  name := none
  listen := .v4 0 1080
  target := none
  connectTimeout := Duration.ofSeconds 5
  rateLimits := .default
  allow := []
  deny := []
  acceptTimeout := Duration.ofSeconds 2

/-- The access list of a listener. -/
def accessList (c : ListenerConfig) : AccessList := ⟨c.allow, c.deny⟩

end ListenerConfig

end Gatehouse
