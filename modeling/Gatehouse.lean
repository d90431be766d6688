import Gatehouse.Admission.Session
import Gatehouse.Binary64.Bits
import Gatehouse.Binary64.Numeral
import Gatehouse.CommandLine
import Gatehouse.Config.Decode
import Gatehouse.Gate.Session
import Gatehouse.Listener.Poll
import Gatehouse.Listener.Script
import Gatehouse.Main
import Gatehouse.Relay
import Gatehouse.Shutdown
import Gatehouse.Startup
import Gatehouse.Proofs.Listener.AcceptLoop
import Gatehouse.Proofs.Time.Instant
import Gatehouse.Proofs.TokenBucket.Calls
import Gatehouse.Proofs.Limiter.RegistryRun
import Gatehouse.Proofs.Limiter.BucketFamily
import Gatehouse.Proofs.Binary64.Rounding
import Gatehouse.Proofs.Binary64.Value
import Gatehouse.Proofs.Time.Seconds
import Gatehouse.Proofs.TokenBucket.Level
import Gatehouse.Proofs.TokenBucket.Conservation
import Gatehouse.Proofs.TokenBucket.Recovery
import Gatehouse.Proofs.Limiter.Eviction
import Gatehouse.Proofs.Admission.Screening
import Gatehouse.Proofs.Admission.Accounting
import Gatehouse.Proofs.Listener.History
import Gatehouse.Proofs.Listener.Raising
import Gatehouse.Proofs.Listener.Readings
import Gatehouse.Proofs.Gate.Serving
import Gatehouse.Proofs.Gate.Streams
import Gatehouse.Proofs.Gate.ShutdownRace
import Gatehouse.Proofs.Gate.Life
import Gatehouse.Proofs.Gate.LifeCycle
import Gatehouse.Proofs.Gate.Custody
import Gatehouse.Proofs.Config.DeclaredFields
import Gatehouse.Proofs.Address.Hosts
import Gatehouse.Proofs.Admission.StoppedClock
import Gatehouse.Proofs.Limiter.Retention
import Gatehouse.Proofs.TokenBucket.Grains
import Gatehouse.Proofs.TokenBucket.Reachable
import Gatehouse.Proofs.TokenBucket.Refusals
import Gatehouse.Proofs.Access.Families
import Gatehouse.Proofs.Admission.HostIdentity
import Gatehouse.Proofs.Admission.RuleInfluence
import Gatehouse.Proofs.Config.Validity
import Gatehouse.Proofs.Address.Notation
import Gatehouse.Proofs.Text.Digits
import Gatehouse.Proofs.Text.Fields
import Gatehouse.Proofs.Address.Grammar
import Gatehouse.Proofs.Address.RoundTrip
import Gatehouse.Proofs.Access.NetworkGrammar
import Gatehouse.Proofs.Access.NetworkText
import Gatehouse.Proofs.TokenBucket.Costs
import Gatehouse.Proofs.TokenBucket.Waiting
import Gatehouse.Proofs.Config.Layout
import Gatehouse.Proofs.TokenBucket.SilentPeriod
import Gatehouse.Proofs.Limiter.Batches
import Gatehouse.Proofs.Access.Blocks
import Gatehouse.Proofs.Access.Overlap
import Gatehouse.Proofs.Shutdown.Latch
import Gatehouse.Proofs.Admission.Silence
import Gatehouse.Proofs.Limiter.Invariant
