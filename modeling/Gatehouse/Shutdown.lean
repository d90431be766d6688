import Gatehouse.Log
/-!
# The shutdown signal

A one-shot signal. It is raised by firing its trigger or by dropping it, whichever comes first,
and stays raised; any number of tokens observe it, and observing it changes nothing.
-/

namespace Gatehouse

/-- The trigger of a signal. -/
inductive Trigger where
  | armed
  | fired
  | dropped
deriving DecidableEq, Inhabited

namespace Trigger

/-- What every token observes: the signal is raised. -/
def isRaised : Trigger → Bool
  | .armed => false
  | .fired => true
  | .dropped => true

/-- Whether the trigger has been fired, as long as it exists. -/
def isFired? : Trigger → Option Bool
  | .armed => some false
  | .fired => some true
  | .dropped => none

/-- Raises the signal; nothing happens when that has been done, or the trigger is gone. -/
def fire : Trigger → Trigger
  | .armed => .fired
  | .fired => .fired
  | .dropped => .dropped

def fireLog : Trigger → List LogRecord
  | .armed => [⟨.trace, "shutdown signaled"⟩]
  | .fired => []
  | .dropped => []

/-- Drops the trigger, which raises the signal without a word. -/
def drop (_ : Trigger) : Trigger := .dropped

end Trigger

/-- A trigger and the tokens made from it. -/
structure SignalChannel where
  trigger : Trigger := .armed
  tokens : Nat := 1
deriving DecidableEq

namespace SignalChannel

/-- What can be done with a channel. -/
inductive Op where
  | fire
  | drop
  | clone
  | check
deriving DecidableEq

/-- One operation: the channel after it, and what it logs. -/
def step (c : SignalChannel) : Op → SignalChannel × List LogRecord
  | .fire => ({ c with trigger := c.trigger.fire }, c.trigger.fireLog)
  | .drop => ({ c with trigger := c.trigger.drop }, [])
  | .clone => ({ c with tokens := c.tokens + 1 }, [])
  | .check => (c, [])

/-- What each token observes. -/
def readings (c : SignalChannel) : List Bool := List.replicate c.tokens c.trigger.isRaised

end SignalChannel

end Gatehouse
