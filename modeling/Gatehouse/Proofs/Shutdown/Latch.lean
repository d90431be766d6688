import Mathlib
import Gatehouse.Shutdown
/-!
# The signal as a latch

Whether a signal is raised depends on the operations on it and not on their order: it is if it has
been fired or its trigger dropped (`SignalChannel.after_isRaised`), so nothing that tokens do has
any part in it. Only the log tells the two ways apart (`SignalChannel.logs_eq`).

A latch comes of a channel for messages over which none is ever sent. The trigger holds the only
sender and gives it up once; what a token looks for is whether there is still one
(`SignalLine.reading`). Looking could take a message out of the channel, but there is none, and so
the two are told the same whatever is done with them (`SignalLine.after_closesFor`).
-/

namespace Gatehouse

/-- What is logged when a trigger is fired. -/
def Trigger.record : LogRecord := ⟨.trace, "shutdown signaled"⟩

namespace SignalChannel

/-- The operation raises the signal, unless that has been done. -/
def Op.raises : Op → Bool
  | .fire | .drop => true
  | .clone | .check => false

/-- Among these operations the signal is raised. -/
def Raised (ops : List Op) : Prop := .fire ∈ ops ∨ .drop ∈ ops

/-- Among these operations the trigger is fired, and not dropped before that. -/
def FiredFirst (ops : List Op) : Prop :=
  ∃ before later, ops = before ++ .fire :: later ∧ .drop ∉ before

/-- The channel after operations. -/
def after (c : SignalChannel) (ops : List Op) : SignalChannel :=
  ops.foldl (fun c op => (c.step op).1) c

/-- What operations log, in order. -/
def logs (c : SignalChannel) : List Op → List LogRecord
  | [] => []
  | op :: ops => (c.step op).2 ++ (c.step op).1.logs ops

@[simp] theorem after_nil (c : SignalChannel) : c.after [] = c := rfl

@[simp] theorem after_cons (c : SignalChannel) (op : Op) (ops : List Op) :
    c.after (op :: ops) = (c.step op).1.after ops := rfl

theorem after_append (c : SignalChannel) (ops later : List Op) :
    c.after (ops ++ later) = (c.after ops).after later :=
  List.foldl_append

theorem logs_append (c : SignalChannel) (ops later : List Op) :
    c.logs (ops ++ later) = c.logs ops ++ (c.after ops).logs later := by
  induction ops generalizing c with
  | nil => rfl
  | cons op ops ih => rw [List.cons_append, logs, logs, ih, after_cons, List.append_assoc]

/-! ## Raising -/

theorem raised_iff (ops : List Op) : Raised ops ↔ ops.any Op.raises = true := by
  rw [List.any_eq_true]
  constructor
  · rintro (mem | mem)
    · exact ⟨.fire, mem, rfl⟩
    · exact ⟨.drop, mem, rfl⟩
  · rintro ⟨op, mem, raises⟩
    cases op with
    | fire => exact .inl mem
    | drop => exact .inr mem
    | clone => cases raises
    | check => cases raises

theorem step_isRaised (c : SignalChannel) (op : Op) :
    (c.step op).1.trigger.isRaised = (c.trigger.isRaised || op.raises) := by
  obtain ⟨trigger, tokens⟩ := c
  cases op <;> cases trigger <;> rfl

/-- The signal is raised from the first operation on that raises it. -/
theorem after_isRaised (c : SignalChannel) (ops : List Op) :
    (c.after ops).trigger.isRaised = (c.trigger.isRaised || ops.any Op.raises) := by
  induction ops generalizing c with
  | nil => simp
  | cons op ops ih => rw [after_cons, ih, step_isRaised, List.any_cons, Bool.or_assoc]

/-- There is one token more for each that was made. -/
theorem after_tokens (c : SignalChannel) (ops : List Op) :
    (c.after ops).tokens = c.tokens + ops.count .clone := by
  induction ops generalizing c with
  | nil => rfl
  | cons op ops ih =>
      rw [after_cons, ih]
      cases op with
      | clone =>
          rw [List.count_cons_self]
          show c.tokens + 1 + _ = _
          omega
      | fire | drop | check => rfl

/-! ## The log -/

theorem firedFirst_iff (ops : List Op) :
    FiredFirst ops ↔ ops.find? Op.raises = some .fire := by
  constructor
  · rintro ⟨before, later, rfl, undropped⟩
    rw [List.find?_append]
    cases hfind : before.find? Op.raises with
    | none => rfl
    | some op =>
        have hmem := List.mem_of_find?_eq_some hfind
        have hraises := List.find?_some hfind
        cases op with
        | fire => rfl
        | drop => exact absurd hmem undropped
        | clone => cases hraises
        | check => cases hraises
  · intro hfind
    obtain ⟨-, before, later, rfl, quiet⟩ := List.find?_eq_some_iff_append.mp hfind
    refine ⟨before, later, rfl, ?_⟩
    intro dropped
    exact absurd (quiet .drop dropped) Bool.false_ne_true

instance (ops : List Op) : Decidable (FiredFirst ops) :=
  decidable_of_iff _ (firedFirst_iff ops).symm

theorem firedFirst_cons (op : Op) (ops : List Op) :
    FiredFirst (op :: ops) ↔ op = .fire ∨ (op.raises = false ∧ FiredFirst ops) := by
  rw [firedFirst_iff, firedFirst_iff, List.find?_cons]
  cases op <;> simp [Op.raises]

/-- Nothing is logged once the signal is raised. -/
theorem logs_of_raised {c : SignalChannel} (raised : c.trigger.isRaised = true) (ops : List Op) :
    c.logs ops = [] := by
  induction ops generalizing c with
  | nil => rfl
  | cons op ops ih =>
      have hlog : (c.step op).2 = [] := by
        obtain ⟨trigger, tokens⟩ := c
        cases op <;> cases trigger <;> first | rfl | cases raised
      have hraised : (c.step op).1.trigger.isRaised = true := by
        rw [step_isRaised, raised, Bool.true_or]
      rw [logs, hlog, ih hraised]
      rfl

/-- **A trigger that is fired before it is dropped says so once**, and nothing else is logged. -/
theorem logs_eq {c : SignalChannel} (armed : c.trigger = .armed) (ops : List Op) :
    c.logs ops = if FiredFirst ops then [Trigger.record] else [] := by
  induction ops generalizing c with
  | nil =>
      have hnone : ¬ FiredFirst [] := by simp [firedFirst_iff]
      rw [if_neg hnone]
      rfl
  | cons op ops ih =>
      have hfirst := firedFirst_cons op ops
      cases op with
      | fire =>
          have hraised : (c.step .fire).1.trigger.isRaised = true := by
            rw [step_isRaised, Op.raises, Bool.or_true]
          rw [if_pos (hfirst.mpr (.inl rfl)), logs, logs_of_raised hraised, List.append_nil]
          show c.trigger.fireLog = _
          rw [armed]
          rfl
      | drop =>
          have hraised : (c.step .drop).1.trigger.isRaised = true := by
            rw [step_isRaised, Op.raises, Bool.or_true]
          rw [if_neg (by simp [hfirst, Op.raises]), logs, logs_of_raised hraised]
          rfl
      | clone =>
          simp only [hfirst, reduceCtorEq, false_or, Op.raises, true_and]
          exact ih armed
      | check =>
          simp only [hfirst, reduceCtorEq, false_or, Op.raises, true_and]
          exact ih armed

end SignalChannel

/-! ## The closing of a channel -/

/-- A channel for messages as its receiving end finds it: how many senders there are, and how many
messages wait. -/
structure Conduit where
  senders : Nat
  waiting : Nat

namespace Conduit

/-- What comes of an attempt to receive a message that does not wait for one. -/
inductive Received where
  | message
  | nothing
  | disconnected
deriving DecidableEq

/-- An attempt to receive: the first message that waits is taken out of the channel, and where none
does it matters whether one can still come. -/
def tryReceive (c : Conduit) : Conduit × Received :=
  if 0 < c.waiting then ({ c with waiting := c.waiting - 1 }, .message)
  else if 0 < c.senders then (c, .nothing)
  else (c, .disconnected)

def dropSender (c : Conduit) : Conduit := { c with senders := c.senders - 1 }

end Conduit

/-- A trigger that holds the sender of a channel until it is fired or dropped, and tokens that share
the receiver. -/
structure SignalLine where
  conduit : Conduit := ⟨1, 0⟩
  /-- whether the trigger has given up its sender, as long as it exists -/
  trigger : Option Bool := some false
  tokens : Nat := 1

namespace SignalLine

open SignalChannel (Op)

/-- The channel without the trigger's sender, if it is the trigger that still holds it. -/
def closed (l : SignalLine) : Conduit :=
  if l.trigger = some false then l.conduit.dropSender else l.conduit

/-- One operation: the line after it, and what it logs. -/
def step (l : SignalLine) : Op → SignalLine × List LogRecord
  | .fire =>
    ({ l with trigger := l.trigger.map fun _ => true, conduit := l.closed },
      if l.trigger = some false then [Trigger.record] else [])
  | .drop => ({ l with trigger := none, conduit := l.closed }, [])
  | .clone => ({ l with tokens := l.tokens + 1 }, [])
  | .check => ({ l with conduit := l.conduit.tryReceive.1 }, [])

/-- What a token makes of an attempt to receive. -/
def reading (l : SignalLine) : Bool :=
  match l.conduit.tryReceive.2 with
  | .message | .disconnected => true
  | .nothing => false

/-- The line after operations. -/
def after (l : SignalLine) (ops : List Op) : SignalLine :=
  ops.foldl (fun l op => (l.step op).1) l

/-- The line is one for a signal: it has as many tokens, nothing waits in it, and its sender is gone
exactly if the signal is raised. -/
structure ClosesFor (l : SignalLine) (c : SignalChannel) : Prop where
  conduit : l.conduit = ⟨if c.trigger.isRaised then 0 else 1, 0⟩
  trigger : l.trigger = c.trigger.isFired?
  tokens : l.tokens = c.tokens

variable {l : SignalLine} {c : SignalChannel}

/-- A token reads whether the signal is raised. -/
theorem ClosesFor.reading_eq (h : l.ClosesFor c) : l.reading = c.trigger.isRaised := by
  unfold reading Conduit.tryReceive
  rw [h.conduit]
  cases c.trigger.isRaised <;> rfl

/-- An operation does the same to both, and logs the same. -/
theorem ClosesFor.step (h : l.ClosesFor c) (op : Op) :
    (l.step op).1.ClosesFor (c.step op).1 ∧ (l.step op).2 = (c.step op).2 := by
  have hline : l = ⟨⟨if c.trigger.isRaised then 0 else 1, 0⟩, c.trigger.isFired?, c.tokens⟩ := by
    rw [← h.conduit, ← h.trigger, ← h.tokens]
  rw [hline]
  obtain ⟨trigger, tokens⟩ := c
  cases op <;> cases trigger <;> exact ⟨⟨rfl, rfl, rfl⟩, rfl⟩

theorem ClosesFor.after (h : l.ClosesFor c) (ops : List Op) :
    (l.after ops).ClosesFor (c.after ops) := by
  induction ops generalizing l c with
  | nil => exact h
  | cons op ops ih => exact ih (h.step op).1

/-- **A signal is the closing of a channel.** -/
theorem after_closesFor (ops : List Op) :
    (({} : SignalLine).after ops).ClosesFor (({} : SignalChannel).after ops) :=
  ClosesFor.after ⟨rfl, rfl, rfl⟩ ops

end SignalLine

end Gatehouse
