import Gatehouse.Config.Basic
import Gatehouse.Proofs.Admission.RuleInfluence
import Gatehouse.Proofs.Shutdown.Latch
/-!
# A pipeline once the signal is raised

Whatever else a session does, of its operations only those on the signal bear on it, and a
screening looks at it as a token does (`Session.run_channel`). Once it is raised, a screening
rejects its peer and is as if it had not been (`Session.step_screen_raised`), so all later
screenings can be left out of a run (`Session.run_without_screenings`).
-/

namespace Gatehouse

/-! ## Other records -/

/-- A text that starts otherwise is not the one that a fired trigger logs. -/
theorem Trigger.record_ne {start : String} (other : ¬ start.toList <+: Trigger.record.text.toList)
    (level : Level) (rest : String) : Trigger.record ≠ ⟨level, start ++ rest⟩ := by
  intro same
  apply other
  rw [same, String.toList_append]
  exact List.prefix_append _ _

theorem HostRegistry.record_not_mem_lookupLog (r : HostRegistry) (now : Instant) :
    Trigger.record ∉ r.lookupLog now := by
  unfold lookupLog
  dsimp only
  split
  · rw [List.mem_singleton, String.append_assoc]
    exact Trigger.record_ne (by decide) _ _
  · exact List.not_mem_nil

/-- The rule of access never logs what a fired trigger does. -/
def AccessRule.SparesRecord (rule : AccessRule) : Prop :=
  ∀ peer, Trigger.record ∉ (rule peer).log

theorem AccessList.rule_sparesRecord (acl : AccessList) : acl.rule.SparesRecord := by
  have hhit : ∀ list net peer, Trigger.record ≠ hit list net peer := by
    intro list net peer
    rw [hit, String.append_assoc, String.append_assoc, String.append_assoc, String.append_assoc]
    exact Trigger.record_ne (by decide) _ _
  intro peer
  unfold rule log
  dsimp only
  split
  · simpa using hhit _ _ _
  · split
    · simpa using hhit _ _ _
    · exact List.not_mem_nil

theorem Pipeline.record_not_mem_screen {p : Pipeline} (spares : p.rule.SparesRecord)
    (signaled : Bool) (peer : Endpoint) (now : Instant) :
    Trigger.record ∉ (p.screen signaled peer now).log := by
  have hlookup := p.perHost.record_not_mem_lookupLog now
  rcases p.screening_reach signaled peer now with
    rfl | ⟨rfl, global⟩ | ⟨rfl, global, host⟩ | ⟨rfl, global, host⟩
  · exact List.not_mem_nil
  · rw [screen_global_refused peer global]
    exact List.not_mem_nil
  · rw [screen_host_refused global host]
    exact hlookup
  · rw [screen_judged global host, List.mem_append, not_or]
    exact ⟨hlookup, spares peer⟩

namespace Session

/-- What an operation does to the signal, if it has to do with it. -/
def Op.signal? : Op → Option SignalChannel.Op
  | .signal op => some op
  | .screen .. => some .check
  | .evictIdle _ | .takeGlobal _ | .takeHost .. => none

def Op.isScreening : Op → Bool
  | .screen .. => true
  | .signal _ | .evictIdle _ | .takeGlobal _ | .takeHost .. => false

/-- What a run does to the signal. -/
def signals (ops : List Op) : List SignalChannel.Op := ops.filterMap Op.signal?

/-- All that a run logs, in order. -/
def fullLog (s : Session) (ops : List Op) : List LogRecord :=
  (s.steps ops).flatMap Step.log

/-- What the operations on the signal log in a run, in order. -/
def signalLog (s : Session) : List Op → List LogRecord
  | [] => []
  | .signal op :: ops => (s.step (.signal op)).log ++ (s.step (.signal op)).session.signalLog ops
  | op :: ops => (s.step op).session.signalLog ops

/-- Among these operations the signal is raised. -/
def Raised (ops : List Op) : Prop := .signal .fire ∈ ops ∨ .signal .drop ∈ ops

/-- Among these operations the trigger is fired, and not dropped before that. -/
def FiredFirst (ops : List Op) : Prop :=
  ∃ before later, ops = before ++ .signal .fire :: later ∧ .signal .drop ∉ before

theorem signals_cons (op : Op) (ops : List Op) :
    signals (op :: ops) = op.signal?.toList ++ signals ops := by
  unfold signals
  rw [List.filterMap_cons]
  cases op.signal? <;> rfl

theorem run_append (s : Session) (ops later : List Op) :
    s.run (ops ++ later) = (s.run ops).run later :=
  List.foldl_append

/-- What is done to the signal, other than to look at it, is what the operations on it do. -/
theorem mem_signals {ops : List Op} {op : SignalChannel.Op} (acts : op ≠ .check) :
    op ∈ signals ops ↔ .signal op ∈ ops := by
  rw [signals, List.mem_filterMap]
  constructor
  · rintro ⟨cause, mem, hcause⟩
    cases cause with
    | signal other => exact Option.some.inj hcause ▸ mem
    | screen peer now => exact absurd (Option.some.inj hcause).symm acts
    | evictIdle now => cases hcause
    | takeGlobal now => cases hcause
    | takeHost host now => cases hcause
  · intro mem
    exact ⟨_, mem, rfl⟩

theorem count_clone_signals (ops : List Op) :
    (signals ops).count .clone = ops.count (.signal .clone) := by
  rw [signals, List.count_filterMap]
  refine List.countP_congr ?_
  intro op _
  cases op with
  | signal op => cases op <;> decide
  | screen peer now => simp [Op.signal?]
  | evictIdle now => simp [Op.signal?]
  | takeGlobal now => simp [Op.signal?]
  | takeHost host now => simp [Op.signal?]

theorem raised_signals_iff (ops : List Op) : SignalChannel.Raised (signals ops) ↔ Raised ops :=
  or_congr (mem_signals (by decide)) (mem_signals (by decide))

theorem firedFirst_signals_iff (ops : List Op) :
    SignalChannel.FiredFirst (signals ops) ↔ FiredFirst ops := by
  constructor
  · rintro ⟨quiet, rest, cut, undropped⟩
    obtain ⟨before, tail, rfl, rfl, htail⟩ := List.filterMap_eq_append_iff.mp cut
    obtain ⟨between, cause, later, rfl, idle, hcause, -⟩ := List.filterMap_eq_cons_iff.mp htail
    obtain rfl : cause = .signal .fire := by
      cases cause <;> simp_all [Op.signal?]
    refine ⟨before ++ between, later, (List.append_assoc _ _ _).symm, ?_⟩
    rw [List.mem_append, not_or]
    constructor
    · intro dropped
      exact undropped ((mem_signals (by decide)).mpr dropped)
    · intro dropped
      cases idle _ dropped
  · rintro ⟨before, later, rfl, undropped⟩
    refine ⟨signals before, signals later, ?_, ?_⟩
    · exact List.filterMap_append
    · rwa [mem_signals (by decide)]

instance (ops : List Op) : Decidable (FiredFirst ops) :=
  decidable_of_iff _ (firedFirst_signals_iff ops)

/-! ## The signal in a run -/

theorem step_channel (s : Session) (op : Op) :
    (s.step op).session.channel = s.channel.after op.signal?.toList := by
  cases op with
  | signal op => rfl
  | screen peer now => rfl
  | evictIdle now => rfl
  | takeGlobal now => rfl
  | takeHost host now => rfl

/-- The signal is as the operations on it have left it. -/
theorem run_channel (s : Session) (ops : List Op) :
    (s.run ops).channel = s.channel.after (signals ops) := by
  induction ops generalizing s with
  | nil => rfl
  | cons op ops ih =>
      rw [run_cons, ih, step_channel, signals_cons, SignalChannel.after_append]

theorem signalLog_eq_logs (s : Session) (ops : List Op) :
    s.signalLog ops = s.channel.logs (signals ops) := by
  induction ops generalizing s with
  | nil => rfl
  | cons op ops ih =>
      rw [signals_cons, SignalChannel.logs_append, ← step_channel, ← ih]
      cases op with
      | signal op => simp only [signalLog, step, Op.signal?, SignalChannel.logs, Option.toList_some,
          List.append_nil]
      | screen peer now => rfl
      | evictIdle now => rfl
      | takeGlobal now => rfl
      | takeHost host now => rfl

/-- Operations that are not on the signal do not log what a fired trigger does. -/
theorem step_count_record {s : Session} (spares : s.pipeline.rule.SparesRecord) (op : Op) :
    (s.step op).log.count Trigger.record =
      (s.channel.logs op.signal?.toList).count Trigger.record := by
  cases op with
  | signal op =>
      show (s.channel.step op).2.count _ = ((s.channel.step op).2 ++ []).count _
      rw [List.append_nil]
  | screen peer now =>
      exact List.count_eq_zero.mpr (Pipeline.record_not_mem_screen spares _ peer now)
  | evictIdle now => rfl
  | takeGlobal now => rfl
  | takeHost host now =>
      exact List.count_eq_zero.mpr (s.pipeline.perHost.record_not_mem_lookupLog now)

theorem fullLog_count_record {s : Session} (spares : s.pipeline.rule.SparesRecord)
    (ops : List Op) :
    (s.fullLog ops).count Trigger.record =
      (s.channel.logs (signals ops)).count Trigger.record := by
  induction ops generalizing s with
  | nil => rfl
  | cons op ops ih =>
      have hlater : (s.step op).session.pipeline.rule.SparesRecord := by
        rw [step_rule]
        exact spares
      have hlog : s.fullLog (op :: ops) = (s.step op).log ++ (s.step op).session.fullLog ops := rfl
      rw [hlog, List.count_append, step_count_record spares, ih hlater, step_channel, signals_cons,
        SignalChannel.logs_append, List.count_append]

/-! ## Looking at the signal -/

/-- The session with one token more. -/
def withToken (s : Session) : Session :=
  { s with channel := { s.channel with tokens := s.channel.tokens + 1 } }

/-- No operation does anything else for there being one token more. -/
theorem step_withToken (s : Session) (op : Op) :
    (s.withToken.step op).session = (s.step op).session.withToken := by
  cases op with
  | signal op => cases op <;> rfl
  | screen peer now => rfl
  | evictIdle now => rfl
  | takeGlobal now => rfl
  | takeHost host now => rfl

theorem run_withToken (s : Session) (ops : List Op) :
    s.withToken.run ops = (s.run ops).withToken := by
  induction ops generalizing s with
  | nil => rfl
  | cons op ops ih => rw [run_cons, step_withToken, ih, run_cons]

/-! ## Once it is raised -/

/-- A screening rejects its peer, and nothing else comes of it. -/
theorem step_screen_raised {s : Session} (raised : s.channel.trigger.isRaised = true)
    (peer : Endpoint) (now : Instant) :
    s.step (.screen peer now) = { session := s, reply := .verdict (.rejected .shuttingDown) } := by
  rw [step, raised, Pipeline.screen_signaled]
  rfl

/-- The signal is the only reason to reject a peer as when shutting down. -/
theorem screen_shuttingDown_iff (s : Session) (peer : Endpoint) (now : Instant) :
    (s.step (.screen peer now)).reply = .verdict (.rejected .shuttingDown) ↔
      s.channel.trigger.isRaised = true := by
  constructor
  · intro rejected
    have hverdict : (s.pipeline.screen s.channel.trigger.isRaised peer now).verdict =
        .rejected .shuttingDown := Reply.verdict.inj rejected
    rcases s.pipeline.screening_reach s.channel.trigger.isRaised peer now with
      raised | ⟨armed, global⟩ | ⟨armed, global, host⟩ | ⟨armed, global, host⟩
    · exact raised
    all_goals rw [armed] at hverdict
    · rw [Pipeline.screen_global_refused peer global] at hverdict
      cases hverdict
    · rw [Pipeline.screen_host_refused global host] at hverdict
      cases hverdict
    · rw [Pipeline.screen_judged global host] at hverdict
      cases hallowed : (s.pipeline.rule peer).allowed <;> simp [hallowed] at hverdict
  · intro raised
    rw [step_screen_raised raised]

/-- The signal stays raised. -/
theorem step_isRaised {s : Session} (raised : s.channel.trigger.isRaised = true) (op : Op) :
    (s.step op).session.channel.trigger.isRaised = true := by
  rw [step_channel, SignalChannel.after_isRaised, raised, Bool.true_or]

/-- A run comes to what it would come to without its screenings. -/
theorem run_without_screenings {s : Session} (raised : s.channel.trigger.isRaised = true)
    (ops : List Op) : s.run ops = s.run (ops.filter fun op => !op.isScreening) := by
  induction ops generalizing s with
  | nil => rfl
  | cons op ops ih =>
      have hlater := ih (step_isRaised raised op)
      cases op with
      | screen peer now =>
          rw [step_screen_raised raised] at hlater
          rw [run_cons, step_screen_raised raised]
          exact hlater
      | signal op => exact hlater
      | evictIdle now => exact hlater
      | takeGlobal now => exact hlater
      | takeHost host now => exact hlater

/-- The rule of access is not asked any more. -/
theorem run_ruleCalls_raised {s : Session} (raised : s.channel.trigger.isRaised = true)
    (ops : List Op) : (s.run ops).ruleCalls = s.ruleCalls := by
  induction ops generalizing s with
  | nil => rfl
  | cons op ops ih =>
      rw [run_cons, ih (step_isRaised raised op)]
      cases op with
      | screen peer now => rw [step_screen_raised raised]
      | signal op => rfl
      | evictIdle now => rfl
      | takeGlobal now => rfl
      | takeHost host now => rfl

/-- What becomes of a new signal and of a pipeline that has a token of it. -/
structure Latched (s : Session) (ops : List Op) : Prop where
  /-- A token reads what comes of an attempt to receive from the channel whose sender the trigger
  holds. -/
  reading :
    let line := ({} : SignalLine).after (signals ops)
    ((s.run ops).step (.signal .check)).reply =
        .readings (List.replicate line.tokens line.reading) ∧
      line.tokens = 1 + ops.count (.signal .clone) ∧ (line.reading = true ↔ Raised ops)
  /-- Neither a check nor a new token makes a difference to what comes later. -/
  looking : ∀ later,
    s.run (ops ++ .signal .check :: later) = s.run (ops ++ later) ∧
    s.run (ops ++ .signal .clone :: later) = (s.run (ops ++ later)).withToken
  /-- That the trigger was fired is logged once, if it was fired before it was dropped. -/
  signalLog : s.signalLog ops = if FiredFirst ops then [Trigger.record] else []
  /-- Nothing else logs it, if the rule of access does not. -/
  fullLog : s.pipeline.rule.SparesRecord →
    (s.fullLog ops).count Trigger.record = if FiredFirst ops then 1 else 0
  /-- A peer is rejected because of the signal if and only if it is raised. -/
  verdict : ∀ peer now,
    ((s.run ops).step (.screen peer now)).reply = .verdict (.rejected .shuttingDown) ↔ Raised ops
  /-- From then on, whatever is done, -/
  silent : Raised ops → ∀ later,
    let after := s.run (ops ++ later)
    /- a screening does nothing but reject its peer, -/
    (∀ peer now, after.step (.screen peer now) =
      { session := after, reply := .verdict (.rejected .shuttingDown) }) ∧
    /- all screenings since might as well have been left out, -/
    after = s.run (ops ++ later.filter fun op => !op.isScreening) ∧
    /- and the rule of access is not asked. -/
    after.ruleCalls = (s.run ops).ruleCalls

/-- **The signal is a latch, and it silences the pipeline**, in whatever state the pipeline is when
the signal is made and in whatever order the two are used. -/
theorem signal_is_a_latch (p : Pipeline) (ruleCalls : Nat) (ops : List Op) :
    Latched { pipeline := p, ruleCalls } ops := by
  -- The new signal is the closing of a channel, by the operations on it and by its trigger alone.
  have hchannel : (Session.run { pipeline := p, ruleCalls } ops).channel =
      ({} : SignalChannel).after (signals ops) := run_channel _ ops
  have hclosed := SignalLine.after_closesFor (signals ops)
  have hraised : (({} : SignalChannel).after (signals ops)).trigger.isRaised = true ↔
      Raised ops := by
    rw [SignalChannel.after_isRaised, ← raised_signals_iff, SignalChannel.raised_iff]
    rfl
  have hlog : ({} : SignalChannel).logs (signals ops) =
      if FiredFirst ops then [Trigger.record] else [] := by
    rw [SignalChannel.logs_eq rfl]
    exact if_congr (firedFirst_signals_iff ops) rfl rfl
  constructor
  case reading =>
    refine ⟨?_, ?_, ?_⟩
    · rw [hclosed.tokens, hclosed.reading_eq, ← hchannel]
      rfl
    · rw [hclosed.tokens, SignalChannel.after_tokens, count_clone_signals]
    · rw [hclosed.reading_eq, hraised]
  case looking =>
    intro later
    rw [run_append, run_append, run_append]
    exact ⟨rfl, run_withToken _ later⟩
  case signalLog => exact (signalLog_eq_logs _ ops).trans hlog
  case fullLog =>
    intro spares
    refine (fullLog_count_record spares ops).trans ?_
    rw [hlog]
    split <;> rfl
  case verdict =>
    intro peer now
    rw [screen_shuttingDown_iff, hchannel, hraised]
  case silent =>
    intro raised later after
    have hnow := hraised.mpr raised
    rw [← hchannel] at hnow
    have hafter : after = (Session.run { pipeline := p, ruleCalls } ops).run later :=
      run_append _ ops later
    refine ⟨?_, ?_, ?_⟩
    · refine step_screen_raised ?_
      rw [hafter, run_channel, SignalChannel.after_isRaised, hnow, Bool.true_or]
    · rw [hafter, run_append, ← run_without_screenings hnow]
    · rw [hafter, run_ruleCalls_raised hnow]

/-- A trigger that is fired after a connection was let in, and dropped after that. -/
theorem signal_is_a_latch_when_fired :
    let p := Pipeline.create RateLimits.default.global RateLimits.default.perHost
      RateLimits.default.hostIdleTimeout AccessList.any.rule .origin
    let s : Session := { pipeline := p }
    let peer := Endpoint.v4 0xc0a80001 50000
    let ops : List Op :=
      [.screen peer .origin, .signal .clone, .signal .fire, .signal .drop, .evictIdle .origin]
    Raised ops ∧ FiredFirst ops ∧ p.rule.SparesRecord ∧
    (s.fullLog ops).count Trigger.record = 1 ∧
    ((s.run ops).step (.screen peer .origin)).reply = .verdict (.rejected .shuttingDown) ∧
    (s.run (ops ++ [.screen peer .origin])).ruleCalls = (s.run ops).ruleCalls := by
  intro p s peer ops
  have raised : Raised ops := .inl (by decide)
  have firedFirst : FiredFirst ops := by decide
  have spares : p.rule.SparesRecord := AccessList.rule_sparesRecord _
  have latched := signal_is_a_latch p 0 ops
  refine ⟨raised, firedFirst, spares, ?_, (latched.verdict peer .origin).mpr raised, ?_⟩
  · exact (latched.fullLog spares).trans (if_pos firedFirst)
  · exact (latched.silent raised [.screen peer .origin]).2.2

end Session

end Gatehouse
