import Gatehouse.Proofs.Admission.Accounting
/-!
# How far the rule of access reaches

The rule is asked last, and nothing that it says is given back to the limiters. A pipeline under
another rule (`Pipeline.withRule`) is therefore left by a screening as it would be left under its
own, but for the rule (`Pipeline.screen_withRule`), and what holds for one screening holds for
every operation of a session (`step_withRule`) and for every run of them (`run_withRule`).
Verdicts under two rules differ only where the rules themselves do (`Verdict.DiffersByRule`).
-/

namespace Gatehouse

/-- The verdicts on one peer under two rules of access part: the first rule lets the peer in and
the second keeps it out, or the other way round. -/
inductive Verdict.DiffersByRule (rule rule' : AccessRule) (peer : Endpoint) :
    Verdict → Verdict → Prop
  | denied (first : (rule peer).allowed = true) (second : (rule' peer).allowed = false) :
      DiffersByRule rule rule' peer .admitted (.rejected .accessDenied)
  | admitted (first : (rule peer).allowed = false) (second : (rule' peer).allowed = true) :
      DiffersByRule rule rule' peer (.rejected .accessDenied) .admitted

namespace Pipeline

/-- The pipeline with another rule of access. -/
def withRule (p : Pipeline) (rule : AccessRule) : Pipeline := { p with rule }

variable (p : Pipeline) (rule rule' : AccessRule) (signaled : Bool) (peer : Endpoint)
  (now : Instant)

/-- A screening under another rule does to the limiters what it does under this one, and gets as
far as the rule for the same connections. -/
theorem screen_withRule :
    ((p.withRule rule).screen signaled peer now).pipeline =
      (p.screen signaled peer now).pipeline.withRule rule ∧
    ((p.withRule rule).screen signaled peer now).ruleConsulted =
      (p.screen signaled peer now).ruleConsulted := by
  rcases p.screening_reach signaled peer now with
    rfl | ⟨rfl, global⟩ | ⟨rfl, global, host⟩ | ⟨rfl, global, host⟩
  · rw [screen_signaled, screen_signaled]
    exact ⟨rfl, rfl⟩
  · have global' : (p.withRule rule).global.hasToken now = false := global
    rw [screen_global_refused peer global, screen_global_refused peer global']
    exact ⟨rfl, rfl⟩
  · have global' : (p.withRule rule).global.hasToken now = true := global
    have host' : (p.withRule rule).perHost.hasToken peer.hostKey now = false := host
    rw [screen_host_refused global host, screen_host_refused global' host']
    exact ⟨rfl, rfl⟩
  · have global' : (p.withRule rule).global.hasToken now = true := global
    have host' : (p.withRule rule).perHost.hasToken peer.hostKey now = true := host
    rw [screen_judged global host, screen_judged global' host']
    exact ⟨rfl, rfl⟩

/-- Only a connection that reaches the rule can get another verdict, and only from another
answer of the rule. -/
theorem verdict_withRule :
    let verdict := ((p.withRule rule).screen signaled peer now).verdict
    let verdict' := ((p.withRule rule').screen signaled peer now).verdict
    verdict = verdict' ∨ Verdict.DiffersByRule rule rule' peer verdict verdict' := by
  intro verdict verdict'
  have hverdict : verdict = CheckResult.verdict ((p.withRule rule).checks signaled peer now) :=
    screen_verdict _ _ _ _
  have hverdict' : verdict' = CheckResult.verdict ((p.withRule rule').checks signaled peer now) :=
    screen_verdict _ _ _ _
  rw [checks_eq] at hverdict hverdict'
  rw [hverdict, hverdict']
  -- All checks but the last are those of the limiters, which the two pipelines share.
  simp only [withRule]
  cases signaled with
  | true => exact .inl rfl
  | false =>
      cases p.global.hasToken now with
      | false => exact .inl rfl
      | true =>
          cases p.perHost.hasToken peer.hostKey now with
          | false => exact .inl rfl
          | true =>
              cases hfirst : (rule peer).allowed <;> cases hsecond : (rule' peer).allowed
              · exact .inl rfl
              · exact .inr (.admitted hfirst hsecond)
              · exact .inr (.denied hfirst hsecond)
              · exact .inl rfl

end Pipeline

namespace Session

/-- The session with another rule of access. -/
def withRule (s : Session) (rule : AccessRule) : Session :=
  { s with pipeline := s.pipeline.withRule rule }

/-- What an operation answers in two sessions, each with its own rule of access: the same, except
that a screening may tell the rules apart. -/
def AnswersAlike (rule rule' : AccessRule) (op : Op) (reply reply' : Reply) : Prop :=
  match op with
  | .screen peer _ =>
      ∃ v w, reply = .verdict v ∧ reply' = .verdict w ∧
        (v = w ∨ Verdict.DiffersByRule rule rule' peer v w)
  | .signal _ | .evictIdle _ | .takeGlobal _ | .takeHost .. => reply = reply'

/-! ## One operation -/

theorem step_withRule (s : Session) (rule : AccessRule) (op : Op) :
    ((s.withRule rule).step op).session = (s.step op).session.withRule rule := by
  cases op with
  | signal op => rfl
  | evictIdle now => rfl
  | takeGlobal now => rfl
  | takeHost host now => rfl
  | screen peer now =>
      obtain ⟨hpipeline, hconsulted⟩ :=
        s.pipeline.screen_withRule rule s.channel.trigger.isRaised peer now
      simp only [step, withRule, hpipeline, hconsulted]

/-- No operation changes the rule. -/
theorem step_rule (s : Session) (op : Op) :
    (s.step op).session.pipeline.rule = s.pipeline.rule :=
  congrArg (fun after => after.pipeline.rule) (step_withRule s s.pipeline.rule op)

theorem step_answersAlike (s : Session) (rule rule' : AccessRule) (op : Op) :
    AnswersAlike rule rule' op ((s.withRule rule).step op).reply
      ((s.withRule rule').step op).reply := by
  cases op with
  | signal op => rfl
  | evictIdle now => rfl
  | takeGlobal now => rfl
  | takeHost host now => rfl
  | screen peer now =>
      exact ⟨_, _, rfl, rfl,
        s.pipeline.verdict_withRule rule rule' s.channel.trigger.isRaised peer now⟩

/-! ## Runs -/

theorem run_withRule (s : Session) (rule : AccessRule) (ops : List Op) :
    (s.withRule rule).run ops = (s.run ops).withRule rule := by
  induction ops generalizing s with
  | nil => rfl
  | cons op ops ih => rw [run_cons, step_withRule, ih, run_cons]

/-- **The rule of access has no influence on the limiters.** Take two pipelines made alike but for
their rules, put the same operations to both, and then one more. Both are left with the same
global bucket, the same hosts and the same signal, and their rules have been asked equally often.
The last operation was answered alike; only if it was a screening that the two rules judge
differently, the one pipeline admits the peer and the other denies it access. -/
theorem rule_has_no_influence_on_limits (global perHost : Rate) (timeout : Duration)
    (start : Instant) (rule rule' : AccessRule) (ops : List Op) (op : Op) :
    let first : Session := { pipeline := .create global perHost timeout rule start }
    let second : Session := { pipeline := .create global perHost timeout rule' start }
    let step := (first.run ops).step op
    let step' := (second.run ops).step op
    step.session.pipeline.global = step'.session.pipeline.global ∧
    step.session.pipeline.perHost = step'.session.pipeline.perHost ∧
    step.session.channel = step'.session.channel ∧
    step.session.ruleCalls = step'.session.ruleCalls ∧
    AnswersAlike rule rule' op step.reply step'.reply := by
  intro first second step step'
  -- Both sessions are one session under two rules, and stay so.
  have hfirst : first.run ops = (first.run ops).withRule rule := run_withRule first rule ops
  have hsecond : second.run ops = (first.run ops).withRule rule' := run_withRule first rule' ops
  have hsession : step.session = ((first.run ops).step op).session.withRule rule := by
    rw [← step_withRule, ← hfirst]
  have hsession' : step'.session = ((first.run ops).step op).session.withRule rule' := by
    rw [← step_withRule, ← hsecond]
  rw [hsession, hsession']
  refine ⟨rfl, rfl, rfl, rfl, ?_⟩
  have hreplies := step_answersAlike (first.run ops) rule rule' op
  rw [← hfirst, ← hsecond] at hreplies
  exact hreplies

end Session

end Gatehouse
