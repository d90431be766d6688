import Gatehouse.Admission.Session
import Gatehouse.Proofs.Admission.Screening
/-!
# What a session with a pipeline costs

Connections are screened between any other operations: the signal is raised, idle hosts are
dropped, the limiters are used directly. A session keeps a book of the calls that its global
limiter gets, by whom and with which answer (`Session.globalCalls`), and the book is honest: the
limiter's own bucket, given these calls and no others, answers just so and ends in the same state
(`run_global`). One operation adds to the rule's calls and to the book what
its verdict says (`step_ruleCalls`, `step_taken`), and by induction so does a run.
-/

namespace Gatehouse.Session

/-- The verdict in a reply, if the reply is one. -/
def Reply.verdict? : Reply → Option Verdict
  | .verdict v => some v
  | .readings _ | .evicted _ | .granted _ => none

/-- The verdicts that a run of operations gives, in order. -/
def verdicts (s : Session) (ops : List Op) : List Verdict :=
  (s.steps ops).filterMap fun step => step.reply.verdict?

/-- A call of the global limiter. -/
structure GlobalCall where
  now : Instant
  /-- made to screen a connection, and not from outside -/
  byScreening : Bool
  granted : Bool
deriving DecidableEq

/-- The call of the global limiter that an operation makes, if it makes one. A screening makes it
if it gets as far as that check. -/
def globalCall? (s : Session) : Op → Option GlobalCall
  | .screen peer now =>
      let checks := s.pipeline.checks s.channel.trigger.isRaised peer now
      (CheckResult.made? checks .globalRateLimit).map fun check => ⟨now, true, check.passed⟩
  | .takeGlobal now => some ⟨now, false, (s.pipeline.global.tryTake now).2⟩
  | .signal _ | .evictIdle _ | .takeHost .. => none

/-- The calls of the global limiter in a run, in order. -/
def globalCalls (s : Session) : List Op → List GlobalCall
  | [] => []
  | op :: ops => (s.globalCall? op).toList ++ (s.step op).session.globalCalls ops

/-- Tokens that screenings took from the global limiter. -/
def takenByScreening (calls : List GlobalCall) : Nat :=
  calls.countP fun call => call.byScreening && call.granted

/-- What a verdict says that its screening took from the global limiter. -/
def tokensFor : Verdict → Nat
  | .admitted | .rejected .accessDenied | .rejected .hostRateLimit => 1
  | .rejected .globalRateLimit | .rejected .shuttingDown => 0

@[simp] theorem run_nil (s : Session) : s.run [] = s := rfl

@[simp] theorem run_cons (s : Session) (op : Op) (ops : List Op) :
    s.run (op :: ops) = (s.step op).session.run ops := rfl

theorem verdicts_cons (s : Session) (op : Op) (ops : List Op) :
    s.verdicts (op :: ops) =
      (s.step op).reply.verdict?.toList ++ (s.step op).session.verdicts ops := by
  unfold verdicts
  rw [steps, List.filterMap_cons]
  cases (s.step op).reply.verdict? <;> rfl

/-! ## One operation -/

/-- The rule is asked once for a verdict that is its own, and not otherwise. -/
theorem step_ruleCalls (s : Session) (op : Op) :
    (s.step op).session.ruleCalls = s.ruleCalls +
      (s.step op).reply.verdict?.toList.count .admitted +
      (s.step op).reply.verdict?.toList.count (.rejected .accessDenied) := by
  cases op with
  | signal op => rfl
  | evictIdle now => rfl
  | takeGlobal now => rfl
  | takeHost host now => rfl
  | screen peer now =>
      have heffect := s.pipeline.screen_effect s.channel.trigger.isRaised peer now
      simp only [step, Reply.verdict?]
      generalize s.pipeline.screen s.channel.trigger.isRaised peer now = screening at heffect ⊢
      cases hv : screening.verdict with
      | admitted => simp_all [Pipeline.Effect]
      | rejected why => cases why <;> simp_all [Pipeline.Effect]

/-- An operation takes from the global limiter, by a screening, what its verdict says. -/
theorem step_taken (s : Session) (op : Op) :
    takenByScreening (s.globalCall? op).toList =
      ((s.step op).reply.verdict?.toList.map tokensFor).sum := by
  cases op with
  | signal op => rfl
  | evictIdle now => rfl
  | takeGlobal now => rfl
  | takeHost host now => rfl
  | screen peer now =>
      simp only [globalCall?, step, Reply.verdict?, Pipeline.checks_eq, Pipeline.screen_verdict]
      cases s.channel.trigger.isRaised <;> cases s.pipeline.global.hasToken now <;>
        cases s.pipeline.perHost.hasToken peer.hostKey now <;>
        cases (s.pipeline.rule peer).allowed <;> rfl

/-- The call of the global limiter that a screening makes unless the signal stops it. -/
theorem globalCall?_screen (s : Session) (peer : Endpoint) (now : Instant) :
    s.globalCall? (.screen peer now) =
      if s.channel.trigger.isRaised then none
      else some ⟨now, true, s.pipeline.global.hasToken now⟩ := by
  simp only [globalCall?, Pipeline.checks_eq]
  cases s.channel.trigger.isRaised <;> rfl

/-- What a call does to a limiter whose bucket gets it. -/
theorem global_afterCall (g : GlobalLimiter) (now : Instant) :
    g.tryTake now =
      ({ g with bucket := g.bucket.afterCalls [now] }, g.hasToken now) ∧
    [g.hasToken now] = g.bucket.verdicts [now] := by
  simp only [GlobalLimiter.tryTake, TokenBucket.afterCalls_cons, TokenBucket.afterCalls_nil,
    TokenBucket.verdicts, TokenBucket.tryTakeOne_eq, GlobalLimiter.hasToken]
  cases g.bucket.hasToken now <;> exact ⟨rfl, rfl⟩

/-- The global limiter gets the call in the book, and nothing else happens to it. -/
theorem step_global (s : Session) (op : Op) :
    let calls := (s.globalCall? op).toList
    (s.step op).session.pipeline.global =
      { s.pipeline.global with
        bucket := s.pipeline.global.bucket.afterCalls (calls.map (·.now)) } ∧
    calls.map (·.granted) = s.pipeline.global.bucket.verdicts (calls.map (·.now)) := by
  cases op with
  | signal op => exact ⟨rfl, rfl⟩
  | evictIdle now => exact ⟨rfl, rfl⟩
  | takeHost host now => exact ⟨rfl, rfl⟩
  | takeGlobal now => exact ⟨rfl, rfl⟩
  | screen peer now =>
      obtain ⟨hcall, hanswer⟩ := global_afterCall s.pipeline.global now
      rw [globalCall?_screen]
      simp only [step]
      rcases s.pipeline.screening_reach s.channel.trigger.isRaised peer now with
        raised | ⟨raised, global⟩ | ⟨raised, global, host⟩ | ⟨raised, global, host⟩
      · rw [raised]
        exact ⟨rfl, rfl⟩
      all_goals
        rw [GlobalLimiter.tryTake_eq, global] at hcall
        rw [raised]
        refine ⟨?_, hanswer⟩
      · rw [Pipeline.screen_global_refused peer global]
        exact congrArg Prod.fst hcall
      · rw [Pipeline.screen_host_refused global host]
        exact congrArg Prod.fst hcall
      · rw [Pipeline.screen_judged global host]
        exact congrArg Prod.fst hcall

/-! ## Runs -/

theorem run_ruleCalls (s : Session) (ops : List Op) :
    (s.run ops).ruleCalls = s.ruleCalls + (s.verdicts ops).count .admitted +
      (s.verdicts ops).count (.rejected .accessDenied) := by
  induction ops generalizing s with
  | nil => rfl
  | cons op ops ih =>
      have hstep := step_ruleCalls s op
      rw [run_cons, ih, verdicts_cons, List.count_append, List.count_append, hstep]
      omega

theorem sum_tokensFor (verdicts : List Verdict) :
    (verdicts.map tokensFor).sum = verdicts.count .admitted +
      verdicts.count (.rejected .accessDenied) + verdicts.count (.rejected .hostRateLimit) := by
  induction verdicts with
  | nil => rfl
  | cons v rest ih =>
      rw [List.map_cons, List.sum_cons, ih]
      cases v with
      | admitted => simp [tokensFor]; omega
      | rejected why => cases why <;> simp [tokensFor] <;> omega

theorem taken_globalCalls (s : Session) (ops : List Op) :
    takenByScreening (s.globalCalls ops) = ((s.verdicts ops).map tokensFor).sum := by
  induction ops generalizing s with
  | nil => rfl
  | cons op ops ih =>
      have hsplit : takenByScreening (s.globalCalls (op :: ops)) =
          takenByScreening (s.globalCall? op).toList +
            takenByScreening ((s.step op).session.globalCalls ops) :=
        List.countP_append
      rw [hsplit, step_taken, ih, verdicts_cons, List.map_append, List.sum_append]

/-- The global limiter gets the calls in the book and no others, and answers them as written. -/
theorem run_global (s : Session) (ops : List Op) :
    let calls := s.globalCalls ops
    (s.run ops).pipeline.global =
      { s.pipeline.global with
        bucket := s.pipeline.global.bucket.afterCalls (calls.map (·.now)) } ∧
    calls.map (·.granted) = s.pipeline.global.bucket.verdicts (calls.map (·.now)) := by
  induction ops generalizing s with
  | nil => exact ⟨rfl, rfl⟩
  | cons op ops ih =>
      obtain ⟨hmove, hanswers⟩ := step_global s op
      obtain ⟨hmoveLater, hanswersLater⟩ := ih (s.step op).session
      simp only [globalCalls, List.map_append]
      constructor
      · rw [run_cons, hmoveLater, hmove, TokenBucket.afterCalls_append]
      · rw [TokenBucket.verdicts_append, hanswers, hanswersLater, hmove]

/-- **Every screening is accounted for.** The first check that fails decides, in the order signal,
global limit, limit of the host, rule of access. What a screening did depends on its verdict
alone: raised, it touched nothing; refused by the global limiter, it refilled that bucket; refused
by the host's limiter, it took one global token and made one failing lookup of the host; judged by
the rule, it took one token of each, whatever the judgement. So over every run the rule was asked
once for each admission and each denial, and of the calls that the global limiter got and answered
those granted to screenings are the admissions, the denials and the refusals by a host's limiter. -/
theorem every_screening_is_accounted_for :
    (∀ (p : Pipeline) (signaled : Bool) (peer : Endpoint) (now : Instant),
      (p.screen signaled peer now).verdict = CheckResult.verdict (p.checks signaled peer now) ∧
      p.Effect peer now (p.screen signaled peer now)) ∧
    ∀ (s : Session) (ops : List Op),
      let verdicts := s.verdicts ops
      let calls := s.globalCalls ops
      (s.run ops).ruleCalls = s.ruleCalls + verdicts.count .admitted +
        verdicts.count (.rejected .accessDenied) ∧
      takenByScreening calls = verdicts.count .admitted +
        verdicts.count (.rejected .accessDenied) + verdicts.count (.rejected .hostRateLimit) ∧
      (s.run ops).pipeline.global.bucket =
        s.pipeline.global.bucket.afterCalls (calls.map (·.now)) ∧
      calls.map (·.granted) = s.pipeline.global.bucket.verdicts (calls.map (·.now)) := by
  refine ⟨fun p signaled peer now =>
    ⟨p.screen_verdict signaled peer now, p.screen_effect signaled peer now⟩, ?_⟩
  intro s ops verdicts calls
  obtain ⟨hglobal, hanswers⟩ := run_global s ops
  refine ⟨run_ruleCalls s ops, ?_, ?_, hanswers⟩
  · exact (taken_globalCalls s ops).trans (sum_tokensFor verdicts)
  · rw [hglobal]

end Gatehouse.Session
