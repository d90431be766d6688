import Gatehouse.Config.Basic
import Gatehouse.Proofs.Access.Families
import Gatehouse.Proofs.Admission.RuleInfluence
/-!
# One host, one client

A host can come from many ports and, with a version 4 address, by either family. The limiters know
it by its key, and an access list that holds no mapped address in a version 6 network judges it by
that too. So a screening does the same for any two peers of one host (`Pipeline.screen_sameHost`),
and a run of operations in which peers come as others of their hosts is answered as it was, step by
step, and leaves the same session (`host_is_one_client`).
-/

namespace Gatehouse

namespace Pipeline

/-- **A screening is about a host.** Of what it leads to, only the log tells peers of one host
apart. -/
theorem screen_sameHost (p : Pipeline) (signaled : Bool) {a b : Endpoint} (same : a.SameHost b)
    (judged : (p.rule a).allowed = (p.rule b).allowed) (now : Instant) :
    (p.screen signaled a now).pipeline = (p.screen signaled b now).pipeline ∧
    (p.screen signaled a now).verdict = (p.screen signaled b now).verdict ∧
    (p.screen signaled a now).ruleConsulted = (p.screen signaled b now).ruleConsulted := by
  have hkey : a.hostKey = b.hostKey := (Endpoint.hostKey_eq_iff a b).mpr same
  rcases p.screening_reach signaled b now with
    rfl | ⟨rfl, global⟩ | ⟨rfl, global, host⟩ | ⟨rfl, global, host⟩
  · rw [screen_signaled, screen_signaled]
    exact ⟨rfl, rfl, rfl⟩
  · rw [screen_global_refused a global, screen_global_refused b global]
    exact ⟨rfl, rfl, rfl⟩
  · have host' : p.perHost.hasToken a.hostKey now = false := by
      rw [hkey]
      exact host
    rw [screen_host_refused global host, screen_host_refused global host', hkey]
    exact ⟨rfl, rfl, rfl⟩
  · have host' : p.perHost.hasToken a.hostKey now = true := by
      rw [hkey]
      exact host
    rw [screen_judged global host, screen_judged global host', charged, charged, hkey, judged]
    exact ⟨rfl, rfl, rfl⟩

end Pipeline

namespace Session

/-- The operations are the same, or screen two peers of one host at one instant. -/
inductive Op.SameHosts : Op → Op → Prop
  | same (op : Op) : SameHosts op op
  | screen {a b : Endpoint} (host : a.SameHost b) (now : Instant) :
      SameHosts (.screen a now) (.screen b now)

/-- What a step leads to apart from its log: the session and the reply. -/
def Step.outcome (step : Step) : Session × Reply := (step.session, step.reply)

/-- One operation. -/
theorem step_sameHosts {s : Session} {acl : AccessList} (rule : s.pipeline.rule = acl.rule)
    (spares : acl.SparesMapped) {op op' : Op} (same : op.SameHosts op') :
    (s.step op).outcome = (s.step op').outcome := by
  cases same with
  | same => rfl
  | screen host now =>
      rename_i a b
      have judged : (s.pipeline.rule a).allowed = (s.pipeline.rule b).allowed := by
        rw [rule]
        exact AccessList.allowed_sameHost spares host
      obtain ⟨hpipeline, hverdict, hconsulted⟩ :=
        s.pipeline.screen_sameHost s.channel.trigger.isRaised host judged now
      simp only [Step.outcome, step, hpipeline, hverdict, hconsulted]

/-- **One host is one client.** Let the rule of a session be an access list of whose version 6
networks none holds a mapped address. If in some screenings of a run other peers come instead, each
of the same host as the one that it stands for, then every operation is answered as before and
leaves the same buckets, hosts and signal. -/
theorem host_is_one_client {s : Session} {acl : AccessList} (rule : s.pipeline.rule = acl.rule)
    (spares : acl.SparesMapped) {ops ops' : List Op} (same : List.Forall₂ Op.SameHosts ops ops') :
    (s.steps ops).map Step.outcome = (s.steps ops').map Step.outcome := by
  induction same generalizing s with
  | nil => rfl
  | @cons op op' ops ops' first rest ih =>
      have hstep := step_sameHosts rule spares first
      have hsession : (s.step op).session = (s.step op').session := congrArg Prod.fst hstep
      have hrule : (s.step op).session.pipeline.rule = acl.rule := (step_rule s op).trans rule
      rw [steps, steps, List.map_cons, List.map_cons, hstep, ih hrule, hsession]

/-- Members of 192.168.0.0/16 and of 2001:db8::/32, but for 192.168.9.0/24. -/
def officeList : AccessList where
  allow := [⟨.v4 0xc0a80000, 16, by decide⟩, ⟨.v6 (0x20010db8 <<< 96), 32, by decide⟩]
  deny := [⟨.v4 0xc0a80900, 24, by decide⟩]

theorem officeList_sparesMapped : officeList.SparesMapped := by
  intro net mem
  simp only [officeList, List.cons_append, List.nil_append, List.mem_cons, List.not_mem_nil,
    or_false] at mem
  rcases mem with rfl | rfl | rfl
  · exact Network.sparesMapped_v4 rfl
  · exact (Network.sparesMapped_iff rfl).mpr (by decide +kernel)
  · exact Network.sparesMapped_v4 rfl

/-- An admitted host and a denied one, which come back by the other family and from other ports. -/
theorem host_is_one_client_in_an_office :
    let s : Session :=
      { pipeline := .create RateLimits.default.global RateLimits.default.perHost
          RateLimits.default.hostIdleTimeout officeList.rule .origin }
    let desk := Endpoint.v4 0xc0a80001 50000
    let desk' := Endpoint.v6 (IpAddr.mapped 0xc0a80001) 50001 7 3
    let guest := Endpoint.v6 (IpAddr.mapped 0xc0a80901) 50000 0 0
    let guest' := Endpoint.v4 0xc0a80901 50002
    officeList.SparesMapped ∧ desk.SameHost desk' ∧ guest.SameHost guest' ∧
    (s.steps [.screen desk .origin, .evictIdle .origin, .screen guest .origin]).map Step.outcome =
      (s.steps [.screen desk' .origin, .evictIdle .origin, .screen guest' .origin]).map
        Step.outcome := by
  intro s desk desk' guest guest'
  have hdesk : desk.SameHost desk' := rfl
  have hguest : guest.SameHost guest' := rfl
  refine ⟨officeList_sparesMapped, hdesk, hguest, ?_⟩
  exact host_is_one_client rfl officeList_sparesMapped
    (.cons (.screen hdesk .origin) (.cons (.same _) (.cons (.screen hguest .origin) .nil)))

end Session

end Gatehouse
