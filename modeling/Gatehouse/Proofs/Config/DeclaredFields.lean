import Gatehouse.Proofs.Config.Records
/-!
# Fields that are not declared

Mappings with declared fields stand in four kinds of places: a configuration, its listeners, their
limits, and the rates in these (`StandsAt`). Of an accepted tree,

* every record that stands in one of the places has been read, and what was read is in the
  configuration (`accepted_listener`, `accepted_rateLimits`, `accepted_rate`);
* so in the first three kinds of places every key names a declared field;
* a rate is told by the entries under declared keys alone (`readRate_heeded`): an entry under any
  other name is passed over in silence, and so is a misspelt period.
-/

namespace Gatehouse.Config

open Gatehouse.Yaml

/-! ## Places of records -/

/-- The kinds of places at which a mapping with declared fields may stand. -/
inductive RecordKind where
  | config
  | listener
  | rateLimits
  | rate
deriving DecidableEq

/-- The fields that are declared for a kind of record. -/
def RecordKind.fieldNames : RecordKind → List String
  | .config => ["log_level", "listeners"]
  | .listener =>
    ["name", "listen", "upstream", "connect_timeout", "ratelimit", "allow", "deny",
      "accept_timeout"]
  | .rateLimits => ["global", "per_host", "host_idle_timeout"]
  | .rate => ["rate", "per"]

/-- A node of a tree stands in a place for a kind of record: the root, the listeners it gives,
their limits, and the rates that these give. -/
inductive StandsAt (root : Node) : RecordKind → Node → Prop
  | config : StandsAt root .config root
  | listener {list item : Node} {items : List Node}
      (gives : Gives RecordKind.config.fieldNames root "listeners" list)
      (content : list.content = .sequence items) (mem : item ∈ items) :
      StandsAt root .listener item
  | rateLimits {listener limits : Node} (inside : StandsAt root .listener listener)
      (gives : Gives RecordKind.listener.fieldNames listener "ratelimit" limits) :
      StandsAt root .rateLimits limits
  | globalRate {limits rate : Node} (inside : StandsAt root .rateLimits limits)
      (gives : Gives RecordKind.rateLimits.fieldNames limits "global" rate) :
      StandsAt root .rate rate
  | hostRate {limits rate : Node} (inside : StandsAt root .rateLimits limits)
      (gives : Gives RecordKind.rateLimits.fieldNames limits "per_host" rate) :
      StandsAt root .rate rate

/-! ## The fields that lead to a place -/

theorem listeners_reads : configShape.Reads "listeners" (·.listeners) readListeners where
  nodup := by decide
  isSet := by simp [configShape]
  sets := by
    simp only [configShape, List.mem_cons, List.not_mem_nil, or_false]
    rintro field (rfl | rfl) same place node d d' h
    · simp at same
    · obtain ⟨listeners, hread, rfl⟩ := Decoded.map_ok h
      exact ⟨listeners, hread, rfl⟩
  keeps := by
    simp only [configShape, List.mem_cons, List.not_mem_nil, or_false]
    rintro field (rfl | rfl) other place node d d' h
    · obtain ⟨_, -, rfl⟩ := Decoded.map_ok h
      rfl
    · exact absurd rfl other

theorem rateLimits_reads : listenerShape.Reads "ratelimit" (·.rateLimits) readRateLimits where
  nodup := by decide
  isSet := by simp [listenerShape]
  sets := by
    simp only [listenerShape, List.mem_cons, List.not_mem_nil, or_false]
    rintro field (rfl | rfl | rfl | rfl | rfl | rfl | rfl | rfl) same place node d d' h
    case inr.inr.inr.inr.inl =>
      obtain ⟨limits, hread, rfl⟩ := Decoded.map_ok h
      exact ⟨limits, hread, rfl⟩
    all_goals simp at same
  keeps := by
    simp only [listenerShape, List.mem_cons, List.not_mem_nil, or_false]
    rintro field (rfl | rfl | rfl | rfl | rfl | rfl | rfl | rfl) other place node d d' h
    case inr.inr.inr.inr.inl => exact absurd rfl other
    all_goals
      obtain ⟨_, -, rfl⟩ := Decoded.map_ok h
      rfl

theorem global_reads : rateLimitsShape.Reads "global" (·.global) readLimit where
  nodup := by decide
  isSet := by simp [rateLimitsShape]
  sets := by
    simp only [rateLimitsShape, List.mem_cons, List.not_mem_nil, or_false]
    rintro field (rfl | rfl | rfl) same place node d d' h
    · obtain ⟨rate, hread, rfl⟩ := Decoded.map_ok h
      exact ⟨rate, hread, rfl⟩
    all_goals simp at same
  keeps := by
    simp only [rateLimitsShape, List.mem_cons, List.not_mem_nil, or_false]
    rintro field (rfl | rfl | rfl) other place node d d' h
    · exact absurd rfl other
    all_goals
      obtain ⟨_, -, rfl⟩ := Decoded.map_ok h
      rfl

theorem perHost_reads : rateLimitsShape.Reads "per_host" (·.perHost) readLimit where
  nodup := by decide
  isSet := by simp [rateLimitsShape]
  sets := by
    simp only [rateLimitsShape, List.mem_cons, List.not_mem_nil, or_false]
    rintro field (rfl | rfl | rfl) same place node d d' h
    case inr.inl =>
      obtain ⟨rate, hread, rfl⟩ := Decoded.map_ok h
      exact ⟨rate, hread, rfl⟩
    all_goals simp at same
  keeps := by
    simp only [rateLimitsShape, List.mem_cons, List.not_mem_nil, or_false]
    rintro field (rfl | rfl | rfl) other place node d d' h
    case inr.inl => exact absurd rfl other
    all_goals
      obtain ⟨_, -, rfl⟩ := Decoded.map_ok h
      rfl

/-! ## What an accepted tree has read -/

variable {root node : Node} {config : Config}

theorem accepted_listener (accepted : ofNode root = .ok config)
    (stands : StandsAt root .listener node) :
    ∃ place listener, readListener place node = .ok listener ∧ listener ∈ config.listeners := by
  cases stands with
  | listener gives content mem =>
      obtain ⟨draft, hdraft, rfl⟩ := Decoded.map_ok accepted
      obtain ⟨place, listeners, hlist, hset⟩ := listeners_reads.of_read hdraft gives
      unfold readListeners at hlist
      rw [content] at hlist
      obtain ⟨at_item, listener, hread, hmem⟩ := (readListenerItems_mem hlist).1 _ mem
      refine ⟨at_item, listener, hread, ?_⟩
      rw [ConfigDraft.config, hset]
      exact hmem

theorem accepted_rateLimits (accepted : ofNode root = .ok config)
    (stands : StandsAt root .rateLimits node) :
    ∃ place limits, readRateLimits place node = .ok limits ∧
      ∃ listener ∈ config.listeners, listener.rateLimits = limits := by
  cases stands with
  | rateLimits inside gives =>
      obtain ⟨_, listener, hlistener, hmem⟩ := accepted_listener accepted inside
      obtain ⟨draft, hdraft, rfl⟩ := Decoded.map_ok hlistener
      obtain ⟨place, limits, hread, hset⟩ := rateLimits_reads.of_read hdraft gives
      refine ⟨place, limits, hread, _, hmem, ?_⟩
      rw [ListenerDraft.listener, hset]
      rfl

theorem accepted_rate (accepted : ofNode root = .ok config) (stands : StandsAt root .rate node) :
    ∃ place rate, readLimit place node = .ok rate ∧
      ∃ listener ∈ config.listeners,
        listener.rateLimits.global = rate ∨ listener.rateLimits.perHost = rate := by
  cases stands with
  | globalRate inside gives =>
      obtain ⟨_, limits, hlimits, listener, hmem, hof⟩ := accepted_rateLimits accepted inside
      obtain ⟨draft, hdraft, rfl⟩ := Decoded.map_ok hlimits
      obtain ⟨place, rate, hread, hset⟩ := global_reads.of_read hdraft gives
      refine ⟨place, rate, hread, listener, hmem, .inl ?_⟩
      rw [hof, RateLimitsDraft.limits, hset]
      rfl
  | hostRate inside gives =>
      obtain ⟨_, limits, hlimits, listener, hmem, hof⟩ := accepted_rateLimits accepted inside
      obtain ⟨draft, hdraft, rfl⟩ := Decoded.map_ok hlimits
      obtain ⟨place, rate, hread, hset⟩ := perHost_reads.of_read hdraft gives
      refine ⟨place, rate, hread, listener, hmem, .inr ?_⟩
      rw [hof, RateLimitsDraft.limits, hset]
      rfl

/-! ## Windows -/

/-- The entries of a window that are heeded: those under keys that are not ignored. -/
def heeded (entries : List (Node × Node)) : List (Node × Node) :=
  entries.filter fun entry => WindowKey.ofNode? entry.1 ≠ some .ignored

theorem foldlM_heeded (entries : List (Node × Node)) (w : RateWindow) :
    (heeded entries).foldlM RateWindow.add? w = entries.foldlM RateWindow.add? w := by
  induction entries generalizing w with
  | nil => rfl
  | cons entry entries ih =>
      by_cases ignored : WindowKey.ofNode? entry.1 = some .ignored
      · have hadd : w.add? entry = some w := by simp [RateWindow.add?, ignored]
        have hskip : heeded (entry :: entries) = heeded entries := by simp [heeded, ignored]
        rw [hskip, List.foldlM_cons, hadd, ih]
        rfl
      · have hkeep : heeded (entry :: entries) = entry :: heeded entries := by
          simp [heeded, ignored]
        rw [hkeep, List.foldlM_cons, List.foldlM_cons]
        congr 1
        funext next
        exact ih next

theorem rateNotation?_heeded {entries : List (Node × Node)}
    (content : node.content = .mapping entries) :
    rateNotation? (.mapping (heeded entries)) = rateNotation? node := by
  simp only [rateNotation?, Node.content, content, foldlM_heeded]

/-- Entries that can be looked through can be so without some of them. -/
theorem lookThroughEntries_sublist {look : Path → Node → Decoded Unit} {path : Path}
    {some all : List (Node × Node)} (sub : some.Sublist all)
    (h : lookThroughEntries look path all = .ok ()) :
    lookThroughEntries look path some = .ok () := by
  induction sub with
  | slnil => exact h
  | cons entry _ ih =>
      obtain ⟨_, -, hentry⟩ := Decoded.bind_ok h
      obtain ⟨_, -, hrest⟩ := Decoded.bind_ok hentry
      exact ih hrest
  | cons_cons entry _ ih =>
      obtain ⟨_, hkey, hentry⟩ := Decoded.bind_ok h
      obtain ⟨_, hvalue, hrest⟩ := Decoded.bind_ok hentry
      simp only [lookThroughEntries, hkey, hvalue, ih hrest]
      rfl

theorem lookThrough_heeded {depth : Nat} {path : Path} {entries : List (Node × Node)}
    (content : node.content = .mapping entries) (h : lookThrough depth path node = .ok ()) :
    lookThrough depth path (.mapping (heeded entries)) = .ok () := by
  cases depth with
  | zero =>
      unfold lookThrough at h
      rw [content] at h
      cases h
  | succ depth =>
      unfold lookThrough at h ⊢
      rw [content] at h
      exact lookThroughEntries_sublist List.filter_sublist h

/-- **An accepted window means what its heeded entries mean.** -/
theorem readRate_heeded {depth : Nat} {spot : Spot} {rate : Rate} {entries : List (Node × Node)}
    (content : node.content = .mapping entries) (h : readRate depth spot node = .ok rate) :
    readRate depth spot (.mapping (heeded entries)) = .ok rate := by
  obtain ⟨⟨⟩, hlook, hrate⟩ := Decoded.bind_ok h
  unfold readRate
  rw [lookThrough_heeded content hlook, rateNotation?_heeded content]
  exact hrate

/-! ## Keys of accepted trees -/

/-- **Keys that are not declared pass in rates only.** Of an accepted tree, a mapping in the place
of a configuration, of a listener or of its limits holds declared fields only. One in the place of
a rate is a limit of some listener, and means what it would mean without the entries that are not
heeded. -/
theorem undeclared_keys_pass_in_rates_only (accepted : ofNode root = .ok config)
    {kind : RecordKind} (stands : StandsAt root kind node) {entries : List (Node × Node)}
    (content : node.content = .mapping entries) :
    (kind ≠ .rate →
      ∀ entry ∈ entries, ∃ name ∈ kind.fieldNames, keyName? entry.1 = some name) ∧
    (kind = .rate →
      ∃ place rate, readLimit place node = .ok rate ∧
        readLimit place (.mapping (heeded entries)) = .ok rate ∧
        ∃ listener ∈ config.listeners,
          listener.rateLimits.global = rate ∨ listener.rateLimits.perHost = rate) := by
  cases kind with
  | config =>
      refine ⟨fun _ => ?_, nofun⟩
      cases stands
      obtain ⟨draft, hdraft, -⟩ := Decoded.map_ok accepted
      exact RecordShape.names_of_read hdraft content
  | listener =>
      refine ⟨fun _ => ?_, nofun⟩
      obtain ⟨place, listener, hread, -⟩ := accepted_listener accepted stands
      obtain ⟨draft, hdraft, -⟩ := Decoded.map_ok hread
      exact RecordShape.names_of_read hdraft content
  | rateLimits =>
      refine ⟨fun _ => ?_, nofun⟩
      obtain ⟨place, limits, hread, -⟩ := accepted_rateLimits accepted stands
      obtain ⟨draft, hdraft, -⟩ := Decoded.map_ok hread
      exact RecordShape.names_of_read hdraft content
  | rate =>
      refine ⟨fun h => absurd rfl h, fun _ => ?_⟩
      obtain ⟨place, rate, hread, hlimit⟩ := accepted_rate accepted stands
      exact ⟨place, rate, hread, readRate_heeded content hread, hlimit⟩

/-! ## A misspelt period -/

/-- A window of five calls in a minute, with the name of the period misspelt. -/
def misspeltWindow : List (Node × Node) :=
  [(.scalar { text := "rate" }, .scalar { text := "5" }),
    (.scalar { text := "pre" }, .scalar { text := "60" })]

/-- The limits of a listener whose hosts have the misspelt window. -/
def misspeltLimits : Node :=
  .mapping [(.scalar { text := "per_host" }, .mapping misspeltWindow)]

def misspeltListener : Node := .mapping [(.scalar { text := "ratelimit" }, misspeltLimits)]

def misspeltTree : Node :=
  .mapping [(.scalar { text := "listeners" }, .sequence [misspeltListener])]

theorem second_pos : 0 < Rate.second.nanos := by decide

theorem five_isPositive : (Binary64.ofNat 5).isPositive = true := by decide +kernel

/-- Five calls per second. -/
def fivePerSecond : Rate where
  count := .ofNat 5
  period := Rate.second
  count_pos := five_isPositive
  period_pos := second_pos

/-- What the misspelt window lets through: five calls per second for each host. -/
def misspeltConfig : Config where
  logLevel := none
  listeners :=
    [{ ListenerConfig.default with
        rateLimits := { RateLimits.default with perHost := fivePerSecond } }]

theorem misspeltTree_accepted : ofNode misspeltTree = .ok misspeltConfig := by
  decide +kernel

theorem misspeltWindow_stands : StandsAt misspeltTree .rate (.mapping misspeltWindow) := by
  have hlistener : StandsAt misspeltTree .listener misspeltListener :=
    .listener (.entry rfl List.mem_cons_self rfl) rfl List.mem_cons_self
  have hlimits : StandsAt misspeltTree .rateLimits misspeltLimits :=
    .rateLimits hlistener (.entry rfl List.mem_cons_self rfl)
  exact .hostRate hlimits (.entry rfl List.mem_cons_self rfl)

/-- The tree with the misspelt period: its root holds declared fields only, its window does not
and is read as if it said nothing of a period. -/
theorem undeclared_keys_pass_in_a_misspelt_window :
    (∀ entry ∈ [(Node.scalar { text := "listeners" }, Node.sequence [misspeltListener])],
      ∃ name ∈ RecordKind.config.fieldNames, keyName? entry.1 = some name) ∧
    ∃ place rate, readLimit place (.mapping misspeltWindow) = .ok rate ∧
      readLimit place (.mapping (heeded misspeltWindow)) = .ok rate := by
  have hcontent : misspeltTree.content =
      .mapping [(.scalar { text := "listeners" }, .sequence [misspeltListener])] := rfl
  obtain ⟨hroot, -⟩ :=
    undeclared_keys_pass_in_rates_only misspeltTree_accepted .config hcontent
  obtain ⟨-, hwindow⟩ :=
    undeclared_keys_pass_in_rates_only misspeltTree_accepted misspeltWindow_stands rfl
  obtain ⟨place, rate, hread, hheeded, -⟩ := hwindow rfl
  exact ⟨hroot nofun, place, rate, hread, hheeded⟩

/-- A window whose period is misspelt is accepted, though no declared field has that name, and
what was meant for a minute passes every second. -/
theorem misspelt_period_passes :
    ofNode misspeltTree = .ok misspeltConfig ∧
    StandsAt misspeltTree .rate (.mapping misspeltWindow) ∧
    ¬ ∀ entry ∈ misspeltWindow,
      ∃ name ∈ RecordKind.rate.fieldNames, keyName? entry.1 = some name := by
  refine ⟨misspeltTree_accepted, misspeltWindow_stands, ?_⟩
  intro declared
  obtain ⟨name, hname, hkey⟩ := declared _ (List.mem_cons_of_mem _ List.mem_cons_self)
  obtain rfl : "pre" = name := Option.some.inj hkey
  exact absurd hname (by decide)

end Gatehouse.Config
