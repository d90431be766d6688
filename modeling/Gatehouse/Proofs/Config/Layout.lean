import Gatehouse.Proofs.Config.RateNotations
/-!
# The layout of configurations

A tree may be laid out in many ways (`Relaid`): with the entries of its mappings in another order,
with defaults spelled out or left out, and with rates in another notation. What the parts of a tree
are read as depends on their roles in it (`Role`), and what is read from a part laid out in another
way is the same (`Role.Alike`). By induction on how the tree was laid out anew, so is what is read
from the whole (`layout_is_immaterial`). A default may be left out only where no other key is for
its field; that the keys differ is not enough (`period_under_two_keys_is_refused`).
-/

namespace Gatehouse.Config

open Gatehouse.Yaml RecordShape

/-! ## Roles -/

/-- What a node is in a configuration. Whatever is not on the way to a rate is `other`. -/
inductive Role where
  | config
  | listeners
  | listener
  | rateLimits
  | rate
  | other
deriving DecidableEq

namespace Role

/-- The role of what a field of that name has. -/
def under : Role → Option String → Role
  | .config, some "listeners" => .listeners
  | .listener, some "ratelimit" => .rateLimits
  | .rateLimits, some "global" => .rate
  | .rateLimits, some "per_host" => .rate
  | _, _ => .other

/-- The names of the fields of a record, in order. -/
def fieldNames : Role → List String
  | .config => configShape.names
  | .listener => listenerShape.names
  | .rateLimits => rateLimitsShape.names
  | .listeners | .rate | .other => []

/-- The role of the item in a place of a sequence. -/
def itemAt : Role → Nat → Role
  | .listeners, _ => .listener
  | role, place => role.under role.fieldNames[place]?

theorem itemAt_of_field {role : Role} {place : Nat} {name : String}
    (h : role.fieldNames[place]? = some name) : role.itemAt place = role.under (some name) := by
  cases role with
  | listeners | rate | other => cases h
  | config | listener | rateLimits => exact congrArg (under _) h

/-- Two keys stand for the same: for the same part of a window, or for the same field of any other
record. -/
def SameField : Role → Node → Node → Prop
  | .rate, key, key' => WindowKey.ofNode? key = WindowKey.ofNode? key'
  | _, key, key' => keyName? key = keyName? key'

/-- The entry says what holds without it. In a listener or in limits it does if a record of it
alone is the default; in a window it is a period of one second. -/
def SpellsDefault : Role → Node → Node → Prop
  | .listener, key, value => ∃ place, readListener place (.mapping [(key, value)]) = .ok .default
  | .rateLimits, key, value =>
    ∃ place, readRateLimits place (.mapping [(key, value)]) = .ok .default
  | .rate, key, value => WindowKey.ofNode? key = some .seconds ∧
    ∃ x, numberOf? value = some x ∧ Duration.fromSeconds x = .ok Rate.second
  | .config, _, _ | .listeners, _, _ | .other, _, _ => False

end Role

/-! ## Trees laid out anew -/

/-- Two nodes in the same role differ in their layout only. -/
inductive Relaid : Role → Node → Node → Prop
  | refl {role : Role} (node : Node) : Relaid role node node
  | symm {role : Role} {n m : Node} : Relaid role n m → Relaid role m n
  | trans {role : Role} {n m k : Node} : Relaid role n m → Relaid role m k → Relaid role n k
  /-- an alias, and what it stands for -/
  | aliased {role : Role} (target : Unit → Node) : Relaid role (.alias target) (target ())
  /-- the entries of a mapping, in any order -/
  | permuted {role : Role} {entries entries' : List (Node × Node)} (perm : entries.Perm entries') :
      Relaid role (.mapping entries) (.mapping entries')
  /-- an entry that spells out its default, if no other entry is for the same field -/
  | omitted {role : Role} {before after : List (Node × Node)} {key value : Node}
      (default : role.SpellsDefault key value)
      (once : ∀ entry ∈ before ++ after, ¬ role.SameField entry.1 key) :
      Relaid role (.mapping (before ++ (key, value) :: after)) (.mapping (before ++ after))
  /-- a scalar as a rate, and a window of it alone -/
  | perSecond {key : Node} (s : Scalar) (count : WindowKey.ofNode? key = some .count) :
      Relaid .rate (.scalar s) (.mapping [(key, .scalar s)])
  /-- inside a key -/
  | key {role : Role} {before after : List (Node × Node)} {key key' value : Node}
      (inside : Relaid .other key key') :
      Relaid role (.mapping (before ++ (key, value) :: after))
        (.mapping (before ++ (key', value) :: after))
  /-- inside the value of an entry -/
  | value {role : Role} {before after : List (Node × Node)} {key value value' : Node}
      (inside : Relaid (role.under (keyName? key)) value value') :
      Relaid role (.mapping (before ++ (key, value) :: after))
        (.mapping (before ++ (key, value') :: after))
  /-- inside an item of a sequence -/
  | item {role : Role} {before after : List Node} {item item' : Node}
      (inside : Relaid (role.itemAt before.length) item item') :
      Relaid role (.sequence (before ++ item :: after)) (.sequence (before ++ item' :: after))

/-! ## What is read in a role -/

/-- The nodes are the same scalar or none, list the same networks, and are nested alike. -/
structure ValuesAlike (n m : Node) : Prop where
  scalar : scalarOf? n = scalarOf? m
  networks : ReadsAlike readNetworks n m
  passes : ∀ depth, Passes depth n ↔ Passes depth m

theorem ValuesAlike.reads {n m : Node} (h : ValuesAlike n m) {α : Type}
    {read : Spot → Node → Decoded α} (hread : ReadsScalar read) : ReadsAlike read n m :=
  hread n m h.scalar

/-- What is read from the nodes in their role is the same. -/
def Role.Alike : Role → Node → Node → Prop
  | .config => fun n m => (ofNode n).toOption = (ofNode m).toOption
  | .listeners => ReadsAlike readListeners
  | .listener => ReadsAlike readListener
  | .rateLimits => ReadsAlike readRateLimits
  | .rate => ReadsAlike readLimit
  | .other => ValuesAlike

section Lifting

variable {n m : Node}

theorem config_alike (h : ReadsAlike configShape.read n m) : Role.config.Alike n m :=
  h.map ConfigDraft.config .root .root

theorem listener_alike (h : ReadsAlike listenerShape.read n m) : Role.listener.Alike n m :=
  h.map ListenerDraft.listener

theorem rateLimits_alike (h : ReadsAlike rateLimitsShape.read n m) : Role.rateLimits.Alike n m :=
  h.map RateLimitsDraft.limits

end Lifting

/-! ## Values -/

section Values

variable {n m : Node} {entries entries' : List (Node × Node)}

theorem valuesAlike_of_content (content : n.content = m.content) : ValuesAlike n m where
  scalar := by
    unfold scalarOf?
    rw [content]
  networks := readNetworks_readsList.of_content content
  passes := passes_congr content

/-- Of a mapping only matters how deep it is nested. -/
theorem valuesAlike_mapping
    (passes : ∀ depth, Passes depth (.mapping entries) ↔ Passes depth (.mapping entries')) :
    ValuesAlike (.mapping entries) (.mapping entries') where
  scalar := rfl
  networks := readNetworks_readsList.mapping entries entries'
  passes := passes

theorem valuesAlike_item {before after : List Node} {item item' : Node}
    (h : ValuesAlike item item') :
    ValuesAlike (.sequence (before ++ item :: after)) (.sequence (before ++ item' :: after)) where
  scalar := rfl
  networks := readNetworks_readsList.item (h.reads readNetwork_readsScalar)
  passes := passes_item h.passes

end Values

/-! ## Records -/

theorem rateLimitsShape_lawful :
    rateLimitsShape.Lawful fun name => (Role.rateLimits.under (some name)).Alike where
  same := by
    simp only [rateLimitsShape, List.mem_cons, List.not_mem_nil, or_false]
    rintro field (rfl | rfl | rfl) value
    · exact readRate_of_content rfl
    · exact readRate_of_content rfl
    · exact valuesAlike_of_content rfl
  reads := by
    simp only [rateLimitsShape, List.mem_cons, List.not_mem_nil, or_false]
    rintro field (rfl | rfl | rfl) value value' alike spot spot' d
    · exact ReadsAlike.map alike _ spot spot'
    · exact ReadsAlike.map alike _ spot spot'
    · exact (ValuesAlike.reads alike readDuration_readsScalar).map _ spot spot'
  sets := by
    simp only [rateLimitsShape, List.mem_cons, List.not_mem_nil, or_false]
    rintro field (rfl | rfl | rfl) spot value d d' h
    all_goals
      obtain ⟨_, -, rfl⟩ := Decoded.map_ok h
      rfl
  keeps := by
    simp only [rateLimitsShape, List.mem_cons, List.not_mem_nil, or_false]
    rintro field (rfl | rfl | rfl) other (rfl | rfl | rfl) distinct spot value d d' h
    all_goals
      obtain ⟨_, -, rfl⟩ := Decoded.map_ok h
      first | rfl | exact absurd rfl distinct
  commutes := by
    simp only [rateLimitsShape, List.mem_cons, List.not_mem_nil, or_false]
    rintro field (rfl | rfl | rfl) other (rfl | rfl | rfl) distinct value value'
    all_goals
      first
      | exact absurd rfl distinct
      | refine Decoded.toOption_comm _ _ ?_
        intros
        rfl

/-- Limits are not changed by what a default of theirs says, where its field is not set. -/
theorem limits_fills : ∀ field ∈ rateLimitsShape.fields, ∀ value d₀ d,
    field.read .root value rateLimitsShape.empty = .ok d₀ →
    d₀.limits = rateLimitsShape.empty.limits → field.isSet d = false →
    ∃ d', field.read .root value d = .ok d' ∧ d'.limits = d.limits := by
  simp only [rateLimitsShape, List.mem_cons, List.not_mem_nil, or_false]
  rintro field (rfl | rfl | rfl) value d₀ d hread default unset
  all_goals
    obtain ⟨a, hvalue, rfl⟩ := Decoded.map_ok hread
    refine ⟨_, congrArg (· >>= _) hvalue, ?_⟩
    simp_all [RateLimitsDraft.limits]

theorem readRateLimits_of_content {n m : Node} (content : n.content = m.content) :
    ReadsAlike readRateLimits n m :=
  rateLimits_alike (Lawful.read_of_content rateLimitsShape_lawful content)

theorem listenerShape_lawful :
    listenerShape.Lawful fun name => (Role.listener.under (some name)).Alike where
  same := by
    simp only [listenerShape, List.mem_cons, List.not_mem_nil, or_false]
    rintro field (rfl | rfl | rfl | rfl | rfl | rfl | rfl | rfl) value
    case inr.inr.inr.inr.inl => exact readRateLimits_of_content rfl
    all_goals exact valuesAlike_of_content rfl
  reads := by
    simp only [listenerShape, List.mem_cons, List.not_mem_nil, or_false]
    rintro field (rfl | rfl | rfl | rfl | rfl | rfl | rfl | rfl) value value' alike spot spot' d
    · exact (ValuesAlike.reads alike readString_readsScalar.optional).map _ spot spot'
    · exact (ValuesAlike.reads alike readEndpoint_readsScalar).map _ spot spot'
    · exact (ValuesAlike.reads alike readEndpoint_readsScalar.optional).map _ spot spot'
    · exact (ValuesAlike.reads alike readDuration_readsScalar).map _ spot spot'
    · exact ReadsAlike.map alike _ spot spot'
    · exact (ValuesAlike.networks alike).map _ spot spot'
    · exact (ValuesAlike.networks alike).map _ spot spot'
    · exact (ValuesAlike.reads alike readDuration_readsScalar).map _ spot spot'
  sets := by
    simp only [listenerShape, List.mem_cons, List.not_mem_nil, or_false]
    rintro field (rfl | rfl | rfl | rfl | rfl | rfl | rfl | rfl) spot value d d' h
    all_goals
      obtain ⟨_, -, rfl⟩ := Decoded.map_ok h
      rfl
  keeps := by
    simp only [listenerShape, List.mem_cons, List.not_mem_nil, or_false]
    rintro field (rfl | rfl | rfl | rfl | rfl | rfl | rfl | rfl) other
      (rfl | rfl | rfl | rfl | rfl | rfl | rfl | rfl) distinct spot value d d' h
    all_goals
      obtain ⟨_, -, rfl⟩ := Decoded.map_ok h
      first | rfl | exact absurd rfl distinct
  commutes := by
    simp only [listenerShape, List.mem_cons, List.not_mem_nil, or_false]
    rintro field (rfl | rfl | rfl | rfl | rfl | rfl | rfl | rfl) other
      (rfl | rfl | rfl | rfl | rfl | rfl | rfl | rfl) distinct value value'
    all_goals
      first
      | exact absurd rfl distinct
      | refine Decoded.toOption_comm _ _ ?_
        intros
        rfl

/-- Neither is a listener. -/
theorem listener_fills : ∀ field ∈ listenerShape.fields, ∀ value d₀ d,
    field.read .root value listenerShape.empty = .ok d₀ →
    d₀.listener = listenerShape.empty.listener → field.isSet d = false →
    ∃ d', field.read .root value d = .ok d' ∧ d'.listener = d.listener := by
  simp only [listenerShape, List.mem_cons, List.not_mem_nil, or_false]
  rintro field (rfl | rfl | rfl | rfl | rfl | rfl | rfl | rfl) value d₀ d hread default unset
  all_goals
    obtain ⟨a, hvalue, rfl⟩ := Decoded.map_ok hread
    refine ⟨_, congrArg (· >>= _) hvalue, ?_⟩
    simp_all [ListenerDraft.listener]

theorem readListener_of_content {n m : Node} (content : n.content = m.content) :
    ReadsAlike readListener n m :=
  listener_alike (Lawful.read_of_content listenerShape_lawful content)

theorem readListeners_readsList : ReadsList readListeners readListener where
  items := by
    intro node items content spot
    unfold readListeners
    rw [content]
    exact toOption_items (fun _ => readListener_of_content rfl) (fun _ _ => rfl)
      (fun _ _ _ _ => rfl) spot 0 items
  rejects := by
    intro node other spot
    unfold readListeners
    split
    · exact absurd ‹_› (other _)
    · exact Spot.mismatch_toOption _ _ _

theorem configShape_lawful :
    configShape.Lawful fun name => (Role.config.under (some name)).Alike where
  same := by
    simp only [configShape, List.mem_cons, List.not_mem_nil, or_false]
    rintro field (rfl | rfl) value
    · exact valuesAlike_of_content rfl
    · exact readListeners_readsList.of_content rfl
  reads := by
    simp only [configShape, List.mem_cons, List.not_mem_nil, or_false]
    rintro field (rfl | rfl) value value' alike spot spot' d
    · exact (ValuesAlike.reads alike readString_readsScalar.optional).map _ spot spot'
    · exact ReadsAlike.map alike _ spot spot'
  sets := by
    simp only [configShape, List.mem_cons, List.not_mem_nil, or_false]
    rintro field (rfl | rfl) spot value d d' h
    all_goals
      obtain ⟨_, -, rfl⟩ := Decoded.map_ok h
      rfl
  keeps := by
    simp only [configShape, List.mem_cons, List.not_mem_nil, or_false]
    rintro field (rfl | rfl) other (rfl | rfl) distinct spot value d d' h
    all_goals
      obtain ⟨_, -, rfl⟩ := Decoded.map_ok h
      first | rfl | exact absurd rfl distinct
  commutes := by
    simp only [configShape, List.mem_cons, List.not_mem_nil, or_false]
    rintro field (rfl | rfl) other (rfl | rfl) distinct value value'
    all_goals
      first
      | exact absurd rfl distinct
      | refine Decoded.toOption_comm _ _ ?_
        intros
        rfl

/-! ## One change of the layout -/

section Changes

variable {role : Role} {n m k : Node}

theorem Role.Alike.symm (h : role.Alike n m) : role.Alike m n := by
  cases role with
  | config => exact Eq.symm h
  | listeners | listener | rateLimits | rate => exact ReadsAlike.symm h
  | other => exact ⟨h.scalar.symm, h.networks.symm, fun depth => (h.passes depth).symm⟩

theorem Role.Alike.trans (h : role.Alike n m) (h' : role.Alike m k) : role.Alike n k := by
  cases role with
  | config => exact Eq.trans h h'
  | listeners | listener | rateLimits | rate => exact ReadsAlike.trans h h'
  | other =>
      exact ⟨h.scalar.trans h'.scalar, h.networks.trans h'.networks,
        fun depth => (h.passes depth).trans (h'.passes depth)⟩

/-- An alias counts as what it stands for. -/
theorem alike_of_content (role : Role) (content : n.content = m.content) : role.Alike n m := by
  cases role with
  | config => exact config_alike (Lawful.read_of_content configShape_lawful content)
  | listeners => exact readListeners_readsList.of_content content
  | listener => exact readListener_of_content content
  | rateLimits => exact readRateLimits_of_content content
  | rate => exact readRate_of_content content
  | other => exact valuesAlike_of_content content

variable {before after entries entries' : List (Node × Node)} {key key' value value' : Node}

theorem alike_permuted (role : Role) (perm : entries.Perm entries') :
    role.Alike (.mapping entries) (.mapping entries') := by
  cases role with
  | config => exact config_alike (Lawful.read_permuted configShape_lawful perm)
  | listeners => exact readListeners_readsList.mapping _ _
  | listener => exact listener_alike (Lawful.read_permuted listenerShape_lawful perm)
  | rateLimits => exact rateLimits_alike (Lawful.read_permuted rateLimitsShape_lawful perm)
  | rate => exact readRate_permuted perm
  | other => exact valuesAlike_mapping (passes_permuted perm)

/-- The same key in another layout names the same field. -/
theorem alike_key (role : Role) (h : ValuesAlike key key') :
    role.Alike (.mapping (before ++ (key, value) :: after))
      (.mapping (before ++ (key', value) :: after)) := by
  have hname : keyName? key = keyName? key' := by rw [keyName?_eq, keyName?_eq, h.scalar]
  cases role with
  | config => exact config_alike (Lawful.read_key configShape_lawful hname)
  | listeners => exact readListeners_readsList.mapping _ _
  | listener => exact listener_alike (Lawful.read_key listenerShape_lawful hname)
  | rateLimits => exact rateLimits_alike (Lawful.read_key rateLimitsShape_lawful hname)
  | rate =>
      have hmeaning : WindowKey.ofNode? key = WindowKey.ofNode? key' := by
        rw [windowKey_eq, windowKey_eq key', h.scalar]
      exact readRate_entry h.passes (fun _ => .rfl) hmeaning rfl
  | other => exact valuesAlike_mapping (passes_entry h.passes fun _ => .rfl)

/-- What a field has may be laid out anew. -/
theorem alike_value (h : (role.under (keyName? key)).Alike value value') :
    role.Alike (.mapping (before ++ (key, value) :: after))
      (.mapping (before ++ (key, value') :: after)) := by
  cases role with
  | config =>
      refine config_alike (Lawful.read_value configShape_lawful ?_)
      intro name named
      rwa [named] at h
  | listeners => exact readListeners_readsList.mapping _ _
  | listener =>
      refine listener_alike (Lawful.read_value listenerShape_lawful ?_)
      intro name named
      rwa [named] at h
  | rateLimits =>
      refine rateLimits_alike (Lawful.read_value rateLimitsShape_lawful ?_)
      intro name named
      rwa [named] at h
  | rate =>
      have hvalue : ValuesAlike value value' := h
      have hnumber : numberOf? value = numberOf? value' := by
        rw [numberOf?_eq, numberOf?_eq, hvalue.scalar]
      exact readRate_entry (fun _ => .rfl) hvalue.passes rfl hnumber
  | other =>
      have hvalue : ValuesAlike value value' := h
      exact valuesAlike_mapping (passes_entry (fun _ => .rfl) hvalue.passes)

theorem alike_item {before after : List Node} {item item' : Node}
    (h : (role.itemAt before.length).Alike item item') :
    role.Alike (.sequence (before ++ item :: after)) (.sequence (before ++ item' :: after)) := by
  cases role with
  | config =>
      refine config_alike (Lawful.read_item configShape_lawful ?_)
      intro name named
      rwa [Role.itemAt_of_field named] at h
  | listeners => exact readListeners_readsList.item h
  | listener =>
      refine listener_alike (Lawful.read_item listenerShape_lawful ?_)
      intro name named
      rwa [Role.itemAt_of_field named] at h
  | rateLimits =>
      refine rateLimits_alike (Lawful.read_item rateLimitsShape_lawful ?_)
      intro name named
      rwa [Role.itemAt_of_field named] at h
  | rate => exact readRate_sequence _ _
  | other => exact valuesAlike_item h

theorem alike_omitted (default : role.SpellsDefault key value)
    (once : ∀ entry ∈ before ++ after, ¬ role.SameField entry.1 key) :
    role.Alike (.mapping (before ++ (key, value) :: after)) (.mapping (before ++ after)) := by
  cases role with
  | config | listeners | other => exact absurd default nofun
  | listener =>
      obtain ⟨place, hread⟩ := default
      obtain ⟨d₀, halone, hdefault⟩ := Decoded.map_ok hread
      exact Lawful.read_omitted listenerShape_lawful ListenerDraft.listener
        (by simp [listenerShape]) listener_fills halone hdefault once
  | rateLimits =>
      obtain ⟨place, hread⟩ := default
      obtain ⟨d₀, halone, hdefault⟩ := Decoded.map_ok hread
      exact Lawful.read_omitted rateLimitsShape_lawful RateLimitsDraft.limits
        (by simp [rateLimitsShape]) limits_fills halone hdefault once
  | rate =>
      obtain ⟨hkey, x, hnumber, hsecond⟩ := default
      refine readRate_omitted hkey hnumber hsecond ?_
      intro entry hmem hother
      exact once entry hmem (hother.trans hkey.symm)

theorem alike_perSecond (s : Scalar) (count : WindowKey.ofNode? key = some .count) :
    Role.rate.Alike (.scalar s) (.mapping [(key, .scalar s)]) := by
  -- A rate may hold one more collection at least.
  show ReadsAlike (readRate (deepestNesting - collectionsAroundRate - 1 + 1)) _ _
  exact readRate_perSecond s count

end Changes

/-! ## Any layout -/

/-- **What is read from a part of a tree does not depend on how it is laid out.** -/
theorem Relaid.alike {role : Role} {n m : Node} (h : Relaid role n m) : role.Alike n m := by
  induction h with
  | refl node => exact alike_of_content _ rfl
  | symm _ ih => exact ih.symm
  | trans _ _ ih ih' => exact ih.trans ih'
  | aliased target => exact alike_of_content _ rfl
  | permuted perm => exact alike_permuted _ perm
  | omitted default once => exact alike_omitted default once
  | perSecond s count => exact alike_perSecond s count
  | key _ ih => exact alike_key _ ih
  | value _ ih => exact alike_value ih
  | item _ ih => exact alike_item ih

/-- **A configuration means the same however it is laid out**: trees that differ in their layout
give the same configuration, or none of them gives any. -/
theorem layout_is_immaterial {tree tree' : Node} (relaid : Relaid .config tree tree') :
    (ofNode tree).toOption = (ofNode tree').toOption :=
  relaid.alike

/-! ## Five calls per second -/

section Single

variable {role : Role} {key value value' item item' : Node} {entries : List (Node × Node)}

theorem Relaid.only_value (h : Relaid (role.under (keyName? key)) value value') :
    Relaid role (.mapping [(key, value)]) (.mapping [(key, value')]) := by
  show Relaid role (.mapping ([] ++ (key, value) :: [])) (.mapping ([] ++ (key, value') :: []))
  exact .value h

theorem Relaid.only_item (h : Relaid (role.itemAt 0) item item') :
    Relaid role (.sequence [item]) (.sequence [item']) := by
  show Relaid role (.sequence ([] ++ item :: [])) (.sequence ([] ++ item' :: []))
  exact .item h

theorem Relaid.spelled (default : role.SpellsDefault key value)
    (once : ∀ entry ∈ entries, ¬ role.SameField entry.1 key) :
    Relaid role (.mapping entries) (.mapping ((key, value) :: entries)) := by
  show Relaid role (.mapping ([] ++ entries)) (.mapping ([] ++ (key, value) :: entries))
  exact .symm (.omitted default once)

end Single

/-- A plain scalar. -/
def plain (text : String) : Node := .scalar { text := text }

/-- A configuration of one listener with some entries. -/
def oneListener (entries : List (Node × Node)) : Node :=
  .mapping [(plain "listeners", .sequence [.mapping entries])]

/-- A configuration that says no more than what is the limit for each host. -/
def hostLimited (rate : Node) : Node :=
  oneListener [(plain "ratelimit", .mapping [(plain "per_host", rate)])]

/-- Five calls in a window, with its period spelled out. -/
def spelledWindow : List (Node × Node) := [(plain "per", plain "1"), (plain "rate", plain "5")]

/-- Limits with the window for each host, and another default spelled out. -/
def spelledLimits : List (Node × Node) :=
  [(plain "host_idle_timeout", plain "60"), (plain "per_host", .mapping spelledWindow)]

/-- Five calls per second for each host, and in every record something spelled out. -/
def spelledTree : Node :=
  oneListener [(plain "ratelimit", .mapping spelledLimits), (plain "deny", .sequence [])]

theorem per_spellsDefault : Role.rate.SpellsDefault (plain "per") (plain "1") :=
  ⟨rfl, .one, by decide +kernel, fromSeconds_one⟩

theorem spelledWindow_relaid : Relaid .rate (plain "5") (.mapping spelledWindow) := by
  have hwindow : Relaid .rate (plain "5") (.mapping [(plain "rate", plain "5")]) :=
    .perSecond _ rfl
  refine hwindow.trans (.spelled per_spellsDefault ?_)
  rw [List.forall_mem_singleton]
  show WindowKey.ofNode? (plain "rate") ≠ WindowKey.ofNode? (plain "per")
  decide

theorem spelledLimits_relaid :
    Relaid .rateLimits (.mapping [(plain "per_host", plain "5")]) (.mapping spelledLimits) := by
  have hminute : Role.rateLimits.SpellsDefault (plain "host_idle_timeout") (plain "60") :=
    ⟨.root, by decide +kernel⟩
  have hrate : Relaid .rateLimits (.mapping [(plain "per_host", plain "5")])
      (.mapping [(plain "per_host", .mapping spelledWindow)]) :=
    .only_value spelledWindow_relaid
  refine hrate.trans (.spelled hminute ?_)
  rw [List.forall_mem_singleton]
  show keyName? (plain "per_host") ≠ keyName? (plain "host_idle_timeout")
  decide

theorem spelledTree_relaid : Relaid .config (hostLimited (plain "5")) spelledTree := by
  have hlimits : Relaid .listener
      (.mapping [(plain "ratelimit", .mapping [(plain "per_host", plain "5")])])
      (.mapping [(plain "ratelimit", .mapping spelledLimits)]) :=
    .only_value spelledLimits_relaid
  have hnobody : Role.listener.SpellsDefault (plain "deny") (.sequence []) := ⟨.root, rfl⟩
  have hdeny : Relaid .listener (.mapping [(plain "ratelimit", .mapping spelledLimits)])
      (.mapping [(plain "deny", .sequence []), (plain "ratelimit", .mapping spelledLimits)]) := by
    refine .spelled hnobody ?_
    rw [List.forall_mem_singleton]
    show keyName? (plain "ratelimit") ≠ keyName? (plain "deny")
    decide
  have hlistener := (hlimits.trans hdeny).trans (.permuted (.swap _ _ _))
  exact .only_value (.only_item hlistener)

/-- Five calls per second for each host, in short and spelled out. -/
theorem layout_is_immaterial_to_five_per_second :
    (ofNode (hostLimited (plain "5"))).toOption = (ofNode spelledTree).toOption ∧
    (ofNode (hostLimited (plain "5"))).toOption.isSome = true :=
  ⟨layout_is_immaterial spelledTree_relaid, by decide +kernel⟩

/-- The entries of a window of five calls, with a period of one second under two keys: the name of
the field, and its number. -/
def periodUnderTwoKeys : List (Node × Node) :=
  [(plain "rate", plain "5"), (plain "per", plain "1"), (plain "1", plain "1")]

/-- No two keys of the window are the same, and one spells out its default; but it stands for the
same as another. The window is refused, and without that key it is accepted. -/
theorem period_under_two_keys_is_refused :
    (periodUnderTwoKeys.map fun entry => scalarOf? entry.1).Nodup ∧
    periodUnderTwoKeys[1]? = some (plain "per", plain "1") ∧
    Role.rate.SpellsDefault (plain "per") (plain "1") ∧
    Role.rate.SameField (plain "1") (plain "per") ∧
    (ofNode (hostLimited (.mapping periodUnderTwoKeys))).toOption = none ∧
    (ofNode (hostLimited (.mapping (periodUnderTwoKeys.eraseIdx 1)))).toOption.isSome = true := by
  refine ⟨by decide, rfl, per_spellsDefault, ?_, by decide +kernel, by decide +kernel⟩
  show WindowKey.ofNode? (plain "1") = WindowKey.ofNode? (plain "per")
  decide +kernel

end Gatehouse.Config
