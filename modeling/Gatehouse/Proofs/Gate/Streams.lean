import Gatehouse.Proofs.Gate.Serving
/-!
# The streams of a serve loop

Every stream that a run of the serve loop yields is closed once or still open with the handler:
the closings and the open streams together are the streams yielded, each of them once. The handler
gets the connections that the pipeline admits, one by one and in the order in which they are
yielded.

* `happenings_closed`, `run_closed` — the balance of closings, for the fates and for a run;
* `run_yielded`, `run_handled` — what is yielded, and what the handler gets.
-/

namespace Gatehouse

namespace StreamEvent

/-- The stream that is yielded, if the event is that. -/
def yielded? : StreamEvent → Option Nat
  | .yielded stream _ => some stream
  | _ => none

/-- The connection that the handler gets, if the event is that. -/
def handled? : StreamEvent → Option (Nat × Endpoint)
  | .handled stream peer => some (stream, peer)
  | _ => none

/-- The stream that is closed, if the event is that. -/
def closed? : StreamEvent → Option Nat
  | .closed stream => some stream
  | _ => none

theorem closed?_closings (streams : List Nat) :
    (streams.map StreamEvent.closed).filterMap closed? = streams := by
  induction streams with
  | nil => rfl
  | cons stream streams ih => exact congrArg (stream :: ·) ih

theorem count_closed (events : List StreamEvent) (stream : Nat) :
    events.count (.closed stream) = (events.filterMap closed?).count stream := by
  induction events with
  | nil => rfl
  | cons e events ih =>
      cases e <;> simp [closed?, List.count_cons, List.filterMap_cons, ih]

end StreamEvent

open StreamEvent

/-! ## The fates -/

namespace Fate

variable (handler : Handler) (fs : List Fate)

theorem happenings_yielded :
    (fs.flatMap (happenings handler)).filterMap yielded? = fs.filterMap stream? := by
  induction fs with
  | nil => rfl
  | cons f fs ih =>
      rw [List.flatMap_cons, List.filterMap_append, ih]
      cases f with
      | returned stream peer =>
          cases hholds : handler stream peer <;>
            simp [happenings, handling, events, hholds, yielded?, stream?, List.filterMap_cons]
      | _ => simp [happenings, handling, events, yielded?, stream?, List.filterMap_cons]

theorem happenings_handled :
    (fs.flatMap (happenings handler)).filterMap handled? = fs.filterMap returned? := by
  induction fs with
  | nil => rfl
  | cons f fs ih =>
      rw [List.flatMap_cons, List.filterMap_append, ih]
      cases f with
      | returned stream peer =>
          cases hholds : handler stream peer <;>
            simp [happenings, handling, events, hholds, handled?, returned?, List.filterMap_cons]
      | _ => simp [happenings, handling, events, handled?, returned?, List.filterMap_cons]

/-- The streams closed by the next turn and those kept open are all that were yielded. -/
theorem happenings_closed :
    ((fs.flatMap (happenings handler)).filterMap closed? ++ fs.filterMap (kept? handler)).Perm
      (fs.filterMap stream?) := by
  induction fs with
  | nil => exact .refl _
  | cons f fs ih =>
      rw [List.flatMap_cons, List.filterMap_append]
      cases f with
      | returned stream peer =>
          cases hholds : handler stream peer with
          | holds =>
              simp only [happenings, handling, events, hholds, closed?, kept?, stream?,
                List.filterMap_cons, List.filterMap_nil, List.cons_append, List.nil_append, if_true]
              exact List.perm_middle.trans (ih.cons stream)
          | closes | panics =>
              simpa [happenings, handling, events, hholds, closed?, kept?, stream?,
                List.filterMap_cons] using ih
      | _ =>
          simpa [happenings, handling, events, closed?, kept?, stream?,
            List.filterMap_cons] using ih

/-- Among fates of different streams, those kept open are not closed. -/
theorem kept_unclosed (apart : (fs.filterMap stream?).Nodup) :
    ∀ stream ∈ fs.filterMap (kept? handler), .closed stream ∉ fs.flatMap (happenings handler) := by
  have hall := (happenings_closed handler fs).nodup_iff.mpr apart
  intro stream hkept hclosed
  exact (List.disjoint_of_nodup_append hall)
    (List.mem_filterMap.mpr ⟨.closed stream, hclosed, rfl⟩) hkept

/-- A stream is kept open only if its connection was returned. -/
theorem returned_of_kept {stream : Nat} (h : stream ∈ fs.filterMap (kept? handler)) :
    ∃ peer, .returned stream peer ∈ fs ∧ handler stream peer = .holds := by
  obtain ⟨f, hf, hkept⟩ := List.mem_filterMap.mp h
  cases f with
  | returned stream' peer =>
      obtain ⟨hholds, rfl⟩ : handler stream' peer = .holds ∧ stream' = stream := by
        simpa [kept?] using hkept
      exact ⟨peer, hf, hholds⟩
  | _ => cases hkept

end Fate

namespace ServeLoop

variable {l : ServeLoop}

/-! ## A run -/

theorem run_yielded (running : l.ending = none) (ts : List Turn) :
    (l.run ts).events.filterMap yielded? =
      List.range' (l.acceptor.streams + 1) (connectionsOf (l.taken ts)).length := by
  rw [(run_is running ts).events, List.filterMap_append, Fate.happenings_yielded,
    Acceptor.turnFates_streams]
  cases (l.run ts).loop.hasEnded <;> simp [yielded?]

theorem run_handled (running : l.ending = none) (ts : List Turn) :
    (l.run ts).events.filterMap handled? =
      (l.acceptor.turnFates (l.taken ts)).filterMap Fate.returned? := by
  rw [(run_is running ts).events, List.filterMap_append, Fate.happenings_handled]
  cases (l.run ts).loop.hasEnded <;> simp [handled?]

/-- The streams closed in a run and those still open after it are those open before it and those
yielded. -/
theorem run_closed (running : l.ending = none) (ts : List Turn) :
    ((l.run ts).events.filterMap closed? ++ (l.run ts).loop.held).Perm
      (l.held ++
        List.range' (l.acceptor.streams + 1) (connectionsOf (l.taken ts)).length) := by
  have hfates := Fate.happenings_closed l.handler (l.acceptor.turnFates (l.taken ts))
  rw [Acceptor.turnFates_streams] at hfates
  have hall : ((l.acceptor.turnFates (l.taken ts)).flatMap
      (Fate.happenings l.handler)).filterMap closed? ++
        l.keeping (l.acceptor.turnFates (l.taken ts)) |>.Perm
      (l.held ++ List.range' (l.acceptor.streams + 1) (connectionsOf (l.taken ts)).length) := by
    unfold keeping
    exact (List.perm_append_comm_assoc _ _ _).trans (hfates.append_left l.held)
  obtain ⟨-, -, hheld, hevents⟩ := run_is running ts
  rw [hheld, hevents, List.filterMap_append]
  cases (l.run ts).loop.hasEnded
  · simpa using hall
  · rw [if_pos rfl, if_pos rfl, closed?_closings, List.append_nil]
    exact hall

end ServeLoop

end Gatehouse
