import Gatehouse.Gate.ServeLoop
import Gatehouse.Proofs.Listener.History
/-!
# Runs of the serve loop

A run of the serve loop takes turns of the listener until one of them ends it, and what becomes of
their results, together with the handler, fixes everything that happens: the events of a run and
the loop that it leaves are functions of these fates.

* `turn_running` — one turn of a loop that has not ended;
* `run_is` — any number of them;
* `run_append`, `run_ended` — a run goes on where the one before it stopped, until the loop ends;
* `ended_by` — the turn that ends a loop, and what came before.
-/

namespace Gatehouse

/-! ## What a fate comes to -/

namespace Fate

/-- What this handler does with the stream, if it gets it. -/
def handling (handler : Handler) : Fate → List StreamEvent
  | .returned stream peer =>
      .handled stream peer :: if handler stream peer = .holds then [] else [.closed stream]
  | _ => []

/-- What happens to the stream by the next turn, if this handler gets it when it is returned. -/
def happenings (handler : Handler) (f : Fate) : List StreamEvent := f.events ++ f.handling handler

/-- The stream that stays open with the handler, if there is one. -/
def kept? (handler : Handler) : Fate → Option Nat
  | .returned stream peer => if handler stream peer = .holds then some stream else none
  | _ => none

end Fate

/-- How a turn that ends so ends the serve loop, if it does. -/
def Acceptor.TurnEnd.loopEnd? (handler : Handler) : Acceptor.TurnEnd → Option LoopEnd
  | .again => none
  | .admitted stream peer => if handler stream peer = .panics then some .panicked else none
  | .shuttingDown => some .finished
  | .failed e => some (.failed e)

namespace ServeLoop

/-- How a turn ends the loop, if it does. -/
def endOf? (l : ServeLoop) (t : Turn) : Option LoopEnd :=
  (l.acceptor.turn t).ending.loopEnd? l.handler

/-- What the loop does with streams after a turn of its acceptor. -/
def reaction (l : ServeLoop) (t : Turn) : List StreamEvent :=
  ({ l with acceptor := (l.acceptor.turn t).acceptor }.react (l.acceptor.turn t).ending).2.1

/-- The turns that a run takes. -/
def taken (l : ServeLoop) : List Turn → List Turn
  | [] => []
  | t :: ts => if l.hasEnded then [] else t :: (l.turn t).loop.taken ts

/-- The turns that a run takes, each with what is done with streams after it. -/
def staged (l : ServeLoop) : List Turn → List Acceptor.Stage
  | [] => []
  | t :: ts => if l.hasEnded then [] else (t, l.reaction t) :: (l.turn t).loop.staged ts

/-- The streams left open with the handler after turns with these fates. -/
def keeping (l : ServeLoop) (fates : List Fate) : List Nat :=
  l.held ++ fates.filterMap (Fate.kept? l.handler)

variable {l : ServeLoop} {t : Turn} {ts : List Turn}

/-! ## One turn -/

theorem turn_events_running (running : l.ending = none) (t : Turn) :
    (l.turn t).events = (l.acceptor.turn t).events ++ l.reaction t := by
  simp [turn, hasEnded, running, reaction]

/-- The end of a turn fits the fate of its result. -/
theorem ending_fits (a : Acceptor) (t : Turn) :
    match (a.turn t).ending with
    | .again => (∃ e, a.turnFate t = .passedOver e) ∨
        ∃ stream peer why, a.turnFate t = .turnedAway stream peer why
    | .admitted stream peer => a.turnFate t = .returned stream peer
    | .shuttingDown => (∃ e, a.turnFate t = .passedOver e) ∨
        ∃ stream peer why, a.turnFate t = .turnedAway stream peer why
    | .failed e => a.turnFate t = .fatal e := by
  unfold Acceptor.turnFate
  rcases a.turn_ways t with raised | ⟨e, unread, harr⟩ | ⟨peer, unread, harr⟩
  · obtain ⟨-, hending, -⟩ := Acceptor.turn_signaled raised
    rw [hending, raised]
    cases t.arrival <;> simp
  · obtain ⟨-, hending, -⟩ := Acceptor.turn_failure unread harr
    rw [hending, unread, harr]
    cases h : e.isTransient <;> simp [h]
  · obtain ⟨-, hending, -⟩ := Acceptor.turn_connection unread harr
    rw [hending, unread, harr]
    cases h : (a.screening t peer).verdict <;> simp [h, Fate.ofVerdict]

/-- A turn that returns nothing leaves nothing for the handler. -/
theorem nothing_handled {f : Fate} (handler : Handler)
    (h : (∃ e, f = .passedOver e) ∨ ∃ stream peer why, f = .turnedAway stream peer why) :
    f.kept? handler = none ∧ f.handling handler = [] := by
  rcases h with ⟨e, rfl⟩ | ⟨stream, peer, why, rfl⟩ <;> exact ⟨rfl, rfl⟩

/-- What one turn does to a loop that has not ended. -/
theorem turn_running (running : l.ending = none) (t : Turn) :
    (l.turn t).loop =
        { l with
          acceptor := (l.acceptor.turn t).acceptor
          held := if (l.endOf? t).isSome then [] else l.keeping [l.acceptor.turnFate t]
          ending := l.endOf? t } ∧
      l.reaction t = (l.acceptor.turnFate t).handling l.handler ++
        if (l.endOf? t).isSome then (l.keeping [l.acceptor.turnFate t]).map .closed else [] := by
  have hfits := ending_fits l.acceptor t
  unfold turn endOf? keeping reaction
  cases hending : (l.acceptor.turn t).ending with
  | again =>
      rw [hending] at hfits
      obtain ⟨hkept, hhandling⟩ := nothing_handled l.handler hfits
      simp [hasEnded, running, hending, react, Acceptor.TurnEnd.loopEnd?, hkept, hhandling]
  | admitted stream peer =>
      rw [hending] at hfits
      replace hfits : l.acceptor.turnFate t = .returned stream peer := hfits
      cases hhandler : l.handler stream peer <;>
        simp [hasEnded, running, hending, react, handle, finish, Acceptor.TurnEnd.loopEnd?, hfits,
          hhandler, Fate.handling, Fate.kept?]
  | shuttingDown =>
      rw [hending] at hfits
      obtain ⟨hkept, hhandling⟩ := nothing_handled l.handler hfits
      simp [hasEnded, running, hending, react, finish, Acceptor.TurnEnd.loopEnd?, hkept, hhandling]
  | failed e =>
      rw [hending] at hfits
      replace hfits : l.acceptor.turnFate t = .fatal e := hfits
      simp [hasEnded, running, hending, react, finish, Acceptor.TurnEnd.loopEnd?, hfits,
        Fate.handling, Fate.kept?]

theorem turn_happenings (running : l.ending = none) (t : Turn) :
    (l.turn t).events = (l.acceptor.turnFate t).happenings l.handler ++
      if (l.endOf? t).isSome then (l.keeping [l.acceptor.turnFate t]).map .closed else [] := by
  rw [turn_events_running running, (turn_running running t).2, Acceptor.turn_events,
    Fate.happenings, List.append_assoc]

/-! ## Any number of turns -/

theorem hasEnded_iff : l.hasEnded = true ↔ l.ending ≠ none := Option.isSome_iff_ne_none

theorem run_ended (ended : l.ending ≠ none) (ts : List Turn) :
    l.run ts = { loop := l, rest := ts } := by
  cases ts with
  | nil => rfl
  | cons t ts => simp [run, hasEnded_iff.mpr ended]

theorem taken_ended (ended : l.ending ≠ none) (ts : List Turn) : l.taken ts = [] := by
  cases ts with
  | nil => rfl
  | cons t ts => simp [taken, hasEnded_iff.mpr ended]

theorem run_cons (running : l.ending = none) (t : Turn) (ts : List Turn) :
    (l.run (t :: ts)).loop = ((l.turn t).loop.run ts).loop ∧
      (l.run (t :: ts)).rest = ((l.turn t).loop.run ts).rest ∧
      (l.run (t :: ts)).events = (l.turn t).events ++ ((l.turn t).loop.run ts).events := by
  simp [run, hasEnded, running]

theorem taken_cons (running : l.ending = none) (t : Turn) (ts : List Turn) :
    l.taken (t :: ts) = t :: (l.turn t).loop.taken ts := by
  simp [taken, hasEnded, running]

theorem staged_cons (running : l.ending = none) (t : Turn) (ts : List Turn) :
    l.staged (t :: ts) = (t, l.reaction t) :: (l.turn t).loop.staged ts := by
  simp [staged, hasEnded, running]

theorem staged_ended (ended : l.ending ≠ none) (ts : List Turn) : l.staged ts = [] := by
  cases ts with
  | nil => rfl
  | cons t ts => simp [staged, hasEnded_iff.mpr ended]

theorem staged_turns (l : ServeLoop) (ts : List Turn) : (l.staged ts).map (·.1) = l.taken ts := by
  induction ts generalizing l with
  | nil => rfl
  | cons t ts ih =>
      by_cases running : l.ending = none
      · rw [staged_cons running, taken_cons running, List.map_cons, ih]
      · rw [staged_ended running, taken_ended running]
        rfl

/-- A run takes a first part of the turns. -/
theorem taken_rest (l : ServeLoop) (ts : List Turn) : l.taken ts ++ (l.run ts).rest = ts := by
  induction ts generalizing l with
  | nil => rfl
  | cons t ts ih =>
      by_cases running : l.ending = none
      · rw [taken_cons running, (run_cons running t ts).2.1, List.cons_append, ih]
      · rw [taken_ended running, run_ended running]
        rfl

/-- What a run does, told by the fates of the turns that it takes. -/
structure RunIs (l : ServeLoop) (taken : List Turn) (report : Report) : Prop where
  acceptor : report.loop.acceptor = l.acceptor.afterTurns taken
  handler : report.loop.handler = l.handler
  held : report.loop.held =
    if report.loop.hasEnded then [] else l.keeping (l.acceptor.turnFates taken)
  events : report.events = (l.acceptor.turnFates taken).flatMap (Fate.happenings l.handler) ++
    if report.loop.hasEnded then (l.keeping (l.acceptor.turnFates taken)).map .closed else []

theorem run_is (running : l.ending = none) (ts : List Turn) :
    l.RunIs (l.taken ts) (l.run ts) := by
  induction ts generalizing l with
  | nil =>
      refine ⟨rfl, rfl, ?_, ?_⟩ <;>
        simp [run, taken, hasEnded, running, keeping, Acceptor.turnFates]
  | cons t ts ih =>
      obtain ⟨hturn, -⟩ := turn_running running t
      have hevents := turn_happenings running t
      obtain ⟨hloop, -, hrun⟩ := run_cons running t ts
      have hacceptor : (l.turn t).loop.acceptor = (l.acceptor.turn t).acceptor := by rw [hturn]
      have hhandler : (l.turn t).loop.handler = l.handler := by rw [hturn]
      rw [taken_cons running]
      cases ended : l.endOf? t with
      | none =>
          rw [ended] at hturn hevents
          have hkeeping : ∀ fates, (l.turn t).loop.keeping fates =
              l.keeping (l.acceptor.turnFate t :: fates) := by
            intro fates
            rw [hturn]
            simp only [keeping, List.filterMap_cons, List.filterMap_nil]
            cases (l.acceptor.turnFate t).kept? l.handler <;> simp
          obtain ⟨h1, h2, h3, h4⟩ := ih (l := (l.turn t).loop) (by rw [hturn])
          rw [hacceptor] at h1 h3 h4
          rw [hkeeping] at h3 h4
          rw [hhandler] at h2 h4
          refine ⟨by rw [hloop, h1]; rfl, by rw [hloop, h2], by rw [hloop, h3]; rfl, ?_⟩
          rw [hrun, hevents, h4, hloop]
          simp [Acceptor.turnFates]
      | some e =>
          -- The loop has ended, and takes no more turns.
          rw [ended] at hturn hevents
          have hnext : (l.turn t).loop.ending ≠ none := by simp [hturn]
          have hstays := congrArg Report.loop (run_ended hnext ts)
          have hquiet := congrArg Report.events (run_ended hnext ts)
          rw [taken_ended hnext]
          refine ⟨?_, ?_, ?_, ?_⟩
          · rw [hloop, hstays, hacceptor]
            rfl
          · rw [hloop, hstays, hhandler]
          · rw [hloop, hstays]
            simp [hturn, hasEnded]
          · rw [hrun, hloop, hstays, hquiet, hevents]
            simp [hturn, hasEnded, Acceptor.turnFates]

/-- A run goes on where the one before it stopped. -/
theorem run_append (l : ServeLoop) (ts us : List Turn) :
    (l.run (ts ++ us)).loop = ((l.run ts).loop.run us).loop ∧
      (l.run (ts ++ us)).events = (l.run ts).events ++ ((l.run ts).loop.run us).events := by
  induction ts generalizing l with
  | nil => exact ⟨rfl, rfl⟩
  | cons t ts ih =>
      by_cases running : l.ending = none
      · obtain ⟨hloop, -, hevents⟩ := run_cons running t (ts ++ us)
        obtain ⟨hfirst, -, hfirstEvents⟩ := run_cons running t ts
        obtain ⟨h1, h2⟩ := ih (l.turn t).loop
        rw [List.cons_append, hloop, hevents, hfirst, hfirstEvents, h1, h2, List.append_assoc]
        exact ⟨rfl, rfl⟩
      · rw [run_ended running, run_ended running, run_ended running]
        exact ⟨rfl, rfl⟩

theorem run_singleton (running : l.ending = none) (t : Turn) :
    (l.run [t]).loop = (l.turn t).loop ∧ (l.run [t]).events = (l.turn t).events := by
  obtain ⟨hloop, -, hevents⟩ := run_cons running t []
  rw [hloop, hevents]
  exact ⟨rfl, List.append_nil _⟩

/-- A loop that has not ended has taken every turn. -/
theorem taken_running (h : (l.run ts).loop.ending = none) : l.taken ts = ts := by
  induction ts generalizing l with
  | nil => rfl
  | cons t ts ih =>
      by_cases running : l.ending = none
      · rw [(run_cons running t ts).1] at h
        rw [taken_cons running, ih h]
      · rw [run_ended running] at h
        exact absurd h running

/-- The turn that ends a loop comes last, after turns that do not end it. -/
theorem ended_by {o : LoopEnd} (running : l.ending = none)
    (h : (l.run ts).loop.ending = some o) :
    ∃ before t, l.taken ts = before ++ [t] ∧ (l.run before).loop.ending = none ∧
      (l.run before).loop.endOf? t = some o := by
  induction ts generalizing l with
  | nil => exact absurd h (by simp [run, running])
  | cons t ts ih =>
      rw [(run_cons running t ts).1] at h
      rw [taken_cons running]
      obtain ⟨hturn, -⟩ := turn_running running t
      by_cases hnext : (l.turn t).loop.ending = none
      · obtain ⟨before, last, htaken, hrun, hend⟩ := ih hnext h
        refine ⟨t :: before, last, by rw [htaken]; rfl, ?_, ?_⟩
        · rwa [(run_cons running t before).1]
        · rwa [(run_cons running t before).1]
      · rw [taken_ended hnext]
        rw [run_ended hnext, hturn] at h
        exact ⟨[], t, rfl, running, h⟩

/-- A failure does not end a loop only if it is transient. -/
theorem transient_of_goes_on {e : IoFailure} (harr : t.arrival = .failure e)
    (h : l.endOf? t = none) : e.isTransient = true := by
  unfold endOf? at h
  rcases l.acceptor.turn_ways t with raised | ⟨e', unread, harr'⟩ | ⟨peer, unread, harr'⟩
  · rw [(Acceptor.turn_signaled raised).2.1] at h
    cases h
  · obtain rfl : e = e' := by simpa [harr] using harr'
    rw [(Acceptor.turn_failure unread harr).2.1] at h
    cases htransient : e.isTransient with
    | true => rfl
    | false => simp [htransient, Acceptor.TurnEnd.loopEnd?] at h
  · rw [harr] at harr'
    cases harr'

theorem transient_of_running {l : ServeLoop} {ts : List Turn}
    (h : (l.run ts).loop.ending = none) :
    ∀ t ∈ ts, ∀ e, t.arrival = .failure e → e.isTransient = true := by
  induction ts generalizing l with
  | nil => simp
  | cons t ts ih =>
      have running : l.ending = none := by
        by_contra ended
        rw [run_ended ended] at h
        exact ended h
      rw [(run_cons running t ts).1] at h
      have hnext : l.endOf? t = none := by
        by_contra ended
        rw [run_ended (by rwa [(turn_running running t).1]), (turn_running running t).1] at h
        exact ended h
      intro u hu e harr
      rcases List.mem_cons.mp hu with rfl | hu
      · exact transient_of_goes_on harr hnext
      · exact ih h u hu e harr

end ServeLoop

end Gatehouse
