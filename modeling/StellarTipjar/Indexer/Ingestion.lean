import StellarTipjar.Indexer.Effects

/-!
# Indexer — ingestion is idempotent and order-independent

Feeding events to `process_event`, when every statement is executed. A row of `contract_events` is
written once and never again, and which table an event ends in is the parser's decision alone; so
the rows are a function of the set of events (`get_contractEvents_ingest`). The listener's loop and
`replay` write these tables through `process_event` only (`ingests_run`, `ingests_replay`), so what
they leave is such a function too (`Fed.ingests`).
-/

namespace Indexer

open Lib

/-- Every statement is executed. -/
def allOk : Nat → Bool := fun _ => true

/-- The database after the events were fed to `process_event`, in this order. -/
def EventListener.ingest (listener : EventListener) (b : Backend) (events : List RawContractEvent) :
    Backend :=
  events.foldl (fun b event => (listener.processEvent allOk b event).2) b

/-- Events with one id are one event. -/
def Consistent (events : List RawContractEvent) : Prop :=
  ∀ e ∈ events, ∀ e' ∈ events, e.id = e'.id → e = e'

section

variable {listener : EventListener} {b : Backend} {event : RawContractEvent}
  {events : List RawContractEvent}

/-! ## One event -/

theorem someAttempt_allOk (n : Nat) : SomeAttempt n allOk := ⟨0, Nat.zero_le n, rfl⟩

theorem get_contractEvents_processEvent_of_ne {id : String} (h : event.id ≠ id) :
    (listener.processEvent allOk b event).2.contractEvents.get id = b.contractEvents.get id := by
  cases hp : parseEvent event with
  | ok parsed =>
    rw [processEvent_stored hp (someAttempt_allOk _), Backend.send_contractEvents,
      Backend.get_insertEvent_of_ne _ _ h.symm]
  | error err => rw [processEvent_rejected hp rfl, Backend.upsertFailure_contractEvents]

theorem get_contractEvents_processEvent_ok {parsed : ParsedEvent}
    (hp : parseEvent event = .ok parsed) :
    (listener.processEvent allOk b event).2.contractEvents.get event.id =
      some ((b.contractEvents.get event.id).getD (listener.row event parsed)) := by
  rw [processEvent_stored hp (someAttempt_allOk _), Backend.send_contractEvents]
  exact Backend.get_insertEvent_self b (listener.row event parsed)

theorem contractEvents_processEvent_error {err : ParserError}
    (hp : parseEvent event = .error err) :
    (listener.processEvent allOk b event).2.contractEvents = b.contractEvents := by
  rw [processEvent_rejected hp rfl, Backend.upsertFailure_contractEvents]

theorem isSome_eventFailures_processEvent (id : String) :
    ((listener.processEvent allOk b event).2.eventFailures.get id).isSome ↔
      (b.eventFailures.get id).isSome ∨ (event.id = id ∧ ∃ err, parseEvent event = .error err) := by
  cases hp : parseEvent event with
  | ok parsed =>
    rw [processEvent_stored hp (someAttempt_allOk _), Backend.send_eventFailures,
      Backend.insertEvent_eventFailures]
    simp
  | error err =>
    have hid : id = (listener.failure event err.message).eventId ↔ event.id = id := eq_comm
    rw [processEvent_rejected hp rfl, Backend.isSome_get_upsertFailure, hid, Or.comm]
    simp

/-! ## A sequence of events -/

/-- The row an event would have, when it is the one asked for and the parser accepts it. -/
def EventListener.rowFor (listener : EventListener) (id : String) (event : RawContractEvent) :
    Option EventRow :=
  match parseEvent event with
  | .ok parsed => if event.id = id then some (listener.row event parsed) else none
  | .error _ => none

theorem get_contractEvents_processEvent (id : String) :
    (listener.processEvent allOk b event).2.contractEvents.get id =
      (b.contractEvents.get id).or (listener.rowFor id event) := by
  unfold EventListener.rowFor
  cases hp : parseEvent event with
  | error err => simp [contractEvents_processEvent_error hp]
  | ok parsed =>
    by_cases hid : event.id = id
    · subst hid
      rw [get_contractEvents_processEvent_ok hp]
      cases b.contractEvents.get event.id <;> simp
    · simp [get_contractEvents_processEvent_of_ne hid, hid]

/-- The first accepted event of an id makes the row, unless there was one. -/
theorem get_contractEvents_ingest (id : String) :
    (listener.ingest b events).contractEvents.get id =
      (b.contractEvents.get id).or (events.findSome? (listener.rowFor id)) := by
  induction events generalizing b with
  | nil => simp [EventListener.ingest]
  | cons event rest ih =>
    rw [EventListener.ingest, List.foldl_cons]
    refine ih.trans ?_
    rw [get_contractEvents_processEvent, List.findSome?_cons, Option.or_assoc]
    cases listener.rowFor id event <;> simp

theorem isSome_eventFailures_ingest (id : String) :
    ((listener.ingest b events).eventFailures.get id).isSome ↔
      (b.eventFailures.get id).isSome ∨
        ∃ event ∈ events, event.id = id ∧ ∃ err, parseEvent event = .error err := by
  induction events generalizing b with
  | nil => simp [EventListener.ingest]
  | cons event rest ih =>
    rw [EventListener.ingest, List.foldl_cons]
    refine ih.trans ?_
    rw [isSome_eventFailures_processEvent, or_assoc, List.exists_mem_cons_iff]

/-- Where ids are consistent it does not matter which event of an id comes first. -/
theorem findSome?_rowFor (hids : Consistent events) {id : String} {row : EventRow} :
    events.findSome? (listener.rowFor id) = some row ↔
      ∃ event ∈ events, listener.rowFor id event = some row := by
  have hid : ∀ e r, listener.rowFor id e = some r → e.id = id := by
    intro e r h
    unfold EventListener.rowFor at h
    split at h
    · split at h
      · assumption
      · cases h
    · cases h
  constructor
  · exact List.exists_of_findSome?_eq_some
  · rintro ⟨event, hmem, hrow⟩
    cases hfind : events.findSome? (listener.rowFor id) with
    | none => rw [List.findSome?_eq_none_iff.mp hfind event hmem] at hrow; cases hrow
    | some other =>
      obtain ⟨first, hfirst, hother⟩ := List.exists_of_findSome?_eq_some hfind
      have heq := hids first hfirst event hmem ((hid _ _ hother).trans (hid _ _ hrow).symm)
      rw [← hother, heq, hrow]

/-- A row of the table comes from an accepted event of the sequence. -/
theorem contractEvents_ingest_fresh (hids : Consistent events) {id : String} {row : EventRow} :
    (listener.ingest .fresh events).contractEvents.get id = some row ↔
      ∃ event ∈ events, listener.rowFor id event = some row := by
  rw [get_contractEvents_ingest, ← findSome?_rowFor hids]
  simp [Backend.fresh]

/-- Two ingestions of the same set of events leave the same table. -/
theorem contractEvents_ingest_congr {events' : List RawContractEvent} (hids : Consistent events)
    (h : ∀ event, event ∈ events' ↔ event ∈ events) :
    (listener.ingest .fresh events').contractEvents =
      (listener.ingest .fresh events).contractEvents := by
  have hids' : Consistent events' := fun e he e' he' =>
    hids e ((h e).mp he) e' ((h e').mp he')
  refine Store.ext fun id => Option.ext fun row => ?_
  rw [contractEvents_ingest_fresh hids', contractEvents_ingest_fresh hids]
  simp only [h]

/-- What was fed once changes no row when it is fed again. -/
theorem contractEvents_ingest_again :
    (listener.ingest (listener.ingest b events) events).contractEvents =
      (listener.ingest b events).contractEvents := by
  refine Store.ext fun id => ?_
  rw [get_contractEvents_ingest, get_contractEvents_ingest, Option.or_assoc, Option.or_self]

/-- An accepted event has a row of its own. -/
theorem isSome_contractEvents_iff (hids : Consistent events) (hmem : event ∈ events) :
    ((listener.ingest .fresh events).contractEvents.get event.id).isSome ↔
      ∃ parsed, parseEvent event = .ok parsed := by
  rw [Option.isSome_iff_exists]
  constructor
  · rintro ⟨row, hrow⟩
    obtain ⟨other, hother, hfor⟩ := (contractEvents_ingest_fresh hids).mp hrow
    unfold EventListener.rowFor at hfor
    split at hfor
    · next parsed hp =>
      split at hfor
      · next hid => exact ⟨parsed, hids other hother event hmem hid ▸ hp⟩
      · cases hfor
    · cases hfor
  · rintro ⟨parsed, hp⟩
    refine ⟨listener.row event parsed, (contractEvents_ingest_fresh hids).mpr ⟨event, hmem, ?_⟩⟩
    simp [EventListener.rowFor, hp]

theorem isSome_eventFailures_iff (hids : Consistent events) (hmem : event ∈ events) :
    ((listener.ingest .fresh events).eventFailures.get event.id).isSome ↔
      ∃ err, parseEvent event = .error err := by
  rw [isSome_eventFailures_ingest]
  constructor
  · rintro (h | ⟨other, hother, hid, err, hp⟩)
    · simp [Backend.fresh] at h
    · exact ⟨err, hids other hother event hmem hid ▸ hp⟩
  · rintro ⟨err, hp⟩
    exact .inr ⟨event, hmem, rfl, err, hp⟩

end

/-! ## The feeders -/

/-- From one database to the other these calls of `process_event` were made on the tables. -/
structure Ingests (listener : EventListener) (b b' : Backend) (calls : List RawContractEvent) :
    Prop where
  contractEvents : b'.contractEvents = (listener.ingest b calls).contractEvents
  eventFailures : b'.eventFailures = (listener.ingest b calls).eventFailures

section

variable {listener : EventListener} {b b' b'' : Backend}

/-- A call reads and writes the two tables only. -/
theorem processEvent_congr (listener : EventListener) (hc : b.contractEvents = b'.contractEvents)
    (hf : b.eventFailures = b'.eventFailures) (event : RawContractEvent) :
    (listener.processEvent allOk b event).2.contractEvents =
        (listener.processEvent allOk b' event).2.contractEvents ∧
      (listener.processEvent allOk b event).2.eventFailures =
        (listener.processEvent allOk b' event).2.eventFailures := by
  constructor
  · refine Store.ext fun id => ?_
    rw [get_contractEvents_processEvent, get_contractEvents_processEvent, hc]
  · cases hp : parseEvent event with
    | ok parsed =>
      rw [processEvent_stored hp (someAttempt_allOk _), processEvent_stored hp (someAttempt_allOk _)]
      simpa using hf
    | error err =>
      rw [processEvent_rejected hp rfl, processEvent_rejected hp rfl]
      simp only [Backend.upsertFailure, hf]

theorem ingest_congr (listener : EventListener) (hc : b.contractEvents = b'.contractEvents)
    (hf : b.eventFailures = b'.eventFailures) (calls : List RawContractEvent) :
    Ingests listener b (listener.ingest b' calls) calls := by
  induction calls generalizing b b' with
  | nil => exact ⟨hc.symm, hf.symm⟩
  | cons event rest ih =>
    obtain ⟨hc', hf'⟩ := processEvent_congr listener hc hf event
    obtain ⟨hce, hfe⟩ := ih hc' hf'
    exact ⟨hce, hfe⟩

theorem Ingests.trans {calls calls' : List RawContractEvent} (h : Ingests listener b b' calls)
    (h' : Ingests listener b' b'' calls') : Ingests listener b b'' (calls ++ calls') := by
  have hcongr := ingest_congr listener h.contractEvents.symm h.eventFailures.symm calls'
  have happend : listener.ingest b (calls ++ calls') =
      listener.ingest (listener.ingest b calls) calls' := List.foldl_append
  constructor
  · rw [happend, ← hcongr.contractEvents, h'.contractEvents]
  · rw [happend, ← hcongr.eventFailures, h'.eventFailures]

theorem ingests_refl (hc : b'.contractEvents = b.contractEvents)
    (hf : b'.eventFailures = b.eventFailures) : Ingests listener b b' [] := ⟨hc, hf⟩

theorem ingests_call (event : RawContractEvent) :
    Ingests listener b (listener.processEvent allOk b event).2 [event] := ⟨rfl, rfl⟩

theorem ingests_saveCursor {ok : Bool} {cursor : String}
    (h : listener.saveCursor ok b cursor = .ok b') : Ingests listener b b' [] := by
  cases ok with
  | false => cases h
  | true =>
    obtain rfl := Except.ok.inj h
    exact ingests_refl rfl rfl

/-- The call a step of the loop makes. -/
def callsOf (s : State) : Action → List RawContractEvent
  | .process _ =>
    match s.phase with
    | .processing _ (event :: _) _ => [event]
    | _ => []
  | _ => []

/-- The statements of the calls are executed. -/
def StepOk : Action → Prop
  | .process ok => ok = allOk
  | _ => True

theorem ingests_step (listener : EventListener) (s : State) {a : Action} (hok : StepOk a) :
    Ingests listener s.backend (step listener s a).backend (callsOf s a) := by
  obtain ⟨b, phase⟩ := s
  cases a with
  | boot ok =>
    simp only [step]
    split <;> exact ingests_refl rfl rfl
  | fetch clients =>
    simp only [step]
    split
    · split
      · split <;> exact ingests_refl rfl rfl
      · exact ingests_refl rfl rfl
    · exact ingests_refl rfl rfl
  | process ok =>
    obtain rfl := hok
    cases phase with
    | processing cursor rest next =>
      cases rest with
      | nil => exact ingests_refl rfl rfl
      | cons event rest => exact ingests_call event
    | down => exact ingests_refl rfl rfl
    | polling => exact ingests_refl rfl rfl
  | save ok =>
    simp only [step]
    split
    · exact ingests_refl rfl rfl
    · split
      · next h => exact ingests_saveCursor h
      · exact ingests_refl rfl rfl
    · exact ingests_refl rfl rfl
  | crash => exact ingests_refl rfl rfl

/-- A run of the listener feeds the events its loop processes. -/
theorem ingests_run (s : State) (acts : List Action) (hok : ∀ a ∈ acts, StepOk a) :
    Ingests listener s.backend (run (step listener) s acts).backend
      ((trace (step listener) s acts).flatMap fun o => callsOf o.before o.act) := by
  induction acts generalizing s with
  | nil => exact ingests_refl rfl rfl
  | cons a acts ih =>
    have hhead := ingests_step listener s (hok a List.mem_cons_self)
    have htail := ih (step listener s a) fun a' ha' => hok a' (List.mem_cons_of_mem a ha')
    exact hhead.trans htail

theorem ingests_replayPage {toLedger : Option UInt64} {page : List RawContractEvent}
    {p p' : Progress} {stop : Bool}
    (h : listener.replayPage (fun _ => allOk) toLedger page p = (stop, p')) :
    ∃ calls, p'.calls = p.calls ++ calls ∧ Ingests listener p.backend p'.backend calls := by
  induction page generalizing p with
  | nil =>
    obtain ⟨-, rfl⟩ := Prod.mk.inj h
    exact ⟨[], (List.append_nil _).symm, ingests_refl rfl rfl⟩
  | cons event rest ih =>
    unfold EventListener.replayPage at h
    split at h
    · obtain ⟨-, rfl⟩ := Prod.mk.inj h
      exact ⟨[], (List.append_nil _).symm, ingests_refl rfl rfl⟩
    · obtain ⟨calls, hcalls, hing⟩ := ih h
      exact ⟨event :: calls, by simp [hcalls], (ingests_call event).trans hing⟩

theorem ingests_replayLoop {client : HorizonClient} {saveOk : Nat → Bool} {request : ReplayRequest}
    {fuel : Nat} {cursor : Option String} {p p' : Progress} {r : Except Error ReplaySummary}
    (h : listener.replayLoop client (fun _ => allOk) saveOk request fuel cursor p = some (r, p')) :
    ∃ calls, p'.calls = p.calls ++ calls ∧ Ingests listener p.backend p'.backend calls := by
  induction fuel generalizing cursor p with
  | zero => cases h
  | succ fuel ih =>
    unfold EventListener.replayLoop at h
    split at h
    · obtain ⟨-, rfl⟩ := Prod.mk.inj (Option.some.inj h)
      exact ⟨[], (List.append_nil _).symm, ingests_refl rfl rfl⟩
    · split at h
      · obtain ⟨-, rfl⟩ := Prod.mk.inj (Option.some.inj h)
        exact ⟨[], (List.append_nil _).symm, ingests_refl rfl rfl⟩
      · split at h
        · next hpage =>
          obtain ⟨-, rfl⟩ := Prod.mk.inj (Option.some.inj h)
          exact ingests_replayPage hpage
        · next p₁ hpage =>
          obtain ⟨calls, hcalls, hing⟩ := ingests_replayPage hpage
          split at h
          · split at h
            · next b hsave =>
              obtain ⟨calls', hcalls', hing'⟩ := ih h
              refine ⟨calls ++ calls', ?_, ?_⟩
              · rw [hcalls', hcalls, List.append_assoc]
              · exact hing.trans ((ingests_saveCursor hsave).trans hing')
            · obtain ⟨-, rfl⟩ := Prod.mk.inj (Option.some.inj h)
              exact ⟨calls, hcalls, hing⟩
          · obtain ⟨calls', hcalls', hing'⟩ := ih h
            exact ⟨calls ++ calls', by rw [hcalls', hcalls, List.append_assoc], hing.trans hing'⟩

/-- A replay feeds the events it calls `process_event` on. -/
theorem ingests_replay {client : HorizonClient} {loadOk : Bool} {saveOk : Nat → Bool}
    {request : ReplayRequest} {fuel : Nat} {p : Progress} {r : Except Error ReplaySummary}
    (h : listener.replay client loadOk (fun _ => allOk) saveOk request fuel b = some (r, p)) :
    Ingests listener b p.backend p.calls := by
  unfold EventListener.replay at h
  simp only at h
  split at h
  · obtain ⟨-, rfl⟩ := Prod.mk.inj (Option.some.inj h)
    exact ingests_refl rfl rfl
  · obtain ⟨calls, hcalls, hing⟩ := ingests_replayLoop h
    rw [List.nil_append] at hcalls
    rwa [hcalls]

/-- What runs of the listener and replays, one after the other in any order, have made of the fresh
database, with the events they fed. A run may start in any phase, so a replay may also come between
two steps of the listener. -/
inductive Fed (listener : EventListener) : Backend → List RawContractEvent → Prop
  | fresh : Fed listener .fresh []
  | run {s : State} {events : List RawContractEvent} {acts : List Action} :
      Fed listener s.backend events → (∀ a ∈ acts, StepOk a) →
      Fed listener (Lib.run (step listener) s acts).backend
        (events ++ (trace (step listener) s acts).flatMap fun o => callsOf o.before o.act)
  | replay {b : Backend} {events : List RawContractEvent} {client : HorizonClient} {loadOk : Bool}
      {saveOk : Nat → Bool} {request : ReplayRequest} {fuel : Nat} {p : Progress}
      {r : Except Error ReplaySummary} :
      Fed listener b events →
      listener.replay client loadOk (fun _ => allOk) saveOk request fuel b = some (r, p) →
      Fed listener p.backend (events ++ p.calls)

/-- However it was fed, the two tables are what `process_event` makes of the events. -/
theorem Fed.ingests {calls : List RawContractEvent} (h : Fed listener b calls) :
    Ingests listener .fresh b calls := by
  induction h with
  | fresh => exact ingests_refl rfl rfl
  | run _ hok ih => exact ih.trans (ingests_run _ _ hok)
  | replay _ hreplay ih => exact ih.trans (ingests_replay hreplay)

end

/-! ## Idempotence -/

/-- The table depends on the set of events only, every event is in exactly one of the two tables,
in `event_failures` when the parser rejects it, and feeding the sequence again changes no row. The
same holds of a database that runs of the listener and replays have fed. -/
theorem ingest_idempotent (listener : EventListener) (events : List RawContractEvent)
    (hids : Consistent events) :
    (∀ events', (∀ event, event ∈ events' ↔ event ∈ events) →
      (listener.ingest .fresh events').contractEvents =
        (listener.ingest .fresh events).contractEvents) ∧
    (∀ event ∈ events,
      (((listener.ingest .fresh events).contractEvents.get event.id).isSome ↔
        ¬((listener.ingest .fresh events).eventFailures.get event.id).isSome) ∧
      (((listener.ingest .fresh events).eventFailures.get event.id).isSome ↔
        ∃ err, parseEvent event = .error err)) ∧
    (listener.ingest (listener.ingest .fresh events) events).contractEvents =
      (listener.ingest .fresh events).contractEvents ∧
    ∀ b calls, Fed listener b calls → (∀ event, event ∈ calls ↔ event ∈ events) →
      b.contractEvents = (listener.ingest .fresh events).contractEvents ∧
      ∀ event ∈ events, (b.eventFailures.get event.id).isSome ↔
        ∃ err, parseEvent event = .error err := by
  refine ⟨fun events' h => contractEvents_ingest_congr hids h, fun event hmem => ?_,
    contractEvents_ingest_again, fun b calls hfed hset => ?_⟩
  · refine ⟨?_, isSome_eventFailures_iff hids hmem⟩
    rw [isSome_contractEvents_iff hids hmem, isSome_eventFailures_iff hids hmem]
    cases parseEvent event <;> simp
  · -- the feeders leave the tables of a plain sequence of calls
    have hing := hfed.ingests
    have hcalls : Consistent calls := fun e he e' he' =>
      hids e ((hset e).mp he) e' ((hset e').mp he')
    refine ⟨?_, fun event hmem => ?_⟩
    · rw [hing.contractEvents]
      exact contractEvents_ingest_congr hids hset
    · rw [hing.eventFailures]
      exact isSome_eventFailures_iff hcalls ((hset event).mpr hmem)

/-- A sequence that is fed with overlaps: an accepted event, a rejected one, the accepted again. -/
theorem ingest_idempotent_sample :
    (sampleListener.ingest .fresh
        [sampleEvent "evt-1" 100, { sampleEvent "evt-2" 200 with topic := [] }]).contractEvents =
      (sampleListener.ingest .fresh
        [{ sampleEvent "evt-2" 200 with topic := [] }, sampleEvent "evt-1" 100,
          sampleEvent "evt-1" 100]).contractEvents := by
  refine (ingest_idempotent sampleListener [{ sampleEvent "evt-2" 200 with topic := [] },
    sampleEvent "evt-1" 100, sampleEvent "evt-1" 100] ?_).1 _ fun event => ?_
  · intro e he e' he' hid
    simp only [List.mem_cons, List.not_mem_nil, or_false, or_self] at he he'
    rcases he with rfl | rfl <;> rcases he' with rfl | rfl
    · rfl
    · exact absurd hid (by decide)
    · exact absurd hid (by decide)
    · rfl
  · simp only [List.mem_cons, List.not_mem_nil, or_false, or_self]
    exact Or.comm

end Indexer
