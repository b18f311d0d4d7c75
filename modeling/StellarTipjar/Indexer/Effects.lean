import StellarTipjar.Indexer.EventListener

/-!
# Indexer — effects of the listener's functions

What a statement does to the tables, what one call of `process_event` can do
(`processEvent_cases`), and what a page is when the servers are those of an event source
(`EventSource.Faithful`): the next events of the source, and a cursor right behind them.
-/

namespace Indexer

open Lib

/-! ## Statements -/

namespace Backend

variable (b : Backend) (row : EventRow) (failure : FailureRow) (event : IndexedEvent)

@[simp] theorem insertEvent_eventFailures : (b.insertEvent row).eventFailures = b.eventFailures := by
  unfold insertEvent
  split <;> rfl

@[simp] theorem insertEvent_indexerState : (b.insertEvent row).indexerState = b.indexerState := by
  unfold insertEvent
  split <;> rfl

/-- A row that is there stays. -/
theorem get_insertEvent_self : (b.insertEvent row).contractEvents.get row.eventId =
    some ((b.contractEvents.get row.eventId).getD row) := by
  unfold insertEvent
  split
  · next old h => simp [h]
  · next h => simp [h]

/-- An insert touches one row. -/
theorem get_insertEvent_of_ne {id : String} (h : id ≠ row.eventId) :
    (b.insertEvent row).contractEvents.get id = b.contractEvents.get id := by
  unfold insertEvent
  split
  · rfl
  · simp [h]

@[simp] theorem upsertFailure_contractEvents :
    (b.upsertFailure failure).contractEvents = b.contractEvents := rfl

@[simp] theorem upsertFailure_indexerState :
    (b.upsertFailure failure).indexerState = b.indexerState := rfl

/-- A failure is recorded, and none is removed. -/
theorem isSome_get_upsertFailure (id : String) :
    ((b.upsertFailure failure).eventFailures.get id).isSome ↔
      id = failure.eventId ∨ (b.eventFailures.get id).isSome := by
  by_cases h : id = failure.eventId
  · subst h
    simp [upsertFailure]
  · simp [upsertFailure, h]

@[simp] theorem upsertState_contractEvents (key value : String) :
    (b.upsertState key value).contractEvents = b.contractEvents := rfl

@[simp] theorem upsertState_eventFailures (key value : String) :
    (b.upsertState key value).eventFailures = b.eventFailures := rfl

@[simp] theorem send_contractEvents : (b.send event).contractEvents = b.contractEvents := rfl

@[simp] theorem send_eventFailures : (b.send event).eventFailures = b.eventFailures := rfl

@[simp] theorem send_indexerState : (b.send event).indexerState = b.indexerState := rfl

end Backend

/-! ## What a call of `process_event` does -/

/-- One of the attempts is executed. -/
def SomeAttempt (maxRetries : Nat) (ok : Nat → Bool) : Prop := ∃ i ≤ maxRetries, ok i = true

/-- The statement has its effect once, at the first attempt that succeeds. -/
theorem retryLoop_execute_ok {ok : Nat → Bool} {b : Backend} {retries attempt : Nat}
    (h : ∃ i ≤ retries, ok (attempt + i) = true) :
    retryLoop (fun i => execute (ok i) b) retries attempt = .ok b := by
  induction retries generalizing attempt with
  | zero =>
    obtain ⟨i, hi, hok⟩ := h
    obtain rfl := Nat.le_zero.mp hi
    rw [Nat.add_zero] at hok
    simp [retryLoop, execute, hok]
  | succ retries ih =>
    unfold retryLoop
    cases hok : ok attempt with
    | true => simp [execute]
    | false =>
      simp only [execute, Bool.false_eq_true, if_false]
      obtain ⟨i, hi, hi'⟩ := h
      -- the attempt that works is not this one
      obtain ⟨j, rfl⟩ : ∃ j, i = j + 1 := by
        cases i with
        | zero => rw [Nat.add_zero, hok] at hi'; cases hi'
        | succ j => exact ⟨j, rfl⟩
      exact ih ⟨j, by omega, by rw [← hi']; congr 1; omega⟩

/-- When no attempt succeeds there is no effect. -/
theorem retryLoop_execute_error {ok : Nat → Bool} {b : Backend} {retries attempt : Nat}
    (h : ∀ i ≤ retries, ok (attempt + i) = false) :
    retryLoop (fun i => execute (ok i) b) retries attempt = .error .database := by
  induction retries generalizing attempt with
  | zero =>
    have hok := h 0 (Nat.le_refl 0)
    rw [Nat.add_zero] at hok
    simp [retryLoop, execute, hok]
  | succ retries ih =>
    have hok := h 0 (Nat.zero_le _)
    rw [Nat.add_zero] at hok
    unfold retryLoop
    simp only [execute, hok, Bool.false_eq_true, if_false]
    refine ih fun i hi => ?_
    have hnext := h (i + 1) (by omega)
    rwa [← Nat.add_assoc, Nat.add_right_comm] at hnext

/-- The loop, from the first attempt. -/
theorem retryWithBackoff_ok {ok : Nat → Bool} {b : Backend} {n : Nat} (h : SomeAttempt n ok) :
    retryWithBackoff n (fun i => execute (ok i) b) = .ok b := by
  obtain ⟨i, hi, hok⟩ := h
  exact retryLoop_execute_ok ⟨i, hi, by rwa [Nat.zero_add]⟩

/-- The same for failure. -/
theorem retryWithBackoff_error {ok : Nat → Bool} {b : Backend} {n : Nat}
    (h : ¬SomeAttempt n ok) :
    retryWithBackoff n (fun i => execute (ok i) b) = .error .database := by
  refine retryLoop_execute_error fun i hi => ?_
  rw [Nat.zero_add]
  exact Bool.eq_false_iff.mpr fun hok => h ⟨i, hi, hok⟩

/-- What comes out of the attempts came out of one of them. -/
theorem retryWithBackoff_eq_ok {α : Type} {op : Nat → Except Error α} {n : Nat} {output : α}
    (h : retryWithBackoff n op = .ok output) : ∃ i, op i = .ok output := by
  have loop : ∀ retries attempt, retryLoop op retries attempt = .ok output →
      ∃ i, op i = .ok output := by
    intro retries
    induction retries with
    | zero => exact fun attempt h => ⟨attempt, h⟩
    | succ retries ih =>
      intro attempt h
      unfold retryLoop at h
      split at h
      · next hop => exact ⟨attempt, by rw [hop, Except.ok.inj h]⟩
      · exact ih _ h
  exact loop n 0 h

section

variable {listener : EventListener} {ok : Nat → Bool} {b : Backend} {event : RawContractEvent}

/-- A parsed event is inserted and sent on. -/
theorem processEvent_stored {parsed : ParsedEvent} (hp : parseEvent event = .ok parsed)
    (hok : SomeAttempt listener.maxRetries ok) :
    listener.processEvent ok b event = (.ok (),
      (b.insertEvent (listener.row event parsed)).send (listener.indexed event parsed)) := by
  simp only [EventListener.processEvent, hp, EventListener.persistEvent, retryWithBackoff_ok hok]

/-- When all attempts fail the event is lost, and the error says so. -/
theorem processEvent_dropped {parsed : ParsedEvent} (hp : parseEvent event = .ok parsed)
    (hok : ¬SomeAttempt listener.maxRetries ok) :
    listener.processEvent ok b event = (.error (.persist event.id .database), b) := by
  simp only [EventListener.processEvent, hp, EventListener.persistEvent,
    retryWithBackoff_error hok]

/-- An event that does not parse is recorded as a failure. -/
theorem processEvent_rejected {err : ParserError} (hp : parseEvent event = .error err)
    (hok : ok 0 = true) :
    listener.processEvent ok b event = (.error (.parser err),
      b.upsertFailure (listener.failure event err.message)) := by
  simp [EventListener.processEvent, hp, EventListener.recordFailure, execute, hok]

/-- Unless that statement fails too: it is tried once. -/
theorem processEvent_unrecorded {err : ParserError} (hp : parseEvent event = .error err)
    (hok : ok 0 = false) : listener.processEvent ok b event = (.error .database, b) := by
  simp [EventListener.processEvent, hp, EventListener.recordFailure, execute, hok]

/-- Everything a call can do to the database. -/
theorem processEvent_cases (listener : EventListener) (ok : Nat → Bool) (b : Backend)
    (event : RawContractEvent) :
    (∃ parsed, parseEvent event = .ok parsed ∧ SomeAttempt listener.maxRetries ok ∧
      (listener.processEvent ok b event).2 =
        (b.insertEvent (listener.row event parsed)).send (listener.indexed event parsed)) ∨
    (∃ err, parseEvent event = .error err ∧ ok 0 = true ∧
      (listener.processEvent ok b event).2 =
        b.upsertFailure (listener.failure event err.message)) ∨
    ((∀ parsed, parseEvent event = .ok parsed → ¬SomeAttempt listener.maxRetries ok) ∧
      (∀ err, parseEvent event = .error err → ok 0 = false) ∧
      (listener.processEvent ok b event).2 = b) := by
  cases hp : parseEvent event with
  | ok parsed =>
    by_cases hok : SomeAttempt listener.maxRetries ok
    · exact .inl ⟨parsed, rfl, hok, by rw [processEvent_stored hp hok]⟩
    · refine .inr (.inr ⟨fun _ _ => hok, fun err h => ?_, by rw [processEvent_dropped hp hok]⟩)
      cases h
  | error err =>
    cases hok : ok 0 with
    | true => exact .inr (.inl ⟨err, rfl, rfl, by rw [processEvent_rejected hp hok]⟩)
    | false =>
      refine .inr (.inr ⟨fun parsed h => ?_, fun _ _ => rfl, ?_⟩)
      · cases h
      · rw [processEvent_unrecorded hp hok]

/-- The cursor is not touched here. -/
theorem processEvent_indexerState :
    (listener.processEvent ok b event).2.indexerState = b.indexerState := by
  rcases processEvent_cases listener ok b event with
    ⟨parsed, -, -, heq⟩ | ⟨err, -, -, heq⟩ | ⟨-, -, heq⟩
  all_goals simp [heq]

end

/-! ## The event source -/

/-- The events of the contract in their order, and how many of them lie before what a request asks
for. A cursor of an event lies right behind it. -/
structure EventSource where
  events : List RawContractEvent
  position : Query → Nat
  position_after : ∀ i (h : i < events.length), position (.after events[i].cursor) = i + 1

namespace EventSource

/-- The servers are those of the source: they answer with the next events, and a cursor they give
lies behind these events and before any further one. -/
structure Serves (source : EventSource) (client : HorizonClient) : Prop where
  rest : ∀ q payload, client.rest q = some payload →
    payload.events <+: source.events.drop (source.position q)
  rpc : ∀ q result, client.rpc q = some result →
    result.events <+: source.events.drop (source.position q)
  rpc_cursor : ∀ q result c, client.rpc q = some result → result.cursor = some c →
    source.position (.after c) = source.position q + result.events.length

variable {source : EventSource} {client : HorizonClient}

/-- A poll resumes behind the last event of a page. -/
theorem position_getLast {p : Nat} {page : List RawContractEvent} {event : RawContractEvent}
    (hpage : page <+: source.events.drop p) (hlast : page.getLast? = some event) :
    source.position (.after event.cursor) = p + page.length := by
  have hpos : 0 < page.length := by
    cases page with
    | nil => cases hlast
    | cons => simp
  rw [List.getLast?_eq_getElem?] at hlast
  have hin : page.length - 1 < page.length := by omega
  have hget : source.events[p + (page.length - 1)]? = some event := by
    rw [← List.getElem?_drop, List.prefix_iff_getElem?.mp hpage _ hin,
      ← List.getElem?_eq_getElem hin, hlast]
  obtain ⟨hlt, rfl⟩ := List.getElem?_eq_some_iff.mp hget
  rw [source.position_after _ hlt]
  omega

/-- A page that is not empty comes with a cursor behind its last event. -/
theorem Serves.getEvents (h : source.Serves client) {cursor : Option String}
    {startLedger : Option UInt64} {page : EventsPage}
    (hpage : client.getEvents cursor startLedger = .ok page) :
    page.events <+: source.events.drop (source.position (query cursor startLedger)) ∧
      (page.events ≠ [] → ∃ next, page.nextCursor = some next ∧
        source.position (.after next) =
          source.position (query cursor startLedger) + page.events.length) := by
  have last : ∀ {events : List RawContractEvent}, events ≠ [] →
      ∃ event, events.getLast? = some event := fun hne => ⟨_, List.getLast?_eq_some_getLast hne⟩
  unfold HorizonClient.getEvents HorizonClient.getEventsHorizonRest at hpage
  cases hrest : client.rest (query cursor startLedger) with
  | some payload =>
    rw [hrest] at hpage
    obtain rfl := Except.ok.inj hpage
    have hpre := h.rest _ _ hrest
    refine ⟨hpre, fun hne => ?_⟩
    obtain ⟨event, hlast⟩ := last hne
    exact ⟨event.cursor, by simp [hlast], position_getLast hpre hlast⟩
  | none =>
    simp only [hrest, HorizonClient.getEventsRpc] at hpage
    cases hrpc : client.rpc (query cursor startLedger) with
    | none =>
      rw [hrpc] at hpage
      cases hpage
    | some result =>
      rw [hrpc] at hpage
      obtain rfl := Except.ok.inj hpage
      have hpre := h.rpc _ _ hrpc
      refine ⟨hpre, fun hne => ?_⟩
      cases hcursor : result.cursor with
      | some c => exact ⟨c, by simp, h.rpc_cursor _ _ _ hrpc hcursor⟩
      | none =>
        obtain ⟨event, hlast⟩ := last hne
        exact ⟨event.cursor, by simp [hlast], position_getLast hpre hlast⟩

end EventSource

/-! ## A source of two events -/

def sampleEvent (id : String) (ledger : Int) : RawContractEvent where
  id := id
  pagingToken := none
  contractId := none
  ledger := ledger
  ledgerClosedAt := none
  topic := [.string "custom"]
  value := .null
  txHash := none
  inSuccessfulContractCall := none

def sampleSource : EventSource where
  events := [sampleEvent "evt-1" 100, sampleEvent "evt-2" 200]
  position
    | .after cursor => if cursor = "evt-1" then 1 else if cursor = "evt-2" then 2 else 0
    | .startLedger ledger => if ledger ≤ 100 then 0 else if ledger ≤ 200 then 1 else 2
    | .all => 0
  position_after := by decide

/-- A server that answers with everything there is. -/
def sampleClient : HorizonClient where
  rest q := some ⟨sampleSource.events.drop (sampleSource.position q), none⟩
  rpc _ := none

theorem sampleClient_serves : sampleSource.Serves sampleClient where
  rest := by
    rintro q payload h
    obtain rfl := Option.some.inj h
    exact List.prefix_rfl
  rpc _ _ h := by cases h
  rpc_cursor _ _ _ h := by cases h

def sampleListener : EventListener where
  contractId := "tipjar"
  maxRetries := 5
  bootStartLedger := none

end Indexer
