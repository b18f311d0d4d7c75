import StellarTipjar.Lib.Store
import StellarTipjar.Lib.Trace
import StellarTipjar.Indexer.EventParser

/-!
# Indexer — the event listener

`indexer/src/event_listener.rs` over the schema of `db/schema.rs`. A table is a store under its
unique column; a statement that fails writes nothing. Whether a statement is executed and what the
event servers answer is decided outside and is an argument of every function below.

* `processEvent` — one event: parsed and inserted, or its failure recorded;
* `HorizonClient.getEvents` — the REST server first, the RPC server when that fails;
* `step` — one step of `EventListener::start`, with crashes between any two steps;
* `replay` — `EventListener::replay`, with fuel for its loop.

Times (`indexed_at`, `created_at`, `updated_at`) and serial numbers of rows are left out.
-/

namespace Indexer

open Lib

/-! ## Tables -/

/-- A row of `contract_events`. -/
structure EventRow where
  contractId : String
  eventId : String
  cursor : String
  ledger : Int
  ledgerClosedAt : Option String
  topic : String
  topicValues : Json
  eventData : Json
  parsedData : Json
  rawEvent : Json
  txHash : Option String
  successfulCall : Option Bool

/-- A row of `event_failures`. -/
structure FailureRow where
  eventId : String
  contractId : String
  reason : String
  retryCount : Nat
  rawEvent : Json

/-- What the listener sends to the stream for an event it has inserted. -/
structure IndexedEvent where
  eventId : String
  contractId : String
  cursor : String
  ledger : Int
  ledgerClosedAt : Option String
  topic : String
  topicValues : Json
  eventData : Json
  parsedData : Json
  rawEvent : Json
  txHash : Option String
  successfulCall : Option Bool

/-- The database, and what has been sent to the stream. -/
structure Backend where
  contractEvents : Store String fun _ => EventRow
  eventFailures : Store String fun _ => FailureRow
  indexerState : Store String fun _ => String
  stream : List IndexedEvent

/-- The database that `ensure_schema` creates. -/
def Backend.fresh : Backend := ⟨.empty, .empty, .empty, []⟩

namespace Backend

/-- `INSERT INTO contract_events … ON CONFLICT (event_id) DO NOTHING`. -/
def insertEvent (b : Backend) (row : EventRow) : Backend :=
  match b.contractEvents.get row.eventId with
  | some _ => b
  | none => { b with contractEvents := b.contractEvents.set row.eventId row }

/-- `INSERT INTO event_failures … ON CONFLICT (event_id) DO UPDATE`. -/
def upsertFailure (b : Backend) (row : FailureRow) : Backend :=
  let retryCount := match b.eventFailures.get row.eventId with
    | some old => old.retryCount + 1
    | none => row.retryCount
  let contractId := match b.eventFailures.get row.eventId with
    | some old => old.contractId
    | none => row.contractId
  { b with eventFailures := b.eventFailures.set row.eventId { row with retryCount, contractId } }

/-- `INSERT INTO indexer_state … ON CONFLICT (key) DO UPDATE`. -/
def upsertState (b : Backend) (key value : String) : Backend :=
  { b with indexerState := b.indexerState.set key value }

/-- The broadcast to the subscribers. -/
def send (b : Backend) (event : IndexedEvent) : Backend :=
  { b with stream := b.stream ++ [event] }

end Backend

/-! ## One event -/

/-- The errors of the listener. -/
inductive Error where
  | database
  | parser (err : ParserError)
  | persist (eventId : String) (cause : Error)
  | fetch
deriving DecidableEq, Repr

/-- `retry_with_backoff`: the attempts after the first `attempt` ones. -/
def retryLoop {α : Type} (op : Nat → Except Error α) : (retries attempt : Nat) → Except Error α
  | 0, attempt => op attempt
  | retries + 1, attempt =>
    match op attempt with
    | .ok output => .ok output
    | .error _ => retryLoop op retries (attempt + 1)

/-- Up to `maxRetries` further attempts. The last error is returned. -/
def retryWithBackoff {α : Type} (maxRetries : Nat) (op : Nat → Except Error α) : Except Error α :=
  retryLoop op maxRetries 0

/-- A statement that leads to `b` when it is executed. -/
def execute (ok : Bool) (b : Backend) : Except Error Backend :=
  if ok then .ok b else .error .database

/-- The fields of `EventListener` that the code below reads. -/
structure EventListener where
  contractId : String
  maxRetries : Nat
  bootStartLedger : Option UInt64

namespace EventListener

variable (listener : EventListener)

/-- The row of a parsed event, under the contract the listener is configured for. -/
def row (event : RawContractEvent) (parsed : ParsedEvent) : EventRow where
  contractId := listener.contractId
  eventId := event.id
  cursor := event.cursor
  ledger := event.ledger
  ledgerClosedAt := event.ledgerClosedAt
  topic := parsed.topic
  topicValues := .array event.topic
  eventData := event.value
  parsedData := parsed.toJson
  rawEvent := event.toJson
  txHash := event.txHash
  successfulCall := event.inSuccessfulContractCall

/-- The event as the subscribers get it, under the contract it names itself. -/
def indexed (event : RawContractEvent) (parsed : ParsedEvent) : IndexedEvent where
  eventId := event.id
  contractId := event.contractId.getD listener.contractId
  cursor := event.cursor
  ledger := event.ledger
  ledgerClosedAt := event.ledgerClosedAt
  topic := parsed.topic
  topicValues := .array event.topic
  eventData := event.value
  parsedData := parsed.toJson
  rawEvent := event.toJson
  txHash := event.txHash
  successfulCall := event.inSuccessfulContractCall

/-- The row of an event that does not parse. -/
def failure (event : RawContractEvent) (reason : String) : FailureRow where
  eventId := event.id
  contractId := listener.contractId
  reason := reason
  retryCount := 1
  rawEvent := event.toJson

-- `ok i` says whether the `i`-th statement of the call is executed
def persistEvent (ok : Nat → Bool) (b : Backend) (event : RawContractEvent)
    (parsed : ParsedEvent) : Except Error Unit × Backend :=
  match retryWithBackoff listener.maxRetries fun attempt =>
      execute (ok attempt) (b.insertEvent (listener.row event parsed)) with
  | .ok b' => (.ok (), b'.send (listener.indexed event parsed))
  | .error cause => (.error (.persist event.id cause), b)

/-- One statement, without retries. -/
def recordFailure (ok : Bool) (b : Backend) (event : RawContractEvent) (reason : String) :
    Except Error Backend :=
  execute ok (b.upsertFailure (listener.failure event reason))

/-- Parses the event, stores it with retries and sends it on. What does not parse is recorded. -/
def processEvent (ok : Nat → Bool) (b : Backend) (event : RawContractEvent) :
    Except Error Unit × Backend :=
  match parseEvent event with
  | .ok parsed => listener.persistEvent ok b event parsed
  | .error err =>
    match listener.recordFailure (ok 0) b event err.message with
    | .ok b' => (.error (.parser err), b')
    | .error cause => (.error cause, b)

/-! ## The cursor -/

/-- The key of the cursor in the state table. -/
def cursorKey : String := "cursor:" ++ listener.contractId

/-- The stored cursor, if there is one. -/
def loadCursor (ok : Bool) (b : Backend) : Except Error (Option String) :=
  if ok then .ok (b.indexerState.get listener.cursorKey) else .error .database

/-- Overwrites it. -/
def saveCursor (ok : Bool) (b : Backend) (cursor : String) : Except Error Backend :=
  execute ok (b.upsertState listener.cursorKey cursor)

end EventListener

/-! ## Fetching a page -/

/-- What a request asks for: a cursor wins over a ledger to start at. -/
inductive Query where
  | after (cursor : String)
  | startLedger (ledger : UInt64)
  | all
deriving DecidableEq, Repr

def query (cursor : Option String) (startLedger : Option UInt64) : Query :=
  match cursor, startLedger with
  | some c, _ => .after c
  | none, some ledger => .startLedger ledger
  | none, none => .all

/-- A page, and where the next one begins. -/
structure EventsPage where
  events : List RawContractEvent
  latestLedger : Option UInt64
  nextCursor : Option String

/-- The records of a REST answer. -/
structure RestPayload where
  events : List RawContractEvent
  latestLedger : Option UInt64

/-- The result of an RPC answer. -/
structure EventsResult where
  events : List RawContractEvent
  latestLedger : Option UInt64
  cursor : Option String

/-- The event servers at one moment; `none` is a request that fails. -/
structure HorizonClient where
  rest : Query → Option RestPayload
  rpc : Query → Option EventsResult

namespace HorizonClient

variable (client : HorizonClient)

/-- The first source. -/
def getEventsHorizonRest (cursor : Option String) (startLedger : Option UInt64) :
    Option EventsPage := do
  let payload ← client.rest (query cursor startLedger)
  pure { events := payload.events, latestLedger := payload.latestLedger
         nextCursor := payload.events.getLast?.map RawContractEvent.cursor }

/-- The second source, which may return a cursor of its own. -/
def getEventsRpc (cursor : Option String) (startLedger : Option UInt64) : Option EventsPage := do
  let result ← client.rpc (query cursor startLedger)
  pure { events := result.events, latestLedger := result.latestLedger
         nextCursor := result.cursor.or (result.events.getLast?.map RawContractEvent.cursor) }

/-- The second source is asked when the first fails. -/
def getEvents (cursor : Option String) (startLedger : Option UInt64) : Except Error EventsPage :=
  match client.getEventsHorizonRest cursor startLedger with
  | some page => .ok page
  | none =>
    match client.getEventsRpc cursor startLedger with
    | some page => .ok page
    | none => .error .fetch

end HorizonClient

/-- The ledger to start at counts only where there is no cursor. -/
def startLedgerFor (cursor : Option String) (startLedger : Option UInt64) : Option UInt64 :=
  if cursor.isNone then startLedger else none

/-! ## `EventListener::start` -/

/-- Where the loop stands. `cursor` is the variable of the loop; between `fetch` and `save` it is
still that of the request. -/
inductive Phase where
  | down
  | polling (cursor : Option String)
  | processing (cursor : Option String) (rest : List RawContractEvent)
      (nextCursor : Option String)

structure State where
  backend : Backend
  phase : Phase

/-- The steps, with what is decided outside: which statements are executed, and what the event
servers are at each attempt. -/
inductive Action where
  | boot (ok : Bool)
  | fetch (clients : Nat → HorizonClient)
  | process (ok : Nat → Bool)
  | save (ok : Bool)
  | crash

/-- A step that is not the next one of the loop does nothing. -/
def step (listener : EventListener) (s : State) : Action → State
  | .boot ok =>
    match s.phase, listener.loadCursor ok s.backend with
    | .down, .ok cursor => { s with phase := .polling cursor }
    | _, _ => s
  | .fetch clients =>
    match s.phase with
    | .polling cursor =>
      match retryWithBackoff listener.maxRetries fun attempt =>
          (clients attempt).getEvents cursor (startLedgerFor cursor listener.bootStartLedger) with
      | .ok page =>
        if page.events.isEmpty then s
        else { s with phase := .processing cursor page.events page.nextCursor }
      | .error _ => s
    | _ => s
  | .process ok =>
    match s.phase with
    | .processing cursor (event :: rest) nextCursor =>
      { backend := (listener.processEvent ok s.backend event).2
        phase := .processing cursor rest nextCursor }
    | _ => s
  | .save ok =>
    match s.phase with
    | .processing cursor [] none => { s with phase := .polling cursor }
    | .processing _ [] (some nextCursor) =>
      match listener.saveCursor ok s.backend nextCursor with
      | .ok b => { backend := b, phase := .polling (some nextCursor) }
      | .error _ => { s with phase := .polling (some nextCursor) }
    | _ => s
  | .crash => { s with phase := .down }

/-! ## `EventListener::replay` -/

structure ReplayRequest where
  fromCursor : Option String
  fromLedger : Option UInt64
  toLedger : Option UInt64
  persistCursor : Option Bool

structure ReplaySummary where
  indexedEvents : Nat
  failedEvents : Nat
  lastCursor : Option String
  latestLedgerSeen : Option UInt64

/-- `event.ledger as u64`. -/
def RawContractEvent.ledgerU64 (event : RawContractEvent) : UInt64 := .ofInt event.ledger

/-- The variables of `replay`, and the calls of `process_event` it has made. -/
structure Progress where
  backend : Backend
  indexed : Nat
  failed : Nat
  latestLedgerSeen : Option UInt64
  calls : List RawContractEvent

namespace EventListener

variable (listener : EventListener)

/-- The inner loop. `true` when an event past the last ledger was met. The outcomes of the
statements are given for each call of `process_event`. -/
def replayPage (ok : Nat → Nat → Bool) (toLedger : Option UInt64) :
    List RawContractEvent → Progress → Bool × Progress
  | [], p => (false, p)
  | event :: rest, p =>
    if toLedger.any fun maxLedger => event.ledgerU64 > maxLedger then (true, p)
    else
      let r := listener.processEvent (ok p.calls.length) p.backend event
      replayPage ok toLedger rest
        { backend := r.2
          indexed := if r.1.isOk then p.indexed + 1 else p.indexed
          failed := if r.1.isOk then p.failed else p.failed + 1
          latestLedgerSeen := some event.ledgerU64
          calls := p.calls ++ [event] }

def summary (p : Progress) (cursor : Option String) : ReplaySummary where
  indexedEvents := p.indexed
  failedEvents := p.failed
  lastCursor := cursor
  latestLedgerSeen := p.latestLedgerSeen

/-- The outer loop, for at most `fuel` pages; `none` when they were not enough. `saveOk` says
whether the cursor can be saved after so many calls. -/
def replayLoop (client : HorizonClient) (ok : Nat → Nat → Bool) (saveOk : Nat → Bool)
    (request : ReplayRequest) :
    Nat → Option String → Progress → Option (Except Error ReplaySummary × Progress)
  | 0, _, _ => none
  | fuel + 1, cursor, p =>
    match client.getEvents cursor (startLedgerFor cursor request.fromLedger) with
    | .error err => some (.error err, p)
    | .ok page =>
      if page.events.isEmpty then some (.ok (summary p cursor), p)
      else
        match listener.replayPage ok request.toLedger page.events p with
        | (true, p) => some (.ok (summary p cursor), p)
        | (false, p) =>
          match request.persistCursor.getD false, page.nextCursor with
          | true, some next =>
            match listener.saveCursor (saveOk p.calls.length) p.backend next with
            | .ok b => replayLoop client ok saveOk request fuel (some next) { p with backend := b }
            | .error err => some (.error err, p)
          | _, next => replayLoop client ok saveOk request fuel next p

/-- Pages until one is empty or goes past `toLedger`. The cursor is saved after a page when the
request asks for it. -/
def replay (client : HorizonClient) (loadOk : Bool) (ok : Nat → Nat → Bool) (saveOk : Nat → Bool)
    (request : ReplayRequest) (fuel : Nat) (b : Backend) :
    Option (Except Error ReplaySummary × Progress) :=
  let start : Progress := ⟨b, 0, 0, none, []⟩
  let cursor : Except Error (Option String) := match request.fromCursor with
    | some cursor => .ok (some cursor)
    | none => listener.loadCursor loadOk b
  match cursor with
  | .error err => some (.error err, start)
  | .ok cursor =>
    let cursor := if cursor = some "" then none else cursor
    listener.replayLoop client ok saveOk request fuel cursor start

end EventListener

end Indexer
