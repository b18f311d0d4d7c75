import StellarTipjar.Indexer.Effects

/-!
# Indexer — no event is lost

The listener saves its cursor whether or not the events of the page were stored: an error of
`process_event` is logged only. Below is the exact condition on one call under which its event ends
in a table (`recorded_processEvent_iff`), and from it the invariant of a whole run: what lies before
the cursor of the loop, before the cursor in the database and before the next event of the page is
recorded. Restarts and failures to save only move the loop back to a place that is recorded too.
-/

namespace Indexer

open Lib

/-- The event has a row in one of the tables. -/
def Recorded (b : Backend) (event : RawContractEvent) : Prop :=
  (b.contractEvents.get event.id).isSome ∨ (b.eventFailures.get event.id).isSome

/-- A call of `process_event` that does not lose its event: there is a row already, or one of the
attempts to insert it is executed, or the one attempt to record its failure is. -/
def Kept (listener : EventListener) (ok : Nat → Bool) (b : Backend) (event : RawContractEvent) :
    Prop :=
  Recorded b event ∨
    match parseEvent event with
    | .ok _ => SomeAttempt listener.maxRetries ok
    | .error _ => ok 0 = true

section

variable {listener : EventListener} {ok : Nat → Bool} {b : Backend} {event : RawContractEvent}

/-- No call removes a row. -/
theorem recorded_processEvent (other : RawContractEvent) (h : Recorded b other) :
    Recorded (listener.processEvent ok b event).2 other := by
  rcases processEvent_cases listener ok b event with
    ⟨parsed, -, -, heq⟩ | ⟨err, -, -, heq⟩ | ⟨-, -, heq⟩
  · rw [heq]
    rcases h with h | h
    · left
      by_cases hid : other.id = (listener.row event parsed).eventId
      · rw [hid, Backend.send_contractEvents, Backend.get_insertEvent_self]
        rfl
      · rwa [Backend.send_contractEvents, Backend.get_insertEvent_of_ne _ _ hid]
    · right
      simpa using h
  · rw [heq]
    rcases h with h | h
    · exact .inl h
    · exact .inr ((Backend.isSome_get_upsertFailure ..).mpr (.inr h))
  · rwa [heq]

/-- The event of a call ends in a table exactly when the call keeps it. -/
theorem recorded_processEvent_iff :
    Recorded (listener.processEvent ok b event).2 event ↔ Kept listener ok b event := by
  unfold Kept
  rcases processEvent_cases listener ok b event with
    ⟨parsed, hp, hok, heq⟩ | ⟨err, hp, hok, heq⟩ | ⟨hstored, hrejected, heq⟩
  · rw [heq, hp]
    refine iff_of_true (.inl ?_) (.inr hok)
    have hrow := Backend.get_insertEvent_self b (listener.row event parsed)
    exact Option.isSome_of_eq_some hrow
  · rw [heq, hp]
    exact iff_of_true (.inr ((Backend.isSome_get_upsertFailure ..).mpr (.inl rfl))) (.inr hok)
  · rw [heq]
    cases hp : parseEvent event with
    | ok parsed => simp [hstored parsed hp]
    | error err => simp [hrejected err hp]

end

/-! ## The invariant of the loop -/

section

variable {listener : EventListener} {source : EventSource} {start : Nat} {s : State} {a : Action}

/-- Where the loop reads on from a cursor. -/
def EventListener.readsFrom (listener : EventListener) (source : EventSource)
    (cursor : Option String) : Nat :=
  source.position (query cursor (startLedgerFor cursor listener.bootStartLedger))

def EventListener.savedCursor (listener : EventListener) (b : Backend) : Option String :=
  b.indexerState.get listener.cursorKey

/-- The events from `start` on and before `n` are recorded. -/
def RecordedTo (source : EventSource) (start n : Nat) (b : Backend) : Prop :=
  ∀ i (h : i < source.events.length), start ≤ i → i < n → Recorded b source.events[i]

/-- Wherever the loop is, what it does not read again is recorded. -/
def PhaseInv (listener : EventListener) (source : EventSource) (start : Nat) (b : Backend) :
    Phase → Prop
  | .down => True
  | .polling cursor => RecordedTo source start (listener.readsFrom source cursor) b
  | .processing cursor rest nextCursor => ∃ n,
      rest <+: source.events.drop n ∧ RecordedTo source start n b ∧
      RecordedTo source start (listener.readsFrom source cursor) b ∧
      ∀ next, nextCursor = some next → source.position (.after next) = n + rest.length

structure Inv (listener : EventListener) (source : EventSource) (start : Nat) (s : State) :
    Prop where
  saved : RecordedTo source start (listener.readsFrom source (listener.savedCursor s.backend))
    s.backend
  phase : PhaseInv listener source start s.backend s.phase

theorem RecordedTo.mono {b b' : Backend} {n : Nat} (h : RecordedTo source start n b)
    (hb : ∀ event, Recorded b event → Recorded b' event) : RecordedTo source start n b' :=
  fun i hi hstart hn => hb _ (h i hi hstart hn)

theorem savedCursor_upsertState (listener : EventListener) (b : Backend) (cursor : String) :
    listener.savedCursor (b.upsertState listener.cursorKey cursor) = some cursor := by
  simp [EventListener.savedCursor, Backend.upsertState]

theorem readsFrom_some (cursor : String) :
    listener.readsFrom source (some cursor) = source.position (.after cursor) := rfl

theorem inv_boot (h : Inv listener source start s) (ok : Bool) :
    Inv listener source start (step listener s (.boot ok)) := by
  simp only [step]
  split
  · next hphase hload =>
    refine ⟨h.saved, ?_⟩
    cases ok with
    | false => cases hload
    | true =>
      obtain rfl := Except.ok.inj hload
      exact h.saved
  · exact h

theorem inv_fetch (h : Inv listener source start s) {clients : Nat → HorizonClient}
    (hserves : ∀ i, source.Serves (clients i)) :
    Inv listener source start (step listener s (.fetch clients)) := by
  obtain ⟨b, phase⟩ := s
  cases phase with
  | polling cursor =>
    simp only [step]
    split
    · next page hpage =>
      split
      · exact h
      · next hne =>
        obtain ⟨i, hi⟩ := retryWithBackoff_eq_ok hpage
        obtain ⟨hpre, hnext⟩ := (hserves i).getEvents hi
        obtain ⟨next, hsome, hpos⟩ := hnext (by simpa using hne)
        refine ⟨h.saved, _, hpre, h.phase, h.phase, fun next' hnext' => ?_⟩
        rw [hsome] at hnext'
        rwa [← Option.some.inj hnext']
    · exact h
  | down => exact h
  | processing => exact h

theorem inv_process (h : Inv listener source start s) {ok : Nat → Bool}
    (hkept : ∀ cursor event rest next, s.phase = .processing cursor (event :: rest) next →
      Kept listener ok s.backend event) :
    Inv listener source start (step listener s (.process ok)) := by
  obtain ⟨b, phase⟩ := s
  cases phase with
  | processing cursor rest next =>
    cases rest with
    | nil => exact h
    | cons event rest =>
      have hmono : ∀ other, Recorded b other →
          Recorded (listener.processEvent ok b event).2 other := recorded_processEvent
      have hevent : Recorded (listener.processEvent ok b event).2 event :=
        recorded_processEvent_iff.mpr (hkept _ _ _ _ rfl)
      obtain ⟨n, hpre, hn, hcursor, hnext⟩ := h.phase
      constructor
      · simp only [step, EventListener.savedCursor, processEvent_indexerState]
        exact h.saved.mono hmono
      · refine ⟨n + 1, ?_, ?_, hcursor.mono hmono, fun next' hnext' => ?_⟩
        · obtain ⟨t, ht⟩ := hpre
          exact ⟨t, by rw [← List.tail_drop, ← ht]; rfl⟩
        · intro i hi hstart hlt
          rcases Nat.lt_succ_iff_lt_or_eq.mp hlt with hlt | rfl
          · exact hmono _ (hn i hi hstart hlt)
          · -- the event of this step is the one at position `n`
            have hhead : source.events[i]? = some event := by
              obtain ⟨t, ht⟩ := hpre
              rw [← Nat.add_zero i, ← List.getElem?_drop, ← ht]
              rfl
            rw [List.getElem?_eq_getElem hi] at hhead
            rwa [Option.some.inj hhead]
        · rw [hnext next' hnext', List.length_cons]
          omega
  | down => exact h
  | polling => exact h

theorem inv_save (h : Inv listener source start s) (ok : Bool) :
    Inv listener source start (step listener s (.save ok)) := by
  obtain ⟨b, phase⟩ := s
  cases phase with
  | processing cursor rest next =>
    cases rest with
    | cons => exact h
    | nil =>
      obtain ⟨n, -, hn, hcursor, hnext⟩ := h.phase
      cases next with
      | none => exact ⟨h.saved, hcursor⟩
      | some next =>
        have hpos : RecordedTo source start (listener.readsFrom source (some next)) b := by
          rwa [readsFrom_some, hnext next rfl, List.length_nil, Nat.add_zero]
        cases ok with
        | false => exact ⟨h.saved, hpos⟩
        | true =>
          refine ⟨?_, hpos⟩
          have hsaved := savedCursor_upsertState listener b next
          show RecordedTo source start (listener.readsFrom source
            (listener.savedCursor (b.upsertState listener.cursorKey next))) _
          rw [hsaved]
          exact hpos
  | down => exact h
  | polling => exact h

/-- A step that processes an event keeps it. -/
def StepKept (listener : EventListener) (s : State) : Action → Prop
  | .process ok =>
    match s.phase with
    | .processing _ (event :: _) _ => Kept listener ok s.backend event
    | _ => True
  | _ => True

/-- The servers of a step are those of the source. -/
def StepServed (source : EventSource) : Action → Prop
  | .fetch clients => ∀ i, source.Serves (clients i)
  | _ => True

theorem inv_step (h : Inv listener source start s) (hserved : StepServed source a)
    (hkept : StepKept listener s a) : Inv listener source start (step listener s a) := by
  cases a with
  | boot ok => exact inv_boot h ok
  | fetch clients => exact inv_fetch h hserved
  | process ok =>
    refine inv_process h fun cursor event rest next hphase => ?_
    simpa only [StepKept, hphase] using hkept
  | save ok => exact inv_save h ok
  | crash => exact ⟨h.saved, trivial⟩

end

/-! ## Whole runs -/

/-- Every event from `start` on that the saved cursor has passed is recorded. -/
def NoLoss (listener : EventListener) (source : EventSource) (start : Nat) (b : Backend) : Prop :=
  ∀ cursor, listener.savedCursor b = some cursor →
    RecordedTo source start (source.position (.after cursor)) b

/-- Where the listener starts on a database. -/
def EventListener.startsAt (listener : EventListener) (source : EventSource) (b : Backend) : Nat :=
  listener.readsFrom source (listener.savedCursor b)

theorem inv_start (listener : EventListener) (source : EventSource) (b : Backend) :
    Inv listener source (listener.startsAt source b) ⟨b, .down⟩ :=
  ⟨fun _ _ hstart hlt => absurd hlt (Nat.not_lt.mpr hstart), trivial⟩

/-- In a run in which every call of `process_event` keeps its event nothing is lost, whichever
statements fail, whatever the pages are and wherever the listener crashes. -/
theorem no_event_lost (listener : EventListener) (source : EventSource) (b : Backend)
    (acts : List Action) (hserved : ∀ a ∈ acts, StepServed source a)
    (hkept : ∀ o ∈ trace (step listener) ⟨b, .down⟩ acts, StepKept listener o.before o.act) :
    NoLoss listener source (listener.startsAt source b)
      (run (step listener) ⟨b, .down⟩ acts).backend := by
  have hinv : Inv listener source (listener.startsAt source b)
      (run (step listener) ⟨b, .down⟩ acts) := by
    refine run_invariant_of_trace _ (inv_start listener source b) fun o ho hbefore => ?_
    obtain ⟨l₁, l₂, hacts, -, hafter⟩ := trace_mem _ ho
    rw [hafter]
    have hmem : o.act ∈ acts := by
      rw [hacts]
      simp
    exact inv_step hbefore (hserved _ hmem) (hkept o ho)
  intro cursor hcursor
  have hsaved := hinv.saved
  rwa [hcursor, readsFrom_some] at hsaved

/-! ## A run over two events -/

/-- Both events in one page; `ok` is what happens to the statements of the first. -/
def sampleRun (ok : Nat → Bool) : List Action :=
  [.boot true, .fetch fun _ => sampleClient, .process ok, .process fun _ => true, .save true]

theorem sampleRun_served (ok : Nat → Bool) : ∀ a ∈ sampleRun ok, StepServed sampleSource a := by
  intro a ha
  simp only [sampleRun, List.mem_cons, List.not_mem_nil, or_false] at ha
  rcases ha with rfl | rfl | rfl | rfl | rfl
  case inr.inl => exact fun _ => sampleClient_serves
  all_goals exact trivial

/-- The first attempts fail, and the last one works. -/
theorem no_event_lost_sample :
    NoLoss sampleListener sampleSource 0
      (run (step sampleListener) ⟨.fresh, .down⟩ (sampleRun fun i => i == 5)).backend := by
  refine no_event_lost sampleListener sampleSource .fresh (sampleRun fun i => i == 5)
    (sampleRun_served _) fun o ho => ?_
  simp only [sampleRun, trace, List.mem_cons, List.not_mem_nil, or_false] at ho
  rcases ho with rfl | rfl | rfl | rfl | rfl
  case inr.inr.inl => exact .inr ⟨5, Nat.le_refl 5, rfl⟩
  case inr.inr.inr.inl => exact .inr ⟨0, Nat.zero_le 5, rfl⟩
  all_goals exact trivial

/-- All attempts to insert the first event fail; the second is stored and the cursor saved. -/
theorem first_event_lost :
    (∀ a ∈ sampleRun fun _ => false, StepServed sampleSource a) ∧
    ¬NoLoss sampleListener sampleSource (sampleListener.startsAt sampleSource .fresh)
      (run (step sampleListener) ⟨.fresh, .down⟩ (sampleRun fun _ => false)).backend := by
  refine ⟨sampleRun_served _, fun h => ?_⟩
  have hrec := h "evt-2" rfl 0 (by decide) (by decide) (by decide)
  exact absurd hrec (by unfold Recorded; decide)

end Indexer
