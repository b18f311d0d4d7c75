import StellarTipjar.Indexer.Effects

/-!
# Indexer — what a replay covers

`replay` with `from_cursor = None` and a range of ledgers. Its loops call `process_event` on the
events from where they start up to the first one past the last ledger (`replayLoop_spec`), however
the servers cut them into pages; every page moves the position forward, so the events that remain
bound the number of rounds. Where the loops start is another matter: a cursor that the live listener
has saved wins over `from_ledger`.
-/

namespace Indexer

open Lib

namespace EventSource

/-- Ledgers do not decrease along the source, and a request that starts at a ledger skips the events
before it. -/
structure Ordered (source : EventSource) : Prop where
  pairwise : source.events.Pairwise fun e e' => e.ledgerU64 ≤ e'.ledgerU64
  startLedger : ∀ ledger i (h : i < source.events.length),
    i < source.position (.startLedger ledger) ↔ source.events[i].ledgerU64 < ledger

/-- No request fails, and an empty page means that no event remains. -/
def Complete (source : EventSource) (client : HorizonClient) : Prop :=
  ∀ cursor startLedger, ∃ page, client.getEvents cursor startLedger = .ok page ∧
    (page.events = [] → source.events.drop (source.position (query cursor startLedger)) = [])

end EventSource

/-! ## One page -/

/-- The counters of a replay agree with the calls it has made. -/
structure Tally (p : Progress) : Prop where
  count : p.indexed + p.failed = p.calls.length
  latest : p.latestLedgerSeen = p.calls.getLast?.map RawContractEvent.ledgerU64

/-- The event is not past the last ledger. -/
def upTo (last : UInt64) (event : RawContractEvent) : Bool := event.ledgerU64 ≤ last

section

variable {listener : EventListener} {ok : Nat → Nat → Bool} {last : UInt64}

theorem past_iff (event : RawContractEvent) :
    ((some last).any fun maxLedger => event.ledgerU64 > maxLedger) = !upTo last event := by
  simp only [Option.any_some, upTo, gt_iff_lt, ← decide_not, UInt64.not_le]

theorem replayPage_spec (listener : EventListener) (ok : Nat → Nat → Bool) (last : UInt64)
    (page : List RawContractEvent) {p : Progress} (hp : Tally p) :
    ∃ p', listener.replayPage ok (some last) page p = (!page.all (upTo last), p') ∧ Tally p' ∧
      p'.calls = p.calls ++ page.takeWhile (upTo last) := by
  induction page generalizing p with
  | nil => exact ⟨p, rfl, hp, (List.append_nil _).symm⟩
  | cons event rest ih =>
    unfold EventListener.replayPage
    rw [past_iff, List.all_cons, List.takeWhile_cons]
    cases hup : upTo last event with
    | false => exact ⟨p, by simp, hp, (List.append_nil _).symm⟩
    | true =>
      simp only [Bool.not_true, Bool.false_eq_true, if_false, if_true, Bool.true_and]
      let r := listener.processEvent (ok p.calls.length) p.backend event
      have hnext : Tally
          { backend := r.2
            indexed := if r.1.isOk then p.indexed + 1 else p.indexed
            failed := if r.1.isOk then p.failed else p.failed + 1
            latestLedgerSeen := some event.ledgerU64
            calls := p.calls ++ [event] } := by
        have hcount := hp.count
        constructor
        · simp only [List.length_append, List.length_singleton]
          split <;> omega
        · simp
      obtain ⟨p', heq, htally, hcalls⟩ := ih hnext
      exact ⟨p', heq, htally, by simpa using hcalls⟩

/-! ## All pages -/

/-- What a replay that started with `calls` made of the events `todo`: the calls up to the last
ledger, or an error because the cursor could not be saved. -/
def Replayed (request : ReplayRequest) (saveOk : Nat → Bool) (last : UInt64)
    (calls todo : List RawContractEvent) (r : Except Error ReplaySummary) (p : Progress) : Prop :=
  match r with
  | .ok summary => Tally p ∧ p.calls = calls ++ todo.takeWhile (upTo last) ∧
      ∃ cursor, summary = EventListener.summary p cursor
  | .error err => err = .database ∧ request.persistCursor = some true ∧ ∃ n, saveOk n = false

theorem takeWhile_append_of_all {α : Type} {q : α → Bool} {l l' : List α} (h : l.all q = true) :
    (l ++ l').takeWhile q = l ++ l'.takeWhile q :=
  List.takeWhile_append_of_pos (List.all_eq_true.mp h)

theorem takeWhile_append_of_not_all {α : Type} {q : α → Bool} {l : List α} (l' : List α)
    (h : l.all q = false) : (l ++ l').takeWhile q = l.takeWhile q := by
  induction l with
  | nil => cases h
  | cons x l ih =>
    rw [List.cons_append, List.takeWhile_cons, List.takeWhile_cons]
    cases hx : q x with
    | false => rfl
    | true =>
      rw [List.all_cons, hx, Bool.true_and] at h
      simp [ih h]

theorem Replayed.append {request : ReplayRequest} {saveOk : Nat → Bool}
    {calls calls' page todo todo' : List RawContractEvent} {r : Except Error ReplaySummary}
    {p : Progress} (h : Replayed request saveOk last calls' todo' r p)
    (hall : page.all (upTo last) = true) (hcalls : calls' = calls ++ page) (htodo : todo' = todo) :
    Replayed request saveOk last calls (page ++ todo) r p := by
  subst hcalls htodo
  cases r with
  | ok summary =>
    obtain ⟨htally, heq, hsummary⟩ := h
    exact ⟨htally, by rw [heq, takeWhile_append_of_all hall, List.append_assoc], hsummary⟩
  | error err => exact h

variable {source : EventSource} {client : HorizonClient} {request : ReplayRequest}

/-- With more fuel than events remain the loop ends. Induction on the fuel: a page that is not empty
leaves fewer events. -/
theorem replayLoop_spec (hserves : source.Serves client) (hcomplete : source.Complete client)
    (listener : EventListener) (ok : Nat → Nat → Bool) (saveOk : Nat → Bool)
    (hlast : request.toLedger = some last) {fuel : Nat} (cursor : Option String) (p : Progress)
    (hfuel : (source.events.drop (source.position
      (query cursor (startLedgerFor cursor request.fromLedger)))).length < fuel) (hp : Tally p) :
    ∃ r p', listener.replayLoop client ok saveOk request fuel cursor p = some (r, p') ∧
      Replayed request saveOk last p.calls (source.events.drop (source.position
        (query cursor (startLedgerFor cursor request.fromLedger)))) r p' := by
  induction fuel generalizing cursor p with
  | zero => exact absurd hfuel (Nat.not_lt_zero _)
  | succ fuel ih =>
    obtain ⟨page, hpage, hempty⟩ :=
      hcomplete cursor (startLedgerFor cursor request.fromLedger)
    obtain ⟨hpre, hnext⟩ := hserves.getEvents hpage
    unfold EventListener.replayLoop
    simp only [hpage, hlast]
    generalize source.position (query cursor (startLedgerFor cursor request.fromLedger)) = pos
      at *
    by_cases hnil : page.events = []
    · refine ⟨.ok (EventListener.summary p cursor), p, ?_, hp, ?_, cursor, rfl⟩
      · simp only [hnil, List.isEmpty_nil, if_true]
      · rw [hempty hnil, List.takeWhile_nil, List.append_nil]
    · obtain ⟨next, hnextCursor, hposnext⟩ := hnext hnil
      obtain ⟨p', hrun, htally, hcalls⟩ :=
        replayPage_spec listener ok last page.events hp
      -- the events that remain are the page and what lies behind its cursor
      have hsplit : source.events.drop pos =
          page.events ++ source.events.drop (pos + page.events.length) := by
        obtain ⟨t, ht⟩ := hpre
        rw [← List.drop_drop, ← ht, List.drop_left]
      have hlt : (source.events.drop (pos + page.events.length)).length < fuel := by
        have hpos := List.length_pos_iff.mpr hnil
        rw [hsplit, List.length_append] at hfuel
        omega
      rw [if_neg (by simpa using hnil), hrun]
      cases hall : page.events.all (upTo last) with
      | false =>
        refine ⟨.ok (EventListener.summary p' cursor), p', rfl, htally, ?_, cursor, rfl⟩
        rw [hcalls, hsplit, takeWhile_append_of_not_all _ hall]
      | true =>
        have hpage : p'.calls = p.calls ++ page.events := by
          rw [hcalls, ← List.append_nil page.events, takeWhile_append_of_all hall]
          simp
        -- what the rest of the loop does, whatever else happened to the database
        have rest : ∀ b, ∃ r p'', listener.replayLoop client ok saveOk request fuel (some next)
            { p' with backend := b } = some (r, p'') ∧
            Replayed request saveOk last p.calls (source.events.drop pos) r p'' := by
          intro b
          obtain ⟨r, p'', heq, hrep⟩ := ih (some next) { p' with backend := b }
            (by rw [← hposnext] at hlt; exact hlt) ⟨htally.count, htally.latest⟩
          refine ⟨r, p'', heq, ?_⟩
          rw [hsplit]
          refine hrep.append hall hpage ?_
          rw [← hposnext]
          rfl
        simp only [hnextCursor, Bool.not_true]
        cases hpersist : request.persistCursor.getD false with
        | false => exact rest p'.backend
        | true =>
          cases hsave : saveOk p'.calls.length with
          | true => exact rest _
          | false =>
            refine ⟨.error .database, p', rfl, rfl, ?_, _, hsave⟩
            cases h : request.persistCursor with
            | none => rw [h] at hpersist; cases hpersist
            | some v => rw [h] at hpersist; rw [← hpersist]; rfl

end

/-! ## The range -/

def inRange (first last : UInt64) (event : RawContractEvent) : Bool :=
  first ≤ event.ledgerU64 && upTo last event

/-- Along ledgers that do not decrease, the first event past the last ledger ends them all. -/
theorem takeWhile_upTo {events : List RawContractEvent} (last : UInt64)
    (h : events.Pairwise fun e e' => e.ledgerU64 ≤ e'.ledgerU64) :
    events.takeWhile (upTo last) = events.filter (upTo last) := by
  induction events with
  | nil => rfl
  | cons event rest ih =>
    rw [List.pairwise_cons] at h
    rw [List.takeWhile_cons, List.filter_cons]
    cases hup : upTo last event with
    | true => rw [if_pos rfl, if_pos rfl, ih h.2]
    | false =>
      have hpast : ∀ e ∈ rest, upTo last e = false := by
        intro e he
        have hle := h.1 e he
        simp only [upTo, decide_eq_false_iff_not, UInt64.not_le] at hup ⊢
        exact UInt64.lt_of_lt_of_le hup hle
      have hnil : rest.filter (upTo last) = [] :=
        List.filter_eq_nil_iff.mpr fun e he => by simp [hpast e he]
      rw [if_neg Bool.false_ne_true, if_neg Bool.false_ne_true, hnil]

theorem filter_drop_startLedger {source : EventSource} (hordered : source.Ordered)
    (first last : UInt64) :
    (source.events.drop (source.position (.startLedger first))).filter (upTo last) =
      source.events.filter (inRange first last) := by
  have hbefore : (source.events.take (source.position (.startLedger first))).filter
      (inRange first last) = [] := by
    refine List.filter_eq_nil_iff.mpr fun e he => ?_
    obtain ⟨i, hi, rfl⟩ := List.mem_iff_getElem.mp he
    rw [List.length_take] at hi
    have hlt := (hordered.startLedger first i (by omega)).mp (by omega)
    rw [List.getElem_take]
    simp [inRange, UInt64.not_le.mpr hlt]
  have hafter : ∀ e ∈ source.events.drop (source.position (.startLedger first)),
      inRange first last e = upTo last e := by
    intro e he
    obtain ⟨i, hi, rfl⟩ := List.mem_iff_getElem.mp he
    have hin : source.position (.startLedger first) + i < source.events.length := by
      rw [List.length_drop] at hi
      omega
    have hle := UInt64.not_lt.mp fun hlt =>
      absurd ((hordered.startLedger first _ hin).mpr hlt) (by omega)
    rw [List.getElem_drop]
    simp [inRange, hle]
  conv_rhs => rw [← List.take_append_drop (source.position (.startLedger first)) source.events]
  rw [List.filter_append, hbefore, List.nil_append, List.filter_congr hafter]

/-! ## What a replay covers -/

/-- The events a replay of a range calls `process_event` on, when this is the saved cursor. -/
def EventSource.covered (source : EventSource) (first last : UInt64) :
    Option String → List RawContractEvent
  | none => source.events.filter (inRange first last)
  | some cursor =>
    if cursor = "" then source.events.filter (inRange first last)
    else (source.events.drop (source.position (.after cursor))).filter (upTo last)

def rangeRequest (first last : UInt64) (persistCursor : Option Bool) : ReplayRequest where
  fromCursor := none
  fromLedger := some first
  toLedger := some last
  persistCursor := persistCursor

/-- The loops start where the saved cursor says, or at the first ledger. -/
theorem takeWhile_covered {source : EventSource} (hordered : source.Ordered) (first last : UInt64)
    (saved : Option String) :
    (source.events.drop (source.position (query (if saved = some "" then none else saved)
      (startLedgerFor (if saved = some "" then none else saved) (some first))))).takeWhile
        (upTo last) = source.covered first last saved := by
  rw [takeWhile_upTo last (hordered.pairwise.drop)]
  cases saved with
  | none => exact filter_drop_startLedger hordered first last
  | some cursor =>
    simp only [EventSource.covered]
    by_cases hcursor : cursor = ""
    · rw [if_pos (congrArg some hcursor), if_pos hcursor]
      exact filter_drop_startLedger hordered first last
    · rw [if_neg fun h => hcursor (Option.some.inj h), if_neg hcursor]
      rfl

/-- A replay ends, with an error only when the cursor cannot be loaded or saved, and otherwise after
one call for each event covered. -/
theorem replay_covers (listener : EventListener) (source : EventSource) (client : HorizonClient)
    (hserves : source.Serves client) (hordered : source.Ordered)
    (hcomplete : source.Complete client) (b : Backend) (loadOk : Bool) (ok : Nat → Nat → Bool)
    (saveOk : Nat → Bool) (persistCursor : Option Bool) (first last : UInt64) (fuel : Nat)
    (hfuel : source.events.length < fuel) :
    ∃ r p, listener.replay client loadOk ok saveOk (rangeRequest first last persistCursor) fuel b =
        some (r, p) ∧
      match r with
      | .ok summary =>
        p.calls = source.covered first last (b.indexerState.get listener.cursorKey) ∧
        summary.indexedEvents + summary.failedEvents = p.calls.length ∧
        summary.latestLedgerSeen = p.calls.getLast?.map RawContractEvent.ledgerU64
      | .error err => err = .database ∧
        (loadOk = false ∨ persistCursor = some true ∧ ∃ n, saveOk n = false) := by
  cases loadOk with
  | false => exact ⟨.error .database, _, rfl, rfl, .inl rfl⟩
  | true =>
    have hcalls := takeWhile_covered hordered first last (b.indexerState.get listener.cursorKey)
    have hlast : (rangeRequest first last persistCursor).toLedger = some last := rfl
    obtain ⟨r, p, heq, hrep⟩ := replayLoop_spec hserves hcomplete listener ok saveOk hlast
      (if b.indexerState.get listener.cursorKey = some "" then none
        else b.indexerState.get listener.cursorKey) ⟨b, 0, 0, none, []⟩
      (Nat.lt_of_le_of_lt (by rw [List.length_drop]; exact Nat.sub_le _ _) hfuel) ⟨rfl, rfl⟩
    refine ⟨r, p, heq, ?_⟩
    cases r with
    | error err =>
      obtain ⟨herr, hpersist, hsave⟩ := hrep
      exact ⟨herr, .inr ⟨hpersist, hsave⟩⟩
    | ok summary =>
      obtain ⟨htally, hp, cursor, rfl⟩ := hrep
      exact ⟨by rw [hp, ← hcalls]; rfl, htally.count, htally.latest⟩

theorem sampleSource_ordered : sampleSource.Ordered where
  pairwise := by decide
  startLedger := by
    intro ledger i h
    have hlen : i < 2 := h
    have h100 : ledger ≤ 100 ↔ ledger.toNat ≤ 100 := UInt64.le_iff_toNat_le
    have h200 : ledger ≤ 200 ↔ ledger.toNat ≤ 200 := UInt64.le_iff_toNat_le
    obtain rfl | rfl : i = 0 ∨ i = 1 := by omega
    · show 0 < (if ledger ≤ 100 then 0 else if ledger ≤ 200 then 1 else 2) ↔ (100 : UInt64) < ledger
      rw [← UInt64.not_le]
      simp only [h100, h200]
      split
      · omega
      · split <;> omega
    · show 1 < (if ledger ≤ 100 then 0 else if ledger ≤ 200 then 1 else 2) ↔ (200 : UInt64) < ledger
      rw [← UInt64.not_le]
      simp only [h100, h200]
      split
      · omega
      · split <;> omega

theorem sampleClient_complete : sampleSource.Complete sampleClient :=
  fun _ _ => ⟨_, rfl, id⟩

/-- A database in which the live listener has saved the cursor of the first event. -/
def savedBackend : Backend := Backend.fresh.upsertState sampleListener.cursorKey "evt-1"

theorem replay_covers_sample :
    ∃ r p, sampleListener.replay sampleClient true (fun _ _ => true) (fun _ => true)
        (rangeRequest 100 200 none) 3 .fresh = some (r, p) ∧
      p.calls = [sampleEvent "evt-1" 100, sampleEvent "evt-2" 200] := by
  obtain ⟨r, p, heq, hr⟩ := replay_covers sampleListener sampleSource sampleClient
    sampleClient_serves sampleSource_ordered sampleClient_complete .fresh true (fun _ _ => true)
    (fun _ => true) none 100 200 3 (by decide)
  refine ⟨r, p, heq, ?_⟩
  cases r with
  | ok summary => exact hr.1
  | error err =>
    obtain ⟨-, h | ⟨h, -⟩⟩ := hr
    · cases h
    · cases h

/-- The range has both events; the replay starts behind the first. -/
theorem saved_cursor_wins :
    sampleSource.Serves sampleClient ∧ sampleSource.Ordered ∧
      sampleSource.Complete sampleClient ∧
    (sampleListener.replay sampleClient true (fun _ _ => true) (fun _ => true)
      (rangeRequest 100 200 none) 3 savedBackend).map (fun r => r.2.calls.map (·.id)) =
        some ["evt-2"] ∧
    (sampleSource.events.filter (inRange 100 200)).map (·.id) = ["evt-1", "evt-2"] :=
  ⟨sampleClient_serves, sampleSource_ordered, sampleClient_complete, by decide, by decide⟩

end Indexer
