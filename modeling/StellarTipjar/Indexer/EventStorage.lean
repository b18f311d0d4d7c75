import Mathlib.Algebra.Order.BigOperators.Group.List
import StellarTipjar.Indexer.Effects
import StellarTipjar.Indexer.Decoding

/-!
# Indexer — the secondary event store

`indexer/src/indexer/event_storage.rs` and `event_listener.rs`, over the table of
`migrations/0003_create_events.sql`. Every event the listener sends to the stream is classified and
inserted again; the key of a row is the hash of the transaction, so of the events of one transaction
only the first is kept. `get_event_stats` reads the sum of the tips, a `NUMERIC` column, as an `i64`,
which the driver refuses: `event_stats_never` says this, and when the numbers in the row would be
right.

The limits on the lengths of the text columns are left out: addresses, hashes and the names of the
events are far below them.
-/

namespace Indexer

open Lib Soroban

/-! ## The table -/

/-- The columns that `store_event` binds. -/
structure StoredRow where
  eventType : String
  contractId : String
  txHash : String
  sender : Option String
  recipient : Option String
  amount : Option Int
  rawData : Json

/-- The table, in the order of insertion; `tx_hash` is unique. -/
structure EventTable where
  rows : List StoredRow
  unique : (rows.map StoredRow.txHash).Nodup

def EventTable.empty : EventTable := ⟨[], List.nodup_nil⟩

/-- `INSERT INTO contract_events … ON CONFLICT (tx_hash) DO NOTHING`. -/
def EventTable.insert (t : EventTable) (row : StoredRow) : EventTable :=
  if h : row.txHash ∈ t.rows.map StoredRow.txHash then t
  else
    { rows := t.rows ++ [row]
      unique := by
        rw [List.map_append, List.nodup_append_comm]
        exact List.nodup_cons.mpr ⟨h, t.unique⟩ }

/-- `store_event`: the insert, which a row with the same transaction hash makes a no-op. -/
def storeEvent (t : EventTable) (eventType contractId txHash : String)
    (sender recipient : Option String) (amount : Option Int) (rawData : Json) : EventTable :=
  t.insert { eventType, contractId, txHash, sender, recipient, amount, rawData }

structure EventStats where
  tipCount : Int
  totalVolume : Int
  withdrawalCount : Int
deriving DecidableEq, Repr

/-- A column of a result row, with its PostgreSQL type. -/
inductive Column where
  | int8 (value : Int)
  | numeric (value : Int)
deriving DecidableEq, Repr

/-- The number in a column. -/
def Column.value : Column → Int
  | .int8 value => value
  | .numeric value => value

/-- `row.get::<i64, _>(..)`: the driver decodes an `i64` from an `INT8` column and from no other, and
`get` panics (`none`) where the types do not match. -/
def Column.getI64 : Column → Option Int
  | .int8 value => some value
  | .numeric _ => none

/-- The row that the query of `get_event_stats` returns. -/
structure StatsRow where
  tipCount : Column
  totalVolume : Column
  withdrawalCount : Column
deriving DecidableEq, Repr

/-- The query. `COUNT` is an `INT8`; `SUM` over the `BIGINT` column `amount` is a `NUMERIC`, and so is
`COALESCE` of it with `0`. -/
def statsQuery (t : EventTable) (contractId : String) : StatsRow :=
  let rows := t.rows.filter fun row => row.contractId == contractId
  let tips := rows.filter fun row => row.eventType == "tip"
  let withdrawals := rows.filter fun row => row.eventType == "withdraw"
  { tipCount := .int8 tips.length
    totalVolume := .numeric (tips.filterMap StoredRow.amount).sum
    withdrawalCount := .int8 withdrawals.length }

/-- `get_event_stats`; `none` is a panic. -/
def getEventStats (t : EventTable) (contractId : String) : Option EventStats := do
  let row := statsQuery t contractId
  let tipCount ← row.tipCount.getI64
  let totalVolume ← row.totalVolume.getI64
  let withdrawalCount ← row.withdrawalCount.getI64
  pure { tipCount, totalVolume, withdrawalCount }

/-- The numbers in the row. -/
def StatsRow.numbers (row : StatsRow) : EventStats :=
  ⟨row.tipCount.value, row.totalVolume.value, row.withdrawalCount.value⟩

/-! ## Classifying an event -/

/-- `Value::as_str`. -/
def asStr : Json → Option String
  | .string s => some s
  | _ => none

/-- `Value::as_i64`: a number that fits. -/
def asI64 : Json → Option Int
  | .number (.posInt n) => if n.toNat < 9223372036854775808 then some n.toNat else none
  | .number (.negInt n) => some n
  | _ => none

def parseSigned : List Char → Option Int
  | '-' :: digits => (parseDigits digits).map fun n => -Int.ofNat n
  | '+' :: digits => (parseDigits digits).map Int.ofNat
  | digits => (parseDigits digits).map Int.ofNat

/-- `str::parse::<i64>`. -/
def parseI64 (s : String) : Option Int :=
  (parseSigned s.toList).bind fun n =>
    if -9223372036854775808 ≤ n ∧ n < 9223372036854775808 then some n else none

/-- `(event_type, sender, recipient, amount)`. -/
def classify (topic : String) (parsed : Json) :
    String × Option String × Option String × Option Int :=
  let fields := (parsed.field "fields").getD parsed
  let sender := (fields.field "sender").bind asStr
  let creator := (fields.field "creator").bind asStr
  let amount := (((fields.field "amount").bind asStr).bind parseI64).or
    ((fields.field "amount").bind asI64)
  let (eventType, recipient) := match topic with
    | "tip" => ("tip", creator)
    | "withdraw" => ("withdraw", creator)
    | other => (other, creator)
  (eventType, sender, recipient, amount)

/-- What `start_monitoring` does with an event from the stream. -/
def receive (contractId : String) (t : EventTable) (indexed : IndexedEvent) : EventTable :=
  let (eventType, sender, recipient, amount) := classify indexed.topic indexed.parsedData
  storeEvent t eventType contractId (indexed.txHash.getD indexed.eventId) sender recipient amount
    indexed.rawEvent

/-- The loop over the stream of events, from an empty table. -/
def startMonitoring (contractId : String) (stream : List IndexedEvent) : EventTable :=
  stream.foldl (receive contractId) .empty

/-! ## The events of the contract -/

/-- The name under which an event is published. -/
def eventName : TipJar.Event → String
  | .tip .. => "tip"
  | .withdraw .. => "withdraw"
  | .payoutChangeProposed .. => "payout_change_proposed"
  | .payoutChangeApplied .. => "payout_change_applied"
  | .payoutChangeCancelled .. => "payout_change_cancelled"
  | .operatorAuthorized .. => "operator_authorized"
  | .operatorRevoked .. => "operator_revoked"
  | .adminTransferProposed .. => "admin_transfer_proposed"
  | .adminTransferAccepted .. => "admin_transfer_accepted"
  | .adminTransferCancelled .. => "admin_transfer_cancelled"
  | .upgradeProposed .. => "upgrade_proposed"
  | .upgradeExecuted .. => "upgrade_executed"
  | .upgradeCancelled .. => "upgrade_cancelled"
  | .migrated .. => "migrated"
  | .paused .. => "paused"
  | .unpaused .. => "unpaused"
  | .guardianUpdated .. => "guardian_updated"
  | .feeCharged .. => "fee_charged"
  | .feeConfigured .. => "fee_configured"
  | .feeWithdraw .. => "fee_withdraw"
  | .feeCollectorTransferProposed .. => "fee_collector_transfer_proposed"
  | .feeCollectorTransferAccepted .. => "fee_collector_transfer_accepted"
  | .feeCollectorTransferCancelled .. => "fee_collector_transfer_cancelled"

/-- The raw event is the contract's. Of an event that the indexer has no parser for only the name is
ever read. -/
structure Published (strkey : Address → String) (e : TipJar.Event) (raw : RawContractEvent) :
    Prop where
  name : raw.topic.head? = some (.object [("symbol", .string (eventName e))])
  fields : ∀ l, layout e = some l → Carries strkey l raw

/-- An event on its way from the contract to the store. -/
structure Arrival (strkey : Address → String) where
  event : TipJar.Event
  raw : RawContractEvent
  parsed : ParsedEvent
  published : Published strkey event raw
  parses : parseEvent raw = .ok parsed

namespace Arrival

variable {strkey : Address → String} (a : Arrival strkey)

/-- The key of its row. -/
def key : String := a.raw.txHash.getD a.raw.id

def indexed (listener : EventListener) : IndexedEvent := listener.indexed a.raw a.parsed

def isTip : Bool := eventName a.event == "tip"

def isWithdraw : Bool := eventName a.event == "withdraw"

/-- The amount of a tip. -/
def tipAmount : Int :=
  match a.event with
  | .tip _ _ _ amount => amount.val
  | _ => 0

def row (contractId : String) : StoredRow where
  eventType := eventName a.event
  contractId := contractId
  txHash := a.key
  sender := (classify a.parsed.topic a.parsed.toJson).2.1
  recipient := (classify a.parsed.topic a.parsed.toJson).2.2.1
  amount := (classify a.parsed.topic a.parsed.toJson).2.2.2
  rawData := a.raw.toJson

theorem parsed_topic : a.parsed.topic = eventName a.event := by
  have hparse := a.parses
  simp only [parseEvent, a.published.name, topicSymbol_symbol, bind, Except.bind, pure,
    Except.pure] at hparse
  split at hparse
  · cases hparse
  · rw [← Except.ok.inj hparse]

end Arrival

/-- The event type that is stored is the topic. -/
theorem classify_eventType (topic : String) (parsed : Json) : (classify topic parsed).1 = topic := by
  unfold classify
  simp only
  split <;> rfl

/-- What arrives is inserted under its row. -/
theorem receive_indexed {strkey : Address → String} (listener : EventListener) (contractId : String)
    (t : EventTable) (a : Arrival strkey) :
    receive contractId t (a.indexed listener) = t.insert (a.row contractId) := by
  have htype := classify_eventType a.parsed.topic a.parsed.toJson
  rw [a.parsed_topic] at htype
  simp only [receive, storeEvent, Arrival.indexed, EventListener.indexed, Arrival.row, Arrival.key,
    a.parsed_topic, htype]

/-! ## What is kept -/

section

variable {α : Type} (key : α → String)

/-- The events whose key is new when they arrive. -/
def kept : List String → List α → List α
  | _, [] => []
  | seen, a :: rest => if key a ∈ seen then kept seen rest else a :: kept (seen ++ [key a]) rest

/-- What is kept stays in order. -/
theorem kept_sublist (seen : List String) (as : List α) : (kept key seen as).Sublist as := by
  induction as generalizing seen with
  | nil => exact List.Sublist.refl _
  | cons a rest ih =>
    unfold kept
    split
    · exact (ih seen).cons a
    · exact (ih _).cons_cons a

/-- All events of a kind are kept exactly when none of them arrives after another event of its
key. -/
theorem filter_kept_iff (q : α → Bool) (seen : List String) (as : List α) :
    (kept key seen as).filter q = as.filter q ↔
      (∀ a ∈ as, q a = true → key a ∉ seen) ∧
        as.Pairwise fun earlier later => q later = true → key earlier ≠ key later := by
  induction as generalizing seen with
  | nil => simp [kept]
  | cons a rest ih =>
    rw [List.pairwise_cons, List.forall_mem_cons, kept, List.filter_cons]
    by_cases hseen : key a ∈ seen
    · rw [if_pos hseen]
      cases hq : q a with
      | true =>
        -- a row that is lost makes the list shorter
        refine iff_of_false (fun h => ?_) fun h => h.1.1 rfl hseen
        have hlen := ((kept_sublist key seen rest).filter q).length_le
        rw [h, if_pos rfl, List.length_cons] at hlen
        omega
      | false =>
        rw [if_neg Bool.false_ne_true, ih]
        constructor
        · rintro ⟨hnew, hpair⟩
          refine ⟨⟨fun h => absurd h Bool.false_ne_true, hnew⟩, fun b hb hqb heq => ?_, hpair⟩
          exact hnew b hb hqb (heq ▸ hseen)
        · rintro ⟨⟨-, hnew⟩, -, hpair⟩
          exact ⟨hnew, hpair⟩
    · rw [if_neg hseen]
      have hrest : (kept key (seen ++ [key a]) rest).filter q = rest.filter q ↔
          ((q a = true → key a ∉ seen) ∧ ∀ b ∈ rest, q b = true → key b ∉ seen) ∧
            (∀ b ∈ rest, q b = true → key a ≠ key b) ∧
              rest.Pairwise fun earlier later => q later = true → key earlier ≠ key later := by
        rw [ih]
        simp only [List.mem_append, List.mem_singleton, not_or]
        constructor
        · rintro ⟨hnew, hpair⟩
          exact ⟨⟨fun _ => hseen, fun b hb hqb => (hnew b hb hqb).1⟩,
            fun b hb hqb heq => (hnew b hb hqb).2 heq.symm, hpair⟩
        · rintro ⟨⟨-, hnew⟩, hkey, hpair⟩
          exact ⟨fun b hb hqb => ⟨hnew b hb hqb, fun heq => hkey b hb hqb heq.symm⟩, hpair⟩
      rw [← hrest, List.filter_cons]
      split
      · simp
      · exact Iff.rfl

end

/-! ## Amounts -/

/-- The decimal text of a number parses to the number. -/
theorem parseSigned_toDigits (n : Nat) : parseSigned (Nat.toDigits 10 n) = some (Int.ofNat n) := by
  have head : ∀ c rest, Nat.toDigits 10 n = c :: rest → c.isDigit = true := fun c rest hd =>
    isDigit_toDigits (by rw [hd]; exact List.mem_cons_self)
  unfold parseSigned
  split
  · next heq => exact absurd (head _ _ heq) (by decide)
  · next heq => exact absurd (head _ _ heq) (by decide)
  · rw [parseDigits_toDigits, Option.map_some]

/-- The decimal text of an amount that fits is read back. -/
theorem parseI64_decimal {n : Int} (hlo : 0 ≤ n) (hhi : n < 9223372036854775808) :
    parseI64 (decimal n) = some n := by
  obtain ⟨m, rfl⟩ := Int.eq_ofNat_of_zero_le hlo
  have htext : (decimal m).toList = Nat.toDigits 10 m := Nat.toList_repr
  rw [parseI64, htext, parseSigned_toDigits, Option.bind_some, Int.ofNat_eq_natCast,
    if_pos ⟨by omega, hhi⟩]

section

variable {strkey : Address → String} {a : Arrival strkey} {arrivals : List (Arrival strkey)}

theorem isTip_iff : a.isTip = true ↔ ∃ creator token sender amount,
    a.event = .tip creator token sender amount := by
  rw [Arrival.isTip, beq_iff_eq]
  cases a.event <;> simp [eventName]

/-- The row of a tip has its amount. -/
theorem row_amount (hlo : 0 ≤ a.tipAmount) (hhi : a.tipAmount < 9223372036854775808)
    (htip : a.isTip = true) (contractId : String) :
    (a.row contractId).amount = some a.tipAmount := by
  obtain ⟨event, raw, parsed, published, parses⟩ := a
  obtain ⟨creator, token, sender, amount, rfl⟩ := isTip_iff.mp htip
  rw [parseEvent_of_carries (e := .tip creator token sender amount) rfl
    (published.fields _ rfl)] at parses
  obtain rfl := Except.ok.inj parses
  have hparse := parseI64_decimal hlo hhi
  exact congrArg (fun o => Option.or o _) hparse

/-! ## The table -/

/-- A row is appended when its key is new. -/
theorem rows_insert (t : EventTable) (row : StoredRow) : (t.insert row).rows =
    if row.txHash ∈ t.rows.map StoredRow.txHash then t.rows else t.rows ++ [row] := by
  unfold EventTable.insert
  split
  · rfl
  · rfl

/-- The rows are those of the events that were kept. -/
theorem rows_foldl_insert (contractId : String) (t : EventTable) :
    (arrivals.foldl (fun t a => t.insert (a.row contractId)) t).rows =
      t.rows ++ (kept Arrival.key (t.rows.map StoredRow.txHash) arrivals).map
        fun a => a.row contractId := by
  induction arrivals generalizing t with
  | nil => simp [kept]
  | cons a rest ih =>
    rw [List.foldl_cons, ih, rows_insert, kept]
    have hkey : (a.row contractId).txHash = a.key := rfl
    rw [hkey]
    split
    · rfl
    · simp [hkey]

/-- The table holds the first event of every key. -/
theorem rows_startMonitoring (listener : EventListener) (contractId : String) :
    (startMonitoring contractId (arrivals.map fun a => a.indexed listener)).rows =
      (kept Arrival.key [] arrivals).map fun a => a.row contractId := by
  rw [startMonitoring, List.foldl_map]
  simp only [receive_indexed]
  rw [rows_foldl_insert]
  rfl

/-! ## The statistics -/

/-- The sum of the tips. -/
def tipVolume (arrivals : List (Arrival strkey)) : Int := (arrivals.map Arrival.tipAmount).sum

/-- What the statistics should be. -/
def trueStats (arrivals : List (Arrival strkey)) : EventStats where
  tipCount := (arrivals.filter Arrival.isTip).length
  totalVolume := tipVolume arrivals
  withdrawalCount := (arrivals.filter Arrival.isWithdraw).length

/-- An event the statistics count. -/
def Arrival.counted (a : Arrival strkey) : Bool := a.isTip || a.isWithdraw

/-- The sum is a `NUMERIC` whatever the table holds, so that the statistics are never returned. -/
theorem getEventStats_eq_none (t : EventTable) (contractId : String) :
    getEventStats t contractId = none := rfl

theorem numbers_statsQuery {t : EventTable} {contractId : String} {ks : List (Arrival strkey)}
    (h : t.rows = ks.map fun a => a.row contractId) :
    (statsQuery t contractId).numbers =
      ⟨(ks.filter Arrival.isTip).length,
        ((ks.filter Arrival.isTip).filterMap fun a => (a.row contractId).amount).sum,
        (ks.filter Arrival.isWithdraw).length⟩ := by
  have hrows : t.rows.filter (fun row => row.contractId == contractId) = t.rows := by
    rw [h]
    simp [Arrival.row]
  have hfilter : ∀ name, (t.rows.filter fun row => row.eventType == name) =
      (ks.filter fun a => eventName a.event == name).map fun a => a.row contractId := by
    intro name
    rw [h, List.filter_map]
    rfl
  simp only [StatsRow.numbers, statsQuery, Column.value, hrows, hfilter, List.filterMap_map,
    List.length_map]
  rfl

/-- What is no tip has no amount. -/
theorem tipAmount_eq_zero (h : a.isTip = false) : a.tipAmount = 0 := by
  unfold Arrival.tipAmount
  split
  · next heq => exact absurd (isTip_iff.mpr ⟨_, _, _, _, heq⟩) (by rw [h]; exact Bool.false_ne_true)
  · rfl

/-- The volume is the sum over the tips. -/
theorem tipVolume_filter (arrivals : List (Arrival strkey)) :
    ((arrivals.filter Arrival.isTip).map Arrival.tipAmount).sum = tipVolume arrivals := by
  unfold tipVolume
  induction arrivals with
  | nil => rfl
  | cons a rest ih =>
    rw [List.filter_cons, List.map_cons, List.sum_cons]
    cases htip : a.isTip with
    | true => rw [if_pos rfl, List.map_cons, List.sum_cons, ih]
    | false => rw [if_neg Bool.false_ne_true, ih, tipAmount_eq_zero htip, zero_add]

/-- A tip is at most the sum of all. -/
theorem tipAmount_bounds (hpos : ∀ a ∈ arrivals, a.isTip = true → 0 < a.tipAmount)
    (ha : a ∈ arrivals) : 0 ≤ a.tipAmount ∧ a.tipAmount ≤ tipVolume arrivals := by
  have hnonneg : ∀ b ∈ arrivals, 0 ≤ b.tipAmount := by
    intro b hb
    cases htip : b.isTip with
    | true => exact Int.le_of_lt (hpos b hb htip)
    | false => exact Int.le_of_eq (tipAmount_eq_zero htip).symm
  refine ⟨hnonneg a ha, List.single_le_sum ?_ _ (List.mem_map_of_mem ha)⟩
  intro n hn
  obtain ⟨b, hb, rfl⟩ := List.mem_map.mp hn
  exact hnonneg b hb

/-- Where the sum fits, every row of a tip has its amount. -/
theorem filterMap_amount (hpos : ∀ a ∈ arrivals, a.isTip = true → 0 < a.tipAmount)
    (hfits : tipVolume arrivals < 9223372036854775808) {ks : List (Arrival strkey)}
    (hsub : ks.Sublist arrivals) (contractId : String) :
    ((ks.filter Arrival.isTip).filterMap fun a => (a.row contractId).amount) =
      (ks.filter Arrival.isTip).map Arrival.tipAmount := by
  rw [← List.filterMap_eq_map]
  refine List.filterMap_congr fun a ha => ?_
  obtain ⟨hmem, htip⟩ := List.mem_filter.mp ha
  obtain ⟨hlo, hhi⟩ := tipAmount_bounds hpos (hsub.subset hmem)
  exact row_amount hlo (Int.lt_of_le_of_lt hhi hfits) htip contractId

theorem filter_kept_eq_iff (q : Arrival strkey → Bool) :
    (kept Arrival.key [] arrivals).filter q = arrivals.filter q ↔
      arrivals.Pairwise fun earlier later => q later = true → earlier.key ≠ later.key := by
  rw [filter_kept_iff]
  simp

/-- Tips and withdrawals are all kept when none arrives after an event of its key. -/
theorem pairwise_counted_iff :
    (arrivals.Pairwise fun earlier later => later.counted = true → earlier.key ≠ later.key) ↔
      (kept Arrival.key [] arrivals).filter Arrival.isTip = arrivals.filter Arrival.isTip ∧
      (kept Arrival.key [] arrivals).filter Arrival.isWithdraw =
        arrivals.filter Arrival.isWithdraw := by
  rw [filter_kept_eq_iff, filter_kept_eq_iff, ← List.pairwise_and_iff]
  refine List.Pairwise.iff fun earlier later => ?_
  rw [Arrival.counted, Bool.or_eq_true]
  exact or_imp

end

/-- The statistics are never returned: the driver refuses the sum. Even the numbers in the row are
right exactly when no tip or withdrawal arrives after another event with the key of its row. -/
theorem event_stats_never (strkey : Address → String) (listener : EventListener)
    (arrivals : List (Arrival strkey)) (hpos : ∀ a ∈ arrivals, a.isTip = true → 0 < a.tipAmount)
    (hfits : tipVolume arrivals < 9223372036854775808) :
    getEventStats (startMonitoring listener.contractId
        (arrivals.map fun a => a.indexed listener)) listener.contractId ≠
        some (trueStats arrivals) ∧
      ((statsQuery (startMonitoring listener.contractId
          (arrivals.map fun a => a.indexed listener)) listener.contractId).numbers =
          trueStats arrivals ↔
        arrivals.Pairwise fun earlier later => later.counted = true → earlier.key ≠ later.key) := by
  have hsub := kept_sublist Arrival.key [] arrivals
  refine ⟨by rw [getEventStats_eq_none]; exact (Option.some_ne_none _).symm, ?_⟩
  rw [numbers_statsQuery (rows_startMonitoring listener listener.contractId),
    filterMap_amount hpos hfits hsub, pairwise_counted_iff]
  constructor
  · intro hstats
    obtain ⟨htips, -, hwithdrawals⟩ := EventStats.mk.inj hstats
    -- a row that is lost makes the list shorter
    exact ⟨(hsub.filter Arrival.isTip).eq_of_length (Int.ofNat.inj htips),
      (hsub.filter Arrival.isWithdraw).eq_of_length (Int.ofNat.inj hwithdrawals)⟩
  · rintro ⟨htips, hwithdrawals⟩
    rw [htips, hwithdrawals, tipVolume_filter]
    rfl

/-! ## A transaction with two events -/

/-- The raw event of the given fields in a transaction. -/
def inTransaction (id txHash : String) (raw : RawContractEvent) : RawContractEvent :=
  { raw with id, txHash := some txHash }

def tipLayout (amount : I128) : Layout where
  name := "tip"
  kind := .tip
  topics := [("creator", .address ⟨1⟩)]
  data := [("token", .address ⟨2⟩), ("sender", .address ⟨3⟩), ("amount", .i128 amount)]

/-- A tip as it arrives. -/
def sampleTip (id txHash : String) (amount : I128) : Arrival sampleStrkey where
  event := .tip ⟨1⟩ ⟨2⟩ ⟨3⟩ amount
  raw := inTransaction id txHash ((tipLayout amount).encode sampleStrkey)
  parsed := (tipLayout amount).parsed sampleStrkey
  published := ⟨rfl, fun _ hl => Option.some.inj hl ▸ ⟨rfl, rfl⟩⟩
  parses := parseEvent_of_carries (e := .tip ⟨1⟩ ⟨2⟩ ⟨3⟩ amount) rfl ⟨rfl, rfl⟩

/-- What the contract publishes before the tip when it charges a fee. -/
def sampleFeeCharged (id txHash : String) (gross fee net : I128) : Arrival sampleStrkey where
  event := .feeCharged ⟨1⟩ gross fee net
  raw := inTransaction id txHash (goldenEvent
    [.object [("symbol", .string "fee_charged")], (ScVal.address ⟨1⟩).toJson sampleStrkey]
    (.array [(ScVal.i128 gross).toJson sampleStrkey, (ScVal.i128 fee).toJson sampleStrkey,
      (ScVal.i128 net).toJson sampleStrkey]))
  parsed :=
    { kind := .unknown
      topic := "fee_charged"
      fields := .object
        [("raw_topic", .array [.object [("symbol", .string "fee_charged")],
          (ScVal.address ⟨1⟩).toJson sampleStrkey]),
         ("raw_value", .array [(ScVal.i128 gross).toJson sampleStrkey,
          (ScVal.i128 fee).toJson sampleStrkey, (ScVal.i128 net).toJson sampleStrkey])] }
  published := ⟨rfl, fun _ hl => nomatch hl⟩
  parses := rfl

theorem event_stats_never_sample :
    getEventStats (startMonitoring "tipjar" ([sampleTip "evt-1" "tx-1" 1000,
        sampleTip "evt-2" "tx-2" 500].map fun a => a.indexed sampleListener)) "tipjar" ≠
      some (trueStats [sampleTip "evt-1" "tx-1" 1000, sampleTip "evt-2" "tx-2" 500]) :=
  (event_stats_never sampleStrkey sampleListener
    [sampleTip "evt-1" "tx-1" 1000, sampleTip "evt-2" "tx-2" 500]
    (by
      intro a ha _
      simp only [List.mem_cons, List.not_mem_nil, or_false] at ha
      rcases ha with rfl | rfl <;> decide)
    (by decide)).1

/-- A tip with a fee: the driver refuses the sum, and the row of the fee has taken the key, so that
the tip is not stored. -/
theorem tip_after_fee_lost :
    let stored := startMonitoring "tipjar" ([sampleFeeCharged "evt-1" "tx-1" 1000 10 990,
      sampleTip "evt-2" "tx-1" 1000].map fun a => a.indexed sampleListener)
    getEventStats stored "tipjar" = none ∧
      statsQuery stored "tipjar" = ⟨.int8 0, .numeric 0, .int8 0⟩ ∧
      trueStats [sampleFeeCharged "evt-1" "tx-1" 1000 10 990, sampleTip "evt-2" "tx-1" 1000] =
        ⟨1, 1000, 0⟩ := by
  decide

end Indexer
