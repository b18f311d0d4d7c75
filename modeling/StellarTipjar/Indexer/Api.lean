import StellarTipjar.Indexer.EventStorage
import Mathlib.Data.List.Sort

/-!
# Indexer — the events API

`list_events` of `indexer/src/api/events.rs` over the table `contract_events`. The query is
`SELECT … WHERE … ORDER BY ledger DESC, created_at DESC LIMIT … OFFSET …`: the database may answer
with any arrangement of the selected rows that the ORDER BY allows, and may choose another one at
the next request. `pages_cover` says when a client that walks the pages nevertheless sees every row
once: the table must not change on the way, and the ORDER BY must leave one arrangement.
-/

namespace Indexer

open Lib

/-! ## Requests -/

/-- `contract_events`, under its unique column, with the time each row was inserted. -/
structure EventsDb where
  rows : Store String fun _ => EventRow
  createdAt : String → Int

structure EventQuery where
  topic : Option String
  creator : Option String
  sender : Option String
  txHash : Option String
  minLedger : Option Int
  maxLedger : Option Int
  limit : Option UInt32
  offset : Option UInt32

namespace EventQuery

/-- The query without any filter. -/
def all : EventQuery := ⟨none, none, none, none, none, none, none, none⟩

-- `unwrap_or(50).clamp(1, 500)`
def pageSize (query : EventQuery) : Nat := max 1 (min 500 (query.limit.getD 50).toNat)

def start (query : EventQuery) : Nat := (query.offset.getD 0).toNat

end EventQuery

/-- `parsed_data->'fields'->>'name'`; the listener writes nothing but texts under the names that are
asked for. -/
def EventRow.parsedField (row : EventRow) (name : String) : Option String :=
  ((row.parsedData.field "fields").bind fun fields => fields.field name).bind asStr

/-- A filter that was given. -/
def given {α : Type} (filter : Option α) (holds : α → Bool) : Bool :=
  match filter with
  | some value => holds value
  | none => true

/-- The `WHERE` clause. -/
def EventQuery.selects (query : EventQuery) (row : EventRow) : Bool :=
  given query.topic (fun topic => row.topic == topic) &&
  given query.creator (fun creator => row.parsedField "creator" == some creator) &&
  given query.sender (fun sender => row.parsedField "sender" == some sender) &&
  given query.txHash (fun txHash => row.txHash == some txHash) &&
  given query.minLedger (fun ledger => decide (ledger ≤ row.ledger)) &&
  given query.maxLedger (fun ledger => decide (row.ledger ≤ ledger))

/-! ## Answers -/

/-- `rows` are the rows the query selects, each once. -/
structure EventsDb.Selects (db : EventsDb) (query : EventQuery) (rows : List EventRow) : Prop where
  nodup : rows.Nodup
  mem : ∀ row, row ∈ rows ↔ db.rows.get row.eventId = some row ∧ query.selects row = true

/-- `ORDER BY ledger DESC, created_at DESC`: `a` may stand before `b`. -/
def EventsDb.Precedes (db : EventsDb) (a b : EventRow) : Prop :=
  b.ledger < a.ledger ∨ b.ledger = a.ledger ∧ db.createdAt b.eventId ≤ db.createdAt a.eventId

/-- `page` is an answer of `list_events`. -/
def EventsDb.ListEvents (db : EventsDb) (query : EventQuery) (page : List EventRow) : Prop :=
  ∃ rows, db.Selects query rows ∧ rows.Pairwise db.Precedes ∧
    page = (rows.drop query.start).take query.pageSize

/-- No two selected rows were inserted at one time in one ledger. -/
def EventsDb.DistinctKeys (db : EventsDb) (query : EventQuery) : Prop :=
  ∀ a b, db.rows.get a.eventId = some a → db.rows.get b.eventId = some b →
    query.selects a = true → query.selects b = true → a.ledger = b.ledger →
    db.createdAt a.eventId = db.createdAt b.eventId → a = b

section Order

variable {db : EventsDb} {query : EventQuery} {rows rows' : List EventRow}

/-- The selected rows are the same, in whatever order. -/
theorem EventsDb.Selects.perm (h : db.Selects query rows) (h' : db.Selects query rows') :
    rows.Perm rows' := by
  rw [List.perm_ext_iff_of_nodup h.nodup h'.nodup]
  intro row
  rw [h.mem, h'.mem]

/-- With distinct keys the ORDER BY leaves one arrangement. -/
theorem EventsDb.Selects.unique (h : db.Selects query rows) (h' : db.Selects query rows')
    (hkeys : db.DistinctKeys query) (hordered : rows.Pairwise db.Precedes)
    (hordered' : rows'.Pairwise db.Precedes) : rows = rows' := by
  refine (h.perm h').eq_of_pairwise ?_ hordered hordered'
  intro a b ha hb hab hba
  obtain ⟨hgeta, hsela⟩ := (h.mem a).mp ha
  obtain ⟨hgetb, hselb⟩ := (h'.mem b).mp hb
  unfold EventsDb.Precedes at hab hba
  exact hkeys a b hgeta hgetb hsela hselb (by omega) (by omega)

end Order

/-! ## Walking the pages -/

/-- Consecutive pages of a list. -/
theorem flatten_pages {α : Type} (rows : List α) (size n : Nat) :
    ((List.range n).map fun i => (rows.drop (i * size)).take size).flatten
      = rows.take (n * size) := by
  induction n with
  | zero => simp
  | succ n ih =>
    rw [List.range_succ, List.map_append, List.flatten_append, ih, Nat.succ_mul, List.take_add]
    simp

/-- A client's walk over a table that stays as it is: page `i` is an answer at the offset
`i * page size`. -/
structure EventsDb.Walk (db : EventsDb) (query : EventQuery) (pages : List (List EventRow)) :
    Prop where
  fits : pages.length * query.pageSize < 2 ^ 32
  answers : ∀ i (h : i < pages.length),
    db.ListEvents { query with offset := some (.ofNat (i * query.pageSize)) } (pages.get ⟨i, h⟩)

section Walk

variable {db : EventsDb} {query : EventQuery} {pages : List (List EventRow)}
  {rows : List EventRow}

theorem EventQuery.pageSize_pos (query : EventQuery) : 0 < query.pageSize := by
  unfold EventQuery.pageSize
  omega

/-- Every page is cut out of the one arrangement. -/
theorem EventsDb.Walk.page (hwalk : db.Walk query pages) (hkeys : db.DistinctKeys query)
    (hrows : db.Selects query rows) (hordered : rows.Pairwise db.Precedes) {i : Nat}
    (hi : i < pages.length) :
    pages.get ⟨i, hi⟩ = (rows.drop (i * query.pageSize)).take query.pageSize := by
  obtain ⟨rows', hrows', hordered', hpage⟩ := hwalk.answers i hi
  have hselects : db.Selects query rows' := ⟨hrows'.nodup, hrows'.mem⟩
  obtain rfl := hrows.unique hselects hkeys hordered hordered'
  have hsmall : i * query.pageSize < 2 ^ 32 :=
    lt_of_le_of_lt (Nat.mul_le_mul_right _ hi.le) hwalk.fits
  have hstart : (UInt32.ofNat (i * query.pageSize)).toNat = i * query.pageSize :=
    UInt32.toNat_ofNat_of_lt' hsmall
  rw [hpage]
  unfold EventQuery.start
  simp only [Option.getD_some, hstart]
  rfl

theorem EventsDb.Walk.flatten (hwalk : db.Walk query pages) (hkeys : db.DistinctKeys query)
    (hrows : db.Selects query rows) (hordered : rows.Pairwise db.Precedes) :
    pages.flatten = rows.take (pages.length * query.pageSize) := by
  have hpages : pages = (List.range pages.length).map fun i =>
      (rows.drop (i * query.pageSize)).take query.pageSize := by
    refine List.ext_get (by simp) fun i hi hi' => ?_
    rw [hwalk.page hkeys hrows hordered hi]
    simp
  rw [hpages, flatten_pages]
  simp

/-- A short page is the last one. -/
theorem EventsDb.Walk.complete (hwalk : db.Walk query pages) (hkeys : db.DistinctKeys query)
    (hrows : db.Selects query rows) (hordered : rows.Pairwise db.Precedes)
    (hshort : ∃ page ∈ pages, page.length < query.pageSize) : pages.flatten = rows := by
  obtain ⟨page, hmem, hlength⟩ := hshort
  obtain ⟨⟨i, hi⟩, rfl⟩ := List.mem_iff_get.mp hmem
  rw [hwalk.page hkeys hrows hordered hi, List.length_take, List.length_drop] at hlength
  have hmul : (i + 1) * query.pageSize ≤ pages.length * query.pageSize :=
    Nat.mul_le_mul_right _ hi
  rw [Nat.succ_mul] at hmul
  rw [hwalk.flatten hkeys hrows hordered, List.take_of_length_le (by omega)]

theorem EventsDb.Walk.covers (hwalk : db.Walk query pages) (hkeys : db.DistinctKeys query)
    (hshort : ∃ page ∈ pages, page.length < query.pageSize) :
    db.Selects query pages.flatten ∧ pages.flatten.Pairwise db.Precedes := by
  obtain ⟨page, hmem, -⟩ := id hshort
  obtain ⟨⟨i, hi⟩, -⟩ := List.mem_iff_get.mp hmem
  obtain ⟨rows, hrows, hordered, -⟩ := hwalk.answers i hi
  have hselects : db.Selects query rows := ⟨hrows.nodup, hrows.mem⟩
  rw [hwalk.complete hkeys hselects hordered hshort]
  exact ⟨hselects, hordered⟩

/-- A client that advances by the page size the server really uses, until a page is short, has read
every selected row exactly once and in the order asked for; and after
`number of rows / page size + 1` requests it has seen a short page. The table does not change
meanwhile, and no two selected rows agree in ledger and time: rows that do may change places from
one request to the next. -/
theorem pages_cover (hkeys : db.DistinctKeys query) (hwalk : db.Walk query pages) :
    ((∃ page ∈ pages, page.length < query.pageSize) →
      db.Selects query pages.flatten ∧ pages.flatten.Pairwise db.Precedes) ∧
    (∀ rows, db.Selects query rows → rows.length / query.pageSize < pages.length →
      ∃ page ∈ pages, page.length < query.pageSize) := by
  refine ⟨hwalk.covers hkeys, fun rows hrows hlong => ?_⟩
  -- the arrangement of some answer has as many rows
  obtain ⟨rows', hrows', hordered, -⟩ := hwalk.answers _ hlong
  have hselects : db.Selects query rows' := ⟨hrows'.nodup, hrows'.mem⟩
  have hlength : rows'.length = rows.length := (hselects.perm hrows).length_eq
  refine ⟨_, List.get_mem pages ⟨_, hlong⟩, ?_⟩
  rw [hwalk.page hkeys hselects hordered hlong, List.length_take, List.length_drop, hlength]
  have hpos := query.pageSize_pos
  have hmod := Nat.mod_lt rows.length hpos
  have hdiv := Nat.div_add_mod' rows.length query.pageSize
  omega

end Walk

/-! ## Three rows in pages of two -/

def sampleRow (id : String) (ledger : Int) : EventRow where
  contractId := "abc"
  eventId := id
  cursor := id
  ledger := ledger
  ledgerClosedAt := none
  topic := "tip"
  topicValues := .null
  eventData := .null
  parsedData := .null
  rawEvent := .null
  txHash := none
  successfulCall := none

def sampleRows : List EventRow := [sampleRow "c" 12, sampleRow "b" 12, sampleRow "a" 11]

def sampleDb : EventsDb where
  rows := ((Store.empty.set "a" (sampleRow "a" 11)).set "b" (sampleRow "b" 12)).set "c"
    (sampleRow "c" 12)
  createdAt := fun id => if id = "c" then 101 else 100

def sampleQuery : EventQuery := { EventQuery.all with limit := some 2 }

theorem sampleDb_get (row : EventRow) :
    sampleDb.rows.get row.eventId = some row ↔ row ∈ sampleRows := by
  constructor
  · intro h
    by_cases hc : row.eventId = "c"
    · rw [hc] at h
      simp [sampleDb] at h
      simp [sampleRows, h]
    by_cases hb : row.eventId = "b"
    · rw [hb] at h
      simp [sampleDb] at h
      simp [sampleRows, h]
    by_cases ha : row.eventId = "a"
    · rw [ha] at h
      simp [sampleDb] at h
      simp [sampleRows, h]
    · simp [sampleDb, ha, hb, hc] at h
  · intro h
    simp only [sampleRows, List.mem_cons, List.not_mem_nil, or_false] at h
    rcases h with rfl | rfl | rfl <;> simp [sampleDb, sampleRow]

theorem sampleDb_selects : sampleDb.Selects sampleQuery sampleRows where
  nodup := by simp [sampleRows, sampleRow]
  mem := by
    intro row
    rw [sampleDb_get]
    simp [EventQuery.selects, sampleQuery, EventQuery.all, given]

theorem sampleDb_distinct : sampleDb.DistinctKeys sampleQuery := by
  intro a b ha hb _ _ hledger htime
  rw [sampleDb_get] at ha hb
  simp only [sampleRows, List.mem_cons, List.not_mem_nil, or_false] at ha hb
  rcases ha with rfl | rfl | rfl <;> rcases hb with rfl | rfl | rfl <;>
    first | rfl | (simp [sampleRow] at hledger; done) | simp [sampleRow, sampleDb] at htime

/-- The rows of ledger 12 come in the order of their insertion times, newest first. -/
theorem sampleDb_ordered : sampleRows.Pairwise sampleDb.Precedes := by
  simp [sampleRows, EventsDb.Precedes, sampleRow, sampleDb]

theorem sampleDb_walk : sampleDb.Walk sampleQuery
    [[sampleRow "c" 12, sampleRow "b" 12], [sampleRow "a" 11]] where
  fits := by decide
  answers := by
    intro i hi
    have hi : i = 0 ∨ i = 1 := by
      simp only [List.length_cons, List.length_nil] at hi
      omega
    refine ⟨sampleRows, ⟨sampleDb_selects.nodup, sampleDb_selects.mem⟩, sampleDb_ordered, ?_⟩
    rcases hi with rfl | rfl <;> rfl

theorem pages_cover_sample : sampleDb.Selects sampleQuery sampleRows ∧
    sampleRows.Pairwise sampleDb.Precedes :=
  (pages_cover sampleDb_distinct sampleDb_walk).1 ⟨[sampleRow "a" 11], by simp, by decide⟩

end Indexer
