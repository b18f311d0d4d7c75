import StellarTipjar.Indexer.Decoding
import StellarTipjar.Indexer.Effects

/-!
# Indexer — the shapes of the known events

The nineteen parsers of `event_parser.rs` differ in the fields they read and in nothing else: some
topics by position, then the elements of the value, or the value itself. `shapeOf` is that table,
`Shape.read` the one parser over it, and `shape_eq` says that it is each of the nineteen.

* `never_invents_iff` — a parsed number or address is the one the event carries just when every
  element that is read carries one; the accessors answer a default otherwise, where a topic that
  carries none is an error;
* `trailing_tolerated` — what follows the topics and elements of the shape is not looked at.
-/

namespace Indexer

open Lib

/-! ## The table -/

/-- How the parser reads an element. -/
inductive Reading where
  /-- text, or the JSON of the element -/
  | text
  /-- text, or the creator -/
  | textOrCreator
  /-- `value_to_u64` -/
  | u64
  /-- `value_to_i128` -/
  | i128
  /-- text, or nothing -/
  | message
  /-- the element as it is -/
  | raw
deriving DecidableEq, Repr

/-- What the parser makes of the value, whether it can be read or not. -/
def Reading.shown (creator : String) : Reading → Json → Json
  | text, v => .string (stringOrJson v)
  | textOrCreator, v => .string ((valueToString v).getD creator)
  | u64, v => u64Json (valueToU64 v)
  | i128, v => .string (valueToI128 v)
  | message, v => .string ((valueToString v).getD "")
  | raw, v => v

/-- What the parser wants of the value: a list with these elements at least, a scalar, or nothing. -/
inductive Payload where
  | array (expected : String) (fields : List (String × Reading))
  | scalar (field : String × Reading)
  | unread
deriving DecidableEq, Repr

/-- A kind of event: the fields after the topic symbol, and the payload. -/
structure Shape where
  kind : EventKind
  topics : List String
  payload : Payload
deriving DecidableEq, Repr

/-- The layout of each known topic, as the contract publishes it. -/
def shapeOf (topic : String) : Option Shape :=
  match topic with
  | "tip" => some ⟨.tip, ["creator"], .array "expected [token, sender, amount]"
      [("token", .text), ("sender", .text), ("amount", .i128)]⟩
  | "tip_msg" => some ⟨.tipWithMessage, ["creator"],
      .array "expected [sender, amount, message, metadata]"
        [("sender", .text), ("amount", .i128), ("message", .message), ("metadata", .raw)]⟩
  | "withdraw" => some ⟨.withdraw, ["creator"], .array "expected [token, amount, to]"
      [("token", .text), ("amount", .i128), ("to", .textOrCreator)]⟩
  | "tip_lckd" => some ⟨.tipLocked, ["creator", "token"],
      .array "expected [tip_id, sender, amount, unlock_timestamp]"
        [("tip_id", .u64), ("sender", .text), ("amount", .i128), ("unlock_timestamp", .u64)]⟩
  | "lck_wdrw" => some ⟨.withdrawLocked, ["creator", "token"], .array "expected [tip_id, amount]"
      [("tip_id", .u64), ("amount", .i128)]⟩
  | "refund" => some ⟨.refund, ["creator"], .array "expected [tip_id, sender, amount]"
      [("tip_id", .u64), ("sender", .text), ("amount", .i128)]⟩
  | "ref_req" => some ⟨.refundRequested, ["creator"], .array "expected [tip_id, sender]"
      [("tip_id", .u64), ("sender", .text)]⟩
  | "ref_appr" => some ⟨.refundApproved, ["creator"], .array "expected [tip_id, sender, amount]"
      [("tip_id", .u64), ("sender", .text), ("amount", .i128)]⟩
  | "role_grnt" => some ⟨.roleGranted, ["target", "role"], .scalar ("caller", .text)⟩
  | "role_rvk" => some ⟨.roleRevoked, ["target", "role"], .scalar ("caller", .text)⟩
  | "match_new" => some ⟨.matchCreated, ["creator", "token"],
      .array "expected [sponsor, program_id, match_ratio, max_match_amount]"
        [("sponsor", .text), ("program_id", .u64), ("match_ratio", .u64),
          ("max_match_amount", .i128)]⟩
  | "tip_match" => some ⟨.matchApplied, ["creator", "token"],
      .array "expected [sender, amount, matched_amount]"
        [("sender", .text), ("amount", .i128), ("matched_amount", .i128)]⟩
  | "match_end" => some ⟨.matchCancelled, ["creator", "token"],
      .array "expected [sponsor, program_id, unspent]"
        [("sponsor", .text), ("program_id", .u64), ("unspent", .i128)]⟩
  | "upgraded" => some ⟨.upgraded, ["admin"], .scalar ("version", .u64)⟩
  | "payout_change_proposed" => some ⟨.payoutChangeProposed, ["creator"],
      .array "expected [new_payout, effective_ledger]"
        [("new_payout", .text), ("effective_ledger", .u64)]⟩
  | "payout_change_applied" => some ⟨.payoutChangeApplied, ["creator"],
      .array "expected [new_payout]" [("new_payout", .text)]⟩
  | "payout_change_cancelled" => some ⟨.payoutChangeCancelled, ["creator"], .unread⟩
  | "operator_authorized" => some ⟨.operatorAuthorized, ["creator", "operator"],
      .array "expected [allowance, expiry_ledger]" [("allowance", .i128), ("expiry_ledger", .u64)]⟩
  | "operator_revoked" => some ⟨.operatorRevoked, ["creator", "operator"], .unread⟩
  | _ => none

/-! ## One parser -/

/-- The topics from position `i` on, each under its name. -/
def readTopics (event : RawContractEvent) : Nat → List String → Except ParserError (List String)
  | _, [] => .ok []
  | i, name :: names => do
    let text ← topicValue event i name
    let texts ← readTopics event (i + 1) names
    pure (text :: texts)

/-- The elements from position `i` on, each under its name. -/
def fill (creator : String) (data : List Json) : Nat → List (String × Reading) →
    List (String × Json)
  | _, [] => []
  | i, f :: fields => (f.1, f.2.shown creator (entry data i)) :: fill creator data (i + 1) fields

/-- Reading the payload by its layout. -/
def Payload.read (topic creator : String) (event : RawContractEvent) :
    Payload → Except ParserError (List (String × Json))
  | .array expected fields => do
    let data ← expectArray event topic fields.length expected
    pure (fill creator data 0 fields)
  | .scalar f => .ok [(f.1, f.2.shown creator event.value)]
  | .unread => .ok []

/-- Reading topics and payload by the layout. -/
def Shape.read (sh : Shape) (topic : String) (event : RawContractEvent) :
    Except ParserError Json := do
  let texts ← readTopics event 1 sh.topics
  let fields ← sh.payload.read topic (texts.headD "") event
  pure (.object ((sh.topics.zip texts).map (fun t => (t.1, .string t.2)) ++ fields))

/-- The parser of each kind reads by its layout: nineteen functions, one definition. -/
theorem shape_eq {topic : String} {sh : Shape} (h : shapeOf topic = some sh)
    (event : RawContractEvent) :
    (kindOf topic).1 = sh.kind ∧ (kindOf topic).2 event = sh.read topic event := by
  unfold shapeOf at h
  split at h <;> cases h
  all_goals
    refine ⟨rfl, ?_⟩
    simp only [Shape.read, readTopics, Payload.read, bind_assoc, pure_bind]
    rfl

/-- The topics without a shape are the ones the parser does not know. -/
theorem shapeOf_of_known {topic : String} (h : (kindOf topic).1 ≠ .unknown) :
    ∃ sh, shapeOf topic = some sh := by
  unfold kindOf at h
  split at h
  case h_20 => exact absurd rfl h
  all_goals exact ⟨_, rfl⟩

/-! ## The elements behind the fields -/

/-- A field, how it is read, and the element it is read from. -/
structure Slot where
  name : String
  reading : Reading
  element : Json

def Slot.entry (creator : String) (s : Slot) : String × Json :=
  (s.name, s.reading.shown creator s.element)

def slot (f : String × Reading) (v : Json) : Slot := ⟨f.1, f.2, v⟩

/-- The values that belong to the fields of the payload, if it has the layout. -/
def Payload.slots : Payload → Json → Option (List Slot)
  | .array _ fields, .array data =>
    if data.length < fields.length then none else some (List.zipWith slot fields data)
  | .array _ _, _ => none
  | .scalar f, v => some [slot f v]
  | .unread, _ => some []

/-- The text that topic `i` after the symbol carries. -/
def topicText (event : RawContractEvent) (i : Nat) : Option String :=
  event.topic[i + 1]?.bind valueToString

/-- The entries of the parsed event. -/
def Shape.entries (sh : Shape) (texts : List String) (slots : List Slot) : List (String × Json) :=
  (sh.topics.zip texts).map (fun t => (t.1, .string t.2)) ++
    slots.map (Slot.entry (texts.headD ""))

/-- The parser counts positions; the fields and values go in parallel. -/
theorem fill_eq_slots {creator : String} {data : List Json} {fields : List (String × Reading)}
    {i : Nat} (h : i + fields.length ≤ data.length) :
    fill creator data i fields =
      (List.zipWith slot fields (data.drop i)).map (Slot.entry creator) := by
  induction fields generalizing i with
  | nil => rfl
  | cons f fields ih =>
    rw [List.length_cons] at h
    have hi : i < data.length := by omega
    rw [List.drop_eq_getElem_cons hi, List.zipWith_cons_cons, List.map_cons, ← ih (by omega)]
    simp [fill, Slot.entry, slot, entry, hi]

/-- The payload is read just when its elements are there. -/
theorem Payload.read_eq (p : Payload) (topic creator : String) (event : RawContractEvent) :
    (∃ slots, p.slots event.value = some slots ∧
      p.read topic creator event = .ok (slots.map (Slot.entry creator))) ∨
    (p.slots event.value = none ∧
      ∃ reason, p.read topic creator event = .error (.invalidPayload topic reason)) := by
  cases p with
  | scalar f => exact .inl ⟨_, rfl, rfl⟩
  | unread => exact .inl ⟨_, rfl, rfl⟩
  | array expected fields =>
    cases hv : event.value with
    | array data =>
      by_cases hlen : data.length < fields.length
      · refine .inr ⟨by simp [Payload.slots, hlen], expected, ?_⟩
        simp [Payload.read, expectArray, valueArray, hv, hlen, payloadErr, bind, Except.bind]
      · refine .inl ⟨_, by simp [Payload.slots, hlen]; rfl, ?_⟩
        have hfill : fill creator data 0 fields =
            (List.zipWith slot fields data).map (Slot.entry creator) :=
          fill_eq_slots (i := 0) (by omega)
        simp [Payload.read, expectArray, valueArray, hv, hlen, hfill, bind, Except.bind, pure,
          Except.pure]
    | _ =>
      refine .inr ⟨rfl, "value is not an array", ?_⟩
      simp [Payload.read, expectArray, valueArray, hv, payloadErr, bind, Except.bind]

section

variable {event : RawContractEvent} {topic : String} {sh : Shape}

/-- The name an error shows is the topic. -/
theorem topicName_of_symbol (ht : event.topic.head?.bind topicSymbol = some topic) :
    topicName event = topic := by
  rw [topicName, ht, Option.getD_some]

/-- The topics are read just when each carries a text. -/
theorem readTopics_eq (ht : event.topic.head?.bind topicSymbol = some topic) (i : Nat)
    (names : List String) :
    (∃ texts, readTopics event (i + 1) names = .ok texts ∧ texts.length = names.length ∧
      ∀ j < names.length, texts[j]? = topicText event (i + j)) ∨
    (∃ j < names.length, topicText event (i + j) = none ∧
      ∃ reason, readTopics event (i + 1) names = .error (.invalidPayload topic reason)) := by
  induction names generalizing i with
  | nil => exact .inl ⟨[], rfl, rfl, fun j hj => absurd hj (Nat.not_lt_zero j)⟩
  | cons name names ih =>
    cases hhead : topicText event i with
    | none =>
      have hval : topicValue event (i + 1) name =
          .error (.invalidPayload topic ("missing topic field " ++ name)) := by
        have hnone : event.topic[i + 1]?.bind valueToString = none := hhead
        rw [topicValue, hnone, topicName_of_symbol ht, payloadErr]
      refine .inr ⟨0, Nat.succ_pos _, hhead, "missing topic field " ++ name, ?_⟩
      rw [readTopics, hval]
      rfl
    | some text =>
      have hval : topicValue event (i + 1) name = .ok text := by
        have hsome : event.topic[i + 1]?.bind valueToString = some text := hhead
        rw [topicValue, hsome]
      rcases ih (i + 1) with ⟨texts, hread, hlen, htexts⟩ | ⟨j, hj, hnone, reason, hread⟩
      · refine .inl ⟨text :: texts, ?_, by rw [List.length_cons, List.length_cons, hlen], ?_⟩
        · rw [readTopics, hval, hread]
          rfl
        · intro j hj
          cases j with
          | zero => exact hhead.symm
          | succ j =>
            rw [List.getElem?_cons_succ, htexts j (Nat.lt_of_succ_lt_succ hj),
              show i + 1 + j = i + (j + 1) by omega]
      · refine .inr ⟨j + 1, Nat.succ_lt_succ hj, ?_, reason, ?_⟩
        · rwa [show i + (j + 1) = i + 1 + j by omega]
        · rw [readTopics, hval, hread]
          rfl

/-- The event has the shape: its topics carry these texts, and its value has these elements. -/
structure Fits (sh : Shape) (event : RawContractEvent) (texts : List String)
    (slots : List Slot) : Prop where
  length : texts.length = sh.topics.length
  texts : ∀ j < sh.topics.length, texts[j]? = topicText event j
  slots : sh.payload.slots event.value = some slots

/-- An event with a known topic is parsed by the layout of its topic. -/
theorem parseEvent_eq (ht : event.topic.head?.bind topicSymbol = some topic)
    (hs : shapeOf topic = some sh) :
    parseEvent event = (sh.read topic event).map fun fields => ⟨sh.kind, topic, fields⟩ := by
  obtain ⟨hkind, hread⟩ := shape_eq hs event
  obtain ⟨first, hfirst, hsymbol⟩ := Option.bind_eq_some_iff.mp ht
  unfold parseEvent
  simp only [hfirst, hsymbol, hkind, hread]
  cases sh.read topic event <;> rfl

/-- The spec of the parser: an event with the shape is read, any other is refused. -/
theorem parseEvent_cases (ht : event.topic.head?.bind topicSymbol = some topic)
    (hs : shapeOf topic = some sh) :
    (∃ texts slots, Fits sh event texts slots ∧
      parseEvent event = .ok ⟨sh.kind, topic, .object (sh.entries texts slots)⟩) ∨
    (¬(∃ texts slots, Fits sh event texts slots) ∧
      ∃ reason, parseEvent event = .error (.invalidPayload topic reason)) := by
  rw [parseEvent_eq ht hs, Shape.read]
  rcases readTopics_eq ht 0 sh.topics with
    ⟨texts, hread, hlen, htexts⟩ | ⟨j, hj, hnone, reason, hread⟩
  · have htexts' : ∀ j < sh.topics.length, texts[j]? = topicText event j := fun j hj => by
      rw [htexts j hj, Nat.zero_add]
    rcases sh.payload.read_eq topic (texts.headD "") event with
      ⟨slots, hslots, hpay⟩ | ⟨hslots, reason, hpay⟩
    · refine .inl ⟨texts, slots, ⟨hlen, htexts', hslots⟩, ?_⟩
      simp only [hread, hpay, bind, Except.bind]
      rfl
    · refine .inr ⟨fun ⟨_, slots, hfits⟩ => ?_, reason, ?_⟩
      · rw [hfits.slots] at hslots
        cases hslots
      · simp only [hread, hpay, bind, Except.bind]
        rfl
  · refine .inr ⟨fun ⟨texts, _, hfits⟩ => ?_, reason, ?_⟩
    · have htext := hfits.texts j hj
      rw [Nat.zero_add] at hnone
      rw [hnone, List.getElem?_eq_none_iff, hfits.length] at htext
      omega
    · simp only [hread]
      rfl

/-- An event fits its layout in one way. -/
theorem Fits.unique {texts texts' : List String} {slots slots' : List Slot}
    (h : Fits sh event texts slots) (h' : Fits sh event texts' slots') :
    texts = texts' ∧ slots = slots' := by
  constructor
  · apply List.ext_getElem?
    intro j
    by_cases hj : j < sh.topics.length
    · rw [h.texts j hj, h'.texts j hj]
    · rw [List.getElem?_eq_none (by rw [h.length]; omega),
        List.getElem?_eq_none (by rw [h'.length]; omega)]
  · exact Option.some.inj (h.slots.symm.trans h'.slots)

/-- The spec of the parser on an event with the shape. -/
theorem parseEvent_of_fits {texts : List String} {slots : List Slot}
    (ht : event.topic.head?.bind topicSymbol = some topic) (hs : shapeOf topic = some sh)
    (h : Fits sh event texts slots) :
    parseEvent event = .ok ⟨sh.kind, topic, .object (sh.entries texts slots)⟩ := by
  rcases parseEvent_cases ht hs with ⟨texts', slots', hfits, hparse⟩ | ⟨hno, _⟩
  · obtain ⟨rfl, rfl⟩ := h.unique hfits
    exact hparse
  · exact absurd ⟨texts, slots, h⟩ hno

/-! ## Looking a field up -/

def Payload.names : Payload → List String
  | .array _ fields => fields.map Prod.fst
  | .scalar f => [f.1]
  | .unread => []

/-- The slots carry the names of the layout. -/
theorem names_of_slots {p : Payload} {v : Json} {slots : List Slot} (h : p.slots v = some slots) :
    slots.map Slot.name = p.names := by
  cases p with
  | scalar f =>
    obtain rfl := Option.some.inj h
    rfl
  | unread =>
    obtain rfl := Option.some.inj h
    rfl
  | array expected fields =>
    cases v with
    | array data =>
      simp only [Payload.slots] at h
      split at h
      · cases h
      · obtain rfl := Option.some.inj h
        have hzip : (fields.zip data).map Prod.fst = fields := List.map_fst_zip (by omega)
        rw [← List.map_uncurry_zip_eq_zipWith, List.map_map]
        show (fields.zip data).map (Prod.fst ∘ Prod.fst) = fields.map Prod.fst
        rw [← List.map_map, hzip]
    | _ => cases h

/-- No layout names a field twice, so no field hides another. -/
theorem shape_names_nodup (hs : shapeOf topic = some sh) :
    (sh.topics ++ sh.payload.names).Nodup := by
  unfold shapeOf at hs
  split at hs <;> cases hs
  all_goals simp [Payload.names]

theorem Fits.entries_nodup {texts : List String} {slots : List Slot} (hs : shapeOf topic = some sh)
    (h : Fits sh event texts slots) : ((sh.entries texts slots).map Prod.fst).Nodup := by
  have htopics : (sh.topics.zip texts).map Prod.fst = sh.topics :=
    List.map_fst_zip (by rw [h.length])
  have hslots : slots.map (fun s => (s.entry (texts.headD "")).1) = sh.payload.names :=
    names_of_slots h.slots
  have hnames : (sh.entries texts slots).map Prod.fst = sh.topics ++ sh.payload.names := by
    rw [Shape.entries, List.map_append, List.map_map, List.map_map]
    exact congrArg₂ _ htopics hslots
  rw [hnames]
  exact shape_names_nodup hs

/-- Hence every field can be looked up by name. -/
theorem Fits.field_of_mem {texts : List String} {slots : List Slot} (hs : shapeOf topic = some sh)
    (h : Fits sh event texts slots) {f : String × Json} (hf : f ∈ sh.entries texts slots) :
    (Json.object (sh.entries texts slots)).field f.1 = some f.2 := by
  show (sh.entries texts slots).lookup f.1 = some f.2
  simpa using lookup_map_of_mem (h.entries_nodup hs) id hf

end

/-! ## What an element carries -/

def unsigned : List Char → List Char
  | '+' :: rest => rest
  | '-' :: rest => rest
  | all => all

/-- The text of a number, in the syntax of JSON's numbers: digits with an optional sign, fraction and
exponent. The parser hands it on as it is, whether or not it is an integer of 128 bits. -/
def isDecimal (s : String) : Bool :=
  let digits (cs : List Char) : Bool := !cs.isEmpty && cs.all Char.isDigit
  let (mantissa, exponent) := s.toList.span fun c => c != 'e' && c != 'E'
  let (whole, fraction) := (unsigned mantissa).span (· != '.')
  digits whole && (fraction.isEmpty || digits fraction.tail) &&
    (exponent.isEmpty || digits (unsigned exponent.tail))

/-- The number of an element, where `valueToU64` has a default. -/
def carriedU64 : Json → Option UInt64
  | .number n => n.asU64
  | .string s => parseU64 s
  | .object map =>
    (((Json.get map "u64").bind valueToString).bind parseU64).or
      (((Json.get map "i128").bind valueToString).bind parseU64)
  | _ => none

/-- The number of an element, where `valueToI128` takes any text or the JSON. -/
def carriedI128 (value : Json) : Option String :=
  let text := match value with
    | .number n => some n.text
    | .string s => some s
    | .object map =>
      ((Json.get map "i128").bind valueToString).or ((Json.get map "u64").bind valueToString)
    | _ => none
  text.filter isDecimal

/-- A number or an address; a message and its metadata are neither. -/
def Reading.checked : Reading → Bool
  | message | raw => false
  | _ => true

/-- The number or the address of an element, as the parsed event shows it. A text stands for an
address in every spelling that `value_to_string` knows, as it does in a topic: the parser does not
look into it, so a JSON number or an object with a `u64` or with `bytes` is one as well. -/
def Reading.carried : Reading → Json → Option Json
  | text, v | textOrCreator, v => (valueToString v).map .string
  | u64, v => (carriedU64 v).map u64Json
  | i128, v => (carriedI128 v).map .string
  | message, _ | raw, _ => none

/-- The value carries what the field asks for, where the field is a checked one. -/
def Slot.Decodable (s : Slot) : Prop :=
  s.reading.checked = true → (s.reading.carried s.element).isSome = true

instance (s : Slot) : Decidable s.Decodable := inferInstanceAs (Decidable (_ → _))

/-- The event lacks a number or an address somewhere. -/
def Undecodable (sh : Shape) (event : RawContractEvent) : Prop :=
  (∃ j < sh.topics.length, topicText event j = none) ∨ sh.payload.slots event.value = none ∨
    ∃ slots, sh.payload.slots event.value = some slots ∧ ∃ s ∈ slots, ¬s.Decodable

/-- The event is refused, and the listener records the failure if the database takes it. -/
def Refused (topic : String) (event : RawContractEvent) : Prop :=
  ∃ reason, parseEvent event = .error (.invalidPayload topic reason) ∧
    ∀ (listener : EventListener) ok b, ok 0 = true → (listener.processEvent ok b event).2 =
      b.upsertFailure (listener.failure event (ParserError.invalidPayload topic reason).message)

/-- The parsed event has the numbers and addresses of the event, and an event that lacks one is
refused. Nothing is made up: no 0, no creator in the place of an address, no JSON text in the place
of a number. That a text which is carried is a well-formed address, or a number an integer that fits
its type, is not asked for (`Reading.carried`, `isDecimal`). -/
structure NeverInvents (sh : Shape) (topic : String) (event : RawContractEvent) : Prop where
  topics : ∀ parsed, parseEvent event = .ok parsed → ∀ j name, sh.topics[j]? = some name →
    ∃ text, topicText event j = some text ∧ parsed.fields.field name = some (.string text)
  elements : ∀ parsed, parseEvent event = .ok parsed →
    ∃ slots, sh.payload.slots event.value = some slots ∧ ∀ s ∈ slots, s.reading.checked = true →
      ∃ v, s.reading.carried s.element = some v ∧ parsed.fields.field s.name = some v
  refuses : Undecodable sh event → Refused topic event

/-- Where a value carries a number, the parser reads that number. -/
theorem valueToU64_of_carried {v : Json} {n : UInt64} (h : carriedU64 v = some n) :
    valueToU64 v = n := by
  cases v with
  | number | string | object =>
    simp only [carriedU64] at h
    simp [valueToU64, h]
  | _ => cases h

/-- The same for an amount. -/
theorem valueToI128_of_carried {v : Json} {s : String} (h : carriedI128 v = some s) :
    valueToI128 v = s := by
  obtain ⟨htext, -⟩ := Option.filter_eq_some_iff.mp h
  cases v with
  | number | string => exact Option.some.inj htext
  | object map =>
    simp only at htext
    simp [valueToI128, htext]
  | _ => cases htext

/-- What an element carries is shown. -/
theorem shown_of_carried {r : Reading} {v j : Json} (h : r.carried v = some j) (creator : String) :
    r.shown creator v = j := by
  cases r with
  | text | textOrCreator =>
    obtain ⟨s, hs, rfl⟩ := Option.map_eq_some_iff.mp h
    simp [Reading.shown, stringOrJson, hs]
  | u64 =>
    obtain ⟨n, hn, rfl⟩ := Option.map_eq_some_iff.mp h
    rw [Reading.shown, valueToU64_of_carried hn]
  | i128 =>
    obtain ⟨s, hs, rfl⟩ := Option.map_eq_some_iff.mp h
    rw [Reading.shown, valueToI128_of_carried hs]
  | message | raw => cases h

/-- What does not fit the layout is an error that says so. -/
theorem refused_of_not_fits {event : RawContractEvent} {topic : String} {sh : Shape}
    (ht : event.topic.head?.bind topicSymbol = some topic) (hs : shapeOf topic = some sh)
    (h : ¬∃ texts slots, Fits sh event texts slots) : Refused topic event := by
  rcases parseEvent_cases ht hs with ⟨texts, slots, hfits, -⟩ | ⟨-, reason, hparse⟩
  · exact absurd ⟨texts, slots, hfits⟩ h
  · refine ⟨reason, hparse, fun listener ok b hok => ?_⟩
    rw [processEvent_rejected hparse hok]

/-- What fits and is decodable is read as it stands. -/
theorem Fits.neverInvents {event : RawContractEvent} {topic : String} {sh : Shape}
    {texts : List String} {slots : List Slot} (h : Fits sh event texts slots)
    (ht : event.topic.head?.bind topicSymbol = some topic) (hs : shapeOf topic = some sh)
    (hdec : ∀ s ∈ slots, s.Decodable) : NeverInvents sh topic event where
  topics parsed hparsed j name hname := by
    rw [parseEvent_of_fits ht hs h] at hparsed
    obtain rfl := Except.ok.inj hparsed
    obtain ⟨hj, hname⟩ := List.getElem?_eq_some_iff.mp hname
    have hlen : j < texts.length := by rwa [h.length]
    refine ⟨texts[j], ?_, h.field_of_mem hs (f := (name, .string texts[j])) ?_⟩
    · rw [← h.texts j hj, List.getElem?_eq_getElem hlen]
    · refine List.mem_append_left _ (List.mem_map.mpr ⟨(name, texts[j]), ?_, rfl⟩)
      rw [← hname, ← List.getElem_zip (h := by rw [List.length_zip]; omega)]
      exact List.getElem_mem _
  elements parsed hparsed := by
    rw [parseEvent_of_fits ht hs h] at hparsed
    obtain rfl := Except.ok.inj hparsed
    refine ⟨slots, h.slots, fun s hmem hchecked => ?_⟩
    obtain ⟨v, hv⟩ := Option.isSome_iff_exists.mp (hdec s hmem hchecked)
    have hentry : s.entry (texts.headD "") = (s.name, v) := by
      rw [Slot.entry, shown_of_carried hv]
    refine ⟨v, hv, h.field_of_mem hs (f := (s.name, v)) (List.mem_append_right _ ?_)⟩
    exact hentry ▸ List.mem_map_of_mem hmem
  refuses hun := by
    rcases hun with ⟨j, hj, hnone⟩ | hnone | ⟨slots', hslots, s, hmem, hs⟩
    · have htext := h.texts j hj
      rw [hnone, List.getElem?_eq_none_iff, h.length] at htext
      omega
    · rw [h.slots] at hnone
      cases hnone
    · rw [h.slots] at hslots
      obtain rfl := Option.some.inj hslots
      exact absurd (hdec s hmem) hs

/-- The parser invents nothing exactly when every number and every address of an event it reads is
there to be read. -/
theorem never_invents_iff {event : RawContractEvent} {topic : String}
    (ht : event.topic.head?.bind topicSymbol = some topic) (hk : (kindOf topic).1 ≠ .unknown) :
    ∃ sh, shapeOf topic = some sh ∧ (NeverInvents sh topic event ↔
      ∀ texts slots, Fits sh event texts slots → ∀ s ∈ slots, s.Decodable) := by
  obtain ⟨sh, hs⟩ := shapeOf_of_known hk
  refine ⟨sh, hs, fun h texts slots hfits s hmem => ?_, fun hdec => ?_⟩
  · by_contra hs'
    obtain ⟨reason, hrefused, -⟩ := h.refuses (.inr (.inr ⟨slots, hfits.slots, s, hmem, hs'⟩))
    rw [parseEvent_of_fits ht hs hfits] at hrefused
    cases hrefused
  · by_cases hfits : ∃ texts slots, Fits sh event texts slots
    · obtain ⟨texts, slots, hfits⟩ := hfits
      exact hfits.neverInvents ht hs (hdec texts slots hfits)
    · have hrefused := refused_of_not_fits ht hs hfits
      have herr : ∀ parsed, parseEvent event ≠ .ok parsed := by
        obtain ⟨reason, hparse, -⟩ := hrefused
        intro parsed h
        rw [hparse] at h
        cases h
      exact ⟨fun parsed h => absurd h (herr parsed), fun parsed h => absurd h (herr parsed),
        fun _ => hrefused⟩

/-- A tip with typed scalars, the amount as the host writes it. -/
def typedTip : RawContractEvent :=
  goldenEvent [.object [("symbol", .string "tip")], .object [("address", .string "GCREATOR")]]
    (.array [.object [("address", .string "CTOKEN")], .object [("address", .string "GSENDER")],
      .object [("i128", .string "500")]])

theorem never_invents_iff_typedTip :
    ∃ sh, shapeOf "tip" = some sh ∧ NeverInvents sh "tip" typedTip := by
  obtain ⟨sh, hs, hiff⟩ :=
    @never_invents_iff typedTip "tip" (by simp [typedTip, goldenEvent]) (by simp [kindOf])
  obtain rfl := Option.some.inj hs
  refine ⟨_, rfl, hiff.mpr fun texts slots hfits s hmem => ?_⟩
  obtain rfl := Option.some.inj hfits.slots
  simp only [List.zipWith_cons_cons, List.zipWith_nil_right, List.mem_cons, List.not_mem_nil,
    or_false] at hmem
  rcases hmem with rfl | rfl | rfl <;> decide

/-- A withdrawal with an amount of a type the parser does not know, and no destination. -/
def oddWithdraw : RawContractEvent :=
  goldenEvent [.string "withdraw", .string "GCREATOR"]
    (.array [.string "CTOKEN", .object [("u128", .string "500")], .null])

/-- The amount is stored as a JSON text and the creator as the destination. -/
theorem oddWithdraw_invented :
    parseEvent oddWithdraw = .ok ⟨.withdraw, "withdraw", .object [("creator", .string "GCREATOR"),
      ("token", .string "CTOKEN"), ("amount", .string "\x7b\"u128\":\"500\"\x7d"),
      ("to", .string "GCREATOR")]⟩ ∧
    ∃ sh, shapeOf "withdraw" = some sh ∧ ¬NeverInvents sh "withdraw" oddWithdraw := by
  have hparse : parseEvent oddWithdraw = .ok ⟨.withdraw, "withdraw", .object
      [("creator", .string "GCREATOR"), ("token", .string "CTOKEN"),
        ("amount", .string "\x7b\"u128\":\"500\"\x7d"), ("to", .string "GCREATOR")]⟩ := by
    rfl
  refine ⟨hparse, _, rfl, fun h => ?_⟩
  obtain ⟨slots, hslots, hcarried⟩ := h.elements _ hparse
  obtain rfl := Option.some.inj hslots
  obtain ⟨v, hv, -⟩ := hcarried ⟨"to", .textOrCreator, .null⟩ (by simp [slot]) rfl
  cases hv

/-! ## Trailing fields -/

/-- The event with more topics, and with another value. -/
def RawContractEvent.extend (event : RawContractEvent) (topics : List Json) (value : Json) :
    RawContractEvent :=
  { event with topic := event.topic ++ topics, value := value }

section

variable {event : RawContractEvent} {topic : String} {sh : Shape} {texts : List String}
  {slots slots' : List Slot}

/-- Appending topics does not change the first one. -/
theorem symbol_extend (ht : event.topic.head?.bind topicSymbol = some topic) (topics : List Json)
    (value : Json) : (event.extend topics value).topic.head?.bind topicSymbol = some topic := by
  obtain ⟨first, hfirst, hsymbol⟩ := Option.bind_eq_some_iff.mp ht
  simp [RawContractEvent.extend, List.head?_append, hfirst, hsymbol]

theorem topicText_extend {j : Nat} {text : String} (h : topicText event j = some text)
    (topics : List Json) (value : Json) :
    topicText (event.extend topics value) j = some text := by
  obtain ⟨v, hv, htext⟩ := Option.bind_eq_some_iff.mp h
  obtain ⟨hj, -⟩ := List.getElem?_eq_some_iff.mp hv
  show (event.topic ++ topics)[j + 1]?.bind valueToString = some text
  rw [List.getElem?_append_left hj, hv, Option.bind_some, htext]

/-- An event that fits still fits with more behind it. -/
theorem Fits.extend (h : Fits sh event texts slots) (topics : List Json) {value : Json}
    (hslots : sh.payload.slots value = some slots') :
    Fits sh (event.extend topics value) texts slots' where
  length := h.length
  texts j hj := by
    have hlen : j < texts.length := by rwa [h.length]
    have htext : topicText event j = some texts[j] := by
      rw [← h.texts j hj, List.getElem?_eq_getElem hlen]
    rw [topicText_extend htext, List.getElem?_eq_getElem hlen]
  slots := hslots

/-- Of the two kinds with a scalar, that of the roles takes any value for its text. -/
theorem reading_of_scalar {f : String × Reading} (hs : shapeOf topic = some sh)
    (hp : sh.payload = .scalar f) :
    topic = "role_grnt" ∨ topic = "role_rvk" ∨ f.2 = .u64 := by
  unfold shapeOf at hs
  split at hs <;> cases hs <;> cases hp
  · exact .inl rfl
  · exact .inr (.inl rfl)
  · exact .inr (.inr rfl)

theorem zipWith_slot_append {fields : List (String × Reading)} {data : List Json}
    (h : fields.length ≤ data.length) (extra : List Json) :
    List.zipWith slot fields (data ++ extra) = List.zipWith slot fields data := by
  have htake : ∀ l : List Json, fields.length ≤ l.length →
      List.zipWith slot fields l = List.zipWith slot fields (l.take fields.length) := by
    intro l hl
    rw [List.zipWith_eq_zipWith_take_min, Nat.min_eq_left hl, List.take_length]
  have hlen : fields.length ≤ (data ++ extra).length := by
    rw [List.length_append]
    omega
  rw [htake _ hlen, List.take_append_of_le_length h, ← htake data h]

/-- More elements change no entry. -/
theorem slots_append {data : List Json} (hs : shapeOf topic = some sh)
    (hg : topic ≠ "role_grnt") (hr : topic ≠ "role_rvk")
    (h : sh.payload.slots (.array data) = some slots) (extra : List Json) :
    ∃ slots', sh.payload.slots (.array (data ++ extra)) = some slots' ∧
      ∀ creator, slots'.map (Slot.entry creator) = slots.map (Slot.entry creator) := by
  cases hp : sh.payload with
  | array expected fields =>
    rw [hp] at h
    simp only [Payload.slots] at h ⊢
    split at h
    · cases h
    · next hlen =>
      obtain rfl := Option.some.inj h
      have hlen' : ¬(data ++ extra).length < fields.length := by
        rw [List.length_append]
        omega
      refine ⟨_, if_neg hlen', fun creator => ?_⟩
      rw [zipWith_slot_append (by omega)]
  | scalar f =>
    rw [hp] at h
    obtain rfl := Option.some.inj h
    have hread : f.2 = .u64 := by
      rcases reading_of_scalar hs hp with htopic | htopic | hread
      · exact absurd htopic hg
      · exact absurd htopic hr
      · exact hread
    refine ⟨_, rfl, fun creator => ?_⟩
    -- a list carries no number, whatever its elements
    simp [Slot.entry, slot, hread, Reading.shown, valueToU64]
  | unread =>
    rw [hp] at h
    exact ⟨_, h, fun _ => rfl⟩

end

/-- Extra topics never change the parsed event; nor do extra elements, except for the two topics of
the roles. -/
theorem trailing_tolerated {event : RawContractEvent} {topic : String} {parsed : ParsedEvent}
    (ht : event.topic.head?.bind topicSymbol = some topic) (hk : (kindOf topic).1 ≠ .unknown)
    (hp : parseEvent event = .ok parsed) :
    (∀ topics, parseEvent (event.extend topics event.value) = .ok parsed) ∧
    (topic ≠ "role_grnt" → topic ≠ "role_rvk" → ∀ data, event.value = .array data →
      ∀ topics extra, parseEvent (event.extend topics (.array (data ++ extra))) = .ok parsed) := by
  obtain ⟨sh, hs⟩ := shapeOf_of_known hk
  rcases parseEvent_cases ht hs with ⟨texts, slots, hfits, hparse⟩ | ⟨-, reason, hparse⟩
  · obtain rfl := Except.ok.inj (hp.symm.trans hparse)
    constructor
    · intro topics
      exact parseEvent_of_fits (symbol_extend ht topics _) hs (hfits.extend topics hfits.slots)
    · intro hg hr data hdata topics extra
      have hslots := hfits.slots
      rw [hdata] at hslots
      obtain ⟨slots', hslots', hentries⟩ := slots_append hs hg hr hslots extra
      rw [parseEvent_of_fits (symbol_extend ht topics _) hs (hfits.extend topics hslots'),
        Shape.entries, hentries]
      rfl
  · rw [hparse] at hp
    cases hp

theorem trailing_tolerated_typedTip :
    ∃ parsed, parseEvent typedTip = .ok parsed ∧
      parseEvent (typedTip.extend [.string "memo"] (.array [.object [("address", .string "CTOKEN")],
        .object [("address", .string "GSENDER")], .object [("i128", .string "500")],
        .null, .string "later"])) = .ok parsed := by
  have htip : ∃ parsed, parseEvent typedTip = .ok parsed := ⟨_, rfl⟩
  obtain ⟨parsed, hp⟩ := htip
  have htrailing := @trailing_tolerated typedTip "tip" parsed (by simp [typedTip, goldenEvent])
    (by simp [kindOf]) hp
  exact ⟨parsed, hp, htrailing.2 (by decide) (by decide) _ rfl _ [.null, .string "later"]⟩

/-- A role event with a list for its caller is read, as the JSON of the list: one more element gives
another caller. -/
theorem role_caller_not_tolerated :
    ∃ event data extra parsed parsed', event.topic.head?.bind topicSymbol = some "role_grnt" ∧
      (kindOf "role_grnt").1 ≠ .unknown ∧ event.value = .array data ∧
      parseEvent event = .ok parsed ∧
      parseEvent (event.extend [] (.array (data ++ extra))) = .ok parsed' ∧
      parsed.fields.field "caller" = some (.string "[\"GADMIN\"]") ∧
      parsed'.fields.field "caller" = some (.string "[\"GADMIN\",1]") ∧ parsed ≠ parsed' := by
  refine ⟨goldenEvent [.string "role_grnt", .string "GTARGET", .string "admin"]
    (.array [.string "GADMIN"]), [.string "GADMIN"], [.number (.posInt 1)], _, _, rfl, ?_, rfl, rfl,
    rfl, rfl, rfl, fun heq => ?_⟩
  · simp [kindOf]
  · have hcaller := congrArg (fun p => p.fields.field "caller") heq
    exact absurd (Json.string.inj (Option.some.inj hcaller)) (by decide)

end Indexer
