import StellarTipjar.TipJar.Types
import StellarTipjar.Indexer.EventParser

/-!
# Indexer — decoding what the contract encodes

The events of the contract with payload `vec`: topics are the name and the `#[topic]` fields, the
value is the list of the other fields in the order of their declaration. In JSON a scalar is an
object with one entry that names its type. `layout` is the contract's side, `parseEvent` the
indexer's. Addresses and `i128`s survive; a `u32` does not, since `valueToU64` knows an object with
an entry `u64` or `i128` only and answers 0 for any other.
-/

namespace Indexer

open Lib Soroban

/-! ## The encoder -/

/-- A scalar of an event. -/
inductive ScVal where
  | address (a : Address)
  | i128 (n : I128)
  | u32 (n : UInt32)

/-- A published event: its name, and its fields under their names. -/
structure Layout where
  name : String
  kind : EventKind
  topics : List (String × ScVal)
  data : List (String × ScVal)

def Layout.fields (l : Layout) : List (String × ScVal) := l.topics ++ l.data

/-- The seven events the indexer has a parser for. -/
def layout : TipJar.Event → Option Layout
  | .tip creator token sender amount => some
      { name := "tip", kind := .tip
        topics := [("creator", .address creator)]
        data := [("token", .address token), ("sender", .address sender), ("amount", .i128 amount)] }
  | .withdraw creator token amount dest => some
      { name := "withdraw", kind := .withdraw
        topics := [("creator", .address creator)]
        data := [("token", .address token), ("amount", .i128 amount), ("to", .address dest)] }
  | .payoutChangeProposed creator newPayout effectiveLedger => some
      { name := "payout_change_proposed", kind := .payoutChangeProposed
        topics := [("creator", .address creator)]
        data := [("new_payout", .address newPayout), ("effective_ledger", .u32 effectiveLedger)] }
  | .payoutChangeApplied creator newPayout => some
      { name := "payout_change_applied", kind := .payoutChangeApplied
        topics := [("creator", .address creator)]
        data := [("new_payout", .address newPayout)] }
  | .payoutChangeCancelled creator => some
      { name := "payout_change_cancelled", kind := .payoutChangeCancelled
        topics := [("creator", .address creator)]
        data := [] }
  | .operatorAuthorized creator operator allowance expiryLedger => some
      { name := "operator_authorized", kind := .operatorAuthorized
        topics := [("creator", .address creator), ("operator", .address operator)]
        data := [("allowance", .i128 allowance), ("expiry_ledger", .u32 expiryLedger)] }
  | .operatorRevoked creator operator => some
      { name := "operator_revoked", kind := .operatorRevoked
        topics := [("creator", .address creator), ("operator", .address operator)]
        data := [] }
  | _ => none

section

-- the text form of an address, which the host gives
variable (strkey : Address → String)

def ScVal.toJson : ScVal → Json
  | address a => .object [("address", .string (strkey a))]
  | i128 n => .object [("i128", .string (decimal n.val))]
  | u32 n => .object [("u32", .number (.posInt n.toUInt64))]

/-- The raw event carries the event with this layout. -/
structure Carries (l : Layout) (event : RawContractEvent) : Prop where
  topic : event.topic =
    .object [("symbol", .string l.name)] :: l.topics.map fun f => f.2.toJson strkey
  value : event.value = .array (l.data.map fun f => f.2.toJson strkey)

/-! ## What should come back -/

/-- A field as the parsed event shows it: an amount as its decimal text, a ledger as the number. -/
def ScVal.shown : ScVal → Json
  | address a => .string (strkey a)
  | i128 n => .string (decimal n.val)
  | u32 n => .number (.posInt n.toUInt64)

/-- The parser accepts, finds the kind, and every field of the event is there under its name. -/
def Decodes (l : Layout) (event : RawContractEvent) : Prop :=
  ∃ parsed, parseEvent event = .ok parsed ∧ parsed.kind = l.kind ∧
    ∀ f ∈ l.fields, parsed.fields.field f.1 = some (f.2.shown strkey)

end

/-- The same parsed event: objects are compared by key. -/
structure ParsedEvent.Same (p q : ParsedEvent) : Prop where
  kind : p.kind = q.kind
  topic : p.topic = q.topic
  fields : ∀ key, p.fields.field key = q.fields.field key

/-- The event with its `u32` field, if it has one, at 0. -/
def withoutLedger : TipJar.Event → TipJar.Event
  | .payoutChangeProposed creator newPayout _ => .payoutChangeProposed creator newPayout 0
  | .operatorAuthorized creator operator allowance _ =>
    .operatorAuthorized creator operator allowance 0
  | e => e

/-! ## Reading the scalars -/

section

variable {strkey : Address → String} {e e' : TipJar.Event} {l l' : Layout}
  {event event' : RawContractEvent}

@[simp] theorem topicSymbol_symbol (s : String) :
    topicSymbol (.object [("symbol", .string s)]) = some s := by
  simp [topicSymbol, Json.get, valueToString]

@[simp] theorem valueToString_address (a : Address) :
    valueToString ((ScVal.address a).toJson strkey) = some (strkey a) := by
  simp [ScVal.toJson, valueToString, entryTexts, textOf]

@[simp] theorem stringOrJson_address (a : Address) :
    stringOrJson ((ScVal.address a).toJson strkey) = strkey a := by
  simp [stringOrJson]

@[simp] theorem valueToI128_i128 (n : I128) :
    valueToI128 ((ScVal.i128 n).toJson strkey) = decimal n.val := by
  simp [ScVal.toJson, valueToI128, Json.get, valueToString]

-- the entry `u32` is none of the two that are looked for
@[simp] theorem valueToU64_u32 (n : UInt32) : valueToU64 ((ScVal.u32 n).toJson strkey) = 0 := by
  simp [ScVal.toJson, valueToU64, Json.get, List.lookup_cons]

/-- A field as the parser reads it: a `u32` is lost. -/
def ScVal.decoded (strkey : Address → String) : ScVal → Json
  | u32 _ => .number (.posInt 0)
  | v => v.shown strkey

/-- What the parser makes of an event. -/
def Layout.parsed (strkey : Address → String) (l : Layout) : ParsedEvent where
  kind := l.kind
  topic := l.name
  fields := .object (l.fields.map fun f => (f.1, f.2.decoded strkey))

/-! ## Parsing an encoded event -/

theorem topicValue_of_carries (h : Carries strkey l event) {i : Nat} {name : String} {a : Address}
    (hi : l.topics[i]? = some (name, .address a)) (field : String) :
    topicValue event (i + 1) field = .ok (strkey a) := by
  simp [topicValue, h.topic, hi]

theorem expectArray_of_carries (h : Carries strkey l event) {n : Nat} (hn : l.data.length = n)
    (topic expected : String) :
    expectArray event topic n expected = .ok (l.data.map fun f => f.2.toJson strkey) := by
  simp [expectArray, valueArray, h.value, hn, bind, Except.bind]

/-- The parser of the kind reads the fields one by one. -/
theorem kindOf_of_carries (hl : layout e = some l) (h : Carries strkey l event) :
    (kindOf l.name).1 = l.kind ∧ (kindOf l.name).2 event = .ok (l.parsed strkey).fields := by
  have topic := @topicValue_of_carries strkey l event h
  have data := @expectArray_of_carries strkey l event h
  cases e with
  | tip =>
    obtain rfl := Option.some.inj hl
    have hc := topic (i := 0) rfl "creator"
    have hd := data (n := 3) rfl "tip" "expected [token, sender, amount]"
    refine ⟨rfl, ?_⟩
    simp [kindOf, parseTip, hc, hd, bind, Except.bind, pure, Except.pure, entry, Layout.parsed,
      Layout.fields, ScVal.decoded, ScVal.shown]
  | withdraw =>
    obtain rfl := Option.some.inj hl
    have hc := topic (i := 0) rfl "creator"
    have hd := data (n := 3) rfl "withdraw" "expected [token, amount, to]"
    refine ⟨rfl, ?_⟩
    simp [kindOf, parseWithdraw, hc, hd, bind, Except.bind, pure, Except.pure, entry, Layout.parsed,
      Layout.fields, ScVal.decoded, ScVal.shown]
  | payoutChangeProposed =>
    obtain rfl := Option.some.inj hl
    have hc := topic (i := 0) rfl "creator"
    have hd := data (n := 2) rfl "payout_change_proposed" "expected [new_payout, effective_ledger]"
    refine ⟨rfl, ?_⟩
    simp [kindOf, parsePayoutChangeProposed, hc, hd, bind, Except.bind, pure, Except.pure, entry,
      u64Json, Layout.parsed, Layout.fields, ScVal.decoded, ScVal.shown]
  | payoutChangeApplied =>
    obtain rfl := Option.some.inj hl
    have hc := topic (i := 0) rfl "creator"
    have hd := data (n := 1) rfl "payout_change_applied" "expected [new_payout]"
    refine ⟨rfl, ?_⟩
    simp [kindOf, parsePayoutChangeApplied, hc, hd, bind, Except.bind, pure, Except.pure, entry,
      Layout.parsed, Layout.fields, ScVal.decoded, ScVal.shown]
  | payoutChangeCancelled =>
    obtain rfl := Option.some.inj hl
    have hc := topic (i := 0) rfl "creator"
    refine ⟨rfl, ?_⟩
    simp [kindOf, parsePayoutChangeCancelled, hc, bind, Except.bind, pure, Except.pure,
      Layout.parsed, Layout.fields, ScVal.decoded, ScVal.shown]
  | operatorAuthorized =>
    obtain rfl := Option.some.inj hl
    have hc := topic (i := 0) rfl "creator"
    have ho := topic (i := 1) rfl "operator"
    have hd := data (n := 2) rfl "operator_authorized" "expected [allowance, expiry_ledger]"
    refine ⟨rfl, ?_⟩
    simp [kindOf, parseOperatorAuthorized, hc, ho, hd, bind, Except.bind, pure, Except.pure, entry,
      u64Json, Layout.parsed, Layout.fields, ScVal.decoded, ScVal.shown]
  | operatorRevoked =>
    obtain rfl := Option.some.inj hl
    have hc := topic (i := 0) rfl "creator"
    have ho := topic (i := 1) rfl "operator"
    refine ⟨rfl, ?_⟩
    simp [kindOf, parseOperatorRevoked, hc, ho, bind, Except.bind, pure, Except.pure, Layout.parsed,
      Layout.fields, ScVal.decoded, ScVal.shown]
  | _ => cases hl

/-- The spec of the parser on what the contract publishes. -/
theorem parseEvent_of_carries (hl : layout e = some l) (h : Carries strkey l event) :
    parseEvent event = .ok (l.parsed strkey) := by
  obtain ⟨hkind, hfields⟩ := kindOf_of_carries hl h
  simp [parseEvent, h.topic, hkind, hfields, Layout.parsed, bind, Except.bind, pure, Except.pure]

/-! ## What survives -/

theorem lookup_map_of_mem {α β : Type} {fs : List (String × α)} (hn : (fs.map Prod.fst).Nodup)
    (g : α → β) {f : String × α} (hf : f ∈ fs) :
    (fs.map fun f => (f.1, g f.2)).lookup f.1 = some (g f.2) := by
  induction fs with
  | nil => exact absurd hf List.not_mem_nil
  | cons head rest ih =>
    rw [List.map_cons, List.nodup_cons] at hn
    rw [List.map_cons, List.lookup_cons]
    rcases List.mem_cons.mp hf with rfl | hrest
    · simp
    · have hne : f.1 ≠ head.1 := fun h => hn.1 (h ▸ List.mem_map_of_mem hrest)
      simpa [beq_eq_false_iff_ne.mpr hne] using ih hn.2 hrest

theorem names_nodup (hl : layout e = some l) : (l.fields.map Prod.fst).Nodup := by
  cases e <;> cases hl <;> simp [Layout.fields]

/-- Decoding is a matter of each field for itself. -/
theorem decodes_iff_decoded (hl : layout e = some l) (h : Carries strkey l event) :
    Decodes strkey l event ↔ ∀ f ∈ l.fields, f.2.decoded strkey = f.2.shown strkey := by
  have hfield : ∀ f ∈ l.fields,
      (l.parsed strkey).fields.field f.1 = some (f.2.decoded strkey) := fun f hf =>
    lookup_map_of_mem (names_nodup hl) (ScVal.decoded strkey) hf
  constructor
  · rintro ⟨parsed, hp, -, hf⟩ f hmem
    rw [parseEvent_of_carries hl h] at hp
    obtain rfl := Except.ok.inj hp
    have := hf f hmem
    rw [hfield f hmem] at this
    exact Option.some.inj this
  · intro hf
    refine ⟨_, parseEvent_of_carries hl h, rfl, fun f hmem => ?_⟩
    rw [hfield f hmem, hf f hmem]

theorem zero_eq_toUInt64 (n : UInt32) : 0 = n.toUInt64 ↔ 0 = n :=
  UInt32.toUInt64_inj (a := 0)

theorem decoded_eq_shown_iff (hl : layout e = some l) :
    (∀ f ∈ l.fields, f.2.decoded strkey = f.2.shown strkey) ↔ withoutLedger e = e := by
  cases e <;> cases hl <;>
    simp [Layout.fields, ScVal.decoded, ScVal.shown, withoutLedger, zero_eq_toUInt64]

/-- The parsed event does not depend on a ledger. -/
theorem parsed_withoutLedger (strkey : Address → String) (hl : layout e = some l) :
    ∃ l₀, layout (withoutLedger e) = some l₀ ∧ l₀.parsed strkey = l.parsed strkey := by
  cases e <;> cases hl <;> exact ⟨_, rfl, rfl⟩

/-- Equal parsed events agree on every field but the ledgers. -/
theorem withoutLedger_of_same (hstrkey : Function.Injective strkey) (hl : layout e = some l)
    (hl' : layout e' = some l') (hs : (l.parsed strkey).Same (l'.parsed strkey)) :
    withoutLedger e = withoutLedger e' := by
  have hfield := hs.fields
  have address : ∀ {a b}, some ((ScVal.address a).decoded strkey) =
      some ((ScVal.address b).decoded strkey) → a = b := fun h =>
    hstrkey (Json.string.inj (Option.some.inj h))
  have i128 : ∀ {m n}, some ((ScVal.i128 m).decoded strkey) =
      some ((ScVal.i128 n).decoded strkey) → m = n := fun h =>
    I128.ext (decimal_injective (Json.string.inj (Option.some.inj h)))
  cases e with
  | tip =>
    cases hl
    cases e' with
    | tip =>
      cases hl'
      have hc := address (hfield "creator")
      have ht := address (hfield "token")
      have hs := address (hfield "sender")
      have ha := i128 (hfield "amount")
      simp only [withoutLedger, hc, ht, hs, ha]
    | _ => cases hl' <;> cases hs.kind
  | withdraw =>
    cases hl
    cases e' with
    | withdraw =>
      cases hl'
      have hc := address (hfield "creator")
      have ht := address (hfield "token")
      have ha := i128 (hfield "amount")
      have hd := address (hfield "to")
      simp only [withoutLedger, hc, ht, ha, hd]
    | _ => cases hl' <;> cases hs.kind
  | payoutChangeProposed =>
    cases hl
    cases e' with
    | payoutChangeProposed =>
      cases hl'
      have hc := address (hfield "creator")
      have hp := address (hfield "new_payout")
      simp only [withoutLedger, hc, hp]
    | _ => cases hl' <;> cases hs.kind
  | payoutChangeApplied =>
    cases hl
    cases e' with
    | payoutChangeApplied =>
      cases hl'
      have hc := address (hfield "creator")
      have hp := address (hfield "new_payout")
      simp only [withoutLedger, hc, hp]
    | _ => cases hl' <;> cases hs.kind
  | payoutChangeCancelled =>
    cases hl
    cases e' with
    | payoutChangeCancelled =>
      cases hl'
      have hc := address (hfield "creator")
      simp only [withoutLedger, hc]
    | _ => cases hl' <;> cases hs.kind
  | operatorAuthorized =>
    cases hl
    cases e' with
    | operatorAuthorized =>
      cases hl'
      have hc := address (hfield "creator")
      have ho := address (hfield "operator")
      have ha := i128 (hfield "allowance")
      simp only [withoutLedger, hc, ho, ha]
    | _ => cases hl' <;> cases hs.kind
  | operatorRevoked =>
    cases hl
    cases e' with
    | operatorRevoked =>
      cases hl'
      have hc := address (hfield "creator")
      have ho := address (hfield "operator")
      simp only [withoutLedger, hc, ho]
    | _ => cases hl' <;> cases hs.kind
  | _ => cases hl

theorem same_iff (hstrkey : Function.Injective strkey) (hl : layout e = some l)
    (hl' : layout e' = some l') :
    (l.parsed strkey).Same (l'.parsed strkey) ↔ withoutLedger e = withoutLedger e' := by
  constructor
  · exact withoutLedger_of_same hstrkey hl hl'
  · intro h
    obtain ⟨l₀, hl₀, hparsed⟩ := parsed_withoutLedger strkey hl
    obtain ⟨l₀', hl₀', hparsed'⟩ := parsed_withoutLedger strkey hl'
    rw [h, hl₀'] at hl₀
    obtain rfl := Option.some.inj hl₀
    rw [← hparsed, ← hparsed']
    exact ⟨rfl, rfl, fun _ => rfl⟩

end

/-! ## Round trip -/

/-- An event is recovered exactly when its `u32` field, if it has one, is 0; and two events can be
told apart after parsing exactly when they differ in something else than such a field. -/
theorem decodes_iff (strkey : Address → String) (hstrkey : Function.Injective strkey) :
    (∀ e l event, layout e = some l → Carries strkey l event →
      (Decodes strkey l event ↔ withoutLedger e = e)) ∧
    (∀ e e' l l' event event', layout e = some l → layout e' = some l' →
      Carries strkey l event → Carries strkey l' event' →
      ((∃ p p', parseEvent event = .ok p ∧ parseEvent event' = .ok p' ∧ ¬p.Same p') ↔
        withoutLedger e ≠ withoutLedger e')) := by
  constructor
  · intro e l event hl h
    rw [decodes_iff_decoded hl h, decoded_eq_shown_iff hl]
  · intro e e' l l' event event' hl hl' h h'
    rw [parseEvent_of_carries hl h, parseEvent_of_carries hl' h', ne_eq,
      ← same_iff hstrkey hl hl']
    constructor
    · rintro ⟨p, p', hp, hp', hne⟩
      rwa [Except.ok.inj hp, Except.ok.inj hp']
    · exact fun hne => ⟨_, _, rfl, rfl, hne⟩

/-- The raw event around a topic and a value. -/
def goldenEvent (topic : List Json) (value : Json) : RawContractEvent where
  id := "evt-1"
  pagingToken := some "evt-1"
  contractId := some "abc"
  ledger := 100
  ledgerClosedAt := none
  topic := topic
  value := value
  txHash := some "tx"
  inSuccessfulContractCall := some true

def Layout.encode (strkey : Address → String) (l : Layout) : RawContractEvent :=
  goldenEvent (.object [("symbol", .string l.name)] :: l.topics.map fun f => f.2.toJson strkey)
    (.array (l.data.map fun f => f.2.toJson strkey))

theorem carries_encode (strkey : Address → String) (l : Layout) :
    Carries strkey l (l.encode strkey) := ⟨rfl, rfl⟩

/-- One text per address. -/
def sampleStrkey (a : Address) : String := decimal a.idx

theorem sampleStrkey_injective : Function.Injective sampleStrkey := by
  intro a b h
  have hidx : a.idx = b.idx := Int.ofNat.inj (decimal_injective h)
  cases a
  cases b
  exact congrArg Address.mk hidx

theorem decodes_iff_sample :
    ∃ l l', layout (.tip ⟨1⟩ ⟨2⟩ ⟨3⟩ 1000) = some l ∧ layout (.tip ⟨1⟩ ⟨2⟩ ⟨3⟩ 2000) = some l' ∧
      Decodes sampleStrkey l (l.encode sampleStrkey) ∧
      ∃ p p', parseEvent (l.encode sampleStrkey) = .ok p ∧
        parseEvent (l'.encode sampleStrkey) = .ok p' ∧ ¬p.Same p' := by
  obtain ⟨hone, htwo⟩ := decodes_iff sampleStrkey sampleStrkey_injective
  refine ⟨_, _, rfl, rfl, ?_, ?_⟩
  · exact (hone (.tip ⟨1⟩ ⟨2⟩ ⟨3⟩ 1000) _ _ rfl (carries_encode _ _)).mpr rfl
  · exact (htwo (.tip ⟨1⟩ ⟨2⟩ ⟨3⟩ 1000) (.tip ⟨1⟩ ⟨2⟩ ⟨3⟩ 2000) _ _ _ _ rfl rfl
      (carries_encode _ _) (carries_encode _ _)).mpr (by decide)

/-- A change proposed for ledger 100 is not recovered: it reads as one for ledger 200 does. -/
theorem ledger_lost :
    ∃ l l', layout (.payoutChangeProposed ⟨1⟩ ⟨2⟩ 100) = some l ∧
      layout (.payoutChangeProposed ⟨1⟩ ⟨2⟩ 200) = some l' ∧
      Carries sampleStrkey l (l.encode sampleStrkey) ∧
      Carries sampleStrkey l' (l'.encode sampleStrkey) ∧
      ¬Decodes sampleStrkey l (l.encode sampleStrkey) ∧
      parseEvent (l.encode sampleStrkey) = parseEvent (l'.encode sampleStrkey) := by
  refine ⟨_, _, rfl, rfl, carries_encode _ _, carries_encode _ _, ?_, ?_⟩
  · rw [decodes_iff_decoded (e := .payoutChangeProposed ⟨1⟩ ⟨2⟩ 100) rfl (carries_encode _ _),
      decoded_eq_shown_iff (e := .payoutChangeProposed ⟨1⟩ ⟨2⟩ 100) rfl]
    decide
  · rw [parseEvent_of_carries (e := .payoutChangeProposed ⟨1⟩ ⟨2⟩ 100) rfl (carries_encode _ _),
      parseEvent_of_carries (e := .payoutChangeProposed ⟨1⟩ ⟨2⟩ 200) rfl (carries_encode _ _)]
    rfl

end Indexer
