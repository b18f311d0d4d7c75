import StellarTipjar.Indexer.Shapes

/-!
# Indexer — the second parser

`indexer/src/indexer/event_processor.rs` has typed parsers of its own for tips and withdrawals. They
expect the token as the third topic, where the contract publishes two topics and the token with the
data. So they refuse every event of the contract that `parseEvent` reads (`parsers_never_agree`).
-/

namespace Indexer

open Lib Soroban

structure TipEventData where
  creator : String
  token : String
  sender : String
  amount : String
deriving DecidableEq, Repr

structure WithdrawalEventData where
  creator : String
  token : String
  amount : String
deriving DecidableEq, Repr

/-! ## The processor -/

mutual

def valToString : Json → String
  | .string s => s
  | .number n => n.text
  | .object m =>
    -- the first of the keys that is there decides, whatever its value reads as
    let texts := entryStrings m
    let text := (texts.lookup "address").or <| (texts.lookup "symbol").or <|
      (texts.lookup "string").or <| (texts.lookup "i128").or <| texts.lookup "u64"
    text.getD ""
  | _ => ""

-- `val_to_string` of every entry of an object
def entryStrings : List (String × Json) → List (String × String)
  | [] => []
  | (key, value) :: rest => (key, valToString value) :: entryStrings rest

end

def strAt (arr : List Json) (idx : Nat) (field : String) : Except String String :=
  match (arr[idx]?.map valToString).filter fun s => !s.isEmpty with
  | some s => .ok s
  | none => .error ("missing field '" ++ field ++ "' at index " ++ toString idx)

def asArray : Json → Option (List Json)
  | .array xs => some xs
  | _ => none

/-- An entry of a raw event that is a list. -/
def arrayAt (raw : Json) (key missing : String) : Except String (List Json) :=
  match (raw.field key).bind asArray with
  | some xs => .ok xs
  | none => .error missing

def parseTipEvent (raw : Json) : Except String TipEventData := do
  let topic ← arrayAt raw "topic" "missing topic array"
  let creator ← strAt topic 1 "creator"
  let token ← strAt topic 2 "token"
  let value ← arrayAt raw "value" "tip value is not an array"
  let sender ← strAt value 0 "sender"
  let amount ← strAt value 1 "amount"
  pure { creator, token, sender, amount }

def parseWithdrawalEvent (raw : Json) : Except String WithdrawalEventData := do
  let topic ← arrayAt raw "topic" "missing topic array"
  let creator ← strAt topic 1 "creator"
  let token ← strAt topic 2 "token"
  let amount := valToString ((raw.field "value").getD .null)
  pure { creator, token, amount }

/-! ## Agreement -/

/-- The scalar in JSON: an object that names its type, or the plain text. -/
def Spells (strkey : Address → String) (v : ScVal) (j : Json) : Prop :=
  j = v.toJson strkey ∨ j = v.shown strkey

/-- The raw event carries the event with this layout, each scalar in one of the spellings. -/
structure Spelled (strkey : Address → String) (l : Layout) (event : RawContractEvent) : Prop where
  topic : ∃ t ts, event.topic = t :: ts ∧
    (t = .string l.name ∨ t = .object [("symbol", .string l.name)]) ∧
    List.Forall₂ (fun f j => Spells strkey f.2 j) l.topics ts
  value : ∃ vs, event.value = .array vs ∧ List.Forall₂ (fun f j => Spells strkey f.2 j) l.data vs

def ParsedEvent.Shows (parsed : ParsedEvent) (name text : String) : Prop :=
  parsed.fields.field name = some (.string text)

/-- Both parsers accept the event or none does, and what they return is the same. -/
structure TipAgrees (event : RawContractEvent) : Prop where
  accepts : (∃ tip, parseTipEvent event.toJson = .ok tip) ↔ ∃ parsed, parseEvent event = .ok parsed
  same : ∀ tip parsed, parseTipEvent event.toJson = .ok tip → parseEvent event = .ok parsed →
    parsed.Shows "creator" tip.creator ∧ parsed.Shows "token" tip.token ∧
      parsed.Shows "sender" tip.sender ∧ parsed.Shows "amount" tip.amount

structure WithdrawalAgrees (event : RawContractEvent) : Prop where
  accepts : (∃ w, parseWithdrawalEvent event.toJson = .ok w) ↔
    ∃ parsed, parseEvent event = .ok parsed
  same : ∀ w parsed, parseWithdrawalEvent event.toJson = .ok w → parseEvent event = .ok parsed →
    parsed.Shows "creator" w.creator ∧ parsed.Shows "token" w.token ∧
      parsed.Shows "amount" w.amount

/-! ## The first parser accepts -/

section

variable {strkey : Address → String} {l : Layout} {event : RawContractEvent}

theorem valueToString_of_spells {a : Address} {j : Json} (h : Spells strkey (.address a) j) :
    valueToString j = some (strkey a) := by
  rcases h with rfl | rfl
  · exact valueToString_address a
  · rfl

theorem Spelled.symbol (h : Spelled strkey l event) :
    event.topic.head?.bind topicSymbol = some l.name := by
  obtain ⟨t, ts, htopic, ht, -⟩ := h.topic
  rw [htopic]
  rcases ht with rfl | rfl
  · rfl
  · exact topicSymbol_symbol l.name

theorem Spelled.topic_length (h : Spelled strkey l event) :
    event.topic.length = l.topics.length + 1 := by
  obtain ⟨t, ts, htopic, -, hts⟩ := h.topic
  rw [htopic, List.length_cons, hts.length_eq]

/-- Both events have one topic after the name, an address, and a list of data. -/
theorem Spelled.parsed {sh : Shape} {name expected : String} {creator : Address}
    {fields : List (String × Reading)} (h : Spelled strkey l event)
    (htopics : l.topics = [(name, .address creator)]) (hs : shapeOf l.name = some sh)
    (hone : sh.topics.length = 1) (hpay : sh.payload = .array expected fields)
    (hlen : fields.length = l.data.length) : ∃ parsed, parseEvent event = .ok parsed := by
  obtain ⟨t, ts, htopic, -, hts⟩ := h.topic
  obtain ⟨vs, hvalue, hvs⟩ := h.value
  rw [htopics] at hts
  cases hts with
  | cons hcreator hnil =>
    cases hnil
    have hslots : sh.payload.slots event.value = some (List.zipWith slot fields vs) := by
      rw [hpay, hvalue]
      exact if_neg (by rw [hlen, hvs.length_eq]; omega)
    have htexts : ∀ j < sh.topics.length, [strkey creator][j]? = topicText event j := by
      intro j hj
      rw [hone] at hj
      obtain rfl : j = 0 := by omega
      simp [topicText, htopic, valueToString_of_spells hcreator]
    have hfits : Fits sh event [strkey creator] (List.zipWith slot fields vs) :=
      ⟨hone.symm, htexts, hslots⟩
    exact ⟨_, parseEvent_of_fits h.symbol hs hfits⟩

end

/-! ## The second refuses -/

section

variable {event : RawContractEvent}

theorem arrayAt_topic (missing : String) :
    arrayAt event.toJson "topic" missing = .ok event.topic := by
  rfl

/-- With no topic at position 2 there is no token. -/
theorem strAt_of_length_le {arr : List Json} {idx : Nat} (h : arr.length ≤ idx) (field : String) :
    strAt arr idx field = .error ("missing field '" ++ field ++ "' at index " ++ toString idx) := by
  rw [strAt, List.getElem?_eq_none h]
  rfl

theorem no_token {α : Type} {arr : List Json} (h : arr.length ≤ 2)
    (k : String → String → Except String α) (r : α) :
    (strAt arr 1 "creator" >>= fun creator => strAt arr 2 "token" >>= k creator) ≠ .ok r := by
  rw [strAt_of_length_le h]
  cases strAt arr 1 "creator" <;> simp [bind, Except.bind]

theorem parseTipEvent_ne_ok (h : event.topic.length ≤ 2) (tip : TipEventData) :
    parseTipEvent event.toJson ≠ .ok tip := by
  rw [parseTipEvent, arrayAt_topic]
  exact no_token h _ tip

theorem parseWithdrawalEvent_ne_ok (h : event.topic.length ≤ 2) (w : WithdrawalEventData) :
    parseWithdrawalEvent event.toJson ≠ .ok w := by
  rw [parseWithdrawalEvent, arrayAt_topic]
  exact no_token h _ w

end

/-- No tip and no withdrawal of the contract, whatever its addresses and its amount, is read by both
parsers. -/
theorem parsers_never_agree (strkey : Address → String) :
    (∀ creator token sender amount l event, layout (.tip creator token sender amount) = some l →
      Spelled strkey l event → ¬TipAgrees event) ∧
    (∀ creator token amount dest l event, layout (.withdraw creator token amount dest) = some l →
      Spelled strkey l event → ¬WithdrawalAgrees event) := by
  constructor
  · intro creator token sender amount l event hl h hagree
    obtain rfl := Option.some.inj hl
    obtain ⟨tip, htip⟩ := hagree.accepts.mpr (h.parsed rfl rfl rfl rfl rfl)
    exact parseTipEvent_ne_ok h.topic_length.le tip htip
  · intro creator token amount dest l event hl h hagree
    obtain rfl := Option.some.inj hl
    obtain ⟨w, hw⟩ := hagree.accepts.mpr (h.parsed rfl rfl rfl rfl rfl)
    exact parseWithdrawalEvent_ne_ok h.topic_length.le w hw

theorem carries_spelled {strkey : Address → String} {l : Layout} {event : RawContractEvent}
    (h : Carries strkey l event) : Spelled strkey l event where
  topic := ⟨_, _, h.topic, .inr rfl, List.forall₂_map_right_iff.mpr
    (List.forall₂_same.mpr fun _ _ => .inl rfl)⟩
  value := ⟨_, h.value, List.forall₂_map_right_iff.mpr
    (List.forall₂_same.mpr fun _ _ => .inl rfl)⟩

theorem parsers_never_agree_sample :
    ∃ l l', layout (.tip ⟨1⟩ ⟨2⟩ ⟨3⟩ 1000) = some l ∧ layout (.withdraw ⟨1⟩ ⟨2⟩ 1000 ⟨1⟩) = some l' ∧
      ¬TipAgrees (l.encode sampleStrkey) ∧ ¬WithdrawalAgrees (l'.encode sampleStrkey) := by
  obtain ⟨htip, hwithdraw⟩ := parsers_never_agree sampleStrkey
  refine ⟨_, _, rfl, rfl, ?_, ?_⟩
  · exact htip ⟨1⟩ ⟨2⟩ ⟨3⟩ 1000 _ _ rfl (carries_spelled (carries_encode _ _))
  · exact hwithdraw ⟨1⟩ ⟨2⟩ 1000 ⟨1⟩ _ _ rfl (carries_spelled (carries_encode _ _))

/-- A tip of 1000 with plain texts. -/
def plainTip : RawContractEvent :=
  goldenEvent [.string "tip", .string "GCREATOR"]
    (.array [.string "CTOKEN", .string "GSENDER", .string "1000"])

/-- `parseEvent` has all four fields, the processor misses the token. -/
theorem plainTip_disagrees :
    parseTipEvent plainTip.toJson = .error "missing field 'token' at index 2" ∧
    parseEvent plainTip = .ok ⟨.tip, "tip", .object [("creator", .string "GCREATOR"),
      ("token", .string "CTOKEN"), ("sender", .string "GSENDER"), ("amount", .string "1000")]⟩ ∧
    ¬TipAgrees plainTip := by
  refine ⟨rfl, rfl, fun h => ?_⟩
  obtain ⟨tip, htip⟩ := h.accepts.mpr ⟨_, rfl⟩
  cases htip

end Indexer
