import StellarTipjar.Lib.Json

/-!
# Indexer — parsing contract events

`indexer/src/event_parser.rs`: from the JSON of a contract event to its kind and its fields. The
accessors fall back from one spelling of a scalar to another and to defaults; the order in which
they try is that of the source. The raw event type is the one of `event_listener.rs`.
-/

namespace Indexer

open Lib

/-- An event as the event source returns it. `ledgerClosedAt` is the time stamp in the text form in
which it travels. -/
structure RawContractEvent where
  id : String
  pagingToken : Option String
  contractId : Option String
  ledger : Int
  ledgerClosedAt : Option String
  topic : List Json
  value : Json
  txHash : Option String
  inSuccessfulContractCall : Option Bool

/-- A signed 64-bit integer as a JSON number. -/
def i64Json (n : Int) : Json :=
  if 0 ≤ n then .number (.posInt (.ofInt n)) else .number (.negInt n)

def optionJson (s : Option String) : Json := s.elim .null .string

def RawContractEvent.toJson (event : RawContractEvent) : Json :=
  .object [("id", .string event.id), ("pagingToken", optionJson event.pagingToken),
    ("contractId", optionJson event.contractId), ("ledger", i64Json event.ledger),
    ("ledgerClosedAt", optionJson event.ledgerClosedAt), ("topic", .array event.topic),
    ("value", event.value), ("txHash", optionJson event.txHash),
    ("inSuccessfulContractCall", event.inSuccessfulContractCall.elim .null .bool)]

/-- Where a poll that ends with this event resumes. -/
def RawContractEvent.cursor (event : RawContractEvent) : String :=
  event.pagingToken.getD event.id

/-- The kinds the parser tells apart. -/
inductive EventKind where
  | tip
  | tipWithMessage
  | withdraw
  | tipLocked
  | withdrawLocked
  | refund
  | refundRequested
  | refundApproved
  | roleGranted
  | roleRevoked
  | matchCreated
  | matchApplied
  | matchCancelled
  | upgraded
  | payoutChangeProposed
  | payoutChangeApplied
  | payoutChangeCancelled
  | operatorAuthorized
  | operatorRevoked
  | unknown
deriving DecidableEq, Repr

/-- The kind as it is serialized. -/
def EventKind.name : EventKind → String
  | tip => "tip"
  | tipWithMessage => "tip_with_message"
  | withdraw => "withdraw"
  | tipLocked => "tip_locked"
  | withdrawLocked => "withdraw_locked"
  | refund => "refund"
  | refundRequested => "refund_requested"
  | refundApproved => "refund_approved"
  | roleGranted => "role_granted"
  | roleRevoked => "role_revoked"
  | matchCreated => "match_created"
  | matchApplied => "match_applied"
  | matchCancelled => "match_cancelled"
  | upgraded => "upgraded"
  | payoutChangeProposed => "payout_change_proposed"
  | payoutChangeApplied => "payout_change_applied"
  | payoutChangeCancelled => "payout_change_cancelled"
  | operatorAuthorized => "operator_authorized"
  | operatorRevoked => "operator_revoked"
  | unknown => "unknown"

/-- The topic is kept beside the kind: events of unknown kind differ in it. -/
structure ParsedEvent where
  kind : EventKind
  topic : String
  fields : Json

def ParsedEvent.toJson (parsed : ParsedEvent) : Json :=
  .object [("kind", .string parsed.kind.name), ("topic", .string parsed.topic),
    ("fields", parsed.fields)]

/-- Why an event does not parse. A payload error names the topic and what was expected. -/
inductive ParserError where
  | missingTopic
  | invalidTopic
  | invalidPayload (topic reason : String)
deriving DecidableEq, Repr

def ParserError.message : ParserError → String
  | missingTopic => "event has no topic entries"
  | invalidTopic => "topic[0] is not a recognizable symbol"
  | invalidPayload topic reason => "malformed payload for topic " ++ topic ++ ": " ++ reason

def payloadErr (topic reason : String) : ParserError := .invalidPayload topic reason

/-! ## Reading a value -/

/-- An entry of an object whose values were read as text before. -/
def textOf (texts : List (String × Option String)) (key : String) : Option String :=
  (texts.lookup key).join

mutual

/-- A scalar as text. Of an object the first of these members that reads as text counts. -/
def valueToString : Json → Option String
  | .string s => some s
  | .number n => some n.text
  | .object map =>
    let texts := entryTexts map
    (textOf texts "address").or <| (textOf texts "symbol").or <| (textOf texts "string").or <|
      (textOf texts "bytes").or <| (textOf texts "u64").or <| textOf texts "i128"
  | _ => none

-- `value_to_string` of every entry of an object
def entryTexts : List (String × Json) → List (String × Option String)
  | [] => []
  | (key, value) :: rest => (key, valueToString value) :: entryTexts rest

end

/-- `str::parse::<u64>`: digits, with at most one leading plus. -/
def parseU64 (s : String) : Option UInt64 :=
  let digits := match s.toList with
    | '+' :: rest => rest
    | all => all
  if digits.isEmpty || !digits.all Char.isDigit then none
  else
    let n := digits.foldl (fun n c => 10 * n + (c.toNat - '0'.toNat)) 0
    if n < UInt64.size then some (.ofNat n) else none

/-- A number, a numeral, or an object with a `u64` or `i128` member; everything else is 0. -/
def valueToU64 : Json → UInt64
  | .number n => n.asU64.getD 0
  | .string s => (parseU64 s).getD 0
  | .object map =>
    (((Json.get map "u64").bind valueToString).bind parseU64).or
      (((Json.get map "i128").bind valueToString).bind parseU64) |>.getD 0
  | _ => 0

/-- The amount as text, unchecked: a string is taken as it is, and what is neither a number nor a
string nor an object with an `i128` or `u64` member is printed as JSON. -/
def valueToI128 (value : Json) : String :=
  match value with
  | .number n => n.text
  | .string s => s
  | .object map =>
    ((Json.get map "i128").bind valueToString).or ((Json.get map "u64").bind valueToString)
      |>.getD value.render
  | _ => value.render

/-- `value_to_string(v).unwrap_or_else(|| v.to_string())`. -/
def stringOrJson (value : Json) : String := (valueToString value).getD value.render

/-- A topic entry as a symbol. -/
def topicSymbol : Json → Option String
  | .string s => some s
  | .object map =>
    ((Json.get map "symbol").bind valueToString).or ((Json.get map "string").bind valueToString)
  | _ => none

/-- The topic as the errors name it. -/
def topicName (event : RawContractEvent) : String :=
  (event.topic.head?.bind topicSymbol).getD "<unknown>"

/-- A topic entry as text; a missing one is an error that names the field. -/
def topicValue (event : RawContractEvent) (idx : Nat) (field : String) :
    Except ParserError String :=
  match event.topic[idx]?.bind valueToString with
  | some s => .ok s
  | none => .error (payloadErr (topicName event) ("missing topic field " ++ field))

/-- The value as a list. -/
def valueArray (event : RawContractEvent) (topic : String) : Except ParserError (List Json) :=
  match event.value with
  | .array v => .ok v
  | _ => .error (payloadErr topic "value is not an array")

/-- The first `n` entries of the value, or an error that says what was expected. -/
def expectArray (event : RawContractEvent) (topic : String) (n : Nat) (expected : String) :
    Except ParserError (List Json) := do
  let data ← valueArray event topic
  if data.length < n then .error (payloadErr topic expected) else .ok data

/-- An entry of a list that is long enough. -/
def entry (data : List Json) (i : Nat) : Json := data.getD i .null

def u64Json (n : UInt64) : Json := .number (.posInt n)

/-! ## The parsers of the kinds -/

/-- Topics `[tip, creator]`, value `[token, sender, amount]`. -/
def parseTip (event : RawContractEvent) : Except ParserError Json := do
  let creator ← topicValue event 1 "creator"
  let data ← expectArray event "tip" 3 "expected [token, sender, amount]"
  pure (.object [("creator", .string creator), ("token", .string (stringOrJson (entry data 0))),
    ("sender", .string (stringOrJson (entry data 1))),
    ("amount", .string (valueToI128 (entry data 2)))])

/-- A message that is not text reads as the empty one; the metadata is kept as JSON. -/
def parseTipMessage (event : RawContractEvent) : Except ParserError Json := do
  let creator ← topicValue event 1 "creator"
  let data ← expectArray event "tip_msg" 4 "expected [sender, amount, message, metadata]"
  pure (.object [("creator", .string creator), ("sender", .string (stringOrJson (entry data 0))),
    ("amount", .string (valueToI128 (entry data 1))),
    ("message", .string ((valueToString (entry data 2)).getD "")), ("metadata", entry data 3)])

/-- A recipient that is not text reads as the creator. -/
def parseWithdraw (event : RawContractEvent) : Except ParserError Json := do
  let creator ← topicValue event 1 "creator"
  let data ← expectArray event "withdraw" 3 "expected [token, amount, to]"
  pure (.object [("creator", .string creator), ("token", .string (stringOrJson (entry data 0))),
    ("amount", .string (valueToI128 (entry data 1))),
    ("to", .string ((valueToString (entry data 2)).getD creator))])

/-- Topics `[tip_lckd, creator, token]`. -/
def parseTipLocked (event : RawContractEvent) : Except ParserError Json := do
  let creator ← topicValue event 1 "creator"
  let token ← topicValue event 2 "token"
  let data ← expectArray event "tip_lckd" 4 "expected [tip_id, sender, amount, unlock_timestamp]"
  pure (.object [("creator", .string creator), ("token", .string token),
    ("tip_id", u64Json (valueToU64 (entry data 0))),
    ("sender", .string (stringOrJson (entry data 1))),
    ("amount", .string (valueToI128 (entry data 2))),
    ("unlock_timestamp", u64Json (valueToU64 (entry data 3)))])

/-- Topics `[lck_wdrw, creator, token]`. -/
def parseWithdrawLocked (event : RawContractEvent) : Except ParserError Json := do
  let creator ← topicValue event 1 "creator"
  let token ← topicValue event 2 "token"
  let data ← expectArray event "lck_wdrw" 2 "expected [tip_id, amount]"
  pure (.object [("creator", .string creator), ("token", .string token),
    ("tip_id", u64Json (valueToU64 (entry data 0))),
    ("amount", .string (valueToI128 (entry data 1)))])

/-- One parser for the refund and for its approval; they differ in the topic an error names. -/
def parseRefund (event : RawContractEvent) (approved : Bool) : Except ParserError Json := do
  let creator ← topicValue event 1 "creator"
  let data ← expectArray event (if approved then "ref_appr" else "refund") 3
    "expected [tip_id, sender, amount]"
  pure (.object [("creator", .string creator), ("tip_id", u64Json (valueToU64 (entry data 0))),
    ("sender", .string (stringOrJson (entry data 1))),
    ("amount", .string (valueToI128 (entry data 2)))])

/-- Topics `[ref_req, creator]`. -/
def parseRefundRequest (event : RawContractEvent) : Except ParserError Json := do
  let creator ← topicValue event 1 "creator"
  let data ← expectArray event "ref_req" 2 "expected [tip_id, sender]"
  pure (.object [("creator", .string creator), ("tip_id", u64Json (valueToU64 (entry data 0))),
    ("sender", .string (stringOrJson (entry data 1)))])

/-- The value is the caller itself, not a list. -/
def parseRoleEvent (event : RawContractEvent) : Except ParserError Json := do
  let target ← topicValue event 1 "target"
  let role ← topicValue event 2 "role"
  pure (.object [("target", .string target), ("role", .string role),
    ("caller", .string (stringOrJson event.value))])

/-- Topics `[match_new, creator, token]`. -/
def parseMatchNew (event : RawContractEvent) : Except ParserError Json := do
  let creator ← topicValue event 1 "creator"
  let token ← topicValue event 2 "token"
  let data ← expectArray event "match_new" 4
    "expected [sponsor, program_id, match_ratio, max_match_amount]"
  pure (.object [("creator", .string creator), ("token", .string token),
    ("sponsor", .string (stringOrJson (entry data 0))),
    ("program_id", u64Json (valueToU64 (entry data 1))),
    ("match_ratio", u64Json (valueToU64 (entry data 2))),
    ("max_match_amount", .string (valueToI128 (entry data 3)))])

/-- Topics `[tip_match, creator, token]`. -/
def parseTipMatch (event : RawContractEvent) : Except ParserError Json := do
  let creator ← topicValue event 1 "creator"
  let token ← topicValue event 2 "token"
  let data ← expectArray event "tip_match" 3 "expected [sender, amount, matched_amount]"
  pure (.object [("creator", .string creator), ("token", .string token),
    ("sender", .string (stringOrJson (entry data 0))),
    ("amount", .string (valueToI128 (entry data 1))),
    ("matched_amount", .string (valueToI128 (entry data 2)))])

/-- Topics `[match_end, creator, token]`. -/
def parseMatchEnd (event : RawContractEvent) : Except ParserError Json := do
  let creator ← topicValue event 1 "creator"
  let token ← topicValue event 2 "token"
  let data ← expectArray event "match_end" 3 "expected [sponsor, program_id, unspent]"
  pure (.object [("creator", .string creator), ("token", .string token),
    ("sponsor", .string (stringOrJson (entry data 0))),
    ("program_id", u64Json (valueToU64 (entry data 1))),
    ("unspent", .string (valueToI128 (entry data 2)))])

/-- The value is the version itself; one that is not a number is 0. -/
def parseUpgraded (event : RawContractEvent) : Except ParserError Json := do
  let admin ← topicValue event 1 "admin"
  pure (.object [("admin", .string admin), ("version", u64Json (valueToU64 event.value))])

/-- Topics `[payout_change_proposed, creator]`. -/
def parsePayoutChangeProposed (event : RawContractEvent) : Except ParserError Json := do
  let creator ← topicValue event 1 "creator"
  let data ← expectArray event "payout_change_proposed" 2
    "expected [new_payout, effective_ledger]"
  pure (.object [("creator", .string creator),
    ("new_payout", .string (stringOrJson (entry data 0))),
    ("effective_ledger", u64Json (valueToU64 (entry data 1)))])

/-- Topics `[payout_change_applied, creator]`. -/
def parsePayoutChangeApplied (event : RawContractEvent) : Except ParserError Json := do
  let creator ← topicValue event 1 "creator"
  let data ← expectArray event "payout_change_applied" 1 "expected [new_payout]"
  pure (.object [("creator", .string creator),
    ("new_payout", .string (stringOrJson (entry data 0)))])

/-- The value is not looked at. -/
def parsePayoutChangeCancelled (event : RawContractEvent) : Except ParserError Json := do
  let creator ← topicValue event 1 "creator"
  pure (.object [("creator", .string creator)])

/-- Topics `[operator_authorized, creator, operator]`. -/
def parseOperatorAuthorized (event : RawContractEvent) : Except ParserError Json := do
  let creator ← topicValue event 1 "creator"
  let operator ← topicValue event 2 "operator"
  let data ← expectArray event "operator_authorized" 2 "expected [allowance, expiry_ledger]"
  pure (.object [("creator", .string creator), ("operator", .string operator),
    ("allowance", .string (valueToI128 (entry data 0))),
    ("expiry_ledger", u64Json (valueToU64 (entry data 1)))])

/-- The value is not looked at. -/
def parseOperatorRevoked (event : RawContractEvent) : Except ParserError Json := do
  let creator ← topicValue event 1 "creator"
  let operator ← topicValue event 2 "operator"
  pure (.object [("creator", .string creator), ("operator", .string operator)])

/-! ## The parser -/

/-- The kind of a topic, and how its fields are read. -/
def kindOf (topic : String) : EventKind × (RawContractEvent → Except ParserError Json) :=
  match topic with
  | "tip" => (.tip, parseTip)
  | "tip_msg" => (.tipWithMessage, parseTipMessage)
  | "withdraw" => (.withdraw, parseWithdraw)
  | "tip_lckd" => (.tipLocked, parseTipLocked)
  | "lck_wdrw" => (.withdrawLocked, parseWithdrawLocked)
  | "refund" => (.refund, fun event => parseRefund event false)
  | "ref_req" => (.refundRequested, parseRefundRequest)
  | "ref_appr" => (.refundApproved, fun event => parseRefund event true)
  | "role_grnt" => (.roleGranted, parseRoleEvent)
  | "role_rvk" => (.roleRevoked, parseRoleEvent)
  | "match_new" => (.matchCreated, parseMatchNew)
  | "tip_match" => (.matchApplied, parseTipMatch)
  | "match_end" => (.matchCancelled, parseMatchEnd)
  | "upgraded" => (.upgraded, parseUpgraded)
  | "payout_change_proposed" => (.payoutChangeProposed, parsePayoutChangeProposed)
  | "payout_change_applied" => (.payoutChangeApplied, parsePayoutChangeApplied)
  | "payout_change_cancelled" => (.payoutChangeCancelled, parsePayoutChangeCancelled)
  | "operator_authorized" => (.operatorAuthorized, parseOperatorAuthorized)
  | "operator_revoked" => (.operatorRevoked, parseOperatorRevoked)
  | _ => (.unknown, fun event =>
      .ok (.object [("raw_topic", .array event.topic), ("raw_value", event.value)]))

/-- The kind comes from the first topic entry. An unknown kind is not an error: its topics and its
value are kept raw. -/
def parseEvent (event : RawContractEvent) : Except ParserError ParsedEvent := do
  let some topic := event.topic.head? | .error .missingTopic
  let some symbol := topicSymbol topic | .error .invalidTopic
  let fields ← (kindOf symbol).2 event
  pure { kind := (kindOf symbol).1, topic := symbol, fields }

end Indexer
