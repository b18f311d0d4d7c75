import Mathlib.Data.List.Dedup
import StellarTipjar.Migrate.Types

/-!
# Migration toolkit — export

`scripts/migrate/export_state.rs` over the reads of `rpc_client.rs`. A getter answers the stored
value, or nothing: a read that fails and an entry that is missing look alike to it. Only the admin,
the list of tokens, the storage scans and the ledger number can fail the export.
-/

namespace Migrate

open Lib

/-! ## Reads -/

/-- What the reads of the toolkit answer. -/
structure Reads where
  get : (k : Key) → Option k.Val
  admin : Except String String
  paused : Option Bool
  pauseReason : Option String
  whitelistedTokens : Except String (List Address)
  creatorBalances : Except String (List ((Address × Address) × I128))
  creatorTotals : Except String (List ((Address × Address) × I128))
  subscriptions : Except String (List (Address × Address))
  userRoles : Except String (List (Address × String))
  latestLedgerSequence : Except String UInt32

namespace Target

/-- What is kept of the entries a storage scan comes upon, in the order of `listing`. -/
def scan {α : Type} (t : Target) (listing : List Key) (pick : (k : Key) → k.Val → Option α) :
    List α :=
  listing.filterMap fun k => (t.get k).bind (pick k)

/-- `get_whitelisted_tokens`. -/
def whitelistedTokens (t : Target) (listing : List Key) : List Address :=
  t.scan listing fun
    | .tokenWhitelist token, listed => if listed then some token else none
    | _, _ => none

/-- `scan_persistent_prefix "CreatorBalance"`. -/
def scanCreatorBalances (t : Target) (listing : List Key) : List ((Address × Address) × I128) :=
  t.scan listing fun
    | .creatorBalance creator token, amount => some ((creator, token), amount)
    | _, _ => none

/-- `scan_persistent_prefix "CreatorTotal"`. -/
def scanCreatorTotals (t : Target) (listing : List Key) : List ((Address × Address) × I128) :=
  t.scan listing fun
    | .creatorTotal creator token, amount => some ((creator, token), amount)
    | _, _ => none

/-- `scan_persistent_prefix "Subscription"`, of which only the keys are used. -/
def scanSubscriptions (t : Target) (listing : List Key) : List (Address × Address) :=
  t.scan listing fun
    | .subscription subscriber creator, _ => some (subscriber, creator)
    | _, _ => none

/-- `scan_persistent_prefix "UserRole"`. -/
def scanUserRoles (t : Target) (listing : List Key) : List (Address × String) :=
  t.scan listing fun
    | .userRole address, role => some (address, role)
    | _, _ => none

/-- The reads when none of them fails. `listing` is the order in which a storage scan comes upon the
keys, and `noAdmin` the error of a contract without an admin. -/
def reads (t : Target) (listing : List Key) (ledger : UInt32) (noAdmin : String) : Reads where
  get := t.get
  admin := match t.get .admin with
    | some admin => .ok admin
    | none => .error noAdmin
  paused := some t.paused
  pauseReason := t.pauseReason
  whitelistedTokens := .ok (t.whitelistedTokens listing)
  creatorBalances := .ok (t.scanCreatorBalances listing)
  creatorTotals := .ok (t.scanCreatorTotals listing)
  subscriptions := .ok (t.scanSubscriptions listing)
  userRoles := .ok (t.scanUserRoles listing)
  latestLedgerSequence := .ok ledger

end Target

/-! ## The collections -/

/-- The keys of a balance or total map. -/
def compositeEntries (raw : List ((Address × Address) × I128)) : List (String × I128) :=
  raw.map fun e => (joinKey e.1.1 e.1.2.text, e.2)

def exportCreatorFinancials (rpc : Reads) :
    Except String (HashMap String I128 × HashMap String I128) := do
  let raw ← rpc.creatorBalances
  let rawTotals ← rpc.creatorTotals
  pure (.collect (compositeEntries raw), .collect (compositeEntries rawTotals))

/-- The creators known to the export: those with a balance. -/
def creators (creatorBalances : HashMap String I128) : List Address :=
  (creatorBalances.entries.map fun e => (splitKey e.1).1).dedup

/-- The tips of one creator, in order; a missing index is skipped. -/
def readTips (rpc : Reads) (creator : Address) : List TipMetadata :=
  (upTo ((rpc.get (.tipCount creator)).getD 0)).filterMap fun idx =>
    rpc.get (.tipHistory creator idx)

def exportTipHistory (rpc : Reads) (creatorBalances : HashMap String I128) :
    HashMap String (List TipMetadata) :=
  .collect <| (creators creatorBalances).filterMap fun creator =>
    let tips := readTips rpc creator
    if tips.isEmpty then none else some (creator.text, tips)

def bucketAllTime : UInt32 := 0

def exportTipperAggregates (rpc : Reads) : HashMap String LeaderboardEntry :=
  let tipperAddrs := (rpc.get (.tipperParticipants bucketAllTime)).getD []
  .collect <| tipperAddrs.filterMap fun addr =>
    (rpc.get (.tipperAggregate addr bucketAllTime)).map fun entry =>
      (joinKey addr (toString bucketAllTime), entry)

def exportCreatorAggregates (rpc : Reads) : HashMap String LeaderboardEntry :=
  let creatorAddrs := (rpc.get (.creatorParticipants bucketAllTime)).getD []
  .collect <| creatorAddrs.filterMap fun addr =>
    (rpc.get (.creatorAggregate addr bucketAllTime)).map fun entry =>
      (joinKey addr (toString bucketAllTime), entry)

def exportSubscriptions (rpc : Reads) : Except String (HashMap String Subscription) := do
  let raw ← rpc.subscriptions
  pure <| .collect <| raw.filterMap fun (subscriber, creator) =>
    (rpc.get (.subscription subscriber creator)).map fun sub =>
      (joinKey subscriber creator.text, sub.val)

/-- The records with the ids `0..count`; a missing one is skipped. -/
def readRecords {α : Type} (count : UInt64) (read : UInt64 → Option α) : List α :=
  (upTo count).filterMap read

def exportTimeLocks (rpc : Reads) : List TimeLock :=
  readRecords ((rpc.get .nextLockId).getD 0) fun id => (rpc.get (.timeLock id)).map (·.val)

def exportMilestones (rpc : Reads) (creatorBalances : HashMap String I128) :
    HashMap String Milestone :=
  .collect <| (creators creatorBalances).flatMap fun creator =>
    readRecords ((rpc.get (.milestoneCounter creator)).getD 0) fun id =>
      (rpc.get (.milestone creator id)).map fun ms => (joinKey creator (toString id), ms.val)

def exportMatchingPrograms (rpc : Reads) (counter : UInt64) : List MatchingProgram :=
  readRecords counter fun id => (rpc.get (.matchingProgram id)).map (·.val)

def exportTipRecords (rpc : Reads) (tipCounter : UInt64) : List TipRecord :=
  readRecords tipCounter fun id => (rpc.get (.tipRecord id)).map (·.val)

def exportLockedTips (rpc : Reads) (creatorBalances : HashMap String I128) : List LockedTip :=
  (creators creatorBalances).flatMap fun creator =>
    readRecords ((rpc.get (.lockedTipCounter creator)).getD 0) fun id =>
      (rpc.get (.lockedTip creator id)).map (·.val)

def exportUserRoles (rpc : Reads) : Except String (HashMap String String) := do
  let raw ← rpc.userRoles
  pure <| .collect <| raw.map fun (address, role) => (address.text, role)

/-! ## Checksums -/

/-- `digest` is the SHA-256 of the JSON text of a snapshot, in hexadecimal. -/
def computeChecksum (digest : StateSnapshot → String) (snapshot : StateSnapshot) : String :=
  digest { snapshot with checksum := "" }

def verifyChecksum (digest : StateSnapshot → String) (snapshot : StateSnapshot) :
    Except String Unit :=
  let expected := computeChecksum digest snapshot
  if snapshot.checksum ≠ expected then
    .error ("Checksum mismatch: stored=" ++ snapshot.checksum ++ ", computed=" ++ expected)
  else .ok ()

/-! ## The export -/

def exportState (digest : StateSnapshot → String) (rpc : Reads) (contractId : String)
    (now : UInt64) : Except String StateSnapshot := do
  let admin ← rpc.admin
  let tipCounter := (rpc.get .tipCounter).getD 0
  let matchingCounter := (rpc.get .matchingCounter).getD 0
  let whitelistedTokens ← rpc.whitelistedTokens
  let (creatorBalances, creatorTotals) ← exportCreatorFinancials rpc
  let subscriptions ← exportSubscriptions rpc
  let userRoles ← exportUserRoles rpc
  let ledgerSequence ← rpc.latestLedgerSequence
  let snapshot : StateSnapshot :=
    { contractId
      schemaVersion := (rpc.get .contractVersion).getD 0
      exportedAt := now
      ledgerSequence
      checksum := ""
      admin
      feeBasisPoints := (rpc.get .feeBasisPoints).getD 0
      refundWindowSeconds := (rpc.get .refundWindow).getD 0
      paused := rpc.paused.getD false
      pauseReason := rpc.pauseReason
      tipCounter
      matchingCounter
      currentFeeBps := (rpc.get .currentFeeBps).getD 100
      whitelistedTokens := whitelistedTokens.map Address.text
      creatorBalances
      creatorTotals
      tipHistory := exportTipHistory rpc creatorBalances
      tipperAggregates := exportTipperAggregates rpc
      creatorAggregates := exportCreatorAggregates rpc
      subscriptions
      timeLocks := exportTimeLocks rpc
      milestones := exportMilestones rpc creatorBalances
      matchingPrograms := exportMatchingPrograms rpc matchingCounter
      tipRecords := exportTipRecords rpc tipCounter
      lockedTips := exportLockedTips rpc creatorBalances
      userRoles }
  pure { snapshot with checksum := computeChecksum digest snapshot }

end Migrate
