import StellarTipjar.Migrate.Export

/-!
# Migration toolkit — verification

`scripts/migrate/verify_migration.rs`: the findings of a comparison of a snapshot with the live
state of the target. A read that fails or finds nothing stands for the default of its type, and the
locked tips are not looked at.
-/

namespace Migrate

open Lib

inductive FindingSeverity where
  | missing
  | extra
  | mismatch
deriving DecidableEq

/-- A text of a finding: values put into a text by `{}`, or a whole record, which `{:?}` prints with
all its fields. -/
inductive Shown where
  | text (s : String)
  | tipMetadata (r : TipMetadata)
  | leaderboardEntry (r : LeaderboardEntry)
  | subscription (r : Subscription)
  | timeLock (r : TimeLock)
  | milestone (r : Milestone)
  | matchingProgram (r : MatchingProgram)
  | tipRecord (r : TipRecord)
deriving DecidableEq

/-- `<absent>`: where the target has nothing. -/
def Shown.absent : Shown := .text "<absent>"

structure VerificationFinding where
  severity : FindingSeverity
  field : String
  expected : Shown
  actual : Shown
deriving DecidableEq

/-! ## Checks -/

/-- What was read as a text, where nothing reads as the empty one. -/
def shownString (actual : String) : Shown := if actual.isEmpty then .absent else .text actual

def checkInstanceString (key : String) (actual expected : String) : List VerificationFinding :=
  if actual ≠ expected then
    [⟨if actual.isEmpty then .missing else .mismatch, "instance." ++ key, .text expected,
      shownString actual⟩]
  else []

/-- `check_instance_u32`, `check_instance_u64` and `check_instance_bool`. -/
def checkInstance {α : Type} [DecidableEq α] [ToString α] (key : String) (actual expected : α) :
    List VerificationFinding :=
  if actual ≠ expected then
    [⟨.mismatch, "instance." ++ key, .text (toString expected), .text (toString actual)⟩]
  else []

def checkAmount (field : String) (actual expected : I128) : List VerificationFinding :=
  if actual ≠ expected then
    [⟨.mismatch, field, .text (toString expected.val), .text (toString actual.val)⟩]
  else []

/-- A missing record is shown whole, of one that differs what `fields` prints. -/
def checkRecord {α : Type} (field : String) (whole fields : α → Shown) (actual : Option α)
    (expected : α) (differs : α → Bool) : List VerificationFinding :=
  match actual with
  | none => [⟨.missing, field, whole expected, .absent⟩]
  | some a => if differs a then [⟨.mismatch, field, fields expected, fields a⟩] else []

/-- The id that a text spells, as the key of an entry does. -/
def idOfText (s : String) : Option UInt64 :=
  ((parseDigits s.toList).map UInt64.ofNat).filter fun id => toString id = s

/-! ## Collections -/

def verifyInstance (rpc : Reads) (snapshot : StateSnapshot) : List VerificationFinding :=
  checkInstanceString "Admin" (rpc.admin.toOption.getD "") snapshot.admin ++
  checkInstance "FeeBasisPoints" ((rpc.get .feeBasisPoints).getD 0) snapshot.feeBasisPoints ++
  checkInstance "RefundWindow" ((rpc.get .refundWindow).getD 0) snapshot.refundWindowSeconds ++
  checkInstance "Paused" (rpc.paused.getD false) snapshot.paused ++
  checkInstance "TipCounter" ((rpc.get .tipCounter).getD 0) snapshot.tipCounter ++
  checkInstance "MatchingCounter" ((rpc.get .matchingCounter).getD 0) snapshot.matchingCounter ++
  checkInstance "ContractVersion" ((rpc.get .contractVersion).getD 0) snapshot.schemaVersion

def verifyTokens (rpc : Reads) (snapshot : StateSnapshot) : List VerificationFinding :=
  let actualTokens := (rpc.whitelistedTokens.toOption.getD []).map Address.text
  snapshot.whitelistedTokens.filterMap fun token =>
    if token ∈ actualTokens then none
    else some ⟨.missing, "whitelisted_tokens." ++ token, .text "true", .absent⟩

def verifyCreatorBalances (rpc : Reads) (snapshot : StateSnapshot) : List VerificationFinding :=
  snapshot.creatorBalances.entries.flatMap fun ⟨key, expected⟩ =>
    match splitKey key with
    | (creator, some rest) =>
      let actual := (Address.parse rest).bind fun token => rpc.get (.creatorBalance creator token)
      checkAmount ("creator_balances." ++ key) (actual.getD 0) expected
    | _ => []

def verifyCreatorTotals (rpc : Reads) (snapshot : StateSnapshot) : List VerificationFinding :=
  snapshot.creatorTotals.entries.flatMap fun ⟨key, expected⟩ =>
    match splitKey key with
    | (creator, some rest) =>
      let actual := (Address.parse rest).bind fun token => rpc.get (.creatorTotal creator token)
      checkAmount ("creator_totals." ++ key) (actual.getD 0) expected
    | _ => []

def verifyTipHistory (rpc : Reads) (snapshot : StateSnapshot) : List VerificationFinding :=
  snapshot.tipHistory.entries.flatMap fun ⟨creator, expectedTips⟩ =>
    let count := (Address.parse creator).bind fun c => rpc.get (.tipCount c)
    let field := "tip_history." ++ creator ++ "."
    (if (count.getD 0).toNat ≠ expectedTips.length then
      [⟨.mismatch, field ++ "count", .text (toString expectedTips.length),
        .text (toString (count.getD 0))⟩]
    else []) ++
    expectedTips.zipIdx.flatMap fun (expected, idx) =>
      let actual := (Address.parse creator).bind fun c =>
        rpc.get (.tipHistory c (UInt64.ofNat idx))
      checkRecord (field ++ toString idx) .tipMetadata .tipMetadata actual expected
        fun a => a ≠ expected

/-- Shared by the two kinds of aggregates. -/
def LeaderboardEntry.shown (e : LeaderboardEntry) : Shown :=
  .text ("amount=" ++ toString e.totalAmount.val ++ " count=" ++ toString e.tipCount)

def verifyTipperAggregates (rpc : Reads) (snapshot : StateSnapshot) : List VerificationFinding :=
  snapshot.tipperAggregates.entries.flatMap fun ⟨key, expected⟩ =>
    match splitKey key with
    | (address, some rest) =>
      checkRecord ("tipper_aggregates." ++ key) .leaderboardEntry LeaderboardEntry.shown
        (rpc.get (.tipperAggregate address ((parseU32 rest).getD 0))) expected fun a =>
          a.totalAmount ≠ expected.totalAmount ∨ a.tipCount ≠ expected.tipCount
    | _ => []

def verifyCreatorAggregates (rpc : Reads) (snapshot : StateSnapshot) : List VerificationFinding :=
  snapshot.creatorAggregates.entries.flatMap fun ⟨key, expected⟩ =>
    match splitKey key with
    | (address, some rest) =>
      checkRecord ("creator_aggregates." ++ key) .leaderboardEntry LeaderboardEntry.shown
        (rpc.get (.creatorAggregate address ((parseU32 rest).getD 0))) expected fun a =>
          a.totalAmount ≠ expected.totalAmount ∨ a.tipCount ≠ expected.tipCount
    | _ => []

def verifySubscriptions (rpc : Reads) (snapshot : StateSnapshot) : List VerificationFinding :=
  snapshot.subscriptions.entries.flatMap fun ⟨key, expected⟩ =>
    match splitKey key with
    | (subscriber, some rest) =>
      let actual := (Address.parse rest).bind fun creator =>
        (rpc.get (.subscription subscriber creator)).map (·.val)
      checkRecord ("subscriptions." ++ key) .subscription
        (fun sub => .text ("amount=" ++ toString sub.amount.val ++ " interval=" ++
          toString sub.intervalSeconds))
        actual expected fun a =>
          a.amount ≠ expected.amount ∨ a.intervalSeconds ≠ expected.intervalSeconds
    | _ => []

def verifyTimeLocks (rpc : Reads) (snapshot : StateSnapshot) : List VerificationFinding :=
  snapshot.timeLocks.flatMap fun expected =>
    checkRecord ("time_locks." ++ toString expected.lockId) .timeLock
      (fun lock => .text ("amount=" ++ toString lock.amount.val ++ " cancelled=" ++
        toString lock.cancelled))
      ((rpc.get (.timeLock expected.lockId)).map (·.val)) expected fun a =>
        a.amount ≠ expected.amount ∨ a.cancelled ≠ expected.cancelled

def verifyMilestones (rpc : Reads) (snapshot : StateSnapshot) : List VerificationFinding :=
  snapshot.milestones.entries.flatMap fun ⟨key, expected⟩ =>
    match splitKey key with
    | (creator, some rest) =>
      let actual := (idOfText rest).bind fun id =>
        (rpc.get (.milestone creator id)).map (·.val)
      checkRecord ("milestones." ++ key) .milestone
        (fun ms => .text ("goal=" ++ toString ms.goalAmount.val ++ " current=" ++
          toString ms.currentAmount.val ++ " completed=" ++ toString ms.completed))
        actual expected fun a =>
          a.goalAmount ≠ expected.goalAmount ∨ a.currentAmount ≠ expected.currentAmount ∨
            a.completed ≠ expected.completed
    | _ => []

def verifyMatchingPrograms (rpc : Reads) (snapshot : StateSnapshot) : List VerificationFinding :=
  snapshot.matchingPrograms.flatMap fun expected =>
    checkRecord ("matching_programs." ++ toString expected.id) .matchingProgram
      (fun prog => .text ("max=" ++ toString prog.maxMatchAmount.val ++ " matched=" ++
        toString prog.currentMatched.val ++ " active=" ++ toString prog.active))
      ((rpc.get (.matchingProgram expected.id)).map (·.val)) expected fun a =>
        a.maxMatchAmount ≠ expected.maxMatchAmount ∨
          a.currentMatched ≠ expected.currentMatched ∨ a.active ≠ expected.active

def verifyTipRecords (rpc : Reads) (snapshot : StateSnapshot) : List VerificationFinding :=
  snapshot.tipRecords.flatMap fun expected =>
    checkRecord ("tip_records." ++ toString expected.id) .tipRecord
      (fun record => .text ("amount=" ++ toString record.amount.val ++ " refunded=" ++
        toString record.refunded))
      ((rpc.get (.tipRecord expected.id)).map (·.val)) expected fun a =>
        a.amount ≠ expected.amount ∨ a.refunded ≠ expected.refunded

def verifyUserRoles (rpc : Reads) (snapshot : StateSnapshot) : List VerificationFinding :=
  snapshot.userRoles.entries.flatMap fun ⟨address, expected⟩ =>
    let actual := (Address.parse address).bind fun a => rpc.get (.userRole a)
    if actual.getD "" ≠ expected then
      [⟨.mismatch, "user_roles." ++ address, .text expected, shownString (actual.getD "")⟩]
    else []

/-- The findings of `verify_migration`; the report has passed when there is none. -/
def verifyMigration (rpc : Reads) (snapshot : StateSnapshot) : List VerificationFinding :=
  verifyInstance rpc snapshot ++ verifyTokens rpc snapshot ++
  verifyCreatorBalances rpc snapshot ++ verifyCreatorTotals rpc snapshot ++
  verifyTipHistory rpc snapshot ++
  verifyTipperAggregates rpc snapshot ++ verifyCreatorAggregates rpc snapshot ++
  verifySubscriptions rpc snapshot ++ verifyTimeLocks rpc snapshot ++
  verifyMilestones rpc snapshot ++ verifyMatchingPrograms rpc snapshot ++
  verifyTipRecords rpc snapshot ++ verifyUserRoles rpc snapshot

end Migrate
