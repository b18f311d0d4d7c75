import StellarTipjar.Migrate.Verify

/-!
# Migration toolkit — import and rollback

`scripts/migrate/import_state.rs`. An import exports the target to a backup, pauses it, writes the
records of the snapshot one call at a time, verifies, and unpauses. When a write fails or the
verification finds something, `rollback` imports the backup over what is there and unpauses.
-/

namespace Migrate

open Lib

/-! ## The calls of an import -/

/-- A setter call of `do_import`: the entry it writes, nothing when one of its arguments is not an
address, and whether it is counted as a record. -/
structure Call where
  entry : Option Entry
  counted : Bool := true

section Setters

def whitelistToken (token : String) : Call :=
  { entry := (Address.parse token).map fun token => ⟨.tokenWhitelist token, true⟩ }

def setCreatorBalance (creator : Address) (token : String) (balance : I128) : Call :=
  { entry := (Address.parse token).map fun token => ⟨.creatorBalance creator token, balance⟩ }

def setCreatorTotal (creator : Address) (token : String) (total : I128) : Call :=
  { entry := (Address.parse token).map fun token => ⟨.creatorTotal creator token, total⟩ }

/-- The length of a history. It is not counted as a record. -/
def setTipCount (creator : String) (count : UInt64) : Call :=
  { entry := (Address.parse creator).map fun creator => ⟨.tipCount creator, count⟩
    counted := false }

def setTipHistoryEntry (creator : String) (idx : UInt64) (tip : TipMetadata) : Call :=
  { entry := (Address.parse creator).map fun creator => ⟨.tipHistory creator idx, tip⟩ }

def setTipperAggregate (address : Address) (bucket : UInt32) (entry : LeaderboardEntry) : Call :=
  { entry := some ⟨.tipperAggregate address bucket, entry⟩ }

def setCreatorAggregate (address : Address) (bucket : UInt32) (entry : LeaderboardEntry) : Call :=
  { entry := some ⟨.creatorAggregate address bucket, entry⟩ }

/-- The record is stored under the names it carries. -/
def setSubscription (sub : Subscription) : Call :=
  { entry :=
      if hs : ':' ∉ sub.subscriber.toList then
        if hc : ':' ∉ sub.creator.toList then
          some ⟨.subscription ⟨sub.subscriber, hs⟩ ⟨sub.creator, hc⟩, ⟨sub, rfl, rfl⟩⟩
        else none
      else none }

def setTimeLock (lock : TimeLock) : Call :=
  { entry := some ⟨.timeLock lock.lockId, ⟨lock, rfl⟩⟩ }

def setMilestone (creator : Address) (ms : Milestone) : Call :=
  { entry := some ⟨.milestone creator ms.id, ⟨ms, rfl⟩⟩ }

def setMatchingProgram (prog : MatchingProgram) : Call :=
  { entry := some ⟨.matchingProgram prog.id, ⟨prog, rfl⟩⟩ }

def setTipRecord (rec : TipRecord) : Call := { entry := some ⟨.tipRecord rec.id, ⟨rec, rfl⟩⟩ }

/-- Like a subscription, a locked tip is stored under the name it carries. -/
def setLockedTip (lt : LockedTip) : Call :=
  { entry :=
      if hc : ':' ∉ lt.creator.toList then
        some ⟨.lockedTip ⟨lt.creator, hc⟩ lt.tipId, ⟨lt, rfl, rfl⟩⟩
      else none }

def setUserRole (address role : String) : Call :=
  { entry := (Address.parse address).map fun address => ⟨.userRole address, role⟩ }

end Setters

section Calls
variable (snapshot : StateSnapshot)

/-- The fields of the snapshot that are single values. -/
def instanceCalls : List Call :=
  [ { entry := some ⟨.admin, snapshot.admin⟩ },
    { entry := some ⟨.feeBasisPoints, snapshot.feeBasisPoints⟩ },
    { entry := some ⟨.refundWindow, snapshot.refundWindowSeconds⟩ },
    { entry := some ⟨.tipCounter, snapshot.tipCounter⟩ },
    { entry := some ⟨.matchingCounter, snapshot.matchingCounter⟩ },
    { entry := some ⟨.currentFeeBps, snapshot.currentFeeBps⟩ },
    { entry := some ⟨.contractVersion, snapshot.schemaVersion⟩ } ]

def tokenCalls : List Call := snapshot.whitelistedTokens.map whitelistToken

/-- A key without a colon is skipped. -/
def balanceCalls : List Call :=
  snapshot.creatorBalances.entries.filterMap fun ⟨key, balance⟩ =>
    match splitKey key with
    | (creator, some token) => some (setCreatorBalance creator token balance)
    | _ => none

def totalCalls : List Call :=
  snapshot.creatorTotals.entries.filterMap fun ⟨key, total⟩ =>
    match splitKey key with
    | (creator, some token) => some (setCreatorTotal creator token total)
    | _ => none

/-- For every creator the number of tips, and then the tips by their position. -/
def tipHistoryCalls : List Call :=
  snapshot.tipHistory.entries.flatMap fun ⟨creator, tips⟩ =>
    setTipCount creator (UInt64.ofNat tips.length) ::
      tips.zipIdx.map fun (tip, idx) => setTipHistoryEntry creator (UInt64.ofNat idx) tip

/-- A bucket that is not a number is bucket 0. -/
def tipperAggregateCalls : List Call :=
  snapshot.tipperAggregates.entries.filterMap fun ⟨key, entry⟩ =>
    match splitKey key with
    | (address, some bucket) =>
      some (setTipperAggregate address ((parseU32 bucket).getD 0) entry)
    | _ => none

def creatorAggregateCalls : List Call :=
  snapshot.creatorAggregates.entries.filterMap fun ⟨key, entry⟩ =>
    match splitKey key with
    | (address, some bucket) =>
      some (setCreatorAggregate address ((parseU32 bucket).getD 0) entry)
    | _ => none

/-- The map keys are not looked at: the record names both parties. -/
def subscriptionCalls : List Call :=
  snapshot.subscriptions.entries.map fun e => setSubscription e.2

/-- `max_lock_id` after the loop over the locks. -/
def maxLockId (locks : List TimeLock) : UInt64 :=
  locks.foldl (fun max lock => if lock.lockId ≥ max then lock.lockId + 1 else max) 0

/-- The locks, and the next lock id after them. Without locks no id is written. -/
def timeLockCalls : List Call :=
  snapshot.timeLocks.map setTimeLock ++
  if snapshot.timeLocks.isEmpty then []
  else [{ entry := some ⟨.instanceNextLockId, maxLockId snapshot.timeLocks⟩, counted := false }]

/-- A key without a colon is skipped; the id is that of the record. -/
def milestoneCalls : List Call :=
  snapshot.milestones.entries.filterMap fun ⟨key, ms⟩ =>
    match splitKey key with
    | (creator, some _) => some (setMilestone creator ms)
    | _ => none

def matchingProgramCalls : List Call := snapshot.matchingPrograms.map setMatchingProgram

def tipRecordCalls : List Call := snapshot.tipRecords.map setTipRecord

def lockedTipCalls : List Call := snapshot.lockedTips.map setLockedTip

/-- One call per role. -/
def userRoleCalls : List Call :=
  snapshot.userRoles.entries.map fun e => setUserRole e.1 e.2

/-- The setter calls of `do_import`, in order. -/
def importCalls : List Call :=
  instanceCalls snapshot ++ tokenCalls snapshot ++ balanceCalls snapshot ++ totalCalls snapshot ++
  tipHistoryCalls snapshot ++ tipperAggregateCalls snapshot ++ creatorAggregateCalls snapshot ++
  subscriptionCalls snapshot ++ timeLockCalls snapshot ++ milestoneCalls snapshot ++
  matchingProgramCalls snapshot ++ tipRecordCalls snapshot ++ lockedTipCalls snapshot ++
  userRoleCalls snapshot

end Calls

/-! ## Sending them -/

/-- What the toolkit runs against. -/
structure Env where
  /-- The error of the `n`-th write call of the run, `none` when it goes through. -/
  fault : Nat → Option String
  /-- The error of a call the contract cannot make sense of. -/
  rejection : String
  /-- The order in which a storage scan comes upon the keys of the target. -/
  listing : Target → List Key
  digest : StateSnapshot → String
  now : UInt64
  ledger : UInt32
  /-- Writing the backup file. -/
  writeBackup : Except String Unit
  /-- What is read back from the file a snapshot was written to. -/
  readBack : StateSnapshot → Except String StateSnapshot
  /-- Writing the verification report. -/
  writeReport : Except String Unit

/-- The target, and how many write calls have been made. -/
structure World where
  target : Target
  calls : Nat

/-- The reading commands, run against the target as it is now. -/
def Env.reads (env : Env) (t : Target) : Reads :=
  t.reads (env.listing t) env.ledger env.rejection

/-- A write call: it fails as the fault pattern says, or has its effect. Either way it counts. -/
def invokeContract (env : Env) (effect : Target → Target) (w : World) :
    Except String Unit × World :=
  match env.fault w.calls with
  | some err => (.error err, { w with calls := w.calls + 1 })
  | none => (.ok (), { target := effect w.target, calls := w.calls + 1 })

/-- A call the contract cannot make sense of fails without an effect. -/
def send (env : Env) (call : Call) (w : World) : Except String Unit × World :=
  match call.entry with
  | none => (.error env.rejection, { w with calls := w.calls + 1 })
  | some e => invokeContract env (·.write e) w

/-- Sends the calls up to the first that fails; `count` is the number of records written so far. -/
def sendAll (env : Env) : List Call → Nat → World → Except String Nat × World
  | [], count, w => (.ok count, w)
  | call :: rest, count, w =>
    match send env call w with
    | (.error err, w) => (.error err, w)
    | (.ok (), w) => sendAll env rest (count + call.counted.toNat) w

/-- The records of the snapshot, one call each. What a failed import has written stays. -/
def doImport (env : Env) (snapshot : StateSnapshot) (w : World) : Except String Nat × World :=
  sendAll env (importCalls snapshot) 0 w

/-! ## Backup and rollback -/

/-- The backup is an export of the target, written to a file. -/
def createBackup (env : Env) (targetContractId : String) (t : Target) :
    Except String StateSnapshot := do
  let backup ← exportState env.digest (env.reads t) targetContractId env.now
  env.writeBackup
  pure backup

/-- Reads the backup back, checks its checksum, imports it over what is there and unpauses. Nothing
is deleted. -/
def rollback (env : Env) (backup : StateSnapshot) (w : World) : Except String Unit × World :=
  match env.readBack backup with
  | .error err => (.error err, w)
  | .ok backup =>
    match verifyChecksum env.digest backup with
    | .error err => (.error err, w)
    | .ok () =>
      match doImport env backup w with
      | (.error err, w) => (.error err, w)
      | (.ok _, w) =>
        match invokeContract env Target.unpause w with
        | (.error err, w) => (.error ("Failed to unpause after rollback: " ++ err), w)
        | (.ok (), w) => (.ok (), w)

/-! ## The import -/

/-- How an import can fail. -/
inductive ImportError where
  | checksum (err : String)
  | backup (err : String)
  | pause (err : String)
  | importFailed (err : String)
  | verificationFailed (findings : Nat)
  | rollback (err : String)
  | unpause (err : String)
  | report (err : String)
deriving DecidableEq

namespace ImportError

def message : ImportError → String
  | checksum err => err
  | backup err => err
  | pause err => "Failed to pause target contract: " ++ err
  | importFailed err => "Import failed and was rolled back: " ++ err
  | verificationFailed n =>
    "Verification failed with " ++ toString n ++ " finding(s). Rolling back."
  | rollback err => err
  | unpause err => "Failed to unpause target contract: " ++ err
  | report err => err

/-- The errors of an import whose writes or verification failed, so that it was rolled back. -/
def FromRollback : ImportError → Prop
  | importFailed _ => True
  | verificationFailed _ => True
  | rollback _ => True
  | _ => False

end ImportError

/-- The part of the configuration an import reads. -/
structure MigrationSection where
  targetContractId : String
  dryRun : Bool

/-- The reason the toolkit pauses with. -/
def pauseReason : String := "state-migration-in-progress"

/-- Rolls back, and then reports why; a rollback that fails reports its own error. -/
def rollBackAfter (env : Env) (backup : StateSnapshot) (err : ImportError) (w : World) :
    Except ImportError Nat × World :=
  match rollback env backup w with
  | (.error rollbackErr, w) => (.error (.rollback rollbackErr), w)
  | (.ok (), w) => (.error err, w)

/-- Checksum, backup, pause, import, verification, unpause, report, in this order. The verification
runs while the target is still paused. A dry run stops after the checksum. -/
def importState (env : Env) (cfg : MigrationSection) (snapshot : StateSnapshot) (w : World) :
    Except ImportError Nat × World :=
  match verifyChecksum env.digest snapshot with
  | .error err => (.error (.checksum err), w)
  | .ok () =>
    if cfg.dryRun then (.ok 0, w)
    else match createBackup env cfg.targetContractId w.target with
      | .error err => (.error (.backup err), w)
      | .ok backup =>
        match invokeContract env (·.pause pauseReason) w with
        | (.error err, w) => (.error (.pause err), w)
        | (.ok (), w) =>
          match doImport env snapshot w with
          | (.error err, w) => rollBackAfter env backup (.importFailed err) w
          | (.ok imported, w) =>
            let findings := verifyMigration (env.reads w.target) snapshot
            if findings ≠ [] then
              rollBackAfter env backup (.verificationFailed findings.length) w
            else match invokeContract env Target.unpause w with
              | (.error err, w) => (.error (.unpause err), w)
              | (.ok (), w) =>
                match env.writeReport with
                | .error err => (.error (.report err), w)
                | .ok () => (.ok imported, w)

end Migrate
