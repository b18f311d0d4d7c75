import StellarTipjar.Migrate.Export

/-!
# Migration toolkit — transformation

`scripts/migrate/transform_state.rs`: a table of versioned rules, each of which rewrites one part of
a snapshot and logs what it changed, and the loop that applies those on the path from one version to
another. `applyRules_eq` says what the whole path from version 1 to 2 rewrites, and with that what
it leaves alone; `transform_keeps_owed` is what this means for the state that is owed to somebody.
-/

namespace Migrate

open Lib

structure TransformationLog where
  rule : String
  description : String
  recordsAffected : Nat
deriving DecidableEq

/-! ## The rules -/

/-- Removes creator balance entries where the balance is exactly zero. -/
def ruleRemoveZeroBalances (snapshot : StateSnapshot) (logs : List TransformationLog) :
    StateSnapshot × List TransformationLog :=
  let before := snapshot.creatorBalances.entries.length
  let creatorBalances := snapshot.creatorBalances.retain fun _ v => v ≠ 0
  let removed := before - creatorBalances.entries.length
  ({ snapshot with creatorBalances },
    logs ++ [⟨"v1_to_v2_normalise_balances", s!"Removed {removed} zero-value balance entries.",
      removed⟩])

/-- Removes creator total entries where the total is exactly zero. -/
def ruleRemoveZeroTotals (snapshot : StateSnapshot) (logs : List TransformationLog) :
    StateSnapshot × List TransformationLog :=
  let before := snapshot.creatorTotals.entries.length
  let creatorTotals := snapshot.creatorTotals.retain fun _ v => v ≠ 0
  let removed := before - creatorTotals.entries.length
  ({ snapshot with creatorTotals },
    logs ++ [⟨"v1_to_v2_normalise_totals", s!"Removed {removed} zero-value total entries.",
      removed⟩])

-- the loop of the rule below, over the locks still to come
def markExpired (now : UInt64) : List TimeLock → Nat → List TimeLock × Nat
  | [], affected => ([], affected)
  | lock :: locks, affected =>
    if lock.cancelled = false ∧ lock.unlockTime < now then
      let rest := markExpired now locks (affected + 1)
      ({ lock with cancelled := true } :: rest.1, rest.2)
    else
      let rest := markExpired now locks affected
      (lock :: rest.1, rest.2)

/-- Marks time locks whose `unlock_time` is in the past as cancelled. "Now" is when the snapshot was
exported. -/
def ruleMarkExpiredLocksCancelled (snapshot : StateSnapshot) (logs : List TransformationLog) :
    StateSnapshot × List TransformationLog :=
  let now := snapshot.exportedAt
  let marked := markExpired now snapshot.timeLocks 0
  let affected := marked.2
  ({ snapshot with timeLocks := marked.1 },
    logs ++ [⟨"v1_to_v2_cancel_expired_locks",
      s!"Marked {affected} expired time-lock(s) as cancelled (unlock_time < {now}).", affected⟩])

/-- There are no two subscriptions of one key, so this rule only logs. -/
def ruleDedupSubscriptions (snapshot : StateSnapshot) (logs : List TransformationLog) :
    StateSnapshot × List TransformationLog :=
  (snapshot, logs ++ [⟨"v1_to_v2_dedup_subscriptions",
    "No duplicate subscriptions found (HashMap keyed by subscriber:creator).", 0⟩])

/-- Removes subscriptions whose status is `Cancelled`. -/
def ruleStripCancelledSubscriptions (snapshot : StateSnapshot) (logs : List TransformationLog) :
    StateSnapshot × List TransformationLog :=
  let before := snapshot.subscriptions.entries.length
  let subscriptions := snapshot.subscriptions.retain fun _ sub => sub.status ≠ .cancelled
  let removed := before - subscriptions.entries.length
  ({ snapshot with subscriptions },
    logs ++ [⟨"v1_to_v2_strip_cancelled_subscriptions",
      s!"Removed {removed} cancelled subscription(s).", removed⟩])

def maxHistory : Nat := 1000

/-- Drops the oldest entries, at the front, over the maximum. -/
def capTips (tips : List TipMetadata) : List TipMetadata :=
  if maxHistory < tips.length then tips.drop (tips.length - maxHistory) else tips

/-- Caps the tip history of every creator, keeping the newest entries. -/
def ruleCapTipHistory (snapshot : StateSnapshot) (logs : List TransformationLog) :
    StateSnapshot × List TransformationLog :=
  let totalRemoved := (snapshot.tipHistory.entries.map fun e => e.2.length - maxHistory).sum
  let tipHistory := snapshot.tipHistory.mapValues capTips
  ({ snapshot with tipHistory },
    logs ++ [⟨"v1_to_v2_cap_tip_history",
      s!"Trimmed {totalRemoved} old tip history record(s) to enforce {maxHistory} entry cap per creator.",
      totalRemoved⟩])

/-- Removes tip records that have been fully refunded. -/
def ruleRemoveRefundedTipRecords (snapshot : StateSnapshot) (logs : List TransformationLog) :
    StateSnapshot × List TransformationLog :=
  let before := snapshot.tipRecords.length
  let tipRecords := snapshot.tipRecords.filter fun r => !r.refunded
  let removed := before - tipRecords.length
  ({ snapshot with tipRecords },
    logs ++ [⟨"v1_to_v2_remove_refunded_tip_records",
      s!"Removed {removed} fully-refunded tip record(s).", removed⟩])

-- the version is not set to the target's: it is counted up
def ruleBumpSchemaVersion (snapshot : StateSnapshot) (logs : List TransformationLog) :
    StateSnapshot × List TransformationLog :=
  let old := snapshot.schemaVersion
  let new := old + 1
  ({ snapshot with schemaVersion := new },
    logs ++ [⟨"v1_to_v2_bump_schema_version", s!"Bumped schema_version from {old} to {new}.", 1⟩])

/-- A versioned rule. -/
structure TransformRule where
  fromVersion : UInt32
  toVersion : UInt32
  id : String
  apply : StateSnapshot → List TransformationLog → StateSnapshot × List TransformationLog

/-- `TRANSFORM_RULES`, in the order of their application. -/
def transformRules : List TransformRule :=
  [⟨1, 1, "v1_to_v2_normalise_balances", ruleRemoveZeroBalances⟩,
    ⟨1, 1, "v1_to_v2_normalise_totals", ruleRemoveZeroTotals⟩,
    ⟨1, 1, "v1_to_v2_cancel_expired_locks", ruleMarkExpiredLocksCancelled⟩,
    ⟨1, 1, "v1_to_v2_dedup_subscriptions", ruleDedupSubscriptions⟩,
    ⟨1, 1, "v1_to_v2_strip_cancelled_subscriptions", ruleStripCancelledSubscriptions⟩,
    ⟨1, 1, "v1_to_v2_cap_tip_history", ruleCapTipHistory⟩,
    ⟨1, 1, "v1_to_v2_remove_refunded_tip_records", ruleRemoveRefundedTipRecords⟩,
    ⟨1, 1, "v1_to_v2_bump_schema_version", ruleBumpSchemaVersion⟩]

/-! ## The transformer -/

structure StateTransformer where
  sourceVersion : UInt32
  targetVersion : UInt32

/-- The rule is on the path of the transformer. -/
def StateTransformer.covers (self : StateTransformer) (rule : TransformRule) : Bool :=
  decide (rule.fromVersion ≤ self.sourceVersion) && decide (rule.toVersion < self.targetVersion)

/-- The loop over the rules. -/
def StateTransformer.applyRules (self : StateTransformer) (snapshot : StateSnapshot)
    (logs : List TransformationLog) : StateSnapshot × List TransformationLog :=
  transformRules.foldl
    (fun state rule => if self.covers rule then rule.apply state.1 state.2 else state)
    (snapshot, logs)

def StateTransformer.transform (digest : StateSnapshot → String) (self : StateTransformer)
    (snapshot : StateSnapshot) : Except String (StateSnapshot × List TransformationLog) :=
  if snapshot.schemaVersion ≠ self.sourceVersion then
    .error ("Snapshot schema version " ++ toString snapshot.schemaVersion ++
      " does not match expected source version " ++ toString self.sourceVersion)
  else
    let applied := self.applyRules snapshot []
    -- the checksum is recomputed after all rules
    .ok ({ applied.1 with checksum := computeChecksum digest applied.1 }, applied.2)

/-! ## What the rules rewrite -/

/-- A lock after the rule for expired locks. -/
def TimeLock.markedAt (now : UInt64) (lock : TimeLock) : TimeLock :=
  { lock with cancelled := lock.cancelled || decide (lock.unlockTime < now) }

theorem markExpired_fst (now : UInt64) (locks : List TimeLock) (affected : Nat) :
    (markExpired now locks affected).1 = locks.map (TimeLock.markedAt now) := by
  induction locks generalizing affected with
  | nil => rfl
  | cons lock locks ih =>
    have hlock : (if lock.cancelled = false ∧ lock.unlockTime < now
        then { lock with cancelled := true } else lock) = lock.markedAt now := by
      unfold TimeLock.markedAt
      by_cases hpast : lock.unlockTime < now
      · cases hcancelled : lock.cancelled with
        | true => simp [hpast, ← hcancelled]
        | false => simp [hpast]
      · simp [hpast]
    unfold markExpired
    split
    · rename_i hexpired
      rw [if_pos hexpired] at hlock
      rw [List.map_cons, ← ih (affected + 1), ← hlock]
    · rename_i hkept
      rw [if_neg hkept] at hlock
      rw [List.map_cons, ← ih affected, ← hlock]

/-- All rules are on the path from version 1 to 2. -/
theorem applyRules_one_two (s : StateSnapshot) (logs : List TransformationLog) :
    StateTransformer.applyRules ⟨1, 2⟩ s logs
      = transformRules.foldl (fun state rule => rule.apply state.1 state.2) (s, logs) := by
  have hcovers : ∀ rule ∈ transformRules, StateTransformer.covers ⟨1, 2⟩ rule = true := by
    simp only [transformRules, List.forall_mem_cons, StateTransformer.covers]
    decide
  unfold StateTransformer.applyRules
  refine List.foldl_ext _ _ _ fun state rule hmem => ?_
  rw [if_pos (hcovers rule hmem)]

/-- What the path from version 1 to 2 makes of a snapshot. All that is not named here stays. -/
def StateSnapshot.rewritten (s : StateSnapshot) : StateSnapshot :=
  { s with
    creatorBalances := s.creatorBalances.retain fun _ v => v ≠ 0
    creatorTotals := s.creatorTotals.retain fun _ v => v ≠ 0
    timeLocks := s.timeLocks.map (TimeLock.markedAt s.exportedAt)
    subscriptions := s.subscriptions.retain fun _ sub => sub.status ≠ .cancelled
    tipHistory := s.tipHistory.mapValues capTips
    tipRecords := s.tipRecords.filter fun r => !r.refunded
    schemaVersion := s.schemaVersion + 1 }

theorem applyRules_eq (s : StateSnapshot) (logs : List TransformationLog) :
    (StateTransformer.applyRules ⟨1, 2⟩ s logs).1 = s.rewritten := by
  rw [applyRules_one_two]
  simp only [transformRules, List.foldl_cons, List.foldl_nil, ruleRemoveZeroBalances,
    ruleRemoveZeroTotals, ruleMarkExpiredLocksCancelled, ruleDedupSubscriptions,
    ruleStripCancelledSubscriptions, ruleCapTipHistory, ruleRemoveRefundedTipRecords,
    ruleBumpSchemaVersion, markExpired_fst, StateSnapshot.rewritten]

/-- The transformation succeeds, and seals the rewritten snapshot. -/
theorem transform_eq (digest : StateSnapshot → String) {s : StateSnapshot}
    (hversion : s.schemaVersion = 1) :
    StateTransformer.transform digest ⟨1, 2⟩ s
      = .ok ({ s.rewritten with checksum := computeChecksum digest s.rewritten },
          (StateTransformer.applyRules ⟨1, 2⟩ s []).2) := by
  have happlied := applyRules_eq s []
  unfold StateTransformer.transform
  rw [if_neg (not_not.mpr hversion)]
  generalize StateTransformer.applyRules ⟨1, 2⟩ s [] = applied at happlied ⊢
  rw [← happlied]

/-! ### Applying the rules twice -/

theorem capTips_suffix (tips : List TipMetadata) : capTips tips <:+ tips := by
  unfold capTips
  split
  · exact List.drop_suffix _ _
  · exact List.suffix_refl _

theorem length_capTips (tips : List TipMetadata) :
    (capTips tips).length = min tips.length maxHistory := by
  unfold capTips
  split
  · rw [List.length_drop]
    omega
  · omega

theorem capTips_capTips (tips : List TipMetadata) : capTips (capTips tips) = capTips tips := by
  have hlength := length_capTips tips
  rw [capTips, if_neg (by omega)]

theorem TimeLock.markedAt_markedAt (now : UInt64) (lock : TimeLock) :
    (lock.markedAt now).markedAt now = lock.markedAt now := by
  show { lock with
    cancelled := (lock.cancelled || decide (lock.unlockTime < now))
      || decide (lock.unlockTime < now) } = _
  rw [Bool.or_assoc, Bool.or_self]
  rfl

theorem map_markedAt_twice (now : UInt64) (locks : List TimeLock) :
    (locks.map (TimeLock.markedAt now)).map (TimeLock.markedAt now)
      = locks.map (TimeLock.markedAt now) := by
  rw [List.map_map]
  refine List.map_congr_left fun lock _ => ?_
  exact lock.markedAt_markedAt now

/-- The second time only the version changes. -/
theorem rewritten_rewritten (s : StateSnapshot) (checksum : String) :
    ({ s.rewritten with checksum := checksum } : StateSnapshot).rewritten
      = { s.rewritten with checksum := checksum, schemaVersion := s.schemaVersion + 1 + 1 } := by
  simp only [StateSnapshot.rewritten, HashMap.retain_retain,
    HashMap.mapValues_mapValues _ capTips_capTips, map_markedAt_twice, List.filter_filter,
    Bool.and_self]

/-! ## What is owed -/

/-- What a transformed snapshot `t` has of the snapshot `s` it was made from. -/
structure KeepsOwed (s t : StateSnapshot) : Prop where
  balances : ∀ key, (t.creatorBalances.lookup key).getD 0 = (s.creatorBalances.lookup key).getD 0
  totals : ∀ key, (t.creatorTotals.lookup key).getD 0 = (s.creatorTotals.lookup key).getD 0
  /-- The locks and their order stay, and so do their fields; one that is past its time at the
  export is cancelled. -/
  timeLocks : t.timeLocks = s.timeLocks.map fun lock =>
    { lock with cancelled := lock.cancelled || decide (lock.unlockTime < s.exportedAt) }
  /-- The locks that are not cancelled are those that were not and are not past their time. -/
  uncancelled : t.timeLocks.filter (fun lock => !lock.cancelled)
    = s.timeLocks.filter fun lock => !lock.cancelled && decide (s.exportedAt ≤ lock.unlockTime)
  subscriptions : ∀ key sub, t.subscriptions.lookup key = some sub ↔
    s.subscriptions.lookup key = some sub ∧ sub.status ≠ .cancelled
  tipRecords : t.tipRecords = s.tipRecords.filter fun r => !r.refunded
  tipHistory : ∀ creator,
    (t.tipHistory.lookup creator = none ↔ s.tipHistory.lookup creator = none) ∧
      ∀ tips kept, s.tipHistory.lookup creator = some tips →
        t.tipHistory.lookup creator = some kept →
        kept <:+ tips ∧ kept.length = min tips.length 1000
  schemaVersion : t.schemaVersion = 2
  /-- Everything else is as it was: the instance values, the aggregates, the milestones, the
  matching programs, the locked tips and the roles. -/
  frame : t = { s with
    schemaVersion := t.schemaVersion
    checksum := t.checksum
    creatorBalances := t.creatorBalances
    creatorTotals := t.creatorTotals
    timeLocks := t.timeLocks
    subscriptions := t.subscriptions
    tipRecords := t.tipRecords
    tipHistory := t.tipHistory }

theorem filter_markedAt (now : UInt64) (locks : List TimeLock) :
    (locks.map (TimeLock.markedAt now)).filter (fun lock => !lock.cancelled)
      = locks.filter fun lock => !lock.cancelled && decide (now ≤ lock.unlockTime) := by
  induction locks with
  | nil => rfl
  | cons lock locks ih =>
    have hflip : decide (now ≤ lock.unlockTime) = !decide (lock.unlockTime < now) := by
      rw [← decide_not, decide_eq_decide]
      exact UInt64.not_lt.symm
    rw [List.map_cons, List.filter_cons, List.filter_cons, ih]
    have hkept : (!(lock.markedAt now).cancelled)
        = (!lock.cancelled && decide (now ≤ lock.unlockTime)) := by
      rw [hflip, ← Bool.not_or]
      rfl
    rw [hkept]
    split
    · rename_i howed
      -- a lock that is still owed is not touched
      have hsame : lock.markedAt now = lock := by
        rw [← hkept] at howed
        unfold TimeLock.markedAt at howed ⊢
        simp only [Bool.not_eq_true', Bool.or_eq_false_iff] at howed
        rw [howed.2, Bool.or_false]
      rw [hsame]
    · rfl

theorem keepsOwed_rewritten {s : StateSnapshot} (hversion : s.schemaVersion = 1)
    (checksum : String) : KeepsOwed s { s.rewritten with checksum := checksum } := by
  have hzero : ∀ (_ : String) (v : I128), decide (v ≠ 0) = false → v = 0 := by
    intro _ v hv
    simpa using hv
  constructor
  case balances => exact HashMap.lookup_retain_getD hzero
  case totals => exact HashMap.lookup_retain_getD hzero
  case timeLocks => rfl
  case uncancelled => exact filter_markedAt s.exportedAt s.timeLocks
  case subscriptions =>
    intro key sub
    show (s.subscriptions.retain _).lookup key = some sub ↔ _
    rw [HashMap.lookup_retain_eq_some, decide_eq_true_iff]
  case tipRecords => rfl
  case tipHistory =>
    intro creator
    show ((s.tipHistory.mapValues capTips).lookup creator = none ↔ _) ∧
      ∀ tips kept, _ → (s.tipHistory.mapValues capTips).lookup creator = some kept → _
    rw [HashMap.lookup_mapValues]
    refine ⟨Option.map_eq_none_iff, ?_⟩
    intro tips kept htips hkept
    rw [htips] at hkept
    obtain rfl := Option.some.inj hkept
    exact ⟨capTips_suffix tips, length_capTips tips⟩
  case schemaVersion =>
    show s.schemaVersion + 1 = 2
    rw [hversion]
    rfl
  case frame => rfl

/-- Every snapshot of version 1 is transformed to version 2, what it owes is kept but for the locks
that are past their time, and the same rules change nothing but the version after that. -/
theorem transform_keeps_owed (digest : StateSnapshot → String) {s : StateSnapshot}
    (hversion : s.schemaVersion = 1) :
    ∃ t logs, StateTransformer.transform digest ⟨1, 2⟩ s = .ok (t, logs) ∧ KeepsOwed s t ∧
      ∀ logs', (StateTransformer.applyRules ⟨1, 2⟩ t logs').1
        = { t with schemaVersion := t.schemaVersion + 1 } := by
  refine ⟨_, _, transform_eq digest hversion, keepsOwed_rewritten hversion _, ?_⟩
  intro logs'
  rw [applyRules_eq]
  exact rewritten_rewritten s _

/-- A snapshot of two locks, one of which is past its time and has not been claimed. -/
def maturedSnapshot : StateSnapshot where
  contractId := "CTEST"
  schemaVersion := 1
  exportedAt := 2000000000
  ledgerSequence := 1000
  checksum := ""
  admin := "GADMIN"
  feeBasisPoints := 100
  refundWindowSeconds := 86400
  paused := false
  pauseReason := none
  tipCounter := 0
  matchingCounter := 0
  currentFeeBps := 100
  whitelistedTokens := []
  creatorBalances := .collect [("GCREATOR:GTOKEN", 500), ("GOTHER:GTOKEN", 0)]
  creatorTotals := ∅
  tipHistory := ∅
  tipperAggregates := ∅
  creatorAggregates := ∅
  subscriptions := ∅
  timeLocks := [⟨0, "GSENDER", "GCREATOR", "GTOKEN", 100, 1000000000, false⟩,
    ⟨1, "GSENDER", "GCREATOR", "GTOKEN", 200, 3000000000, false⟩]
  milestones := ∅
  matchingPrograms := []
  tipRecords := []
  lockedTips := []
  userRoles := ∅

theorem transform_keeps_owed_sample :
    ∃ t logs, StateTransformer.transform (fun _ => "digest") ⟨1, 2⟩ maturedSnapshot = .ok (t, logs) ∧
      KeepsOwed maturedSnapshot t ∧
      (t.creatorBalances.lookup "GCREATOR:GTOKEN").getD 0 = 500 := by
  obtain ⟨t, logs, htransform, hkeeps, -⟩ :=
    transform_keeps_owed (fun _ => "digest") (s := maturedSnapshot) rfl
  refine ⟨t, logs, htransform, hkeeps, ?_⟩
  rw [hkeeps.balances]
  decide

/-- The lock that is past its time is owed before the transformation and cancelled after it. -/
theorem matured_lock_cancelled :
    ∃ t logs, StateTransformer.transform (fun _ => "digest") ⟨1, 2⟩ maturedSnapshot = .ok (t, logs) ∧
      ¬∀ lock, lock ∈ t.timeLocks ∧ lock.cancelled = false ↔
        lock ∈ maturedSnapshot.timeLocks ∧ lock.cancelled = false := by
  refine ⟨_, _, transform_eq (fun _ => "digest") rfl, ?_⟩
  intro hsame
  have howed := (hsame ⟨0, "GSENDER", "GCREATOR", "GTOKEN", 100, 1000000000, false⟩).mpr
    ⟨List.mem_cons_self, rfl⟩
  exact absurd howed.1 (by decide)

end Migrate
