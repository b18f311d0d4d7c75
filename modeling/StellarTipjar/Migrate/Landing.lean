import StellarTipjar.Migrate.Soundness

/-!
# Migration toolkit — whether an import lands

What an import is for: the target ends up with the entries of the snapshot and no others, paused or
running as the snapshot was. The protocol pauses the target before it writes and compares the flag
of the paused target with the snapshot's before it unpauses it. So the verification only passes for
the snapshot of a paused contract, and that one ends up running (`importState_ok`).
-/

namespace Migrate

open Lib

/-! ## What a snapshot says -/

namespace StateSnapshot

/-- The keys of the maps have the documented shapes, and agree with the records they stand for. -/
structure WellShaped (s : StateSnapshot) : Prop where
  whitelistedTokens : ∀ token ∈ s.whitelistedTokens, ∃ t : Address, token = t.text
  creatorBalances : ∀ key v, ⟨key, v⟩ ∈ s.creatorBalances.entries →
    ∃ c t : Address, key = joinKey c t.text
  creatorTotals : ∀ key v, ⟨key, v⟩ ∈ s.creatorTotals.entries →
    ∃ c t : Address, key = joinKey c t.text
  tipHistory : ∀ key tips, ⟨key, tips⟩ ∈ s.tipHistory.entries →
    (∃ c : Address, key = c.text) ∧ tips.length < UInt64.size
  tipperAggregates : ∀ key v, ⟨key, v⟩ ∈ s.tipperAggregates.entries →
    ∃ (a : Address) (bucket : UInt32), key = joinKey a (toString bucket) ∧ v.address = a.text
  creatorAggregates : ∀ key v, ⟨key, v⟩ ∈ s.creatorAggregates.entries →
    ∃ (a : Address) (bucket : UInt32), key = joinKey a (toString bucket) ∧ v.address = a.text
  subscriptions : ∀ key v, ⟨key, v⟩ ∈ s.subscriptions.entries →
    ∃ a c : Address, key = joinKey a c.text ∧ v.subscriber = a.text ∧ v.creator = c.text
  milestones : ∀ key v, ⟨key, v⟩ ∈ s.milestones.entries →
    ∃ c : Address, key = joinKey c (toString v.id) ∧ v.creator = c.text
  lockedTips : ∀ lt ∈ s.lockedTips, ∃ c : Address, lt.creator = c.text
  userRoles : ∀ key role, ⟨key, role⟩ ∈ s.userRoles.entries → ∃ a : Address, key = a.text

/-- The entries a snapshot stands for. The lock counter that an import sets besides its time locks
is not one of them, and neither are the counters and participant lists that it does not hold. -/
def Describes (s : StateSnapshot) : (k : Key) → k.Val → Prop
  | .admin, v => v = s.admin
  | .feeBasisPoints, v => v = s.feeBasisPoints
  | .refundWindow, v => v = s.refundWindowSeconds
  | .tipCounter, v => v = s.tipCounter
  | .matchingCounter, v => v = s.matchingCounter
  | .currentFeeBps, v => v = s.currentFeeBps
  | .contractVersion, v => v = s.schemaVersion
  | .instanceNextLockId, _ => False
  | .tokenWhitelist t, listed => listed = true ∧ t.text ∈ s.whitelistedTokens
  | .creatorBalance c t, v => ⟨joinKey c t.text, v⟩ ∈ s.creatorBalances.entries
  | .creatorTotal c t, v => ⟨joinKey c t.text, v⟩ ∈ s.creatorTotals.entries
  | .tipCount c, n => ∃ tips, ⟨c.text, tips⟩ ∈ s.tipHistory.entries ∧ n.toNat = tips.length
  | .tipHistory c i, tip =>
    ∃ tips, ⟨c.text, tips⟩ ∈ s.tipHistory.entries ∧ tips[i.toNat]? = some tip
  | .tipperParticipants _, _ => False
  | .tipperAggregate a bucket, v => ⟨joinKey a (toString bucket), v⟩ ∈ s.tipperAggregates.entries
  | .creatorParticipants _, _ => False
  | .creatorAggregate a bucket, v => ⟨joinKey a (toString bucket), v⟩ ∈ s.creatorAggregates.entries
  | .subscription a c, r => ⟨joinKey a c.text, r.val⟩ ∈ s.subscriptions.entries
  | .nextLockId, _ => False
  | .timeLock _, r => r.val ∈ s.timeLocks
  | .milestoneCounter _, _ => False
  | .milestone c id, r => ⟨joinKey c (toString id), r.val⟩ ∈ s.milestones.entries
  | .matchingProgram _, r => r.val ∈ s.matchingPrograms
  | .tipRecord _, r => r.val ∈ s.tipRecords
  | .lockedTipCounter _, _ => False
  | .lockedTip _ _, r => r.val ∈ s.lockedTips
  | .userRole a, role => ⟨a.text, role⟩ ∈ s.userRoles.entries

end StateSnapshot

/-- The import of a snapshot reports success, and leaves a target with the entries of the snapshot,
paused as the snapshot says. -/
def Lands (env : Env) (cfg : MigrationSection) (snapshot : StateSnapshot) (w : World) : Prop :=
  ∃ n w', importState env cfg snapshot w = (.ok n, w') ∧
    (∀ k v, k ≠ .instanceNextLockId → (w'.target.get k = some v ↔ snapshot.Describes k v)) ∧
    w'.target.paused = snapshot.paused ∧ w'.target.pauseReason = snapshot.pauseReason

/-! ## The flag that the verification reads -/

theorem doImport_paused (env : Env) (snapshot : StateSnapshot) (w : World) :
    (doImport env snapshot w).2.target.paused = w.target.paused := by
  rw [doImport, sendAll_target, Target.paused_writeAll]

/-- An import that reports success was given the snapshot of a paused contract, and has unpaused the
target. -/
theorem importState_ok {env : Env} {cfg : MigrationSection} {snapshot : StateSnapshot}
    {n : Nat} {w w' : World} (hdry : cfg.dryRun = false)
    (h : importState env cfg snapshot w = (.ok n, w')) :
    snapshot.paused = true ∧ w'.target.paused = false ∧ w'.target.pauseReason = none := by
  unfold importState at h
  split at h
  · cases h
  rw [hdry] at h
  simp only [Bool.false_eq_true, if_false] at h
  split at h
  · cases h
  split at h
  · cases h
  next w₁ hpause =>
  obtain rfl := invokeContract_ok hpause
  split at h
  · -- a rollback never ends in success
    unfold rollBackAfter at h
    split at h <;> cases h
  next imported w₂ himport =>
  -- no call of the import touches the flag, so the target is still paused when it is verified
  have hpaused : w₂.target.paused = true := by
    have := doImport_paused env snapshot ⟨w.target.pause pauseReason, w.calls + 1⟩
    rwa [himport] at this
  split at h
  · unfold rollBackAfter at h
    split at h <;> cases h
  next hclean =>
  -- and the report is clean only when the snapshot has the same flag
  have hflag := (verifyMigration_eq_nil_iff.mp (not_not.mp hclean)).paused
  split at h
  · cases h
  next w₃ hunpause =>
  obtain rfl := invokeContract_ok hunpause
  split at h
  · cases h
  · obtain rfl := (Prod.mk.inj h).2
    refine ⟨?_, rfl, rfl⟩
    rw [← hflag]
    exact hpaused

/-! ## No import lands -/

/-- No import lands its snapshot, whatever the target was before: one of a running contract is
rolled back, and one of a paused contract is left running. -/
theorem not_lands (env : Env) (cfg : MigrationSection) (snapshot : StateSnapshot) (w : World)
    (hdry : cfg.dryRun = false) : ¬ Lands env cfg snapshot w := by
  rintro ⟨n, w', hrun, -, hpaused, -⟩
  obtain ⟨hsnapshot, hrunning, -⟩ := importState_ok hdry hrun
  rw [hsnapshot, hrunning] at hpaused
  cases hpaused

section Sample

/-- A run in which no call fails. -/
def calmEnv : Env :=
  { sampleEnv 0 with
    fault := fun _ => none
    listing := fun t => (sampleEntries.map Sigma.fst).filter fun k => (t.get k).isSome }

/-- A contract that was just deployed, and one that also has its admin. -/
def emptyTarget : Target := { paused := false, pauseReason := none, entries := Store.empty }

def freshTarget : Target := emptyTarget.write ⟨.admin, "admin"⟩

def runningSnapshot : StateSnapshot :=
  { sampleSnapshot with
    creatorBalances := .collect [("alice:xlm", 9)]
    creatorTotals := ∅ }

def pausedSnapshot : StateSnapshot :=
  { runningSnapshot with paused := true, pauseReason := some "maintenance" }

theorem runningSnapshot_wellShaped : runningSnapshot.WellShaped where
  whitelistedTokens _ h := absurd h (List.not_mem_nil)
  creatorBalances key v h := by
    have hkey : (⟨key, v⟩ : (_ : String) × I128) = ⟨"alice:xlm", 9⟩ := List.mem_singleton.mp h
    exact ⟨alice, xlm, congrArg Sigma.fst hkey⟩
  creatorTotals _ _ h := absurd h (List.not_mem_nil)
  tipHistory _ _ h := absurd h (List.not_mem_nil)
  tipperAggregates _ _ h := absurd h (List.not_mem_nil)
  creatorAggregates _ _ h := absurd h (List.not_mem_nil)
  subscriptions _ _ h := absurd h (List.not_mem_nil)
  milestones _ _ h := absurd h (List.not_mem_nil)
  lockedTips _ h := absurd h (List.not_mem_nil)
  userRoles _ _ h := absurd h (List.not_mem_nil)

theorem not_lands_fresh : sampleConfig.dryRun = false ∧
    ¬ Lands calmEnv sampleConfig runningSnapshot ⟨freshTarget, 0⟩ :=
  ⟨rfl, not_lands calmEnv sampleConfig runningSnapshot ⟨freshTarget, 0⟩ rfl⟩

/-- Without an admin there is no backup. With one, the writes of a running contract's snapshot go
through and the verification finds the flag that the import itself has set; the snapshot of the
paused contract is accepted, and the target is left running. -/
theorem fresh_import_fails :
    (∀ n, calmEnv.fault n = none) ∧ Lists (calmEnv.listing emptyTarget) emptyTarget ∧
    (∀ k, emptyTarget.get k = none) ∧ runningSnapshot.WellShaped ∧
    verifyChecksum calmEnv.digest runningSnapshot = .ok () ∧
    (importState calmEnv sampleConfig runningSnapshot ⟨emptyTarget, 0⟩).1 =
      .error (.backup "invalid address") ∧
    ¬ Lands calmEnv sampleConfig runningSnapshot ⟨emptyTarget, 0⟩ ∧
    (importState calmEnv sampleConfig runningSnapshot ⟨freshTarget, 0⟩).1 =
      .error (.verificationFailed 1) ∧
    ∃ w, importState calmEnv sampleConfig pausedSnapshot ⟨freshTarget, 0⟩ = (.ok 8, w) ∧
      pausedSnapshot.paused = true ∧ w.target.paused = false := by
  refine ⟨fun _ => rfl, ?_, fun _ => rfl, runningSnapshot_wellShaped, rfl, rfl, ?_, rfl, _, rfl, rfl,
    rfl⟩
  · intro k
    simp [calmEnv, emptyTarget, Target.get]
  · rintro ⟨n, w, hrun, -⟩
    cases hrun

end Sample

end Migrate
