import StellarTipjar.Lib.Store
import StellarTipjar.StateBackup.Exporter

/-!
# Backup tool — importer

`tools/backup/state_importer.rs`. A full backup restores the entries of the state it holds, an
incremental one those that were added or modified; the removed ones are not re-applied.

Restoring a chain of backups therefore leaves under each key the value of the last state that had it
(`restored_chain`), which is the last state itself when no key has gone in between.
-/

namespace StateBackup

open Lib

/-- The contract that is restored into; `restore_entry` sets a key. -/
abbrev Target := Store String fun _ => String

/-! ## Restoring a backup -/

/-- Recomputes the checksum over the state with an empty one. -/
def verifyBackup (digest : BackupFile → String) (state : ContractState) : Bool :=
  digest (.full { state with metadata := { state.metadata with checksum := "" } }) =
    state.metadata.checksum

/-- The entries that the importer restores from a file, in order. -/
def restoreEntries : BackupFile → List ((_ : String) × String)
  | .full state => state.instanceEntries.entries ++ state.persistentEntries.entries
  | .incremental diff =>
    -- Removed entries are not re-applied in an incremental restore.
    diff.added.entries ++ diff.modified.entries

/-- `main` of the importer on a file that it can read, when every `restore_entry` goes through. -/
def importer (digest : BackupFile → String) (file : BackupFile) (target : Target) :
    Except String Target :=
  match file with
  | .full state =>
    if verifyBackup digest state then .ok (target.setAll (restoreEntries file))
    else .error "Backup integrity check failed — aborting restore"
  | .incremental _ => .ok (target.setAll (restoreEntries file))

/-! ## What it restores -/

theorem lastWrite_entries (map : Entries) (k : String) :
    Store.lastWrite (β := fun _ => String) map.entries k = map.lookup k :=
  Store.lastWrite_eq_of_mem_iff (f := fun k => map.lookup k)
    (fun k v => HashMap.mem_entries_iff map k v) k

/-- A full backup is restored over what is there. -/
theorem get_restore_full (state : ContractState) (target : Target) (k : String) :
    (target.setAll (restoreEntries (.full state))).get k = (state.get k).or (target.get k) := by
  rw [restoreEntries, Store.setAll_append, Store.get_setAll, Store.get_setAll, lastWrite_entries,
    lastWrite_entries, ContractState.get, Option.or_assoc]

theorem get_restore_incremental (diff : IncrementalDiff) (target : Target) (k : String) :
    (target.setAll (restoreEntries (.incremental diff))).get k =
      (diff.modified.lookup k).or ((diff.added.lookup k).or (target.get k)) := by
  rw [restoreEntries, Store.setAll_append, Store.get_setAll, Store.get_setAll, lastWrite_entries,
    lastWrite_entries]

/-- The file is the one built from the difference of the two states, its maps in whatever order they
were read back. -/
structure DiffOf (diff : IncrementalDiff) (base current : ContractState) : Prop where
  added : diff.added.entries.Perm
    (computeDiff base current.instanceEntries current.persistentEntries).1.entries
  modified : diff.modified.entries.Perm
    (computeDiff base current.instanceEntries current.persistentEntries).2.1.entries
  removed : diff.removed =
    (computeDiff base current.instanceEntries current.persistentEntries).2.2

theorem lookup_eq_of_perm {a b : Entries} (h : a.entries.Perm b.entries) (k : String) :
    a.lookup k = b.lookup k := by
  ext v
  rw [← HashMap.mem_entries_iff, ← HashMap.mem_entries_iff, h.mem_iff]

/-- Over a target that has the entries of the base, a difference puts the entries of the current
state and keeps the rest. -/
theorem get_restore_diff {diff : IncrementalDiff} {base current : ContractState} {target : Target}
    (hdiff : DiffOf diff base current)
    (hbase : ∀ k v, base.get k = some v → target.get k = some v) (k : String) :
    (target.setAll (restoreEntries (.incremental diff))).get k =
      (current.get k).or (target.get k) := by
  obtain ⟨hadded, hmodified, -⟩ := computeDiff_spec base current k
  simp only [← lookup_eq_of_perm hdiff.added, ← lookup_eq_of_perm hdiff.modified]
    at hadded hmodified
  rw [get_restore_incremental]
  cases hcurrent : current.get k with
  | none =>
    have hnone : diff.added.lookup k = none ∧ diff.modified.lookup k = none := by
      simp only [Option.eq_none_iff_forall_ne_some, ne_eq, hadded, hmodified, hcurrent]
      simp
    rw [hnone.1, hnone.2, Option.none_or, Option.none_or]
  | some v =>
    cases hold : base.get k with
    | none =>
      have hnew : diff.added.lookup k = some v := (hadded v).mpr ⟨hcurrent, hold⟩
      have hkept : diff.modified.lookup k = none := by
        simp only [Option.eq_none_iff_forall_ne_some, ne_eq, hmodified, hold]
        simp
      rw [hnew, hkept, Option.none_or, Option.some_or]
    | some old =>
      by_cases hsame : old = v
      · -- the entry is the same in both states, so the difference has nothing for it
        subst hsame
        have hnone : diff.added.lookup k = none ∧ diff.modified.lookup k = none := by
          simp only [Option.eq_none_iff_forall_ne_some, ne_eq, hadded, hmodified, hcurrent, hold]
          simp
        rw [hnone.1, hnone.2, Option.none_or, Option.none_or, hbase k old hold, Option.some_or]
      · have hchanged : diff.modified.lookup k = some v :=
          (hmodified v).mpr ⟨hcurrent, old, hold, hsame⟩
        rw [hchanged, Option.some_or, Option.some_or]

/-! ## Chains of backups -/

/-- The backups after the first: each is the difference of two successive states. -/
inductive DiffsOf : ContractState → List ContractState → List IncrementalDiff → Prop
  | nil (base : ContractState) : DiffsOf base [] []
  | cons {base current : ContractState} {rest : List ContractState} {diff : IncrementalDiff}
      {diffs : List IncrementalDiff} (head : DiffOf diff base current)
      (tail : DiffsOf current rest diffs) : DiffsOf base (current :: rest) (diff :: diffs)

/-- Restores incremental backups one after the other. -/
def restoreAll (target : Target) (diffs : List IncrementalDiff) : Target :=
  diffs.foldl (fun target diff => target.setAll (restoreEntries (.incremental diff))) target

/-- The value of the last state of the chain that has the key. -/
def lastValue (base : ContractState) (rest : List ContractState) (k : String) : Option String :=
  rest.foldl (fun value state => (state.get k).or value) (base.get k)

/-- The run lemma: what `restoreAll` leaves, when the target it starts from has the entries of the
base. -/
theorem get_restoreAll {base : ContractState} {rest : List ContractState}
    {diffs : List IncrementalDiff} {target : Target} (hdiffs : DiffsOf base rest diffs)
    (hbase : ∀ k v, base.get k = some v → target.get k = some v) (k : String) :
    (restoreAll target diffs).get k =
      rest.foldl (fun value state => (state.get k).or value) (target.get k) := by
  induction hdiffs generalizing target with
  | nil base => rfl
  | @cons base current rest diff diffs head tail ih =>
    have hstep := get_restore_diff head hbase
    -- the entries of the current state are there now, so the next difference applies
    have hcurrent : ∀ k v, current.get k = some v →
        (target.setAll (restoreEntries (.incremental diff))).get k = some v := by
      intro k v hv
      rw [hstep, hv, Option.some_or]
    have hrest := ih hcurrent
    rw [hstep] at hrest
    exact hrest

theorem isSome_foldl_or_iff (rest : List ContractState) (k : String) (value : Option String) :
    (rest.foldl (fun value state => (state.get k).or value) value).isSome ↔
      value.isSome ∨ ∃ state ∈ rest, (state.get k).isSome := by
  induction rest generalizing value with
  | nil => simp
  | cons state rest ih =>
    rw [List.foldl_cons, ih, Option.isSome_or, Bool.or_eq_true, List.exists_mem_cons_iff]
    constructor
    · rintro ((h | h) | h)
      · exact .inr (.inl h)
      · exact .inl h
      · exact .inr (.inr h)
    · rintro (h | h | h)
      · exact .inl (.inr h)
      · exact .inl (.inl h)
      · exact .inr h

/-- The last state of a chain. -/
def lastState (base : ContractState) (rest : List ContractState) : ContractState :=
  rest.getLastD base

theorem lastValue_of_lastState {base : ContractState} {rest : List ContractState} {k v : String}
    (h : (lastState base rest).get k = some v) : lastValue base rest k = some v := by
  induction rest using List.reverseRecOn with
  | nil => exact h
  | append_singleton init last _ =>
    have hlast : (lastState base (init ++ [last])) = last := by simp [lastState]
    rw [hlast] at h
    rw [lastValue, List.foldl_append, List.foldl_cons, List.foldl_nil, h, Option.some_or]

/-- The chain leaves its last state exactly when that has every key of the states before. -/
theorem lastValue_eq_lastState_iff (base : ContractState) (rest : List ContractState) :
    (∀ k, lastValue base rest k = (lastState base rest).get k) ↔
      ∀ state ∈ base :: rest, ∀ k, (state.get k).isSome → ((lastState base rest).get k).isSome := by
  have hsome : ∀ k, (lastValue base rest k).isSome ↔ ∃ state ∈ base :: rest, (state.get k).isSome := by
    intro k
    rw [lastValue, isSome_foldl_or_iff, List.exists_mem_cons_iff]
  constructor
  · intro heq state hstate k hk
    rw [← heq, hsome]
    exact ⟨state, hstate, hk⟩
  · intro hkeys k
    cases hlast : (lastState base rest).get k with
    | some v => exact lastValue_of_lastState hlast
    | none =>
      rw [← Option.not_isSome_iff_eq_none, hsome]
      rintro ⟨state, hstate, hk⟩
      have := hkeys state hstate k hk
      rw [hlast] at this
      cases this

/-- Restores a full backup and then its incremental ones. -/
def restoreChain (digest : BackupFile → String) (file : ContractState)
    (diffs : List IncrementalDiff) (target : Target) : Except String Target := do
  let target ← importer digest (.full file) target
  diffs.foldlM (fun target diff => importer digest (.incremental diff) target) target

theorem foldlM_importer (digest : BackupFile → String) (diffs : List IncrementalDiff)
    (target : Target) :
    diffs.foldlM (fun target diff => importer digest (.incremental diff) target) target =
      .ok (restoreAll target diffs) := by
  induction diffs generalizing target with
  | nil => rfl
  | cons diff diffs ih =>
    rw [List.foldlM_cons]
    exact ih _

/-- Restoring the difference of two states over the first leaves the second and what only the first
had; restoring a full backup and the incremental ones after it leaves under each key the value of
the last state that had it, and exactly the last state when that has all the keys. -/
theorem restored_chain (digest : BackupFile → String) :
    (∀ base current diff target, DiffOf diff base current → (∀ k, target.get k = base.get k) →
      ∃ restored, importer digest (.incremental diff) target = .ok restored ∧
        ∀ k, restored.get k = (current.get k).or (base.get k)) ∧
    ∀ base rest diffs file, DiffsOf base rest diffs → (∀ k, file.get k = base.get k) →
      verifyBackup digest file = true →
        ∃ restored, restoreChain digest file diffs Store.empty = .ok restored ∧
          (∀ k, restored.get k = lastValue base rest k) ∧
          ((∀ k, restored.get k = (lastState base rest).get k) ↔
            ∀ state ∈ base :: rest, ∀ k,
              (state.get k).isSome → ((lastState base rest).get k).isSome) := by
  constructor
  · intro base current diff target hdiff htarget
    refine ⟨_, rfl, fun k => ?_⟩
    have hbase : ∀ k v, base.get k = some v → target.get k = some v := by
      intro k v hv
      rw [htarget, hv]
    rw [get_restore_diff hdiff hbase, htarget]
  · intro base rest diffs file hdiffs hfile hverify
    let full : Target := Store.empty.setAll (restoreEntries (.full file))
    have hfull : ∀ k, full.get k = base.get k := by
      intro k
      rw [get_restore_full, Store.get_empty, Option.or_none, hfile]
    have hrun : restoreChain digest file diffs Store.empty = .ok (restoreAll full diffs) := by
      rw [restoreChain, importer, if_pos hverify]
      exact foldlM_importer digest diffs full
    have hget : ∀ k, (restoreAll full diffs).get k = lastValue base rest k := by
      intro k
      rw [get_restoreAll hdiffs (fun k v hv => by rw [hfull, hv]), hfull, lastValue]
    refine ⟨_, hrun, hget, ?_⟩
    simp only [hget]
    exact lastValue_eq_lastState_iff base rest

section Sample

def sampleMetadata : BackupMetadata :=
  { createdAt := 1700000000, toolVersion := "0.1.0", checksum := "", backupType := .full,
    baseBackupId := none, backupId := "backup_CTIPJAR_1700000000", encrypted := false }

def sampleState (persistent : List (String × String)) : ContractState :=
  { schemaVersion := 1, contractId := "CTIPJAR", network := "testnet", ledgerSequence := 100,
    ledgerTimestamp := 1700000000, instanceEntries := .collect [("Admin", "alice")],
    persistentEntries := .collect persistent, metadata := sampleMetadata }

def lockedState : ContractState := sampleState [("TimeLock:0", "70"), ("Balance:alice", "5")]

/-- The lock has been paid out. -/
def paidState : ContractState := sampleState [("Balance:alice", "75")]

def paidDiff : IncrementalDiff :=
  let diff := computeDiff lockedState paidState.instanceEntries paidState.persistentEntries
  { schemaVersion := 1, contractId := "CTIPJAR", baseBackupId := sampleMetadata.backupId,
    ledgerSequence := 101, added := diff.1, modified := diff.2.1, removed := diff.2.2,
    metadata := sampleMetadata }

theorem paidDiff_diffOf : DiffOf paidDiff lockedState paidState := ⟨.rfl, .rfl, rfl⟩

/-- The two backups can be restored, and the restored lock is the one of the first state. -/
theorem restored_chain_paid :
    ∃ restored, restoreChain (fun _ => "") lockedState [paidDiff] Store.empty = .ok restored ∧
      restored.get "TimeLock:0" = some "70" := by
  obtain ⟨restored, hrun, hget, -⟩ := (restored_chain fun _ => "").2 lockedState [paidState]
    [paidDiff] lockedState (.cons paidDiff_diffOf (.nil _)) (fun _ => rfl) (by decide)
  refine ⟨restored, hrun, ?_⟩
  rw [hget]
  decide

/-- The restored target has the new balance, and the lock that was paid out. -/
theorem paid_lock_resurrected :
    paidDiff.removed = ["TimeLock:0"] ∧
    ∃ restored, importer (fun _ => "") (.incremental paidDiff)
        (Store.empty.setAll (restoreEntries (.full lockedState))) = .ok restored ∧
      restored.get "Balance:alice" = some "75" ∧ paidState.get "TimeLock:0" = none ∧
      restored.get "TimeLock:0" = some "70" := by
  refine ⟨by decide, _, rfl, ?_, ?_, ?_⟩
  all_goals decide

end Sample

end StateBackup
