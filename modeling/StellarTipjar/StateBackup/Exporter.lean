import StellarTipjar.Lib.HashMap

/-!
# Backup tool — types and exporter

`tools/backup/types.rs` and `tools/backup/state_exporter.rs`. A full backup is the state of the
contract, the entries of instance and of persistent storage; an incremental one is the difference
from the state in an earlier backup (`computeDiff`).

The exporter looks for the base of an incremental backup in its working directory, and takes what it
finds there for a state.
-/

namespace StateBackup

open Lib

/-! ## Types -/

abbrev Entries := HashMap String String

inductive BackupType where
  | full
  | incremental
deriving DecidableEq

structure BackupMetadata where
  createdAt : Nat
  toolVersion : String
  checksum : String
  backupType : BackupType
  baseBackupId : Option String
  backupId : String
  encrypted : Bool
deriving DecidableEq

structure ContractState where
  schemaVersion : UInt32
  contractId : String
  network : String
  ledgerSequence : UInt64
  ledgerTimestamp : UInt64
  instanceEntries : Entries
  persistentEntries : Entries
  metadata : BackupMetadata
deriving DecidableEq

structure IncrementalDiff where
  schemaVersion : UInt32
  contractId : String
  baseBackupId : String
  ledgerSequence : UInt64
  added : Entries
  modified : Entries
  removed : List String
  metadata : BackupMetadata
deriving DecidableEq

/-- The entries of both storages; a persistent one wins, should a key stand in both. -/
def ContractState.get (state : ContractState) (k : String) : Option String :=
  (state.persistentEntries.lookup k).or (state.instanceEntries.lookup k)

/-! ## Differences -/

/-- The entries of both storages in one map. -/
def allEntries (instanceEntries persistentEntries : Entries) : Entries :=
  (HashMap.extend ∅ instanceEntries).extend persistentEntries

/-- The entries of a map that satisfy a test. -/
def select (map : Entries) (test : String → String → Bool) : Entries :=
  HashMap.collect ((map.entries.filter fun e => test e.1 e.2).map fun e => (e.1, e.2))

def computeDiff (base : ContractState) (currentInstance currentPersistent : Entries) :
    Entries × Entries × List String :=
  let allCurrent := allEntries currentInstance currentPersistent
  let allBase := allEntries base.instanceEntries base.persistentEntries
  let added := select allCurrent fun k _ => (allBase.lookup k).isNone
  let modified := select allCurrent fun k v => (allBase.lookup k).any (· ≠ v)
  let removed := allBase.keys.filter fun k => (allCurrent.lookup k).isNone
  (added, modified, removed)

section Diff

theorem lookup_allEntries (state : ContractState) (k : String) :
    (allEntries state.instanceEntries state.persistentEntries).lookup k = state.get k := by
  rw [allEntries, HashMap.lookup_extend, HashMap.lookup_extend, AList.lookup_empty, Option.or_none,
    ContractState.get]

theorem lookup_select (map : Entries) (test : String → String → Bool) (k : String) :
    (select map test).lookup k = (map.lookup k).filter (test k) := by
  have hmem : ∀ v, ⟨k, v⟩ ∈ (select map test).entries ↔ ⟨k, v⟩ ∈ map.entries ∧ test k v = true := by
    intro v
    rw [select, HashMap.mem_collect]
    · simp
    · -- the entries of one key agree, since they are those of a map
      intro a ha b hb hkey
      simp only [List.mem_map, List.mem_filter] at ha hb
      obtain ⟨⟨k₁, v₁⟩, ⟨h₁, -⟩, rfl⟩ := ha
      obtain ⟨⟨k₂, v₂⟩, ⟨h₂, -⟩, rfl⟩ := hb
      obtain rfl : k₁ = k₂ := hkey
      rw [HashMap.mem_entries_iff] at h₁ h₂
      exact Option.some.inj (h₁.symm.trans h₂)
  ext v
  simp only [HashMap.mem_entries_iff] at hmem
  rw [hmem, Option.filter_eq_some_iff]

/-- What a difference says about each key. -/
theorem computeDiff_spec (base current : ContractState) (k : String) :
    let diff := computeDiff base current.instanceEntries current.persistentEntries
    (∀ v, diff.1.lookup k = some v ↔ current.get k = some v ∧ base.get k = none) ∧
    (∀ v, diff.2.1.lookup k = some v ↔
      current.get k = some v ∧ ∃ old, base.get k = some old ∧ old ≠ v) ∧
    (k ∈ diff.2.2 ↔ (base.get k).isSome ∧ current.get k = none) := by
  simp only [computeDiff, lookup_select, lookup_allEntries, Option.filter_eq_some_iff]
  refine ⟨?_, ?_, ?_⟩
  · simp
  · intro v
    refine and_congr_right fun _ => ?_
    cases base.get k with
    | none => simp
    | some old => simp
  · rw [List.mem_filter, ← AList.mem_keys, ← AList.lookup_isSome, lookup_allEntries,
      Option.isNone_iff_eq_none]

end Diff

/-! ## The exporter -/

/-- What stands in a backup file before encryption. -/
inductive BackupFile where
  | full (state : ContractState)
  | incremental (diff : IncrementalDiff)

/-- A file on disk. -/
structure StoredFile where
  content : BackupFile
  encrypted : Bool

/-- `serde_json::from_str::<ContractState>` on the text of a file. A ciphertext is no JSON, and a
difference has none of the fields `network`, `ledger_timestamp`, `instance_entries` and
`persistent_entries`, which a state must have. -/
def StoredFile.asState (file : StoredFile) : Option ContractState :=
  match file.encrypted, file.content with
  | false, .full state => some state
  | _, _ => none

/-- The command line of the exporter. -/
structure Cli where
  contract : String
  network : String
  encrypt : Bool
  incremental : Bool
  base : Option String

/-- What the exporter fetches from the network. -/
structure Fetched where
  instanceEntries : Entries
  persistentEntries : Entries
  ledgerSequence : UInt64
  ledgerTimestamp : UInt64

/-- `main` of the exporter: the file it writes to its output path, nothing when it ends in an error.
`readFile` reads the working directory, `digest` is the checksum of a file with an empty one. -/
def exporter (cli : Cli) (fetched : Fetched) (backupId : String) (createdAt : Nat)
    (readFile : String → Option StoredFile) (digest : BackupFile → String) : Option StoredFile :=
  let metadata : BackupMetadata :=
    { createdAt, toolVersion := "0.1.0", checksum := "",
      backupType := if cli.incremental then .incremental else .full,
      baseBackupId := cli.base, backupId, encrypted := cli.encrypt }
  let state : ContractState :=
    { schemaVersion := 1, contractId := cli.contract, network := cli.network,
      ledgerSequence := fetched.ledgerSequence, ledgerTimestamp := fetched.ledgerTimestamp,
      instanceEntries := fetched.instanceEntries,
      persistentEntries := fetched.persistentEntries, metadata }
  if cli.incremental then do
    let baseId ← cli.base
    let baseFile ← readFile (baseId ++ ".json")
    let baseState ← baseFile.asState
    let (added, modified, removed) :=
      computeDiff baseState fetched.instanceEntries fetched.persistentEntries
    let diff : IncrementalDiff :=
      { schemaVersion := 1, contractId := cli.contract, baseBackupId := baseId,
        ledgerSequence := fetched.ledgerSequence, added, modified, removed, metadata }
    let checksum := digest (.incremental diff)
    pure ⟨.incremental { diff with metadata := { metadata with checksum } }, cli.encrypt⟩
  else
    let checksum := digest (.full state)
    some ⟨.full { state with metadata := { metadata with checksum } }, cli.encrypt⟩

end StateBackup
