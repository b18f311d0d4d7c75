import StellarTipjar.Lib.JsonText
import StellarTipjar.StateBackup.Importer

/-!
# Backup tool — integrity of what is restored

`main` of `tools/backup/state_importer.rs` on the bytes of a file: they are tried as a full backup
first and as an incremental one after that. The exporter embeds a checksum in both, the importer
recomputes it for the first only. So a backup that has been changed is always refused when it is a
full one, and never when it is an incremental one (`restores_only_intact_iff`).
-/

namespace StateBackup

open Lib

/-! ## Checksums of backup files -/

def BackupFile.metadata : BackupFile → BackupMetadata
  | .full state => state.metadata
  | .incremental diff => diff.metadata

def BackupFile.checksum (file : BackupFile) : String := file.metadata.checksum

/-- The file with an empty checksum, which is what the checksum is computed over. -/
def BackupFile.unsealed : BackupFile → BackupFile
  | .full state => .full { state with metadata := { state.metadata with checksum := "" } }
  | .incremental diff => .incremental { diff with metadata := { diff.metadata with checksum := "" } }

/-- The embedded checksum is the one the exporter computes for the content. -/
def BackupFile.Intact (digest : BackupFile → String) (file : BackupFile) : Prop :=
  file.checksum = digest file.unsealed

/-- The same content: maps are compared without their order. -/
inductive BackupFile.Same : BackupFile → BackupFile → Prop
  | full {s t : ContractState} (hinstance : s.instanceEntries.entries.Perm t.instanceEntries.entries)
      (hpersistent : s.persistentEntries.entries.Perm t.persistentEntries.entries)
      (others : { s with instanceEntries := t.instanceEntries,
                         persistentEntries := t.persistentEntries } = t) :
      Same (.full s) (.full t)
  | incremental {d e : IncrementalDiff} (hadded : d.added.entries.Perm e.added.entries)
      (hmodified : d.modified.entries.Perm e.modified.entries)
      (others : { d with added := e.added, modified := e.modified } = e) :
      Same (.incremental d) (.incremental e)

/-- The digest tells contents apart, and only contents: SHA-256 without collisions, over a
serialisation that does not depend on the order of a map. -/
def Canonical (digest : BackupFile → String) : Prop :=
  ∀ f g, digest f = digest g ↔ f.Same g

/-- One of the two has been changed: the content under the checksum, or the checksum of the
content. -/
def Altered (written file : BackupFile) : Prop :=
  (file.checksum = written.checksum ∧ ¬file.unsealed.Same written.unsealed) ∨
    (file.checksum ≠ written.checksum ∧ file.unsealed.Same written.unsealed)

/-! ## The importer on bytes -/

/-- What reads and hashes a file. `serde_json::from_slice` into either type, and the digest of the
pretty-printed file. -/
structure Codec where
  asState : List UInt8 → Option ContractState
  asDiff : List UInt8 → Option IncrementalDiff
  digest : BackupFile → String

/-- The command line of the importer. -/
structure ImporterCli where
  contract : String
  network : String
  source : String
  dryRun : Bool
  verifyOnly : Bool
  rpcUrl : Option String

/-- The default end points. -/
def rpcUrlFor (network : String) : String :=
  match network with
  | "mainnet" => "https://mainnet.sorobanrpc.com"
  | "futurenet" => "https://rpc-futurenet.stellar.org"
  | _ => "https://soroban-testnet.stellar.org"

def ImporterCli.rpc (cli : ImporterCli) : String := cli.rpcUrl.getD (rpcUrlFor cli.network)

/-- Why an import stops. -/
inductive Failure where
  | error (message : String)
  | panic
deriving DecidableEq, Repr

/-- The arguments of a call of `restore_entry`. -/
structure RestoreCall where
  rpc : String
  contractId : String
  source : String
  keyXdr : String
  valueXdr : String
  dryRun : Bool
deriving DecidableEq, Repr

/-- `status` is how the Stellar CLI ends, nothing when it cannot be started. -/
def restoreEntry (call : RestoreCall) (status : Option Bool) : Except Failure Unit :=
  if call.dryRun then
    -- the preview is a slice of at most 40 bytes, which must not end inside a character
    if String.Pos.Raw.isValid call.keyXdr ⟨min call.keyXdr.utf8ByteSize 40⟩ then .ok ()
    else .error .panic
  else
    match status with
    | none => .error (.error "Failed to invoke stellar CLI")
    | some false =>
      .error (.error ("stellar contract invoke failed for key: " ++ call.keyXdr))
    | some true => .ok ()

/-- What a restore reports. -/
structure RestoreResult where
  backupId : String
  entriesRestored : Nat
  verified : Bool
deriving DecidableEq, Repr

/-- The calls of `restore_entry`, and how the program ends; without a report in the mode that only
verifies. -/
structure Run where
  calls : List RestoreCall
  result : Except Failure (Option RestoreResult)

/-- The loop over the entries, `i` of which have been restored. -/
def restoreLoop (cli : ImporterCli) (status : Nat → Option Bool) :
    Nat → List ((_ : String) × String) → List RestoreCall × Except Failure Nat
  | i, [] => ([], .ok i)
  | i, e :: entries =>
    let call : RestoreCall := ⟨cli.rpc, cli.contract, cli.source, e.1, e.2, cli.dryRun⟩
    match restoreEntry call (status i) with
    | .error failure => ([call], .error failure)
    | .ok () =>
      let (calls, restored) := restoreLoop cli status (i + 1) entries
      (call :: calls, restored)

/-- The entries are sent one by one, up to the first that fails. The report calls them verified. -/
def restore (cli : ImporterCli) (status : Nat → Option Bool) (backupId : String)
    (entries : List ((_ : String) × String)) : Run :=
  let (calls, restored) := restoreLoop cli status 0 entries
  ⟨calls, restored.map fun n => some ⟨backupId, n, true⟩⟩

/-- `main` of the importer, from the bytes that it has loaded. -/
def importBytes (codec : Codec) (cli : ImporterCli) (status : Nat → Option Bool)
    (bytes : List UInt8) : Run :=
  match codec.asState bytes with
  | some state =>
    if verifyBackup codec.digest state then
      if cli.verifyOnly then ⟨[], .ok none⟩
      else restore cli status state.metadata.backupId (restoreEntries (.full state))
    else ⟨[], .error (.error "Backup integrity check failed — aborting restore")⟩
  | none =>
    match codec.asDiff bytes with
    | none =>
      ⟨[], .error (.error "Failed to parse backup as ContractState or IncrementalDiff")⟩
    | some diff =>
      if cli.verifyOnly then ⟨[], .ok none⟩
      else restore cli status diff.metadata.backupId (restoreEntries (.incremental diff))

/-! ## What is wanted -/

/-- What the bytes are read as. -/
def Codec.content (codec : Codec) (bytes : List UInt8) : Option BackupFile :=
  ((codec.asState bytes).map .full).or ((codec.asDiff bytes).map .incremental)

/-- The program ends in an error before the first call. -/
def Run.Aborts (run : Run) : Prop := run.calls = [] ∧ ∃ failure, run.result = .error failure

/-- The program calls `restore_entry`, or reports that the backup is verified. -/
def Run.Restores (run : Run) : Prop :=
  run.calls ≠ [] ∨ ∃ report, run.result = .ok (some report) ∧ report.verified = true

/-- A run that aborts has sent nothing. -/
theorem Run.Aborts.not_restores {run : Run} (h : run.Aborts) : ¬run.Restores := by
  obtain ⟨hcalls, failure, hresult⟩ := h
  rintro (hsome | ⟨report, hreport, -⟩)
  · exact hsome hcalls
  · rw [hresult] at hreport
    cases hreport

/-- The file is what the exporter writes, unencrypted, in some run of it. -/
def Exported (digest : BackupFile → String) (file : BackupFile) : Prop :=
  ∃ cli fetched backupId createdAt readFile,
    exporter cli fetched backupId createdAt readFile digest = some ⟨file, false⟩

/-- Only a file with a matching checksum is restored, and one that was altered is refused. -/
structure RestoresOnlyIntact (codec : Codec) (bytes : List UInt8) : Prop where
  restores : ∀ cli status, (importBytes codec cli status bytes).Restores →
    ∃ file, codec.content bytes = some file ∧ file.Intact codec.digest
  aborts : ∀ written file, Exported codec.digest written → codec.content bytes = some file →
    Altered written file → ∀ cli status, (importBytes codec cli status bytes).Aborts

/-! ## Intact and altered files -/

section

variable {digest : BackupFile → String}

/-- A full backup passes when its digest is the stored one. -/
theorem verifyBackup_iff (state : ContractState) :
    verifyBackup digest state = true ↔ (BackupFile.full state).Intact digest := by
  unfold verifyBackup
  rw [decide_eq_true_iff]
  exact eq_comm

/-- The exporter embeds a checksum in both kinds of backups. -/
theorem Exported.intact {file : BackupFile} (h : Exported digest file) : file.Intact digest := by
  obtain ⟨cli, fetched, backupId, createdAt, readFile, h⟩ := h
  unfold exporter at h
  simp only at h
  split at h
  · simp only [bind, Option.bind_eq_some_iff] at h
    obtain ⟨baseId, -, baseFile, -, baseState, -, h⟩ := h
    obtain rfl := congrArg StoredFile.content (Option.some.inj h)
    rfl
  · obtain rfl := congrArg StoredFile.content (Option.some.inj h)
    rfl

/-- What has been altered is no longer intact. -/
theorem Altered.not_intact {written file : BackupFile} (hd : Canonical digest)
    (hwritten : written.Intact digest) (h : Altered written file) : ¬file.Intact digest := by
  intro hfile
  unfold BackupFile.Intact at hwritten hfile
  rcases h with ⟨hsum, hcontent⟩ | ⟨hsum, hcontent⟩
  · apply hcontent
    rw [← hd, ← hfile, ← hwritten, hsum]
  · apply hsum
    rw [hfile, hwritten, (hd _ _).mpr hcontent]

end

/-! ## What a run does -/

section

variable {codec : Codec} {cli : ImporterCli} {status : Nat → Option Bool} {bytes : List UInt8}

/-- Everything a run can do with the content of the bytes. -/
theorem importBytes_cases (codec : Codec) (cli : ImporterCli) (status : Nat → Option Bool)
    (bytes : List UInt8) :
    (codec.content bytes = none ∧ (importBytes codec cli status bytes).Aborts) ∨
    (∃ state, codec.content bytes = some (.full state) ∧
      ¬(BackupFile.full state).Intact codec.digest ∧
      (importBytes codec cli status bytes).Aborts) ∨
    (∃ file, codec.content bytes = some file ∧
      (∀ state, file = .full state → file.Intact codec.digest) ∧
      importBytes codec cli status bytes = if cli.verifyOnly then ⟨[], .ok none⟩
        else restore cli status file.metadata.backupId (restoreEntries file)) := by
  unfold importBytes Codec.content
  cases codec.asState bytes with
  | some state =>
    by_cases hv : verifyBackup codec.digest state = true
    · refine .inr (.inr ⟨.full state, rfl, fun _ _ => (verifyBackup_iff state).mp hv, ?_⟩)
      simp only [hv, if_true]
      rfl
    · refine .inr (.inl ⟨state, rfl, fun h => hv ((verifyBackup_iff state).mpr h), ?_⟩)
      simp only [hv]
      exact ⟨rfl, _, rfl⟩
  | none =>
    cases codec.asDiff bytes with
    | none => exact .inl ⟨rfl, rfl, _, rfl⟩
    | some diff =>
      refine .inr (.inr ⟨.incremental diff, rfl, fun state h => ?_, rfl⟩)
      cases h

/-- When every call goes through, all entries are restored. -/
theorem restoreLoop_success (hdry : cli.dryRun = false) (hok : ∀ i, status i = some true)
    (entries : List ((_ : String) × String)) (i : Nat) :
    restoreLoop cli status i entries =
      (entries.map fun e => ⟨cli.rpc, cli.contract, cli.source, e.1, e.2, false⟩,
        .ok (i + entries.length)) := by
  induction entries generalizing i with
  | nil => rfl
  | cons e entries ih =>
    have hcall : ∀ call : RestoreCall, call.dryRun = false →
        restoreEntry call (status i) = .ok () := by
      intro call hcall
      simp [restoreEntry, hcall, hok]
    simp only [restoreLoop]
    rw [hcall _ hdry, ih, hdry, List.map_cons, List.length_cons,
      show i + 1 + entries.length = i + (entries.length + 1) by omega]

/-- A file that is not refused is reported as verified. -/
theorem restore_success (hdry : cli.dryRun = false) (hok : ∀ i, status i = some true)
    (backupId : String) (entries : List ((_ : String) × String)) :
    restore cli status backupId entries =
      ⟨entries.map fun e => ⟨cli.rpc, cli.contract, cli.source, e.1, e.2, false⟩,
        .ok (some ⟨backupId, entries.length, true⟩)⟩ := by
  unfold restore
  rw [restoreLoop_success hdry hok, Nat.zero_add]
  rfl

def RestoreCall.entry (call : RestoreCall) : (_ : String) × String := ⟨call.keyXdr, call.valueXdr⟩

/-- The run and the importer on the file that the bytes are read as: either both refuse it, or the
calls of the run are what the importer sets. -/
theorem importBytes_importer (hdry : cli.dryRun = false) (hverify : cli.verifyOnly = false)
    (hok : ∀ i, status i = some true) {file : BackupFile} (hc : codec.content bytes = some file)
    (target : Target) :
    ((importBytes codec cli status bytes).Aborts ∧
      ∃ message, importer codec.digest file target = .error message) ∨
    importer codec.digest file target =
      .ok (target.setAll ((importBytes codec cli status bytes).calls.map RestoreCall.entry)) := by
  rcases importBytes_cases codec cli status bytes with
    ⟨hnone, -⟩ | ⟨state, hstate, hbad, habort⟩ | ⟨file', hfile, hfull, hrun⟩
  · rw [hnone] at hc
    cases hc
  · obtain rfl := Option.some.inj (hstate.symm.trans hc)
    have hv : ¬verifyBackup codec.digest state = true := fun h => hbad ((verifyBackup_iff _).mp h)
    exact .inl ⟨habort, _, if_neg hv⟩
  · obtain rfl := Option.some.inj (hfile.symm.trans hc)
    have hcalls : ((importBytes codec cli status bytes).calls.map RestoreCall.entry) =
        restoreEntries file' := by
      rw [hrun, hverify, if_neg Bool.false_ne_true, restore_success hdry hok, List.map_map]
      exact List.map_id _
    right
    rw [hcalls]
    cases file' with
    | full state => rw [importer, if_pos ((verifyBackup_iff state).mpr (hfull state rfl))]
    | incremental diff => rfl

end

/-! ## Only intact backups -/

/-- Only the incremental backups are in question: a full one is verified before it is restored. -/
theorem restoresOnlyIntact_iff_content (codec : Codec) (hd : Canonical codec.digest)
    (bytes : List UInt8) :
    RestoresOnlyIntact codec bytes ↔ ∀ diff, codec.content bytes = some (.incremental diff) →
      (BackupFile.incremental diff).Intact codec.digest := by
  constructor
  · intro h diff hdiff
    let cli : ImporterCli := ⟨"", "", "", false, false, none⟩
    rcases importBytes_cases codec cli (fun _ => some true) bytes with
      ⟨hnone, -⟩ | ⟨state, hstate, -, -⟩ | ⟨file, hfile, -, hrun⟩
    · rw [hnone] at hdiff
      cases hdiff
    · rw [hstate] at hdiff
      cases hdiff
    · obtain rfl := Option.some.inj (hfile.symm.trans hdiff)
      have hrestores : (importBytes codec cli (fun _ => some true) bytes).Restores := by
        rw [hrun, if_neg Bool.false_ne_true, restore_success rfl (fun _ => rfl)]
        exact .inr ⟨_, rfl, rfl⟩
      obtain ⟨file, hfile', hintact⟩ := h.restores cli _ hrestores
      obtain rfl := Option.some.inj (hfile.symm.trans hfile')
      exact hintact
  · intro h
    -- what is not refused is intact, an incremental backup by the condition
    have hpassed : ∀ file, codec.content bytes = some file →
        (∀ state, file = .full state → file.Intact codec.digest) → file.Intact codec.digest := by
      intro file hfile hfull
      cases file with
      | full state => exact hfull state rfl
      | incremental diff => exact h diff hfile
    constructor
    · intro cli status hrestored
      rcases importBytes_cases codec cli status bytes with
        ⟨-, habort⟩ | ⟨-, -, -, habort⟩ | ⟨file, hfile, hfull, -⟩
      · exact absurd hrestored habort.not_restores
      · exact absurd hrestored habort.not_restores
      · exact ⟨file, hfile, hpassed file hfile hfull⟩
    · intro written file hwritten hfile haltered cli status
      rcases importBytes_cases codec cli status bytes with
        ⟨-, habort⟩ | ⟨-, -, -, habort⟩ | ⟨file', hfile', hfull, -⟩
      · exact habort
      · exact habort
      · obtain rfl := Option.some.inj (hfile'.symm.trans hfile)
        exact absurd (hpassed _ hfile' hfull) (haltered.not_intact hd hwritten.intact)

/-- The importer restores intact backups only, and refuses altered ones, exactly on the bytes that
are not an incremental backup with a wrong checksum. When every call goes through, its calls set on
the target what `importer` sets there. -/
theorem restores_only_intact_iff (codec : Codec) (hd : Canonical codec.digest)
    (bytes : List UInt8) :
    (RestoresOnlyIntact codec bytes ↔ ∀ diff, codec.content bytes = some (.incremental diff) →
      (BackupFile.incremental diff).Intact codec.digest) ∧
    ∀ cli status, cli.dryRun = false → cli.verifyOnly = false → (∀ i, status i = some true) →
      ∀ file target, codec.content bytes = some file →
        ((importBytes codec cli status bytes).Aborts ∧
          ∃ message, importer codec.digest file target = .error message) ∨
        importer codec.digest file target = .ok (target.setAll
          ((importBytes codec cli status bytes).calls.map RestoreCall.entry)) :=
  ⟨restoresOnlyIntact_iff_content codec hd bytes, fun _ _ hdry hverify hok _ target hc =>
    importBytes_importer hdry hverify hok hc target⟩

/-! ## A canonical digest -/

def keyLe (a b : (_ : String) × String) : Bool := a.1 ≤ b.1

/-- A map with its entries in the order of their keys. -/
def entriesDoc (map : Entries) : Doc :=
  .object ((map.entries.mergeSort keyLe).map fun e => (e.1, .string e.2))

def BackupType.toDoc : BackupType → Doc
  | .full => .string "full"
  | .incremental => .string "incremental"

def BackupMetadata.toDoc (m : BackupMetadata) : Doc :=
  .object [("created_at", .int m.createdAt), ("tool_version", .string m.toolVersion),
    ("checksum", .string m.checksum), ("backup_type", m.backupType.toDoc),
    ("base_backup_id", m.baseBackupId.elim .null .string), ("backup_id", .string m.backupId),
    ("encrypted", .bool m.encrypted)]

def BackupFile.toDoc : BackupFile → Doc
  | .full s => .object [("schema_version", .int s.schemaVersion.toNat),
      ("contract_id", .string s.contractId), ("network", .string s.network),
      ("ledger_sequence", .int s.ledgerSequence.toNat),
      ("ledger_timestamp", .int s.ledgerTimestamp.toNat),
      ("instance_entries", entriesDoc s.instanceEntries),
      ("persistent_entries", entriesDoc s.persistentEntries), ("metadata", s.metadata.toDoc)]
  | .incremental d => .object [("schema_version", .int d.schemaVersion.toNat),
      ("contract_id", .string d.contractId), ("base_backup_id", .string d.baseBackupId),
      ("ledger_sequence", .int d.ledgerSequence.toNat), ("added", entriesDoc d.added),
      ("modified", entriesDoc d.modified), ("removed", .array (d.removed.map .string)),
      ("metadata", d.metadata.toDoc)]

/-- The document with sorted entries, as the digest. -/
def sortedDigest (file : BackupFile) : String := String.ofList file.toDoc.text

/-- Sorting the entries sorts them. -/
theorem pairwise_sorted (map : Entries) :
    (map.entries.mergeSort keyLe).Pairwise fun a b => keyLe a b = true := by
  apply List.pairwise_mergeSort
  · intro a b c hab hbc
    simp only [keyLe, decide_eq_true_eq] at hab hbc ⊢
    exact String.le_trans hab hbc
  · intro a b
    simp only [keyLe, Bool.or_eq_true, decide_eq_true_eq]
    exact String.le_total a.1 b.1

/-- Maps with the same entries are sorted alike. -/
theorem sorted_eq_iff {a b : Entries} :
    a.entries.mergeSort keyLe = b.entries.mergeSort keyLe ↔ a.entries.Perm b.entries := by
  have ha := List.mergeSort_perm a.entries keyLe
  have hb := List.mergeSort_perm b.entries keyLe
  constructor
  · intro h
    rw [h] at ha
    exact ha.symm.trans hb
  · intro h
    refine List.Perm.eq_of_pairwise ?_ (pairwise_sorted a) (pairwise_sorted b)
      ((ha.trans h).trans hb.symm)
    rintro ⟨k, v⟩ ⟨k', v'⟩ hmem hmem' hle hle'
    simp only [keyLe, decide_eq_true_eq] at hle hle'
    obtain rfl : k = k' := String.le_antisymm hle hle'
    have hv := (HashMap.mem_entries_iff a k v).mp (ha.mem_iff.mp hmem)
    have hv' := (HashMap.mem_entries_iff a k v').mp (h.mem_iff.mpr (hb.mem_iff.mp hmem'))
    rw [Option.some.inj (hv.symm.trans hv')]

/-- Sorted entries tell the map but not its order. -/
theorem entriesDoc_eq_iff {a b : Entries} :
    entriesDoc a = entriesDoc b ↔ a.entries.Perm b.entries := by
  have hinj : Function.Injective fun e : (_ : String) × String => (e.1, Doc.string e.2) := by
    rintro ⟨k, v⟩ ⟨k', v'⟩ h
    simp only [Prod.mk.injEq, Doc.string.injEq] at h
    rw [h.1, h.2]
  rw [entriesDoc, entriesDoc, Doc.object.injEq, (List.map_injective_iff.mpr hinj).eq_iff,
    sorted_eq_iff]

theorem BackupType.toDoc_eq_iff {a b : BackupType} : a.toDoc = b.toDoc ↔ a = b := by
  cases a <;> cases b <;> simp [BackupType.toDoc]

theorem optionText_eq_iff {a b : Option String} :
    a.elim Doc.null .string = b.elim Doc.null .string ↔ a = b := by
  cases a <;> cases b <;> simp

theorem BackupMetadata.toDoc_eq_iff {a b : BackupMetadata} : a.toDoc = b.toDoc ↔ a = b := by
  cases a
  cases b
  simp [BackupMetadata.toDoc, BackupType.toDoc_eq_iff, optionText_eq_iff]

theorem removedDoc_eq_iff {a b : List String} : a.map Doc.string = b.map Doc.string ↔ a = b :=
  (List.map_injective_iff.mpr fun _ _ h => Doc.string.inj h).eq_iff

/-- The document tells the file up to the order of its maps. -/
theorem BackupFile.toDoc_eq_iff {f g : BackupFile} : f.toDoc = g.toDoc ↔ f.Same g := by
  constructor
  · intro h
    cases f with
    | full s =>
      cases g with
      | full t =>
        obtain ⟨hversion, hcontract, hnetwork, hledger, htime, hinstance, hpersistent, hmetadata⟩ := by
          simpa [BackupFile.toDoc, entriesDoc_eq_iff, BackupMetadata.toDoc_eq_iff,
            UInt32.toNat_inj, UInt64.toNat_inj] using h
        refine .full hinstance hpersistent ?_
        rw [hversion, hcontract, hnetwork, hledger, htime, hmetadata]
      | incremental e => simp [BackupFile.toDoc] at h
    | incremental d =>
      cases g with
      | full t => simp [BackupFile.toDoc] at h
      | incremental e =>
        obtain ⟨hversion, hcontract, hbase, hledger, hadded, hmodified, hremoved, hmetadata⟩ := by
          simpa [BackupFile.toDoc, entriesDoc_eq_iff, BackupMetadata.toDoc_eq_iff,
            UInt32.toNat_inj, UInt64.toNat_inj, removedDoc_eq_iff] using h
        refine .incremental hadded hmodified ?_
        rw [hversion, hcontract, hbase, hledger, hremoved, hmetadata]
  · intro h
    cases h with
    | full hinstance hpersistent others =>
      rw [← others]
      simp [BackupFile.toDoc, entriesDoc_eq_iff, hinstance, hpersistent]
    | incremental hadded hmodified others =>
      rw [← others]
      simp [BackupFile.toDoc, entriesDoc_eq_iff, hadded, hmodified]

/-- So this digest is the same for the same contents, and differs for others. -/
theorem canonical_sortedDigest : Canonical sortedDigest := by
  intro f g
  rw [sortedDigest, sortedDigest, String.ofList_inj, Doc.text_injective.eq_iff,
    BackupFile.toDoc_eq_iff]

/-! ## An altered difference -/

/-- The difference, before its checksum is computed. -/
def unsealedDiff : IncrementalDiff :=
  let diff := computeDiff lockedState paidState.instanceEntries paidState.persistentEntries
  { schemaVersion := 1, contractId := "CTIPJAR", baseBackupId := "base", ledgerSequence := 101,
    added := diff.1, modified := diff.2.1, removed := diff.2.2,
    metadata := { createdAt := 1700003600, toolVersion := "0.1.0", checksum := "",
                  backupType := .incremental, baseBackupId := some "base",
                  backupId := "backup_CTIPJAR_1700003600", encrypted := false } }

/-- The difference as the exporter writes it. -/
def writtenDiff : IncrementalDiff :=
  { unsealedDiff with
    metadata := { unsealedDiff.metadata with
                  checksum := sortedDigest (.incremental unsealedDiff) } }

/-- The same file with another balance. -/
def forgedDiff : IncrementalDiff :=
  { writtenDiff with modified := .collect [("Balance:alice", "1000000")] }

/-- It carries its own digest. -/
theorem exported_writtenDiff : Exported sortedDigest (.incremental writtenDiff) :=
  ⟨⟨"CTIPJAR", "testnet", false, true, some "base"⟩,
    ⟨paidState.instanceEntries, paidState.persistentEntries, 101, 1700003600⟩,
    "backup_CTIPJAR_1700003600", 1700003600, fun _ => some ⟨.full lockedState, false⟩, rfl⟩

/-- The entry is another one and the checksum is the old one. -/
theorem altered_forgedDiff : Altered (.incremental writtenDiff) (.incremental forgedDiff) := by
  refine .inl ⟨rfl, fun h => ?_⟩
  cases h with
  | incremental hadded hmodified others =>
    exact absurd (lookup_eq_of_perm hmodified "Balance:alice") (by decide)

def fileBytes (file : BackupFile) : List UInt8 := (String.ofList file.toDoc.text).toUTF8.toList

/-- Reads the file of a difference as that. -/
def diffCodec (diff : IncrementalDiff) : Codec where
  asState _ := none
  asDiff bytes := if bytes = fileBytes (.incremental diff) then some diff else none
  digest := sortedDigest

theorem content_diffCodec (diff : IncrementalDiff) :
    (diffCodec diff).content (fileBytes (.incremental diff)) = some (.incremental diff) := by
  simp [Codec.content, diffCodec]

/-- A diff is restored without a check unless only a verification was asked for. -/
theorem importBytes_diffCodec (diff : IncrementalDiff) (cli : ImporterCli)
    (status : Nat → Option Bool) :
    importBytes (diffCodec diff) cli status (fileBytes (.incremental diff)) =
      if cli.verifyOnly then ⟨[], .ok none⟩
      else restore cli status diff.metadata.backupId (restoreEntries (.incremental diff)) := by
  simp [importBytes, diffCodec]

/-- The diff as it was written restores what was backed up. -/
theorem restores_only_intact_iff_written :
    RestoresOnlyIntact (diffCodec writtenDiff) (fileBytes (.incremental writtenDiff)) := by
  refine (restores_only_intact_iff _ canonical_sortedDigest _).1.mpr fun diff hdiff => ?_
  rw [content_diffCodec] at hdiff
  obtain rfl := BackupFile.incremental.inj (Option.some.inj hdiff)
  exact exported_writtenDiff.intact

/-- The forged balance is restored and reported as verified; in the mode that only verifies, the
file passes. -/
theorem forged_diff_restored :
    Exported sortedDigest (.incremental writtenDiff) ∧
    Altered (.incremental writtenDiff) (.incremental forgedDiff) ∧
    importBytes (diffCodec forgedDiff) ⟨"CTIPJAR", "testnet", "admin", false, false, none⟩
        (fun _ => some true) (fileBytes (.incremental forgedDiff)) =
      ⟨[⟨"https://soroban-testnet.stellar.org", "CTIPJAR", "admin", "Balance:alice", "1000000",
        false⟩], .ok (some ⟨"backup_CTIPJAR_1700003600", 1, true⟩)⟩ ∧
    importBytes (diffCodec forgedDiff) ⟨"CTIPJAR", "testnet", "admin", false, true, none⟩
        (fun _ => some true) (fileBytes (.incremental forgedDiff)) = ⟨[], .ok none⟩ ∧
    ¬RestoresOnlyIntact (diffCodec forgedDiff) (fileBytes (.incremental forgedDiff)) := by
  have hrun : importBytes (diffCodec forgedDiff)
      ⟨"CTIPJAR", "testnet", "admin", false, false, none⟩ (fun _ => some true)
      (fileBytes (.incremental forgedDiff)) =
      ⟨[⟨"https://soroban-testnet.stellar.org", "CTIPJAR", "admin", "Balance:alice", "1000000",
        false⟩], .ok (some ⟨"backup_CTIPJAR_1700003600", 1, true⟩)⟩ := by
    rw [importBytes_diffCodec]
    rfl
  refine ⟨exported_writtenDiff, altered_forgedDiff, hrun, importBytes_diffCodec _ _ _, fun h => ?_⟩
  have haborts := h.aborts _ _ exported_writtenDiff (content_diffCodec forgedDiff)
    altered_forgedDiff ⟨"CTIPJAR", "testnet", "admin", false, false, none⟩ fun _ => some true
  rw [hrun] at haborts
  cases haborts.1

end StateBackup
