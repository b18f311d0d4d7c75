import StellarTipjar.Lib.Json
import StellarTipjar.StateBackup.Exporter

/-!
# Backup tool — scheduler

`tools/backup/backup_scheduler.rs`. A cycle names a backup by the time, runs the exporter on it and,
if that ends well, takes it as the base of the next cycle and prunes the output directory.

Three things have to agree for an incremental cycle to go through: the backup is written to the
output directory, while the exporter reads its base from the working directory, and takes it for the
state of a full backup in plain text. They agree once at best. The third cycle always fails, and
since a failing cycle keeps its base, so does every later one (`run_eq_of_stuck`).
-/

namespace StateBackup

/-! ## Files -/

structure Path where
  dir : String
  name : String
deriving DecidableEq

/-- The files on disk, the least recently modified one first. -/
abbrev Files := List (Path × StoredFile)

def Files.read (files : Files) (path : Path) : Option StoredFile :=
  (files.find? fun entry => entry.1 = path).map Prod.snd

def Files.write (files : Files) (path : Path) (file : StoredFile) : Files :=
  files.filter (fun entry => entry.1 ≠ path) ++ [(path, file)]

/-! ## The scheduler -/

/-- The command line of the scheduler. -/
structure SchedulerCli where
  contract : String
  network : String
  outputDir : String
  encrypt : Bool
  incremental : Bool
  maxBackups : Nat

/-- What the cycles meet: the directory that the programs run in, the seconds at which scheduler and
exporter look at the clock, and what the exporter fetches. -/
structure Host where
  workDir : String
  clock : Nat → Nat
  exporterClock : Nat → Nat
  fetched : Nat → Fetched
  digest : BackupFile → String

/-- Contract ids are ASCII, so the first eight bytes are the first eight characters. -/
def backupId (contract : String) (timestamp : Nat) : String :=
  "backup_" ++ String.ofList (contract.toList.take 8) ++ "_" ++ timestamp.repr

/-- The id of the backup and the files after it, nothing when the exporter fails. -/
def runExporter (cli : SchedulerCli) (host : Host) (cycle : Nat) (incremental : Bool)
    (baseId : Option String) (files : Files) : Option (String × Files) := do
  let id := backupId cli.contract (host.clock cycle)
  let outPath : Path := ⟨cli.outputDir, id ++ ".json"⟩
  let exporterCli : Cli :=
    { contract := cli.contract, network := cli.network, encrypt := cli.encrypt,
      incremental := incremental && baseId.isSome,
      base := if incremental then baseId else none }
  let file ← exporter exporterCli (host.fetched cycle)
    (backupId cli.contract (host.exporterClock cycle)) (host.exporterClock cycle)
    (fun name => files.read ⟨host.workDir, name⟩) host.digest
  pure (id, files.write outPath file)

/-- The files of the output directory all have the extension that the source looks for. -/
def pruneOldBackups (outputDir : String) (maxBackups : Nat) (files : Files) : Files :=
  if maxBackups = 0 then files
  else
    let entries := (files.map Prod.fst).filter fun path => path.dir = outputDir
    let oldest := entries.take (entries.length - maxBackups)
    files.filter fun entry => entry.1 ∉ oldest

structure Scheduler where
  lastBackupId : Option String
  files : Files
  /-- How many cycles have written a backup. -/
  written : Nat

def cycle (cli : SchedulerCli) (host : Host) (n : Nat) (s : Scheduler) : Scheduler :=
  let useIncremental := cli.incremental && s.lastBackupId.isSome
  match runExporter cli host n useIncremental s.lastBackupId s.files with
  | some (id, files) =>
    { lastBackupId := some id
      files := pruneOldBackups cli.outputDir cli.maxBackups files
      written := s.written + 1 }
  | none => s -- Continue scheduling even on failure.

/-- The first `n` cycles, from a disk without backups. -/
def run (cli : SchedulerCli) (host : Host) : Nat → Scheduler
  | 0 => { lastBackupId := none, files := [], written := 0 }
  | n + 1 => cycle cli host n (run cli host n)

/-! ## What one cycle does -/

section Cycle

variable {cli : SchedulerCli} {host : Host} {s : Scheduler} {id : String}

theorem read_singleton (path : Path) (file : StoredFile) (other : Path) :
    Files.read [(path, file)] other = if path = other then some file else none := by
  by_cases h : path = other
  · simp [Files.read, h]
  · simp [Files.read, h]

theorem read_pair (path₀ path₁ : Path) (file₀ file₁ : StoredFile) (other : Path) :
    Files.read [(path₀, file₀), (path₁, file₁)] other =
      if path₀ = other then some file₀ else if path₁ = other then some file₁ else none := by
  by_cases h : path₀ = other
  · simp [Files.read, h]
  · rw [if_neg h, ← read_singleton]
    simp [Files.read, h]

/-- Without a base the exporter writes a full backup. -/
theorem exporter_full (cli : Cli) (h : cli.incremental = false) (fetched : Fetched) (id : String)
    (createdAt : Nat) (readFile : String → Option StoredFile) (digest : BackupFile → String) :
    ∃ state, exporter cli fetched id createdAt readFile digest =
      some ⟨.full state, cli.encrypt⟩ := by
  simp only [exporter, h]
  exact ⟨_, rfl⟩

/-- With a base it writes a difference from the state that it reads there. -/
theorem exporter_incremental (cli : Cli) {base : String} (h : cli.incremental = true)
    (hbase : cli.base = some base) (fetched : Fetched) (id : String) (createdAt : Nat)
    (readFile : String → Option StoredFile) (digest : BackupFile → String) :
    match (readFile (base ++ ".json")).bind StoredFile.asState with
    | none => exporter cli fetched id createdAt readFile digest = none
    | some _ => ∃ diff, diff.baseBackupId = base ∧
        exporter cli fetched id createdAt readFile digest =
          some ⟨.incremental diff, cli.encrypt⟩ := by
  cases hfile : readFile (base ++ ".json") with
  | none => simp [exporter, h, hbase, hfile]
  | some file =>
    cases hstate : file.asState with
    | none => simp [exporter, h, hbase, hfile, hstate]
    | some state =>
      simp only [exporter, h, hbase, hfile, hstate, Option.bind_some, if_true, bind]
      exact ⟨_, rfl, rfl⟩

/-- The next base cannot be read as a state where the exporter looks for it. -/
def Stuck (host : Host) (s : Scheduler) : Prop :=
  ∃ id, s.lastBackupId = some id ∧
    (s.files.read ⟨host.workDir, id ++ ".json"⟩).bind StoredFile.asState = none

/-- A failing cycle changes nothing, so the next one fails as well. -/
theorem cycle_eq_of_stuck (hinc : cli.incremental = true) (n : Nat) (h : Stuck host s) :
    cycle cli host n s = s := by
  obtain ⟨id, hlast, hread⟩ := h
  -- the base stays the same, and so does what the exporter finds in its place
  have hfails : runExporter cli host n true (some id) s.files = none := by
    unfold runExporter
    have hnone := exporter_incremental ⟨cli.contract, cli.network, cli.encrypt, true, some id⟩
      rfl rfl (host.fetched n) (backupId cli.contract (host.exporterClock n))
      (host.exporterClock n) (fun name => s.files.read ⟨host.workDir, name⟩) host.digest
    simp only [hread] at hnone
    simp [hnone]
  simp only [cycle, hlast, hinc, Option.isSome_some, Bool.and_self, hfails]

theorem run_eq_of_stuck (hinc : cli.incremental = true) {m : Nat} (h : Stuck host (run cli host m))
    {n : Nat} (hle : m ≤ n) : run cli host n = run cli host m := by
  induction n, hle using Nat.le_induction with
  | base => rfl
  | succ n _ ih =>
    rw [run, ih]
    exact cycle_eq_of_stuck hinc n h

/-- Pruning keeps everything when there is no more than it is to keep. -/
theorem pruneOldBackups_of_le {outputDir : String} {maxBackups : Nat} {files : Files}
    (h : files.length ≤ maxBackups) : pruneOldBackups outputDir maxBackups files = files := by
  have hfew : ((files.map Prod.fst).filter fun path => path.dir = outputDir).length - maxBackups
      = 0 := by
    have := List.length_filter_le (fun path => decide (path.dir = outputDir)) (files.map Prod.fst)
    rw [List.length_map] at this
    omega
  unfold pruneOldBackups
  split
  · rfl
  · simp only [hfew, List.take_zero, List.not_mem_nil, not_false_eq_true, decide_true,
      List.filter_true]

end Cycle

/-! ## Chains of backups -/

/-- The backup is in the output directory with all those that it is based on, down to a full one. -/
inductive Restorable (files : Files) (outputDir : String) : String → Prop
  | full {id : String} {file : StoredFile} {state : ContractState}
      (hread : files.read ⟨outputDir, id ++ ".json"⟩ = some file)
      (hfull : file.content = .full state) : Restorable files outputDir id
  | incremental {id : String} {file : StoredFile} {diff : IncrementalDiff}
      (hread : files.read ⟨outputDir, id ++ ".json"⟩ = some file)
      (hdiff : file.content = .incremental diff)
      (hbase : Restorable files outputDir diff.baseBackupId) : Restorable files outputDir id

/-- All of `n` cycles have written a backup, and every backup that is still there can be restored,
the newest in particular. -/
structure KeepsChains (cli : SchedulerCli) (n : Nat) (s : Scheduler) : Prop where
  written : s.written = n
  chains : ∀ id, (s.files.read ⟨cli.outputDir, id ++ ".json"⟩).isSome →
    Restorable s.files cli.outputDir id
  newest : ∀ id, s.lastBackupId = some id → Restorable s.files cli.outputDir id

theorem not_restorable_of_no_full {files : Files} {outputDir : String}
    (h : ∀ path file, files.read path = some file → ∃ diff, file.content = .incremental diff)
    {id : String} : ¬ Restorable files outputDir id := by
  intro hrestorable
  induction hrestorable with
  | full hread hfull =>
    obtain ⟨diff, hdiff⟩ := h _ _ hread
    rw [hfull] at hdiff
    cases hdiff
  | incremental _ _ _ ih => exact ih

/-! ## The first cycles -/

section FirstCycles

variable (cli : SchedulerCli) (host : Host)

/-- The path and id of the backup of a cycle. -/
def idAt (n : Nat) : String := backupId cli.contract (host.clock n)

def pathAt (n : Nat) : Path := ⟨cli.outputDir, idAt cli host n ++ ".json"⟩

theorem idAt_inj {m n : Nat} : idAt cli host m = idAt cli host n ↔ host.clock m = host.clock n := by
  rw [idAt, idAt, backupId, backupId, String.append_right_inj]
  exact ⟨Lib.natText_injective, congrArg Nat.repr⟩

theorem pathAt_inj {m n : Nat} :
    pathAt cli host m = pathAt cli host n ↔ host.clock m = host.clock n := by
  rw [pathAt, pathAt, Path.mk.injEq, String.append_left_inj, idAt_inj]
  simp

/-- The first cycle writes a full backup. -/
theorem run_one (hmax : 1 ≤ cli.maxBackups) :
    ∃ state, run cli host 1 =
      { lastBackupId := some (idAt cli host 0)
        files := [(pathAt cli host 0, ⟨.full state, cli.encrypt⟩)]
        written := 1 } := by
  obtain ⟨state, hstate⟩ := exporter_full ⟨cli.contract, cli.network, cli.encrypt, false, none⟩ rfl
    (host.fetched 0) (backupId cli.contract (host.exporterClock 0)) (host.exporterClock 0)
    (fun name => Files.read [] ⟨host.workDir, name⟩) host.digest
  have hexporter : runExporter cli host 0 false none [] =
      some (idAt cli host 0, [(pathAt cli host 0, ⟨.full state, cli.encrypt⟩)]) := by
    unfold runExporter
    simp only [Bool.false_and, Bool.false_eq_true, if_false, hstate]
    rfl
  refine ⟨state, ?_⟩
  simp only [run, cycle, Option.isSome_none, Bool.and_false, hexporter]
  rw [pruneOldBackups_of_le hmax]

/-- The second cycle fails when its base is in another directory or encrypted. -/
theorem stuck_run_one (hmax : 1 ≤ cli.maxBackups)
    (hbad : ¬ (cli.outputDir = host.workDir ∧ cli.encrypt = false)) :
    Stuck host (run cli host 1) := by
  obtain ⟨state, hone⟩ := run_one cli host hmax
  rw [hone]
  -- either there is no such file in the working directory, or it is encrypted
  refine ⟨idAt cli host 0, rfl, ?_⟩
  rw [read_singleton]
  split
  · rename_i hpath
    have hdir : cli.outputDir = host.workDir := congrArg Path.dir hpath
    have henc : cli.encrypt = true := by
      cases h : cli.encrypt with
      | false => exact absurd ⟨hdir, h⟩ hbad
      | true => rfl
    rw [henc]
    rfl
  · rfl

/-- Of two backups the first is still there unless both were named in the same second, or only one
backup is kept. -/
theorem prune_second (hmax : 1 ≤ cli.maxBackups) (file₀ file₁ : StoredFile) :
    pruneOldBackups cli.outputDir cli.maxBackups
        (Files.write [(pathAt cli host 0, file₀)] (pathAt cli host 1) file₁) =
      if host.clock 0 ≠ host.clock 1 ∧ 2 ≤ cli.maxBackups then
        [(pathAt cli host 0, file₀), (pathAt cli host 1, file₁)]
      else [(pathAt cli host 1, file₁)] := by
  by_cases hclock : host.clock 0 = host.clock 1
  · -- the second has overwritten the first
    have hwrite : Files.write [(pathAt cli host 0, file₀)] (pathAt cli host 1) file₁ =
        [(pathAt cli host 1, file₁)] := by
      simp [Files.write, (pathAt_inj cli host).mpr hclock]
    rw [hwrite, pruneOldBackups_of_le hmax, if_neg (fun h => h.1 hclock)]
  · have hid : idAt cli host 1 ≠ idAt cli host 0 :=
      fun h => hclock ((idAt_inj cli host).mp h).symm
    have hpath : pathAt cli host 0 ≠ pathAt cli host 1 := mt (pathAt_inj cli host).mp hclock
    have hwrite : Files.write [(pathAt cli host 0, file₀)] (pathAt cli host 1) file₁ =
        [(pathAt cli host 0, file₀), (pathAt cli host 1, file₁)] := by
      simp [Files.write, hpath]
    rw [hwrite]
    by_cases htwo : 2 ≤ cli.maxBackups
    · rw [pruneOldBackups_of_le htwo, if_pos ⟨hclock, htwo⟩]
    · -- the first is the older of two, and pruned
      have hone : cli.maxBackups = 1 := by omega
      rw [if_neg (fun h => htwo h.2), hone]
      simp [pruneOldBackups, pathAt, hid]

/-- When the exporter looks for the base where it was written and can read it, the second cycle
writes a difference from the first backup. -/
theorem run_two (hinc : cli.incremental = true) (hmax : 1 ≤ cli.maxBackups)
    (hdir : cli.outputDir = host.workDir) (hplain : cli.encrypt = false) :
    ∃ state diff, diff.baseBackupId = idAt cli host 0 ∧
      run cli host 2 =
        { lastBackupId := some (idAt cli host 1)
          files :=
            if host.clock 0 ≠ host.clock 1 ∧ 2 ≤ cli.maxBackups then
              [(pathAt cli host 0, ⟨.full state, false⟩),
                (pathAt cli host 1, ⟨.incremental diff, false⟩)]
            else [(pathAt cli host 1, ⟨.incremental diff, false⟩)]
          written := 2 } := by
  obtain ⟨state, hone⟩ := run_one cli host hmax
  rw [hplain] at hone
  let files : Files := [(pathAt cli host 0, ⟨.full state, false⟩)]
  have hread : (files.read ⟨host.workDir, idAt cli host 0 ++ ".json"⟩).bind StoredFile.asState =
      some state := by
    rw [read_singleton, pathAt, hdir, if_pos rfl]
    rfl
  have hdiff := exporter_incremental
    ⟨cli.contract, cli.network, false, true, some (idAt cli host 0)⟩ rfl rfl
    (host.fetched 1) (backupId cli.contract (host.exporterClock 1)) (host.exporterClock 1)
    (fun name => files.read ⟨host.workDir, name⟩) host.digest
  simp only [hread] at hdiff
  obtain ⟨diff, hbase, hexported⟩ := hdiff
  let file : StoredFile := ⟨.incremental diff, false⟩
  have hexporter : runExporter cli host 1 true (some (idAt cli host 0)) files =
      some (idAt cli host 1, files.write (pathAt cli host 1) file) := by
    unfold runExporter
    simp only [Option.isSome_some, Bool.and_self, if_true, hplain, hexported]
    rfl
  have hpruned : pruneOldBackups cli.outputDir cli.maxBackups
      (files.write (pathAt cli host 1) file) = _ := prune_second cli host hmax _ _
  refine ⟨state, diff, hbase, ?_⟩
  rw [run, hone]
  simp only [cycle, hinc, Option.isSome_some, Bool.and_self]
  rw [hexporter]
  simp only [hpruned]
  rfl

/-- After the second cycle at the latest, no cycle writes a backup any more. -/
theorem stuck_run_two (hinc : cli.incremental = true) (hmax : 1 ≤ cli.maxBackups) :
    Stuck host (run cli host 2) := by
  by_cases hgood : cli.outputDir = host.workDir ∧ cli.encrypt = false
  · obtain ⟨state, diff, -, htwo⟩ := run_two cli host hinc hmax hgood.1 hgood.2
    rw [htwo]
    refine ⟨idAt cli host 1, rfl, ?_⟩
    rw [← hgood.1]
    show (Files.read _ (pathAt cli host 1)).bind StoredFile.asState = none
    -- the file of the second cycle is a difference, which is no state
    split
    · rename_i h
      rw [read_pair, if_neg (mt (pathAt_inj cli host).mp h.1), if_pos rfl]
      rfl
    · rw [read_singleton, if_pos rfl]
      rfl
  · have hstuck := stuck_run_one cli host hmax hgood
    rw [run_eq_of_stuck hinc hstuck (by omega)]
    exact hstuck

end FirstCycles

/-! ## Over any number of cycles -/

section Runs

variable (cli : SchedulerCli) (host : Host)

theorem written_run_le (n : Nat) : (run cli host n).written ≤ n := by
  induction n with
  | zero => exact le_rfl
  | succ n ih =>
    rw [run, cycle]
    split
    · exact Nat.succ_le_succ ih
    · exact Nat.le_succ_of_le ih

theorem keepsChains_one (hmax : 1 ≤ cli.maxBackups) :
    KeepsChains cli 1 (run cli host 1) := by
  obtain ⟨state, hone⟩ := run_one cli host hmax
  have hfull : ∀ id, ((run cli host 1).files.read ⟨cli.outputDir, id ++ ".json"⟩).isSome →
      Restorable (run cli host 1).files cli.outputDir id := by
    intro id hsome
    rw [hone, read_singleton] at hsome
    split at hsome
    · rename_i hpath
      have hread : (run cli host 1).files.read ⟨cli.outputDir, id ++ ".json"⟩ =
          some ⟨.full state, cli.encrypt⟩ := by
        rw [hone, read_singleton, if_pos hpath]
      exact .full hread rfl
    · cases hsome
  refine ⟨by rw [hone], hfull, fun id hlast => hfull id ?_⟩
  rw [hone] at hlast ⊢
  cases hlast
  rw [read_singleton, pathAt, if_pos rfl]
  rfl

/-- Two cycles keep their chain exactly when the first backup is read and kept. -/
theorem keepsChains_two_iff (hinc : cli.incremental = true) (hmax : 1 ≤ cli.maxBackups) :
    KeepsChains cli 2 (run cli host 2) ↔
      cli.outputDir = host.workDir ∧ cli.encrypt = false ∧ 2 ≤ cli.maxBackups ∧
        host.clock 0 ≠ host.clock 1 := by
  by_cases hgood : cli.outputDir = host.workDir ∧ cli.encrypt = false
  · obtain ⟨state, diff, hbase, htwo⟩ := run_two cli host hinc hmax hgood.1 hgood.2
    by_cases hkept : host.clock 0 ≠ host.clock 1 ∧ 2 ≤ cli.maxBackups
    · rw [if_pos hkept] at htwo
      refine iff_of_true ?_ ⟨hgood.1, hgood.2, hkept.2, hkept.1⟩
      have hpath : pathAt cli host 0 ≠ pathAt cli host 1 := mt (pathAt_inj cli host).mp hkept.1
      have hread₀ : (run cli host 2).files.read (pathAt cli host 0) =
          some ⟨.full state, false⟩ := by
        rw [htwo, read_pair, if_pos rfl]
      have hread₁ : (run cli host 2).files.read (pathAt cli host 1) =
          some ⟨.incremental diff, false⟩ := by
        rw [htwo, read_pair, if_neg hpath, if_pos rfl]
      -- a full backup, and a difference from it
      have hfirst : Restorable (run cli host 2).files cli.outputDir (idAt cli host 0) :=
        .full hread₀ rfl
      have hsecond : Restorable (run cli host 2).files cli.outputDir (idAt cli host 1) := by
        apply Restorable.incremental hread₁ rfl
        rw [hbase]
        exact hfirst
      refine ⟨by rw [htwo], fun id hsome => ?_, fun id hlast => ?_⟩
      · rw [htwo, read_pair] at hsome
        split at hsome
        · rename_i h
          rw [pathAt, Path.mk.injEq, String.append_left_inj] at h
          rw [← h.2]
          exact hfirst
        · split at hsome
          · rename_i h
            rw [pathAt, Path.mk.injEq, String.append_left_inj] at h
            rw [← h.2]
            exact hsecond
          · cases hsome
      · rw [htwo] at hlast
        cases hlast
        exact hsecond
    · -- only a difference is left, with nothing to apply it to
      rw [if_neg hkept] at htwo
      refine iff_of_false (fun hkeeps => ?_) (fun h => hkept ⟨h.2.2.2, h.2.2.1⟩)
      have hlast := hkeeps.newest (idAt cli host 1) (by rw [htwo])
      refine not_restorable_of_no_full (fun path file hread => ?_) hlast
      rw [htwo, read_singleton] at hread
      split at hread
      · cases hread
        exact ⟨diff, rfl⟩
      · cases hread
  · refine iff_of_false (fun hkeeps => ?_) (fun h => hgood ⟨h.1, h.2.1⟩)
    -- the second cycle has failed, so one backup is missing
    have hsame : run cli host 2 = run cli host 1 :=
      run_eq_of_stuck hinc (stuck_run_one cli host hmax hgood) (by omega)
    obtain ⟨state, hone⟩ := run_one cli host hmax
    have hwritten := hkeeps.written
    rw [hsame, hone] at hwritten
    cases hwritten

/-- The scheduler keeps restorable chains for one cycle, and for a second one exactly when backups go
to the working directory, in plain text, two of them are kept, and the two got different names. From
the third cycle on it writes no backup any more. -/
theorem keepsChains_iff (hinc : cli.incremental = true) (hmax : 1 ≤ cli.maxBackups) (n : Nat) :
    KeepsChains cli n (run cli host n) ↔
      n ≤ 1 ∨ n = 2 ∧ cli.outputDir = host.workDir ∧ cli.encrypt = false ∧ 2 ≤ cli.maxBackups ∧
        host.clock 0 ≠ host.clock 1 := by
  match n with
  | 0 =>
    refine iff_of_true ⟨rfl, fun id hsome => ?_, fun id hlast => ?_⟩ (.inl (by omega))
    · cases hsome
    · cases hlast
  | 1 => exact iff_of_true (keepsChains_one cli host hmax) (.inl le_rfl)
  | 2 =>
    rw [keepsChains_two_iff cli host hinc hmax]
    simp
  | n + 3 =>
    -- at most two of the cycles have written one
    refine iff_of_false (fun hkeeps => ?_) (fun h => by omega)
    have hwritten := hkeeps.written
    rw [run_eq_of_stuck hinc (stuck_run_two cli host hinc hmax) (by omega)] at hwritten
    have hle : (run cli host 2).written ≤ 2 := written_run_le cli host 2
    omega

end Runs

section Sample

/-- The options of a scheduler that keeps incremental backups, all others at their defaults. -/
def hourlyCli (outputDir : String) : SchedulerCli :=
  { contract := "CTIPJAR", network := "testnet", outputDir, encrypt := false, incremental := true,
    maxBackups := 24 }

/-- One cycle an hour, against a contract that never changes. -/
def hourlyHost : Host :=
  { workDir := ".", clock := fun n => 1700000000 + 3600 * n
    exporterClock := fun n => 1700000001 + 3600 * n
    fetched := fun _ =>
      { instanceEntries := .collect [("Admin", "alice")], persistentEntries := ∅
        ledgerSequence := 100, ledgerTimestamp := 1700000000 }
    digest := fun _ => "" }

theorem keepsChains_iff_hourly :
    (hourlyCli ".").incremental = true ∧ 1 ≤ (hourlyCli ".").maxBackups ∧
      KeepsChains (hourlyCli ".") 2 (run (hourlyCli ".") hourlyHost 2) := by
  refine ⟨rfl, by decide, ?_⟩
  rw [keepsChains_iff (hourlyCli ".") hourlyHost rfl (by decide)]
  exact .inr ⟨rfl, rfl, rfl, by decide, by decide⟩

/-- With the default output directory the second cycle does not find its base; with the working
directory as output the third finds a difference in its place. -/
theorem hourly_backups_stop :
    ¬ KeepsChains (hourlyCli "backups") 2 (run (hourlyCli "backups") hourlyHost 2) ∧
    ¬ KeepsChains (hourlyCli ".") 3 (run (hourlyCli ".") hourlyHost 3) := by
  have hdefault : (run (hourlyCli "backups") hourlyHost 2).written = 1 := by decide +kernel
  have hworking : (run (hourlyCli ".") hourlyHost 3).written = 2 := by decide +kernel
  constructor
  · intro h
    rw [KeepsChains.written h] at hdefault
    cases hdefault
  · intro h
    rw [KeepsChains.written h] at hworking
    cases hworking

end Sample

end StateBackup
