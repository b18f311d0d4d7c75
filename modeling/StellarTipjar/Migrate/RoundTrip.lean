import StellarTipjar.Migrate.Completeness
import StellarTipjar.Migrate.Landing

/-!
# Migration toolkit — exporting what was imported

An import into an empty target writes the records of the snapshot and the counters among its
instance values. The participant lists, the persistent lock counter and the counters of milestones
and locked tips are not in a snapshot, and no call writes them, so the next export reads none of the
records that it finds through them (`reexport_same_iff`).
-/

namespace Migrate

open Lib

/-! ## The same data -/

/-- The snapshots agree but for where and when they were taken, the pause, and the order of scans
and maps. -/
structure SameData (a b : StateSnapshot) : Prop where
  admin : a.admin = b.admin
  feeBasisPoints : a.feeBasisPoints = b.feeBasisPoints
  refundWindow : a.refundWindowSeconds = b.refundWindowSeconds
  tipCounter : a.tipCounter = b.tipCounter
  matchingCounter : a.matchingCounter = b.matchingCounter
  currentFeeBps : a.currentFeeBps = b.currentFeeBps
  schemaVersion : a.schemaVersion = b.schemaVersion
  whitelistedTokens : ∀ token, token ∈ a.whitelistedTokens ↔ token ∈ b.whitelistedTokens
  creatorBalances : a.creatorBalances.entries.Perm b.creatorBalances.entries
  creatorTotals : a.creatorTotals.entries.Perm b.creatorTotals.entries
  tipHistory : a.tipHistory.entries.Perm b.tipHistory.entries
  tipperAggregates : a.tipperAggregates.entries.Perm b.tipperAggregates.entries
  creatorAggregates : a.creatorAggregates.entries.Perm b.creatorAggregates.entries
  subscriptions : a.subscriptions.entries.Perm b.subscriptions.entries
  timeLocks : a.timeLocks = b.timeLocks
  milestones : a.milestones.entries.Perm b.milestones.entries
  matchingPrograms : a.matchingPrograms = b.matchingPrograms
  tipRecords : a.tipRecords = b.tipRecords
  lockedTips : a.lockedTips.Perm b.lockedTips
  userRoles : a.userRoles.entries.Perm b.userRoles.entries

/-- The snapshot has nothing of what an export finds through an entry that no import writes. -/
structure StateSnapshot.FoundAgain (s : StateSnapshot) : Prop where
  tipperAggregates : s.tipperAggregates.entries = []
  creatorAggregates : s.creatorAggregates.entries = []
  timeLocks : s.timeLocks = []
  milestones : s.milestones.entries = []
  lockedTips : s.lockedTips = []

/-! ## Exports -/

/-- A contract with an admin can be exported. -/
theorem export_succeeds (digest : StateSnapshot → String) {S : Target} (listing : List Key)
    (ledger : UInt32) (noAdmin contractId : String) (now : UInt64) {admin : String}
    (h : S.get .admin = some admin) :
    ∃ b, exportState digest (S.reads listing ledger noAdmin) contractId now = .ok b := by
  have hok : (S.reads listing ledger noAdmin).admin = .ok admin := by
    simp only [Target.reads, h]
  rw [exportState, hok]
  exact ⟨_, rfl⟩

/-- The records with a global id are exported in the order of their ids. -/
theorem exported_records {digest : StateSnapshot → String} {S : Target} {listing : List Key}
    {ledger : UInt32} {noAdmin contractId : String} {now : UInt64} {b : StateSnapshot}
    (h : exportState digest (S.reads listing ledger noAdmin) contractId now = .ok b) :
    b.matchingPrograms =
        readRecords S.matchingCounter (fun id => (S.get (.matchingProgram id)).map (·.val)) ∧
      b.tipRecords = readRecords S.tipCounter (fun id => (S.get (.tipRecord id)).map (·.val)) := by
  cases hadmin : (S.reads listing ledger noAdmin).admin with
  | error err =>
    rw [exportState, hadmin] at h
    cases h
  | ok admin =>
    rw [exportState, hadmin] at h
    obtain rfl := Except.ok.inj h
    exact ⟨rfl, rfl⟩

/-! ## The target after the import -/

/-- A list read back by its indices. -/
theorem readRecords_getElem? {α : Type} {l : List α} (h : l.length < UInt64.size) :
    readRecords (UInt64.ofNat l.length) (fun i => l[i.toNat]?) = l := by
  have hcount : (UInt64.ofNat l.length).toNat = l.length := UInt64.toNat_ofNat_of_lt' h
  have hindex : ∀ i < l.length, (UInt64.ofNat i).toNat = i := by
    intro i hi
    exact UInt64.toNat_ofNat_of_lt' (hi.trans h)
  have hread : readRecords (UInt64.ofNat l.length) (fun i => l[i.toNat]?) =
      (List.range l.length).filterMap fun i => l[i]? := by
    rw [readRecords, upTo, hcount, List.filterMap_map]
    refine List.filterMap_congr fun i hi => ?_
    rw [Function.comp_apply, hindex i (List.mem_range.mp hi)]
  rw [hread]
  apply List.ext_getElem?
  intro n
  rw [getElem?_filterMap_of_isSome]
  · -- within the length, the index is the number itself
    by_cases hn : n < l.length
    · rw [List.getElem?_range hn, Option.bind_some]
    · rw [List.getElem?_eq_none (by simpa using hn), List.getElem?_eq_none (by simpa using hn)]
      rfl
  · intro i hi
    rw [List.getElem?_eq_getElem (List.mem_range.mp hi)]
    rfl

section Restored
variable {S T : Target} (hget : ∀ k, T.get k = restored S k)
include hget

theorem known_iff (c : Address) : T.Known c ↔ S.Known c := by
  simp only [Target.Known, hget, restored]

theorem tips_eq {c : Address} (hc : S.Known c) : T.tips c = S.tips c := by
  have hread : T.tips c = readRecords (T.tipCount c) (fun i => (S.tips c)[i.toNat]?) := by
    refine List.filterMap_congr fun i _ => ?_
    rw [hget, restored, if_pos hc]
  have hcount : T.tipCount c = UInt64.ofNat (S.tips c).length := by
    rw [Target.tipCount, hget, restored]
    by_cases hne : S.tips c = []
    · rw [if_neg (fun h => h.2 hne), hne]
      rfl
    · rw [if_pos ⟨hc, hne⟩]
      rfl
  rw [hread, hcount, readRecords_getElem? (length_tips_lt S c)]

theorem tipCounter_eq : T.tipCounter = S.tipCounter := by
  rw [Target.tipCounter, hget, restored]
  rfl

theorem matchingCounter_eq : T.matchingCounter = S.matchingCounter := by
  rw [Target.matchingCounter, hget, restored]
  rfl

/-- What no call writes reads as nothing. -/
theorem auxiliaries_lost :
    T.tippers = [] ∧ T.tippedCreators = [] ∧ T.nextLockId = 0 ∧
      (∀ c, T.milestoneCounter c = 0) ∧ ∀ c, T.lockedTipCounter c = 0 := by
  simp only [Target.tippers, Target.tippedCreators, Target.nextLockId, Target.milestoneCounter,
    Target.lockedTipCounter, hget, restored, Option.getD_none, implies_true, and_self]

end Restored

/-! ## The second export -/

section Reexport
variable {S T : Target} {s s' : StateSnapshot} (h : Holds s S) (h' : Holds s' T)
  (hget : ∀ k, T.get k = restored S k)
include h' hget

/-- The collections that the second export comes back without. -/
theorem lost_collections : s'.FoundAgain := by
  -- the export goes through these collections by lists and counters that the import does not write
  obtain ⟨htippers, hcreators, hlocks, hmilestones, hlocked⟩ := auxiliaries_lost hget
  refine ⟨?_, ?_, ?_, ?_, ?_⟩
  · rw [List.eq_nil_iff_forall_not_mem]
    rintro ⟨key, v⟩ hmem
    obtain ⟨a, ha, -⟩ := (h'.tipperAggregates key v).mp hmem
    rw [htippers] at ha
    cases ha
  · rw [List.eq_nil_iff_forall_not_mem]
    rintro ⟨key, v⟩ hmem
    obtain ⟨a, ha, -⟩ := (h'.creatorAggregates key v).mp hmem
    rw [hcreators] at ha
    cases ha
  · rw [h'.timeLocks, Target.timeLocks, hlocks]
    rfl
  · rw [List.eq_nil_iff_forall_not_mem]
    rintro ⟨key, v⟩ hmem
    obtain ⟨c, id, r, ⟨-, hid⟩, -⟩ := (h'.milestones key v).mp hmem
    rw [hmilestones] at hid
    exact UInt64.not_lt_zero hid
  · rw [List.eq_nil_iff_forall_not_mem]
    intro v hmem
    obtain ⟨c, id, r, ⟨-, hid⟩, -⟩ := (h'.lockedTips v).mp hmem
    rw [hlocked] at hid
    exact UInt64.not_lt_zero hid

include h

theorem sameData_of_foundAgain (hfound : s.FoundAgain)
    (hmatching : s.matchingPrograms = s'.matchingPrograms)
    (hrecords : s.tipRecords = s'.tipRecords) : SameData s s' := by
  have hlost := lost_collections h' hget
  have hadmin : some s.admin = some s'.admin := by
    rw [← h.admin, ← h'.admin, hget]
    rfl
  constructor
  case admin => exact Option.some.inj hadmin
  case feeBasisPoints => rw [h.feeBasisPoints, h'.feeBasisPoints, hget]; rfl
  case refundWindow => rw [h.refundWindow, h'.refundWindow, hget]; rfl
  case tipCounter => rw [h.tipCounter, h'.tipCounter, tipCounter_eq hget]
  case matchingCounter => rw [h.matchingCounter, h'.matchingCounter, matchingCounter_eq hget]
  case currentFeeBps => rw [h.currentFeeBps, h'.currentFeeBps, hget]; rfl
  case schemaVersion => rw [h.schemaVersion, h'.schemaVersion, hget]; rfl
  case whitelistedTokens =>
    intro token
    simp only [h.whitelistedTokens, h'.whitelistedTokens, hget, restored,
      Option.ite_none_right_eq_some, and_true]
  case creatorBalances =>
    apply HashMap.perm_of_mem_iff
    intro key v
    simp only [h.creatorBalances, h'.creatorBalances, hget, restored]
  case creatorTotals =>
    apply HashMap.perm_of_mem_iff
    intro key v
    simp only [h.creatorTotals, h'.creatorTotals, hget, restored]
  case tipHistory =>
    apply HashMap.perm_of_mem_iff
    intro key tips
    rw [h.tipHistory, h'.tipHistory]
    refine exists_congr fun c => ?_
    rw [known_iff hget]
    exact and_congr_right fun hc => by rw [tips_eq hget hc]
  case subscriptions =>
    apply HashMap.perm_of_mem_iff
    intro key v
    simp only [h.subscriptions, h'.subscriptions, hget, restored]
  case userRoles =>
    apply HashMap.perm_of_mem_iff
    intro key v
    simp only [h.userRoles, h'.userRoles, hget, restored]
  case tipperAggregates => rw [hfound.tipperAggregates, hlost.tipperAggregates]
  case creatorAggregates => rw [hfound.creatorAggregates, hlost.creatorAggregates]
  case timeLocks => rw [hfound.timeLocks, hlost.timeLocks]
  case milestones => rw [hfound.milestones, hlost.milestones]
  case lockedTips => rw [hfound.lockedTips, hlost.lockedTips]
  case matchingPrograms => exact hmatching
  case tipRecords => exact hrecords

omit h in
theorem foundAgain_of_sameData (hsame : SameData s s') : s.FoundAgain := by
  have hlost := lost_collections h' hget
  constructor
  · exact List.perm_nil.mp (hlost.tipperAggregates ▸ hsame.tipperAggregates)
  · exact List.perm_nil.mp (hlost.creatorAggregates ▸ hsame.creatorAggregates)
  · rw [hsame.timeLocks, hlost.timeLocks]
  · exact List.perm_nil.mp (hlost.milestones ▸ hsame.milestones)
  · exact List.perm_nil.mp (hlost.lockedTips ▸ hsame.lockedTips)

end Reexport

/-- An import into an empty target, with no call failing, leaves the restored entries. -/
theorem doImport_empty {env : Env} {S : Target} {s : StateSnapshot} {w : World} (h : Holds s S)
    (hempty : ∀ k, w.target.get k = none) (hcalls : ∀ m, w.calls ≤ m → env.fault m = none) :
    ∃ n w', doImport env s w = (.ok n, w') ∧ ∀ k, w'.target.get k = restored S k := by
  obtain ⟨n, w', hrun, -⟩ := sendAll_succeeds (fun _ => h.accepted) hcalls 0
  have hrun : doImport env s w = (.ok n, w') := hrun
  refine ⟨n, w', hrun, ?_⟩
  intro k
  have htarget := doImport_target hrun
  rw [completed_of_ok hrun] at htarget
  rw [htarget, Target.get_writeAll, hempty, Option.or_none]
  exact Store.lastWrite_eq_of_mem_iff (mem_writes_importCalls h) k

/-- The export of a contract, imported into an empty target without a failing call: the target can
be exported, and the second snapshot has the same data exactly when the first had no leaderboard
aggregates, time locks, milestones or locked tips. -/
theorem reexport_same_iff (digest : StateSnapshot → String) (S : Target) (listing : List Key)
    (ledger : UInt32) (noAdmin contractId : String) (now : UInt64) (s : StateSnapshot)
    (hlist : Lists listing S)
    (hexport : exportState digest (S.reads listing ledger noAdmin) contractId now = .ok s)
    (env : Env) (target : String) (w : World) (hscan : ∀ t, Lists (env.listing t) t)
    (hempty : ∀ k, w.target.get k = none) (hcalls : ∀ m, w.calls ≤ m → env.fault m = none) :
    ∃ n w' s', doImport env s w = (.ok n, w') ∧
      exportState env.digest (env.reads w'.target) target env.now = .ok s' ∧
      (SameData s s' ↔ s.FoundAgain) := by
  have h : Holds s S := holds_of_export hlist hexport
  obtain ⟨n, w', hrun, hget⟩ := doImport_empty h hempty hcalls
  have hadmin : w'.target.get .admin = some s.admin := by
    rw [hget, ← h.admin]
    rfl
  obtain ⟨s', hexport'⟩ := export_succeeds env.digest (env.listing w'.target) env.ledger
    env.rejection target env.now hadmin
  -- both snapshots are described by what they were exported from
  have h' : Holds s' w'.target := holds_of_export (hscan w'.target) hexport'
  refine ⟨n, w', s', hrun, hexport', foundAgain_of_sameData h' hget, ?_⟩
  intro hfound
  obtain ⟨hmatching, hrecords⟩ := exported_records hexport
  obtain ⟨hmatching', hrecords'⟩ := exported_records hexport'
  refine sameData_of_foundAgain h h' hget hfound ?_ ?_
  · -- below the counter, which the import restores, the records are the same
    rw [hmatching, hmatching']
    refine (readRecords_congr (matchingCounter_eq hget) fun id hid => ?_).symm
    rw [hget, restored, if_pos hid]
  · rw [hrecords, hrecords']
    refine (readRecords_congr (tipCounter_eq hget) fun id hid => ?_).symm
    rw [hget, restored, if_pos hid]

section Sample

/-- The participant lists name every address with an aggregate. -/
structure Target.ListsCover (S : Target) : Prop where
  tippers : ∀ a, (S.get (.tipperAggregate a bucketAllTime)).isSome → a ∈ S.tippers
  creators : ∀ a, (S.get (.creatorAggregate a bucketAllTime)).isSome → a ∈ S.tippedCreators

/-- No call fails, and a scan lists the keys that have an entry. -/
noncomputable def scanningEnv : Env :=
  { calmEnv with listing := fun t => t.entries.finite.toFinset.toList }

theorem scanningEnv_lists (t : Target) : Lists (scanningEnv.listing t) t := by
  intro k
  simp [scanningEnv, Target.get]

/-- Balances survive. -/
theorem reexport_same_iff_sample :
    ∃ s, exportState (fun _ => "digest")
        (sampleTarget.reads (sampleEntries.map Sigma.fst) 42 "no admin") "source" 1700000000 =
          .ok s ∧
      ∃ n w' s', doImport scanningEnv s ⟨emptyTarget, 0⟩ = (.ok n, w') ∧
        exportState scanningEnv.digest (scanningEnv.reads w'.target) "target" scanningEnv.now =
          .ok s' ∧ SameData s s' := by
  refine ⟨_, rfl, ?_⟩
  obtain ⟨n, w', s', hrun, hexport, hiff⟩ := reexport_same_iff (fun _ => "digest") sampleTarget
    (sampleEntries.map Sigma.fst) 42 "no admin" "source" 1700000000 _ sample_lists rfl scanningEnv
    "target" ⟨emptyTarget, 0⟩ scanningEnv_lists (fun _ => rfl) (fun _ _ => rfl)
  exact ⟨n, w', s', hrun, hexport, hiff.mpr ⟨rfl, rfl, rfl, rfl, rfl⟩⟩

def timeLockEntries : List Entry :=
  [⟨.admin, "admin"⟩, ⟨.nextLockId, 1⟩,
    ⟨.timeLock 0, ⟨⟨0, "carol", "alice", "xlm", 70, 1800000000, false⟩, rfl⟩⟩]

def timeLockTarget : Target := .ofEntries timeLockEntries

theorem mem_timeLockEntries_of_isSome {k : Key} (h : (timeLockTarget.get k).isSome) :
    k = .admin ∨ k = .nextLockId ∨ k = .timeLock 0 := by
  have hmem := (lists_ofEntries timeLockEntries k).mpr h
  simpa [timeLockEntries] using hmem

theorem timeLockTarget_countersBound : timeLockTarget.CountersBound where
  tipHistory c i h := by simpa using mem_timeLockEntries_of_isSome h
  timeLock id h := by
    obtain rfl : id = 0 := by simpa using mem_timeLockEntries_of_isSome h
    decide
  milestone c id h := by simpa using mem_timeLockEntries_of_isSome h
  matchingProgram id h := by simpa using mem_timeLockEntries_of_isSome h
  tipRecord id h := by simpa using mem_timeLockEntries_of_isSome h
  lockedTip c id h := by simpa using mem_timeLockEntries_of_isSome h

theorem timeLockTarget_listsCover : timeLockTarget.ListsCover where
  tippers a h := by simpa using mem_timeLockEntries_of_isSome h
  creators a h := by simpa using mem_timeLockEntries_of_isSome h

/-- A time lock does not. -/
theorem time_lock_lost :
    ∃ s, exportState (fun _ => "digest")
        (timeLockTarget.reads (timeLockEntries.map Sigma.fst) 42 "no admin") "source" 1700000000 =
          .ok s ∧
      Lists (timeLockEntries.map Sigma.fst) timeLockTarget ∧
      timeLockTarget.CountersBound ∧ timeLockTarget.ListsCover ∧ s.timeLocks.length = 1 ∧
      ∃ n w' s', doImport scanningEnv s ⟨emptyTarget, 0⟩ = (.ok n, w') ∧
        exportState scanningEnv.digest (scanningEnv.reads w'.target) "target" scanningEnv.now =
          .ok s' ∧ s'.timeLocks = [] ∧ ¬ SameData s s' := by
  obtain ⟨s, hexport⟩ : ∃ s, exportState (fun _ => "digest") (timeLockTarget.reads
      (timeLockEntries.map Sigma.fst) 42 "no admin") "source" 1700000000 = .ok s := ⟨_, rfl⟩
  have h : Holds s timeLockTarget := holds_of_export (lists_ofEntries timeLockEntries) hexport
  have hone : s.timeLocks.length = 1 := by
    rw [h.timeLocks]
    rfl
  refine ⟨s, hexport, lists_ofEntries _, timeLockTarget_countersBound, timeLockTarget_listsCover,
    hone, ?_⟩
  obtain ⟨n, w', hrun, hget⟩ : ∃ n w', doImport scanningEnv s ⟨emptyTarget, 0⟩ = (.ok n, w') ∧
      ∀ k, w'.target.get k = restored timeLockTarget k :=
    doImport_empty h (fun _ => rfl) (fun _ _ => rfl)
  obtain ⟨s', hexport'⟩ := export_succeeds scanningEnv.digest (scanningEnv.listing w'.target)
    scanningEnv.ledger scanningEnv.rejection "target" scanningEnv.now
    (show w'.target.get .admin = some "admin" by rw [hget]; rfl)
  have h' : Holds s' w'.target := holds_of_export (scanningEnv_lists _) hexport'
  have hlost := lost_collections h' hget
  refine ⟨n, w', s', hrun, hexport', hlost.timeLocks, ?_⟩
  intro hsame
  rw [hsame.timeLocks, hlost.timeLocks] at hone
  cases hone

end Sample

end Migrate
