import StellarTipjar.Migrate.Rollback

/-!
# Migration toolkit — exports with failing reads

The export promises an error if a call fails after all retries. The admin and the list of tokens
keep that promise. A getter that fails answers as if the entry were missing, a storage scan or
ledger query whose command runs and fails answers with an empty list or with 0, and only a command
that cannot be started is an error (`Reads.withFaults`).

An export looks at the answers of the reads it makes and at nothing else (`exportState_congr`), so
it fails closed exactly when it is refused or no read that it makes fails
(`export_fails_closed_iff`).
-/

namespace Migrate

open Lib

/-! ## Failing reads -/

/-- The collections found by a storage scan. -/
inductive Scanned where
  | creatorBalance
  | creatorTotal
  | subscription
  | userRole
deriving DecidableEq

/-- The calls an export makes to read. -/
inductive Read where
  | entry (k : Key)
  | paused
  | pauseReason
  | whitelistedTokens
  | scan (collection : Scanned)
  | ledger
deriving DecidableEq

/-- How a call fails: the command cannot be started, or it runs and reports an error. -/
inductive Failure where
  | notStarted (err : String)
  | rejected (err : String)
deriving DecidableEq

/-- The failing calls. -/
abbrev Faults := Read → Option Failure

namespace Failure
variable {α : Type}

def message : Failure → String
  | notStarted err => err
  | rejected err => err

/-- `invoke_read(..)?`. -/
def passedOn (fault : Option Failure) (answer : Except String α) : Except String α :=
  match fault with
  | some failure => .error failure.message
  | none => answer

/-- `invoke_read(..).ok()`, and the getters that map the error to `None`. -/
def orNothing (fault : Option Failure) (answer : Option α) : Option α :=
  match fault with
  | some _ => none
  | none => answer

/-- `scan_persistent_prefix` and `get_latest_ledger_sequence`: output that makes no sense is the
default. -/
def orDefault (fault : Option Failure) (default : α) (answer : Except String α) :
    Except String α :=
  match fault with
  | some (.notStarted err) => .error err
  | some (.rejected _) => .ok default
  | none => answer

end Failure

open Failure in
/-- What the reads answer when some of them fail. -/
def Reads.withFaults (rpc : Reads) (faults : Faults) : Reads where
  get k := orNothing (faults (.entry k)) (rpc.get k)
  admin := passedOn (faults (.entry .admin)) rpc.admin
  paused := orNothing (faults .paused) rpc.paused
  pauseReason := orNothing (faults .pauseReason) rpc.pauseReason
  whitelistedTokens := passedOn (faults .whitelistedTokens) rpc.whitelistedTokens
  creatorBalances := orDefault (faults (.scan .creatorBalance)) [] rpc.creatorBalances
  creatorTotals := orDefault (faults (.scan .creatorTotal)) [] rpc.creatorTotals
  subscriptions := orDefault (faults (.scan .subscription)) [] rpc.subscriptions
  userRoles := orDefault (faults (.scan .userRole)) [] rpc.userRoles
  latestLedgerSequence := orDefault (faults .ledger) 0 rpc.latestLedgerSequence

/-! ## The reads of an export -/

/-- The creators whose counters an export reads. -/
def knownCreators (rpc : Reads) : List Address :=
  match rpc.creatorBalances with
  | .ok raw => creators (.collect (compositeEntries raw))
  | .error _ => []

/-- The entries an export reads by their key. Which records it asks for depends on the answers to
its scans and counters. -/
def ReadsEntry (rpc : Reads) : Key → Prop
  | .admin | .feeBasisPoints | .refundWindow | .tipCounter | .matchingCounter | .currentFeeBps
  | .contractVersion | .nextLockId => True
  | .tipperParticipants bucket | .creatorParticipants bucket => bucket = bucketAllTime
  | .tipCount c | .milestoneCounter c | .lockedTipCounter c => c ∈ knownCreators rpc
  | .tipHistory c i => c ∈ knownCreators rpc ∧ i < (rpc.get (.tipCount c)).getD 0
  | .milestone c id => c ∈ knownCreators rpc ∧ id < (rpc.get (.milestoneCounter c)).getD 0
  | .lockedTip c id => c ∈ knownCreators rpc ∧ id < (rpc.get (.lockedTipCounter c)).getD 0
  | .tipperAggregate a bucket =>
    bucket = bucketAllTime ∧ a ∈ (rpc.get (.tipperParticipants bucketAllTime)).getD []
  | .creatorAggregate a bucket =>
    bucket = bucketAllTime ∧ a ∈ (rpc.get (.creatorParticipants bucketAllTime)).getD []
  | .subscription a c => ∃ raw, rpc.subscriptions = .ok raw ∧ (a, c) ∈ raw
  | .timeLock id => id < (rpc.get .nextLockId).getD 0
  | .matchingProgram id => id < (rpc.get .matchingCounter).getD 0
  | .tipRecord id => id < (rpc.get .tipCounter).getD 0
  -- these are read by the scans, by the list of tokens, or not at all
  | .tokenWhitelist _ | .creatorBalance _ _ | .creatorTotal _ _ | .userRole _
  | .instanceNextLockId => False

/-- The reads an export makes. -/
def Performs (rpc : Reads) : Read → Prop
  | .entry k => ReadsEntry rpc k
  | _ => True

/-- The second set of reads answers whatever an export asks of the first in the same way. -/
structure Agree (rpc rpc' : Reads) : Prop where
  get : ∀ k, ReadsEntry rpc k → rpc'.get k = rpc.get k
  admin : rpc'.admin = rpc.admin
  paused : rpc'.paused = rpc.paused
  pauseReason : rpc'.pauseReason = rpc.pauseReason
  whitelistedTokens : rpc'.whitelistedTokens = rpc.whitelistedTokens
  creatorBalances : rpc'.creatorBalances = rpc.creatorBalances
  creatorTotals : rpc'.creatorTotals = rpc.creatorTotals
  subscriptions : rpc'.subscriptions = rpc.subscriptions
  userRoles : rpc'.userRoles = rpc.userRoles
  latestLedgerSequence : rpc'.latestLedgerSequence = rpc.latestLedgerSequence

section Agree
variable {rpc rpc' : Reads} (h : Agree rpc rpc')
include h

/-- Reads that agree know the same creators. -/
theorem Agree.knownCreators : knownCreators rpc' = knownCreators rpc := by
  rw [Migrate.knownCreators, Migrate.knownCreators, h.creatorBalances]

/-- So it makes the same reads. -/
theorem Agree.readsEntry_iff (k : Key) : ReadsEntry rpc' k ↔ ReadsEntry rpc k := by
  cases k with
  | admin | feeBasisPoints | refundWindow | tipCounter | matchingCounter | currentFeeBps
  | contractVersion | nextLockId | tipperParticipants bucket | creatorParticipants bucket
  | tokenWhitelist t | creatorBalance c t | creatorTotal c t | userRole a
  | instanceNextLockId => exact Iff.rfl
  | tipCount c | milestoneCounter c | lockedTipCounter c =>
    simp only [ReadsEntry, h.knownCreators]
  | tipHistory c i =>
    simp only [ReadsEntry, h.knownCreators]
    exact and_congr_right fun hc => by rw [h.get (.tipCount c) hc]
  | milestone c id =>
    simp only [ReadsEntry, h.knownCreators]
    exact and_congr_right fun hc => by rw [h.get (.milestoneCounter c) hc]
  | lockedTip c id =>
    simp only [ReadsEntry, h.knownCreators]
    exact and_congr_right fun hc => by rw [h.get (.lockedTipCounter c) hc]
  | tipperAggregate a bucket => simp only [ReadsEntry, h.get (.tipperParticipants _) rfl]
  | creatorAggregate a bucket => simp only [ReadsEntry, h.get (.creatorParticipants _) rfl]
  | subscription a c => simp only [ReadsEntry, h.subscriptions]
  | timeLock id => simp only [ReadsEntry, h.get .nextLockId trivial]
  | matchingProgram id => simp only [ReadsEntry, h.get .matchingCounter trivial]
  | tipRecord id => simp only [ReadsEntry, h.get .tipCounter trivial]

/-- And perform the same reads. -/
theorem Agree.performs_iff (r : Read) : Performs rpc' r ↔ Performs rpc r := by
  cases r with
  | entry k => exact h.readsEntry_iff k
  | _ => exact Iff.rfl

/-! ## Exports that see the same answers -/

section Creators
variable {raw : List ((Address × Address) × I128)} (hraw : rpc.creatorBalances = .ok raw)
include hraw

omit h in
/-- The creators of a balance map that was read are known. -/
theorem mem_knownCreators_of_ok {c : Address}
    (hc : c ∈ creators (.collect (compositeEntries raw))) : c ∈ knownCreators rpc := by
  rw [knownCreators, hraw]
  exact hc

/-- Each collection is read alike, one lemma each. -/
theorem exportTipHistory_agree :
    exportTipHistory rpc' (.collect (compositeEntries raw)) =
      exportTipHistory rpc (.collect (compositeEntries raw)) := by
  refine congrArg HashMap.collect (List.filterMap_congr fun c hc => ?_)
  have hknown := mem_knownCreators_of_ok hraw hc
  have hcount := h.get (.tipCount c) hknown
  have htips : readTips rpc' c = readTips rpc c :=
    readRecords_congr (by rw [hcount]) fun i hi => h.get (.tipHistory c i) ⟨hknown, hi⟩
  rw [htips]

theorem exportMilestones_agree :
    exportMilestones rpc' (.collect (compositeEntries raw)) =
      exportMilestones rpc (.collect (compositeEntries raw)) := by
  refine congrArg HashMap.collect (List.flatMap_congr fun c hc => ?_)
  have hknown := mem_knownCreators_of_ok hraw hc
  have hcount := h.get (.milestoneCounter c) hknown
  refine readRecords_congr (by rw [hcount]) fun id hid => ?_
  rw [h.get (.milestone c id) ⟨hknown, hid⟩]

theorem exportLockedTips_agree :
    exportLockedTips rpc' (.collect (compositeEntries raw)) =
      exportLockedTips rpc (.collect (compositeEntries raw)) := by
  refine List.flatMap_congr fun c hc => ?_
  have hknown := mem_knownCreators_of_ok hraw hc
  have hcount := h.get (.lockedTipCounter c) hknown
  refine readRecords_congr (by rw [hcount]) fun id hid => ?_
  rw [h.get (.lockedTip c id) ⟨hknown, hid⟩]

end Creators

theorem exportTipperAggregates_agree : exportTipperAggregates rpc' = exportTipperAggregates rpc := by
  have hlist := h.get (.tipperParticipants bucketAllTime) rfl
  unfold exportTipperAggregates
  rw [hlist]
  refine congrArg HashMap.collect (List.filterMap_congr fun a ha => ?_)
  rw [h.get (.tipperAggregate a bucketAllTime) ⟨rfl, ha⟩]

theorem exportCreatorAggregates_agree :
    exportCreatorAggregates rpc' = exportCreatorAggregates rpc := by
  have hlist := h.get (.creatorParticipants bucketAllTime) rfl
  unfold exportCreatorAggregates
  rw [hlist]
  refine congrArg HashMap.collect (List.filterMap_congr fun a ha => ?_)
  rw [h.get (.creatorAggregate a bucketAllTime) ⟨rfl, ha⟩]

theorem exportSubscriptions_agree : exportSubscriptions rpc' = exportSubscriptions rpc := by
  unfold exportSubscriptions
  rw [h.subscriptions]
  cases hraw : rpc.subscriptions with
  | error err => rfl
  | ok raw =>
    refine congrArg (fun entries => Except.ok (HashMap.collect entries)) ?_
    refine List.filterMap_congr fun ⟨a, c⟩ he => ?_
    simp only [h.get (.subscription a c) ⟨raw, hraw, he⟩]

theorem exportTimeLocks_agree : exportTimeLocks rpc' = exportTimeLocks rpc := by
  refine readRecords_congr (by rw [h.get .nextLockId trivial]) fun id hid => ?_
  rw [h.get (.timeLock id) hid]

theorem exportMatchingPrograms_agree :
    exportMatchingPrograms rpc' ((rpc.get .matchingCounter).getD 0) =
      exportMatchingPrograms rpc ((rpc.get .matchingCounter).getD 0) := by
  refine readRecords_congr rfl fun id hid => ?_
  rw [h.get (.matchingProgram id) hid]

theorem exportTipRecords_agree :
    exportTipRecords rpc' ((rpc.get .tipCounter).getD 0) =
      exportTipRecords rpc ((rpc.get .tipCounter).getD 0) := by
  refine readRecords_congr rfl fun id hid => ?_
  rw [h.get (.tipRecord id) hid]

/-- An export depends on the answers to the reads it makes only. -/
theorem exportState_congr (digest : StateSnapshot → String) (contractId : String) (now : UInt64) :
    exportState digest rpc' contractId now = exportState digest rpc contractId now := by
  have hroles : exportUserRoles rpc' = exportUserRoles rpc := by
    rw [exportUserRoles, exportUserRoles, h.userRoles]
  have hinstance : ∀ k, ReadsEntry rpc k → rpc'.get k = rpc.get k := h.get
  simp only [exportState, exportCreatorFinancials, hroles, exportSubscriptions_agree h,
    h.admin, h.paused, h.pauseReason, h.whitelistedTokens, h.creatorBalances, h.creatorTotals,
    h.latestLedgerSequence, hinstance .tipCounter trivial, hinstance .matchingCounter trivial,
    hinstance .feeBasisPoints trivial, hinstance .refundWindow trivial,
    hinstance .currentFeeBps trivial, hinstance .contractVersion trivial,
    exportTipperAggregates_agree h, exportCreatorAggregates_agree h, exportTimeLocks_agree h,
    exportMatchingPrograms_agree h, exportTipRecords_agree h]
  -- the collections of a creator are read for the balances that the scan has found
  cases hraw : rpc.creatorBalances with
  | error err => simp only [bind, Except.bind]
  | ok raw =>
    cases rpc.creatorTotals with
    | error err => simp only [bind, Except.bind]
    | ok totals =>
      simp only [bind, Except.bind, pure, Except.pure, exportTipHistory_agree h hraw,
        exportMilestones_agree h hraw, exportLockedTips_agree h hraw]

end Agree

/-! ## When an export is refused -/

/-- A computation succeeds when both its parts do. -/
theorem bind_eq_ok_iff {α β : Type} {x : Except String α} {f : α → Except String β} {b : β} :
    x >>= f = .ok b ↔ ∃ a, x = .ok a ∧ f a = .ok b := by
  cases x with
  | error err => simp [bind, Except.bind]
  | ok a => simp [bind, Except.bind]

/-- An export succeeds when the seven reads that can report an error do not. -/
theorem exists_export_iff (digest : StateSnapshot → String) (rpc : Reads) (contractId : String)
    (now : UInt64) :
    (∃ s, exportState digest rpc contractId now = .ok s) ↔
      (∃ admin, rpc.admin = .ok admin) ∧ (∃ tokens, rpc.whitelistedTokens = .ok tokens) ∧
      (∃ balances, rpc.creatorBalances = .ok balances) ∧
      (∃ totals, rpc.creatorTotals = .ok totals) ∧ (∃ subs, rpc.subscriptions = .ok subs) ∧
      (∃ roles, rpc.userRoles = .ok roles) ∧ ∃ seq, rpc.latestLedgerSequence = .ok seq := by
  constructor
  · rintro ⟨s, hs⟩
    simp only [exportState, exportCreatorFinancials, exportSubscriptions, exportUserRoles,
      bind_eq_ok_iff] at hs
    obtain ⟨admin, hadmin, tokens, htokens, financials, ⟨raw, hraw, totals, htotals, -⟩, _,
      ⟨subs, hsubs, -⟩, _, ⟨roles, hroles, -⟩, seq, hseq, -⟩ := hs
    exact ⟨⟨_, hadmin⟩, ⟨_, htokens⟩, ⟨_, hraw⟩, ⟨_, htotals⟩, ⟨_, hsubs⟩, ⟨_, hroles⟩, ⟨_, hseq⟩⟩
  · rintro ⟨⟨admin, hadmin⟩, ⟨tokens, htokens⟩, ⟨raw, hraw⟩, ⟨totals, htotals⟩, ⟨subs, hsubs⟩,
      ⟨roles, hroles⟩, ⟨seq, hseq⟩⟩
    simp only [exportState, exportCreatorFinancials, exportSubscriptions, exportUserRoles, hadmin,
      htokens, hraw, htotals, hsubs, hroles, hseq, bind, Except.bind, pure, Except.pure]
    exact ⟨_, rfl⟩

namespace Failure
variable {α : Type} {fault : Option Failure}

/-- A fault that is passed on fails the export. -/
theorem passedOn_eq_ok_iff {answer : Except String α} :
    (∃ a, passedOn fault answer = .ok a) ↔ fault = none ∧ ∃ a, answer = .ok a := by
  cases fault <;> simp [passedOn]

/-- One that is replaced by the default fails it only when the command could not be started. -/
theorem orDefault_eq_ok_iff {default a : α} :
    (∃ b, orDefault fault default (.ok a) = .ok b) ↔ ∀ err, fault ≠ some (.notStarted err) := by
  rcases fault with _ | (_ | _) <;> simp [orDefault]

end Failure

/-- What an export needs to succeed: an admin, and that none of the reads that report an error
fails. -/
structure Accepted (S : Target) (faults : Faults) : Prop where
  hasAdmin : (S.get .admin).isSome
  admin : faults (.entry .admin) = none
  whitelistedTokens : faults .whitelistedTokens = none
  scans : ∀ collection err, faults (.scan collection) ≠ some (.notStarted err)
  ledger : ∀ err, faults .ledger ≠ some (.notStarted err)

/-- Which faults an export survives. -/
theorem exists_faulty_export_iff (digest : StateSnapshot → String) (S : Target)
    (listing : List Key) (ledger : UInt32) (noAdmin contractId : String) (now : UInt64)
    (faults : Faults) :
    (∃ s, exportState digest ((S.reads listing ledger noAdmin).withFaults faults) contractId now =
      .ok s) ↔ Accepted S faults := by
  have hadmin : (∃ admin, (S.reads listing ledger noAdmin).admin = .ok admin) ↔
      (S.get .admin).isSome := by
    cases hget : S.get .admin <;> simp [Target.reads, hget]
  -- two of the seven reads report every failure, the others only that of starting the command
  rw [exists_export_iff]
  simp only [Reads.withFaults, Failure.passedOn_eq_ok_iff, hadmin]
  simp only [Target.reads, Failure.orDefault_eq_ok_iff]
  constructor
  · rintro ⟨⟨hfault, hsome⟩, ⟨htokens, -⟩, hbalances, htotals, hsubs, hroles, hledger⟩
    refine ⟨hsome, hfault, htokens, ?_, hledger⟩
    intro collection
    cases collection with
    | creatorBalance => exact hbalances
    | creatorTotal => exact htotals
    | subscription => exact hsubs
    | userRole => exact hroles
  · intro h
    exact ⟨⟨h.admin, h.hasAdmin⟩, ⟨h.whitelistedTokens, _, rfl⟩, h.scans .creatorBalance,
      h.scans .creatorTotal, h.scans .subscription, h.scans .userRole, h.ledger⟩

/-! ## Failing closed -/

/-- If the export succeeds, then none of the reads it made has failed, and its snapshot is the one of
a run in which no read fails. -/
def FailsClosed (digest : StateSnapshot → String) (rpc : Reads) (contractId : String)
    (now : UInt64) (faults : Faults) : Prop :=
  ∀ s, exportState digest (rpc.withFaults faults) contractId now = .ok s →
    (∀ r, Performs (rpc.withFaults faults) r → faults r = none) ∧
      exportState digest rpc contractId now = .ok s

section Faults
variable {rpc : Reads} {faults : Faults}

/-- A read without a fault answers as before. -/
theorem get_withFaults {k : Key} (h : faults (.entry k) = none) :
    (rpc.withFaults faults).get k = rpc.get k := by
  show Failure.orNothing (faults (.entry k)) (rpc.get k) = rpc.get k
  rw [h]
  rfl

/-- Every export makes the reads other than those of entries, so when none of its reads fails, these
answer as they would without faults. -/
theorem withFaults_eq {asked : Reads} (h : ∀ r, Performs asked r → faults r = none) :
    rpc.withFaults faults = { rpc with get := (rpc.withFaults faults).get } := by
  have hadmin := h (.entry .admin) trivial
  have hpaused := h .paused trivial
  have hreason := h .pauseReason trivial
  have htokens := h .whitelistedTokens trivial
  have hscan : ∀ collection, faults (.scan collection) = none := fun _ => h _ trivial
  have hledger := h .ledger trivial
  simp only [Reads.withFaults, hadmin, hpaused, hreason, htokens, hscan, hledger,
    Failure.passedOn, Failure.orNothing, Failure.orDefault]

/-- Faults at reads the export does not perform make no difference. -/
theorem agree_withFaults (h : ∀ r, Performs rpc r → faults r = none) :
    Agree rpc (rpc.withFaults faults) := by
  rw [withFaults_eq h]
  exact ⟨fun k hk => get_withFaults (h (.entry k) hk), rfl, rfl, rfl, rfl, rfl, rfl, rfl, rfl, rfl⟩

/-- From the other side as well. -/
theorem withFaults_agree (h : ∀ r, Performs (rpc.withFaults faults) r → faults r = none) :
    Agree (rpc.withFaults faults) rpc := by
  have heq : rpc.withFaults faults = { rpc with get := (rpc.withFaults faults).get } :=
    withFaults_eq h
  refine ⟨fun k hk => (get_withFaults (h (.entry k) hk)).symm, ?_, ?_, ?_, ?_, ?_, ?_, ?_, ?_, ?_⟩
  all_goals rw [heq]

end Faults

/-- An export fails closed exactly when it is refused or none of the reads that a run without faults
makes fails. -/
theorem export_fails_closed_iff (digest : StateSnapshot → String) (S : Target)
    (listing : List Key) (ledger : UInt32) (noAdmin contractId : String) (now : UInt64)
    (faults : Faults) :
    FailsClosed digest (S.reads listing ledger noAdmin) contractId now faults ↔
      ¬ Accepted S faults ∨
        ∀ r, Performs (S.reads listing ledger noAdmin) r → faults r = none := by
  have haccepted := exists_faulty_export_iff digest S listing ledger noAdmin contractId now faults
  constructor
  · intro hclosed
    by_cases hacc : Accepted S faults
    · right
      obtain ⟨s, hs⟩ := haccepted.mpr hacc
      obtain ⟨hnone, -⟩ := hclosed s hs
      intro r hr
      exact hnone r (((withFaults_agree hnone).performs_iff r).mp hr)
    · exact .inl hacc
  · rintro (hrefused | hnone) s hs
    · exact absurd (haccepted.mp ⟨s, hs⟩) hrefused
    · have hagree := agree_withFaults hnone
      refine ⟨fun r hr => hnone r ((hagree.performs_iff r).mp hr), ?_⟩
      rw [← hs, exportState_congr hagree]

section Sample

/-- The scan of the balances runs and fails. -/
def failingScan : Faults
  | .scan .creatorBalance => some (.rejected "rate limited")
  | _ => none

/-- Alice's balance is gone from the snapshot, and nothing has failed. -/
theorem failed_scan_drops_balances :
    ∃ s s', exportState (fun s => "digest of " ++ s.contractId)
        ((sampleTarget.reads (sampleEntries.map Sigma.fst) 42 "no admin").withFaults failingScan)
        "source" 1700000000 = .ok s ∧
      exportState (fun s => "digest of " ++ s.contractId)
        (sampleTarget.reads (sampleEntries.map Sigma.fst) 42 "no admin")
        "source" 1700000000 = .ok s' ∧
      s.creatorBalances.entries = [] ∧ s'.creatorBalances.entries.length = 1 ∧
      verifyChecksum (fun s => "digest of " ++ s.contractId) s = .ok () ∧
      ¬ FailsClosed (fun s => "digest of " ++ s.contractId)
        (sampleTarget.reads (sampleEntries.map Sigma.fst) 42 "no admin") "source" 1700000000
        failingScan := by
  refine ⟨_, _, rfl, rfl, rfl, rfl, rfl, ?_⟩
  intro hclosed
  have hfault := (hclosed _ rfl).1 (.scan .creatorBalance) trivial
  cases hfault

end Sample

end Migrate
