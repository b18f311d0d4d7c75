import StellarTipjar.Lib.JsonText
import StellarTipjar.Migrate.Rollback
import StellarTipjar.Migrate.Transform

/-!
# Migration toolkit — checksums

`compute_checksum` hashes the JSON text of a snapshot. The fields of a record stand in the order of
their declaration, but a hash map is listed in the order in which it iterates. The text determines
the snapshot with these orders (`toDoc_injective`, `Doc.text_injective`), so equal contents have
equal checksums exactly when the maps iterate alike (`checksum_canonical_iff`).
-/

namespace Migrate

open Lib

/-! ## The document of a snapshot -/

section Docs

def u64Doc (n : UInt64) : Doc := .int n.toNat

def u32Doc (n : UInt32) : Doc := .int n.toNat

def i128Doc (n : I128) : Doc := .int n.val

/-- An absent value is written as `null`. -/
def optionDoc {α : Type} (doc : α → Doc) : Option α → Doc
  | none => .null
  | some a => doc a

def listDoc {α : Type} (doc : α → Doc) (l : List α) : Doc := .array (l.map doc)

/-- A map is listed in the order in which it iterates. -/
def mapDoc {α : Type} (doc : α → Doc) (map : HashMap String α) : Doc :=
  .object (map.entries.map fun e => (e.1, doc e.2))

/-- The members stand in the order of declaration, in this record and in those below. -/
def TipMetadata.toDoc (t : TipMetadata) : Doc :=
  .object [("sender", .string t.sender), ("amount", i128Doc t.amount),
    ("message", optionDoc .string t.message), ("timestamp", u64Doc t.timestamp)]

def LeaderboardEntry.toDoc (e : LeaderboardEntry) : Doc :=
  .object [("address", .string e.address), ("total_amount", i128Doc e.totalAmount),
    ("tip_count", u32Doc e.tipCount)]

/-- The variants are renamed to snake case. -/
def SubscriptionStatus.toDoc : SubscriptionStatus → Doc
  | .active => .string "active"
  | .paused => .string "paused"
  | .cancelled => .string "cancelled"

def Subscription.toDoc (sub : Subscription) : Doc :=
  .object [("subscriber", .string sub.subscriber), ("creator", .string sub.creator),
    ("token", .string sub.token), ("amount", i128Doc sub.amount),
    ("interval_seconds", u64Doc sub.intervalSeconds), ("last_payment", u64Doc sub.lastPayment),
    ("next_payment", u64Doc sub.nextPayment), ("status", sub.status.toDoc)]

def TimeLock.toDoc (lock : TimeLock) : Doc :=
  .object [("lock_id", u64Doc lock.lockId), ("sender", .string lock.sender),
    ("creator", .string lock.creator), ("token", .string lock.token),
    ("amount", i128Doc lock.amount), ("unlock_time", u64Doc lock.unlockTime),
    ("cancelled", .bool lock.cancelled)]

def Milestone.toDoc (ms : Milestone) : Doc :=
  .object [("id", u64Doc ms.id), ("creator", .string ms.creator),
    ("goal_amount", i128Doc ms.goalAmount), ("current_amount", i128Doc ms.currentAmount),
    ("description", .string ms.description), ("deadline", optionDoc u64Doc ms.deadline),
    ("completed", .bool ms.completed)]

def MatchingProgram.toDoc (prog : MatchingProgram) : Doc :=
  .object [("id", u64Doc prog.id), ("sponsor", .string prog.sponsor),
    ("creator", .string prog.creator), ("token", .string prog.token),
    ("match_ratio", u32Doc prog.matchRatio), ("max_match_amount", i128Doc prog.maxMatchAmount),
    ("current_matched", i128Doc prog.currentMatched), ("active", .bool prog.active)]

def TipRecord.toDoc (rec : TipRecord) : Doc :=
  .object [("id", u64Doc rec.id), ("sender", .string rec.sender),
    ("creator", .string rec.creator), ("token", .string rec.token),
    ("amount", i128Doc rec.amount), ("timestamp", u64Doc rec.timestamp),
    ("refunded", .bool rec.refunded), ("refund_requested", .bool rec.refundRequested),
    ("refund_approved", .bool rec.refundApproved)]

def LockedTip.toDoc (lt : LockedTip) : Doc :=
  .object [("tip_id", u64Doc lt.tipId), ("sender", .string lt.sender),
    ("creator", .string lt.creator), ("token", .string lt.token),
    ("amount", i128Doc lt.amount), ("unlock_timestamp", u64Doc lt.unlockTimestamp)]

/-- The whole file. The maps are written in their iteration order. -/
def StateSnapshot.toDoc (s : StateSnapshot) : Doc :=
  .object [("contract_id", .string s.contractId), ("schema_version", u32Doc s.schemaVersion),
    ("exported_at", u64Doc s.exportedAt), ("ledger_sequence", u32Doc s.ledgerSequence),
    ("checksum", .string s.checksum), ("admin", .string s.admin),
    ("fee_basis_points", u32Doc s.feeBasisPoints),
    ("refund_window_seconds", u64Doc s.refundWindowSeconds), ("paused", .bool s.paused),
    ("pause_reason", optionDoc .string s.pauseReason), ("tip_counter", u64Doc s.tipCounter),
    ("matching_counter", u64Doc s.matchingCounter), ("current_fee_bps", u32Doc s.currentFeeBps),
    ("whitelisted_tokens", listDoc .string s.whitelistedTokens),
    ("creator_balances", mapDoc i128Doc s.creatorBalances),
    ("creator_totals", mapDoc i128Doc s.creatorTotals),
    ("tip_history", mapDoc (listDoc TipMetadata.toDoc) s.tipHistory),
    ("tipper_aggregates", mapDoc LeaderboardEntry.toDoc s.tipperAggregates),
    ("creator_aggregates", mapDoc LeaderboardEntry.toDoc s.creatorAggregates),
    ("subscriptions", mapDoc Subscription.toDoc s.subscriptions),
    ("time_locks", listDoc TimeLock.toDoc s.timeLocks),
    ("milestones", mapDoc Milestone.toDoc s.milestones),
    ("matching_programs", listDoc MatchingProgram.toDoc s.matchingPrograms),
    ("tip_records", listDoc TipRecord.toDoc s.tipRecords),
    ("locked_tips", listDoc LockedTip.toDoc s.lockedTips),
    ("user_roles", mapDoc .string s.userRoles)]

end Docs

/-! ## The document determines the snapshot -/

section Injective
variable {α : Type}

@[simp] theorem u64Doc_inj {m n : UInt64} : u64Doc m = u64Doc n ↔ m = n := by
  simp [u64Doc, UInt64.toNat_inj]

@[simp] theorem u32Doc_inj {m n : UInt32} : u32Doc m = u32Doc n ↔ m = n := by
  simp [u32Doc, UInt32.toNat_inj]

@[simp] theorem i128Doc_inj {m n : I128} : i128Doc m = i128Doc n ↔ m = n := by
  simp [i128Doc, I128.ext_iff]

/-- The entries of a list can be read off, in order. -/
theorem listDoc_inj {doc : α → Doc} (hdoc : Function.Injective doc) {l m : List α} :
    listDoc doc l = listDoc doc m ↔ l = m := by
  rw [listDoc, listDoc, Doc.array.injEq]
  exact (List.map_injective_iff.mpr hdoc).eq_iff

/-- Those of a map too, and with them its iteration order. -/
theorem mapDoc_inj {doc : α → Doc} (hdoc : Function.Injective doc) {m m' : HashMap String α} :
    mapDoc doc m = mapDoc doc m' ↔ m = m' := by
  have hentry : Function.Injective fun e : (_ : String) × α => (e.1, doc e.2) := by
    rintro ⟨k, v⟩ ⟨k', v'⟩ h
    obtain ⟨hkey, hval⟩ := Prod.mk.inj h
    cases hkey
    cases hdoc hval
    rfl
  rw [mapDoc, mapDoc, Doc.object.injEq, (List.map_injective_iff.mpr hentry).eq_iff]
  exact AList.ext_iff.symm

/-- No value is printed as `null`. -/
theorem optionDoc_inj {doc : α → Doc} (hdoc : Function.Injective doc) (hnull : ∀ a, doc a ≠ .null)
    {o o' : Option α} : optionDoc doc o = optionDoc doc o' ↔ o = o' := by
  cases o with
  | none =>
    cases o' with
    | none => simp
    | some a => simpa [optionDoc] using (hnull a).symm
  | some a =>
    cases o' with
    | none => simpa [optionDoc] using hnull a
    | some b => simpa [optionDoc] using hdoc.eq_iff

theorem string_injective : Function.Injective Doc.string := fun _ _ h => Doc.string.inj h

theorem i128Doc_injective : Function.Injective i128Doc := fun _ _ h => i128Doc_inj.mp h

theorem optionText_inj {o o' : Option String} :
    optionDoc .string o = optionDoc .string o' ↔ o = o' :=
  optionDoc_inj string_injective (by simp)

theorem optionU64_inj {o o' : Option UInt64} : optionDoc u64Doc o = optionDoc u64Doc o' ↔ o = o' :=
  optionDoc_inj (fun _ _ h => u64Doc_inj.mp h) (by simp [u64Doc])

theorem TipMetadata.toDoc_injective : Function.Injective TipMetadata.toDoc := by
  rintro ⟨⟩ ⟨⟩ h
  simpa [TipMetadata.toDoc, optionText_inj] using h

theorem LeaderboardEntry.toDoc_injective : Function.Injective LeaderboardEntry.toDoc := by
  rintro ⟨⟩ ⟨⟩ h
  simpa [LeaderboardEntry.toDoc] using h

theorem SubscriptionStatus.toDoc_injective : Function.Injective SubscriptionStatus.toDoc := by
  intro a b h
  cases a <;> cases b <;> simp_all [SubscriptionStatus.toDoc]

theorem Subscription.toDoc_injective : Function.Injective Subscription.toDoc := by
  rintro ⟨⟩ ⟨⟩ h
  simpa [Subscription.toDoc, SubscriptionStatus.toDoc_injective.eq_iff] using h

theorem TimeLock.toDoc_injective : Function.Injective TimeLock.toDoc := by
  rintro ⟨⟩ ⟨⟩ h
  simpa [TimeLock.toDoc] using h

theorem Milestone.toDoc_injective : Function.Injective Milestone.toDoc := by
  rintro ⟨⟩ ⟨⟩ h
  simpa [Milestone.toDoc, optionU64_inj] using h

theorem MatchingProgram.toDoc_injective : Function.Injective MatchingProgram.toDoc := by
  rintro ⟨⟩ ⟨⟩ h
  simpa [MatchingProgram.toDoc] using h

theorem TipRecord.toDoc_injective : Function.Injective TipRecord.toDoc := by
  rintro ⟨⟩ ⟨⟩ h
  simpa [TipRecord.toDoc] using h

theorem LockedTip.toDoc_injective : Function.Injective LockedTip.toDoc := by
  rintro ⟨⟩ ⟨⟩ h
  simpa [LockedTip.toDoc] using h

/-- Nothing of a snapshot is lost in its document, not even the order of its maps. -/
theorem StateSnapshot.toDoc_injective : Function.Injective StateSnapshot.toDoc := by
  rintro ⟨⟩ ⟨⟩ h
  simpa [StateSnapshot.toDoc, optionText_inj, listDoc_inj string_injective,
    listDoc_inj TimeLock.toDoc_injective, listDoc_inj MatchingProgram.toDoc_injective,
    listDoc_inj TipRecord.toDoc_injective, listDoc_inj LockedTip.toDoc_injective,
    mapDoc_inj i128Doc_injective, mapDoc_inj string_injective,
    mapDoc_inj LeaderboardEntry.toDoc_injective, mapDoc_inj Subscription.toDoc_injective,
    mapDoc_inj Milestone.toDoc_injective,
    mapDoc_inj (fun _ _ h => (listDoc_inj TipMetadata.toDoc_injective).mp h)] using h

end Injective

/-! ## Checksums -/

/-- The digest of the JSON text of a snapshot; `sha` is SHA-256 in hexadecimal. -/
def jsonDigest (sha : String → String) (s : StateSnapshot) : String :=
  sha (String.ofList s.toDoc.text)

/-- Two snapshots have the same checksum when they differ in the stored one at most, the orders of
their maps included. -/
theorem computeChecksum_eq_iff {sha : String → String} (hsha : Function.Injective sha)
    {a b : StateSnapshot} :
    computeChecksum (jsonDigest sha) a = computeChecksum (jsonDigest sha) b ↔
      { a with checksum := "" } = { b with checksum := "" } := by
  rw [computeChecksum, computeChecksum, jsonDigest, jsonDigest, hsha.eq_iff,
    String.ofList_inj, Doc.text_injective.eq_iff, StateSnapshot.toDoc_injective.eq_iff]

/-- A snapshot passes exactly when it carries its own checksum. -/
theorem verifyChecksum_eq_ok_iff {digest : StateSnapshot → String} {s : StateSnapshot} :
    verifyChecksum digest s = .ok () ↔ s.checksum = computeChecksum digest s := by
  simp [verifyChecksum]

/-- What `export_state` and `transform` leave: the stored checksum is the computed one. -/
def Sealed (digest : StateSnapshot → String) (s : StateSnapshot) : Prop :=
  s.checksum = computeChecksum digest s

/-- The stored checksum is not part of what is hashed. -/
theorem sealed_seal (digest : StateSnapshot → String) (s : StateSnapshot) :
    Sealed digest { s with checksum := computeChecksum digest s } := rfl

/-- An export that fails returns nothing; one that does not ends by sealing. -/
theorem sealed_of_export {digest : StateSnapshot → String} {rpc : Reads} {contractId : String}
    {now : UInt64} {s : StateSnapshot} (h : exportState digest rpc contractId now = .ok s) :
    Sealed digest s := by
  unfold exportState at h
  simp only [bind, Except.bind] at h
  split at h
  · cases h
  split at h
  · cases h
  split at h
  · cases h
  split at h
  · cases h
  split at h
  · cases h
  split at h
  · cases h
  · obtain rfl := Except.ok.inj h
    exact sealed_seal digest _

/-- A transformation seals what it returns, whatever it was given. -/
theorem sealed_of_transform {digest : StateSnapshot → String} {self : StateTransformer}
    {s t : StateSnapshot} {logs : List TransformationLog}
    (h : self.transform digest s = .ok (t, logs)) : Sealed digest t := by
  unfold StateTransformer.transform at h
  split at h
  · cases h
  · obtain ⟨rfl, -⟩ := Prod.mk.inj (Except.ok.inj h)
    exact sealed_seal digest _

/-- The maps of the two snapshots iterate over their entries in the same order. -/
structure SameOrder (a b : StateSnapshot) : Prop where
  creatorBalances : a.creatorBalances.entries = b.creatorBalances.entries
  creatorTotals : a.creatorTotals.entries = b.creatorTotals.entries
  tipHistory : a.tipHistory.entries = b.tipHistory.entries
  tipperAggregates : a.tipperAggregates.entries = b.tipperAggregates.entries
  creatorAggregates : a.creatorAggregates.entries = b.creatorAggregates.entries
  subscriptions : a.subscriptions.entries = b.subscriptions.entries
  milestones : a.milestones.entries = b.milestones.entries
  userRoles : a.userRoles.entries = b.userRoles.entries

/-- Snapshots that differ in the stored checksum alone iterate alike. -/
theorem SameOrder.of_eq {a b : StateSnapshot}
    (h : { a with checksum := "" } = { b with checksum := "" }) : SameOrder a b := by
  simp only [StateSnapshot.mk.injEq] at h
  constructor
  all_goals simp only [h]

/-- The same contents in the same order: the same snapshot. -/
theorem SameOrder.eq {a b : StateSnapshot} (h : SameOrder a b) (hsame : SameContents a b) :
    a = b := by
  rw [hsame.others, AList.ext h.creatorBalances, AList.ext h.creatorTotals,
    AList.ext h.tipHistory, AList.ext h.tipperAggregates, AList.ext h.creatorAggregates,
    AList.ext h.subscriptions, AList.ext h.milestones, AList.ext h.userRoles]

/-! ## Canonical checksums -/

/-- What is wanted of the checksum, for a snapshot `a` and one with the same contents `b`: they have
the same checksum, the file that `a` was written to passes when it is read back as `b`, and with
other contents it does not pass. -/
structure Canonical (sha : String → String) (a b : StateSnapshot) : Prop where
  checksum_eq : computeChecksum (jsonDigest sha) a = computeChecksum (jsonDigest sha) b
  readBack : Sealed (jsonDigest sha) a → verifyChecksum (jsonDigest sha) b = .ok ()
  detects : Sealed (jsonDigest sha) a → ∀ c, c.checksum = a.checksum → ¬ SameContents c a →
    verifyChecksum (jsonDigest sha) c ≠ .ok ()

/-- Other contents under the checksum of a sealed snapshot are always found out. -/
theorem verifyChecksum_ne_ok {sha : String → String} (hsha : Function.Injective sha)
    {a c : StateSnapshot} (hsealed : Sealed (jsonDigest sha) a) (hstored : c.checksum = a.checksum)
    (hother : ¬ SameContents c a) : verifyChecksum (jsonDigest sha) c ≠ .ok () := by
  intro hok
  rw [verifyChecksum_eq_ok_iff, hstored, hsealed, computeChecksum_eq_iff hsha] at hok
  have heq : c = a := by
    calc c = { ({ c with checksum := "" } : StateSnapshot) with checksum := c.checksum } := rfl
      _ = { ({ a with checksum := "" } : StateSnapshot) with checksum := a.checksum } := by
        rw [← hok, hstored]
      _ = a := rfl
  exact hother (heq ▸ SameContents.refl c)

/-- The checksum is canonical for two snapshots with the same contents exactly when their maps
iterate in the same order. What `export_state` and `transform` answer is sealed. -/
theorem checksum_canonical_iff (sha : String → String) (hsha : Function.Injective sha)
    (a b : StateSnapshot) (hsame : SameContents a b) :
    (Canonical sha a b ↔ SameOrder a b) ∧
    (∀ rpc contractId now s, exportState (jsonDigest sha) rpc contractId now = .ok s →
      Sealed (jsonDigest sha) s) ∧
    ∀ (tr : StateTransformer) s t logs, tr.transform (jsonDigest sha) s = .ok (t, logs) →
      Sealed (jsonDigest sha) t := by
  refine ⟨⟨fun h => ?_, fun horder => ?_⟩, fun _ _ _ _ => sealed_of_export,
    fun _ _ _ _ => sealed_of_transform⟩
  · exact SameOrder.of_eq ((computeChecksum_eq_iff hsha).mp h.checksum_eq)
  · obtain rfl := horder.eq hsame
    refine ⟨rfl, ?_, ?_⟩
    · exact fun hsealed => verifyChecksum_eq_ok_iff.mpr hsealed
    · exact fun hsealed c hstored hother => verifyChecksum_ne_ok hsha hsealed hstored hother

section Sample

/-- A snapshot with the given balances and nothing else in its maps. -/
def balancesSnapshot (balances : List (String × I128)) : StateSnapshot :=
  { sampleSnapshot with creatorBalances := .collect balances, creatorTotals := ∅ }

/-- The same, sealed. -/
def sealedSnapshot (balances : List (String × I128)) : StateSnapshot :=
  { balancesSnapshot balances with
    checksum := computeChecksum (jsonDigest id) (balancesSnapshot balances) }

/-- It passes its own check. -/
theorem sealedSnapshot_sealed (balances : List (String × I128)) :
    Sealed (jsonDigest id) (sealedSnapshot balances) :=
  sealed_seal (jsonDigest id) (balancesSnapshot balances)

def aliceFirst : List (String × I128) := [("alice:xlm", 9), ("bob:xlm", 3)]

def bobFirst : List (String × I128) := [("bob:xlm", 3), ("alice:xlm", 9)]

/-- The file of a sealed snapshot, read back into a map that iterates the other way round. -/
def readBackSnapshot : StateSnapshot :=
  { sealedSnapshot aliceFirst with creatorBalances := .collect bobFirst }

theorem readBack_sameContents : SameContents (sealedSnapshot aliceFirst) readBackSnapshot where
  creatorBalances := List.Perm.swap _ _ _
  creatorTotals := .rfl
  tipHistory := .rfl
  tipperAggregates := .rfl
  creatorAggregates := .rfl
  subscriptions := .rfl
  milestones := .rfl
  userRoles := .rfl
  others := rfl

/-- Two balances, two totals and two roles, sealed. -/
def filledSnapshot : StateSnapshot :=
  let filled : StateSnapshot := { sampleSnapshot with
    creatorBalances := .collect aliceFirst
    creatorTotals := .collect bobFirst
    userRoles := .collect [("alice", "Creator"), ("bob", "Moderator")] }
  { filled with checksum := computeChecksum (jsonDigest id) filled }

/-- The same contents: two of the maps once had an entry more, and iterate over what is left in the
order of the others. -/
def refilledSnapshot : StateSnapshot :=
  { filledSnapshot with
    creatorBalances := (HashMap.collect (("carol:xlm", 0) :: aliceFirst)).retain
      fun _ balance => balance ≠ 0
    creatorTotals := (HashMap.collect (("carol:xlm", 0) :: bobFirst)).retain
      fun _ total => total ≠ 0 }

/-- The entry that was removed leaves no trace in the order of the others. -/
theorem refilled_sameContents : SameContents filledSnapshot refilledSnapshot where
  creatorBalances := .rfl
  creatorTotals := .rfl
  tipHistory := .rfl
  tipperAggregates := .rfl
  creatorAggregates := .rfl
  subscriptions := .rfl
  milestones := .rfl
  userRoles := .rfl
  others := rfl

/-- With the orders kept, what is read back passes; with one of them turned round it is not
canonical. -/
theorem checksum_canonical_iff_sample :
    verifyChecksum (jsonDigest id) refilledSnapshot = .ok () ∧
      ¬Canonical id (sealedSnapshot aliceFirst) readBackSnapshot := by
  constructor
  · have hcanonical := (checksum_canonical_iff id Function.injective_id _ _
      refilled_sameContents).1.mpr ⟨by decide, by decide, rfl, rfl, rfl, rfl, rfl, rfl⟩
    exact hcanonical.readBack (sealed_seal (jsonDigest id) _)
  · intro hcanonical
    have horder := (checksum_canonical_iff id Function.injective_id _ _
      readBack_sameContents).1.mp hcanonical
    exact absurd horder.creatorBalances (by decide)

/-- It is rejected, although nothing in it has changed. -/
theorem reordered_snapshot_rejected :
    SameContents (sealedSnapshot aliceFirst) readBackSnapshot ∧
      Sealed (jsonDigest id) (sealedSnapshot aliceFirst) ∧
      computeChecksum (jsonDigest id) (sealedSnapshot aliceFirst) ≠
        computeChecksum (jsonDigest id) readBackSnapshot ∧
      verifyChecksum (jsonDigest id) readBackSnapshot ≠ .ok () ∧
      ¬ Canonical id (sealedSnapshot aliceFirst) readBackSnapshot := by
  have hne : computeChecksum (jsonDigest id) (sealedSnapshot aliceFirst) ≠
      computeChecksum (jsonDigest id) readBackSnapshot := by
    intro heq
    have horder := SameOrder.of_eq ((computeChecksum_eq_iff Function.injective_id).mp heq)
    exact absurd horder.creatorBalances (by decide)
  have hstored : readBackSnapshot.checksum =
      computeChecksum (jsonDigest id) (sealedSnapshot aliceFirst) := sealedSnapshot_sealed aliceFirst
  refine ⟨readBack_sameContents, sealedSnapshot_sealed aliceFirst, hne, ?_,
    fun h => hne h.checksum_eq⟩
  intro hok
  rw [verifyChecksum_eq_ok_iff, hstored] at hok
  exact hne hok

end Sample

end Migrate
