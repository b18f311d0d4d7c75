import StellarTipjar.Migrate.FailClosed

/-!
# Migration toolkit — what a clean verification says

`verify_migration` compares what its reads answer, entry by entry (`Checked`). A read that answers
nothing stands for the default, most records are compared in two or three of their fields, the
locked tips are not looked at, and an entry whose key has no colon is skipped. What is left open is
`Unseen`; a clean report can be relied on when that agrees too (`verification_sound_iff`).
-/

namespace Migrate

open Lib

/-! ## Checks that find nothing -/

/-- A compared number or flag leaves no finding when it is the expected one. -/
theorem checkInstance_eq_nil {α : Type} [DecidableEq α] [ToString α] {key : String}
    {actual expected : α} :
    checkInstance key actual expected = [] ↔ actual = expected := by
  simp [checkInstance]

/-- The same of a compared text, whatever the severity of its finding is. -/
theorem checkInstanceString_eq_nil {key actual expected : String} :
    checkInstanceString key actual expected = [] ↔ actual = expected := by
  simp [checkInstanceString]

/-- And of an amount. -/
theorem checkAmount_eq_nil {field : String} {actual expected : I128} :
    checkAmount field actual expected = [] ↔ actual = expected := by
  simp [checkAmount]

/-- A record leaves no finding when there is one, and the fields that are looked at do not differ.
-/
theorem checkRecord_eq_nil {α : Type} {field : String} {whole fields : α → Shown}
    {actual : Option α} {expected : α} {differs : α → Bool} :
    checkRecord field whole fields actual expected differs = [] ↔
      ∃ a, actual = some a ∧ differs a = false := by
  cases actual with
  | none => simp [checkRecord]
  | some a => simp [checkRecord]

/-- A record that is stored with the fact that it carries its own key. -/
theorem exists_map_val {α : Type} {p q : α → Prop} {stored : Option { a // p a }} :
    (∃ a, stored.map (·.val) = some a ∧ q a) ↔ ∃ r, stored = some r ∧ q r.val := by
  cases stored with
  | none => simp
  | some r => simp

/-- A key splits at its first colon. -/
theorem splitKey_eq_some_iff {key rest : String} {c : Address} :
    splitKey key = (c, some rest) ↔ key = joinKey c rest := by
  constructor
  · intro h
    have hjoin : key.toList.takeWhile (· != ':') ++ key.toList.dropWhile (· != ':') = key.toList :=
      List.takeWhile_append_dropWhile
    unfold splitKey at h
    cases hdrop : key.toList.dropWhile (· != ':') with
    | nil =>
      simp only [hdrop] at h
      cases h
    | cons sep tail =>
      simp only [hdrop, Prod.mk.injEq, Option.some.injEq] at h
      obtain ⟨rfl, rfl⟩ := h
      -- what stands before the rest is the colon
      have hsep : sep = ':' := by
        have := List.head?_dropWhile_not (· != ':') key.toList
        simpa [hdrop] using this
      rw [hdrop, hsep] at hjoin
      refine String.toList_inj.mp (hjoin.symm.trans ?_)
      simp [joinKey]
  · rintro rfl
    exact splitKey_joinKey c rest

/-- A loop over the entries of a map that skips the keys without a colon. -/
theorem forSplitKeys_eq_nil {α β : Type} {map : HashMap String α}
    {check : (_ : String) × α → List β} {P : Address → String → α → Prop}
    (hsplit : ∀ c rest v, check ⟨joinKey c rest, v⟩ = [] ↔ P c rest v)
    (hskip : ∀ key v c, splitKey key = (c, none) → check ⟨key, v⟩ = []) :
    map.entries.flatMap check = [] ↔
      ∀ c rest v, ⟨joinKey c rest, v⟩ ∈ map.entries → P c rest v := by
  rw [List.flatMap_eq_nil_iff]
  constructor
  · intro h c rest v hmem
    exact (hsplit c rest v).mp (h _ hmem)
  · rintro h ⟨key, v⟩ hmem
    cases hkey : splitKey key with
    | mk c rest =>
      cases rest with
      | none => exact hskip key v c hkey
      | some rest =>
        obtain rfl := splitKey_eq_some_iff.mp hkey
        exact (hsplit c rest v).mpr (h c rest v hmem)

/-! ## What the verification compares

Every collection is a loop over the snapshot's entries, so an entry that only the target has is never
looked at. A read that fails, or finds nothing, stands for the default of its type: a comparison can
come out equal without the value being there. -/

/-- The answers of the reads, with the defaults for those that answer nothing, are those of the
snapshot in every field that is compared. -/
structure Checked (rpc : Reads) (s : StateSnapshot) : Prop where
  admin : rpc.admin.toOption.getD "" = s.admin
  feeBasisPoints : (rpc.get .feeBasisPoints).getD 0 = s.feeBasisPoints
  refundWindow : (rpc.get .refundWindow).getD 0 = s.refundWindowSeconds
  paused : rpc.paused.getD false = s.paused
  tipCounter : (rpc.get .tipCounter).getD 0 = s.tipCounter
  matchingCounter : (rpc.get .matchingCounter).getD 0 = s.matchingCounter
  contractVersion : (rpc.get .contractVersion).getD 0 = s.schemaVersion
  whitelistedTokens : ∀ token ∈ s.whitelistedTokens,
    token ∈ (rpc.whitelistedTokens.toOption.getD []).map Address.text
  creatorBalances : ∀ c rest v, ⟨joinKey c rest, v⟩ ∈ s.creatorBalances.entries →
    ((Address.parse rest).bind fun t => rpc.get (.creatorBalance c t)).getD 0 = v
  creatorTotals : ∀ c rest v, ⟨joinKey c rest, v⟩ ∈ s.creatorTotals.entries →
    ((Address.parse rest).bind fun t => rpc.get (.creatorTotal c t)).getD 0 = v
  tipCounts : ∀ key tips, ⟨key, tips⟩ ∈ s.tipHistory.entries →
    (((Address.parse key).bind fun c => rpc.get (.tipCount c)).getD 0).toNat = tips.length
  tips : ∀ key tips, ⟨key, tips⟩ ∈ s.tipHistory.entries → ∀ (tip : TipMetadata) (i : Nat),
    tips[i]? = some tip →
      ((Address.parse key).bind fun c => rpc.get (.tipHistory c (UInt64.ofNat i))) = some tip
  tipperAggregates : ∀ a rest v, ⟨joinKey a rest, v⟩ ∈ s.tipperAggregates.entries →
    ∃ e, rpc.get (.tipperAggregate a ((parseU32 rest).getD 0)) = some e ∧
      e.totalAmount = v.totalAmount ∧ e.tipCount = v.tipCount
  creatorAggregates : ∀ a rest v, ⟨joinKey a rest, v⟩ ∈ s.creatorAggregates.entries →
    ∃ e, rpc.get (.creatorAggregate a ((parseU32 rest).getD 0)) = some e ∧
      e.totalAmount = v.totalAmount ∧ e.tipCount = v.tipCount
  subscriptions : ∀ a rest v, ⟨joinKey a rest, v⟩ ∈ s.subscriptions.entries →
    ∃ c r, Address.parse rest = some c ∧ rpc.get (.subscription a c) = some r ∧
      r.val.amount = v.amount ∧ r.val.intervalSeconds = v.intervalSeconds
  timeLocks : ∀ lock ∈ s.timeLocks, ∃ r, rpc.get (.timeLock lock.lockId) = some r ∧
    r.val.amount = lock.amount ∧ r.val.cancelled = lock.cancelled
  milestones : ∀ c rest v, ⟨joinKey c rest, v⟩ ∈ s.milestones.entries →
    ∃ id r, idOfText rest = some id ∧ rpc.get (.milestone c id) = some r ∧
      r.val.goalAmount = v.goalAmount ∧ r.val.currentAmount = v.currentAmount ∧
      r.val.completed = v.completed
  matchingPrograms : ∀ prog ∈ s.matchingPrograms, ∃ r, rpc.get (.matchingProgram prog.id) = some r ∧
    r.val.maxMatchAmount = prog.maxMatchAmount ∧ r.val.currentMatched = prog.currentMatched ∧
    r.val.active = prog.active
  tipRecords : ∀ rec ∈ s.tipRecords, ∃ r, rpc.get (.tipRecord rec.id) = some r ∧
    r.val.amount = rec.amount ∧ r.val.refunded = rec.refunded
  userRoles : ∀ key role, ⟨key, role⟩ ∈ s.userRoles.entries →
    ((Address.parse key).bind fun a => rpc.get (.userRole a)).getD "" = role

section Verify
variable {rpc : Reads} {s : StateSnapshot}

/-- The seven instance values. Where the read answers nothing, the default of the type is compared
in its place. -/
theorem verifyInstance_eq_nil :
    verifyInstance rpc s = [] ↔
      rpc.admin.toOption.getD "" = s.admin ∧
      (rpc.get .feeBasisPoints).getD 0 = s.feeBasisPoints ∧
      (rpc.get .refundWindow).getD 0 = s.refundWindowSeconds ∧
      rpc.paused.getD false = s.paused ∧ (rpc.get .tipCounter).getD 0 = s.tipCounter ∧
      (rpc.get .matchingCounter).getD 0 = s.matchingCounter ∧
      (rpc.get .contractVersion).getD 0 = s.schemaVersion := by
  simp only [verifyInstance, List.append_eq_nil_iff, and_assoc, checkInstance_eq_nil,
    checkInstanceString_eq_nil]

/-- The tokens of the snapshot are on the list of the target; tokens that only the target lists are
not found. -/
theorem verifyTokens_eq_nil :
    verifyTokens rpc s = [] ↔ ∀ token ∈ s.whitelistedTokens,
      token ∈ (rpc.whitelistedTokens.toOption.getD []).map Address.text := by
  simp [verifyTokens, List.filterMap_eq_nil_iff]

/-- Balances and totals are read where the key splits and its second part is an address; 0 stands
for what is not there. -/
theorem verifyCreatorBalances_eq_nil :
    verifyCreatorBalances rpc s = [] ↔
      ∀ c rest v, ⟨joinKey c rest, v⟩ ∈ s.creatorBalances.entries →
        ((Address.parse rest).bind fun t => rpc.get (.creatorBalance c t)).getD 0 = v := by
  refine forSplitKeys_eq_nil ?_ ?_
  · intro c rest v
    simp only [splitKey_joinKey, checkAmount_eq_nil]
  · intro key v c hkey
    simp only [hkey]

theorem verifyCreatorTotals_eq_nil :
    verifyCreatorTotals rpc s = [] ↔
      ∀ c rest v, ⟨joinKey c rest, v⟩ ∈ s.creatorTotals.entries →
        ((Address.parse rest).bind fun t => rpc.get (.creatorTotal c t)).getD 0 = v := by
  refine forSplitKeys_eq_nil ?_ ?_
  · intro c rest v
    simp only [splitKey_joinKey, checkAmount_eq_nil]
  · intro key v c hkey
    simp only [hkey]

/-- The one collection whose records are compared with all their fields. -/
theorem verifyTipHistory_eq_nil :
    verifyTipHistory rpc s = [] ↔
      (∀ key tips, ⟨key, tips⟩ ∈ s.tipHistory.entries →
        (((Address.parse key).bind fun c => rpc.get (.tipCount c)).getD 0).toNat = tips.length) ∧
      ∀ key tips, ⟨key, tips⟩ ∈ s.tipHistory.entries → ∀ (tip : TipMetadata) (i : Nat),
        tips[i]? = some tip →
          ((Address.parse key).bind fun c => rpc.get (.tipHistory c (UInt64.ofNat i))) =
            some tip := by
  simp only [verifyTipHistory, List.flatMap_eq_nil_iff, Sigma.forall, List.append_eq_nil_iff,
    Prod.forall, List.mk_mem_zipIdx_iff_getElem?, checkRecord_eq_nil, ne_eq,
    reduceCtorEq, imp_false, not_not, decide_not, Bool.not_eq_false', decide_eq_true_eq,
    exists_eq_right, ite_not, ite_eq_left_iff]
  exact ⟨fun h => ⟨fun k t ht => (h k t ht).1, fun k t ht => (h k t ht).2⟩,
    fun h k t ht => ⟨h.1 k t ht, h.2 k t ht⟩⟩

/-- Of an aggregate the amount and the count are compared, of the bucket that the key names; a key
that names none is read as bucket 0. -/
theorem verifyTipperAggregates_eq_nil :
    verifyTipperAggregates rpc s = [] ↔
      ∀ a rest v, ⟨joinKey a rest, v⟩ ∈ s.tipperAggregates.entries →
        ∃ e, rpc.get (.tipperAggregate a ((parseU32 rest).getD 0)) = some e ∧
          e.totalAmount = v.totalAmount ∧ e.tipCount = v.tipCount := by
  refine forSplitKeys_eq_nil ?_ ?_
  · intro a rest v
    simp [checkRecord_eq_nil]
  · intro key v c hkey
    simp only [hkey]

theorem verifyCreatorAggregates_eq_nil :
    verifyCreatorAggregates rpc s = [] ↔
      ∀ a rest v, ⟨joinKey a rest, v⟩ ∈ s.creatorAggregates.entries →
        ∃ e, rpc.get (.creatorAggregate a ((parseU32 rest).getD 0)) = some e ∧
          e.totalAmount = v.totalAmount ∧ e.tipCount = v.tipCount := by
  refine forSplitKeys_eq_nil ?_ ?_
  · intro a rest v
    simp [checkRecord_eq_nil]
  · intro key v c hkey
    simp only [hkey]

/-- Of a subscription the amount and the interval are compared. The status and the two times of
payment are not. -/
theorem verifySubscriptions_eq_nil :
    verifySubscriptions rpc s = [] ↔
      ∀ a rest v, ⟨joinKey a rest, v⟩ ∈ s.subscriptions.entries →
        ∃ c r, Address.parse rest = some c ∧ rpc.get (.subscription a c) = some r ∧
          r.val.amount = v.amount ∧ r.val.intervalSeconds = v.intervalSeconds := by
  refine forSplitKeys_eq_nil ?_ ?_
  · intro a rest v
    simp only [splitKey_joinKey, checkRecord_eq_nil, Option.bind_eq_some_iff,
      Option.map_eq_some_iff, decide_eq_false_iff_not, not_or, not_not, ne_eq]
    constructor
    · rintro ⟨_, ⟨c, hc, r, hr, rfl⟩, hsame⟩
      exact ⟨c, r, hc, hr, hsame⟩
    · rintro ⟨c, r, hc, hr, hsame⟩
      exact ⟨_, ⟨c, hc, r, hr, rfl⟩, hsame⟩
  · intro key v c hkey
    simp only [hkey]

/-- Of a lock the amount and whether it is cancelled are compared. -/
theorem verifyTimeLocks_eq_nil :
    verifyTimeLocks rpc s = [] ↔
      ∀ lock ∈ s.timeLocks, ∃ r, rpc.get (.timeLock lock.lockId) = some r ∧
        r.val.amount = lock.amount ∧ r.val.cancelled = lock.cancelled := by
  simp only [verifyTimeLocks, List.flatMap_eq_nil_iff, checkRecord_eq_nil, exists_map_val]
  simp

/-- Of a milestone the two amounts and whether it is completed are compared. -/
theorem verifyMilestones_eq_nil :
    verifyMilestones rpc s = [] ↔
      ∀ c rest v, ⟨joinKey c rest, v⟩ ∈ s.milestones.entries →
        ∃ id r, idOfText rest = some id ∧ rpc.get (.milestone c id) = some r ∧
          r.val.goalAmount = v.goalAmount ∧ r.val.currentAmount = v.currentAmount ∧
          r.val.completed = v.completed := by
  refine forSplitKeys_eq_nil ?_ ?_
  · intro a rest v
    simp only [splitKey_joinKey, checkRecord_eq_nil, Option.bind_eq_some_iff,
      Option.map_eq_some_iff, decide_eq_false_iff_not, not_or, not_not, ne_eq]
    constructor
    · rintro ⟨_, ⟨id, hid, r, hr, rfl⟩, hsame⟩
      exact ⟨id, r, hid, hr, hsame⟩
    · rintro ⟨id, r, hid, hr, hsame⟩
      exact ⟨_, ⟨id, hid, r, hr, rfl⟩, hsame⟩
  · intro key v c hkey
    simp only [hkey]

/-- Of a matching program the two amounts and whether it is active are compared. -/
theorem verifyMatchingPrograms_eq_nil :
    verifyMatchingPrograms rpc s = [] ↔
      ∀ prog ∈ s.matchingPrograms, ∃ r, rpc.get (.matchingProgram prog.id) = some r ∧
        r.val.maxMatchAmount = prog.maxMatchAmount ∧
        r.val.currentMatched = prog.currentMatched ∧ r.val.active = prog.active := by
  simp only [verifyMatchingPrograms, List.flatMap_eq_nil_iff, checkRecord_eq_nil, exists_map_val]
  simp

/-- Of a tip record the amount and whether it was refunded are compared. -/
theorem verifyTipRecords_eq_nil :
    verifyTipRecords rpc s = [] ↔
      ∀ rec ∈ s.tipRecords, ∃ r, rpc.get (.tipRecord rec.id) = some r ∧
        r.val.amount = rec.amount ∧ r.val.refunded = rec.refunded := by
  simp only [verifyTipRecords, List.flatMap_eq_nil_iff, checkRecord_eq_nil, exists_map_val]
  simp

/-- A role that is not there is compared as the empty text. -/
theorem verifyUserRoles_eq_nil :
    verifyUserRoles rpc s = [] ↔
      ∀ key role, ⟨key, role⟩ ∈ s.userRoles.entries →
        ((Address.parse key).bind fun a => rpc.get (.userRole a)).getD "" = role := by
  simp [verifyUserRoles, List.flatMap_eq_nil_iff, Sigma.forall]

/-- The verification passes exactly when every comparison it makes comes out equal. -/
theorem verifyMigration_eq_nil_iff : verifyMigration rpc s = [] ↔ Checked rpc s := by
  simp only [verifyMigration, List.append_eq_nil_iff, and_assoc, verifyInstance_eq_nil,
    verifyTokens_eq_nil, verifyCreatorBalances_eq_nil, verifyCreatorTotals_eq_nil,
    verifyTipHistory_eq_nil, verifyTipperAggregates_eq_nil, verifyCreatorAggregates_eq_nil,
    verifySubscriptions_eq_nil, verifyTimeLocks_eq_nil, verifyMilestones_eq_nil,
    verifyMatchingPrograms_eq_nil, verifyTipRecords_eq_nil, verifyUserRoles_eq_nil]
  constructor
  · rintro ⟨h₁, h₂, h₃, h₄, h₅, h₆, h₇, h₈, h₉, h₁₀, h₁₁, h₁₂, h₁₃, h₁₄, h₁₅, h₁₆, h₁₇, h₁₈, h₁₉,
      h₂₀⟩
    exact ⟨h₁, h₂, h₃, h₄, h₅, h₆, h₇, h₈, h₉, h₁₀, h₁₁, h₁₂, h₁₃, h₁₄, h₁₅, h₁₆, h₁₇, h₁₈, h₁₉,
      h₂₀⟩
  · intro h
    exact ⟨h.admin, h.feeBasisPoints, h.refundWindow, h.paused, h.tipCounter, h.matchingCounter,
      h.contractVersion, h.whitelistedTokens, h.creatorBalances, h.creatorTotals, h.tipCounts,
      h.tips, h.tipperAggregates, h.creatorAggregates, h.subscriptions, h.timeLocks, h.milestones,
      h.matchingPrograms, h.tipRecords, h.userRoles⟩

end Verify

/-! ## Agreement of a target with a snapshot

The agreement is what a report that has passed promises. `Unseen` is the part of it that `Checked`
does not cover; what one of its conditions says is conditional on a read that answered nothing, or
about a field that is not compared. -/

/-- Every value of the snapshot is the target's, with the defaults of an export for the instance
values, and every record is stored as it stands there. -/
structure Agrees (S : Target) (s : StateSnapshot) : Prop where
  admin : S.get .admin = some s.admin
  feeBasisPoints : (S.get .feeBasisPoints).getD 0 = s.feeBasisPoints
  refundWindow : (S.get .refundWindow).getD 0 = s.refundWindowSeconds
  paused : S.paused = s.paused
  pauseReason : S.pauseReason = s.pauseReason
  tipCounter : (S.get .tipCounter).getD 0 = s.tipCounter
  matchingCounter : (S.get .matchingCounter).getD 0 = s.matchingCounter
  currentFeeBps : (S.get .currentFeeBps).getD 100 = s.currentFeeBps
  contractVersion : (S.get .contractVersion).getD 0 = s.schemaVersion
  whitelistedTokens : ∀ token, token ∈ s.whitelistedTokens ↔
    ∃ t, S.get (.tokenWhitelist t) = some true ∧ token = t.text
  creatorBalances : ∀ key v, ⟨key, v⟩ ∈ s.creatorBalances.entries →
    ∃ c t, key = joinKey c t.text ∧ S.get (.creatorBalance c t) = some v
  creatorTotals : ∀ key v, ⟨key, v⟩ ∈ s.creatorTotals.entries →
    ∃ c t, key = joinKey c t.text ∧ S.get (.creatorTotal c t) = some v
  tipHistory : ∀ key tips, ⟨key, tips⟩ ∈ s.tipHistory.entries →
    ∃ c : Address, key = c.text ∧ (S.tipCount c).toNat = tips.length ∧
      ∀ (tip : TipMetadata) (i : Nat), tips[i]? = some tip →
        S.get (.tipHistory c (UInt64.ofNat i)) = some tip
  tipperAggregates : ∀ key v, ⟨key, v⟩ ∈ s.tipperAggregates.entries →
    ∃ (a : Address) (bucket : UInt32), key = joinKey a (toString bucket) ∧
      S.get (.tipperAggregate a bucket) = some v
  creatorAggregates : ∀ key v, ⟨key, v⟩ ∈ s.creatorAggregates.entries →
    ∃ (a : Address) (bucket : UInt32), key = joinKey a (toString bucket) ∧
      S.get (.creatorAggregate a bucket) = some v
  subscriptions : ∀ key v, ⟨key, v⟩ ∈ s.subscriptions.entries →
    ∃ a c r, key = joinKey a c.text ∧ S.get (.subscription a c) = some r ∧ r.val = v
  timeLocks : ∀ lock ∈ s.timeLocks, S.get (.timeLock lock.lockId) = some ⟨lock, rfl⟩
  milestones : ∀ key v, ⟨key, v⟩ ∈ s.milestones.entries →
    ∃ c id r, key = joinKey c (toString id) ∧ S.get (.milestone c id) = some r ∧ r.val = v
  matchingPrograms : ∀ prog ∈ s.matchingPrograms,
    S.get (.matchingProgram prog.id) = some ⟨prog, rfl⟩
  tipRecords : ∀ rec ∈ s.tipRecords, S.get (.tipRecord rec.id) = some ⟨rec, rfl⟩
  lockedTips : ∀ lt ∈ s.lockedTips, ∃ c r, S.get (.lockedTip c lt.tipId) = some r ∧ r.val = lt
  userRoles : ∀ key role, ⟨key, role⟩ ∈ s.userRoles.entries →
    ∃ a, key = a.text ∧ S.get (.userRole a) = some role

/-- What no comparison of the verification establishes: the values it does not read, the values
behind a read that answers nothing, the fields of a record that it leaves out, the locked tips,
tokens that only the target lists, and the shapes of keys. -/
structure Unseen (S : Target) (rpc : Reads) (s : StateSnapshot) : Prop where
  admin : rpc.admin.toOption = none → S.get .admin = some s.admin
  feeBasisPoints : rpc.get .feeBasisPoints = none →
    (S.get .feeBasisPoints).getD 0 = s.feeBasisPoints
  refundWindow : rpc.get .refundWindow = none →
    (S.get .refundWindow).getD 0 = s.refundWindowSeconds
  paused : rpc.paused = none → S.paused = s.paused
  pauseReason : S.pauseReason = s.pauseReason
  tipCounter : rpc.get .tipCounter = none → (S.get .tipCounter).getD 0 = s.tipCounter
  matchingCounter : rpc.get .matchingCounter = none →
    (S.get .matchingCounter).getD 0 = s.matchingCounter
  currentFeeBps : (S.get .currentFeeBps).getD 100 = s.currentFeeBps
  contractVersion : rpc.get .contractVersion = none →
    (S.get .contractVersion).getD 0 = s.schemaVersion
  whitelistedTokens : ∀ t, S.get (.tokenWhitelist t) = some true → t.text ∈ s.whitelistedTokens
  creatorBalances : ∀ key v, ⟨key, v⟩ ∈ s.creatorBalances.entries →
    ∃ c t, key = joinKey c t.text ∧
      (rpc.get (.creatorBalance c t) = none → S.get (.creatorBalance c t) = some v)
  creatorTotals : ∀ key v, ⟨key, v⟩ ∈ s.creatorTotals.entries →
    ∃ c t, key = joinKey c t.text ∧
      (rpc.get (.creatorTotal c t) = none → S.get (.creatorTotal c t) = some v)
  tipHistory : ∀ key tips, ⟨key, tips⟩ ∈ s.tipHistory.entries →
    ∃ c : Address, key = c.text ∧
      (rpc.get (.tipCount c) = none → (S.tipCount c).toNat = tips.length)
  tipperAggregates : ∀ key v, ⟨key, v⟩ ∈ s.tipperAggregates.entries →
    ∃ (a : Address) (bucket : UInt32), key = joinKey a (toString bucket) ∧
      ∀ e, S.get (.tipperAggregate a bucket) = some e →
        e = { v with totalAmount := e.totalAmount, tipCount := e.tipCount }
  creatorAggregates : ∀ key v, ⟨key, v⟩ ∈ s.creatorAggregates.entries →
    ∃ (a : Address) (bucket : UInt32), key = joinKey a (toString bucket) ∧
      ∀ e, S.get (.creatorAggregate a bucket) = some e →
        e = { v with totalAmount := e.totalAmount, tipCount := e.tipCount }
  subscriptions : ∀ key v, ⟨key, v⟩ ∈ s.subscriptions.entries →
    ∃ a c : Address, key = joinKey a c.text ∧ ∀ r, S.get (.subscription a c) = some r →
      r.val = { v with amount := r.val.amount, intervalSeconds := r.val.intervalSeconds }
  timeLocks : ∀ lock ∈ s.timeLocks, ∀ r, S.get (.timeLock lock.lockId) = some r →
    r.val = { lock with amount := r.val.amount, cancelled := r.val.cancelled }
  milestones : ∀ key v, ⟨key, v⟩ ∈ s.milestones.entries →
    ∃ (c : Address) (id : UInt64), key = joinKey c (toString id) ∧
      ∀ r, S.get (.milestone c id) = some r →
        r.val = { v with
          goalAmount := r.val.goalAmount
          currentAmount := r.val.currentAmount
          completed := r.val.completed }
  matchingPrograms : ∀ prog ∈ s.matchingPrograms, ∀ r,
    S.get (.matchingProgram prog.id) = some r →
      r.val = { prog with
        maxMatchAmount := r.val.maxMatchAmount
        currentMatched := r.val.currentMatched
        active := r.val.active }
  tipRecords : ∀ rec ∈ s.tipRecords, ∀ r, S.get (.tipRecord rec.id) = some r →
    r.val = { rec with amount := r.val.amount, refunded := r.val.refunded }
  lockedTips : ∀ lt ∈ s.lockedTips, ∃ c r, S.get (.lockedTip c lt.tipId) = some r ∧ r.val = lt
  userRoles : ∀ key role, ⟨key, role⟩ ∈ s.userRoles.entries →
    ∃ a : Address, key = a.text ∧
      (rpc.get (.userRole a) = none → S.get (.userRole a) = some role)

/-- Whatever the reads answer is what the target has. -/
structure Truthful (rpc : Reads) (S : Target) : Prop where
  get : ∀ k v, rpc.get k = some v → S.get k = some v
  admin : ∀ a, rpc.admin.toOption = some a → S.get .admin = some a
  paused : ∀ p, rpc.paused = some p → S.paused = p
  whitelistedTokens : ∀ t ∈ rpc.whitelistedTokens.toOption.getD [],
    S.get (.tokenWhitelist t) = some true

/-! ## From comparisons to agreement

One direction needs that the reads tell the truth, which they do whatever fails; the other that none
fails. -/

/-- The ids and buckets that an export prints into a key are read back from it. -/
theorem idOfText_toString (id : UInt64) : idOfText (toString id) = some id := by
  have hdigits : parseDigits (toString id).toList = some id.toNat := by
    show parseDigits id.toNat.repr.toList = some id.toNat
    rw [Nat.toList_repr, parseDigits_toDigits]
  rw [idOfText, hdigits]
  simp

theorem parseU32_toString (n : UInt32) : parseU32 (toString n) = some n := by
  have hlist : (toString n).toList = Nat.toDigits 10 n.toNat := Nat.toList_repr
  have hlt : n.toNat < 4294967296 := n.toNat_lt
  simp only [parseU32]
  split
  · -- a digit is no sign
    next digits hplus =>
    rw [hlist] at hplus
    have hmem : '+' ∈ Nat.toDigits 10 n.toNat := by rw [hplus]; exact List.mem_cons_self
    exact absurd (isDigit_toDigits hmem) (by decide)
  · rw [hlist, parseDigits_toDigits, Option.bind_some, if_pos hlt, UInt32.ofNat_toNat]

/-- A compared answer, where it is one and where it stands for the default. -/
theorem getD_of_compared {α : Type} {answer stored : Option α} {default expected : α}
    (htrue : ∀ v, answer = some v → stored = some v) (hsame : answer.getD default = expected)
    (hnone : answer = none → stored.getD default = expected) : stored.getD default = expected := by
  cases h : answer with
  | none => exact hnone h
  | some v =>
    rw [htrue v h]
    rwa [h] at hsame

/-- The same for a value that has to be stored, not only to be read as the default. -/
theorem eq_some_of_compared {α : Type} {answer stored : Option α} {default expected : α}
    (htrue : ∀ v, answer = some v → stored = some v) (hsame : answer.getD default = expected)
    (hnone : answer = none → stored = some expected) : stored = some expected := by
  cases h : answer with
  | none => exact hnone h
  | some v =>
    rw [h] at hsame
    rw [htrue v h]
    exact congrArg some hsame

section Agreement
variable {S : Target} {rpc : Reads} {s : StateSnapshot}

/-- What the comparisons establish and what they leave open come to agreement, field by field: the
answer of a read is what is stored, so a comparison that came out equal fixes the compared fields,
and `Unseen` the others. -/
theorem agrees_of_checked (ht : Truthful rpc S) (hc : Checked rpc s) (hu : Unseen S rpc s) :
    Agrees S s where
  admin := eq_some_of_compared ht.admin hc.admin hu.admin
  feeBasisPoints := getD_of_compared (ht.get _) hc.feeBasisPoints hu.feeBasisPoints
  refundWindow := getD_of_compared (ht.get _) hc.refundWindow hu.refundWindow
  paused := by
    cases h : rpc.paused with
    | none => exact hu.paused h
    | some p =>
      rw [ht.paused p h, ← hc.paused, h]
      rfl
  pauseReason := hu.pauseReason
  tipCounter := getD_of_compared (ht.get _) hc.tipCounter hu.tipCounter
  matchingCounter := getD_of_compared (ht.get _) hc.matchingCounter hu.matchingCounter
  currentFeeBps := hu.currentFeeBps
  contractVersion := getD_of_compared (ht.get _) hc.contractVersion hu.contractVersion
  whitelistedTokens token := by
    constructor
    · intro hmem
      obtain ⟨t, hlisted, rfl⟩ := List.mem_map.mp (hc.whitelistedTokens token hmem)
      exact ⟨t, ht.whitelistedTokens t hlisted, rfl⟩
    · rintro ⟨t, hlisted, rfl⟩
      exact hu.whitelistedTokens t hlisted
  creatorBalances key v hmem := by
    obtain ⟨c, t, rfl, hnone⟩ := hu.creatorBalances key v hmem
    have hsame := hc.creatorBalances c t.text v hmem
    rw [Address.parse_text, Option.bind_some] at hsame
    exact ⟨c, t, rfl, eq_some_of_compared (ht.get _) hsame hnone⟩
  creatorTotals key v hmem := by
    obtain ⟨c, t, rfl, hnone⟩ := hu.creatorTotals key v hmem
    have hsame := hc.creatorTotals c t.text v hmem
    rw [Address.parse_text, Option.bind_some] at hsame
    exact ⟨c, t, rfl, eq_some_of_compared (ht.get _) hsame hnone⟩
  tipHistory key tips hmem := by
    obtain ⟨c, rfl, hnone⟩ := hu.tipHistory key tips hmem
    have hcount := hc.tipCounts _ _ hmem
    have htips := hc.tips _ _ hmem
    simp only [Address.parse_text, Option.bind_some] at hcount htips
    refine ⟨c, rfl, ?_, fun tip i hi => ht.get _ _ (htips tip i hi)⟩
    -- a count that is not answered was compared as 0
    cases h : rpc.get (.tipCount c) with
    | none => exact hnone h
    | some n =>
      rw [h] at hcount
      rw [Target.tipCount, ht.get _ n h]
      exact hcount
  tipperAggregates key v hmem := by
    -- the name of the entry is not compared
    obtain ⟨a, bucket, rfl, hrest⟩ := hu.tipperAggregates key v hmem
    obtain ⟨e, he, hamount, hcount⟩ := hc.tipperAggregates a _ v hmem
    rw [parseU32_toString, Option.getD_some] at he
    have hstored := ht.get (.tipperAggregate a bucket) e he
    have hval : e = v := by rw [hrest e hstored, hamount, hcount]
    exact ⟨a, bucket, rfl, hval ▸ hstored⟩
  creatorAggregates key v hmem := by
    obtain ⟨a, bucket, rfl, hrest⟩ := hu.creatorAggregates key v hmem
    obtain ⟨e, he, hamount, hcount⟩ := hc.creatorAggregates a _ v hmem
    rw [parseU32_toString, Option.getD_some] at he
    have hstored := ht.get (.creatorAggregate a bucket) e he
    have hval : e = v := by rw [hrest e hstored, hamount, hcount]
    exact ⟨a, bucket, rfl, hval ▸ hstored⟩
  subscriptions key v hmem := by
    -- the key is known to be of two addresses, so the verification parsed the same creator
    obtain ⟨a, c, rfl, hrest⟩ := hu.subscriptions key v hmem
    obtain ⟨c', r, hc', hr, hamount, hinterval⟩ := hc.subscriptions a _ v hmem
    obtain rfl : c = c' := Option.some.inj ((Address.parse_text c).symm.trans hc')
    have hstored := ht.get _ r hr
    refine ⟨a, c, r, rfl, hstored, ?_⟩
    rw [hrest r hstored, hamount, hinterval]
  timeLocks lock hmem := by
    obtain ⟨r, hr, hamount, hcancelled⟩ := hc.timeLocks lock hmem
    have hstored := ht.get _ r hr
    have hval : r.val = lock := by rw [hu.timeLocks lock hmem r hstored, hamount, hcancelled]
    rw [hstored]
    exact congrArg some (Subtype.ext hval)
  milestones key v hmem := by
    obtain ⟨c, id, rfl, hrest⟩ := hu.milestones key v hmem
    obtain ⟨id', r, hid, hr, hgoal, hcurrent, hcompleted⟩ := hc.milestones c _ v hmem
    rw [idOfText_toString] at hid
    obtain rfl := Option.some.inj hid
    have hstored := ht.get _ r hr
    refine ⟨c, id, r, rfl, hstored, ?_⟩
    rw [hrest r hstored, hgoal, hcurrent, hcompleted]
  matchingPrograms prog hmem := by
    obtain ⟨r, hr, hmax, hmatched, hactive⟩ := hc.matchingPrograms prog hmem
    have hstored := ht.get _ r hr
    have hval : r.val = prog := by
      rw [hu.matchingPrograms prog hmem r hstored, hmax, hmatched, hactive]
    rw [hstored]
    exact congrArg some (Subtype.ext hval)
  tipRecords rec hmem := by
    obtain ⟨r, hr, hamount, hrefunded⟩ := hc.tipRecords rec hmem
    have hstored := ht.get _ r hr
    have hval : r.val = rec := by rw [hu.tipRecords rec hmem r hstored, hamount, hrefunded]
    rw [hstored]
    exact congrArg some (Subtype.ext hval)
  lockedTips := hu.lockedTips
  userRoles key role hmem := by
    obtain ⟨a, rfl, hnone⟩ := hu.userRoles key role hmem
    have hsame := hc.userRoles _ _ hmem
    rw [Address.parse_text, Option.bind_some] at hsame
    exact ⟨a, rfl, eq_some_of_compared (ht.get _) hsame hnone⟩

/-- What agrees leaves nothing open. -/
theorem unseen_of_agrees (h : Agrees S s) : Unseen S rpc s where
  admin _ := h.admin
  feeBasisPoints _ := h.feeBasisPoints
  refundWindow _ := h.refundWindow
  paused _ := h.paused
  pauseReason := h.pauseReason
  tipCounter _ := h.tipCounter
  matchingCounter _ := h.matchingCounter
  currentFeeBps := h.currentFeeBps
  contractVersion _ := h.contractVersion
  whitelistedTokens t hlisted := (h.whitelistedTokens t.text).mpr ⟨t, hlisted, rfl⟩
  creatorBalances key v hmem := by
    obtain ⟨c, t, hkey, hget⟩ := h.creatorBalances key v hmem
    exact ⟨c, t, hkey, fun _ => hget⟩
  creatorTotals key v hmem := by
    obtain ⟨c, t, hkey, hget⟩ := h.creatorTotals key v hmem
    exact ⟨c, t, hkey, fun _ => hget⟩
  tipHistory key tips hmem := by
    obtain ⟨c, hkey, hcount, -⟩ := h.tipHistory key tips hmem
    exact ⟨c, hkey, fun _ => hcount⟩
  tipperAggregates key v hmem := by
    obtain ⟨a, bucket, hkey, hget⟩ := h.tipperAggregates key v hmem
    refine ⟨a, bucket, hkey, fun e he => ?_⟩
    obtain rfl := Option.some.inj (hget.symm.trans he)
    rfl
  creatorAggregates key v hmem := by
    obtain ⟨a, bucket, hkey, hget⟩ := h.creatorAggregates key v hmem
    refine ⟨a, bucket, hkey, fun e he => ?_⟩
    obtain rfl := Option.some.inj (hget.symm.trans he)
    rfl
  subscriptions key v hmem := by
    obtain ⟨a, c, r, hkey, hget, rfl⟩ := h.subscriptions key v hmem
    refine ⟨a, c, hkey, fun r' hr' => ?_⟩
    obtain rfl := Option.some.inj (hget.symm.trans hr')
    rfl
  timeLocks lock hmem r hr := by
    obtain rfl := Option.some.inj ((h.timeLocks lock hmem).symm.trans hr)
    rfl
  milestones key v hmem := by
    obtain ⟨c, id, r, hkey, hget, rfl⟩ := h.milestones key v hmem
    refine ⟨c, id, hkey, fun r' hr' => ?_⟩
    obtain rfl := Option.some.inj (hget.symm.trans hr')
    rfl
  matchingPrograms prog hmem r hr := by
    obtain rfl := Option.some.inj ((h.matchingPrograms prog hmem).symm.trans hr)
    rfl
  tipRecords rec hmem r hr := by
    obtain rfl := Option.some.inj ((h.tipRecords rec hmem).symm.trans hr)
    rfl
  lockedTips := h.lockedTips
  userRoles key role hmem := by
    obtain ⟨a, hkey, hget⟩ := h.userRoles key role hmem
    exact ⟨a, hkey, fun _ => hget⟩

variable {listing : List Key} {ledger : UInt32} {noAdmin : String} {faults : Faults}

/-- A read either fails or answers what is stored, whichever reads fail. -/
theorem truthful_withFaults (hlist : Lists listing S) :
    Truthful ((S.reads listing ledger noAdmin).withFaults faults) S where
  get k v h := by
    simp only [Reads.withFaults, Failure.orNothing] at h
    split at h
    · cases h
    · exact h
  admin a h := by
    simp only [Reads.withFaults, Failure.passedOn] at h
    split at h
    · cases h
    · simp only [Target.reads] at h
      split at h
      · next hget => rw [hget, ← h]; rfl
      · cases h
  paused p h := by
    simp only [Reads.withFaults, Failure.orNothing] at h
    split at h
    · cases h
    · exact Option.some.inj h
  whitelistedTokens t h := by
    simp only [Reads.withFaults, Failure.passedOn] at h
    split at h
    · cases h
    · exact (mem_whitelistedTokens hlist).mp h

/-- Every comparison with a target that agrees comes out equal, when every read answers. -/
theorem checked_of_agrees (hlist : Lists listing S) (h : Agrees S s) :
    Checked (S.reads listing ledger noAdmin) s where
  admin := by
    simp only [Target.reads, h.admin]
    rfl
  feeBasisPoints := h.feeBasisPoints
  refundWindow := h.refundWindow
  paused := h.paused
  tipCounter := h.tipCounter
  matchingCounter := h.matchingCounter
  contractVersion := h.contractVersion
  whitelistedTokens token hmem := by
    obtain ⟨t, hlisted, rfl⟩ := (h.whitelistedTokens token).mp hmem
    exact List.mem_map.mpr ⟨t, (mem_whitelistedTokens hlist).mpr hlisted, rfl⟩
  creatorBalances c rest v hmem := by
    obtain ⟨c', t, hkey, hget⟩ := h.creatorBalances _ v hmem
    obtain ⟨rfl, rfl⟩ := joinKey_inj.mp hkey
    simp only [Address.parse_text, Option.bind_some, Target.reads, hget, Option.getD_some]
  creatorTotals c rest v hmem := by
    obtain ⟨c', t, hkey, hget⟩ := h.creatorTotals _ v hmem
    obtain ⟨rfl, rfl⟩ := joinKey_inj.mp hkey
    simp only [Address.parse_text, Option.bind_some, Target.reads, hget, Option.getD_some]
  tipCounts key tips hmem := by
    obtain ⟨c, rfl, hcount, -⟩ := h.tipHistory key tips hmem
    rw [Address.parse_text, Option.bind_some]
    exact hcount
  tips key tips hmem tip i hi := by
    obtain ⟨c, rfl, -, htips⟩ := h.tipHistory key tips hmem
    rw [Address.parse_text, Option.bind_some]
    exact htips tip i hi
  tipperAggregates a rest v hmem := by
    obtain ⟨a', bucket, hkey, hget⟩ := h.tipperAggregates _ v hmem
    obtain ⟨rfl, rfl⟩ := joinKey_inj.mp hkey
    rw [parseU32_toString, Option.getD_some]
    exact ⟨v, hget, rfl, rfl⟩
  creatorAggregates a rest v hmem := by
    obtain ⟨a', bucket, hkey, hget⟩ := h.creatorAggregates _ v hmem
    obtain ⟨rfl, rfl⟩ := joinKey_inj.mp hkey
    rw [parseU32_toString, Option.getD_some]
    exact ⟨v, hget, rfl, rfl⟩
  subscriptions a rest v hmem := by
    obtain ⟨a', c, r, hkey, hget, rfl⟩ := h.subscriptions _ v hmem
    obtain ⟨rfl, rfl⟩ := joinKey_inj.mp hkey
    exact ⟨c, r, Address.parse_text c, hget, rfl, rfl⟩
  timeLocks lock hmem := ⟨_, h.timeLocks lock hmem, rfl, rfl⟩
  milestones c rest v hmem := by
    obtain ⟨c', id, r, hkey, hget, rfl⟩ := h.milestones _ v hmem
    obtain ⟨rfl, rfl⟩ := joinKey_inj.mp hkey
    exact ⟨id, r, idOfText_toString id, hget, rfl, rfl, rfl⟩
  matchingPrograms prog hmem := ⟨_, h.matchingPrograms prog hmem, rfl, rfl, rfl⟩
  tipRecords rec hmem := ⟨_, h.tipRecords rec hmem, rfl, rfl⟩
  userRoles key role hmem := by
    obtain ⟨a, rfl, hget⟩ := h.userRoles key role hmem
    simp only [Address.parse_text, Option.bind_some, Target.reads, hget, Option.getD_some]

end Agreement

/-! ## Soundness -/

/-- A verification that passes says that the target agrees with the snapshot, and without a failing
read one of a target that agrees passes. -/
def Verifies (S : Target) (rpc : Reads) (faults : Faults) (s : StateSnapshot) : Prop :=
  (verifyMigration (rpc.withFaults faults) s = [] → Agrees S s) ∧
    ((∀ r, faults r = none) → Agrees S s → verifyMigration (rpc.withFaults faults) s = [])

/-- Without a failure the reads are those of the target. -/
theorem withFaults_none {rpc : Reads} {faults : Faults} (h : ∀ r, faults r = none) :
    rpc.withFaults faults = rpc := by
  simp only [Reads.withFaults, h, Failure.passedOn, Failure.orNothing, Failure.orDefault]

/-- The verification of a snapshot against a target can be relied on exactly when one of the
comparisons comes out different or everything that no comparison establishes agrees. -/
theorem verification_sound_iff (S : Target) (listing : List Key) (ledger : UInt32)
    (noAdmin : String) (faults : Faults) (s : StateSnapshot) (hlist : Lists listing S) :
    Verifies S (S.reads listing ledger noAdmin) faults s ↔
      ¬ Checked ((S.reads listing ledger noAdmin).withFaults faults) s ∨
        Unseen S ((S.reads listing ledger noAdmin).withFaults faults) s := by
  constructor
  · rintro ⟨hsound, -⟩
    by_cases hchecked : Checked ((S.reads listing ledger noAdmin).withFaults faults) s
    · exact .inr (unseen_of_agrees (hsound (verifyMigration_eq_nil_iff.mpr hchecked)))
    · exact .inl hchecked
  · intro hcase
    refine ⟨?_, ?_⟩
    · intro hclean
      have hchecked := verifyMigration_eq_nil_iff.mp hclean
      obtain hnot | hunseen := hcase
      · exact absurd hchecked hnot
      · exact agrees_of_checked (truthful_withFaults hlist) hchecked hunseen
    · intro hnone hagrees
      rw [withFaults_none hnone]
      exact verifyMigration_eq_nil_iff.mpr (checked_of_agrees hlist hagrees)

section Sample

/-- What an export of `sampleTarget` would hold. -/
def agreeingSnapshot : StateSnapshot :=
  { sampleSnapshot with
    feeBasisPoints := 50
    schemaVersion := 1
    creatorBalances := .collect [("alice:xlm", 5)]
    creatorTotals := ∅ }

/-- The target has all that the snapshot has. -/
theorem sample_agrees : Agrees sampleTarget agreeingSnapshot where
  admin := rfl
  feeBasisPoints := rfl
  refundWindow := rfl
  paused := rfl
  pauseReason := rfl
  tipCounter := rfl
  matchingCounter := rfl
  currentFeeBps := rfl
  contractVersion := rfl
  whitelistedTokens token := by
    constructor
    · intro h
      cases h
    · rintro ⟨t, ht, -⟩
      have hmem := (sample_lists (.tokenWhitelist t)).mpr (by rw [ht]; rfl)
      simp [sampleEntries] at hmem
  creatorBalances key v h := by
    have hkey : (⟨key, v⟩ : (_ : String) × I128) = ⟨"alice:xlm", 5⟩ := List.mem_singleton.mp h
    cases hkey
    exact ⟨alice, xlm, rfl, rfl⟩
  creatorTotals _ _ h := absurd h (List.not_mem_nil)
  tipHistory _ _ h := absurd h (List.not_mem_nil)
  tipperAggregates _ _ h := absurd h (List.not_mem_nil)
  creatorAggregates _ _ h := absurd h (List.not_mem_nil)
  subscriptions _ _ h := absurd h (List.not_mem_nil)
  timeLocks _ h := absurd h (List.not_mem_nil)
  milestones _ _ h := absurd h (List.not_mem_nil)
  matchingPrograms _ h := absurd h (List.not_mem_nil)
  tipRecords _ h := absurd h (List.not_mem_nil)
  lockedTips _ h := absurd h (List.not_mem_nil)
  userRoles _ _ h := absurd h (List.not_mem_nil)

theorem verification_sound_iff_sample :
    verifyMigration ((sampleTarget.reads (sampleEntries.map Sigma.fst) 42 "no admin").withFaults
        fun _ => none) agreeingSnapshot = [] ∧
      Verifies sampleTarget (sampleTarget.reads (sampleEntries.map Sigma.fst) 42 "no admin")
        (fun _ => none) agreeingSnapshot := by
  have hverifies := (verification_sound_iff sampleTarget (sampleEntries.map Sigma.fst) 42
    "no admin" (fun _ => none) agreeingSnapshot sample_lists).mpr
    (.inr (unseen_of_agrees sample_agrees))
  exact ⟨hverifies.2 (fun _ => rfl) sample_agrees, hverifies⟩

/-- The locked tip of the snapshot is nowhere in the target, the dynamic fee is another one, and the
report is clean. -/
def corruptSnapshot : StateSnapshot :=
  { agreeingSnapshot with
    currentFeeBps := 250
    lockedTips := [⟨0, "carol", "alice", "xlm", 70, 1800000000⟩] }

theorem clean_report_of_lost_tip :
    verifyMigration ((sampleTarget.reads (sampleEntries.map Sigma.fst) 42 "no admin").withFaults
        fun _ => none) corruptSnapshot = [] ∧
      Lists (sampleEntries.map Sigma.fst) sampleTarget ∧
      sampleTarget.get (.lockedTip alice 0) = none ∧
      sampleTarget.get .currentFeeBps = some 100 ∧
      ¬ Agrees sampleTarget corruptSnapshot ∧
      ¬ Verifies sampleTarget (sampleTarget.reads (sampleEntries.map Sigma.fst) 42 "no admin")
        (fun _ => none) corruptSnapshot := by
  have hnot : ¬ Agrees sampleTarget corruptSnapshot := fun h => absurd h.currentFeeBps (by decide)
  exact ⟨rfl, sample_lists, rfl, rfl, hnot, fun h => hnot (h.1 rfl)⟩

end Sample

end Migrate
