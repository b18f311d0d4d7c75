import StellarTipjar.Migrate.Import

/-!
# Migration toolkit — what a backup holds

An export of a target without a failing read, collection by collection, and the entries that
importing it writes. `restored S k` is the value that the backup of `S` writes under `k`, if it
writes there at all: `mem_entries_iff_restored` says that the calls of the import write exactly
these, in whatever order the maps of the snapshot list their entries.
-/

namespace Migrate

open Lib

/-! ## Keys -/

/-- An address has no colon, so the first colon of a key ends it. -/
theorem joinKey_inj {a b : Address} {s t : String} :
    joinKey a s = joinKey b t ↔ a = b ∧ s = t := by
  constructor
  · intro h
    have hsplit := congrArg splitKey h
    simpa using hsplit
  · rintro ⟨rfl, rfl⟩
    rfl

theorem idText_injective {i j : UInt64} (h : toString i = toString j) : i = j :=
  UInt64.toNat_inj.mp (natText_injective h)

/-! ## Scans -/

/-- A storage scan comes upon the keys that have an entry. -/
def Lists (listing : List Key) (S : Target) : Prop := ∀ k, k ∈ listing ↔ (S.get k).isSome

section Scans
variable {S : Target} {listing : List Key} (hlist : Lists listing S)
include hlist

/-- A scan finds the entries its filter picks, and no others. -/
theorem mem_scan {α : Type} {pick : (k : Key) → k.Val → Option α} {x : α} :
    x ∈ S.scan listing pick ↔ ∃ k v, S.get k = some v ∧ pick k v = some x := by
  simp only [Target.scan, List.mem_filterMap, Option.bind_eq_some_iff]
  constructor
  · rintro ⟨k, -, v, hv, hx⟩
    exact ⟨k, v, hv, hx⟩
  · rintro ⟨k, v, hv, hx⟩
    exact ⟨k, (hlist k).mpr (by rw [hv]; rfl), v, hv, hx⟩

/-- A token that was removed keeps its entry, under `false`; it is not listed. -/
theorem mem_whitelistedTokens {t : Address} :
    t ∈ S.whitelistedTokens listing ↔ S.get (.tokenWhitelist t) = some true := by
  rw [Target.whitelistedTokens, mem_scan hlist]
  constructor
  · rintro ⟨k, v, hv, ht⟩
    cases k <;> simp at ht
    obtain ⟨rfl, rfl⟩ := ht
    exact hv
  · intro h
    exact ⟨_, _, h, rfl⟩

theorem mem_scanCreatorBalances {c t : Address} {v : I128} :
    ((c, t), v) ∈ S.scanCreatorBalances listing ↔ S.get (.creatorBalance c t) = some v := by
  rw [Target.scanCreatorBalances, mem_scan hlist]
  constructor
  · rintro ⟨k, v, hv, ht⟩
    cases k <;> simp at ht
    obtain ⟨⟨rfl, rfl⟩, rfl⟩ := ht
    exact hv
  · intro h
    exact ⟨_, _, h, rfl⟩

theorem mem_scanCreatorTotals {c t : Address} {v : I128} :
    ((c, t), v) ∈ S.scanCreatorTotals listing ↔ S.get (.creatorTotal c t) = some v := by
  rw [Target.scanCreatorTotals, mem_scan hlist]
  constructor
  · rintro ⟨k, v, hv, ht⟩
    cases k <;> simp at ht
    obtain ⟨⟨rfl, rfl⟩, rfl⟩ := ht
    exact hv
  · intro h
    exact ⟨_, _, h, rfl⟩

/-- The scan returns the parties only; the record is read afterwards. -/
theorem mem_scanSubscriptions {s c : Address} :
    (s, c) ∈ S.scanSubscriptions listing ↔ (S.get (.subscription s c)).isSome := by
  rw [Target.scanSubscriptions, mem_scan hlist, Option.isSome_iff_exists]
  constructor
  · rintro ⟨k, v, hv, ht⟩
    cases k <;> simp at ht
    obtain ⟨rfl, rfl⟩ := ht
    exact ⟨v, hv⟩
  · rintro ⟨v, hv⟩
    exact ⟨_, v, hv, rfl⟩

theorem mem_scanUserRoles {a : Address} {role : String} :
    (a, role) ∈ S.scanUserRoles listing ↔ S.get (.userRole a) = some role := by
  rw [Target.scanUserRoles, mem_scan hlist]
  constructor
  · rintro ⟨k, v, hv, ht⟩
    cases k <;> simp at ht
    obtain ⟨rfl, rfl⟩ := ht
    exact hv
  · intro h
    exact ⟨_, _, h, rfl⟩

end Scans

/-! ## The exported snapshot -/

namespace Target
variable (S : Target)

/-- The creators an export knows of. -/
def Known (c : Address) : Prop := ∃ t, (S.get (.creatorBalance c t)).isSome

/-- The counters, as the export reads them: a missing one is zero. -/
def tipCount (c : Address) : UInt64 := (S.get (.tipCount c)).getD 0

/-- The tips of a creator below its count, the missing ones left out. -/
def tips (c : Address) : List TipMetadata :=
  (upTo (S.tipCount c)).filterMap fun idx => S.get (.tipHistory c idx)

/-- The addresses on the all-time board of tippers. -/
def tippers : List Address := (S.get (.tipperParticipants bucketAllTime)).getD []

/-- The addresses on the all-time board of creators. -/
def tippedCreators : List Address := (S.get (.creatorParticipants bucketAllTime)).getD []

def nextLockId : UInt64 := (S.get .nextLockId).getD 0

def milestoneCounter (c : Address) : UInt64 := (S.get (.milestoneCounter c)).getD 0

def lockedTipCounter (c : Address) : UInt64 := (S.get (.lockedTipCounter c)).getD 0

def matchingCounter : UInt64 := (S.get .matchingCounter).getD 0

def tipCounter : UInt64 := (S.get .tipCounter).getD 0

/-- The time locks below the counter, the missing ones left out. -/
def timeLocks : List TimeLock :=
  (upTo S.nextLockId).filterMap fun id => (S.get (.timeLock id)).map (·.val)

end Target

/-- `b` holds what an export reads of `S`, whatever the order of its maps. -/
structure Holds (b : StateSnapshot) (S : Target) : Prop where
  admin : S.get .admin = some b.admin
  feeBasisPoints : b.feeBasisPoints = (S.get .feeBasisPoints).getD 0
  refundWindow : b.refundWindowSeconds = (S.get .refundWindow).getD 0
  tipCounter : b.tipCounter = S.tipCounter
  matchingCounter : b.matchingCounter = S.matchingCounter
  currentFeeBps : b.currentFeeBps = (S.get .currentFeeBps).getD 100
  schemaVersion : b.schemaVersion = (S.get .contractVersion).getD 0
  whitelistedTokens : ∀ s, s ∈ b.whitelistedTokens ↔
    ∃ t, S.get (.tokenWhitelist t) = some true ∧ s = t.text
  creatorBalances : ∀ s v, ⟨s, v⟩ ∈ b.creatorBalances.entries ↔
    ∃ c t, S.get (.creatorBalance c t) = some v ∧ s = joinKey c t.text
  creatorTotals : ∀ s v, ⟨s, v⟩ ∈ b.creatorTotals.entries ↔
    ∃ c t, S.get (.creatorTotal c t) = some v ∧ s = joinKey c t.text
  tipHistory : ∀ s tips, ⟨s, tips⟩ ∈ b.tipHistory.entries ↔
    ∃ c, S.Known c ∧ S.tips c = tips ∧ tips ≠ [] ∧ s = c.text
  tipperAggregates : ∀ s v, ⟨s, v⟩ ∈ b.tipperAggregates.entries ↔
    ∃ a ∈ S.tippers, S.get (.tipperAggregate a bucketAllTime) = some v ∧
      s = joinKey a (toString bucketAllTime)
  creatorAggregates : ∀ s v, ⟨s, v⟩ ∈ b.creatorAggregates.entries ↔
    ∃ a ∈ S.tippedCreators, S.get (.creatorAggregate a bucketAllTime) = some v ∧
      s = joinKey a (toString bucketAllTime)
  subscriptions : ∀ s v, ⟨s, v⟩ ∈ b.subscriptions.entries ↔
    ∃ a c r, S.get (.subscription a c) = some r ∧ r.val = v ∧ s = joinKey a c.text
  timeLocks : b.timeLocks = S.timeLocks
  milestones : ∀ s v, ⟨s, v⟩ ∈ b.milestones.entries ↔
    ∃ c id r, (S.Known c ∧ id < S.milestoneCounter c) ∧ S.get (.milestone c id) = some r ∧
      r.val = v ∧ s = joinKey c (toString id)
  matchingPrograms : ∀ v, v ∈ b.matchingPrograms ↔
    ∃ id r, id < S.matchingCounter ∧ S.get (.matchingProgram id) = some r ∧ r.val = v
  tipRecords : ∀ v, v ∈ b.tipRecords ↔
    ∃ id r, id < S.tipCounter ∧ S.get (.tipRecord id) = some r ∧ r.val = v
  lockedTips : ∀ v, v ∈ b.lockedTips ↔
    ∃ c id r, (S.Known c ∧ id < S.lockedTipCounter c) ∧ S.get (.lockedTip c id) = some r ∧
      r.val = v
  userRoles : ∀ s v, ⟨s, v⟩ ∈ b.userRoles.entries ↔
    ∃ a, S.get (.userRole a) = some v ∧ s = a.text

/-- Entries that are told apart by a property of key and value make up the map they are collected
into. -/
theorem mem_collect_of_iff {α : Type} {entries : List (String × α)} {P : String → α → Prop}
    (hP : ∀ s v, (s, v) ∈ entries ↔ P s v) (huniq : ∀ s v v', P s v → P s v' → v = v')
    (s : String) (v : α) : ⟨s, v⟩ ∈ (HashMap.collect entries).entries ↔ P s v := by
  rw [HashMap.mem_collect, hP]
  rintro ⟨s, v⟩ hv ⟨s', v'⟩ hv' rfl
  exact huniq s v v' ((hP s v).mp hv) ((hP s v').mp hv')

/-- The map of balances or of totals. -/
theorem mem_compositeEntries {raw : List ((Address × Address) × I128)}
    {read : Address → Address → Option I128}
    (hraw : ∀ c t v, ((c, t), v) ∈ raw ↔ read c t = some v) (s : String) (v : I128) :
    ⟨s, v⟩ ∈ (HashMap.collect (compositeEntries raw)).entries ↔
      ∃ c t, read c t = some v ∧ s = joinKey c t.text := by
  refine mem_collect_of_iff (P := fun s v => ∃ c t, read c t = some v ∧ s = joinKey c t.text)
    ?_ ?_ s v
  · intro s v
    simp only [compositeEntries, List.mem_map, Prod.exists, hraw, Prod.mk.injEq]
    constructor
    · rintro ⟨c, t, v, hv, rfl, rfl⟩
      exact ⟨c, t, hv, rfl⟩
    · rintro ⟨c, t, hv, rfl⟩
      exact ⟨c, t, v, hv, rfl, rfl⟩
  · rintro s v v' ⟨c, t, hv, rfl⟩ ⟨c', t', hv', hs⟩
    obtain ⟨rfl, ht⟩ := joinKey_inj.mp hs
    obtain rfl := Address.ext ht
    exact Option.some.inj (hv.symm.trans hv')

/-- A map of leaderboard entries. -/
theorem mem_aggregateEntries {addrs : List Address} {read : Address → Option LeaderboardEntry}
    {rest : String} (s : String) (v : LeaderboardEntry) :
    ⟨s, v⟩ ∈ (HashMap.collect (addrs.filterMap fun a =>
        (read a).map fun entry => (joinKey a rest, entry))).entries ↔
      ∃ a ∈ addrs, read a = some v ∧ s = joinKey a rest := by
  refine mem_collect_of_iff (P := fun s v => ∃ a ∈ addrs, read a = some v ∧ s = joinKey a rest)
    ?_ ?_ s v
  · intro s v
    simp only [List.mem_filterMap, Option.map_eq_some_iff, Prod.mk.injEq]
    constructor
    · rintro ⟨a, ha, v, hv, rfl, rfl⟩
      exact ⟨a, ha, hv, rfl⟩
    · rintro ⟨a, ha, hv, rfl⟩
      exact ⟨a, ha, v, hv, rfl, rfl⟩
  · rintro s v v' ⟨a, -, hv, rfl⟩ ⟨a', -, hv', hs⟩
    obtain ⟨rfl, -⟩ := joinKey_inj.mp hs
    exact Option.some.inj (hv.symm.trans hv')

/-- Reading below a counter finds what is stored there and skips the gaps. -/
theorem mem_readRecords {α : Type} {count : UInt64} {read : UInt64 → Option α} {v : α} :
    v ∈ readRecords count read ↔ ∃ id, id < count ∧ read id = some v := by
  simp [readRecords]

/-- The records that are read below a counter, each with the part of it that is exported. -/
theorem mem_readRecords_map {ρ : UInt64 → Type} {α : Type} {count : UInt64}
    {read : ∀ id, Option (ρ id)} {part : ∀ {id}, ρ id → α} {v : α} :
    v ∈ readRecords count (fun id => (read id).map part) ↔
      ∃ id r, id < count ∧ read id = some r ∧ part r = v := by
  simp only [mem_readRecords, Option.map_eq_some_iff]
  constructor
  · rintro ⟨id, hid, r, hr, rfl⟩
    exact ⟨id, r, hid, hr, rfl⟩
  · rintro ⟨id, r, hid, hr, rfl⟩
    exact ⟨id, hid, r, hr, rfl⟩

/-- Two reads that count alike and agree below the count. -/
theorem readRecords_congr {α : Type} {count count' : UInt64} {read read' : UInt64 → Option α}
    (hcount : count' = count) (hread : ∀ id, id < count → read' id = read id) :
    readRecords count' read' = readRecords count read := by
  subst hcount
  exact List.filterMap_congr fun id hid => hread id (mem_upTo.mp hid)

section Collections
variable {S : Target} {listing : List Key} (hlist : Lists listing S)
include hlist

/-- The balance map holds the balances, each under its joined key. -/
theorem mem_exportedBalances (s : String) (v : I128) :
    ⟨s, v⟩ ∈ (HashMap.collect (compositeEntries (S.scanCreatorBalances listing))).entries ↔
      ∃ c t, S.get (.creatorBalance c t) = some v ∧ s = joinKey c t.text :=
  mem_compositeEntries (fun _ _ _ => mem_scanCreatorBalances hlist) s v

/-- The creators of the balance map are the known ones. -/
theorem mem_creators (c : Address) :
    c ∈ creators (.collect (compositeEntries (S.scanCreatorBalances listing))) ↔ S.Known c := by
  rw [creators, List.mem_dedup, List.mem_map]
  constructor
  · rintro ⟨⟨s, v⟩, he, rfl⟩
    obtain ⟨c, t, hv, rfl⟩ := (mem_exportedBalances hlist s v).mp he
    rw [splitKey_joinKey]
    exact ⟨t, by rw [hv]; rfl⟩
  · rintro ⟨t, ht⟩
    obtain ⟨v, hv⟩ := Option.isSome_iff_exists.mp ht
    exact ⟨⟨joinKey c t.text, v⟩, (mem_exportedBalances hlist _ _).mpr ⟨c, t, hv, rfl⟩, by simp⟩

/-- A creator without tips has no entry, and neither has one the balance map does not name. -/
theorem mem_exportTipHistory {rpc : Reads} (hget : rpc.get = S.get)
    (s : String) (tips : List TipMetadata) :
    ⟨s, tips⟩ ∈ (exportTipHistory rpc
        (.collect (compositeEntries (S.scanCreatorBalances listing)))).entries ↔
      ∃ c, S.Known c ∧ S.tips c = tips ∧ tips ≠ [] ∧ s = c.text := by
  refine mem_collect_of_iff
    (P := fun s tips => ∃ c, S.Known c ∧ S.tips c = tips ∧ tips ≠ [] ∧ s = c.text) ?_ ?_ s tips
  · intro s tips
    have hread : ∀ c, readTips rpc c = S.tips c := by
      intro c
      rw [readTips, hget]
      rfl
    simp only [List.mem_filterMap, mem_creators hlist, hread]
    constructor
    · rintro ⟨c, hc, h⟩
      split at h
      · cases h
      · next hne =>
        simp only [Option.some.injEq, Prod.mk.injEq] at h
        obtain ⟨rfl, rfl⟩ := h
        exact ⟨c, hc, rfl, by simpa using hne, rfl⟩
    · rintro ⟨c, hc, rfl, hne, rfl⟩
      exact ⟨c, hc, by simp [hne]⟩
  · rintro s tips tips' ⟨c, -, rfl, -, rfl⟩ ⟨c', -, rfl, -, hc⟩
    rw [Address.ext hc]

/-- Milestones are read for the known creators, below the counter of each. -/
theorem mem_exportMilestones {rpc : Reads} (hget : rpc.get = S.get) (s : String) (v : Milestone) :
    ⟨s, v⟩ ∈ (exportMilestones rpc
        (.collect (compositeEntries (S.scanCreatorBalances listing)))).entries ↔
      ∃ c id r, (S.Known c ∧ id < S.milestoneCounter c) ∧ S.get (.milestone c id) = some r ∧
        r.val = v ∧ s = joinKey c (toString id) := by
  refine mem_collect_of_iff
    (P := fun s v => ∃ c id r, (S.Known c ∧ id < S.milestoneCounter c) ∧
      S.get (.milestone c id) = some r ∧ r.val = v ∧ s = joinKey c (toString id)) ?_ ?_ s v
  · intro s v
    simp only [List.mem_flatMap, mem_creators hlist, mem_readRecords, Option.map_eq_some_iff,
      Prod.mk.injEq, hget]
    constructor
    · rintro ⟨c, hc, id, hid, r, hr, rfl, rfl⟩
      exact ⟨c, id, r, ⟨hc, hid⟩, hr, rfl, rfl⟩
    · rintro ⟨c, id, r, ⟨hc, hid⟩, hr, rfl, rfl⟩
      exact ⟨c, hc, id, hid, r, hr, rfl, rfl⟩
  · rintro s v v' ⟨c, id, r, -, hr, rfl, rfl⟩ ⟨c', id', r', -, hr', rfl, hs⟩
    obtain ⟨rfl, hid⟩ := joinKey_inj.mp hs
    obtain rfl := idText_injective hid
    rw [Option.some.inj (hr.symm.trans hr')]

/-- A listed pair of parties is read back under the same pair. -/
theorem mem_exportedSubscriptions (s : String) (v : Subscription) :
    ⟨s, v⟩ ∈ (HashMap.collect ((S.scanSubscriptions listing).filterMap fun (a, c) =>
        (S.get (.subscription a c)).map fun sub => (joinKey a c.text, sub.val))).entries ↔
      ∃ a c r, S.get (.subscription a c) = some r ∧ r.val = v ∧ s = joinKey a c.text := by
  refine mem_collect_of_iff
    (P := fun s v => ∃ a c r, S.get (.subscription a c) = some r ∧ r.val = v ∧
      s = joinKey a c.text) ?_ ?_ s v
  · intro s v
    simp only [List.mem_filterMap, Prod.exists, mem_scanSubscriptions hlist,
      Option.map_eq_some_iff, Prod.mk.injEq]
    constructor
    · rintro ⟨a, c, -, r, hr, rfl, rfl⟩
      exact ⟨a, c, r, hr, rfl, rfl⟩
    · rintro ⟨a, c, r, hr, rfl, rfl⟩
      exact ⟨a, c, by rw [hr]; rfl, r, hr, rfl, rfl⟩
  · rintro s v v' ⟨a, c, r, hr, rfl, rfl⟩ ⟨a', c', r', hr', rfl, hs⟩
    obtain ⟨rfl, hc⟩ := joinKey_inj.mp hs
    obtain rfl := Address.ext hc
    rw [Option.some.inj (hr.symm.trans hr')]

/-- The scan returns the roles with their holders. -/
theorem mem_exportedUserRoles (s v : String) :
    ⟨s, v⟩ ∈ (HashMap.collect ((S.scanUserRoles listing).map fun (a, role) =>
        (a.text, role))).entries ↔ ∃ a, S.get (.userRole a) = some v ∧ s = a.text := by
  refine mem_collect_of_iff (P := fun s v => ∃ a, S.get (.userRole a) = some v ∧ s = a.text)
    ?_ ?_ s v
  · intro s v
    simp only [List.mem_map, Prod.exists, mem_scanUserRoles hlist, Prod.mk.injEq]
    constructor
    · rintro ⟨a, v, hv, rfl, rfl⟩
      exact ⟨a, hv, rfl⟩
    · rintro ⟨a, hv, rfl⟩
      exact ⟨a, v, hv, rfl, rfl⟩
  · rintro s v v' ⟨a, hv, rfl⟩ ⟨a', hv', ha⟩
    obtain rfl := Address.ext ha
    exact Option.some.inj (hv.symm.trans hv')

/-- An export without a failing read holds the state it was taken from. -/
theorem holds_of_export {digest : StateSnapshot → String} {ledger : UInt32} {noAdmin : String}
    {contractId : String} {now : UInt64} {b : StateSnapshot}
    (h : exportState digest (S.reads listing ledger noAdmin) contractId now = .ok b) :
    Holds b S := by
  cases hadmin : S.get .admin with
  | none =>
    have herr : (S.reads listing ledger noAdmin).admin = .error noAdmin := by
      simp only [Target.reads, hadmin]
    rw [exportState, herr] at h
    cases h
  | some admin =>
    have hok : (S.reads listing ledger noAdmin).admin = .ok admin := by
      simp only [Target.reads, hadmin]
    rw [exportState, hok] at h
    obtain rfl := Except.ok.inj h
    exact
      { admin := hadmin
        feeBasisPoints := rfl
        refundWindow := rfl
        tipCounter := rfl
        matchingCounter := rfl
        currentFeeBps := rfl
        schemaVersion := rfl
        whitelistedTokens := by
          intro s
          simp only [List.mem_map, mem_whitelistedTokens hlist]
          constructor
          · rintro ⟨t, ht, rfl⟩
            exact ⟨t, ht, rfl⟩
          · rintro ⟨t, ht, rfl⟩
            exact ⟨t, ht, rfl⟩
        creatorBalances := mem_exportedBalances hlist
        creatorTotals := mem_compositeEntries fun _ _ _ => mem_scanCreatorTotals hlist
        tipHistory := mem_exportTipHistory hlist rfl
        tipperAggregates := mem_aggregateEntries
        creatorAggregates := mem_aggregateEntries
        subscriptions := mem_exportedSubscriptions hlist
        timeLocks := rfl
        milestones := mem_exportMilestones hlist rfl
        matchingPrograms := fun v => mem_readRecords_map
        tipRecords := fun v => mem_readRecords_map
        lockedTips := by
          intro v
          simp only [exportLockedTips, List.mem_flatMap, mem_readRecords_map]
          constructor
          · rintro ⟨c, hc, id, r, hid, hr, rfl⟩
            exact ⟨c, id, r, ⟨(mem_creators hlist c).mp hc, hid⟩, hr, rfl⟩
          · rintro ⟨c, id, r, ⟨hc, hid⟩, hr, rfl⟩
            exact ⟨c, (mem_creators hlist c).mpr hc, id, r, hid, hr, rfl⟩
        userRoles := mem_exportedUserRoles hlist }

end Collections

/-! ## The file of a snapshot -/

/-- Written to a file and read back, a snapshot is the same up to the order of its maps. -/
structure SameContents (a b : StateSnapshot) : Prop where
  creatorBalances : a.creatorBalances.entries.Perm b.creatorBalances.entries
  creatorTotals : a.creatorTotals.entries.Perm b.creatorTotals.entries
  tipHistory : a.tipHistory.entries.Perm b.tipHistory.entries
  tipperAggregates : a.tipperAggregates.entries.Perm b.tipperAggregates.entries
  creatorAggregates : a.creatorAggregates.entries.Perm b.creatorAggregates.entries
  subscriptions : a.subscriptions.entries.Perm b.subscriptions.entries
  milestones : a.milestones.entries.Perm b.milestones.entries
  userRoles : a.userRoles.entries.Perm b.userRoles.entries
  others : a = { b with
    creatorBalances := a.creatorBalances
    creatorTotals := a.creatorTotals
    tipHistory := a.tipHistory
    tipperAggregates := a.tipperAggregates
    creatorAggregates := a.creatorAggregates
    subscriptions := a.subscriptions
    milestones := a.milestones
    userRoles := a.userRoles }

/-- A map has the same entries as itself. -/
theorem SameContents.refl (a : StateSnapshot) : SameContents a a :=
  ⟨.rfl, .rfl, .rfl, .rfl, .rfl, .rfl, .rfl, .rfl, rfl⟩

/-- `Holds` speaks of entries, never of their order. -/
theorem Holds.reorder {a b : StateSnapshot} {S : Target} (h : Holds b S) (hab : SameContents a b) :
    Holds a S where
  admin := h.admin.trans (congrArg (fun s : StateSnapshot => some s.admin) hab.others).symm
  feeBasisPoints := (congrArg StateSnapshot.feeBasisPoints hab.others).trans h.feeBasisPoints
  refundWindow := (congrArg StateSnapshot.refundWindowSeconds hab.others).trans h.refundWindow
  tipCounter := (congrArg StateSnapshot.tipCounter hab.others).trans h.tipCounter
  matchingCounter := (congrArg StateSnapshot.matchingCounter hab.others).trans h.matchingCounter
  currentFeeBps := (congrArg StateSnapshot.currentFeeBps hab.others).trans h.currentFeeBps
  schemaVersion := (congrArg StateSnapshot.schemaVersion hab.others).trans h.schemaVersion
  whitelistedTokens := by
    rw [congrArg StateSnapshot.whitelistedTokens hab.others]
    exact h.whitelistedTokens
  creatorBalances s v := hab.creatorBalances.mem_iff.trans (h.creatorBalances s v)
  creatorTotals s v := hab.creatorTotals.mem_iff.trans (h.creatorTotals s v)
  tipHistory s v := hab.tipHistory.mem_iff.trans (h.tipHistory s v)
  tipperAggregates s v := hab.tipperAggregates.mem_iff.trans (h.tipperAggregates s v)
  creatorAggregates s v := hab.creatorAggregates.mem_iff.trans (h.creatorAggregates s v)
  subscriptions s v := hab.subscriptions.mem_iff.trans (h.subscriptions s v)
  timeLocks := (congrArg StateSnapshot.timeLocks hab.others).trans h.timeLocks
  milestones s v := hab.milestones.mem_iff.trans (h.milestones s v)
  matchingPrograms := by
    rw [congrArg StateSnapshot.matchingPrograms hab.others]
    exact h.matchingPrograms
  tipRecords := by
    rw [congrArg StateSnapshot.tipRecords hab.others]
    exact h.tipRecords
  lockedTips := by
    rw [congrArg StateSnapshot.lockedTips hab.others]
    exact h.lockedTips
  userRoles s v := hab.userRoles.mem_iff.trans (h.userRoles s v)

/-! ## The calls that restore it -/

/-- The entries a list of calls writes when all of them go through. -/
def writes (calls : List Call) : List Entry := calls.filterMap Call.entry

/-- A call without an entry writes nothing. -/
theorem mem_writes {calls : List Call} {e : Entry} :
    e ∈ writes calls ↔ ∃ call ∈ calls, call.entry = some e := by
  simp [writes]

theorem writes_append (a b : List Call) : writes (a ++ b) = writes a ++ writes b := by
  simp [writes]

/-- The record names its key, so what was read from a key is written back under it. -/
theorem setSubscription_entry {a c : Address} (r : (Key.subscription a c).Val) :
    (setSubscription r.val).entry = some ⟨.subscription a c, r⟩ := by
  obtain ⟨sub, hs, hc⟩ := r
  obtain ⟨a, ha⟩ := a
  obtain ⟨c, hcolon⟩ := c
  obtain rfl : sub.subscriber = a := hs
  obtain rfl : sub.creator = c := hc
  rw [setSubscription, dif_pos ha, dif_pos hcolon]

/-- The same for a locked tip: its creator and its id are its key. -/
theorem setLockedTip_entry {c : Address} {id : UInt64} (r : (Key.lockedTip c id).Val) :
    (setLockedTip r.val).entry = some ⟨.lockedTip c id, r⟩ := by
  obtain ⟨lt, hc, rfl⟩ := r
  obtain ⟨c, hcolon⟩ := c
  obtain rfl : lt.creator = c := hc
  rw [setLockedTip, dif_pos hcolon]

theorem parseU32_bucketAllTime : (parseU32 (toString bucketAllTime)).getD 0 = bucketAllTime := by
  decide

section Writes
variable {b : StateSnapshot} {S : Target} (h : Holds b S) {e : Entry}
include h

/-- The text of an address parses to that address. -/
theorem mem_writes_tokens :
    e ∈ writes (tokenCalls b) ↔
      ∃ t, S.get (.tokenWhitelist t) = some true ∧ e = ⟨.tokenWhitelist t, true⟩ := by
  simp only [mem_writes, tokenCalls, List.mem_map, h.whitelistedTokens]
  constructor
  · rintro ⟨call, ⟨s, ⟨t, ht, rfl⟩, rfl⟩, he⟩
    simp only [whitelistToken, Address.parse_text, Option.map_some, Option.some.injEq] at he
    exact ⟨t, ht, he.symm⟩
  · rintro ⟨t, ht, rfl⟩
    exact ⟨_, ⟨t.text, ⟨t, ht, rfl⟩, rfl⟩, by simp [whitelistToken]⟩

/-- Every key has a colon, so no balance is skipped. -/
theorem mem_writes_balances :
    e ∈ writes (balanceCalls b) ↔
      ∃ c t v, S.get (.creatorBalance c t) = some v ∧ e = ⟨.creatorBalance c t, v⟩ := by
  simp only [mem_writes, balanceCalls, List.mem_filterMap, Sigma.exists, h.creatorBalances]
  constructor
  · rintro ⟨call, ⟨s, v, ⟨c, t, hv, rfl⟩, hcall⟩, he⟩
    simp only [splitKey_joinKey, Option.some.injEq] at hcall
    subst hcall
    simp only [setCreatorBalance, Address.parse_text, Option.map_some, Option.some.injEq] at he
    exact ⟨c, t, v, hv, he.symm⟩
  · rintro ⟨c, t, v, hv, rfl⟩
    refine ⟨setCreatorBalance c t.text v, ⟨joinKey c t.text, v, ⟨c, t, hv, rfl⟩, ?_⟩, ?_⟩
    · simp
    · simp [setCreatorBalance]

/-- The totals, as the balances. -/
theorem mem_writes_totals :
    e ∈ writes (totalCalls b) ↔
      ∃ c t v, S.get (.creatorTotal c t) = some v ∧ e = ⟨.creatorTotal c t, v⟩ := by
  simp only [mem_writes, totalCalls, List.mem_filterMap, Sigma.exists, h.creatorTotals]
  constructor
  · rintro ⟨call, ⟨s, v, ⟨c, t, hv, rfl⟩, hcall⟩, he⟩
    simp only [splitKey_joinKey, Option.some.injEq] at hcall
    subst hcall
    simp only [setCreatorTotal, Address.parse_text, Option.map_some, Option.some.injEq] at he
    exact ⟨c, t, v, hv, he.symm⟩
  · rintro ⟨c, t, v, hv, rfl⟩
    refine ⟨setCreatorTotal c t.text v, ⟨joinKey c t.text, v, ⟨c, t, hv, rfl⟩, ?_⟩, ?_⟩
    · simp
    · simp [setCreatorTotal]

/-- The count that is written is the number of tips that were found, and they are written without
the gaps. -/
theorem mem_writes_tipHistory :
    e ∈ writes (tipHistoryCalls b) ↔
      ∃ c, S.Known c ∧ S.tips c ≠ [] ∧
        (e = ⟨.tipCount c, UInt64.ofNat (S.tips c).length⟩ ∨
          ∃ idx tip, (S.tips c)[idx]? = some tip ∧
            e = ⟨.tipHistory c (UInt64.ofNat idx), tip⟩) := by
  simp only [mem_writes, tipHistoryCalls, List.mem_flatMap, Sigma.exists, h.tipHistory,
    List.mem_cons, List.mem_map, Prod.exists, List.mk_mem_zipIdx_iff_getElem?]
  constructor
  · rintro ⟨call, ⟨s, tips, ⟨c, hc, rfl, hne, rfl⟩, rfl | ⟨tip, idx, htip, rfl⟩⟩, he⟩
    · simp only [setTipCount, Address.parse_text, Option.map_some, Option.some.injEq] at he
      exact ⟨c, hc, hne, .inl he.symm⟩
    · simp only [setTipHistoryEntry, Address.parse_text, Option.map_some, Option.some.injEq] at he
      exact ⟨c, hc, hne, .inr ⟨idx, tip, htip, he.symm⟩⟩
  · rintro ⟨c, hc, hne, rfl | ⟨idx, tip, htip, rfl⟩⟩
    · exact ⟨_, ⟨c.text, _, ⟨c, hc, rfl, hne, rfl⟩, .inl rfl⟩, by simp [setTipCount]⟩
    · exact ⟨_, ⟨c.text, _, ⟨c, hc, rfl, hne, rfl⟩, .inr ⟨tip, idx, htip, rfl⟩⟩,
        by simp [setTipHistoryEntry]⟩

/-- The bucket in the key is the all-time bucket, and parses back to it. -/
theorem mem_writes_tipperAggregates :
    e ∈ writes (tipperAggregateCalls b) ↔
      ∃ a ∈ S.tippers, ∃ v, S.get (.tipperAggregate a bucketAllTime) = some v ∧
        e = ⟨.tipperAggregate a bucketAllTime, v⟩ := by
  simp only [mem_writes, tipperAggregateCalls, List.mem_filterMap, Sigma.exists,
    h.tipperAggregates]
  constructor
  · rintro ⟨call, ⟨s, v, ⟨a, ha, hv, rfl⟩, hcall⟩, he⟩
    simp only [splitKey_joinKey, parseU32_bucketAllTime, Option.some.injEq] at hcall
    subst hcall
    exact ⟨a, ha, v, hv, (Option.some.inj he).symm⟩
  · rintro ⟨a, ha, v, hv, rfl⟩
    refine ⟨setTipperAggregate a bucketAllTime v, ⟨_, v, ⟨a, ha, hv, rfl⟩, ?_⟩, rfl⟩
    simp only [splitKey_joinKey, parseU32_bucketAllTime]

theorem mem_writes_creatorAggregates :
    e ∈ writes (creatorAggregateCalls b) ↔
      ∃ a ∈ S.tippedCreators, ∃ v, S.get (.creatorAggregate a bucketAllTime) = some v ∧
        e = ⟨.creatorAggregate a bucketAllTime, v⟩ := by
  simp only [mem_writes, creatorAggregateCalls, List.mem_filterMap, Sigma.exists,
    h.creatorAggregates]
  constructor
  · rintro ⟨call, ⟨s, v, ⟨a, ha, hv, rfl⟩, hcall⟩, he⟩
    simp only [splitKey_joinKey, parseU32_bucketAllTime, Option.some.injEq] at hcall
    subst hcall
    exact ⟨a, ha, v, hv, (Option.some.inj he).symm⟩
  · rintro ⟨a, ha, v, hv, rfl⟩
    refine ⟨setCreatorAggregate a bucketAllTime v, ⟨_, v, ⟨a, ha, hv, rfl⟩, ?_⟩, rfl⟩
    simp only [splitKey_joinKey, parseU32_bucketAllTime]

/-- Every subscription is written under its own key. -/
theorem mem_writes_subscriptions :
    e ∈ writes (subscriptionCalls b) ↔
      ∃ a c r, S.get (.subscription a c) = some r ∧ e = ⟨.subscription a c, r⟩ := by
  simp only [mem_writes, subscriptionCalls, List.mem_map, Sigma.exists, h.subscriptions]
  constructor
  · rintro ⟨call, ⟨s, v, ⟨a, c, r, hr, rfl, rfl⟩, rfl⟩, he⟩
    rw [setSubscription_entry] at he
    exact ⟨a, c, r, hr, (Option.some.inj he).symm⟩
  · rintro ⟨a, c, r, hr, rfl⟩
    exact ⟨_, ⟨_, r.val, ⟨a, c, r, hr, rfl, rfl⟩, rfl⟩, setSubscription_entry r⟩

/-- The locks, and the next id when there is one lock at least. -/
theorem mem_writes_timeLocks :
    e ∈ writes (timeLockCalls b) ↔
      (∃ id r, id < S.nextLockId ∧ S.get (.timeLock id) = some r ∧ e = ⟨.timeLock id, r⟩) ∨
        S.timeLocks ≠ [] ∧ e = ⟨.instanceNextLockId, maxLockId S.timeLocks⟩ := by
  rw [timeLockCalls, writes_append, List.mem_append, h.timeLocks]
  refine or_congr ?_ ?_
  · simp only [mem_writes, List.mem_map, Target.timeLocks, List.mem_filterMap, mem_upTo,
      Option.map_eq_some_iff]
    constructor
    · rintro ⟨call, ⟨lock, ⟨id, hid, ⟨lock, rfl⟩, hr, rfl⟩, rfl⟩, he⟩
      exact ⟨_, _, hid, hr, (Option.some.inj he).symm⟩
    · rintro ⟨id, ⟨lock, rfl⟩, hid, hr, rfl⟩
      exact ⟨_, ⟨lock, ⟨_, hid, _, hr, rfl⟩, rfl⟩, rfl⟩
  · rw [mem_writes]
    split
    · next hnil => simp [List.isEmpty_iff.mp hnil]
    · next hne =>
      have hne : S.timeLocks ≠ [] := by simpa using hne
      simp [hne, eq_comm]

/-- The id of a milestone comes from its record, the creator from the map key. -/
theorem mem_writes_milestones :
    e ∈ writes (milestoneCalls b) ↔
      ∃ c id r, (S.Known c ∧ id < S.milestoneCounter c) ∧ S.get (.milestone c id) = some r ∧
        e = ⟨.milestone c id, r⟩ := by
  simp only [mem_writes, milestoneCalls, List.mem_filterMap, Sigma.exists, h.milestones]
  constructor
  · rintro ⟨call, ⟨s, v, ⟨c, id, ⟨ms, rfl⟩, hid, hr, rfl, rfl⟩, hcall⟩, he⟩
    simp only [splitKey_joinKey, Option.some.injEq] at hcall
    subst hcall
    exact ⟨c, _, _, hid, hr, (Option.some.inj he).symm⟩
  · rintro ⟨c, id, ⟨ms, rfl⟩, hid, hr, rfl⟩
    refine ⟨setMilestone c ms, ⟨_, ms, ⟨c, _, _, hid, hr, rfl, rfl⟩, ?_⟩, rfl⟩
    simp only [splitKey_joinKey]

/-- The three lists of records that are read below a counter are written back one by one. -/
theorem mem_writes_matchingPrograms :
    e ∈ writes (matchingProgramCalls b) ↔
      ∃ id r, id < S.matchingCounter ∧ S.get (.matchingProgram id) = some r ∧
        e = ⟨.matchingProgram id, r⟩ := by
  simp only [mem_writes, matchingProgramCalls, List.mem_map, h.matchingPrograms]
  constructor
  · rintro ⟨call, ⟨v, ⟨id, ⟨prog, rfl⟩, hid, hr, rfl⟩, rfl⟩, he⟩
    exact ⟨_, _, hid, hr, (Option.some.inj he).symm⟩
  · rintro ⟨id, ⟨prog, rfl⟩, hid, hr, rfl⟩
    exact ⟨_, ⟨prog, ⟨_, _, hid, hr, rfl⟩, rfl⟩, rfl⟩

theorem mem_writes_tipRecords :
    e ∈ writes (tipRecordCalls b) ↔
      ∃ id r, id < S.tipCounter ∧ S.get (.tipRecord id) = some r ∧ e = ⟨.tipRecord id, r⟩ := by
  simp only [mem_writes, tipRecordCalls, List.mem_map, h.tipRecords]
  constructor
  · rintro ⟨call, ⟨v, ⟨id, ⟨rec, rfl⟩, hid, hr, rfl⟩, rfl⟩, he⟩
    exact ⟨_, _, hid, hr, (Option.some.inj he).symm⟩
  · rintro ⟨id, ⟨rec, rfl⟩, hid, hr, rfl⟩
    exact ⟨_, ⟨rec, ⟨_, _, hid, hr, rfl⟩, rfl⟩, rfl⟩

theorem mem_writes_lockedTips :
    e ∈ writes (lockedTipCalls b) ↔
      ∃ c id r, (S.Known c ∧ id < S.lockedTipCounter c) ∧ S.get (.lockedTip c id) = some r ∧
        e = ⟨.lockedTip c id, r⟩ := by
  simp only [mem_writes, lockedTipCalls, List.mem_map, h.lockedTips]
  constructor
  · rintro ⟨call, ⟨v, ⟨c, id, r, hid, hr, rfl⟩, rfl⟩, he⟩
    rw [setLockedTip_entry] at he
    exact ⟨c, id, r, hid, hr, (Option.some.inj he).symm⟩
  · rintro ⟨c, id, r, hid, hr, rfl⟩
    exact ⟨_, ⟨r.val, ⟨c, id, r, hid, hr, rfl⟩, rfl⟩, setLockedTip_entry r⟩

/-- Every role is written back to its holder. -/
theorem mem_writes_userRoles :
    e ∈ writes (userRoleCalls b) ↔
      ∃ a v, S.get (.userRole a) = some v ∧ e = ⟨.userRole a, v⟩ := by
  simp only [mem_writes, userRoleCalls, List.mem_map, Sigma.exists, h.userRoles]
  constructor
  · rintro ⟨call, ⟨s, v, ⟨a, hv, rfl⟩, rfl⟩, he⟩
    simp only [setUserRole, Address.parse_text, Option.map_some, Option.some.injEq] at he
    exact ⟨a, v, hv, he.symm⟩
  · rintro ⟨a, v, hv, rfl⟩
    exact ⟨_, ⟨a.text, v, ⟨a, hv, rfl⟩, rfl⟩, by simp [setUserRole]⟩

/-- Only the admin has to be there: the other values have defaults, which are written as well. -/
theorem mem_writes_instance :
    e ∈ writes (instanceCalls b) ↔
      (∃ v, S.get .admin = some v ∧ e = ⟨.admin, v⟩) ∨
      e = ⟨.feeBasisPoints, (S.get .feeBasisPoints).getD 0⟩ ∨
      e = ⟨.refundWindow, (S.get .refundWindow).getD 0⟩ ∨
      e = ⟨.tipCounter, S.tipCounter⟩ ∨
      e = ⟨.matchingCounter, S.matchingCounter⟩ ∨
      e = ⟨.currentFeeBps, (S.get .currentFeeBps).getD 100⟩ ∨
      e = ⟨.contractVersion, (S.get .contractVersion).getD 0⟩ := by
  simp [writes, instanceCalls, h.admin, h.feeBasisPoints, h.refundWindow, h.tipCounter,
    h.matchingCounter, h.currentFeeBps, h.schemaVersion]

/-- The addresses in a backup are addresses, so the contract takes every call that restores it. -/
theorem Holds.accepted {call : Call} (hcall : call ∈ importCalls b) : call.entry.isSome := by
  -- the keys are texts of addresses and ids that the export has made, so they parse again
  simp only [importCalls, List.mem_append, or_assoc] at hcall
  rcases hcall with hcall | hcall | hcall | hcall | hcall | hcall | hcall | hcall | hcall |
    hcall | hcall | hcall | hcall | hcall
  · simp only [instanceCalls, List.mem_cons, List.not_mem_nil, or_false] at hcall
    obtain rfl | rfl | rfl | rfl | rfl | rfl | rfl := hcall
    all_goals rfl
  · obtain ⟨s, hs, rfl⟩ := List.mem_map.mp hcall
    obtain ⟨t, -, rfl⟩ := (h.whitelistedTokens s).mp hs
    simp [whitelistToken]
  · obtain ⟨⟨s, v⟩, hs, hkey⟩ := List.mem_filterMap.mp hcall
    obtain ⟨c, t, -, rfl⟩ := (h.creatorBalances s v).mp hs
    simp only [splitKey_joinKey, Option.some.injEq] at hkey
    simp [← hkey, setCreatorBalance]
  · obtain ⟨⟨s, v⟩, hs, hkey⟩ := List.mem_filterMap.mp hcall
    obtain ⟨c, t, -, rfl⟩ := (h.creatorTotals s v).mp hs
    simp only [splitKey_joinKey, Option.some.injEq] at hkey
    simp [← hkey, setCreatorTotal]
  · obtain ⟨⟨s, tips⟩, hs, htips⟩ := List.mem_flatMap.mp hcall
    obtain ⟨c, -, -, -, rfl⟩ := (h.tipHistory s tips).mp hs
    obtain rfl | htip := List.mem_cons.mp htips
    · simp [setTipCount]
    · obtain ⟨⟨tip, idx⟩, -, rfl⟩ := List.mem_map.mp htip
      simp [setTipHistoryEntry]
  · obtain ⟨⟨s, v⟩, hs, hkey⟩ := List.mem_filterMap.mp hcall
    obtain ⟨a, -, -, rfl⟩ := (h.tipperAggregates s v).mp hs
    simp only [splitKey_joinKey, Option.some.injEq] at hkey
    simp [← hkey, setTipperAggregate]
  · obtain ⟨⟨s, v⟩, hs, hkey⟩ := List.mem_filterMap.mp hcall
    obtain ⟨a, -, -, rfl⟩ := (h.creatorAggregates s v).mp hs
    simp only [splitKey_joinKey, Option.some.injEq] at hkey
    simp [← hkey, setCreatorAggregate]
  · obtain ⟨⟨s, v⟩, hs, rfl⟩ := List.mem_map.mp hcall
    obtain ⟨a, c, r, -, rfl, -⟩ := (h.subscriptions s v).mp hs
    rw [setSubscription_entry]
    rfl
  · obtain hcall | hcall := List.mem_append.mp hcall
    · obtain ⟨lock, -, rfl⟩ := List.mem_map.mp hcall
      rfl
    · split at hcall
      · cases hcall
      · obtain rfl := List.mem_singleton.mp hcall
        rfl
  · obtain ⟨⟨s, v⟩, hs, hkey⟩ := List.mem_filterMap.mp hcall
    obtain ⟨c, id, r, -, -, -, rfl⟩ := (h.milestones s v).mp hs
    simp only [splitKey_joinKey, Option.some.injEq] at hkey
    simp [← hkey, setMilestone]
  · obtain ⟨prog, -, rfl⟩ := List.mem_map.mp hcall
    rfl
  · obtain ⟨rec, -, rfl⟩ := List.mem_map.mp hcall
    rfl
  · obtain ⟨lt, hlt, rfl⟩ := List.mem_map.mp hcall
    obtain ⟨c, id, r, -, -, rfl⟩ := (h.lockedTips lt).mp hlt
    rw [setLockedTip_entry]
    rfl
  · obtain ⟨⟨s, v⟩, hs, rfl⟩ := List.mem_map.mp hcall
    obtain ⟨a, -, rfl⟩ := (h.userRoles s v).mp hs
    simp [setUserRole]

end Writes

/-! ## What a backup restores -/

/-- So the count of a restored history does not wrap. -/
theorem length_tips_lt (S : Target) (c : Address) : (S.tips c).length < UInt64.size := by
  have hle : (S.tips c).length ≤ (upTo (S.tipCount c)).length := List.length_filterMap_le _ _
  have hlen : (upTo (S.tipCount c)).length = (S.tipCount c).toNat := by simp [upTo]
  have hlt := (S.tipCount c).toNat_lt_size
  omega

open Classical in
/-- The value the backup of `S` writes under a key, if it writes there. -/
noncomputable def restored (S : Target) : (k : Key) → Option k.Val
  | .admin => S.get .admin
  | .feeBasisPoints => some ((S.get .feeBasisPoints).getD 0)
  | .refundWindow => some ((S.get .refundWindow).getD 0)
  | .tipCounter => some S.tipCounter
  | .matchingCounter => some S.matchingCounter
  | .currentFeeBps => some ((S.get .currentFeeBps).getD 100)
  | .contractVersion => some ((S.get .contractVersion).getD 0)
  | .instanceNextLockId => if S.timeLocks = [] then none else some (maxLockId S.timeLocks)
  | .tokenWhitelist t => if S.get (.tokenWhitelist t) = some true then some true else none
  | .creatorBalance c t => S.get (.creatorBalance c t)
  | .creatorTotal c t => S.get (.creatorTotal c t)
  | .tipCount c =>
    if S.Known c ∧ S.tips c ≠ [] then some (UInt64.ofNat (S.tips c).length) else none
  | .tipHistory c i => if S.Known c then (S.tips c)[i.toNat]? else none
  | .tipperParticipants _ => none
  | .tipperAggregate a bucket =>
    if a ∈ S.tippers ∧ bucket = bucketAllTime then S.get (.tipperAggregate a bucket) else none
  | .creatorParticipants _ => none
  | .creatorAggregate a bucket =>
    if a ∈ S.tippedCreators ∧ bucket = bucketAllTime then S.get (.creatorAggregate a bucket)
    else none
  | .subscription a c => S.get (.subscription a c)
  | .nextLockId => none
  | .timeLock id => if id < S.nextLockId then S.get (.timeLock id) else none
  | .milestoneCounter _ => none
  | .milestone c id =>
    if S.Known c ∧ id < S.milestoneCounter c then S.get (.milestone c id) else none
  | .matchingProgram id => if id < S.matchingCounter then S.get (.matchingProgram id) else none
  | .tipRecord id => if id < S.tipCounter then S.get (.tipRecord id) else none
  | .lockedTipCounter _ => none
  | .lockedTip c id =>
    if S.Known c ∧ id < S.lockedTipCounter c then S.get (.lockedTip c id) else none
  | .userRole a => S.get (.userRole a)

theorem eq_iff_some_eq_some {α : Type} {v x : α} : v = x ↔ some x = some v := by
  rw [Option.some.injEq]
  exact eq_comm

/-- Importing a backup of `S` writes exactly what `restored` says. -/
theorem mem_writes_importCalls {b : StateSnapshot} {S : Target} (h : Holds b S) (k : Key)
    (v : k.Val) : ⟨k, v⟩ ∈ writes (importCalls b) ↔ restored S k = some v := by
  simp only [importCalls, writes_append, List.mem_append, mem_writes_instance h,
    mem_writes_tokens h, mem_writes_balances h, mem_writes_totals h, mem_writes_tipHistory h,
    mem_writes_tipperAggregates h, mem_writes_creatorAggregates h, mem_writes_subscriptions h,
    mem_writes_timeLocks h, mem_writes_milestones h, mem_writes_matchingPrograms h,
    mem_writes_tipRecords h, mem_writes_lockedTips h, mem_writes_userRoles h]
  -- A key stands in one of the fourteen collections only, so one disjunct remains in each case.
  cases k
  all_goals simp only [restored, Sigma.mk.injEq, reduceCtorEq, false_and, and_false, exists_false,
    or_self, false_or, or_false, true_and, heq_eq_eq, Option.ite_none_right_eq_some,
    Option.ite_none_left_eq_some]
  case admin => simp
  case feeBasisPoints | refundWindow | tipCounter | matchingCounter | currentFeeBps |
      contractVersion => exact eq_iff_some_eq_some
  case instanceNextLockId => exact and_congr_right fun _ => eq_iff_some_eq_some
  case tokenWhitelist t =>
    constructor
    · rintro ⟨_, ht, ⟨⟩, rfl⟩
      exact ⟨ht, rfl⟩
    · rintro ⟨ht, ⟨⟩⟩
      exact ⟨t, ht, rfl, rfl⟩
  case creatorBalance c t | creatorTotal c t =>
    constructor
    · rintro ⟨_, _, _, hv, ⟨⟩, rfl⟩
      exact hv
    · intro hv
      exact ⟨c, t, v, hv, rfl, rfl⟩
  case tipCount c =>
    constructor
    · rintro ⟨_, hc, hne, ⟨⟩, rfl⟩
      exact ⟨⟨hc, hne⟩, rfl⟩
    · rintro ⟨⟨hc, hne⟩, ⟨⟩⟩
      exact ⟨c, hc, hne, rfl, rfl⟩
  case tipHistory c i =>
    constructor
    · rintro ⟨_, hc, -, idx, _, htip, ⟨⟩, rfl⟩
      have hlt : idx < (S.tips c).length := (List.getElem?_eq_some_iff.mp htip).1
      rw [UInt64.toNat_ofNat_of_lt' (hlt.trans (length_tips_lt S c))]
      exact ⟨hc, htip⟩
    · rintro ⟨hc, htip⟩
      have hne : S.tips c ≠ [] := by
        intro hnil
        simp [hnil] at htip
      exact ⟨c, hc, hne, i.toNat, v, htip, by rw [UInt64.ofNat_toNat], rfl⟩
  case tipperAggregate a bucket | creatorAggregate a bucket =>
    constructor
    · rintro ⟨_, ha, _, hv, ⟨⟩, rfl⟩
      exact ⟨⟨ha, rfl⟩, hv⟩
    · rintro ⟨⟨ha, rfl⟩, hv⟩
      exact ⟨a, ha, v, hv, rfl, rfl⟩
  case subscription a c =>
    constructor
    · rintro ⟨_, _, _, hv, ⟨⟩, ⟨⟩⟩
      exact hv
    · intro hv
      exact ⟨a, c, v, hv, rfl, .rfl⟩
  case timeLock id | matchingProgram id | tipRecord id =>
    constructor
    · rintro ⟨_, _, hid, hv, ⟨⟩, ⟨⟩⟩
      exact ⟨hid, hv⟩
    · rintro ⟨hid, hv⟩
      exact ⟨id, v, hid, hv, rfl, .rfl⟩
  case milestone c id | lockedTip c id =>
    constructor
    · rintro ⟨_, _, _, hid, hv, ⟨⟩, ⟨⟩⟩
      exact ⟨hid, hv⟩
    · rintro ⟨hid, hv⟩
      exact ⟨c, id, v, hid, hv, rfl, .rfl⟩
  case userRole a =>
    constructor
    · rintro ⟨_, _, hv, ⟨⟩, rfl⟩
      exact hv
    · intro hv
      exact ⟨a, v, hv, rfl, rfl⟩

end Migrate
