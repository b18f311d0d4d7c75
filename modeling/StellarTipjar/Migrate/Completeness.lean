import StellarTipjar.Migrate.Rollback

/-!
# Migration toolkit — completeness of an export

Balances, totals, subscriptions and roles are found by scanning the storage. The records with an id
are read up to a counter, and the tips, milestones and locked tips of a creator only for the
creators with a balance. So an export of a contract whose counters bound their ids leaves out
exactly what belongs to a creator without one (`export_complete_iff`).
-/

namespace Migrate

open Lib

namespace Target
variable (S : Target)

/-- Every record with an id stands below the counter that hands out the ids. -/
structure CountersBound : Prop where
  tipHistory : ∀ c i, (S.get (.tipHistory c i)).isSome → i < S.tipCount c
  timeLock : ∀ id, (S.get (.timeLock id)).isSome → id < S.nextLockId
  milestone : ∀ c id, (S.get (.milestone c id)).isSome → id < S.milestoneCounter c
  matchingProgram : ∀ id, (S.get (.matchingProgram id)).isSome → id < S.matchingCounter
  tipRecord : ∀ id, (S.get (.tipRecord id)).isSome → id < S.tipCounter
  lockedTip : ∀ c id, (S.get (.lockedTip c id)).isSome → id < S.lockedTipCounter c

/-- The creators with tips, milestones or locked tips below their counters. -/
def HasRecords (c : Address) : Prop :=
  (∃ i, i < S.tipCount c ∧ (S.get (.tipHistory c i)).isSome) ∨
  (∃ id, id < S.milestoneCounter c ∧ (S.get (.milestone c id)).isSome) ∨
  (∃ id, id < S.lockedTipCounter c ∧ (S.get (.lockedTip c id)).isSome)

end Target

/-- The snapshot holds the entries of every collection and nothing else. -/
structure Complete (b : StateSnapshot) (S : Target) : Prop where
  creatorBalances : ∀ s v, ⟨s, v⟩ ∈ b.creatorBalances.entries ↔
    ∃ c t, S.get (.creatorBalance c t) = some v ∧ s = joinKey c t.text
  creatorTotals : ∀ s v, ⟨s, v⟩ ∈ b.creatorTotals.entries ↔
    ∃ c t, S.get (.creatorTotal c t) = some v ∧ s = joinKey c t.text
  tipHistory : ∀ s tips, ⟨s, tips⟩ ∈ b.tipHistory.entries ↔
    ∃ c, S.tips c = tips ∧ tips ≠ [] ∧ s = c.text
  subscriptions : ∀ s v, ⟨s, v⟩ ∈ b.subscriptions.entries ↔
    ∃ a c r, S.get (.subscription a c) = some r ∧ r.val = v ∧ s = joinKey a c.text
  timeLocks : ∀ v, v ∈ b.timeLocks ↔ ∃ id r, S.get (.timeLock id) = some r ∧ r.val = v
  milestones : ∀ s v, ⟨s, v⟩ ∈ b.milestones.entries ↔
    ∃ c id r, id < S.milestoneCounter c ∧ S.get (.milestone c id) = some r ∧
      r.val = v ∧ s = joinKey c (toString id)
  matchingPrograms : ∀ v, v ∈ b.matchingPrograms ↔
    ∃ id r, S.get (.matchingProgram id) = some r ∧ r.val = v
  tipRecords : ∀ v, v ∈ b.tipRecords ↔ ∃ id r, S.get (.tipRecord id) = some r ∧ r.val = v
  lockedTips : ∀ v, v ∈ b.lockedTips ↔
    ∃ c id r, id < S.lockedTipCounter c ∧ S.get (.lockedTip c id) = some r ∧ r.val = v
  userRoles : ∀ s v, ⟨s, v⟩ ∈ b.userRoles.entries ↔
    ∃ a, S.get (.userRole a) = some v ∧ s = a.text

section Complete
variable {b : StateSnapshot} {S : Target}

/-- A creator whose records are all exported has a balance. -/
theorem known_of_complete (h : Holds b S) (hcomplete : Complete b S) {c : Address}
    (hc : S.HasRecords c) : S.Known c := by
  rcases hc with hc | ⟨id, hid, hsome⟩ | ⟨id, hid, hsome⟩
  · have hne : S.tips c ≠ [] := tips_ne_nil.mpr hc
    have hmem := (hcomplete.tipHistory c.text (S.tips c)).mpr ⟨c, rfl, hne, rfl⟩
    obtain ⟨c', hknown, -, -, htext⟩ := (h.tipHistory _ _).mp hmem
    rwa [Address.ext htext]
  · obtain ⟨r, hr⟩ := Option.isSome_iff_exists.mp hsome
    have hmem := (hcomplete.milestones _ r.val).mpr ⟨c, id, r, hid, hr, rfl, rfl⟩
    obtain ⟨c', id', r', ⟨hknown, -⟩, -, -, hkey⟩ := (h.milestones _ _).mp hmem
    rwa [(joinKey_inj.mp hkey).1]
  · obtain ⟨r, hr⟩ := Option.isSome_iff_exists.mp hsome
    have hmem := (hcomplete.lockedTips r.val).mpr ⟨c, id, r, hid, hr, rfl⟩
    obtain ⟨c', id', r', ⟨hknown, -⟩, -, hval⟩ := (h.lockedTips _).mp hmem
    -- the record carries the name of its creator, so the one it was read for is the same
    have htext : c.text = c'.text := by rw [← r.property.1, ← r'.property.1, hval]
    rwa [Address.ext htext]

theorem complete_of_known (h : Holds b S) (hbound : S.CountersBound)
    (hknown : ∀ c, S.HasRecords c → S.Known c) : Complete b S where
  creatorBalances := h.creatorBalances
  creatorTotals := h.creatorTotals
  tipHistory s tips := by
    rw [h.tipHistory]
    constructor
    · rintro ⟨c, -, htips, hne, rfl⟩
      exact ⟨c, htips, hne, rfl⟩
    · rintro ⟨c, rfl, hne, rfl⟩
      exact ⟨c, hknown c (.inl (tips_ne_nil.mp hne)), rfl, hne, rfl⟩
  subscriptions := h.subscriptions
  timeLocks v := by
    rw [h.timeLocks, mem_timeLocks]
    constructor
    · rintro ⟨-, hget⟩
      exact ⟨v.lockId, _, hget, rfl⟩
    · rintro ⟨id, ⟨lock, rfl⟩, hget, rfl⟩
      exact ⟨hbound.timeLock _ (by rw [hget]; rfl), hget⟩
  milestones s v := by
    rw [h.milestones]
    constructor
    · rintro ⟨c, id, r, ⟨-, hid⟩, hr, hval, hs⟩
      exact ⟨c, id, r, hid, hr, hval, hs⟩
    · rintro ⟨c, id, r, hid, hr, hval, hs⟩
      have hc : S.Known c := hknown c (.inr (.inl ⟨id, hid, by rw [hr]; rfl⟩))
      exact ⟨c, id, r, ⟨hc, hid⟩, hr, hval, hs⟩
  matchingPrograms v := by
    rw [h.matchingPrograms]
    constructor
    · rintro ⟨id, r, -, hr, hval⟩
      exact ⟨id, r, hr, hval⟩
    · rintro ⟨id, r, hr, hval⟩
      exact ⟨id, r, hbound.matchingProgram id (by rw [hr]; rfl), hr, hval⟩
  tipRecords v := by
    rw [h.tipRecords]
    constructor
    · rintro ⟨id, r, -, hr, hval⟩
      exact ⟨id, r, hr, hval⟩
    · rintro ⟨id, r, hr, hval⟩
      exact ⟨id, r, hbound.tipRecord id (by rw [hr]; rfl), hr, hval⟩
  lockedTips v := by
    rw [h.lockedTips]
    constructor
    · rintro ⟨c, id, r, ⟨-, hid⟩, hr, hval⟩
      exact ⟨c, id, r, hid, hr, hval⟩
    · rintro ⟨c, id, r, hid, hr, hval⟩
      have hc : S.Known c := hknown c (.inr (.inr ⟨id, hid, by rw [hr]; rfl⟩))
      exact ⟨c, id, r, ⟨hc, hid⟩, hr, hval⟩
  userRoles := h.userRoles

end Complete

/-- The export of a contract whose counters bound their ids is complete exactly when every creator
with tips, milestones or locked tips has a balance. -/
theorem export_complete_iff (digest : StateSnapshot → String) (S : Target) (listing : List Key)
    (ledger : UInt32) (noAdmin contractId : String) (now : UInt64) (b : StateSnapshot)
    (hlist : Lists listing S) (hbound : S.CountersBound)
    (hexport : exportState digest (S.reads listing ledger noAdmin) contractId now = .ok b) :
    Complete b S ↔ ∀ c, S.HasRecords c → S.Known c := by
  have hholds : Holds b S := holds_of_export hlist hexport
  constructor
  · intro hcomplete c hc
    exact known_of_complete hholds hcomplete hc
  · intro hknown
    exact complete_of_known hholds hbound hknown

section Sample

/-- A contract in which Alice has a balance and `creator` has a locked tip. -/
def lockedEntries (creator : Address) : List Entry :=
  [⟨.admin, "admin"⟩, ⟨.creatorBalance alice xlm, 5⟩, ⟨.lockedTipCounter creator, 1⟩,
    ⟨.lockedTip creator 0, ⟨⟨0, "carol", creator.text, "xlm", 70, 1800000000⟩, rfl, rfl⟩⟩]

/-- A running contract with the given entries. -/
def Target.ofEntries (entries : List Entry) : Target :=
  { paused := false, pauseReason := none, entries := Store.empty.setAll entries }

theorem get_ofEntries (entries : List Entry) (k : Key) :
    (Target.ofEntries entries).get k = Store.lastWrite entries k := by
  rw [Target.ofEntries, Target.get, Store.get_setAll, Store.get_empty, Option.or_none]

theorem lists_ofEntries (entries : List Entry) :
    Lists (entries.map Sigma.fst) (Target.ofEntries entries) := by
  intro k
  rw [get_ofEntries, Store.lastWrite_isSome_iff]

def lockedTarget (creator : Address) : Target := .ofEntries (lockedEntries creator)

theorem mem_lockedEntries_of_isSome {creator : Address} {k : Key}
    (h : ((lockedTarget creator).get k).isSome) :
    k = .admin ∨ k = .creatorBalance alice xlm ∨ k = .lockedTipCounter creator ∨
      k = .lockedTip creator 0 := by
  have hmem := (lists_ofEntries (lockedEntries creator) k).mpr h
  simpa [lockedEntries] using hmem

theorem lockedTarget_countersBound (creator : Address) : (lockedTarget creator).CountersBound where
  tipHistory c i h := by simpa using mem_lockedEntries_of_isSome h
  timeLock id h := by simpa using mem_lockedEntries_of_isSome h
  milestone c id h := by simpa using mem_lockedEntries_of_isSome h
  matchingProgram id h := by simpa using mem_lockedEntries_of_isSome h
  tipRecord id h := by simpa using mem_lockedEntries_of_isSome h
  lockedTip c id h := by
    obtain ⟨rfl, rfl⟩ : c = creator ∧ id = 0 := by simpa using mem_lockedEntries_of_isSome h
    have hcount : (lockedTarget c).get (.lockedTipCounter c) = some 1 := by
      rw [lockedTarget, get_ofEntries]
      simp [lockedEntries, Store.lastWrite]
    rw [Target.lockedTipCounter, hcount]
    show (0 : UInt64) < 1
    decide

/-- The locked tip of a creator with a balance is exported. -/
theorem export_complete_iff_sample :
    ∃ b, exportState (fun _ => "digest")
        ((lockedTarget alice).reads ((lockedEntries alice).map Sigma.fst) 42 "no admin")
        "source" 1700000000 = .ok b ∧ b.lockedTips.length = 1 ∧ Complete b (lockedTarget alice) := by
  refine ⟨_, rfl, rfl, ?_⟩
  refine (export_complete_iff _ (lockedTarget alice) _ 42 "no admin" "source" 1700000000 _
    (lists_ofEntries (lockedEntries alice)) (lockedTarget_countersBound alice) rfl).mpr ?_
  rintro c (⟨i, -, h⟩ | ⟨id, -, h⟩ | ⟨id, -, h⟩)
  · simpa using mem_lockedEntries_of_isSome h
  · simpa using mem_lockedEntries_of_isSome h
  · obtain ⟨rfl, -⟩ : c = alice ∧ id = 0 := by simpa using mem_lockedEntries_of_isSome h
    exact ⟨xlm, rfl⟩

/-- The locked tip of a creator without one is not. -/
theorem locked_tip_left_out :
    ∃ b r, exportState (fun _ => "digest")
        ((lockedTarget bob).reads ((lockedEntries bob).map Sigma.fst) 42 "no admin")
        "source" 1700000000 = .ok b ∧
      Lists ((lockedEntries bob).map Sigma.fst) (lockedTarget bob) ∧
      (lockedTarget bob).CountersBound ∧
      (lockedTarget bob).get (.lockedTipCounter bob) = some 1 ∧
      (lockedTarget bob).get (.lockedTip bob 0) = some r ∧ r.val.amount = 70 ∧
      b.lockedTips = [] ∧ ¬ Complete b (lockedTarget bob) := by
  refine ⟨_, _, rfl, lists_ofEntries (lockedEntries bob), lockedTarget_countersBound bob, rfl, rfl, rfl, rfl, ?_⟩
  intro hcomplete
  have hmem := (hcomplete.lockedTips _).mpr ⟨bob, 0, _, by decide, rfl, rfl⟩
  cases hmem

end Sample

end Migrate
