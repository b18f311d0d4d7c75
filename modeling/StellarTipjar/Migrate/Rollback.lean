import StellarTipjar.Migrate.Backup

/-!
# Migration toolkit — what a rollback restores

A failed import is undone by importing the backup of the target over whatever is there. An import
only ever writes, so a rollback brings back the entries that the backup holds and no others: what
the failed import added stays, and the target ends up unpaused whatever it was before.

* `sendAll_target` — the target after an import that stops at a failing call;
* `restorable_iff` — when every write of the backup puts back what was there;
* `rolled_back_iff` — when the target is back where it started.
-/

namespace Migrate

open Lib

/-! ## Runs of calls -/

/-- The entries written before the first call that fails, when the first of the calls is the `n`-th
of the run. -/
def completed (fault : Nat → Option String) : Nat → List Call → List Entry
  | _, [] => []
  | n, call :: rest =>
    match call.entry, fault n with
    | some e, none => e :: completed fault (n + 1) rest
    | _, _ => []

/-- A call is written, or it fails and nothing is; the network and the contract can both refuse it. -/
theorem send_cases (env : Env) (call : Call) (w : World) :
    (∃ e, call.entry = some e ∧ env.fault w.calls = none ∧
      send env call w = (.ok (), ⟨w.target.write e, w.calls + 1⟩)) ∨
    ((∀ e, call.entry = some e → ∃ err, env.fault w.calls = some err) ∧
      ∃ err, send env call w = (.error err, ⟨w.target, w.calls + 1⟩)) := by
  cases hentry : call.entry with
  | none => exact .inr ⟨by simp, env.rejection, by simp [send, hentry]⟩
  | some e =>
    cases hfault : env.fault w.calls with
    | none => exact .inl ⟨e, rfl, rfl, by simp [send, hentry, invokeContract, hfault]⟩
    | some err => exact .inr ⟨by simp, err, by simp [send, hentry, invokeContract, hfault]⟩

/-- An import leaves the entries written before its first failing call. -/
theorem sendAll_target (env : Env) (calls : List Call) (count : Nat) (w : World) :
    (sendAll env calls count w).2.target =
      w.target.writeAll (completed env.fault w.calls calls) := by
  induction calls generalizing count w with
  | nil => rfl
  | cons call rest ih =>
    obtain ⟨e, hentry, hfault, hsend⟩ | ⟨hfault, err, hsend⟩ := send_cases env call w
    · rw [sendAll, hsend, completed, hentry, hfault]
      exact ih _ _
    · have hnone : completed env.fault w.calls (call :: rest) = [] := by
        cases hentry : call.entry with
        | none => simp [completed, hentry]
        | some e =>
          obtain ⟨err, herr⟩ := hfault e hentry
          simp [completed, hentry, herr]
      rw [sendAll, hsend, hnone]
      rfl

/-- One that reports success has written every entry. -/
theorem completed_of_ok {env : Env} {calls : List Call} {count n : Nat} {w w' : World}
    (h : sendAll env calls count w = (.ok n, w')) :
    completed env.fault w.calls calls = writes calls := by
  induction calls generalizing count w with
  | nil => rfl
  | cons call rest ih =>
    obtain ⟨e, hentry, hfault, hsend⟩ | ⟨-, err, hsend⟩ := send_cases env call w
    · rw [sendAll, hsend] at h
      have hrest := ih h
      simp only [completed, hentry, hfault, hrest, writes, List.filterMap_cons]
    · rw [sendAll, hsend] at h
      cases h

/-- An import leaves the writes that went through, whatever it answers. -/
theorem doImport_target {env : Env} {snapshot : StateSnapshot} {r : Except String Nat}
    {w w' : World} (h : doImport env snapshot w = (r, w')) :
    w'.target = w.target.writeAll (completed env.fault w.calls (importCalls snapshot)) := by
  have hrun := sendAll_target env (importCalls snapshot) 0 w
  rw [doImport] at h
  rwa [h] at hrun

/-- A call that succeeds has had its effect. -/
theorem invokeContract_ok {env : Env} {effect : Target → Target} {w w' : World}
    (h : invokeContract env effect w = (.ok (), w')) :
    w' = ⟨effect w.target, w.calls + 1⟩ := by
  unfold invokeContract at h
  split at h
  · cases h
  · exact (congrArg Prod.snd h).symm

/-- Calls that the contract accepts and the network lets through are all sent. -/
theorem sendAll_succeeds {env : Env} {calls : List Call} {w : World}
    (haccept : ∀ call ∈ calls, call.entry.isSome) (hfault : ∀ m, w.calls ≤ m → env.fault m = none)
    (count : Nat) :
    ∃ n w', sendAll env calls count w = (.ok n, w') ∧ w.calls ≤ w'.calls := by
  induction calls generalizing count w with
  | nil => exact ⟨count, w, rfl, le_rfl⟩
  | cons call rest ih =>
    obtain ⟨e, hentry⟩ := Option.isSome_iff_exists.mp (haccept call List.mem_cons_self)
    have hsend : send env call w = (.ok (), ⟨w.target.write e, w.calls + 1⟩) := by
      simp [send, hentry, invokeContract, hfault w.calls le_rfl]
    obtain ⟨n, w', hrest, hle⟩ := ih (w := ⟨w.target.write e, w.calls + 1⟩)
      (fun call hcall => haccept call (List.mem_cons_of_mem _ hcall))
      (fun m hm => hfault m (Nat.le_of_succ_le hm)) (count + call.counted.toNat)
    exact ⟨n, w', by rw [sendAll, hsend]; exact hrest, Nat.le_of_succ_le hle⟩

/-! ## The error paths of an import -/

/-- The file of the backup can be read, and its checksum matches. -/
def Usable (env : Env) (backup b : StateSnapshot) : Prop :=
  env.readBack backup = .ok b ∧ verifyChecksum env.digest b = .ok ()

/-- A rollback from a usable backup writes everything of it over the target, and unpauses it. -/
theorem rollback_of_usable {env : Env} {backup b : StateSnapshot} {w : World}
    (husable : Usable env backup b) (haccept : ∀ call ∈ importCalls b, call.entry.isSome)
    (hfault : ∀ m, w.calls ≤ m → env.fault m = none) :
    (rollback env backup w).2.target =
      (w.target.writeAll (writes (importCalls b))).unpause := by
  obtain ⟨n, w₁, himport, hle⟩ := sendAll_succeeds haccept hfault 0
  have himport : doImport env b w = (.ok n, w₁) := himport
  have htarget := doImport_target himport
  rw [completed_of_ok himport] at htarget
  unfold rollback
  rw [husable.1]
  simp only [husable.2]
  rw [himport]
  simp only [invokeContract, hfault w₁.calls hle]
  rw [htarget]

/-- Without one it does nothing. -/
theorem rollback_of_not_usable {env : Env} {backup : StateSnapshot}
    (h : ∀ b, ¬ Usable env backup b) (w : World) : (rollback env backup w).2 = w := by
  unfold rollback
  split
  · rfl
  next b hread =>
  split
  · rfl
  next hverify => exact absurd ⟨hread, hverify⟩ (h b)

/-- The error that is reported does not change the state. -/
theorem rollBackAfter_snd (env : Env) (backup : StateSnapshot) (err : ImportError) (w : World) :
    (rollBackAfter env backup err w).2 = (rollback env backup w).2 := by
  unfold rollBackAfter
  split
  · next h => rw [h]
  · next h => rw [h]

/-- An import whose writes or verification failed has taken a backup, written what it got through of
the snapshot over the paused target, and started a rollback from there. -/
theorem importState_fromRollback {env : Env} {cfg : MigrationSection} {snapshot : StateSnapshot}
    {e : ImportError} {w w' : World}
    (h : importState env cfg snapshot w = (.error e, w')) (he : e.FromRollback) :
    ∃ backup, createBackup env cfg.targetContractId w.target = .ok backup ∧
      w' = (rollback env backup
        (doImport env snapshot ⟨w.target.pause pauseReason, w.calls + 1⟩).2).2 := by
  unfold importState at h
  split at h
  · cases h
    cases he
  split at h
  · cases h
  split at h
  · cases h
    cases he
  next backup hbackup =>
  split at h
  · cases h
    cases he
  next w₁ hpause =>
  obtain rfl := invokeContract_ok hpause
  refine ⟨backup, hbackup, ?_⟩
  split at h
  · -- a write failed
    next err w₂ himport =>
    rw [himport, ← rollBackAfter_snd env backup (.importFailed err), h]
  next imported w₂ himport =>
  rw [himport]
  simp only at h
  split at h
  · -- the verification found something
    rw [← rollBackAfter_snd env backup, h]
  split at h
  · cases h
    cases he
  split at h
  · cases h
    cases he
  · cases h

/-! ## Tip histories and lock counters -/

section Gaps
variable {S : Target} {c : Address}

theorem length_upTo (n : UInt64) : (upTo n).length = n.toNat := by simp [upTo]

/-- A history is exported when one of its tips is there. -/
theorem tips_ne_nil : S.tips c ≠ [] ↔
    ∃ i, i < S.tipCount c ∧ (S.get (.tipHistory c i)).isSome := by
  have hmem : ∀ tip, tip ∈ S.tips c ↔
      ∃ i, i < S.tipCount c ∧ S.get (.tipHistory c i) = some tip := by
    simp [Target.tips]
  constructor
  · intro hne
    obtain ⟨tip, htip⟩ := List.exists_mem_of_ne_nil _ hne
    obtain ⟨i, hi, hget⟩ := (hmem tip).mp htip
    exact ⟨i, hi, by rw [hget]; rfl⟩
  · rintro ⟨i, hi, hsome⟩
    obtain ⟨tip, htip⟩ := Option.isSome_iff_exists.mp hsome
    exact List.ne_nil_of_mem ((hmem tip).mpr ⟨i, hi, htip⟩)

/-- No tip below the count is missing when there are as many as the count says. -/
theorem length_tips_eq : (S.tips c).length = (S.tipCount c).toNat ↔
    ∀ i, i < S.tipCount c → (S.get (.tipHistory c i)).isSome := by
  rw [← length_upTo, Target.tips, List.filterMap_length_eq_length]
  simp only [mem_upTo]

/-- A filter that drops nothing keeps the positions. -/
theorem getElem?_filterMap_of_isSome {α β : Type} {f : α → Option β} {l : List α}
    (h : ∀ a ∈ l, (f a).isSome) (n : Nat) : (l.filterMap f)[n]? = l[n]?.bind f := by
  induction l generalizing n with
  | nil => simp
  | cons a l ih =>
    obtain ⟨b, hb⟩ := Option.isSome_iff_exists.mp (h a List.mem_cons_self)
    rw [List.filterMap_cons_some hb]
    cases n with
    | zero => simp [hb]
    | succ n =>
      rw [List.getElem?_cons_succ, List.getElem?_cons_succ]
      exact ih (fun a ha => h a (List.mem_cons_of_mem _ ha)) n

/-- Without a gap, every tip is exported at its own index. -/
theorem getElem?_tips (h : ∀ i, i < S.tipCount c → (S.get (.tipHistory c i)).isSome)
    {i : UInt64} (hi : i < S.tipCount c) : (S.tips c)[i.toNat]? = S.get (.tipHistory c i) := by
  have hindex : (upTo (S.tipCount c))[i.toNat]? = some i := by
    have hlt : i.toNat < (S.tipCount c).toNat := UInt64.lt_iff_toNat_lt.mp hi
    simp [upTo, hlt]
  rw [Target.tips, getElem?_filterMap_of_isSome, hindex, Option.bind_some]
  simpa only [mem_upTo] using h

end Gaps

section MaxLockId

/-- An id below another is not the largest 64-bit number, so adding one does not wrap around. -/
theorem toNat_succ_of_lt {id bound : UInt64} (h : id < bound) : (id + 1).toNat = id.toNat + 1 := by
  have hlt : id.toNat < bound.toNat := UInt64.lt_iff_toNat_lt.mp h
  have hbound := bound.toNat_lt
  rw [UInt64.toNat_add, UInt64.toNat_one]
  omega

/-- So the id plus one is above the id. -/
theorem lt_succ_of_lt {id bound : UInt64} (h : id < bound) : id < id + 1 := by
  rw [UInt64.lt_iff_toNat_lt, toNat_succ_of_lt h]
  omega

/-- The step of the loop over the locks. -/
theorem foldl_lockId_cases (locks : List TimeLock) (m : UInt64) :
    let r := locks.foldl (fun max lock => if lock.lockId ≥ max then lock.lockId + 1 else max) m
    r = m ∨ ∃ lock ∈ locks, r = lock.lockId + 1 := by
  induction locks generalizing m with
  | nil => exact .inl rfl
  | cons lock rest ih =>
    obtain h | ⟨l, hl, h⟩ := ih (if lock.lockId ≥ m then lock.lockId + 1 else m)
    · by_cases hge : lock.lockId ≥ m
      · rw [if_pos hge] at h
        exact .inr ⟨lock, List.mem_cons_self, by simpa [hge] using h⟩
      · rw [if_neg hge] at h
        exact .inl (by simpa [hge] using h)
    · exact .inr ⟨l, List.mem_cons_of_mem _ hl, h⟩

/-- The loop ends above every lock it has seen. -/
theorem lockId_lt_foldl {bound : UInt64} (locks : List TimeLock) (m : UInt64)
    (hbound : ∀ lock ∈ locks, lock.lockId < bound) :
    let r := locks.foldl (fun max lock => if lock.lockId ≥ max then lock.lockId + 1 else max) m
    m ≤ r ∧ ∀ lock ∈ locks, lock.lockId < r := by
  induction locks generalizing m with
  | nil => simp
  | cons lock rest ih =>
    have hsucc := lt_succ_of_lt (hbound lock List.mem_cons_self)
    have hrest := ih (if lock.lockId ≥ m then lock.lockId + 1 else m)
      fun l hl => hbound l (List.mem_cons_of_mem _ hl)
    obtain ⟨hle, hall⟩ := hrest
    have hm : m ≤ (if lock.lockId ≥ m then lock.lockId + 1 else m) ∧
        lock.lockId < (if lock.lockId ≥ m then lock.lockId + 1 else m) := by
      split
      · next hge => exact ⟨(UInt64.le_trans hge (UInt64.le_of_lt hsucc)), hsucc⟩
      · next hlt => exact ⟨UInt64.le_refl m, UInt64.not_le.mp hlt⟩
    refine ⟨UInt64.le_trans hm.1 hle, ?_⟩
    intro l hl
    obtain rfl | hl := List.mem_cons.mp hl
    · exact UInt64.lt_of_lt_of_le hm.2 hle
    · exact hall l hl

variable {S : Target}

/-- The time lock with the largest id among those an export reads. -/
structure Target.LastLock (S : Target) (id : UInt64) : Prop where
  lt : id < S.nextLockId
  isSome : (S.get (.timeLock id)).isSome
  none_above : ∀ j, id < j → j < S.nextLockId → S.get (.timeLock j) = none

/-- A lock is exported when its id is below the counter. -/
theorem mem_timeLocks {lock : TimeLock} :
    lock ∈ S.timeLocks ↔
      lock.lockId < S.nextLockId ∧ S.get (.timeLock lock.lockId) = some ⟨lock, rfl⟩ := by
  simp only [Target.timeLocks, List.mem_filterMap, mem_upTo, Option.map_eq_some_iff]
  constructor
  · rintro ⟨id, hid, ⟨lock, rfl⟩, hget, rfl⟩
    exact ⟨hid, hget⟩
  · rintro ⟨hid, hget⟩
    exact ⟨lock.lockId, hid, ⟨lock, rfl⟩, hget, rfl⟩

/-- The counter that an import sets is above every lock. -/
theorem lockId_lt_maxLockId {lock : TimeLock} (h : lock ∈ S.timeLocks) :
    lock.lockId < maxLockId S.timeLocks :=
  (lockId_lt_foldl S.timeLocks 0 fun _ hl => (mem_timeLocks.mp hl).1).2 lock h

/-- The counter that an import sets is one past the last lock. -/
theorem exists_lastLock (h : S.timeLocks ≠ []) :
    ∃ id, S.LastLock id ∧ maxLockId S.timeLocks = id + 1 := by
  obtain ⟨first, hfirst⟩ := List.exists_mem_of_ne_nil _ h
  obtain hzero | ⟨last, hlast, hmax⟩ := foldl_lockId_cases S.timeLocks 0
  · have hlt := lockId_lt_maxLockId hfirst
    rw [maxLockId, hzero] at hlt
    exact absurd hlt (UInt64.not_lt_zero)
  · obtain ⟨hlt, hget⟩ := mem_timeLocks.mp hlast
    refine ⟨last.lockId, ⟨hlt, by rw [hget]; rfl, ?_⟩, hmax⟩
    intro j hj hnext
    rw [Option.eq_none_iff_forall_ne_some]
    rintro ⟨lock, rfl⟩ hlock
    have habove := lockId_lt_maxLockId (mem_timeLocks.mpr ⟨hnext, hlock⟩)
    rw [maxLockId, hmax, UInt64.lt_iff_toNat_lt, toNat_succ_of_lt hlt] at habove
    have hj := UInt64.lt_iff_toNat_lt.mp hj
    omega

/-- A last lock is a lock. -/
theorem Target.LastLock.timeLocks_ne_nil {id : UInt64} (h : S.LastLock id) : S.timeLocks ≠ [] := by
  obtain ⟨⟨lock, rfl⟩, hlock⟩ := Option.isSome_iff_exists.mp h.isSome
  exact List.ne_nil_of_mem (mem_timeLocks.mpr ⟨h.lt, hlock⟩)

/-- There is one last lock at most. -/
theorem Target.LastLock.unique {i j : UInt64} (hi : S.LastLock i) (hj : S.LastLock j) : i = j := by
  have not_lt : ∀ {i j : UInt64}, S.LastLock i → S.LastLock j → ¬ i < j := by
    intro i j hi hj hlt
    have hsome := hj.isSome
    rw [hi.none_above j hlt hj.lt] at hsome
    cases hsome
  exact UInt64.le_antisymm (UInt64.not_lt.mp (not_lt hj hi)) (UInt64.not_lt.mp (not_lt hi hj))

/-- The counter of the import, given the last lock. -/
theorem Target.LastLock.maxLockId_eq {id : UInt64} (h : S.LastLock id) :
    maxLockId S.timeLocks = id + 1 := by
  obtain ⟨last, hlast, hmax⟩ := exists_lastLock h.timeLocks_ne_nil
  rw [hmax, h.unique hlast]

end MaxLockId

/-! ## Targets that a backup restores -/

/-- Every write of a backup of `S` puts back what is there: no entry with a default is missing, the
tips of a creator with a balance have no gap, and the lock counter in instance storage is one past
the last time lock. -/
structure Target.Restorable (S : Target) : Prop where
  feeBasisPoints : (S.get .feeBasisPoints).isSome
  refundWindow : (S.get .refundWindow).isSome
  tipCounter : (S.get .tipCounter).isSome
  matchingCounter : (S.get .matchingCounter).isSome
  currentFeeBps : (S.get .currentFeeBps).isSome
  contractVersion : (S.get .contractVersion).isSome
  tipHistory : ∀ c, S.Known c → ∀ i j, i < S.tipCount c → j < S.tipCount c →
    (S.get (.tipHistory c i)).isSome → (S.get (.tipHistory c j)).isSome
  lockCounter : ∀ id, S.LastLock id → S.get .instanceNextLockId = some (id + 1)

/-- A default changes nothing where there is a value. -/
theorem getD_eq_of_isSome {α : Type} {o : Option α} {d v : α} (h : o.isSome)
    (hv : some (o.getD d) = some v) : o = some v := by
  cases o with
  | none => cases h
  | some a => exact hv

section Restorable
variable {S : Target}

/-- A history with one tip has them all. -/
theorem Target.Restorable.complete (h : S.Restorable) {c : Address} (hc : S.Known c)
    (hne : S.tips c ≠ []) : ∀ i, i < S.tipCount c → (S.get (.tipHistory c i)).isSome := by
  obtain ⟨i, hi, hsome⟩ := tips_ne_nil.mp hne
  intro j hj
  exact h.tipHistory c hc i j hi hj hsome

/-- A creator with tips has a stored count. -/
theorem get_tipCount {c : Address} (hne : S.tips c ≠ []) :
    S.get (.tipCount c) = some (S.tipCount c) := by
  obtain ⟨i, hi, -⟩ := tips_ne_nil.mp hne
  cases hcount : S.get (.tipCount c) with
  | none =>
    rw [Target.tipCount, hcount] at hi
    exact absurd hi UInt64.not_lt_zero
  | some n => rw [Target.tipCount, hcount, Option.getD_some]

/-- Case by case over the keys: what the backup writes is what was there. -/
theorem Target.Restorable.get_of_restored (h : S.Restorable) (k : Key) (v : k.Val)
    (hv : restored S k = some v) : S.get k = some v := by
  cases k with
  | feeBasisPoints => exact getD_eq_of_isSome h.feeBasisPoints hv
  | refundWindow => exact getD_eq_of_isSome h.refundWindow hv
  | tipCounter => exact getD_eq_of_isSome h.tipCounter hv
  | matchingCounter => exact getD_eq_of_isSome h.matchingCounter hv
  | currentFeeBps => exact getD_eq_of_isSome h.currentFeeBps hv
  | contractVersion => exact getD_eq_of_isSome h.contractVersion hv
  | instanceNextLockId =>
    rw [restored, Option.ite_none_left_eq_some] at hv
    obtain ⟨hne, hv⟩ := hv
    obtain ⟨id, hid, hmax⟩ := exists_lastLock hne
    rw [h.lockCounter id hid, ← hmax, hv]
  | tipCount c =>
    rw [restored, Option.ite_none_right_eq_some] at hv
    obtain ⟨⟨hc, hne⟩, hv⟩ := hv
    have hlen := length_tips_eq.mpr (h.complete hc hne)
    rw [get_tipCount hne, ← hv, hlen, UInt64.ofNat_toNat]
  | tipHistory c i =>
    rw [restored, Option.ite_none_right_eq_some] at hv
    obtain ⟨hc, htip⟩ := hv
    have hne : S.tips c ≠ [] := by
      intro hnil
      simp [hnil] at htip
    have hcomplete := h.complete hc hne
    have hi : i < S.tipCount c := by
      rw [UInt64.lt_iff_toNat_lt, ← length_tips_eq.mpr hcomplete]
      exact (List.getElem?_eq_some_iff.mp htip).1
    rw [← getElem?_tips hcomplete hi, htip]
  | tokenWhitelist t =>
    rw [restored, Option.ite_none_right_eq_some] at hv
    rw [hv.1, hv.2]
  | tipperAggregate a bucket | creatorAggregate a bucket | timeLock id | milestone c id
  | matchingProgram id | tipRecord id | lockedTip c id =>
    rw [restored, Option.ite_none_right_eq_some] at hv
    exact hv.2
  | admin | creatorBalance c t | creatorTotal c t | subscription a c | userRole a => exact hv
  | tipperParticipants bucket | creatorParticipants bucket | nextLockId | milestoneCounter c
  | lockedTipCounter c => cases hv

/-- `Restorable` is just what it takes for a backup to write nothing that was not there. -/
theorem restorable_iff :
    S.Restorable ↔ ∀ k v, restored S k = some v → S.get k = some v := by
  constructor
  · exact fun h k v => h.get_of_restored k v
  · intro h
    have present : ∀ k, (restored S k).isSome → (S.get k).isSome := by
      intro k hk
      obtain ⟨v, hv⟩ := Option.isSome_iff_exists.mp hk
      rw [h k v hv]
      rfl
    -- the import always writes the settings and counters, so each must have been there
    refine ⟨present _ rfl, present _ rfl, present _ rfl, present _ rfl, present _ rfl,
      present _ rfl, ?_, ?_⟩
    · intro c hc i j hi hj hsome
      -- the count that is written back is the number of tips found, so none below it may be missing
      have hne : S.tips c ≠ [] := tips_ne_nil.mpr ⟨i, hi, hsome⟩
      have hcount := h (.tipCount c) (UInt64.ofNat (S.tips c).length) (by
        rw [restored, if_pos ⟨hc, hne⟩])
      rw [get_tipCount hne, Option.some.injEq] at hcount
      have hlen : (S.tips c).length = (S.tipCount c).toNat := by
        rw [hcount, UInt64.toNat_ofNat_of_lt' (length_tips_lt S c)]
      exact length_tips_eq.mp hlen j hj
    · intro id hid
      refine h .instanceNextLockId (id + 1) ?_
      rw [restored, if_neg hid.timeLocks_ne_nil, hid.maxLockId_eq]

/-- Whether an entry under `k`, if there is one, is part of a backup of `S`. The counters and lists
that lead an export to other entries are not. -/
def Target.Exported (S : Target) : Key → Prop
  | .admin | .feeBasisPoints | .refundWindow | .tipCounter | .matchingCounter | .currentFeeBps
  | .contractVersion => True
  | .instanceNextLockId => ∃ id, id < S.nextLockId ∧ (S.get (.timeLock id)).isSome
  | .tokenWhitelist t => S.get (.tokenWhitelist t) = some true
  | .creatorBalance _ _ | .creatorTotal _ _ | .subscription _ _ | .userRole _ => True
  | .tipCount c => S.Known c ∧ ∃ i, i < S.tipCount c ∧ (S.get (.tipHistory c i)).isSome
  | .tipHistory c i => S.Known c ∧ i < S.tipCount c
  | .tipperAggregate a bucket => a ∈ S.tippers ∧ bucket = bucketAllTime
  | .creatorAggregate a bucket => a ∈ S.tippedCreators ∧ bucket = bucketAllTime
  | .timeLock id => id < S.nextLockId
  | .milestone c id => S.Known c ∧ id < S.milestoneCounter c
  | .matchingProgram id => id < S.matchingCounter
  | .tipRecord id => id < S.tipCounter
  | .lockedTip c id => S.Known c ∧ id < S.lockedTipCounter c
  | .tipperParticipants _ | .creatorParticipants _ | .nextLockId | .milestoneCounter _
  | .lockedTipCounter _ => False

/-- An export reads a lock when there is one below the counter. -/
theorem timeLocks_ne_nil_iff :
    S.timeLocks ≠ [] ↔ ∃ id, id < S.nextLockId ∧ (S.get (.timeLock id)).isSome := by
  constructor
  · intro hne
    obtain ⟨id, hid, -⟩ := exists_lastLock hne
    exact ⟨id, hid.lt, hid.isSome⟩
  · rintro ⟨id, hid, hsome⟩
    obtain ⟨⟨lock, rfl⟩, hlock⟩ := Option.isSome_iff_exists.mp hsome
    exact List.ne_nil_of_mem (mem_timeLocks.mpr ⟨hid, hlock⟩)

/-- What the backup writes is part of it. -/
theorem exported_of_restored {k : Key} {v : k.Val} (hv : restored S k = some v) :
    S.Exported k := by
  cases k with
  | admin | feeBasisPoints | refundWindow | tipCounter | matchingCounter | currentFeeBps
  | contractVersion => trivial
  | creatorBalance c t | creatorTotal c t | subscription a c | userRole a => trivial
  | instanceNextLockId => exact timeLocks_ne_nil_iff.mp (Option.ite_none_left_eq_some.mp hv).1
  | tipCount c =>
    obtain ⟨⟨hc, hne⟩, -⟩ := Option.ite_none_right_eq_some.mp hv
    exact ⟨hc, tips_ne_nil.mp hne⟩
  | tipHistory c i =>
    obtain ⟨hc, htip⟩ := Option.ite_none_right_eq_some.mp hv
    have hlt : i.toNat < (S.tips c).length := (List.getElem?_eq_some_iff.mp htip).1
    have hle : (S.tips c).length ≤ (S.tipCount c).toNat := by
      rw [← length_upTo]
      exact List.length_filterMap_le _ _
    exact ⟨hc, UInt64.lt_iff_toNat_lt.mpr (hlt.trans_le hle)⟩
  | tokenWhitelist t | tipperAggregate a bucket | creatorAggregate a bucket | timeLock id
  | milestone c id | matchingProgram id | tipRecord id | lockedTip c id =>
    exact (Option.ite_none_right_eq_some.mp hv).1
  | tipperParticipants bucket | creatorParticipants bucket | nextLockId | milestoneCounter c
  | lockedTipCounter c => cases hv

/-- And what is part of it is written, where there is an entry. -/
theorem Target.Restorable.isSome_restored (h : S.Restorable) {k : Key} {v : k.Val}
    (hget : S.get k = some v) (hexp : S.Exported k) : (restored S k).isSome := by
  cases k with
  | feeBasisPoints | refundWindow | tipCounter | matchingCounter | currentFeeBps
  | contractVersion => rfl
  | admin | creatorBalance c t | creatorTotal c t | subscription a c | userRole a =>
    rw [restored, hget]
    rfl
  | instanceNextLockId =>
    rw [restored, if_neg (timeLocks_ne_nil_iff.mpr hexp)]
    rfl
  | tokenWhitelist t =>
    rw [Target.Exported] at hexp
    rw [restored, if_pos hexp]
    rfl
  | tipCount c =>
    rw [restored, if_pos ⟨hexp.1, tips_ne_nil.mpr hexp.2⟩]
    rfl
  | tipHistory c i =>
    have hne : S.tips c ≠ [] := tips_ne_nil.mpr ⟨i, hexp.2, by rw [hget]; rfl⟩
    rw [restored, if_pos hexp.1, getElem?_tips (h.complete hexp.1 hne) hexp.2, hget]
    rfl
  | tipperAggregate a bucket | creatorAggregate a bucket | timeLock id | milestone c id
  | matchingProgram id | tipRecord id | lockedTip c id =>
    rw [Target.Exported] at hexp
    rw [restored, if_pos hexp, hget]
    rfl
  | tipperParticipants bucket | creatorParticipants bucket | nextLockId | milestoneCounter c
  | lockedTipCounter c => cases hexp

end Restorable

/-! ## Rolled back exactly -/

/-- When the rollback of an import that wrote `wrote` brings `S` back: `S` was not paused, its
backup restores it, and what the import left under a key was there before or replaced an entry of
the backup. -/
structure RollsBack (S : Target) (wrote : List Entry) : Prop where
  running : S.paused = false
  noReason : S.pauseReason = none
  restorable : S.Restorable
  covered : ∀ k v, Store.lastWrite wrote k = some v →
    S.get k = some v ∨ ((S.get k).isSome ∧ S.Exported k)

/-- The target after the rollback: the entries of the backup over those the import wrote over the
ones it found. -/
theorem get_rolledBack {b : StateSnapshot} {S : Target} (h : Holds b S) (reason : String)
    (wrote : List Entry) (k : Key) :
    (((S.pause reason).writeAll wrote).writeAll (writes (importCalls b))).unpause.get k =
      (restored S k).or ((Store.lastWrite wrote k).or (S.get k)) := by
  have hlast : Store.lastWrite (writes (importCalls b)) k = restored S k :=
    Store.lastWrite_eq_of_mem_iff (mem_writes_importCalls h) k
  rw [Target.get_unpause, Target.get_writeAll, hlast, Target.get_writeAll, Target.get_pause]

/-- The target is `S` again exactly when the backup covers what the import wrote. -/
theorem rolledBack_eq_iff {b : StateSnapshot} {S : Target} (h : Holds b S) (reason : String)
    (wrote : List Entry) :
    (((S.pause reason).writeAll wrote).writeAll (writes (importCalls b))).unpause = S ↔
      RollsBack S wrote := by
  have hget := get_rolledBack h reason wrote
  constructor
  · intro heq
    -- what the backup writes is the last write, and the target is as before
    have hrestored : ∀ k v, restored S k = some v → S.get k = some v := by
      intro k v hv
      rw [← heq, hget, hv, Option.some_or]
    refine ⟨?_, ?_, restorable_iff.mpr hrestored, ?_⟩
    · exact (congrArg Target.paused heq).symm
    · exact (congrArg Target.pauseReason heq).symm
    · intro k v hv
      cases hk : restored S k with
      | none =>
        left
        have := hget k
        rwa [heq, hk, hv, Option.none_or, Option.some_or] at this
      | some v' => exact .inr ⟨by rw [hrestored k v' hk]; rfl, exported_of_restored hk⟩
  · intro hrolls
    -- the write of the backup hides that of the import, and that hides the old entry
    refine Target.ext hrolls.running.symm hrolls.noReason.symm (Store.ext fun k => ?_)
    refine (hget k).trans ?_
    cases hk : restored S k with
    | some v => exact (hrolls.restorable.get_of_restored k v hk).symm
    | none =>
      cases hw : Store.lastWrite wrote k with
      | none => rfl
      | some v =>
        obtain hv | ⟨hsome, hexp⟩ := hrolls.covered k v hw
        · exact hv.symm
        · -- the backup would have written this entry
          obtain ⟨v', hv'⟩ := Option.isSome_iff_exists.mp hsome
          have := hrolls.restorable.isSome_restored hv' hexp
          rw [hk] at this
          cases this

/-- When an import that wrote `wrote` and could not be rolled back has changed nothing: `S` was
paused already, for the same reason, and every write put what was there. -/
structure Untouched (S : Target) (wrote : List Entry) : Prop where
  paused : S.paused = true
  reason : S.pauseReason = some pauseReason
  kept : ∀ k v, Store.lastWrite wrote k = some v → S.get k = some v

/-- Without a rollback the pause and the writes stay. -/
theorem untouched_iff (S : Target) (wrote : List Entry) :
    (S.pause pauseReason).writeAll wrote = S ↔ Untouched S wrote := by
  have hget : ∀ k, ((S.pause pauseReason).writeAll wrote).get k =
      (Store.lastWrite wrote k).or (S.get k) := fun k => Target.get_writeAll _ _ k
  constructor
  · intro heq
    refine ⟨(congrArg Target.paused heq).symm, (congrArg Target.pauseReason heq).symm, ?_⟩
    intro k v hv
    have := hget k
    rwa [heq, hv, Option.some_or] at this
  · intro h
    refine Target.ext h.paused.symm h.reason.symm (Store.ext fun k => ?_)
    refine (hget k).trans ?_
    cases hw : Store.lastWrite wrote k with
    | none => rfl
    | some v => exact (h.kept k v hw).symm

/-- The backup of an import holds the target it was taken from. -/
theorem createBackup_holds {env : Env} {contractId : String} {S : Target} {backup : StateSnapshot}
    (hlist : Lists (env.listing S) S) (h : createBackup env contractId S = .ok backup) :
    Holds backup S := by
  unfold createBackup at h
  cases hexport : exportState env.digest (env.reads S) contractId env.now with
  | error err =>
    rw [hexport] at h
    cases h
  | ok b =>
    rw [hexport] at h
    cases hwrite : env.writeBackup with
    | error err =>
      rw [hwrite] at h
      cases h
    | ok u =>
      rw [hwrite] at h
      cases h
      exact holds_of_export hlist hexport

/-- The backup that an import of `S` takes can be used for a rollback. -/
def BackupUsable (env : Env) (cfg : MigrationSection) (S : Target) : Prop :=
  ∃ backup b, createBackup env cfg.targetContractId S = .ok backup ∧ Usable env backup b

/-- When the writes or the verification of an import have failed, and every later call goes through,
the target is as it was exactly when either its backup could be used, it was not paused, the backup
restores it, and the writes that went through only touched entries of the backup or changed nothing;
or there was no rollback and nothing to roll back. -/
theorem rolled_back_iff (env : Env) (cfg : MigrationSection) (snapshot : StateSnapshot)
    (S : Target) (n : Nat) (e : ImportError) (w : World)
    (hlist : Lists (env.listing S) S)
    (hback : ∀ s s', env.readBack s = .ok s' → SameContents s' s)
    (hcalls : ∀ m, (doImport env snapshot ⟨S.pause pauseReason, n + 1⟩).2.calls ≤ m →
      env.fault m = none)
    (hrun : importState env cfg snapshot ⟨S, n⟩ = (.error e, w)) (he : e.FromRollback) :
    w.target = S ↔
      (BackupUsable env cfg S ∧
        RollsBack S (completed env.fault (n + 1) (importCalls snapshot))) ∨
      (¬ BackupUsable env cfg S ∧
        Untouched S (completed env.fault (n + 1) (importCalls snapshot))) := by
  obtain ⟨backup, hbackup, rfl⟩ := importState_fromRollback hrun he
  have himport : (doImport env snapshot ⟨S.pause pauseReason, n + 1⟩).2.target =
      (S.pause pauseReason).writeAll (completed env.fault (n + 1) (importCalls snapshot)) :=
    doImport_target rfl
  -- a backup that cannot be read back or verified is not applied: the failed import stays
  by_cases husable : BackupUsable env cfg S
  · obtain ⟨backup', b, hbackup', hb⟩ := husable
    obtain rfl : backup' = backup := Except.ok.inj (hbackup'.symm.trans hbackup)
    have hholds : Holds b S := (createBackup_holds hlist hbackup).reorder (hback _ b hb.1)
    rw [rollback_of_usable hb (fun _ => hholds.accepted) hcalls, himport,
      rolledBack_eq_iff hholds]
    have husable : BackupUsable env cfg S := ⟨backup', b, hbackup', hb⟩
    simp [husable]
  · have hnone : ∀ b, ¬ Usable env backup b := fun b hb => husable ⟨backup, b, hbackup, hb⟩
    rw [rollback_of_not_usable hnone, himport, untouched_iff]
    simp [husable]

/-! ## A target whose import fails -/

section Sample

def alice : Address := ⟨"alice", by decide⟩

def bob : Address := ⟨"bob", by decide⟩

def xlm : Address := ⟨"xlm", by decide⟩

/-- A small target: the settings and one balance. -/
def sampleEntries : List Entry :=
  [⟨.admin, "admin"⟩, ⟨.feeBasisPoints, 50⟩, ⟨.refundWindow, 3600⟩, ⟨.tipCounter, 0⟩,
    ⟨.matchingCounter, 0⟩, ⟨.currentFeeBps, 100⟩, ⟨.contractVersion, 1⟩,
    ⟨.creatorBalance alice xlm, 5⟩]

/-- The entries, in a target that is not paused. -/
def sampleTarget : Target :=
  { paused := false, pauseReason := none, entries := Store.empty.setAll sampleEntries }

/-- A run in which one write call fails. -/
def sampleEnv (failing : Nat) : Env where
  fault n := if n = failing then some "timeout" else none
  rejection := "invalid address"
  listing _ := sampleEntries.map Sigma.fst
  digest s := "digest of " ++ s.contractId
  now := 1700000000
  ledger := 42
  writeBackup := .ok ()
  readBack s := .ok s
  writeReport := .ok ()

def sampleConfig : MigrationSection := { targetContractId := "target", dryRun := false }

/-- A newer state of another contract, in which a second creator has a balance. -/
def sampleSnapshot : StateSnapshot where
  contractId := "source"
  schemaVersion := 2
  exportedAt := 1690000000
  ledgerSequence := 41
  checksum := "digest of source"
  admin := "admin"
  feeBasisPoints := 75
  refundWindowSeconds := 3600
  paused := false
  pauseReason := none
  tipCounter := 0
  matchingCounter := 0
  currentFeeBps := 100
  whitelistedTokens := []
  creatorBalances := .collect [("bob:xlm", 3), ("alice:xlm", 9)]
  creatorTotals := .collect [("bob:xlm", 3)]
  tipHistory := ∅
  tipperAggregates := ∅
  creatorAggregates := ∅
  subscriptions := ∅
  timeLocks := []
  milestones := ∅
  matchingPrograms := []
  tipRecords := []
  lockedTips := []
  userRoles := ∅

/-- A key reads as the last entry written to it. -/
theorem sampleTarget_get (k : Key) : sampleTarget.get k = Store.lastWrite sampleEntries k := by
  rw [sampleTarget, Target.get, Store.get_setAll, Store.get_empty, Option.or_none]

/-- Listing the entries lists every key that has one. -/
theorem sample_lists : Lists (sampleEntries.map Sigma.fst) sampleTarget := by
  intro k
  rw [sampleTarget_get, Store.lastWrite_isSome_iff]

theorem sample_restorable : sampleTarget.Restorable where
  feeBasisPoints := rfl
  refundWindow := rfl
  tipCounter := rfl
  matchingCounter := rfl
  currentFeeBps := rfl
  contractVersion := rfl
  tipHistory _ _ _ _ hi := absurd hi UInt64.not_lt_zero
  lockCounter _ hid := absurd hid.lt UInt64.not_lt_zero

/-- A failure after Alice's balance was written. -/
theorem sample_rollsBack :
    RollsBack sampleTarget (completed (sampleEnv 9).fault 1 (importCalls sampleSnapshot)) where
  running := rfl
  noReason := rfl
  restorable := sample_restorable
  covered := by
    intro k v hv
    have hkeys : (completed (sampleEnv 9).fault 1 (importCalls sampleSnapshot)).map Sigma.fst =
        sampleEntries.map Sigma.fst := by decide
    have hmem : k ∈ sampleEntries.map Sigma.fst := by
      rw [← hkeys, ← Store.lastWrite_isSome_iff, hv]
      rfl
    have hexported : ∀ k ∈ sampleEntries.map Sigma.fst, sampleTarget.Exported k := by
      simp [sampleEntries, Target.Exported]
    exact .inr ⟨(sample_lists k).mp hmem, hexported k hmem⟩

theorem sample_usable : BackupUsable (sampleEnv 9) sampleConfig sampleTarget :=
  ⟨_, _, rfl, rfl, rfl⟩

/-- The import fails at the balance of Bob, and the target is as before. -/
theorem rolled_back_iff_sample :
    ∃ w, importState (sampleEnv 9) sampleConfig sampleSnapshot ⟨sampleTarget, 0⟩ =
        (.error (.importFailed "timeout"), w) ∧ w.target = sampleTarget := by
  have hcalls : ∀ m, (doImport (sampleEnv 9) sampleSnapshot
      ⟨sampleTarget.pause pauseReason, 0 + 1⟩).2.calls ≤ m → (sampleEnv 9).fault m = none := by
    intro m hm
    have hm : 10 ≤ m := hm
    exact if_neg (by omega)
  refine ⟨_, rfl, ?_⟩
  exact (rolled_back_iff (sampleEnv 9) sampleConfig sampleSnapshot sampleTarget 0
    (.importFailed "timeout") _ sample_lists
    (fun s s' h => Except.ok.inj h ▸ SameContents.refl s) hcalls rfl trivial).mpr
    (.inl ⟨sample_usable, sample_rollsBack⟩)

/-- One call later, the balance of Bob has been written; the rollback does not take it away. -/
theorem added_entry_stays :
    ∃ w, importState (sampleEnv 10) sampleConfig sampleSnapshot ⟨sampleTarget, 0⟩ =
        (.error (.importFailed "timeout"), w) ∧
      Lists ((sampleEnv 10).listing sampleTarget) sampleTarget ∧
      (∀ m, 11 ≤ m → (sampleEnv 10).fault m = none) ∧
      sampleTarget.get (.creatorBalance bob xlm) = none ∧
      w.target.get (.creatorBalance bob xlm) = some 3 ∧ w.target ≠ sampleTarget := by
  have hnone : sampleTarget.get (.creatorBalance bob xlm) = none := rfl
  obtain ⟨w, hrun, hadded⟩ : ∃ w,
      importState (sampleEnv 10) sampleConfig sampleSnapshot ⟨sampleTarget, 0⟩ =
        (.error (.importFailed "timeout"), w) ∧
      w.target.get (.creatorBalance bob xlm) = some 3 := ⟨_, rfl, rfl⟩
  refine ⟨w, hrun, sample_lists, fun m hm => if_neg (by omega), hnone, hadded, fun heq => ?_⟩
  rw [heq, hnone] at hadded
  cases hadded

end Sample

end Migrate
