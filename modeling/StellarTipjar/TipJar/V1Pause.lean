import StellarTipjar.TipJar.V1Interface

/-!
# TipJar — a pause state stored by v1

A v1 jar that was ever paused stores its pause state as a map with three fields. This code reads the
entry as the struct with four, so the read traps: in `migrate`, which is there to add the fourth
field, and in every function that looks at the pause state. None of them can be called, and since
the entry is written by such functions only, nothing repairs it (`PauseLocked`): the jar takes no tip
and pays no withdrawal until its code is replaced again.

`MigratesPause`, `BehavesAsV1` and `MigratesOnce` are what the migration promises about such a jar;
only the last holds.
-/

namespace TipJar

open Lib Soroban Contract

variable {X : Type}

/-! ## The state that v1 leaves -/

/-- The pause state as v1 had it. -/
structure V1Pause where
  adminFlags : UInt32
  guardianFlags : UInt32
  guardianExpiry : UInt32

/-- Its entry under v1. -/
def V1Pause.stored (v1 : V1Pause) : StoredPause :=
  ⟨v1.adminFlags, v1.guardianFlags, v1.guardianExpiry, none⟩

/-- Its entry in the layout of this code, with no notes. -/
def V1Pause.migrated (v1 : V1Pause) : StoredPause :=
  ⟨v1.adminFlags, v1.guardianFlags, v1.guardianExpiry, some none⟩

/-- The instance storage of a v1 jar that was paused at some time. -/
structure StoredByV1 (admin : Address) (v1 : V1Pause) (w : World X) : Prop where
  version : w.inst.get .dataVersion = none ∨ w.inst.get .dataVersion = some (1 : UInt32)
  admin : w.inst.get .admin = some admin
  pause : w.inst.get .pause = some v1.stored

/-! ## What the migration promises -/

/-- The host can load the contract at that ledger. -/
def Loads (chain : Chain X) (sequence : UInt32) (w : World X) : Prop :=
  ¬(chain.archival = true ∧ w.instLive < sequence.toNat)

/-- The admin can migrate the jar, and the pause state is carried over. -/
def MigratesPause (chain : Chain X) (admin : Address) (v1 : V1Pause) (w : World X) : Prop :=
  ∀ sequence auth, admin ∈ auth → Loads chain sequence w →
    ∃ r w', exec chain ⟨sequence, auth, .migrate admin⟩ w = .ok (r, w') ∧
      w'.inst.get .dataVersion = some dataVersion ∧ w'.inst.get .pause = some v1.migrated

/-- The functions that read the pause state. -/
def Entrypoint.readsPause : Entrypoint → Bool
  | .tip .. | .withdraw .. | .tipLegacy .. | .withdrawLegacy .. => true
  | .setPayoutAddress .. | .cancelPayoutAddress .. => true
  | .authorizeOperator .. | .revokeOperator .. => true
  | .pauseTips .. | .pauseWithdrawals .. | .pauseAll .. => true
  | .unpauseTips .. | .unpauseWithdrawals .. | .unpauseAll .. => true
  | .isFeaturePaused .. | .pauseFlags | .guardianPauseExpiryLedger => true
  | _ => false

/-- The jar as this code would read it if v1 had stored the same flags in the layout of v2. -/
def withV2Pause (v1 : V1Pause) (w : World X) : World X :=
  { w with inst := w.inst.set .pause v1.migrated }

/-- Two calls end alike: both fail, or both return the same, move and publish the same, and leave the
same storage up to the notes of the pause state. -/
def SameResult : Except (Failure Error) (Ret × World X) → Except (Failure Error) (Ret × World X) →
    Prop
  | .ok (r, w), .ok (r', w') =>
    r = r' ∧ w.transfers = w'.transfers ∧ w.events = w'.events ∧ w.pers = w'.pers ∧
      ∀ k, k ≠ .pause → w.inst.get k = w'.inst.get k
  | .error _, .error _ => True
  | _, _ => False

/-- Before the migration, the functions that read the pause state behave as they did under v1: as
this code does with the same flags. -/
def BehavesAsV1 (chain : Chain X) (v1 : V1Pause) (w : World X) : Prop :=
  ∀ call : Call, call.entry.readsPause = true →
    SameResult (exec chain call w) (exec chain call (withV2Pause v1 w))

/-- After a migration, a second one changes nothing and publishes nothing. -/
def MigratesOnce (chain : Chain X) (w : World X) : Prop :=
  ∀ first w₁ r₁ second w₂ r₂ admin₁ admin₂,
    first.entry = .migrate admin₁ → exec chain first w = .ok (r₁, w₁) →
    second.entry = .migrate admin₂ → exec chain second w₁ = .ok (r₂, w₂) → w₂ = w₁

/-! ## Reads that trap -/

section Reads

variable {chain : Chain X} {w w' : World X} {v1 : V1Pause} {sequence : UInt32} {auth : List Address}

/-- There is an admin, and the version and the pause state are those of v1. -/
structure PauseLocked (v1 : V1Pause) (w : World X) : Prop where
  version : w.inst.get .dataVersion = none ∨ w.inst.get .dataVersion = some (1 : UInt32)
  admin : (w.inst.get .admin).isSome
  pause : w.inst.get .pause = some v1.stored

theorem StoredByV1.locked {admin : Address} (h : StoredByV1 admin v1 w) : PauseLocked v1 w :=
  ⟨h.version, by rw [h.admin]; rfl, h.pause⟩

theorem PauseLocked.pauseStateOf_eq (h : PauseLocked v1 w) : pauseStateOf w = none := by
  rw [pauseStateOf, h.pause]
  rfl

theorem PauseLocked.not_notPaused (h : PauseLocked v1 w) (flag : UInt32) :
    ¬NotPaused flag sequence w := by
  rintro ⟨state, hstate, -⟩
  rw [h.pauseStateOf_eq] at hstate
  cases hstate

theorem PauseLocked.tip (h : PauseLocked v1 w) (sender creator token : Address) (amount : I128) :
    wp (tip sender creator token amount) (chain.ctx sequence auth) w fun _ _ => False := by
  simp only [TipJar.tip, wp_bind, wp_requireAuth, wp_checkNotPaused]
  exact fun _ hnot => absurd hnot (h.not_notPaused _)

theorem PauseLocked.withdraw (h : PauseLocked v1 w) (caller creator token dest : Address)
    (amount : Option I128) :
    wp (withdraw caller creator token dest amount) (chain.ctx sequence auth) w
      fun _ _ => False := by
  simp only [TipJar.withdraw, wp_bind, wp_requireAuth, wp_checkNotPaused]
  exact fun _ hnot => absurd hnot (h.not_notPaused _)

theorem PauseLocked.pauseFlags (h : PauseLocked v1 w) :
    wp pauseFlags (chain.ctx sequence auth) w fun _ _ => False := by
  simp only [TipJar.pauseFlags, wp_bind, wp_pauseState, h.pauseStateOf_eq]
  exact fun _ hstate => by cases hstate

theorem PauseLocked.not_paused (h : PauseLocked v1 w) {caller : Address} {flag : UInt32} :
    ¬Paused caller flag sequence auth w w' := by
  rintro ⟨-, state, hstate, -⟩
  rw [h.pauseStateOf_eq] at hstate
  cases hstate

theorem PauseLocked.not_unpaused (h : PauseLocked v1 w) {caller : Address} {flag : UInt32} :
    ¬Unpaused caller flag auth w w' := by
  rintro ⟨-, state, hstate, -⟩
  rw [h.pauseStateOf_eq] at hstate
  cases hstate

/-- No function that reads the pause state can be called. -/
theorem PauseLocked.fails (h : PauseLocked v1 w) (entry : Entrypoint)
    (hreads : entry.readsPause = true) : Fails chain ⟨sequence, auth, entry⟩ w := by
  -- every one of them decodes the entry before it can return: gated calls, the breaker, and queries
  intro r w' hexec
  cases entry with
  | tip sender creator token amount =>
    exact exec_spec hexec rfl (h.tip sender creator token amount)
  | withdraw caller creator token dest amount =>
    exact exec_spec hexec rfl (h.withdraw caller creator token dest amount)
  | tipLegacy sender creator amount =>
    refine exec_spec (Q := fun _ _ => False) hexec rfl ?_
    simp only [tipLegacy, wp_bind, wp_getTokens, wp_unwrapOrPanic]
    exact fun _ token _ => h.tip sender creator token amount
  | withdrawLegacy caller creator dest amount =>
    refine exec_spec (Q := fun _ _ => False) hexec rfl ?_
    simp only [withdrawLegacy, wp_bind, wp_getTokens, wp_unwrapOrPanic]
    exact fun _ token _ => h.withdraw caller creator token dest amount
  | setPayoutAddress creator payout =>
    obtain ⟨-, hnot, -⟩ := exec_spec hexec rfl (setPayoutAddress_spec creator payout)
    exact h.not_notPaused _ hnot
  | cancelPayoutAddress creator =>
    obtain ⟨-, hnot, -⟩ := exec_spec hexec rfl (cancelPayoutAddress_spec creator)
    exact h.not_notPaused _ hnot
  | authorizeOperator creator operator allowance expiryLedger =>
    refine exec_spec (Q := fun _ _ => False) hexec rfl ?_
    simp only [authorizeOperator, wp_bind, wp_requireAuth, wp_checkNotPaused]
    exact fun _ hnot => absurd hnot (h.not_notPaused _)
  | revokeOperator creator operator =>
    refine exec_spec (Q := fun _ _ => False) hexec rfl ?_
    simp only [revokeOperator, wp_bind, wp_requireAuth, wp_checkNotPaused]
    exact fun _ hnot => absurd hnot (h.not_notPaused _)
  | pauseTips caller => exact h.not_paused (exec_governs hexec)
  | pauseWithdrawals caller => exact h.not_paused (exec_governs hexec)
  | pauseAll caller => exact h.not_paused (exec_governs hexec)
  | unpauseTips caller => exact h.not_unpaused (exec_governs hexec)
  | unpauseWithdrawals caller => exact h.not_unpaused (exec_governs hexec)
  | unpauseAll caller => exact h.not_unpaused (exec_governs hexec)
  | isFeaturePaused flag =>
    refine exec_post (Q := fun _ _ => False) ?_ hexec
    simp only [program, isFeaturePaused, wp_bind]
    exact wp_mono h.pauseFlags fun _ _ hfalse => hfalse.elim
  | pauseFlags =>
    refine exec_post (Q := fun _ _ => False) ?_ hexec
    simp only [program, wp_bind]
    exact wp_mono h.pauseFlags fun _ _ hfalse => hfalse.elim
  | guardianPauseExpiryLedger =>
    refine exec_post (Q := fun _ _ => False) ?_ hexec
    simp only [program, guardianPauseExpiryLedger, wp_bind, wp_pauseState, h.pauseStateOf_eq]
    exact fun _ hstate => by cases hstate
  | _ => cases hreads

/-- Nor can `migrate`: it has the entry to convert, and cannot read it. -/
theorem PauseLocked.migrate_fails (h : PauseLocked v1 w) (admin : Address) :
    Fails chain ⟨sequence, auth, .migrate admin⟩ w := by
  intro r w' hexec
  have hversion : (w.inst.get .dataVersion : Option UInt32).getD 1 = 1 := by
    rcases h.version with hnone | hone
    · rw [hnone]
      rfl
    · rw [hone]
      rfl
  refine exec_spec (Q := fun _ _ => False) hexec rfl ?_
  simp only [migrate, wp_bind, wp_requireAuth, wp_requireAdmin, wp_instanceGet, wp_onlyIf,
    wp_storedPauseState, hversion, h.pause]
  intro _ _
  -- `get` finds the entry and traps in decoding it, so neither branch of `if let` is reached
  refine ⟨fun _ => ⟨fun _ => ⟨?_, ?_⟩, fun hne => absurd trivial hne⟩,
    fun hold => hold (by decide)⟩
  · intro hnone
    cases hnone
  · intro raw hraw state hstate
    cases hraw
    cases hstate

/-- Whatever happens, the pause state stays as v1 has left it. -/
theorem PauseLocked.step (h : PauseLocked v1 w) (a : Action X) :
    PauseLocked v1 (step chain w a) := by
  refine step_preserves (fun _ => ⟨h.version, h.admin, h.pause⟩) (fun call r w' hexec => ?_) a
  have hgov : Governs call w w' := exec_governs hexec
  obtain ⟨sequence, auth, entry⟩ := call
  -- the calls that would write one of the two entries all fail
  have hwrites : .pause ∉ entry.instanceWrites ∧ .dataVersion ∉ entry.instanceWrites := by
    cases entry with
    | init token admin ledgers =>
      obtain ⟨hnone, -⟩ := hgov
      have hadmin := h.admin
      rw [hnone] at hadmin
      cases hadmin
    | migrate admin => exact absurd hexec (h.migrate_fails admin r w')
    | pauseTips caller => exact absurd hexec (h.fails _ rfl r w')
    | pauseWithdrawals caller => exact absurd hexec (h.fails _ rfl r w')
    | pauseAll caller => exact absurd hexec (h.fails _ rfl r w')
    | unpauseTips caller => exact absurd hexec (h.fails _ rfl r w')
    | unpauseWithdrawals caller => exact absurd hexec (h.fails _ rfl r w')
    | unpauseAll caller => exact absurd hexec (h.fails _ rfl r w')
    | _ => simp [Entrypoint.instanceWrites]
  exact ⟨by rw [hgov.frame hwrites.2]; exact h.version, hgov.admin_isSome h.admin,
    by rw [hgov.frame hwrites.1]; exact h.pause⟩

theorem PauseLocked.run (h : PauseLocked v1 w) (acts : List (Action X)) :
    PauseLocked v1 (run (TipJar.step chain) w acts) :=
  run_invariant (P := PauseLocked v1) (TipJar.step chain) (fun _ a hw => hw.step a) h acts

end Reads

/-! ## What becomes of the promises -/

section Promises

variable {chain : Chain X} {w : World X} {v1 : V1Pause} {admin : Address}

/-- The host can load any contract at the first ledger. -/
theorem loads_zero (chain : Chain X) (w : World X) : Loads chain 0 w := by
  rintro ⟨-, hlt⟩
  exact Nat.not_lt_zero _ hlt

theorem not_migratesPause (h : PauseLocked v1 w) : ¬MigratesPause chain admin v1 w := by
  intro hmigrates
  obtain ⟨r, w', hexec, -⟩ := hmigrates 0 [admin] (by simp) (loads_zero chain w)
  exact h.migrate_fails admin r w' hexec

/-- With the flags in the layout of v2, they can be read. -/
theorem pauseFlags_withV2Pause (chain : Chain X) (v1 : V1Pause) (w : World X) :
    ∃ r w', exec chain ⟨0, [], .pauseFlags⟩ (withV2Pause v1 w) = .ok (r, w') := by
  have hstate : pauseStateOf (withV2Pause v1 w) =
      some ⟨v1.adminFlags, v1.guardianFlags, v1.guardianExpiry, none⟩ := by
    simp [pauseStateOf, withV2Pause, V1Pause.migrated, StoredPause.decode]
  have hrun : twp (invoke .pauseFlags) (chain.ctx 0 []) (withV2Pause v1 w) fun _ _ => True := by
    simp only [invoke, program, TipJar.pauseFlags, twp_bind, twp_loadInstance, twp_pauseState, hstate]
    refine ⟨loads_zero chain _, _, rfl, ?_⟩
    simp
  obtain ⟨r, w', hexec, -⟩ := hrun
  exact ⟨r, w', hexec⟩

theorem not_behavesAsV1 (h : PauseLocked v1 w) : ¬BehavesAsV1 chain v1 w := by
  intro hbehaves
  have hsame := hbehaves ⟨0, [], .pauseFlags⟩ rfl
  obtain ⟨r, w', hexec⟩ := pauseFlags_withV2Pause chain v1 w
  rw [hexec] at hsame
  cases hlocked : exec chain ⟨0, [], .pauseFlags⟩ w with
  | ok p => exact h.fails .pauseFlags rfl p.1 p.2 hlocked
  | error e =>
    rw [hlocked] at hsame
    exact hsame

/-- `migrate` leaves the version of this code, or a later one that was there. -/
theorem version_migratedInstance (w : World X) :
    ¬((migratedInstance w).get .dataVersion : Option UInt32).getD 1 < dataVersion := by
  unfold migratedInstance
  simp only
  split
  · rw [Store.get_set_self]
    decide
  · rename_i hnew
    exact hnew

/-- A migrated jar has nothing left to migrate. -/
theorem migratesOnce (chain : Chain X) (w : World X) : MigratesOnce chain w := by
  intro first w₁ r₁ second w₂ r₂ admin₁ admin₂ hfirst hexec₁ hsecond hexec₂
  obtain ⟨sequence₁, auth₁, entry₁⟩ := first
  obtain ⟨sequence₂, auth₂, entry₂⟩ := second
  simp only at hfirst hsecond
  subst hfirst
  subst hsecond
  obtain ⟨-, hinst⟩ := exec_governs hexec₁
  -- the version that the first migration leaves sends the second one to the early return
  have hversion := version_migratedInstance w
  rw [← hinst] at hversion
  refine exec_spec (Q := fun _ w' => w' = w₁) hexec₂ rfl ?_
  simp only [migrate, wp_bind, wp_requireAuth, wp_requireAdmin, wp_instanceGet, wp_onlyIf]
  intro _ _
  exact ⟨fun hold => absurd hold hversion, fun _ => trivial⟩

/-- A pause state that v1 has stored is never carried over: the jar cannot be migrated, the functions
that read the pause state do not behave as they did, and no run of calls changes that. -/
theorem v1_pause_not_carried (chain : Chain X) (h : StoredByV1 admin v1 w) :
    ¬MigratesPause chain admin v1 w ∧ ¬BehavesAsV1 chain v1 w ∧ MigratesOnce chain w ∧
      ∀ acts sequence auth, (∀ entry : Entrypoint, entry.readsPause = true →
        Fails chain ⟨sequence, auth, entry⟩ (run (step chain) w acts)) ∧
        ∀ caller, Fails chain ⟨sequence, auth, .migrate caller⟩ (run (step chain) w acts) := by
  refine ⟨not_migratesPause h.locked, not_behavesAsV1 h.locked, migratesOnce chain w,
    fun acts sequence auth => ?_⟩
  have hrun : PauseLocked v1 (run (step chain) w acts) := h.locked.run acts
  exact ⟨fun entry hreads => hrun.fails entry hreads, fun caller => hrun.migrate_fails caller⟩

end Promises

/-! ## A jar that v1 left paused

The admin 2 has paused tips. -/

def pausedJar : World Balances :=
  { freshWorld (fun _ _ => 1000) with
    inst := ((Store.empty.set .admin ⟨2⟩).set .allowedTokens [⟨1⟩]).set .pause ⟨1, 0, 0, none⟩ }

def pausedTips : V1Pause := ⟨pauseFlagTips, 0, 0⟩

theorem pausedJar_storedByV1 : StoredByV1 ⟨2⟩ pausedTips pausedJar := ⟨.inl rfl, rfl, rfl⟩

/-- The admin cannot migrate the jar, and cannot unpause it. -/
theorem paused_jar_traps :
    StoredByV1 ⟨2⟩ pausedTips pausedJar ∧
      exec sampleChain ⟨5, [⟨2⟩], .migrate ⟨2⟩⟩ pausedJar = .error .trap ∧
      exec sampleChain ⟨5, [⟨2⟩], .unpauseAll ⟨2⟩⟩ pausedJar = .error .trap ∧
      exec sampleChain ⟨5, [], .pauseFlags⟩ pausedJar = .error .trap ∧
      ¬MigratesPause sampleChain ⟨2⟩ pausedTips pausedJar := by
  refine ⟨pausedJar_storedByV1, rfl, rfl, rfl, fun hmigrates => ?_⟩
  obtain ⟨r, w', hexec, -⟩ := hmigrates 0 [⟨2⟩] (by simp) (loads_zero _ _)
  cases hexec

theorem v1_pause_not_carried_paused :
    StoredByV1 ⟨2⟩ pausedTips pausedJar ∧ ¬BehavesAsV1 sampleChain pausedTips pausedJar ∧
      Fails sampleChain ⟨5, [⟨2⟩], .migrate ⟨2⟩⟩
        (run (step sampleChain) pausedJar [.call ⟨4, [⟨2⟩], .setFee ⟨2⟩ 100⟩]) := by
  obtain ⟨-, hbehaves, -, hruns⟩ := v1_pause_not_carried sampleChain pausedJar_storedByV1
  exact ⟨pausedJar_storedByV1, hbehaves, (hruns _ 5 [⟨2⟩]).2 ⟨2⟩⟩

end TipJar
