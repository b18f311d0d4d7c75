import StellarTipjar.TipJar.System
import StellarTipjar.Soroban.Footprint

/-!
# TipJar — the footprints of the entrypoints

`program_footprint` says once which host operations each entrypoint can perform: only the calls
that move money call a token or publish an event about money, and a gated entrypoint reads the
pause entry only in its gate and writes no instance entry.
-/

namespace TipJar

open Lib Soroban Contract

variable {X : Type}

/-- The features that can be paused. -/
inductive Feature where
  | tips
  | withdrawals
deriving DecidableEq, Repr

def Feature.flag : Feature → UInt32
  | .tips => pauseFlagTips
  | .withdrawals => pauseFlagWithdrawals

/-- The feature whose pause stops the entrypoint. -/
def Entrypoint.gate : Entrypoint → Option Feature
  | .tip .. | .tipLegacy .. => some .tips
  | .withdraw .. | .withdrawLegacy .. => some .withdrawals
  | .setPayoutAddress .. | .cancelPayoutAddress .. => some .withdrawals
  | .authorizeOperator .. | .revokeOperator .. => some .withdrawals
  | _ => none

/-- The entrypoints that call a token. -/
def Entrypoint.callsToken : Entrypoint → Bool
  | .tip .. | .tipLegacy .. | .withdraw .. | .withdrawLegacy .. | .withdrawFees .. => true
  | _ => false

/-- The events that report a movement of money. -/
def Event.isMoney : Event → Bool
  | .tip .. | .withdraw .. | .feeCharged .. | .feeWithdraw .. => true
  | _ => false

/-- The gate of an entrypoint. -/
inductive IsGate (gate : Option Feature) : (α : Type) → M X α → Prop where
  | check (f : Feature) (h : gate = some f) : IsGate gate Unit (checkNotPaused f.flag)

/-- What an entrypoint may ask the host for outside its gate. -/
def Entrypoint.Allows (entry : Entrypoint) : HostOp DataKey Event → Prop
  | .loadInstance => False
  | .readInstance k => entry.gate = none ∨ k ≠ .pause
  | .setInstance _ | .removeInstance _ => entry.gate = none
  | .transfer => entry.callsToken = true
  | .publish e => entry.callsToken = true ∨ e.isMoney = false
  | _ => True

section Allows

variable {entry : Entrypoint}

@[simp] theorem allows_readInstance {k : DataKey} :
    entry.Allows (.readInstance k) ↔ entry.gate = none ∨ k ≠ .pause := Iff.rfl

@[simp] theorem allows_setInstance {k : DataKey} :
    entry.Allows (.setInstance k) ↔ entry.gate = none := Iff.rfl

@[simp] theorem allows_removeInstance {k : DataKey} :
    entry.Allows (.removeInstance k) ↔ entry.gate = none := Iff.rfl

@[simp] theorem allows_transfer : entry.Allows .transfer ↔ entry.callsToken = true := Iff.rfl

@[simp] theorem allows_publish {e : Event} :
    entry.Allows (.publish e) ↔ entry.callsToken = true ∨ e.isMoney = false := Iff.rfl

@[simp] theorem allows_bumpInstance : entry.Allows .bumpInstance := trivial

@[simp] theorem allows_updateWasm : entry.Allows .updateWasm := trivial

@[simp] theorem allows_readPersistent (k : DataKey) : entry.Allows (.readPersistent k) := trivial

@[simp] theorem allows_setPersistent (k : DataKey) : entry.Allows (.setPersistent k) := trivial

@[simp] theorem allows_removePersistent (k : DataKey) : entry.Allows (.removePersistent k) := trivial

@[simp] theorem allows_bumpPersistent (k : DataKey) : entry.Allows (.bumpPersistent k) := trivial

end Allows

@[simp] theorem footprint_storedPauseState {A : (α : Type) → M X α → Prop}
    {P : HostOp DataKey Event → Prop} (h : P (.readInstance .pause)) :
    Footprint A P (storedPauseState : M X (Option PauseState)) := by
  refine .bind (.instanceGet _ h) fun raw => ?_
  cases raw with
  | none => exact .pure none
  | some raw =>
    simp only
    cases raw.decode with
    | none => exact .fail _
    | some state => exact .pure _

theorem footprint_checkNotPaused {A : (α : Type) → M X α → Prop} {P : HostOp DataKey Event → Prop}
    (h : P (.readInstance .pause)) (flag : UInt32) :
    Footprint A P (checkNotPaused flag : M X Unit) := by
  refine .bind (.bind (footprint_storedPauseState h) fun _ => .pure _) fun _ => ?_
  exact .bind .ledgerSequence fun _ => footprint_onlyIf (footprint_ite (by simp) (by simp))

@[simp] theorem footprint_checkTips {gate : Option Feature} {P : HostOp DataKey Event → Prop}
    (h : gate = some .tips) : Footprint (IsGate gate) P (checkNotPaused pauseFlagTips : M X Unit) :=
  .part (.check .tips h)

@[simp] theorem footprint_checkWithdrawals {gate : Option Feature}
    {P : HostOp DataKey Event → Prop} (h : gate = some .withdrawals) :
    Footprint (IsGate gate) P (checkNotPaused pauseFlagWithdrawals : M X Unit) :=
  .part (.check .withdrawals h)

section Migration

variable {A : (α : Type) → M X α → Prop} {entry : Entrypoint}

@[simp] theorem footprint_maybeMigrateCreatorData (creator token : Address) :
    Footprint A entry.Allows (maybeMigrateCreatorData creator token : M X Unit) := by
  refine .bind (by simp) fun _ => footprint_ifSome fun _ => footprint_onlyIf (.bind ?_ fun _ => ?_)
  · refine .bind (by simp) fun _ => footprint_ifSome fun _ => .bind (by simp) fun _ => ?_
    exact .bind (by simp [bumpPersistentTtl]) fun _ => by simp
  · refine .bind (by simp) fun _ => footprint_ifSome fun _ => .bind (by simp) fun _ => ?_
    exact .bind (by simp [bumpPersistentTtl]) fun _ => by simp

@[simp] theorem footprint_maybeMigrateFeeBalance (token : Address) :
    Footprint A entry.Allows (maybeMigrateFeeBalance token : M X Unit) := by
  refine .bind (by simp) fun _ => footprint_ifSome fun _ => .bind (by simp) fun _ => ?_
  refine footprint_ifSome fun _ => footprint_onlyIf (.bind (by simp) fun _ => ?_)
  refine .bind (by simp) fun _ => .bind (by simp) fun _ => ?_
  exact .bind (by simp [bumpPersistentTtl]) fun _ => by simp

@[simp] theorem footprint_getTokens : Footprint A entry.Allows (getTokens : M X (List Address)) := by
  refine .bind (.bind (by simp) fun _ => by simp) fun _ => ?_
  exact .bind (by simp) fun _ => .pure _

@[simp] theorem footprint_getTotalTipsLegacy (creator : Address) :
    Footprint A entry.Allows (getTotalTipsLegacy creator : M X I128) := by
  refine .bind (by simp) fun tokens => ?_
  cases tokens.head? with
  | none => exact .pure 0
  | some token => exact .bind (by simp) fun _ => .bind (by simp) fun _ => .pure _

end Migration

section Helpers

variable {A : (α : Type) → M X α → Prop} {entry : Entrypoint}

@[simp] theorem footprint_bumpInstanceTtl : Footprint A entry.Allows (bumpInstanceTtl : M X Unit) :=
  .instanceExtendTtl _ _ trivial

@[simp] theorem footprint_bumpPersistentTtl (k : DataKey) :
    Footprint A entry.Allows (bumpPersistentTtl k : M X Unit) :=
  footprint_persistentExtendTtl trivial trivial

@[simp] theorem footprint_adminAddress : Footprint A entry.Allows (adminAddress : M X Address) :=
  .bind (by simp) fun _ => by simp

@[simp] theorem footprint_requireAdmin (caller : Address) :
    Footprint A entry.Allows (requireAdmin caller : M X Unit) :=
  .bind (by simp) fun _ => by simp

@[simp] theorem footprint_ensureInitialized :
    Footprint A entry.Allows (ensureInitialized : M X Unit) :=
  .bind (by simp) fun _ => by simp

@[simp] theorem footprint_ensureTokenAllowed (token : Address) :
    Footprint A entry.Allows (ensureTokenAllowed token : M X Unit) :=
  .bind (by simp) fun _ => by simp

@[simp] theorem footprint_feeFor (amount : I128) (bps : UInt32) :
    Footprint A entry.Allows (feeFor amount bps : M X I128) :=
  footprint_ite (.pure 0) (.bind (by simp) fun _ => by simp)

@[simp] theorem footprint_pauseState (h : entry.gate = none) :
    Footprint A entry.Allows (pauseState : M X PauseState) :=
  .bind (footprint_storedPauseState (.inl h)) fun _ => .pure _

theorem footprint_pauseInternal (h : entry.gate = none) (caller : Address) (flag : UInt32) :
    Footprint A entry.Allows (pauseInternal caller flag : M X Unit) := by
  refine .bind (by simp) fun _ => .bind (by simp) fun _ => .bind (by simp [guardianAddress]) ?_
  refine fun _ => .bind (footprint_pauseState h) fun _ => .bind ?_ fun _ => ?_
  · refine footprint_ite (.pure _) (footprint_ite (.bind (by simp) fun _ => ?_) (by simp))
    exact .bind (.bind (by simp) fun _ => .pure _) fun _ => .pure _
  · exact .bind (by simp [h]) fun _ => .bind (by simp) fun _ => by simp [Event.isMoney]

theorem footprint_unpauseInternal (h : entry.gate = none) (caller : Address) (flag : UInt32) :
    Footprint A entry.Allows (unpauseInternal caller flag : M X Unit) := by
  refine .bind (by simp) fun _ => .bind (by simp) fun _ => .bind (footprint_pauseState h) fun _ => ?_
  exact .bind (by simp [h]) fun _ => .bind (by simp) fun _ => by simp [Event.isMoney]

theorem footprint_pauseFlags (h : entry.gate = none) :
    Footprint A entry.Allows (pauseFlags : M X UInt32) :=
  .bind (footprint_pauseState h) fun _ => .bind (by simp) fun _ => .pure _

@[simp] theorem footprint_creditTip (creator token : Address) (amount fee : I128) :
    Footprint A entry.Allows (creditTip creator token amount fee : M X Unit) := by
  refine .bind (by simp) fun _ => .bind (by simp) fun _ => .bind (by simp) fun _ => ?_
  refine .bind (by simp) fun _ => .bind (by simp) fun _ => .bind (by simp) fun _ => ?_
  exact .bind (by simp) fun _ => by simp

theorem footprint_collectFee (h : entry.callsToken = true) (creator token : Address)
    (amount fee : I128) :
    Footprint A entry.Allows (collectFee creator token amount fee : M X Unit) := by
  refine .bind (by simp) fun _ => .bind (by simp) fun _ => .bind (by simp) fun _ => ?_
  exact .bind (by simp) fun _ => .bind (by simp) fun _ => by simp [h]

@[simp] theorem footprint_spendAllowance (creator caller : Address) (amount : I128) :
    Footprint A entry.Allows (spendAllowance creator caller amount : M X Unit) := by
  refine .bind (by simp) fun _ => .bind (by simp) fun _ => .bind (by simp) fun _ => ?_
  refine .bind (by simp) fun _ => .bind (by simp) fun _ => footprint_ite (by simp) ?_
  exact .bind (by simp) fun _ => by simp

@[simp] theorem footprint_applyPendingPayout (creator : Address) :
    Footprint A entry.Allows (applyPendingPayout creator : M X Unit) := by
  refine .bind (by simp) fun _ => footprint_ifSome fun _ => .bind (by simp) fun _ => ?_
  refine footprint_onlyIf (.bind (by simp) fun _ => .bind (by simp) fun _ => ?_)
  exact .bind (by simp) fun _ => by simp [Event.isMoney]

@[simp] theorem footprint_currentPayoutAddress (creator : Address) :
    Footprint A entry.Allows (currentPayoutAddress creator : M X Address) := by
  refine .bind (by simp) fun _ => .bind (by simp) fun _ => ?_
  exact .bind (footprint_onlyIf (by simp)) fun _ => .pure _

end Helpers

/-! ## The entrypoints -/

section Entrypoints

variable {entry : Entrypoint}

theorem footprint_tip (hgate : entry.gate = some .tips) (htoken : entry.callsToken = true)
    (sender creator token : Address) (amount : I128) :
    Footprint (IsGate entry.gate) entry.Allows (tip sender creator token amount : M X Unit) := by
  refine .bind (by simp) fun _ => .bind (footprint_checkTips hgate) fun _ => ?_
  refine .bind (by simp) fun _ => .bind (by simp) fun _ => .bind (by simp) fun _ => ?_
  refine .bind (by simp) fun _ => .bind (by simp) fun _ => .bind (by simp) fun _ => ?_
  refine .bind (by simp) fun _ => .bind (by simp [htoken]) fun _ => .bind (by simp) fun _ => ?_
  refine .bind (footprint_onlyIf (footprint_collectFee htoken _ _ _ _)) fun _ => ?_
  exact .bind (by simp) fun _ => by simp [htoken]

theorem footprint_withdraw (hgate : entry.gate = some .withdrawals)
    (htoken : entry.callsToken = true) (caller creator token dest : Address)
    (amount : Option I128) : Footprint (IsGate entry.gate) entry.Allows
      (withdraw caller creator token dest amount : M X Unit) := by
  refine .bind (by simp) fun _ => .bind (footprint_checkWithdrawals hgate) fun _ => ?_
  refine .bind (by simp) fun _ => .bind (by simp) fun _ => .bind (by simp) fun _ => ?_
  refine .bind (by simp) fun _ => .bind (by simp) fun _ => ?_
  refine .bind (footprint_onlyIf (by simp)) fun _ => .bind (by simp) fun _ => ?_
  refine .bind (by simp) fun _ => .bind (by simp) fun _ => .bind (by simp) fun _ => ?_
  refine .bind (by simp [htoken]) fun _ => .bind (by simp) fun _ => .bind (by simp) fun _ => ?_
  exact .bind (by simp) fun _ => by simp [htoken]

theorem footprint_withdrawFees (htoken : entry.callsToken = true) (caller token : Address)
    (amount : Option I128) :
    Footprint (IsGate entry.gate) entry.Allows (withdrawFees caller token amount : M X Unit) := by
  refine .bind (by simp) fun _ => .bind (by simp) fun _ => .bind (by simp) fun _ => ?_
  refine .bind (by simp) fun _ => .bind (by simp) fun _ => .bind (by simp) fun _ => ?_
  refine .bind (by simp) fun _ => .bind (by simp) fun _ => .bind (by simp) fun _ => ?_
  refine .bind (by simp [htoken]) fun _ => .bind (by simp) fun _ => .bind (by simp) fun _ => ?_
  exact .bind (by simp) fun _ => by simp [htoken]

end Entrypoints

/-- Every operation of an entrypoint is one it may perform. -/
theorem program_footprint (entry : Entrypoint) :
    Footprint (IsGate entry.gate) entry.Allows (program entry : M X Ret) := by
  cases entry with
  | tip => exact .bind (footprint_tip rfl rfl _ _ _ _) fun _ => .pure _
  | withdraw => exact .bind (footprint_withdraw rfl rfl _ _ _ _ _) fun _ => .pure _
  | withdrawFees => exact .bind (footprint_withdrawFees rfl _ _ _) fun _ => .pure _
  | tipLegacy =>
    refine .bind (.bind (by simp) fun _ => .bind (by simp) fun _ => ?_) fun _ => .pure _
    exact footprint_tip rfl rfl _ _ _ _
  | withdrawLegacy =>
    refine .bind (.bind (by simp) fun _ => .bind (by simp) fun _ => ?_) fun _ => .pure _
    exact footprint_withdraw rfl rfl _ _ _ _ _
  | pauseTips | pauseWithdrawals | pauseAll =>
    exact .bind (footprint_pauseInternal rfl _ _) fun _ => .pure _
  | unpauseTips | unpauseWithdrawals | unpauseAll =>
    exact .bind (footprint_unpauseInternal rfl _ _) fun _ => .pure _
  | isFeaturePaused =>
    exact .bind (.bind (footprint_pauseFlags rfl) fun _ => .pure _) fun _ => .pure _
  | pauseFlags => exact .bind (footprint_pauseFlags rfl) fun _ => .pure _
  | guardianPauseExpiryLedger =>
    exact .bind (.bind (footprint_pauseState rfl) fun _ => .pure _) fun _ => .pure _
  | _ =>
    -- no token, no pause entry: the text is taken apart and each operation's permission looked up
    simp only [program, init, getTotalTips, getBalance, addToken, removeToken,
      setPayoutAddress, cancelPayoutAddress, authorizeOperator, revokeOperator, proposeAdmin,
      acceptAdmin, cancelAdminTransfer, getAdmin, getPendingAdmin, proposeUpgrade, cancelUpgrade,
      executeUpgrade, migrate, getDataVersion, setGuardian, setGuardianPauseDuration, getGuardian,
      guardianAddress, setFee, proposeFeeCollector, acceptFeeCollector,
      cancelFeeCollectorTransfer, getPendingFeeCollector, getFeeBps, getFeeCollector,
      getFeeBalance, previewFee]
    repeat' first
      | with_reducible refine .bind ?_ fun _ => ?_
      | with_reducible refine footprint_onlyIf ?_
      | with_reducible refine footprint_ifSome fun _ => ?_
      | simp [Entrypoint.gate, Entrypoint.callsToken, Event.isMoney]

/-- An entrypoint that calls no token does not depend on what the tokens do. -/
theorem run_eq_of_callsToken {entry : Entrypoint} (h : entry.callsToken = false)
    {ctx ctx' : Ctx DataKey DataKey.Val Event Error X}
    (hctx : ctx' = { ctx with transfer := ctx'.transfer })
    (w : World X) : (program entry).run ctx' w = (program entry).run ctx w := by
  refine (program_footprint entry).run_eq hctx ?_ ?_ w
  · rintro _ _ ⟨f, -⟩ v
    have hgate : Footprint (fun _ _ => False) (fun op => op = .readInstance .pause)
        (checkNotPaused f.flag : M X Unit) :=
      footprint_checkNotPaused (by rfl) _
    exact hgate.run_eq hctx (fun _ _ h => h.elim) (by rintro op rfl h; cases h) v
  · rintro op hop rfl
    rw [allows_transfer, h] at hop
    cases hop

end TipJar
