import StellarTipjar.TipJar.System

/-!
# TipJar — what the governance calls check and write

One specification per entrypoint that writes instance storage: who authorised it, what it checked
and the exact instance storage it leaves. `Governs` collects them into one relation between a
call and the instance storage before and after it, which is all that later arguments about the
admin, the fee collector, the guardian and upgrades look at.
-/

namespace TipJar

open Lib Soroban Contract

variable {X : Type}

/-- Only the instance storage, and its TTL and the event log, differ. -/
structure OnlyInstance (w w' : World X) : Prop where
  pers : w'.pers = w.pers
  transfers : w'.transfers = w.transfers
  wasm : w'.wasm = w.wasm
  ext : w'.ext = w.ext

/-! ## The effects -/

/-- `admin` authorised the call and is the stored admin. -/
def ByAdmin (admin : Address) (auth : List Address) (w : World X) : Prop :=
  admin ∈ auth ∧ w.inst.get .admin = some admin

/-- A successful pause of `flag` by the admin or the guardian. -/
def Paused (caller : Address) (flag : UInt32) (sequence : UInt32) (auth : List Address)
    (w w' : World X) : Prop :=
  caller ∈ auth ∧ ∃ state, pauseStateOf w = some state ∧
    ((w.inst.get .admin = some caller ∧
      w'.inst = w.inst.set .pause (PauseState.encode { state with
        adminFlags := state.adminFlags ||| flag
        guardianFlags := state.guardianFlags &&& ~~~flag })) ∨
    (w.inst.get .admin ≠ some caller ∧ w.inst.get .guardian = some caller ∧
      w'.inst = w.inst.set .pause (PauseState.encode { state with
        guardianFlags := state.guardianFlags ||| flag
        guardianExpiry := sequence +
          (w.inst.get .guardianPauseDuration : Option UInt32).getD
            defaultGuardianPauseDurationLedgers })))

/-- A successful unpause of `flag` by the admin. -/
def Unpaused (caller : Address) (flag : UInt32) (auth : List Address) (w w' : World X) : Prop :=
  ByAdmin caller auth w ∧ ∃ state, pauseStateOf w = some state ∧
    w'.inst = w.inst.set .pause (PauseState.encode { state with
      adminFlags := state.adminFlags &&& ~~~flag
      guardianFlags := state.guardianFlags &&& ~~~flag })

/-- The instance storage `migrate` leaves. -/
def migratedInstance (w : World X) : Store DataKey DataKey.Val :=
  let current : UInt32 := (w.inst.get .dataVersion : Option UInt32).getD 1
  if current < dataVersion then
    (match (w.inst.get .pause : Option StoredPause) with
    | some raw => if current = 1 then w.inst.set .pause { raw with notes := some none } else w.inst
    | none => w.inst).set .dataVersion dataVersion
  else w.inst

/-- What a successful call checked before, and did to, the instance storage. -/
def Governs (call : Call) (w w' : World X) : Prop :=
  match call.entry with
  | .init token admin ledgers =>
    w.inst.get .admin = none ∧ ledgers ≠ 0 ∧ admin ∈ call.auth ∧
      w'.inst = ((((w.inst.set .token token).set .admin admin).set
        .upgradeTimelockLedgers ledgers).set .dataVersion dataVersion).set .allowedTokens [token]
  | .addToken admin token =>
    ByAdmin admin call.auth w ∧ (allowlist w).length < maxAllowedTokens ∧ token ∉ allowlist w ∧
      w'.inst = w.inst.set .allowedTokens (allowlist w ++ [token])
  | .removeToken admin token =>
    ByAdmin admin call.auth w ∧ (removeLoop token (allowlist w)).1 = true ∧
      w'.inst = w.inst.set .allowedTokens (removeLoop token (allowlist w)).2
  | .proposeAdmin admin newAdmin =>
    ByAdmin admin call.auth w ∧ w.inst.get .pendingAdmin = none ∧
      w'.inst = w.inst.set .pendingAdmin (newAdmin, call.sequence + adminTransferExpiryLedgers)
  | .acceptAdmin newAdmin =>
    newAdmin ∈ call.auth ∧
      ∃ expiry, w.inst.get .pendingAdmin = some (newAdmin, expiry) ∧ call.sequence ≤ expiry ∧
        w'.inst = (w.inst.set .admin newAdmin).remove .pendingAdmin
  | .cancelAdminTransfer admin =>
    ByAdmin admin call.auth w ∧ w.inst.get .pendingAdmin ≠ none ∧
      w'.inst = w.inst.remove .pendingAdmin
  | .proposeUpgrade admin hash =>
    ByAdmin admin call.auth w ∧ w.inst.get .pendingUpgrade = none ∧
      ∃ timelock, w.inst.get .upgradeTimelockLedgers = some timelock ∧
        w'.inst = w.inst.set .pendingUpgrade (hash, call.sequence + timelock)
  | .cancelUpgrade admin =>
    ByAdmin admin call.auth w ∧ w.inst.get .pendingUpgrade ≠ none ∧
      w'.inst = w.inst.remove .pendingUpgrade
  | .executeUpgrade =>
    ∃ hash unlock, w.inst.get .pendingUpgrade = some (hash, unlock) ∧ unlock ≤ call.sequence ∧
      w'.inst = w.inst.remove .pendingUpgrade ∧ w'.wasm = some hash
  | .migrate admin => ByAdmin admin call.auth w ∧ w'.inst = migratedInstance w
  | .setGuardian admin guardian =>
    ByAdmin admin call.auth w ∧ w'.inst = w.inst.set .guardian guardian
  | .setGuardianPauseDuration admin ledgers =>
    ByAdmin admin call.auth w ∧ ledgers ≠ 0 ∧
      w'.inst = w.inst.set .guardianPauseDuration ledgers
  | .pauseTips caller => Paused caller pauseFlagTips call.sequence call.auth w w'
  | .pauseWithdrawals caller => Paused caller pauseFlagWithdrawals call.sequence call.auth w w'
  | .pauseAll caller => Paused caller pauseFlagAll call.sequence call.auth w w'
  | .unpauseTips caller => Unpaused caller pauseFlagTips call.auth w w'
  | .unpauseWithdrawals caller => Unpaused caller pauseFlagWithdrawals call.auth w w'
  | .unpauseAll caller => Unpaused caller pauseFlagAll call.auth w w'
  | .setFee admin bps =>
    ByAdmin admin call.auth w ∧ bps ≤ maxFeeBps ∧ w'.inst = w.inst.set .feeBps bps
  | .proposeFeeCollector admin newCollector =>
    ByAdmin admin call.auth w ∧ w.inst.get .feeCollector ≠ some newCollector ∧
      w.inst.get .pendingFeeCollector = none ∧
      w'.inst = w.inst.set .pendingFeeCollector
        (newCollector, call.sequence + adminTransferExpiryLedgers)
  | .acceptFeeCollector newCollector =>
    newCollector ∈ call.auth ∧
      ∃ expiry, w.inst.get .pendingFeeCollector = some (newCollector, expiry) ∧
        call.sequence ≤ expiry ∧
        w'.inst = (w.inst.set .feeCollector newCollector).remove .pendingFeeCollector
  | .cancelFeeCollectorTransfer admin =>
    ByAdmin admin call.auth w ∧ w.inst.get .pendingFeeCollector ≠ none ∧
      w'.inst = w.inst.remove .pendingFeeCollector
  | _ => w'.inst = w.inst

/-! ## The specifications -/

/-- The case of the call's entry point. -/
theorem Governs.of_entry {call : Call} {w w' : World X} {entry : Entrypoint}
    (h : Governs call w w') (hentry : call.entry = entry) :
    Governs ⟨call.sequence, call.auth, entry⟩ w w' := by
  rw [← hentry]
  exact h

section Specs

variable {chain : Chain X} {sequence : UInt32} {auth : List Address} {w : World X}

/-- One specification for each call, of the same form: what it does to the settings, and that it
leaves everything else. -/
theorem init_spec (token admin : Address) (ledgers : UInt32) :
    wp (init token admin ledgers) (chain.ctx sequence auth) w fun _ w' =>
      Governs ⟨sequence, auth, .init token admin ledgers⟩ w w' ∧ OnlyInstance w w' := by
  simp only [init, wp_bind, wp_instanceHas, wp_panicIf, wp_requireAuth, wp_instanceSet,
    wp_bumpInstanceTtl]
  intro hadmin hledgers hauth
  exact ⟨⟨by simpa using hadmin, hledgers, hauth, rfl⟩, rfl, rfl, rfl, rfl⟩

theorem addToken_spec (admin token : Address) :
    wp (addToken admin token) (chain.ctx sequence auth) w fun _ w' =>
      Governs ⟨sequence, auth, .addToken admin token⟩ w w' ∧ OnlyInstance w w' := by
  simp only [addToken, wp_bind, wp_requireAuth, wp_requireAdmin, wp_instanceGet, wp_panicIf,
    wp_instanceSet, wp_bumpInstanceTtl]
  intro hauth hadmin hlen hmem
  exact ⟨⟨⟨hauth, hadmin⟩, not_le.mp hlen, hmem, rfl⟩, rfl, rfl, rfl, rfl⟩

theorem removeToken_spec (admin token : Address) :
    wp (removeToken admin token) (chain.ctx sequence auth) w fun _ w' =>
      Governs ⟨sequence, auth, .removeToken admin token⟩ w w' ∧ OnlyInstance w w' := by
  simp only [removeToken, wp_bind, wp_requireAuth, wp_requireAdmin, wp_instanceGet, wp_panicIf,
    wp_instanceSet, wp_bumpInstanceTtl]
  intro hauth hadmin hfound
  exact ⟨⟨⟨hauth, hadmin⟩, Bool.eq_true_of_not_eq_false hfound, rfl⟩, rfl, rfl, rfl, rfl⟩

theorem proposeAdmin_spec (admin newAdmin : Address) :
    wp (proposeAdmin admin newAdmin) (chain.ctx sequence auth) w fun _ w' =>
      Governs ⟨sequence, auth, .proposeAdmin admin newAdmin⟩ w w' ∧ OnlyInstance w w' := by
  simp only [proposeAdmin, wp_bind, wp_requireAuth, wp_requireAdmin, wp_instanceHas, wp_panicIf,
    wp_ledgerSequence, wp_instanceSet, wp_bumpInstanceTtl, wp_publish]
  intro hauth hadmin hpending
  exact ⟨⟨⟨hauth, hadmin⟩, by simpa using hpending, rfl⟩, rfl, rfl, rfl, rfl⟩

/-- The call of the proposed admin, who signs it. -/
theorem acceptAdmin_spec (newAdmin : Address) :
    wp (acceptAdmin newAdmin) (chain.ctx sequence auth) w fun _ w' =>
      Governs ⟨sequence, auth, .acceptAdmin newAdmin⟩ w w' ∧ OnlyInstance w w' := by
  simp only [acceptAdmin, wp_bind, wp_requireAuth, wp_instanceGet, wp_unwrapOrPanic, wp_panicIf,
    wp_ledgerSequence, wp_instanceSet, wp_instanceRemove, wp_bumpInstanceTtl, wp_publish]
  rintro hauth ⟨pending, expiry⟩ hpending hsame hexpiry
  obtain rfl : pending = newAdmin := not_not.mp hsame
  exact ⟨⟨hauth, expiry, hpending, UInt32.not_lt.mp hexpiry, rfl⟩, rfl, rfl, rfl, rfl⟩

theorem cancelAdminTransfer_spec (admin : Address) :
    wp (cancelAdminTransfer admin) (chain.ctx sequence auth) w fun _ w' =>
      Governs ⟨sequence, auth, .cancelAdminTransfer admin⟩ w w' ∧ OnlyInstance w w' := by
  simp only [cancelAdminTransfer, wp_bind, wp_requireAuth, wp_requireAdmin, wp_instanceHas,
    wp_panicIf, wp_instanceRemove, wp_publish]
  intro hauth hadmin hpending
  refine ⟨⟨⟨hauth, hadmin⟩, fun hnone => hpending ?_, rfl⟩, rfl, rfl, rfl, rfl⟩
  simp [hnone]

theorem proposeUpgrade_spec (admin : Address) (hash : BytesN 32) :
    wp (proposeUpgrade admin hash) (chain.ctx sequence auth) w fun _ w' =>
      Governs ⟨sequence, auth, .proposeUpgrade admin hash⟩ w w' ∧ OnlyInstance w w' := by
  simp only [proposeUpgrade, wp_bind, wp_requireAuth, wp_requireAdmin, wp_instanceHas, wp_panicIf,
    wp_instanceGet, wp_unwrapOrPanic, wp_ledgerSequence, wp_instanceSet, wp_bumpInstanceTtl,
    wp_publish]
  intro hauth hadmin hpending timelock htimelock
  exact ⟨⟨⟨hauth, hadmin⟩, by simpa using hpending, timelock, htimelock, rfl⟩, rfl, rfl, rfl, rfl⟩

theorem cancelUpgrade_spec (admin : Address) :
    wp (cancelUpgrade admin) (chain.ctx sequence auth) w fun _ w' =>
      Governs ⟨sequence, auth, .cancelUpgrade admin⟩ w w' ∧ OnlyInstance w w' := by
  simp only [cancelUpgrade, wp_bind, wp_requireAuth, wp_requireAdmin, wp_instanceGet,
    wp_unwrapOrPanic, wp_instanceRemove, wp_publish]
  intro hauth hadmin pending hpending
  refine ⟨⟨⟨hauth, hadmin⟩, ?_, rfl⟩, rfl, rfl, rfl, rfl⟩
  simp [hpending]

/-- Anyone's call. The code is replaced, and nothing else changes but the pending entry. -/
theorem executeUpgrade_spec :
    wp executeUpgrade (chain.ctx sequence auth) w fun _ w' =>
      Governs ⟨sequence, auth, .executeUpgrade⟩ w w' ∧
        w'.pers = w.pers ∧ w'.transfers = w.transfers ∧ w'.ext = w.ext := by
  simp only [executeUpgrade, wp_bind, wp_instanceGet, wp_unwrapOrPanic, wp_ledgerSequence,
    wp_panicIf, wp_instanceRemove, wp_updateCurrentContractWasm, wp_publish]
  rintro ⟨hash, unlock⟩ hpending hunlock -
  exact ⟨⟨hash, unlock, hpending, UInt32.not_lt.mp hunlock, rfl, rfl⟩, rfl, rfl, rfl⟩

theorem setGuardian_spec (admin guardian : Address) :
    wp (setGuardian admin guardian) (chain.ctx sequence auth) w fun _ w' =>
      Governs ⟨sequence, auth, .setGuardian admin guardian⟩ w w' ∧ OnlyInstance w w' := by
  simp only [setGuardian, wp_bind, wp_requireAuth, wp_requireAdmin, wp_instanceSet,
    wp_bumpInstanceTtl, wp_publish]
  intro hauth hadmin
  exact ⟨⟨⟨hauth, hadmin⟩, rfl⟩, rfl, rfl, rfl, rfl⟩

theorem setGuardianPauseDuration_spec (admin : Address) (ledgers : UInt32) :
    wp (setGuardianPauseDuration admin ledgers) (chain.ctx sequence auth) w fun _ w' =>
      Governs ⟨sequence, auth, .setGuardianPauseDuration admin ledgers⟩ w w' ∧
        OnlyInstance w w' := by
  simp only [setGuardianPauseDuration, wp_bind, wp_requireAuth, wp_requireAdmin, wp_panicIf,
    wp_instanceSet, wp_bumpInstanceTtl]
  intro hauth hadmin hledgers
  exact ⟨⟨⟨hauth, hadmin⟩, hledgers, rfl⟩, rfl, rfl, rfl, rfl⟩

theorem setFee_spec (admin : Address) (bps : UInt32) :
    wp (setFee admin bps) (chain.ctx sequence auth) w fun _ w' =>
      Governs ⟨sequence, auth, .setFee admin bps⟩ w w' ∧ OnlyInstance w w' := by
  simp only [setFee, wp_bind, wp_requireAuth, wp_requireAdmin, wp_panicIf, wp_instanceSet,
    wp_bumpInstanceTtl, wp_publish]
  intro hauth hadmin hbps
  exact ⟨⟨⟨hauth, hadmin⟩, UInt32.not_lt.mp hbps, rfl⟩, rfl, rfl, rfl, rfl⟩

theorem proposeFeeCollector_spec (admin newCollector : Address) :
    wp (proposeFeeCollector admin newCollector) (chain.ctx sequence auth) w fun _ w' =>
      Governs ⟨sequence, auth, .proposeFeeCollector admin newCollector⟩ w w' ∧
        OnlyInstance w w' := by
  simp only [proposeFeeCollector, wp_bind, wp_requireAuth, wp_requireAdmin, wp_instanceGet,
    wp_instanceHas, wp_panicIf, wp_ledgerSequence, wp_instanceSet, wp_bumpInstanceTtl, wp_publish]
  intro hauth hadmin hcurrent hpending
  exact ⟨⟨⟨hauth, hadmin⟩, hcurrent, by simpa using hpending, rfl⟩, rfl, rfl, rfl, rfl⟩

theorem acceptFeeCollector_spec (newCollector : Address) :
    wp (acceptFeeCollector newCollector) (chain.ctx sequence auth) w fun _ w' =>
      Governs ⟨sequence, auth, .acceptFeeCollector newCollector⟩ w w' ∧ OnlyInstance w w' := by
  simp only [acceptFeeCollector, wp_bind, wp_requireAuth, wp_instanceGet, wp_unwrapOrPanic,
    wp_panicIf, wp_ledgerSequence, wp_instanceSet, wp_instanceRemove, wp_bumpInstanceTtl,
    wp_publish]
  rintro hauth ⟨pending, expiry⟩ hpending hsame hexpiry
  obtain rfl : pending = newCollector := not_not.mp hsame
  exact ⟨⟨hauth, expiry, hpending, UInt32.not_lt.mp hexpiry, rfl⟩, rfl, rfl, rfl, rfl⟩

theorem cancelFeeCollectorTransfer_spec (admin : Address) :
    wp (cancelFeeCollectorTransfer admin) (chain.ctx sequence auth) w fun _ w' =>
      Governs ⟨sequence, auth, .cancelFeeCollectorTransfer admin⟩ w w' ∧ OnlyInstance w w' := by
  simp only [cancelFeeCollectorTransfer, wp_bind, wp_requireAuth, wp_requireAdmin, wp_instanceHas,
    wp_panicIf, wp_instanceRemove, wp_publish]
  intro hauth hadmin hpending
  refine ⟨⟨⟨hauth, hadmin⟩, fun hnone => hpending ?_, rfl⟩, rfl, rfl, rfl, rfl⟩
  simp [hnone]

/-! ### The circuit breaker -/

/-- The body of the pauses. -/
theorem pauseInternal_spec (caller : Address) (flag : UInt32) :
    wp (pauseInternal caller flag) (chain.ctx sequence auth) w fun _ w' =>
      Paused caller flag sequence auth w w' ∧ OnlyInstance w w' := by
  simp only [pauseInternal, guardianAddress, guardianPauseDuration, wp_bind, wp_requireAuth,
    wp_adminAddress, wp_instanceGet, wp_pauseState, wp_ite, wp_pure, wp_ledgerSequence,
    wp_panicWithError, wp_instanceSet, wp_bumpInstanceTtl, wp_publish]
  intro hauth admin hadmin state hstate
  refine ⟨?_, fun hne => ⟨fun hguardian => ?_, fun _ => trivial⟩⟩
  · rintro rfl
    exact ⟨⟨hauth, state, hstate, .inl ⟨hadmin, rfl⟩⟩, rfl, rfl, rfl, rfl⟩
  · have hnot : w.inst.get .admin ≠ some caller := by
      rw [hadmin]
      exact fun h => hne (Option.some.inj h).symm
    exact ⟨⟨hauth, state, hstate, .inr ⟨hnot, hguardian, rfl⟩⟩, rfl, rfl, rfl, rfl⟩

/-- The body of the unpauses. -/
theorem unpauseInternal_spec (caller : Address) (flag : UInt32) :
    wp (unpauseInternal caller flag) (chain.ctx sequence auth) w fun _ w' =>
      Unpaused caller flag auth w w' ∧ OnlyInstance w w' := by
  simp only [unpauseInternal, wp_bind, wp_requireAuth, wp_requireAdmin, wp_pauseState,
    wp_instanceSet, wp_bumpInstanceTtl, wp_publish]
  intro hauth hadmin state hstate
  exact ⟨⟨⟨hauth, hadmin⟩, state, hstate, rfl⟩, rfl, rfl, rfl, rfl⟩

theorem migrate_spec (admin : Address) :
    wp (migrate admin) (chain.ctx sequence auth) w fun _ w' =>
      Governs ⟨sequence, auth, .migrate admin⟩ w w' ∧ OnlyInstance w w' := by
  simp only [migrate, wp_bind, wp_requireAuth, wp_requireAdmin, wp_instanceGet, wp_onlyIf,
    wp_storedPauseState, wp_ifSome, wp_instanceSet, wp_publish]
  intro hauth hadmin
  refine ⟨fun hold => ⟨fun hone => ⟨fun hpause => ⟨fun _ => ?_, by simp⟩, ?_⟩, fun hone => ?_⟩,
    fun hnew => ?_⟩
  · refine ⟨⟨⟨hauth, hadmin⟩, ?_⟩, rfl, rfl, rfl, rfl⟩
    simp only [migratedInstance, if_pos hold, hpause]
    rfl
  · intro raw hraw state hstate
    refine ⟨by simp, fun a ha => ⟨⟨⟨hauth, hadmin⟩, ?_⟩, rfl, rfl, rfl, rfl⟩⟩
    obtain rfl := Option.some.inj ha
    simp only [migratedInstance, if_pos hold, if_pos hone, hraw]
    unfold StoredPause.decode at hstate
    obtain ⟨notes, -, rfl⟩ := Option.map_eq_some_iff.mp hstate
    rfl
  · refine ⟨⟨⟨hauth, hadmin⟩, ?_⟩, rfl, rfl, rfl, rfl⟩
    simp only [migratedInstance, if_pos hold, if_neg hone]
    cases (w.inst.get .pause : Option StoredPause) <;> rfl
  · refine ⟨⟨⟨hauth, hadmin⟩, ?_⟩, rfl, rfl, rfl, rfl⟩
    simp only [migratedInstance, if_neg hnew]

end Specs

/-! ## Which call writes which key -/

/-- The instance keys an entrypoint can write. -/
def Entrypoint.instanceWrites : Entrypoint → List DataKey
  | .init .. => [.token, .admin, .upgradeTimelockLedgers, .dataVersion, .allowedTokens]
  | .addToken .. | .removeToken .. => [.allowedTokens]
  | .proposeAdmin .. | .cancelAdminTransfer .. => [.pendingAdmin]
  | .acceptAdmin .. => [.admin, .pendingAdmin]
  | .proposeUpgrade .. | .cancelUpgrade .. | .executeUpgrade => [.pendingUpgrade]
  | .migrate .. => [.pause, .dataVersion]
  | .setGuardian .. => [.guardian]
  | .setGuardianPauseDuration .. => [.guardianPauseDuration]
  | .pauseTips .. | .pauseWithdrawals .. | .pauseAll .. => [.pause]
  | .unpauseTips .. | .unpauseWithdrawals .. | .unpauseAll .. => [.pause]
  | .setFee .. => [.feeBps]
  | .proposeFeeCollector .. | .cancelFeeCollectorTransfer .. => [.pendingFeeCollector]
  | .acceptFeeCollector .. => [.feeCollector, .pendingFeeCollector]
  | _ => []

section Writes

variable {call : Call} {w w' : World X} {k : DataKey}

/-- `migrate` touches two keys. -/
theorem migratedInstance_frame (hk : k ∉ [DataKey.pause, .dataVersion]) :
    (migratedInstance w).get k = w.inst.get k := by
  simp only [List.mem_cons, List.not_mem_nil, or_false, not_or] at hk
  obtain ⟨hpause, hversion⟩ := hk
  unfold migratedInstance
  simp only
  split
  · rw [Store.get_set_of_ne _ hversion]
    split
    · split
      · rw [Store.get_set_of_ne _ hpause]
      · rfl
    · rfl
  · rfl

/-- A pause touches one key. -/
theorem Paused.frame {caller : Address} {flag sequence : UInt32} {auth : List Address}
    (h : Paused caller flag sequence auth w w') (hk : k ≠ .pause) :
    w'.inst.get k = w.inst.get k := by
  obtain ⟨-, state, -, ⟨-, hinst⟩ | ⟨-, -, hinst⟩⟩ := h
  · rw [hinst, Store.get_set_of_ne _ hk]
  · rw [hinst, Store.get_set_of_ne _ hk]

/-- As does an unpause. -/
theorem Unpaused.frame {caller : Address} {flag : UInt32} {auth : List Address}
    (h : Unpaused caller flag auth w w') (hk : k ≠ .pause) :
    w'.inst.get k = w.inst.get k := by
  obtain ⟨-, state, -, hinst⟩ := h
  rw [hinst, Store.get_set_of_ne _ hk]

/-- A call leaves every instance key alone that it is not listed as writing. -/
theorem Governs.frame (h : Governs call w w') (hk : k ∉ call.entry.instanceWrites) :
    w'.inst.get k = w.inst.get k := by
  obtain ⟨sequence, auth, entry⟩ := call
  cases entry with
  | init token admin ledgers =>
    obtain ⟨-, -, -, hinst⟩ := h
    simp only [Entrypoint.instanceWrites, List.mem_cons, List.not_mem_nil, or_false, not_or] at hk
    obtain ⟨h₁, h₂, h₃, h₄, h₅⟩ := hk
    rw [hinst, Store.get_set_of_ne _ h₅, Store.get_set_of_ne _ h₄, Store.get_set_of_ne _ h₃,
      Store.get_set_of_ne _ h₂, Store.get_set_of_ne _ h₁]
  | addToken admin token =>
    obtain ⟨-, -, -, hinst⟩ := h
    rw [hinst, Store.get_set_of_ne _ (List.ne_of_not_mem_cons hk)]
  | removeToken admin token =>
    obtain ⟨-, -, hinst⟩ := h
    rw [hinst, Store.get_set_of_ne _ (List.ne_of_not_mem_cons hk)]
  | proposeAdmin admin newAdmin =>
    obtain ⟨-, -, hinst⟩ := h
    rw [hinst, Store.get_set_of_ne _ (List.ne_of_not_mem_cons hk)]
  | acceptAdmin newAdmin =>
    obtain ⟨-, expiry, -, -, hinst⟩ := h
    simp only [Entrypoint.instanceWrites, List.mem_cons, List.not_mem_nil, or_false, not_or] at hk
    rw [hinst, Store.get_remove_of_ne _ hk.2, Store.get_set_of_ne _ hk.1]
  | cancelAdminTransfer admin =>
    obtain ⟨-, -, hinst⟩ := h
    rw [hinst, Store.get_remove_of_ne _ (List.ne_of_not_mem_cons hk)]
  | proposeUpgrade admin hash =>
    obtain ⟨-, -, timelock, -, hinst⟩ := h
    rw [hinst, Store.get_set_of_ne _ (List.ne_of_not_mem_cons hk)]
  | cancelUpgrade admin =>
    obtain ⟨-, -, hinst⟩ := h
    rw [hinst, Store.get_remove_of_ne _ (List.ne_of_not_mem_cons hk)]
  | executeUpgrade =>
    obtain ⟨hash, unlock, -, -, hinst, -⟩ := h
    rw [hinst, Store.get_remove_of_ne _ (List.ne_of_not_mem_cons hk)]
  | migrate admin =>
    obtain ⟨-, hinst⟩ := h
    rw [hinst, migratedInstance_frame hk]
  | setGuardian admin guardian =>
    obtain ⟨-, hinst⟩ := h
    rw [hinst, Store.get_set_of_ne _ (List.ne_of_not_mem_cons hk)]
  | setGuardianPauseDuration admin ledgers =>
    obtain ⟨-, -, hinst⟩ := h
    rw [hinst, Store.get_set_of_ne _ (List.ne_of_not_mem_cons hk)]
  | pauseTips caller => exact Paused.frame h (List.ne_of_not_mem_cons hk)
  | pauseWithdrawals caller => exact Paused.frame h (List.ne_of_not_mem_cons hk)
  | pauseAll caller => exact Paused.frame h (List.ne_of_not_mem_cons hk)
  | unpauseTips caller => exact Unpaused.frame h (List.ne_of_not_mem_cons hk)
  | unpauseWithdrawals caller => exact Unpaused.frame h (List.ne_of_not_mem_cons hk)
  | unpauseAll caller => exact Unpaused.frame h (List.ne_of_not_mem_cons hk)
  | setFee admin bps =>
    obtain ⟨-, -, hinst⟩ := h
    rw [hinst, Store.get_set_of_ne _ (List.ne_of_not_mem_cons hk)]
  | proposeFeeCollector admin newCollector =>
    obtain ⟨-, -, -, hinst⟩ := h
    rw [hinst, Store.get_set_of_ne _ (List.ne_of_not_mem_cons hk)]
  | acceptFeeCollector newCollector =>
    obtain ⟨-, expiry, -, -, hinst⟩ := h
    simp only [Entrypoint.instanceWrites, List.mem_cons, List.not_mem_nil, or_false, not_or] at hk
    rw [hinst, Store.get_remove_of_ne _ hk.2, Store.get_set_of_ne _ hk.1]
  | cancelFeeCollectorTransfer admin =>
    obtain ⟨-, -, hinst⟩ := h
    rw [hinst, Store.get_remove_of_ne _ (List.ne_of_not_mem_cons hk)]
  | _ =>
    have hinst : w'.inst = w.inst := h
    rw [hinst]

/-- An instance key that changed is one the call writes. -/
theorem Governs.mem_writes (h : Governs call w w') (hne : w'.inst.get k ≠ w.inst.get k) :
    k ∈ call.entry.instanceWrites := by
  by_contra hk
  exact hne (h.frame hk)

/-- Only `init` writes these keys, and only before there is an admin. -/
theorem Governs.frozen (h : Governs call w w') (hadmin : (w.inst.get .admin).isSome)
    (hk : k = .token ∨ k = .upgradeTimelockLedgers) : w'.inst.get k = w.inst.get k := by
  by_contra hne
  have hmem := h.mem_writes hne
  obtain ⟨sequence, auth, entry⟩ := call
  cases entry with
  | init token admin ledgers =>
    have hnone : w.inst.get .admin = none := h.1
    rw [hnone] at hadmin
    cases hadmin
  | _ =>
    rcases hk with rfl | rfl
    · revert hmem
      simp [Entrypoint.instanceWrites]
    · revert hmem
      simp [Entrypoint.instanceWrites]

/-- The admin is set for good. -/
theorem Governs.admin_isSome (h : Governs call w w') (hadmin : (w.inst.get .admin).isSome) :
    (w'.inst.get .admin).isSome := by
  by_cases hne : w'.inst.get .admin = w.inst.get .admin
  · rw [hne]
    exact hadmin
  have hmem := h.mem_writes hne
  obtain ⟨sequence, auth, entry⟩ := call
  cases entry with
  | init token admin ledgers =>
    obtain ⟨-, -, -, hinst⟩ := h
    rw [hinst]
    simp
  | acceptAdmin newAdmin =>
    obtain ⟨-, expiry, -, -, hinst⟩ := h
    rw [hinst]
    simp
  | _ =>
    revert hmem
    simp [Entrypoint.instanceWrites]

/-- The stored rate never exceeds the cap. -/
theorem Governs.feeRate_le (h : Governs call w w') (hrate : feeRate w ≤ maxFeeBps) :
    feeRate w' ≤ maxFeeBps := by
  by_cases hne : w'.inst.get .feeBps = w.inst.get .feeBps
  · rw [feeRate, hne]
    exact hrate
  have hmem := h.mem_writes hne
  obtain ⟨sequence, auth, entry⟩ := call
  cases entry with
  | setFee admin bps =>
    obtain ⟨-, hbps, hinst⟩ := h
    rw [feeRate, hinst]
    simpa using hbps
  | _ =>
    revert hmem
    simp [Entrypoint.instanceWrites]

/-- What the contract writes it can decode. -/
theorem pauseStateOf_of_encode {state : PauseState}
    (h : w'.inst = w.inst.set .pause state.encode) : (pauseStateOf w').isSome := by
  rw [pauseStateOf, h]
  simp

theorem Paused.pauseStateOf_isSome {caller : Address} {flag sequence : UInt32}
    {auth : List Address} (h : Paused caller flag sequence auth w w') :
    (pauseStateOf w').isSome := by
  obtain ⟨-, state, -, ⟨-, hinst⟩ | ⟨-, -, hinst⟩⟩ := h
  · exact pauseStateOf_of_encode hinst
  · exact pauseStateOf_of_encode hinst

theorem Unpaused.pauseStateOf_isSome {caller : Address} {flag : UInt32} {auth : List Address}
    (h : Unpaused caller flag auth w w') : (pauseStateOf w').isSome := by
  obtain ⟨-, state, -, hinst⟩ := h
  exact pauseStateOf_of_encode hinst

/-- `migrate` keeps the pause entry or stores it with empty notes. -/
theorem migratedInstance_pause (w : World X) :
    (migratedInstance w).get .pause = w.inst.get .pause ∨
      ∃ raw : StoredPause,
        (migratedInstance w).get .pause = some { raw with notes := some none } := by
  unfold migratedInstance
  simp only
  split
  · rw [Store.get_set_of_ne _ (by simp)]
    split
    · next raw hraw =>
      split
      · exact .inr ⟨raw, by simp⟩
      · exact .inl rfl
    · exact .inl rfl
  · exact .inl rfl

/-- Every call leaves a pause state that decodes. -/
theorem Governs.pauseStateOf_isSome (h : Governs call w w') (hw : (pauseStateOf w).isSome) :
    (pauseStateOf w').isSome := by
  by_cases hne : w'.inst.get .pause = w.inst.get .pause
  · rw [pauseStateOf, hne]
    exact hw
  have hmem := h.mem_writes hne
  obtain ⟨sequence, auth, entry⟩ := call
  cases entry with
  | migrate admin =>
    obtain ⟨-, hinst⟩ := h
    rcases migratedInstance_pause w with hsame | ⟨raw, hraw⟩
    · exact absurd (by rw [hinst, hsame]) hne
    · rw [pauseStateOf, hinst, hraw]
      rfl
  | pauseTips caller => exact Paused.pauseStateOf_isSome h
  | pauseWithdrawals caller => exact Paused.pauseStateOf_isSome h
  | pauseAll caller => exact Paused.pauseStateOf_isSome h
  | unpauseTips caller => exact Unpaused.pauseStateOf_isSome h
  | unpauseWithdrawals caller => exact Unpaused.pauseStateOf_isSome h
  | unpauseAll caller => exact Unpaused.pauseStateOf_isSome h
  | _ =>
    revert hmem
    simp [Entrypoint.instanceWrites]

end Writes

end TipJar
