import StellarTipjar.TipJar.Escrow
import StellarTipjar.TipJar.System

/-!
# TipJar — calls that succeed

Total correctness of the getters and the two withdrawals on a host that restores archived
entries: from the checks the function makes to an answer. The specifications of `Escrow` then say
what the answer is (`twp_of_wp`).
-/

namespace TipJar

open Lib Soroban Contract

variable {X : Type}

/-! ## The parts -/

section Parts

variable {ctx : Ctx DataKey DataKey.Val Event Error X} {w : World X}

theorem maybeMigrateCreatorData_runs (harchival : ctx.archival = false) (creator token : Address) :
    twp (maybeMigrateCreatorData creator token) ctx w fun _ w' =>
      MigratedCreator creator token w w' := by
  refine twp_of_wp ?_ (maybeMigrateCreatorData_spec creator token)
  simp [maybeMigrateCreatorData, migrateV1Balance, migrateV1Total, Env.not_archived harchival]

/-- The fee migration runs when the sum of the two counters fits. -/
theorem maybeMigrateFeeBalance_runs (harchival : ctx.archival = false) (token : Address)
    (hv1 : w.pers.get .feeBalance = none) :
    twp (maybeMigrateFeeBalance token) ctx w fun _ w' => MigratedFee token w w' := by
  refine twp_of_wp ?_ (maybeMigrateFeeBalance_spec token)
  simp [maybeMigrateFeeBalance, Env.not_archived harchival, hv1]

theorem applyPendingPayout_runs (harchival : ctx.archival = false) (creator : Address) :
    twp (applyPendingPayout creator) ctx w fun _ _ => True := by
  simp [applyPendingPayout, Env.not_archived harchival]

theorem currentPayoutAddress_runs (harchival : ctx.archival = false) (creator : Address) :
    twp (currentPayoutAddress creator) ctx w fun _ _ => True := by
  simp [currentPayoutAddress, Env.not_archived harchival]

end Parts

/-! ## The calls -/

section Calls

variable {chain : Chain X} {sequence : UInt32} {auth : List Address} {w : World X}

theorem exec_of_twp {entry : Entrypoint} {Q : Ret → World X → Prop}
    (harchival : chain.archival = false)
    (h : twp (program entry) (chain.ctx sequence auth) w Q) :
    ∃ r w', exec chain ⟨sequence, auth, entry⟩ w = .ok (r, w') ∧ Q r w' := by
  have hinvoke : twp (invoke entry) (chain.ctx sequence auth) w Q := by
    simp only [invoke, twp_bind, twp_loadInstance, InstanceLive, Chain.ctx_archival, harchival]
    exact ⟨by simp, h⟩
  exact hinvoke

theorem getTotalTips_succeeds (harchival : chain.archival = false) (creator token : Address) :
    ∃ r w', exec chain ⟨sequence, auth, .getTotalTips creator token⟩ w = .ok (r, w') := by
  have h : twp (program (.getTotalTips creator token)) (chain.ctx sequence auth) w
      fun _ _ => True := by
    simp only [program, getTotalTips, twp_bind]
    refine twp_mono (maybeMigrateCreatorData_runs harchival creator token) ?_
    intro _ w₁ _
    simp [Env.not_archived (show (chain.ctx sequence auth).archival = false from harchival)]
  obtain ⟨r, w', hexec, -⟩ := exec_of_twp harchival h
  exact ⟨r, w', hexec⟩

theorem getBalance_succeeds (harchival : chain.archival = false) (creator token : Address) :
    ∃ r w', exec chain ⟨sequence, auth, .getBalance creator token⟩ w = .ok (r, w') := by
  have h : twp (program (.getBalance creator token)) (chain.ctx sequence auth) w
      fun _ _ => True := by
    simp only [program, getBalance, twp_bind]
    refine twp_mono (maybeMigrateCreatorData_runs harchival creator token) ?_
    intro _ w₁ _
    simp [Env.not_archived (show (chain.ctx sequence auth).archival = false from harchival)]
  obtain ⟨r, w', hexec, -⟩ := exec_of_twp harchival h
  exact ⟨r, w', hexec⟩

theorem getFeeBalance_succeeds (harchival : chain.archival = false) (token : Address)
    (hv1 : w.pers.get .feeBalance = none) :
    ∃ r w', exec chain ⟨sequence, auth, .getFeeBalance token⟩ w = .ok (r, w') := by
  have h : twp (program (.getFeeBalance token)) (chain.ctx sequence auth) w fun _ _ => True := by
    simp only [program, getFeeBalance, twp_bind]
    refine twp_mono (maybeMigrateFeeBalance_runs harchival token hv1) ?_
    intro _ w₁ _
    simp [Env.not_archived (show (chain.ctx sequence auth).archival = false from harchival)]
  obtain ⟨r, w', hexec, -⟩ := exec_of_twp harchival h
  exact ⟨r, w', hexec⟩

/-- A creator's withdrawal runs through when the token pays; without an amount it is of the whole
balance. -/
theorem withdraw_runs (harchival : chain.archival = false) {creator token : Address}
    {amount : Option I128} {paid : I128} (hauth : creator ∈ auth)
    (hpaused : NotPaused pauseFlagWithdrawals sequence w) (hadmin : (w.inst.get .admin).isSome)
    (hpaid : paid.val = (amount.map I128.val).getD (logicalBalance w creator token))
    (hpos : 0 < paid.val) (hle : paid.val ≤ logicalBalance w creator token)
    (hpays : ∃ x, chain.transfer ⟨token, chain.self, payoutOf w creator sequence, paid⟩ w.ext
      = some x) :
    twp (withdraw creator creator token (payoutOf w creator sequence) amount)
      (chain.ctx sequence auth) w fun _ _ => True := by
  have harch : (chain.ctx sequence auth : Ctx DataKey DataKey.Val Event Error X).archival = false :=
    harchival
  have hlive := Env.not_archived harch
  simp only [withdraw, twp_bind, twp_requireAuth, twp_checkNotPaused, twp_ensureInitialized]
  refine ⟨hauth, hpaused, hadmin, ?_⟩
  refine twp_mono (maybeMigrateCreatorData_runs harch creator token) ?_
  intro _ w₁ hmig
  have hbalance : ((w₁.pers.get (.balance creator token) : Option I128).getD 0).val
      = logicalBalance w creator token := by
    rw [hmig.balance, logicalBalance]
  have hrequested :
      amount.getD ((w₁.pers.get (.balance creator token) : Option I128).getD 0) = paid := by
    refine I128.ext ?_
    rw [hpaid]
    cases amount with
    | none => exact hbalance
    | some a => rfl
  simp only [twp_persistentGet, twp_panicIf, twp_onlyIf, ne_eq, not_true_eq_false,
    false_implies, true_and, hrequested]
  refine ⟨hlive _ _, ?_, ?_, ?_⟩
  · intro hzero
    rw [hzero] at hbalance
    have : (0 : I128).val = 0 := rfl
    omega
  · rintro (hneg | hlt)
    · exact absurd hneg (Int.not_le.mpr hpos)
    · have hlt' : ((w₁.pers.get (.balance creator token) : Option I128).getD 0).val
          < paid.val := hlt
      omega
  · intro _
    refine twp_mono (twp_of_wp (applyPendingPayout_runs harch creator)
      (applyPendingPayout_spec creator)) ?_
    rintro _ w₃ ⟨-, -, -, hext₃, hpayout₃, -, -⟩
    refine twp_mono (twp_of_wp (currentPayoutAddress_runs harch creator)
      (currentPayoutAddress_spec creator)) ?_
    rintro payout w₄ ⟨hpayout, honly₄, -⟩
    have hmatured : maturedPayout w₁ creator sequence = maturedPayout w creator sequence := by
      rw [maturedPayout, maturedPayout, pendingPayout, pendingPayout, hmig.rewrites.kept _ rfl]
    have hdest : payout = payoutOf w creator sequence := by
      rw [hpayout, hpayout₃, payoutOf, Chain.ctx_sequence, hmatured, hmig.rewrites.kept _ rfl]
    have hext : w₄.ext = w.ext := by rw [honly₄.ext, hext₃, hmig.ext]
    obtain ⟨x, hx⟩ := hpays
    simp only [twp_currentContractAddress, twp_tokenTransfer, twp_persistentSet,
      twp_bumpPersistentTtl, twp_bumpInstanceTtl, twp_publish]
    refine ⟨fun hne => hne hdest.symm, x, ?_, hlive _ _, hlive _ _, ?_, trivial⟩
    · rw [hext, hdest]
      exact hx
    · simp

/-- A creator's withdrawal succeeds when the token pays. -/
theorem withdraw_succeeds (harchival : chain.archival = false) {creator token : Address}
    {amount : I128} (hauth : creator ∈ auth)
    (hpaused : NotPaused pauseFlagWithdrawals sequence w) (hadmin : (w.inst.get .admin).isSome)
    (hpos : 0 < amount.val) (hle : amount.val ≤ logicalBalance w creator token)
    (hpays : ∃ x, chain.transfer ⟨token, chain.self, payoutOf w creator sequence, amount⟩ w.ext
      = some x) :
    ∃ r w', exec chain ⟨sequence, auth,
        .withdraw creator creator token (payoutOf w creator sequence) (some amount)⟩ w
      = .ok (r, w') := by
  have h : twp (program (.withdraw creator creator token (payoutOf w creator sequence)
      (some amount))) (chain.ctx sequence auth) w fun _ _ => True := by
    simp only [program, twp_bind, twp_pure]
    exact withdraw_runs harchival hauth hpaused hadmin rfl hpos hle hpays
  obtain ⟨r, w', hexec, -⟩ := exec_of_twp harchival h
  exact ⟨r, w', hexec⟩

/-- So does one through the v1 interface, of everything that is there in the first token of the
allowlist. -/
theorem withdrawLegacy_succeeds (harchival : chain.archival = false) {creator token : Address}
    {paid : I128} (hauth : creator ∈ auth)
    (hpaused : NotPaused pauseFlagWithdrawals sequence w) (hadmin : (w.inst.get .admin).isSome)
    (hhead : (allowlist w).head? = some token)
    (hpaid : paid.val = logicalBalance w creator token) (hpos : 0 < paid.val)
    (hpays : ∃ x, chain.transfer ⟨token, chain.self, payoutOf w creator sequence, paid⟩ w.ext
      = some x) :
    ∃ r w', exec chain ⟨sequence, auth,
        .withdrawLegacy creator creator (payoutOf w creator sequence) none⟩ w = .ok (r, w') := by
  have h : twp (program (.withdrawLegacy creator creator (payoutOf w creator sequence) none))
      (chain.ctx sequence auth) w fun _ _ => True := by
    simp only [program, withdrawLegacy, getTokens, twp_bind, twp_ensureInitialized,
      twp_instanceGet, twp_unwrapOrPanic, twp_pure]
    refine ⟨hadmin, token, hhead, ?_⟩
    exact withdraw_runs harchival hauth hpaused hadmin hpaid hpos hpaid.le hpays
  obtain ⟨r, w', hexec, -⟩ := exec_of_twp harchival h
  exact ⟨r, w', hexec⟩

/-- The collector's withdrawal succeeds when the token pays. -/
theorem withdrawFees_succeeds (harchival : chain.archival = false) {collector token : Address}
    {amount : I128} (hauth : collector ∈ auth)
    (hcollector : w.inst.get .feeCollector = some collector)
    (hv1 : w.pers.get .feeBalance = none) (hpos : 0 < amount.val)
    (hle : amount.val ≤ logicalFee w token)
    (hpays : ∃ x, chain.transfer ⟨token, chain.self, collector, amount⟩ w.ext = some x) :
    ∃ r w', exec chain ⟨sequence, auth, .withdrawFees collector token (some amount)⟩ w
      = .ok (r, w') := by
  have harch : (chain.ctx sequence auth : Ctx DataKey DataKey.Val Event Error X).archival = false :=
    harchival
  have hlive := Env.not_archived harch
  have h : twp (program (.withdrawFees collector token (some amount))) (chain.ctx sequence auth) w
      fun _ _ => True := by
    simp only [program, withdrawFees, twp_bind, twp_requireAuth, twp_instanceGet,
      twp_unwrapOrPanic, twp_panicIf]
    refine ⟨hauth, collector, hcollector, fun hne => hne rfl, ?_⟩
    refine twp_mono (maybeMigrateFeeBalance_runs harch token hv1) ?_
    intro _ w₁ hmig
    have hbalance := hmig.fee
    obtain ⟨x, hx⟩ := hpays
    simp only [twp_persistentGet, twp_currentContractAddress, twp_tokenTransfer,
      twp_persistentSet, twp_bumpPersistentTtl, twp_bumpInstanceTtl, twp_publish, twp_pure]
    refine ⟨hlive _ _, ?_, ?_, x, ?_, hlive _ _, hlive _ _, ?_, trivial⟩
    · intro hzero
      rw [hzero] at hbalance
      have : (0 : I128).val = 0 := rfl
      omega
    · rintro (hneg | hlt)
      · exact absurd hneg (Int.not_le.mpr hpos)
      · have hlt' : ((w₁.pers.get (.feeBalanceToken token) : Option I128).getD 0).val
            < amount.val := hlt
        omega
    · rw [hmig.ext]
      exact hx
    · simp
  obtain ⟨r, w', hexec, -⟩ := exec_of_twp harchival h
  exact ⟨r, w', hexec⟩

end Calls

end TipJar
