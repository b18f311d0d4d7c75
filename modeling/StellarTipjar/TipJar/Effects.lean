import StellarTipjar.TipJar.Governance
import StellarTipjar.TipJar.Escrow

/-!
# TipJar — everything a successful call can do

`exec_effect` is the inversion lemma of the contract: a successful call falls into one of the
cases of `Effect`, and `exec_governs` adds what it did to the instance storage. Every invariant
below is proved from these two, never by unfolding an entrypoint again.

The v1 entrypoints resolve the default token and then are the v2 ones (`resolve`).
-/

namespace TipJar

open Lib Soroban Contract

variable {X : Type}

/-! ## Payout and operator calls -/

/-- Only one persistent entry, and TTLs and the event log, differ: the entry of `k` is `v`. -/
structure WritesEntry (k : DataKey) (v : Option (DataKey.Val k)) (w w' : World X) : Prop where
  inst : w'.inst = w.inst
  wasm : w'.wasm = w.wasm
  transfers : w'.transfers = w.transfers
  ext : w'.ext = w.ext
  entry : w'.pers.get k = v
  frame : ∀ j, j ≠ k → w'.pers.get j = w.pers.get j

section PayoutSpecs

variable {chain : Chain X} {sequence : UInt32} {auth : List Address} {w : World X}

/-- The creator signs, withdrawals are not paused, and the pending entry is written. -/
theorem setPayoutAddress_spec (creator payout : Address) :
    wp (setPayoutAddress creator payout) (chain.ctx sequence auth) w fun _ w' =>
      creator ∈ auth ∧ NotPaused pauseFlagWithdrawals sequence w ∧
        WritesEntry (.pendingPayoutChange creator) (some (payout, sequence + payoutDelayLedgers))
          w w' := by
  simp only [setPayoutAddress, wp_bind, wp_requireAuth, wp_checkNotPaused, wp_ledgerSequence,
    wp_persistentSet, wp_bumpPersistentTtl, wp_bumpInstanceTtl, wp_publish]
  intro hauth hpaused _ _ _
  refine ⟨hauth, hpaused, rfl, rfl, rfl, rfl, ?_, fun k hk => ?_⟩
  · simp
  · simp [hk]

/-- There is a pending entry, and it is removed. -/
theorem cancelPayoutAddress_spec (creator : Address) :
    wp (cancelPayoutAddress creator) (chain.ctx sequence auth) w fun _ w' =>
      creator ∈ auth ∧ NotPaused pauseFlagWithdrawals sequence w ∧ pendingPayout w creator ≠ none ∧
        WritesEntry (.pendingPayoutChange creator) none w w' := by
  simp only [cancelPayoutAddress, wp_bind, wp_requireAuth, wp_checkNotPaused, wp_persistentHas,
    wp_panicIf, wp_persistentRemove, wp_publish]
  intro hauth hpaused _ hpresent _
  refine ⟨hauth, hpaused, fun hnone => hpresent ?_, rfl, rfl, rfl, rfl, ?_, fun k hk => ?_⟩
  · have hget : w.pers.get (.pendingPayoutChange creator) = none := hnone
    rw [hget]
    rfl
  · simp
  · simp [hk]

/-- The grant is written, whatever was there. -/
theorem authorizeOperator_spec (creator operator : Address) (allowance : I128)
    (expiryLedger : UInt32) :
    wp (authorizeOperator creator operator allowance expiryLedger) (chain.ctx sequence auth) w
      fun _ w' => creator ∈ auth ∧
        WritesEntry (.operator creator operator) (some (allowance, expiryLedger)) w w' := by
  simp only [authorizeOperator, wp_bind, wp_requireAuth, wp_checkNotPaused, wp_persistentSet,
    wp_bumpPersistentTtl, wp_bumpInstanceTtl, wp_publish]
  intro hauth _ _ _ _
  refine ⟨hauth, rfl, rfl, rfl, rfl, ?_, fun k hk => ?_⟩
  · simp
  · simp [hk]

/-- The grant is removed. -/
theorem revokeOperator_spec (creator operator : Address) :
    wp (revokeOperator creator operator) (chain.ctx sequence auth) w fun _ w' =>
      creator ∈ auth ∧ WritesEntry (.operator creator operator) none w w' := by
  simp only [revokeOperator, wp_bind, wp_requireAuth, wp_checkNotPaused, wp_persistentRemove,
    wp_publish]
  intro hauth _ _
  refine ⟨hauth, rfl, rfl, rfl, rfl, ?_, fun k hk => ?_⟩
  · simp
  · simp [hk]

end PayoutSpecs

/-! ## The v1 entrypoints -/

/-- The v2 call a v1 call amounts to: the default token is the head of the allowlist. -/
def resolve (w : World X) : Entrypoint → Entrypoint
  | .tipLegacy sender creator amount =>
    match (allowlist w).head? with
    | some token => .tip sender creator token amount
    | none => .tipLegacy sender creator amount
  | .withdrawLegacy caller creator dest amount =>
    match (allowlist w).head? with
    | some token => .withdraw caller creator token dest amount
    | none => .withdrawLegacy caller creator dest amount
  | entry => entry

section Legacy

variable {chain : Chain X} {sequence : UInt32} {auth : List Address} {w : World X}

theorem wp_getTokens {ctx : Ctx DataKey DataKey.Val Event Error X}
    {Q : List Address → World X → Prop} :
    wp getTokens ctx w Q ↔ ((w.inst.get .admin).isSome → Q (allowlist w) w) := by
  simp [getTokens, allowlist]

/-- A v1 tip is a tip in the first allowed token. -/
theorem tipLegacy_spec (sender creator : Address) (amount : I128) :
    wp (tipLegacy sender creator amount) (chain.ctx sequence auth) w fun _ w' =>
      ∃ token fee, (allowlist w).head? = some token ∧
        Tipped chain sequence auth sender creator token amount fee w w' := by
  simp only [tipLegacy, wp_bind, wp_getTokens, wp_unwrapOrPanic]
  intro _ token htoken
  refine wp_mono (tip_spec sender creator token amount) ?_
  rintro _ w' ⟨fee, h⟩
  exact ⟨token, fee, htoken, h⟩

/-- A v1 withdrawal is one in the first allowed token. -/
theorem withdrawLegacy_spec (caller creator dest : Address) (amount : Option I128) :
    wp (withdrawLegacy caller creator dest amount) (chain.ctx sequence auth) w fun _ w' =>
      ∃ token paid, (allowlist w).head? = some token ∧
        Withdrawn chain sequence auth caller creator token dest amount paid w w' := by
  simp only [withdrawLegacy, wp_bind, wp_getTokens, wp_unwrapOrPanic]
  intro _ token htoken
  refine wp_mono (withdraw_spec caller creator token dest amount) ?_
  rintro _ w' ⟨paid, h⟩
  exact ⟨token, paid, htoken, h⟩

theorem Rewrites.refl (w : World X) : Rewrites id w w :=
  ⟨rfl, rfl, rfl, rfl, rfl, id, fun _ _ => .inr rfl, fun _ _ => rfl⟩

theorem getTotalTipsLegacy_spec {ctx : Ctx DataKey DataKey.Val Event Error X}
    (creator : Address) :
    wp (getTotalTipsLegacy creator) ctx w fun _ w' => Rewrites id w w' := by
  simp only [getTotalTipsLegacy, wp_bind, wp_getTokens]
  intro _
  cases (allowlist w).head? with
  | none => exact (wp_pure _).mpr (.refl w)
  | some token => exact wp_mono (getTotalTips_spec creator token) fun _ _ h => h.2

end Legacy

/-! ## The inversion lemma -/

/-- The getters that migrate. -/
def Entrypoint.isQuery : Entrypoint → Bool
  | .getTotalTips .. | .getBalance .. | .getFeeBalance .. | .getTotalTipsLegacy .. => true
  | _ => false

/-- The calls that leave the persistent storage and all tokens alone. -/
def Entrypoint.isGovernance : Entrypoint → Bool
  | .tip .. | .tipLegacy .. | .withdraw .. | .withdrawLegacy .. | .withdrawFees .. => false
  | .getTotalTips .. | .getBalance .. | .getFeeBalance .. | .getTotalTipsLegacy .. => false
  | .setPayoutAddress .. | .cancelPayoutAddress .. => false
  | .authorizeOperator .. | .revokeOperator .. => false
  | _ => true

/-- What a successful call did to the persistent storage and the tokens. -/
inductive Effect (chain : Chain X) (call : Call) (w w' : World X) : Prop where
  | tipped (sender creator token : Address) (amount fee : I128)
      (entry : resolve w call.entry = .tip sender creator token amount)
      (h : Tipped chain call.sequence call.auth sender creator token amount fee w w')
  | withdrawn (caller creator token dest : Address) (amount : Option I128) (paid : I128)
      (entry : resolve w call.entry = .withdraw caller creator token dest amount)
      (h : Withdrawn chain call.sequence call.auth caller creator token dest amount paid w w')
  | feesWithdrawn (caller token : Address) (amount : Option I128) (paid : I128)
      (entry : call.entry = .withdrawFees caller token amount)
      (h : FeesWithdrawn chain call.auth caller token amount paid w w')
  | queried (entry : call.entry.isQuery = true) (h : Rewrites id w w')
  | payoutProposed (creator payout : Address)
      (entry : call.entry = .setPayoutAddress creator payout) (auth : creator ∈ call.auth)
      (h : WritesEntry (.pendingPayoutChange creator)
        (some (payout, call.sequence + payoutDelayLedgers)) w w')
  | payoutCancelled (creator : Address) (entry : call.entry = .cancelPayoutAddress creator)
      (auth : creator ∈ call.auth) (pending : pendingPayout w creator ≠ none)
      (h : WritesEntry (.pendingPayoutChange creator) none w w')
  | operatorSet (creator operator : Address) (allowance : I128) (expiry : UInt32)
      (entry : call.entry = .authorizeOperator creator operator allowance expiry)
      (auth : creator ∈ call.auth)
      (h : WritesEntry (.operator creator operator) (some (allowance, expiry)) w w')
  | operatorRevoked (creator operator : Address)
      (entry : call.entry = .revokeOperator creator operator) (auth : creator ∈ call.auth)
      (h : WritesEntry (.operator creator operator) none w w')
  | governed (entry : call.entry.isGovernance = true) (pers : w'.pers = w.pers)
      (transfers : w'.transfers = w.transfers) (ext : w'.ext = w.ext)
      (wasm : call.entry ≠ .executeUpgrade → w'.wasm = w.wasm)

/-- The instance storage is the same. -/
theorem Effect.inst {chain : Chain X} {call : Call} {w w' : World X} (h : Effect chain call w w')
    (hentry : call.entry.isGovernance = false) : w'.inst = w.inst := by
  cases h with
  | tipped _ _ _ _ _ _ h => exact h.moves.inst
  | withdrawn _ _ _ _ _ _ _ h => exact h.moves.inst
  | feesWithdrawn _ _ _ _ _ h => exact h.moves.inst
  | queried _ h => exact h.inst
  | payoutProposed _ _ _ _ h => exact h.inst
  | payoutCancelled _ _ _ _ h => exact h.inst
  | operatorSet _ _ _ _ _ _ h => exact h.inst
  | operatorRevoked _ _ _ _ h => exact h.inst
  | governed entry => rw [hentry] at entry; cases entry

/-- Only `execute_upgrade` installs code. -/
theorem Effect.wasm {chain : Chain X} {call : Call} {w w' : World X} (h : Effect chain call w w')
    (hentry : call.entry ≠ .executeUpgrade) : w'.wasm = w.wasm := by
  cases h with
  | tipped _ _ _ _ _ _ h => exact h.moves.wasm
  | withdrawn _ _ _ _ _ _ _ h => exact h.moves.wasm
  | feesWithdrawn _ _ _ _ _ h => exact h.moves.wasm
  | queried _ h => exact h.wasm
  | payoutProposed _ _ _ _ h => exact h.wasm
  | payoutCancelled _ _ _ _ h => exact h.wasm
  | operatorSet _ _ _ _ _ _ h => exact h.wasm
  | operatorRevoked _ _ _ _ h => exact h.wasm
  | governed _ _ _ _ wasm => exact wasm hentry

section Program

variable {chain : Chain X} {call : Call} {w : World X} {α : Type}

/-- What one call does, persistent and instance storage together. -/
def Does (chain : Chain X) (call : Call) (w w' : World X) : Prop :=
  Effect chain call w w' ∧ Governs call w w'

-- the three shapes of `program`: a governance call, a read-only getter, a call on the counters
-- or the payout keys

/-- A call of the governance, as an effect: it leaves the ledger. -/
theorem does_of_governs {m : M X Unit} {ctx : Ctx DataKey DataKey.Val Event Error X}
    (hentry : call.entry.isGovernance = true)
    (h : wp m ctx w fun _ w' => Governs call w w' ∧ OnlyInstance w w') :
    wp (m >>= fun _ => pure Ret.unit) ctx w fun _ w' => Does chain call w w' := by
  rw [wp_bind]
  refine wp_mono h ?_
  rintro _ w' ⟨hgov, honly⟩
  exact (wp_pure _).mpr
    ⟨.governed hentry honly.pers honly.transfers honly.ext fun _ => honly.wasm, hgov⟩

/-- A getter of the settings has none. -/
theorem does_of_read {m : M X α} {f : α → Ret} {ctx : Ctx DataKey DataKey.Val Event Error X}
    (hentry : call.entry.isGovernance = true) (hgov : Governs call w w)
    (h : wp m ctx w fun _ w' => w' = w) :
    wp (m >>= fun a => pure (f a)) ctx w fun _ w' => Does chain call w w' := by
  rw [wp_bind]
  refine wp_mono h ?_
  rintro _ w' rfl
  exact (wp_pure _).mpr ⟨.governed hentry rfl rfl rfl fun _ => rfl, hgov⟩

/-- Any other call leaves the settings. -/
theorem does_of_effect {m : M X α} {f : α → Ret} {ctx : Ctx DataKey DataKey.Val Event Error X}
    (hentry : call.entry.isGovernance = false)
    (hgov : ∀ w' : World X, w'.inst = w.inst → Governs call w w')
    (h : wp m ctx w fun _ w' => Effect chain call w w') :
    wp (m >>= fun a => pure (f a)) ctx w fun _ w' => Does chain call w w' := by
  rw [wp_bind]
  refine wp_mono h ?_
  intro _ w' heff
  exact (wp_pure _).mpr ⟨heff, hgov w' (heff.inst hentry)⟩

/-- The specification of the contract, one case for each entrypoint. -/
theorem program_spec (chain : Chain X) (call : Call) (w : World X) :
    wp (program call.entry) (chain.ctx call.sequence call.auth) w
      fun _ w' => Does chain call w w' := by
  obtain ⟨sequence, auth, entry⟩ := call
  cases entry with
  | init token admin ledgers => exact does_of_governs rfl (init_spec token admin ledgers)
  | tip sender creator token amount =>
    refine does_of_effect rfl (fun _ h => h) (wp_mono (tip_spec sender creator token amount) ?_)
    rintro _ w' ⟨fee, h⟩
    exact .tipped sender creator token amount fee rfl h
  | getTotalTips creator token =>
    exact does_of_effect rfl (fun _ h => h)
      (wp_mono (getTotalTips_spec creator token) fun _ _ h => .queried rfl h.2)
  | getBalance creator token =>
    exact does_of_effect rfl (fun _ h => h)
      (wp_mono (getBalance_spec creator token) fun _ _ h => .queried rfl h.2)
  | getTokens => exact does_of_read rfl rfl (by simp [getTokens])
  | withdraw caller creator token dest amount =>
    refine does_of_effect rfl (fun _ h => h)
      (wp_mono (withdraw_spec caller creator token dest amount) ?_)
    rintro _ w' ⟨paid, h⟩
    exact .withdrawn caller creator token dest amount paid rfl h
  | addToken admin token => exact does_of_governs rfl (addToken_spec admin token)
  | removeToken admin token => exact does_of_governs rfl (removeToken_spec admin token)
  | setPayoutAddress creator payout =>
    exact does_of_effect rfl (fun _ h => h) (wp_mono (setPayoutAddress_spec creator payout)
      fun _ _ h => .payoutProposed creator payout rfl h.1 h.2.2)
  | cancelPayoutAddress creator =>
    exact does_of_effect rfl (fun _ h => h) (wp_mono (cancelPayoutAddress_spec creator)
      fun _ _ h => .payoutCancelled creator rfl h.1 h.2.2.1 h.2.2.2)
  | authorizeOperator creator operator allowance expiry =>
    exact does_of_effect rfl (fun _ h => h)
      (wp_mono (authorizeOperator_spec creator operator allowance expiry)
        fun _ _ h => .operatorSet creator operator allowance expiry rfl h.1 h.2)
  | revokeOperator creator operator =>
    exact does_of_effect rfl (fun _ h => h) (wp_mono (revokeOperator_spec creator operator)
      fun _ _ h => .operatorRevoked creator operator rfl h.1 h.2)
  | proposeAdmin admin newAdmin => exact does_of_governs rfl (proposeAdmin_spec admin newAdmin)
  | acceptAdmin newAdmin => exact does_of_governs rfl (acceptAdmin_spec newAdmin)
  | cancelAdminTransfer admin => exact does_of_governs rfl (cancelAdminTransfer_spec admin)
  | getAdmin => exact does_of_read rfl rfl (by simp [getAdmin])
  | getPendingAdmin => exact does_of_read rfl rfl (by simp [getPendingAdmin])
  | proposeUpgrade admin hash => exact does_of_governs rfl (proposeUpgrade_spec admin hash)
  | cancelUpgrade admin => exact does_of_governs rfl (cancelUpgrade_spec admin)
  | executeUpgrade =>
    simp only [program, wp_bind]
    refine wp_mono executeUpgrade_spec ?_
    rintro _ w' ⟨hgov, hpers, htransfers, hext⟩
    exact (wp_pure _).mpr ⟨.governed rfl hpers htransfers hext fun h => absurd rfl h, hgov⟩
  | migrate admin => exact does_of_governs rfl (migrate_spec admin)
  | getDataVersion => exact does_of_read rfl rfl (by simp [getDataVersion])
  | setGuardian admin guardian => exact does_of_governs rfl (setGuardian_spec admin guardian)
  | setGuardianPauseDuration admin ledgers =>
    exact does_of_governs rfl (setGuardianPauseDuration_spec admin ledgers)
  | pauseTips caller => exact does_of_governs rfl (pauseInternal_spec caller _)
  | pauseWithdrawals caller => exact does_of_governs rfl (pauseInternal_spec caller _)
  | pauseAll caller => exact does_of_governs rfl (pauseInternal_spec caller _)
  | unpauseTips caller => exact does_of_governs rfl (unpauseInternal_spec caller _)
  | unpauseWithdrawals caller => exact does_of_governs rfl (unpauseInternal_spec caller _)
  | unpauseAll caller => exact does_of_governs rfl (unpauseInternal_spec caller _)
  | isFeaturePaused flag => exact does_of_read rfl rfl (by simp [isFeaturePaused, pauseFlags])
  | pauseFlags => exact does_of_read rfl rfl (by simp [pauseFlags])
  | guardianPauseExpiryLedger => exact does_of_read rfl rfl (by simp [guardianPauseExpiryLedger])
  | getGuardian => exact does_of_read rfl rfl (by simp [getGuardian, guardianAddress])
  | setFee admin bps => exact does_of_governs rfl (setFee_spec admin bps)
  | proposeFeeCollector admin newCollector =>
    exact does_of_governs rfl (proposeFeeCollector_spec admin newCollector)
  | acceptFeeCollector newCollector =>
    exact does_of_governs rfl (acceptFeeCollector_spec newCollector)
  | cancelFeeCollectorTransfer admin =>
    exact does_of_governs rfl (cancelFeeCollectorTransfer_spec admin)
  | getPendingFeeCollector => exact does_of_read rfl rfl (by simp [getPendingFeeCollector])
  | withdrawFees caller token amount =>
    refine does_of_effect rfl (fun _ h => h)
      (wp_mono (withdrawFees_spec caller token amount) ?_)
    rintro _ w' ⟨paid, h⟩
    exact .feesWithdrawn caller token amount paid rfl h
  | getFeeBps => exact does_of_read rfl rfl (by simp [getFeeBps])
  | getFeeCollector => exact does_of_read rfl rfl (by simp [getFeeCollector])
  | getFeeBalance token =>
    exact does_of_effect rfl (fun _ h => h)
      (wp_mono (getFeeBalance_spec token) fun _ _ h => .queried rfl h.2)
  | previewFee amount bps => exact does_of_read rfl rfl (by simp [previewFee])
  | tipLegacy sender creator amount =>
    refine does_of_effect rfl (fun _ h => h)
      (wp_mono (tipLegacy_spec sender creator amount) ?_)
    rintro _ w' ⟨token, fee, htoken, h⟩
    exact .tipped sender creator token amount fee (by simp [resolve, htoken]) h
  | getTotalTipsLegacy creator =>
    exact does_of_effect rfl (fun _ h => h)
      (wp_mono (getTotalTipsLegacy_spec creator) fun _ _ h => .queried rfl h)
  | withdrawLegacy caller creator dest amount =>
    refine does_of_effect rfl (fun _ h => h)
      (wp_mono (withdrawLegacy_spec caller creator dest amount) ?_)
    rintro _ w' ⟨token, paid, htoken, h⟩
    exact .withdrawn caller creator token dest amount paid (by simp [resolve, htoken]) h

variable {w' : World X} {r : Ret}

/-- A successful call did one of the things `Effect` lists. -/
theorem exec_effect (h : exec chain call w = .ok (r, w')) : Effect chain call w w' :=
  (exec_post (program_spec chain call w) h).1

/-- A successful call passed its checks and did its update of the instance storage. -/
theorem exec_governs (h : exec chain call w = .ok (r, w')) : Governs call w w' :=
  (exec_post (program_spec chain call w) h).2

/-- The specification of one function, at a call known to be of it. -/
theorem exec_spec {m : M X Unit} {Q : Unit → World X → Prop}
    (h : exec chain call w = .ok (r, w')) (hprogram : program call.entry = (do m; pure .unit))
    (hspec : wp m (chain.ctx call.sequence call.auth) w Q) : Q () w' := by
  refine exec_post (Q := fun _ w' => Q () w') ?_ h
  rw [hprogram, wp_bind]
  exact wp_mono hspec fun _ _ hQ => (wp_pure _).mpr hQ

/-- A getter that succeeds returns what its specification says. -/
theorem exec_spec_i128 {m : M X I128} {Q : I128 → World X → Prop}
    (h : exec chain call w = .ok (r, w'))
    (hprogram : program call.entry = (do let x ← m; pure (.i128 x)))
    (hspec : wp m (chain.ctx call.sequence call.auth) w Q) : ∃ v, r = .i128 v ∧ Q v w' := by
  refine exec_post (Q := fun r w' => ∃ v, r = .i128 v ∧ Q v w') ?_ h
  rw [hprogram, wp_bind]
  exact wp_mono hspec fun v _ hQ => (wp_pure _).mpr ⟨v, rfl, hQ⟩

/-- A call that resolves to a tip is one, in either API. -/
theorem resolve_eq_tip {entry : Entrypoint} {sender creator token : Address} {amount : I128}
    (h : resolve w entry = .tip sender creator token amount) :
    entry = .tip sender creator token amount ∨
      (entry = .tipLegacy sender creator amount ∧ (allowlist w).head? = some token) := by
  cases entry with
  | tipLegacy sender' creator' amount' =>
    simp only [resolve] at h
    cases ht : (allowlist w).head? with
    | none =>
      rw [ht] at h
      cases h
    | some t =>
      rw [ht] at h
      cases h
      exact .inr ⟨rfl, rfl⟩
  | withdrawLegacy caller creator' dest amount' =>
    simp only [resolve] at h
    cases ht : (allowlist w).head? with
    | none =>
      rw [ht] at h
      cases h
    | some t =>
      rw [ht] at h
      cases h
  | _ => exact .inl h

/-- A call that resolves to a withdrawal is one, in either API. -/
theorem resolve_eq_withdraw {entry : Entrypoint} {caller creator token dest : Address}
    {amount : Option I128} (h : resolve w entry = .withdraw caller creator token dest amount) :
    entry = .withdraw caller creator token dest amount ∨
      (entry = .withdrawLegacy caller creator dest amount ∧ (allowlist w).head? = some token) := by
  cases entry with
  | withdrawLegacy caller' creator' dest' amount' =>
    simp only [resolve] at h
    cases ht : (allowlist w).head? with
    | none =>
      rw [ht] at h
      cases h
    | some t =>
      rw [ht] at h
      cases h
      exact .inr ⟨rfl, rfl⟩
  | tipLegacy sender creator' amount' =>
    simp only [resolve] at h
    cases ht : (allowlist w).head? with
    | none =>
      rw [ht] at h
      cases h
    | some t =>
      rw [ht] at h
      cases h
  | _ => exact .inl h

end Program

/-! ## Occurrences -/

section Occurrences

variable {chain : Chain X} {o : Occ (World X) (Action X)}

/-- A call that succeeds has its effect. -/
theorem Succeeds.effect {c : Call} (h : Succeeds chain o c) : Effect chain c o.before o.after := by
  obtain ⟨-, r, hexec⟩ := h
  exact exec_effect hexec

theorem Succeeds.governs {c : Call} (h : Succeeds chain o c) : Governs c o.before o.after := by
  obtain ⟨-, r, hexec⟩ := h
  exact exec_governs hexec

/-- A withdrawal that succeeds has paid. -/
theorem Succeeds.withdrawn {c : Call} {caller creator token dest : Address}
    {amount : Option I128} (h : Succeeds chain o c)
    (hentry : resolve o.before c.entry = .withdraw caller creator token dest amount) :
    ∃ paid, Withdrawn chain c.sequence c.auth caller creator token dest amount paid
      o.before o.after := by
  obtain ⟨-, r, hexec⟩ := h
  rcases resolve_eq_withdraw hentry with hw | ⟨hw, htoken⟩
  · exact exec_spec hexec (by rw [hw]; rfl) (withdraw_spec caller creator token dest amount)
  · obtain ⟨token', paid, htoken', hwithdrawn⟩ :=
      exec_spec hexec (by rw [hw]; rfl) (withdrawLegacy_spec caller creator dest amount)
    obtain rfl : token = token' := Option.some.inj (htoken.symm.trans htoken')
    exact ⟨paid, hwithdrawn⟩

/-- A tip that succeeds has been credited. -/
theorem Succeeds.tipped {c : Call} {sender creator token : Address} {amount : I128}
    (h : Succeeds chain o c)
    (hentry : resolve o.before c.entry = .tip sender creator token amount) :
    ∃ fee, Tipped chain c.sequence c.auth sender creator token amount fee o.before o.after := by
  obtain ⟨-, r, hexec⟩ := h
  rcases resolve_eq_tip hentry with ht | ⟨ht, htoken⟩
  · exact exec_spec hexec (by rw [ht]; rfl) (tip_spec sender creator token amount)
  · obtain ⟨token', fee, htoken', htipped⟩ :=
      exec_spec hexec (by rw [ht]; rfl) (tipLegacy_spec sender creator amount)
    obtain rfl : token = token' := Option.some.inj (htoken.symm.trans htoken')
    exact ⟨fee, htipped⟩

end Occurrences

/-- The admin is set for good. -/
theorem step_admin_isSome {chain : Chain X} {w : World X} (h : (w.inst.get .admin).isSome)
    (a : Action X) : ((step chain w a).inst.get .admin).isSome :=
  step_preserves (P := fun w' => (w'.inst.get .admin).isSome) (fun _ => h)
    (fun _ _ _ hexec => (exec_governs hexec).admin_isSome h) a

/-! ## Once initialised -/

/-- There is an admin, and the keys only `init` writes hold what it wrote. -/
structure Initialised (token : Address) (D : UInt32) (w : World X) : Prop where
  admin : (w.inst.get .admin).isSome
  token : w.inst.get .token = some token
  timelock : w.inst.get .upgradeTimelockLedgers = some D

section Init

variable {chain : Chain X} {token admin : Address} {D : UInt32} {w : World X}

/-- What `init` leaves of a fresh contract. -/
theorem AfterInit.state (h : AfterInit chain token admin D w) :
    D ≠ 0 ∧ w.inst = ((((Store.empty.set .token token).set .admin admin).set
      .upgradeTimelockLedgers D).set .dataVersion dataVersion).set .allowedTokens [token] ∧
    w.pers = Store.empty ∧ w.transfers = [] ∧ w.wasm = none := by
  obtain ⟨w₀, sequence, auth, r, hfresh, hexec⟩ := h
  obtain ⟨⟨-, hD, -, hinst⟩, honly⟩ := exec_spec hexec rfl (init_spec token admin D)
  rw [hfresh.inst] at hinst
  exact ⟨hD, hinst, honly.pers.trans hfresh.pers, honly.transfers.trans hfresh.transfers,
    honly.wasm.trans hfresh.wasm⟩

/-- `init` writes no persistent entry. -/
theorem AfterInit.pers_get (h : AfterInit chain token admin D w) (k : DataKey) :
    w.pers.get k = none := by
  obtain ⟨-, -, hpers, -⟩ := h.state
  rw [hpers]
  rfl

/-- It has set up the instance. -/
theorem AfterInit.initialised (h : AfterInit chain token admin D w) : Initialised token D w := by
  obtain ⟨-, hinst, -⟩ := h.state
  refine ⟨?_, ?_, ?_⟩
  · rw [hinst]
    simp
  · rw [hinst]
    simp
  · rw [hinst]
    simp

/-- The legacy token and the time lock are never changed. -/
theorem Initialised.step (h : Initialised token D w) (a : Action X) :
    Initialised token D (step chain w a) := by
  refine step_preserves (fun x => ⟨h.admin, h.token, h.timelock⟩) ?_ a
  intro c r w' hexec
  have hgov := exec_governs hexec
  refine ⟨hgov.admin_isSome h.admin, ?_, ?_⟩
  · rw [hgov.frozen h.admin (.inl rfl), h.token]
  · rw [hgov.frozen h.admin (.inr rfl), h.timelock]

end Init

end TipJar
