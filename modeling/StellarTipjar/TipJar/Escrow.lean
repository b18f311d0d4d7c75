import StellarTipjar.TipJar.Ledger

/-!
# TipJar — what the calls that move money check and write

One specification per entrypoint that touches the counters: `tip`, `withdraw`, `withdraw_fees` and
the getters (which migrate). Each says what the call checked, which token transfer it made and
the move it made on the abstract ledger; `withdraw` moreover applies a matured payout change and
spends the allowance of an operator.
-/

namespace TipJar

open Lib Soroban Contract

variable {X : Type}

/-! ## Payout addresses -/

def pendingPayout (w : World X) (c : Address) : Option (Address × UInt32) :=
  w.pers.get (.pendingPayoutChange c)

/-- The proposed payout address of `c`, once its effective ledger is reached. -/
def maturedPayout (w : World X) (c : Address) (sequence : UInt32) : Option Address :=
  match pendingPayout w c with
  | some (payout, effective) => if effective ≤ sequence then some payout else none
  | none => none

/-- The address a withdrawal of `c` pays at ledger `sequence`. -/
def payoutOf (w : World X) (c : Address) (sequence : UInt32) : Address :=
  (maturedPayout w c sequence <|> w.pers.get (.payoutAddress c)).getD c

/-! ## The effects -/

/-- `w'` is `w` after the move `m` on the ledger. -/
structure Moves (m : Move) (w w' : World X) : Prop where
  inst : w'.inst = w.inst
  wasm : w'.wasm = w.wasm
  ledger : ledger w' = (ledger w).apply m
  separate : Separate w → Separate w'
  v1 : V1Shrinks w w'

/-- Outside the counters the persistent storage is the same. -/
def OnlyCounters (w w' : World X) : Prop :=
  ∀ k, k.isLedger = false → w'.pers.get k = w.pers.get k

/-- A part of a call that makes no transfer, writes only counters and takes the ledger along
`f`. A getter does this with `f = id`. -/
structure Rewrites (f : Ledger → Ledger) (w w' : World X) : Prop where
  inst : w'.inst = w.inst
  wasm : w'.wasm = w.wasm
  transfers : w'.transfers = w.transfers
  ext : w'.ext = w.ext
  ledger : ledger w' = f (ledger w)
  separate : Separate w → Separate w'
  v1 : V1Shrinks w w'
  kept : OnlyCounters w w'

-- extending the instance's life and publishing show nowhere
theorem Rewrites.published {f : Ledger → Ledger} {w w' : World X} (h : Rewrites f w w')
    {ctx : Ctx DataKey DataKey.Val Event Error X} {m n : Nat} {e : Event} :
    Rewrites f w ((w'.bumpInstance ctx m n).publish e) :=
  ⟨h.inst, h.wasm, h.transfers, h.ext, h.ledger, h.separate, h.v1, h.kept⟩

/-- Collecting a zero fee does nothing. -/
theorem Rewrites.of_no_fee {fee : I128} (h : fee.val = 0) (token : Address) (w : World X) :
    Rewrites (fun L => L.setFee token (L.fee token + fee.val)) w w := by
  refine ⟨rfl, rfl, rfl, rfl, ?_, id, fun _ _ => .inr rfl, fun _ _ => rfl⟩
  simp [h]

structure Tipped (chain : Chain X) (sequence : UInt32) (auth : List Address)
    (sender creator token : Address) (amount fee : I128) (w w' : World X) : Prop where
  authorised : sender ∈ auth
  notPaused : NotPaused pauseFlagTips sequence w
  amount_pos : 0 < amount.val
  admin : (w.inst.get .admin).isSome
  allowed : token ∈ allowlist w
  fee_eq : feeOf amount (feeRate w) = some fee
  moves : Moves (.tip creator token amount.val fee.val) w w'
  transfers : w'.transfers = w.transfers ++ [⟨token, sender, chain.self, amount⟩]
  ext : chain.transfer ⟨token, sender, chain.self, amount⟩ w.ext = some w'.ext
  kept : OnlyCounters w w'

/-- The operator `caller` had an allowance of at least `paid`, which was spent. -/
def AllowanceSpent (sequence : UInt32) (creator caller : Address) (paid : I128)
    (w w' : World X) : Prop :=
  ∃ allowance expiry, w.pers.get (.operator creator caller) = some (allowance, expiry) ∧
    sequence ≤ expiry ∧ paid ≤ allowance ∧
    w'.pers.get (.operator creator caller)
      = if allowance - paid = 0 then none else some (allowance - paid, expiry)

structure Withdrawn (chain : Chain X) (sequence : UInt32) (auth : List Address)
    (caller creator token dest : Address) (amount : Option I128) (paid : I128)
    (w w' : World X) : Prop where
  authorised : caller ∈ auth
  notPaused : NotPaused pauseFlagWithdrawals sequence w
  admin : (w.inst.get .admin).isSome
  paid_eq : paid.val = (amount.map I128.val).getD (logicalBalance w creator token)
  paid_pos : 0 < paid.val
  paid_le : paid.val ≤ logicalBalance w creator token
  moves : Moves (.withdraw creator token paid.val) w w'
  transfers : w'.transfers = w.transfers ++ [⟨token, chain.self, dest, paid⟩]
  ext : chain.transfer ⟨token, chain.self, dest, paid⟩ w.ext = some w'.ext
  dest_eq : dest = payoutOf w creator sequence
  payoutAddress : w'.pers.get (.payoutAddress creator)
    = (maturedPayout w creator sequence <|> w.pers.get (.payoutAddress creator))
  pendingPayoutChange : w'.pers.get (.pendingPayoutChange creator)
    = if (maturedPayout w creator sequence).isSome then none else pendingPayout w creator
  operator : caller ≠ creator → AllowanceSpent sequence creator caller paid w w'
  kept : ∀ k, k.isLedger = false → k ≠ .payoutAddress creator → k ≠ .pendingPayoutChange creator →
    (caller ≠ creator → k ≠ .operator creator caller) → w'.pers.get k = w.pers.get k

structure FeesWithdrawn (chain : Chain X) (auth : List Address) (caller token : Address)
    (amount : Option I128) (paid : I128) (w w' : World X) : Prop where
  authorised : caller ∈ auth
  collector : w.inst.get .feeCollector = some caller
  paid_eq : paid.val = (amount.map I128.val).getD (logicalFee w token)
  paid_pos : 0 < paid.val
  paid_le : paid.val ≤ logicalFee w token
  moves : Moves (.withdrawFees token paid.val) w w'
  transfers : w'.transfers = w.transfers ++ [⟨token, chain.self, caller, paid⟩]
  ext : chain.transfer ⟨token, chain.self, caller, paid⟩ w.ext = some w'.ext
  kept : OnlyCounters w w'

/-! ## The getters -/

section Getters

variable {w w' : World X}

theorem MigratedCreator.rewrites {creator token : Address}
    (h : MigratedCreator creator token w w') : Rewrites id w w' where
  inst := h.inst
  wasm := h.wasm
  transfers := h.transfers
  ext := h.ext
  ledger := h.ledger_eq
  separate := h.separate
  v1 := h.v1Shrinks
  kept := fun k hk =>
    h.frame k (by rintro rfl; cases hk) (by rintro rfl; cases hk) (by rintro rfl; cases hk)
      (by rintro rfl; cases hk)

theorem MigratedFee.rewrites {token : Address} (h : MigratedFee token w w') :
    Rewrites id w w' where
  inst := h.inst
  wasm := h.wasm
  transfers := h.transfers
  ext := h.ext
  ledger := h.ledger_eq
  separate := h.separate
  v1 := h.v1Shrinks
  kept := fun k hk => h.frame k (by rintro rfl; cases hk) (by rintro rfl; cases hk)

variable {ctx : Ctx DataKey DataKey.Val Event Error X}

theorem getTotalTips_spec (creator token : Address) :
    wp (getTotalTips creator token) ctx w fun total w' =>
      total.val = logicalTotal w creator token ∧ Rewrites id w w' := by
  simp only [getTotalTips, wp_bind]
  refine wp_mono (maybeMigrateCreatorData_spec creator token) ?_
  intro _ w₁ hmig
  simp only [wp_persistentGet, wp_pure]
  intro _
  refine ⟨?_, hmig.rewrites⟩
  rw [hmig.total, logicalTotal]

theorem getBalance_spec (creator token : Address) :
    wp (getBalance creator token) ctx w fun balance w' =>
      balance.val = logicalBalance w creator token ∧ Rewrites id w w' := by
  simp only [getBalance, wp_bind]
  refine wp_mono (maybeMigrateCreatorData_spec creator token) ?_
  intro _ w₁ hmig
  simp only [wp_persistentGet, wp_pure]
  intro _
  refine ⟨?_, hmig.rewrites⟩
  rw [hmig.balance, logicalBalance]

theorem getFeeBalance_spec (token : Address) :
    wp (getFeeBalance token) ctx w fun balance w' =>
      balance.val = logicalFee w token ∧ Rewrites id w w' := by
  simp only [getFeeBalance, wp_bind]
  refine wp_mono (maybeMigrateFeeBalance_spec token) ?_
  intro _ w₁ hmig
  simp only [wp_persistentGet, wp_pure]
  intro _
  exact ⟨hmig.fee, hmig.rewrites⟩

end Getters

/-! ## Tips -/

section Tips

variable {w : World X} {ctx : Ctx DataKey DataKey.Val Event Error X}

theorem creditTip_spec (creator token : Address) (amount fee : I128)
    (hidden : w.inst.get .token = some token →
      w.pers.get (.creatorBalance creator) = none ∧ w.pers.get (.creatorTotal creator) = none) :
    wp (creditTip creator token amount fee) ctx w fun _ w' =>
      Rewrites (fun L => (L.setBalance creator token
        (L.balance creator token + (amount - fee).val)).setTotal creator token
        (L.total creator token + amount.val)) w w' := by
  simp only [creditTip, wp_bind, wp_persistentGet, wp_unwrapOrPanic, wp_persistentSet,
    wp_bumpPersistentTtl]
  intro _ _ newBalance hbalance newTotal htotal _ _ _ _ _ _
  rw [I128.checkedAdd_eq_some] at hbalance htotal
  have hb : logicalBalance w creator token
      = ((w.pers.get (.balance creator token) : Option I128).getD 0).val := by
    by_cases hT : w.inst.get .token = some token
    · simp [logicalBalance, balanceEntry, hT, (hidden hT).1]
    · simp [logicalBalance, balanceEntry, hT]
  have ht : logicalTotal w creator token
      = ((w.pers.get (.total creator token) : Option I128).getD 0).val := by
    by_cases hT : w.inst.get .token = some token
    · simp [logicalTotal, totalEntry, hT, (hidden hT).2]
    · simp [logicalTotal, totalEntry, hT]
  refine ⟨rfl, rfl, rfl, rfl, ?_, fun hs => ?_, fun k hk => .inr ?_, fun k hk => ?_⟩
  · rw [ledger_bumpPersistent, ledger_bumpPersistent,
      ledger_setPersistent_total newTotal (by simpa using fun hT => (hidden hT).2),
      ledger_setPersistent_balance newBalance fun hT => (hidden hT).1, hbalance, htotal, ← hb, ← ht]
    rfl
  · have h₁ := hs.setPersistent_balance ctx newBalance fun hT => (hidden hT).1
    have h₂ := h₁.setPersistent_total ctx newTotal
      (by simpa using fun hT => (hidden hT).2)
    exact h₂
  · have hk₁ : k ≠ .balance creator token := by rintro rfl; cases hk
    have hk₂ : k ≠ .total creator token := by rintro rfl; cases hk
    simp [hk₁, hk₂]
  · have hk₁ : k ≠ .balance creator token := by rintro rfl; cases hk
    have hk₂ : k ≠ .total creator token := by rintro rfl; cases hk
    simp [hk₁, hk₂]

theorem collectFee_spec (creator token : Address) (amount fee : I128) :
    wp (collectFee creator token amount fee) ctx w fun _ w' =>
      Rewrites (fun L => L.setFee token (L.fee token + fee.val)) w w' := by
  simp only [collectFee, wp_bind]
  refine wp_mono (maybeMigrateFeeBalance_spec token) ?_
  intro _ w₁ hmig
  simp only [wp_persistentGet, wp_unwrapOrPanic, wp_persistentSet, wp_bumpPersistentTtl,
    wp_publish]
  intro _ newFee hnew _ _ _
  rw [I128.checkedAdd_eq_some, hmig.fee] at hnew
  have hidden : w₁.inst.get .token = some token → w₁.pers.get .feeBalance = none := by
    intro hT
    rw [hmig.inst] at hT
    rw [hmig.v1Fee, if_pos hT]
  have hrew := hmig.rewrites
  refine ⟨hrew.inst, hrew.wasm, hrew.transfers, hrew.ext, ?_, fun hs => ?_, fun k hk => ?_,
    fun k hk => ?_⟩
  · rw [ledger_publish, ledger_bumpPersistent, ledger_setPersistent_fee newFee hidden, hnew,
      hmig.ledger_eq]
    rfl
  · exact (hrew.separate hs).setPersistent_fee ctx newFee
  · have hk₁ : k ≠ .feeBalanceToken token := by rintro rfl; cases hk
    simpa [hk₁] using hrew.v1 k hk
  · have hk₁ : k ≠ .feeBalanceToken token := by rintro rfl; cases hk
    simpa [hk₁] using hrew.kept k hk

end Tips

/-! ## The parts of a withdrawal -/

section Parts

variable {w : World X} {ctx : Ctx DataKey DataKey.Val Event Error X}

theorem spendAllowance_spec (creator caller : Address) (amount : I128) :
    wp (spendAllowance creator caller amount) ctx w fun _ w' =>
      OnlyPersistent w w' ∧ AllowanceSpent ctx.sequence creator caller amount w w' ∧
        ∀ k, k ≠ .operator creator caller → w'.pers.get k = w.pers.get k := by
  simp only [spendAllowance, wp_bind, wp_persistentGet, wp_unwrapOrPanic, wp_ledgerSequence,
    wp_panicIf, wp_ite, wp_persistentRemove, wp_persistentSet, wp_bumpPersistentTtl]
  rintro _ ⟨allowance, expiry⟩ hgrant hexpiry hallowance
  have hspent : ∀ w' : World X, w'.pers.get (.operator creator caller)
        = (if allowance - amount = 0 then none else some (allowance - amount, expiry)) →
      AllowanceSpent ctx.sequence creator caller amount w w' := by
    intro w' hw'
    exact ⟨allowance, expiry, hgrant, UInt32.not_lt.mp hexpiry, Int.not_lt.mp hallowance, hw'⟩
  refine ⟨fun hzero _ => ⟨⟨rfl, rfl, rfl, rfl, rfl⟩, hspent _ ?_, fun k hk => ?_⟩,
    fun hne _ _ _ => ⟨⟨rfl, rfl, rfl, rfl, rfl⟩, hspent _ ?_, fun k hk => ?_⟩⟩
  · rw [if_pos hzero]
    simp
  · simp [hk]
  · rw [if_neg hne]
    simp
  · simp [hk]

-- the creator withdrawing for itself spends no allowance
theorem onlyIf_spendAllowance_spec (creator caller : Address) (amount : I128) :
    wp (onlyIf (caller ≠ creator) (spendAllowance creator caller amount)) ctx w fun _ w' =>
      OnlyPersistent w w' ∧
      (caller ≠ creator → AllowanceSpent ctx.sequence creator caller amount w w') ∧
      ∀ k, (caller ≠ creator → k ≠ .operator creator caller) → w'.pers.get k = w.pers.get k := by
  rw [wp_onlyIf]
  refine ⟨fun hne => ?_, fun heq => ⟨.refl w, fun h => absurd h heq, fun _ _ => rfl⟩⟩
  refine wp_mono (spendAllowance_spec creator caller amount) ?_
  rintro _ w' ⟨honly, hspent, hframe⟩
  exact ⟨honly, fun _ => hspent, fun k hk => hframe k (hk hne)⟩

/-- The pending change is applied exactly when it has matured. -/
theorem applyPendingPayout_spec (creator : Address) :
    wp (applyPendingPayout creator) ctx w fun _ w' =>
      w'.inst = w.inst ∧ w'.wasm = w.wasm ∧ w'.transfers = w.transfers ∧ w'.ext = w.ext ∧
      w'.pers.get (.payoutAddress creator)
        = (maturedPayout w creator ctx.sequence <|> w.pers.get (.payoutAddress creator)) ∧
      w'.pers.get (.pendingPayoutChange creator)
        = (if (maturedPayout w creator ctx.sequence).isSome then none
          else pendingPayout w creator) ∧
      ∀ k, k ≠ .payoutAddress creator → k ≠ .pendingPayoutChange creator →
        w'.pers.get k = w.pers.get k := by
  simp only [applyPendingPayout, wp_bind, wp_persistentGet, wp_ifSome, wp_ledgerSequence,
    wp_onlyIf, wp_persistentSet, wp_bumpPersistentTtl, wp_persistentRemove, wp_publish]
  intro _
  refine ⟨fun hnone => ?_, ?_⟩
  · simp [maturedPayout, pendingPayout, hnone]
  · rintro ⟨payout, effective⟩ hpending
    refine ⟨fun hmature _ _ _ _ => ?_, fun hearly => ?_⟩
    · have hmatured : maturedPayout w creator ctx.sequence = some payout := by
        simp only [maturedPayout, pendingPayout, hpending, if_pos hmature]
      refine ⟨rfl, rfl, rfl, rfl, ?_, ?_, fun k hk hk' => ?_⟩
      · simp [hmatured]
      · simp [hmatured]
      · simp [hk, hk']
    · have hmatured : maturedPayout w creator ctx.sequence = none := by
        simp only [maturedPayout, pendingPayout, hpending, if_neg hearly]
      simp [hmatured, pendingPayout]

theorem currentPayoutAddress_spec (creator : Address) :
    wp (currentPayoutAddress creator) ctx w fun payout w' =>
      payout = (w.pers.get (.payoutAddress creator) : Option Address).getD creator ∧
      OnlyPersistent w w' ∧ w'.pers = w.pers := by
  simp only [currentPayoutAddress, wp_bind, wp_persistentGet, wp_persistentHas, wp_onlyIf,
    wp_bumpPersistentTtl, wp_pure]
  intro _ _
  exact ⟨fun _ _ _ => ⟨trivial, ⟨rfl, rfl, rfl, rfl, rfl⟩, rfl⟩,
    fun _ => ⟨trivial, .refl w, trivial⟩⟩

/-- What a withdrawal of `paid` by `caller` does before it pays: it spends the caller's allowance,
applies a matured payout change and finds the address to pay. -/
structure PayoutSettled (sequence : UInt32) (creator caller : Address) (paid : I128)
    (payout : Address) (w w' : World X) : Prop where
  inst : w'.inst = w.inst
  wasm : w'.wasm = w.wasm
  transfers : w'.transfers = w.transfers
  ext : w'.ext = w.ext
  payout_eq : payout = payoutOf w creator sequence
  payoutAddress : w'.pers.get (.payoutAddress creator)
    = (maturedPayout w creator sequence <|> w.pers.get (.payoutAddress creator))
  pendingPayoutChange : w'.pers.get (.pendingPayoutChange creator)
    = if (maturedPayout w creator sequence).isSome then none else pendingPayout w creator
  operator : caller ≠ creator → AllowanceSpent sequence creator caller paid w w'
  frame : ∀ k, k ≠ .payoutAddress creator → k ≠ .pendingPayoutChange creator →
    (caller ≠ creator → k ≠ .operator creator caller) → w'.pers.get k = w.pers.get k

theorem payoutSettled_spec (creator caller : Address) (paid : I128) :
    wp (onlyIf (caller ≠ creator) (spendAllowance creator caller paid)) ctx w fun _ w₁ =>
      wp (applyPendingPayout creator) ctx w₁ fun _ w₂ =>
        wp (currentPayoutAddress creator) ctx w₂ fun payout w' =>
          PayoutSettled ctx.sequence creator caller paid payout w w' := by
  refine wp_mono (onlyIf_spendAllowance_spec creator caller paid) ?_
  rintro _ w₁ ⟨honly₁, hspent, hframe₁⟩
  refine wp_mono (applyPendingPayout_spec creator) ?_
  rintro _ w₂ ⟨hinst₂, hwasm₂, htransfers₂, hext₂, hpayout₂, hpending₂, hframe₂⟩
  refine wp_mono (currentPayoutAddress_spec creator) ?_
  rintro payout w₃ ⟨hpayout, honly₃, hpers₃⟩
  -- the allowance is no payout key
  have hpending₁ : pendingPayout w₁ creator = pendingPayout w creator := hframe₁ _ (by simp)
  have haddress₁ : w₁.pers.get (.payoutAddress creator) = w.pers.get (.payoutAddress creator) :=
    hframe₁ _ (by simp)
  have hmatured₁ :
      maturedPayout w₁ creator ctx.sequence = maturedPayout w creator ctx.sequence := by
    rw [maturedPayout, maturedPayout, hpending₁]
  rw [hmatured₁, haddress₁] at hpayout₂
  rw [hmatured₁, hpending₁] at hpending₂
  refine ⟨?_, ?_, ?_, ?_, ?_, ?_, ?_, ?_, ?_⟩
  · rw [honly₃.inst, hinst₂, honly₁.inst]
  · rw [honly₃.wasm, hwasm₂, honly₁.wasm]
  · rw [honly₃.transfers, htransfers₂, honly₁.transfers]
  · rw [honly₃.ext, hext₂, honly₁.ext]
  · rw [hpayout, hpayout₂, payoutOf]
  · rw [hpers₃, hpayout₂]
  · rw [hpers₃, hpending₂]
  · intro hne
    obtain ⟨allowance, expiry, hgrant, hexpiry, hallowance, hrest⟩ := hspent hne
    refine ⟨allowance, expiry, hgrant, hexpiry, hallowance, ?_⟩
    rw [hpers₃, hframe₂ _ (by simp) (by simp), hrest]
  · intro k hk hk' hk''
    rw [hpers₃, hframe₂ k hk hk', hframe₁ k hk'']

end Parts

/-! ## The calls -/

section Calls

variable {chain : Chain X} {sequence : UInt32} {auth : List Address} {w : World X}

theorem tip_spec (sender creator token : Address) (amount : I128) :
    wp (tip sender creator token amount) (chain.ctx sequence auth) w fun _ w' =>
      ∃ fee, Tipped chain sequence auth sender creator token amount fee w w' := by
  simp only [tip, wp_bind, wp_requireAuth, wp_checkNotPaused, wp_panicIf, wp_ensureInitialized,
    wp_ensureTokenAllowed]
  intro hauth hpaused hamount hadmin hallowed
  have hpos : 0 < amount.val := not_le.mp hamount
  refine wp_mono (maybeMigrateCreatorData_spec creator token) ?_
  intro _ w₁ hmig
  simp only [wp_instanceGet, wp_feeFor, wp_currentContractAddress, wp_tokenTransfer, wp_onlyIf,
    wp_bumpInstanceTtl, wp_publish]
  intro fee hfee x hx
  rw [hmig.inst] at hfee
  obtain ⟨-, hnet⟩ := feeOf_net hpos.le hfee
  refine wp_mono (creditTip_spec creator token amount fee hmig.hidden) ?_
  intro _ w₂ hcredit
  -- both branches end in a state that collected the fee; a zero rate collects nothing
  have hdone : ∀ w₃, Rewrites (fun L => L.setFee token (L.fee token + fee.val)) w₂ w₃ →
      Tipped chain sequence auth sender creator token amount fee w w₃ := by
    intro w₃ hcollect
    have hledger : ledger w₃ = (ledger w).apply (.tip creator token amount.val fee.val) := by
      rw [hcollect.ledger, hcredit.ledger, hnet, ledger_transferred, hmig.ledger_eq]
      rfl
    refine ⟨hauth, hpaused, hpos, hadmin, hallowed, hfee, ⟨?_, ?_, hledger, ?_, ?_⟩, ?_, ?_, ?_⟩
    · exact (hcollect.inst.trans hcredit.inst).trans hmig.inst
    · exact (hcollect.wasm.trans hcredit.wasm).trans hmig.wasm
    · exact fun hs => hcollect.separate (hcredit.separate (hmig.separate hs))
    · exact hmig.v1Shrinks.trans (V1Shrinks.trans hcredit.v1 hcollect.v1)
    · refine (hcollect.transfers.trans hcredit.transfers).trans ?_
      rw [Env.transferred_transfers, hmig.transfers]
      rfl
    · show chain.transfer _ w.ext = some w₃.ext
      rw [hcollect.ext, hcredit.ext, ← hmig.ext]
      exact hx
    · intro k hk
      exact ((hcollect.kept k hk).trans (hcredit.kept k hk)).trans (hmig.rewrites.kept k hk)
  refine ⟨fun _ => wp_mono (collectFee_spec creator token amount fee) fun _ w₃ hcollect =>
    ⟨fee, hdone _ hcollect.published⟩, fun hzero => ⟨fee, hdone _ (Rewrites.published ?_)⟩⟩
  rw [hmig.inst] at hzero
  exact .of_no_fee (feeOf_zero_rate hzero hfee) token w₂

theorem withdraw_spec (caller creator token dest : Address) (amount : Option I128) :
    wp (withdraw caller creator token dest amount) (chain.ctx sequence auth) w fun _ w' =>
      ∃ paid, Withdrawn chain sequence auth caller creator token dest amount paid w w' := by
  simp only [withdraw, wp_bind, wp_requireAuth, wp_checkNotPaused, wp_ensureInitialized]
  intro hauth hpaused hadmin
  refine wp_mono (maybeMigrateCreatorData_spec creator token) ?_
  intro _ w₁ hmig
  simp only [wp_persistentGet, wp_panicIf]
  intro _ _ hamount
  rw [hmig.balance] at hamount ⊢
  obtain ⟨balance, hbalance⟩ : ∃ balance, balance = (balanceEntry w creator token).getD 0 :=
    ⟨_, rfl⟩
  obtain ⟨paid, hpaid⟩ : ∃ paid, paid = amount.getD balance := ⟨_, rfl⟩
  rw [← hbalance, ← hpaid] at hamount ⊢
  have hlogical : balance.val = logicalBalance w creator token := by rw [hbalance, logicalBalance]
  obtain ⟨hpos, hle, hrest⟩ := I128.val_take hamount
  refine wp_mono (payoutSettled_spec creator caller paid) fun _ w₂ hsettle => ?_
  refine wp_mono hsettle fun _ w₃ hsettle => wp_mono hsettle fun payout w₄ hsettled => ?_
  simp only [wp_currentContractAddress, wp_tokenTransfer, wp_persistentSet,
    wp_bumpPersistentTtl, wp_bumpInstanceTtl, wp_publish]
  intro hdest x hx _ _ _
  obtain rfl : dest = payout := not_not.mp hdest
  -- the migration leaves the payout keys and the allowance alone, the settling the counters
  have hkept := hmig.rewrites.kept
  have hpending : pendingPayout w₁ creator = pendingPayout w creator := hkept _ rfl
  have hmatured : maturedPayout w₁ creator sequence = maturedPayout w creator sequence := by
    rw [maturedPayout, maturedPayout, hpending]
  have haddress : w₁.pers.get (.payoutAddress creator) = w.pers.get (.payoutAddress creator) :=
    hkept _ rfl
  have hcounters : ∀ k, k.isLedger = true → w₄.pers.get k = w₁.pers.get k := by
    intro k hk
    exact hsettled.frame k (by rintro rfl; cases hk) (by rintro rfl; cases hk)
      (by rintro _ rfl; cases hk)
  have htoken : w₄.inst.get .token = w₁.inst.get .token := by rw [hsettled.inst]
  have hidden : w₄.inst.get .token = some token → w₄.pers.get (.creatorBalance creator) = none := by
    intro hT
    rw [hcounters _ rfl]
    rw [htoken] at hT
    exact (hmig.hidden hT).1
  have hsub : (balance - paid).val = logicalBalance w creator token - paid.val := by
    rw [← hlogical, hrest]
  refine ⟨paid, hauth, hpaused, hadmin, ?_, hpos, hlogical ▸ hle, ⟨?_, ?_, ?_, ?_, ?_⟩, ?_, ?_, ?_,
    ?_, ?_, ?_, ?_⟩
  · rw [hpaid, ← hlogical]
    cases amount <;> rfl
  · exact hsettled.inst.trans hmig.inst
  · exact hsettled.wasm.trans hmig.wasm
  · rw [ledger_publish, ledger_bumpInstance, ledger_bumpPersistent,
      ledger_setPersistent_balance _ (by exact hidden), ledger_transferred, hsub,
      ledger_congr htoken hcounters, hmig.ledger_eq]
    rfl
  · intro hs
    have hs₄ : Separate w₄ := (hmig.separate hs).congr htoken hcounters
    exact hs₄.setPersistent_balance (chain.ctx sequence auth) (balance - paid) hidden
  · intro k hk
    have hk₀ : k ≠ .balance creator token := by rintro rfl; cases hk
    have hledger : k.isLedger = true := by cases k <;> first | rfl | cases hk
    have hlast : w₄.pers.get k = w₁.pers.get k := hcounters k hledger
    simpa [hk₀, hlast] using hmig.v1Shrinks k hk
  · show w₄.transfers ++ _ = _
    rw [hsettled.transfers, hmig.transfers]
    rfl
  · rw [← hmig.ext, ← hsettled.ext]
    exact hx
  · rw [hsettled.payout_eq, payoutOf, payoutOf, Chain.ctx_sequence, hmatured, haddress]
  · rw [← haddress, ← hmatured, ← Chain.ctx_sequence chain sequence auth, ← hsettled.payoutAddress]
    simp
  · rw [← hpending, ← hmatured, ← Chain.ctx_sequence chain sequence auth,
      ← hsettled.pendingPayoutChange]
    simp
  · intro hne
    obtain ⟨allowance, expiry, hgrant, hexpiry, hallowance, hrest⟩ := hsettled.operator hne
    have hoperator : w₁.pers.get (.operator creator caller)
        = w.pers.get (.operator creator caller) := hkept _ rfl
    refine ⟨allowance, expiry, hoperator ▸ hgrant, hexpiry, hallowance, ?_⟩
    rw [← hrest]
    simp
  · intro k hk hk₁ hk₂ hk₃
    have hk₀ : k ≠ .balance creator token := by rintro rfl; cases hk
    rw [← hkept k hk, ← hsettled.frame k hk₁ hk₂ hk₃]
    simp [hk₀]

theorem withdrawFees_spec (caller token : Address) (amount : Option I128) :
    wp (withdrawFees caller token amount) (chain.ctx sequence auth) w fun _ w' =>
      ∃ paid, FeesWithdrawn chain auth caller token amount paid w w' := by
  simp only [withdrawFees, wp_bind, wp_requireAuth, wp_instanceGet, wp_unwrapOrPanic, wp_panicIf]
  intro hauth collector hcollector hcaller
  obtain rfl : caller = collector := not_not.mp hcaller
  refine wp_mono (maybeMigrateFeeBalance_spec token) ?_
  intro _ w₁ hmig
  simp only [wp_persistentGet, wp_currentContractAddress, wp_tokenTransfer, wp_persistentSet,
    wp_bumpPersistentTtl, wp_bumpInstanceTtl, wp_publish]
  intro _ _ hamount x hx _ _ _
  obtain ⟨balance, hbalance⟩ :
      ∃ balance, balance = (w₁.pers.get (.feeBalanceToken token) : Option I128).getD 0 := ⟨_, rfl⟩
  obtain ⟨paid, hpaid⟩ : ∃ paid, paid = amount.getD balance := ⟨_, rfl⟩
  rw [← hbalance, ← hpaid] at hamount hx ⊢
  have hlogical : balance.val = logicalFee w token := by rw [hbalance, hmig.fee]
  obtain ⟨hpos, hle, hrest⟩ := I128.val_take hamount
  have hsub : (balance - paid).val = logicalFee w token - paid.val := by
    rw [← hlogical, hrest]
  have hidden : w₁.inst.get .token = some token → w₁.pers.get .feeBalance = none := by
    intro hT
    rw [hmig.inst] at hT
    rw [hmig.v1Fee, if_pos hT]
  refine ⟨paid, hauth, hcollector, ?_, hpos, hlogical ▸ hle, ⟨hmig.inst, hmig.wasm, ?_, ?_, ?_⟩, ?_,
    ?_, ?_⟩
  · rw [hpaid, ← hlogical]
    cases amount <;> rfl
  · rw [ledger_publish, ledger_bumpInstance, ledger_bumpPersistent,
      ledger_setPersistent_fee _ (by exact hidden), ledger_transferred, hsub, hmig.ledger_eq]
    rfl
  · intro hs
    exact (hmig.separate hs).setPersistent_fee (chain.ctx sequence auth) (balance - paid)
  · intro k hk
    have hk₀ : k ≠ .feeBalanceToken token := by rintro rfl; cases hk
    simpa [hk₀] using hmig.v1Shrinks k hk
  · show w₁.transfers ++ _ = _
    rw [hmig.transfers]
    rfl
  · rw [← hmig.ext]
    exact hx
  · intro k hk
    have hk₀ : k ≠ .feeBalanceToken token := by rintro rfl; cases hk
    rw [← hmig.rewrites.kept k hk]
    simp [hk₀]

end Calls

end TipJar
