import StellarTipjar.TipJar.Types

/-!
# TipJar — the entrypoints

One definition per function of `impl TipJar`, in the order of the source: each host call of the
Rust body is one line here. `+` on `u32` wraps, as it does in the release WASM (the workspace
profile enables no overflow checks), and so does the bare `-` on `i128`.
-/

namespace TipJar

open Lib Soroban Contract

variable {X : Type}

/-! ## Internal helpers -/

/-- Extends the instance entry to `ledgerBump` ledgers when it is below `ledgerThreshold`. -/
def bumpInstanceTtl : M X Unit := instanceExtendTtl ledgerThreshold ledgerBump

/-- The same for one persistent entry; on an absent key the host call traps. -/
def bumpPersistentTtl (k : DataKey) : M X Unit := persistentExtendTtl k ledgerThreshold ledgerBump

/-- The stored admin; a contract without one is not initialised. -/
def adminAddress : M X Address := do
  let admin : Option Address ← instanceGet DataKey.admin
  unwrapOrPanic admin .notInitialized

def guardianAddress : M X (Option Address) := instanceGet DataKey.guardian

/-- The caller must be the stored admin. Authorisation is asked for separately, before this. -/
def requireAdmin (caller : Address) : M X Unit := do
  let admin ← adminAddress
  panicIf (caller ≠ admin) .unauthorized

def ensureInitialized : M X Unit := do
  let initialized ← instanceHas DataKey.admin
  panicIf (initialized = false) .notInitialized

/-- An absent allowlist, as on a v1 instance, allows no token. -/
def ensureTokenAllowed (token : Address) : M X Unit := do
  let allowedTokens : Option (List Address) ← instanceGet DataKey.allowedTokens
  panicIf (token ∉ allowedTokens.getD []) .tokenNotAllowed

-- the two blocks of `maybe_migrate_creator_data`; the v2 key is overwritten
def migrateV1Balance (creator token : Address) : M X Unit := do
  let v1Balance : Option I128 ← persistentGet (DataKey.creatorBalance creator)
  ifSome v1Balance fun v1Balance => do
    persistentSet (DataKey.balance creator token) v1Balance
    bumpPersistentTtl (DataKey.balance creator token)
    persistentRemove (DataKey.creatorBalance creator)

def migrateV1Total (creator token : Address) : M X Unit := do
  let v1Total : Option I128 ← persistentGet (DataKey.creatorTotal creator)
  ifSome v1Total fun v1Total => do
    persistentSet (DataKey.total creator token) v1Total
    bumpPersistentTtl (DataKey.total creator token)
    persistentRemove (DataKey.creatorTotal creator)

/-- Lazy migration of a creator's v1 balance and total, on access under the v1 token. -/
def maybeMigrateCreatorData (creator token : Address) : M X Unit := do
  let legacyToken : Option Address ← instanceGet DataKey.token
  ifSome legacyToken fun legacyToken =>
    onlyIf (legacyToken = token) do
      migrateV1Balance creator token
      migrateV1Total creator token

/-- Lazy migration of the v1 fee counter. The v2 key is added to. -/
def maybeMigrateFeeBalance (token : Address) : M X Unit := do
  let legacy : Option I128 ← persistentGet DataKey.feeBalance
  ifSome legacy fun legacy => do
    let primary : Option Address ← instanceGet DataKey.token
    ifSome primary fun primary =>
      onlyIf (token = primary) do
        let current : Option I128 ← persistentGet (DataKey.feeBalanceToken token)
        let combined ← unwrapOrPanic ((current.getD 0).checkedAdd legacy) .feeOverflow
        persistentSet (DataKey.feeBalanceToken token) combined
        bumpPersistentTtl (DataKey.feeBalanceToken token)
        persistentRemove DataKey.feeBalance

/-- `floor(amount * bps / BPS_DENOMINATOR)`, checked. -/
def feeFor (amount : I128) (bps : UInt32) : M X I128 :=
  if bps = 0 then pure 0
  else do
    let product ← unwrapOrPanic (amount.checkedMul (.ofUInt32 bps)) .feeOverflow
    unwrapOrPanic (product.checkedDiv bpsDenominator) .feeOverflow

-- `get::<_, PauseState>(&DataKey::Pause)`: a stored value of another shape does not decode
def storedPauseState : M X (Option PauseState) := do
  let raw : Option StoredPause ← instanceGet DataKey.pause
  match raw with
  | none => pure none
  | some raw =>
    match raw.decode with
    | some state => pure (some state)
    | none => fail .trap

/-- The stored pause state, and the unpaused one where nothing is stored. -/
def pauseState : M X PauseState := do
  let stored ← storedPauseState
  pure (stored.getD ⟨0, 0, 0, none⟩)

/-- How many ledgers a guardian pause lasts; one day unless the admin has set it. -/
def guardianPauseDuration : M X UInt32 := do
  let stored : Option UInt32 ← instanceGet DataKey.guardianPauseDuration
  pure (stored.getD defaultGuardianPauseDurationLedgers)

/-- The admin's bits, and the guardian's while their common expiry lies ahead. -/
def effectivePauseFlags (sequence : UInt32) (state : PauseState) : UInt32 :=
  if state.guardianFlags ≠ 0 ∧ sequence < state.guardianExpiry then
    state.adminFlags ||| state.guardianFlags
  else state.adminFlags

/-- Refuses the call when one of the bits of `flag` is in force. -/
def checkNotPaused (flag : UInt32) : M X Unit := do
  let state ← pauseState
  let sequence ← ledgerSequence
  onlyIf (effectivePauseFlags sequence state &&& flag ≠ 0)
    (if flag = pauseFlagTips then panicWithError .tipsPaused
    else panicWithError .withdrawalsPaused)

/-! ## Configuration and tips -/

/-- Stores the configuration of a fresh contract, with `token` as the only allowed token. -/
def init (token admin : Address) (upgradeTimelockLedgers : UInt32) : M X Unit := do
  let initialized ← instanceHas DataKey.admin
  panicIf (initialized = true) .alreadyInitialized
  panicIf (upgradeTimelockLedgers = 0) .invalidTimelock
  requireAuth admin
  instanceSet DataKey.token token
  instanceSet DataKey.admin admin
  instanceSet DataKey.upgradeTimelockLedgers upgradeTimelockLedgers
  instanceSet DataKey.dataVersion dataVersion
  instanceSet DataKey.allowedTokens [token]
  bumpInstanceTtl

/-- The part of `tip` that credits the creator: both sums are checked before either is stored. -/
def creditTip (creator token : Address) (amount fee : I128) : M X Unit := do
  let balance : Option I128 ← persistentGet (DataKey.balance creator token)
  let total : Option I128 ← persistentGet (DataKey.total creator token)
  let newBalance ← unwrapOrPanic ((balance.getD 0).checkedAdd (amount - fee)) .invalidAmount
  let newTotal ← unwrapOrPanic ((total.getD 0).checkedAdd amount) .invalidAmount
  persistentSet (DataKey.balance creator token) newBalance
  persistentSet (DataKey.total creator token) newTotal
  bumpPersistentTtl (DataKey.balance creator token)
  bumpPersistentTtl (DataKey.total creator token)

/-- The fee block of `tip`. -/
def collectFee (creator token : Address) (amount fee : I128) : M X Unit := do
  maybeMigrateFeeBalance token
  let feeBalance : Option I128 ← persistentGet (DataKey.feeBalanceToken token)
  let newFeeBalance ← unwrapOrPanic ((feeBalance.getD 0).checkedAdd fee) .feeOverflow
  persistentSet (DataKey.feeBalanceToken token) newFeeBalance
  bumpPersistentTtl (DataKey.feeBalanceToken token)
  publish (.feeCharged creator amount fee (amount - fee))

/-- Takes `amount` from the sender and credits the creator with what is left after the fee. The
fee is computed from the rate in force now, and the transfer comes before any balance is written. -/
def tip (sender creator token : Address) (amount : I128) : M X Unit := do
  requireAuth sender
  checkNotPaused pauseFlagTips
  panicIf (amount ≤ 0) .invalidAmount
  ensureInitialized
  ensureTokenAllowed token
  maybeMigrateCreatorData creator token
  let feeBps : Option UInt32 ← instanceGet DataKey.feeBps
  let fee ← feeFor amount (feeBps.getD 0)
  let contractAddress ← currentContractAddress
  tokenTransfer ⟨token, sender, contractAddress, amount⟩
  creditTip creator token amount fee
  -- a zero rate writes no fee entry and publishes no fee event
  onlyIf (0 < feeBps.getD 0) (collectFee creator token amount fee)
  bumpInstanceTtl
  publish (.tip creator token sender amount)

/-- What has been tipped to the creator in this token, fees included. The getter migrates too. -/
def getTotalTips (creator token : Address) : M X I128 := do
  maybeMigrateCreatorData creator token
  let total : Option I128 ← persistentGet (DataKey.total creator token)
  pure (total.getD 0)

/-- What the creator can withdraw in this token. -/
def getBalance (creator token : Address) : M X I128 := do
  maybeMigrateCreatorData creator token
  let balance : Option I128 ← persistentGet (DataKey.balance creator token)
  pure (balance.getD 0)

/-- The allowlist, of an initialised contract. -/
def getTokens : M X (List Address) := do
  ensureInitialized
  let allowedTokens : Option (List Address) ← instanceGet DataKey.allowedTokens
  pure (allowedTokens.getD [])

/-! ## Withdrawals -/

/-- The operator branch of `withdraw`: the allowance of `caller` is checked and spent. -/
def spendAllowance (creator caller : Address) (amount : I128) : M X Unit := do
  let stored : Option (I128 × UInt32) ← persistentGet (DataKey.operator creator caller)
  let grant ← unwrapOrPanic stored .invalidOperator
  let sequence ← ledgerSequence
  panicIf (grant.2 < sequence) .operatorExpired
  panicIf (grant.1 < amount) .insufficientAllowance
  if grant.1 - amount = 0 then persistentRemove (DataKey.operator creator caller)
  else do
    persistentSet (DataKey.operator creator caller) (grant.1 - amount, grant.2)
    bumpPersistentTtl (DataKey.operator creator caller)

/-- `withdraw` applies a pending payout change that has matured. -/
def applyPendingPayout (creator : Address) : M X Unit := do
  let pending : Option (Address × UInt32) ← persistentGet (DataKey.pendingPayoutChange creator)
  ifSome pending fun pending => do
    let sequence ← ledgerSequence
    onlyIf (pending.2 ≤ sequence) do
      persistentSet (DataKey.payoutAddress creator) pending.1
      bumpPersistentTtl (DataKey.payoutAddress creator)
      persistentRemove (DataKey.pendingPayoutChange creator)
      publish (.payoutChangeApplied creator pending.1)

/-- The address `withdraw` pays: the stored payout address, else the creator. -/
def currentPayoutAddress (creator : Address) : M X Address := do
  let stored : Option Address ← persistentGet (DataKey.payoutAddress creator)
  let present ← persistentHas (DataKey.payoutAddress creator)
  onlyIf (present = true) (bumpPersistentTtl (DataKey.payoutAddress creator))
  pure (stored.getD creator)

/-- Pays `amount`, or the whole balance, to the creator's payout address, for the creator or an
operator. The token is called before the balance is written: a token that calls back still finds
the old balance. -/
def withdraw (caller creator token dest : Address) (amount : Option I128) : M X Unit := do
  requireAuth caller
  checkNotPaused pauseFlagWithdrawals
  ensureInitialized
  maybeMigrateCreatorData creator token
  let stored : Option I128 ← persistentGet (DataKey.balance creator token)
  let balance : I128 := stored.getD 0
  panicIf (balance = 0) .nothingToWithdraw
  let amountToWithdraw : I128 := amount.getD balance
  panicIf (amountToWithdraw ≤ 0 ∨ balance < amountToWithdraw) .invalidAmount
  onlyIf (caller ≠ creator) (spendAllowance creator caller amountToWithdraw)
  applyPendingPayout creator
  let payoutAddress ← currentPayoutAddress creator
  panicIf (dest ≠ payoutAddress) .invalidTarget
  let contractAddress ← currentContractAddress
  tokenTransfer ⟨token, contractAddress, payoutAddress, amountToWithdraw⟩
  persistentSet (DataKey.balance creator token) (balance - amountToWithdraw)
  bumpPersistentTtl (DataKey.balance creator token)
  bumpInstanceTtl
  publish (.withdraw creator token amountToWithdraw payoutAddress)

/-! ## Allowlist -/

/-- Appends a token to the allowlist, which holds at most `maxAllowedTokens`. -/
def addToken (admin token : Address) : M X Unit := do
  requireAuth admin
  requireAdmin admin
  let stored : Option (List Address) ← instanceGet DataKey.allowedTokens
  let allowedTokens : List Address := stored.getD []
  panicIf (maxAllowedTokens ≤ allowedTokens.length) .maxTokensReached
  panicIf (token ∈ allowedTokens) .tokenAlreadyExists
  instanceSet DataKey.allowedTokens (allowedTokens ++ [token])
  bumpInstanceTtl

/-- The loop of `remove_token`: whether `token` was found, and the tokens kept. -/
def removeLoop (token : Address) (allowedTokens : List Address) : Bool × List Address :=
  allowedTokens.foldl
    (fun acc existing =>
      if existing ≠ token then (acc.1, acc.2 ++ [existing]) else (true, acc.2))
    (false, [])

/-- Takes a token off the allowlist. Balances in it stay and can be withdrawn. -/
def removeToken (admin token : Address) : M X Unit := do
  requireAuth admin
  requireAdmin admin
  let stored : Option (List Address) ← instanceGet DataKey.allowedTokens
  let kept := removeLoop token (stored.getD [])
  panicIf (kept.1 = false) .tokenNotAllowed
  instanceSet DataKey.allowedTokens kept.2
  bumpInstanceTtl

/-! ## Payout address and operators -/

/-- Proposes a payout address, effective after the delay. A pending proposal is overwritten,
whether or not it has matured. -/
def setPayoutAddress (creator payout : Address) : M X Unit := do
  requireAuth creator
  checkNotPaused pauseFlagWithdrawals
  let sequence ← ledgerSequence
  let effectiveLedger := sequence + payoutDelayLedgers
  persistentSet (DataKey.pendingPayoutChange creator) (payout, effectiveLedger)
  bumpPersistentTtl (DataKey.pendingPayoutChange creator)
  bumpInstanceTtl
  publish (.payoutChangeProposed creator payout effectiveLedger)

/-- Drops the pending proposal, also one that has matured and not been applied. -/
def cancelPayoutAddress (creator : Address) : M X Unit := do
  requireAuth creator
  checkNotPaused pauseFlagWithdrawals
  let present ← persistentHas (DataKey.pendingPayoutChange creator)
  panicIf (present = false) .noPendingPayoutChange
  persistentRemove (DataKey.pendingPayoutChange creator)
  publish (.payoutChangeCancelled creator)

/-- Grants `operator` an allowance until `expiryLedger`. Neither value is checked, and an earlier
grant is replaced. -/
def authorizeOperator (creator operator : Address) (allowance : I128) (expiryLedger : UInt32) :
    M X Unit := do
  requireAuth creator
  checkNotPaused pauseFlagWithdrawals
  persistentSet (DataKey.operator creator operator) (allowance, expiryLedger)
  bumpPersistentTtl (DataKey.operator creator operator)
  bumpInstanceTtl
  publish (.operatorAuthorized creator operator allowance expiryLedger)

/-- Removes the grant, if there is one. -/
def revokeOperator (creator operator : Address) : M X Unit := do
  requireAuth creator
  checkNotPaused pauseFlagWithdrawals
  persistentRemove (DataKey.operator creator operator)
  publish (.operatorRevoked creator operator)

/-! ## Admin hand-over -/

/-- Opens the hand-over of the admin role, unless one is open. An expired proposal still counts
as open until it is cancelled. -/
def proposeAdmin (admin newAdmin : Address) : M X Unit := do
  requireAuth admin
  requireAdmin admin
  let pending ← instanceHas DataKey.pendingAdmin
  panicIf (pending = true) .adminTransferAlreadyPending
  let sequence ← ledgerSequence
  let expiryLedger := sequence + adminTransferExpiryLedgers
  instanceSet DataKey.pendingAdmin (newAdmin, expiryLedger)
  bumpInstanceTtl
  publish (.adminTransferProposed admin newAdmin expiryLedger)

/-- The proposed admin takes over, up to and including the expiry ledger. -/
def acceptAdmin (newAdmin : Address) : M X Unit := do
  requireAuth newAdmin
  let stored : Option (Address × UInt32) ← instanceGet DataKey.pendingAdmin
  let pending ← unwrapOrPanic stored .noPendingAdmin
  panicIf (pending.1 ≠ newAdmin) .noPendingAdmin
  let sequence ← ledgerSequence
  panicIf (pending.2 < sequence) .adminTransferExpired
  instanceSet DataKey.admin newAdmin
  instanceRemove DataKey.pendingAdmin
  bumpInstanceTtl
  publish (.adminTransferAccepted newAdmin)

/-- Drops the open hand-over. -/
def cancelAdminTransfer (admin : Address) : M X Unit := do
  requireAuth admin
  requireAdmin admin
  let pending ← instanceHas DataKey.pendingAdmin
  panicIf (pending = false) .noPendingAdmin
  instanceRemove DataKey.pendingAdmin
  publish (.adminTransferCancelled admin)

def getAdmin : M X Address := adminAddress

/-- The proposed admin, expired or not. -/
def getPendingAdmin : M X (Option Address) := do
  let pending : Option (Address × UInt32) ← instanceGet DataKey.pendingAdmin
  pure (pending.map Prod.fst)

/-! ## Upgrades -/

/-- Schedules new code behind the time lock. The unlock ledger is a `u32` sum and can wrap. -/
def proposeUpgrade (admin : Address) (newWasmHash : BytesN 32) : M X Unit := do
  requireAuth admin
  requireAdmin admin
  let pending ← instanceHas DataKey.pendingUpgrade
  panicIf (pending = true) .upgradeAlreadyPending
  let stored : Option UInt32 ← instanceGet DataKey.upgradeTimelockLedgers
  let timelock ← unwrapOrPanic stored .notInitialized
  let sequence ← ledgerSequence
  let unlockLedger := sequence + timelock
  instanceSet DataKey.pendingUpgrade (newWasmHash, unlockLedger)
  bumpInstanceTtl
  publish (.upgradeProposed newWasmHash unlockLedger)

/-- Drops the scheduled upgrade. -/
def cancelUpgrade (admin : Address) : M X Unit := do
  requireAuth admin
  requireAdmin admin
  let stored : Option (BytesN 32 × UInt32) ← instanceGet DataKey.pendingUpgrade
  let pending ← unwrapOrPanic stored .noPendingUpgrade
  instanceRemove DataKey.pendingUpgrade
  publish (.upgradeCancelled pending.1)

/-- Anyone may run an upgrade whose time lock has elapsed. The entry goes before the code does. -/
def executeUpgrade : M X Unit := do
  let stored : Option (BytesN 32 × UInt32) ← instanceGet DataKey.pendingUpgrade
  let pending ← unwrapOrPanic stored .noPendingUpgrade
  let sequence ← ledgerSequence
  panicIf (sequence < pending.2) .timelockNotElapsed
  instanceRemove DataKey.pendingUpgrade
  updateCurrentContractWasm pending.1
  publish (.upgradeExecuted pending.1)

/-- Raises the stored data version. Coming from version 1 the pause state is rewritten, and a v1
value, which has three fields, does not decode: the call traps. -/
def migrate (admin : Address) : M X Unit := do
  requireAuth admin
  requireAdmin admin
  let stored : Option UInt32 ← instanceGet DataKey.dataVersion
  let current : UInt32 := stored.getD 1
  onlyIf (current < dataVersion) do
    onlyIf (current = 1) do
      let pauseState ← storedPauseState
      ifSome pauseState fun state =>
        instanceSet DataKey.pause (PauseState.encode
          ⟨state.adminFlags, state.guardianFlags, state.guardianExpiry, none⟩)
    instanceSet DataKey.dataVersion dataVersion
    publish (.migrated current dataVersion)

/-- The stored data version; an instance from before the key existed is at version 1. -/
def getDataVersion : M X UInt32 := do
  let stored : Option UInt32 ← instanceGet DataKey.dataVersion
  pure (stored.getD 1)

/-! ## Circuit breaker -/

/-- Names the guardian, who may pause but not unpause. -/
def setGuardian (admin guardian : Address) : M X Unit := do
  requireAuth admin
  requireAdmin admin
  instanceSet DataKey.guardian guardian
  bumpInstanceTtl
  publish (.guardianUpdated admin guardian)

/-- Sets how many ledgers a guardian pause lasts; only zero is refused. -/
def setGuardianPauseDuration (admin : Address) (ledgers : UInt32) : M X Unit := do
  requireAuth admin
  requireAdmin admin
  panicIf (ledgers = 0) .invalidDuration
  instanceSet DataKey.guardianPauseDuration ledgers
  bumpInstanceTtl

/-- The body of the three pauses. The admin's bits last until unpaused. The guardian's are or-ed
to those already there under one common expiry, which moves. -/
def pauseInternal (caller : Address) (flag : UInt32) : M X Unit := do
  requireAuth caller
  let admin ← adminAddress
  let guardian ← guardianAddress
  let state ← pauseState
  let state ← (
    if caller = admin then
      -- persistent, and takes over the guardian's matching bits
      pure { state with
        adminFlags := state.adminFlags ||| flag
        guardianFlags := state.guardianFlags &&& ~~~flag }
    else if guardian = some caller then do
      let sequence ← ledgerSequence
      let duration ← guardianPauseDuration
      pure { state with
        guardianFlags := state.guardianFlags ||| flag
        guardianExpiry := sequence + duration }
    else panicWithError .unauthorized)
  instanceSet DataKey.pause state.encode
  bumpInstanceTtl
  publish (.paused caller flag)

/-- The body of the three unpauses: only the admin, and both parties' bits are cleared. -/
def unpauseInternal (caller : Address) (flag : UInt32) : M X Unit := do
  requireAuth caller
  requireAdmin caller
  let state ← pauseState
  instanceSet DataKey.pause (PauseState.encode
    { state with
      adminFlags := state.adminFlags &&& ~~~flag
      guardianFlags := state.guardianFlags &&& ~~~flag })
  bumpInstanceTtl
  publish (.unpaused caller flag)

def pauseTips (caller : Address) : M X Unit := pauseInternal caller pauseFlagTips
def pauseWithdrawals (caller : Address) : M X Unit := pauseInternal caller pauseFlagWithdrawals
def pauseAll (caller : Address) : M X Unit := pauseInternal caller pauseFlagAll
def unpauseTips (caller : Address) : M X Unit := unpauseInternal caller pauseFlagTips
def unpauseWithdrawals (caller : Address) : M X Unit := unpauseInternal caller pauseFlagWithdrawals
def unpauseAll (caller : Address) : M X Unit := unpauseInternal caller pauseFlagAll

/-- The pause bits in force at the current ledger. -/
def pauseFlags : M X UInt32 := do
  let state ← pauseState
  let sequence ← ledgerSequence
  pure (effectivePauseFlags sequence state)

/-- Whether every bit of a nonzero `flag` is in force. -/
def isFeaturePaused (flag : UInt32) : M X Bool := do
  let effective ← pauseFlags
  pure (flag ≠ 0 ∧ effective &&& flag = flag : Bool)

/-- The stored expiry, whatever is in force. -/
def guardianPauseExpiryLedger : M X UInt32 := do
  let state ← pauseState
  pure state.guardianExpiry

def getGuardian : M X (Option Address) := guardianAddress

/-! ## Protocol fee -/

/-- Sets the rate of later tips, at most `maxFeeBps`. -/
def setFee (admin : Address) (bps : UInt32) : M X Unit := do
  requireAuth admin
  requireAdmin admin
  panicIf (maxFeeBps < bps) .invalidFee
  instanceSet DataKey.feeBps bps
  bumpInstanceTtl
  publish (.feeConfigured admin bps)

/-- Opens the hand-over of the collector role, as `proposeAdmin` does for the admin. -/
def proposeFeeCollector (admin newCollector : Address) : M X Unit := do
  requireAuth admin
  requireAdmin admin
  let current : Option Address ← instanceGet DataKey.feeCollector
  panicIf (current = some newCollector) .invalidTarget
  let pending ← instanceHas DataKey.pendingFeeCollector
  panicIf (pending = true) .feeCollectorTransferAlreadyPending
  let sequence ← ledgerSequence
  let expiryLedger := sequence + adminTransferExpiryLedgers
  instanceSet DataKey.pendingFeeCollector (newCollector, expiryLedger)
  bumpInstanceTtl
  publish (.feeCollectorTransferProposed admin newCollector expiryLedger)

/-- The proposed collector takes over, up to and including the expiry ledger. -/
def acceptFeeCollector (newCollector : Address) : M X Unit := do
  requireAuth newCollector
  let stored : Option (Address × UInt32) ← instanceGet DataKey.pendingFeeCollector
  let pending ← unwrapOrPanic stored .noPendingFeeCollector
  panicIf (pending.1 ≠ newCollector) .noPendingFeeCollector
  let sequence ← ledgerSequence
  panicIf (pending.2 < sequence) .feeCollectorTransferExpired
  instanceSet DataKey.feeCollector newCollector
  instanceRemove DataKey.pendingFeeCollector
  bumpInstanceTtl
  publish (.feeCollectorTransferAccepted newCollector)

/-- Drops the open hand-over. -/
def cancelFeeCollectorTransfer (admin : Address) : M X Unit := do
  requireAuth admin
  requireAdmin admin
  let pending ← instanceHas DataKey.pendingFeeCollector
  panicIf (pending = false) .noPendingFeeCollector
  instanceRemove DataKey.pendingFeeCollector
  publish (.feeCollectorTransferCancelled admin)

/-- The proposed collector, expired or not. -/
def getPendingFeeCollector : M X (Option Address) := do
  let pending : Option (Address × UInt32) ← instanceGet DataKey.pendingFeeCollector
  pure (pending.map Prod.fst)

/-- Pays the collector from the accrued fees of `token`. As in `withdraw` the token is called
first, and the event names the collector and the amount but not the token. -/
def withdrawFees (caller token : Address) (amount : Option I128) : M X Unit := do
  requireAuth caller
  let stored : Option Address ← instanceGet DataKey.feeCollector
  let collector ← unwrapOrPanic stored .nothingToWithdraw
  panicIf (caller ≠ collector) .notFeeCollector
  maybeMigrateFeeBalance token
  let feeBalance : Option I128 ← persistentGet (DataKey.feeBalanceToken token)
  let balance : I128 := feeBalance.getD 0
  panicIf (balance = 0) .nothingToWithdraw
  let amountToWithdraw : I128 := amount.getD balance
  panicIf (amountToWithdraw ≤ 0 ∨ balance < amountToWithdraw) .invalidAmount
  let contractAddress ← currentContractAddress
  tokenTransfer ⟨token, contractAddress, collector, amountToWithdraw⟩
  persistentSet (DataKey.feeBalanceToken token) (balance - amountToWithdraw)
  bumpPersistentTtl (DataKey.feeBalanceToken token)
  bumpInstanceTtl
  publish (.feeWithdraw collector amountToWithdraw)

/-- The rate in force; zero where none was set. -/
def getFeeBps : M X UInt32 := do
  let feeBps : Option UInt32 ← instanceGet DataKey.feeBps
  pure (feeBps.getD 0)

def getFeeCollector : M X (Option Address) := instanceGet DataKey.feeCollector

/-- The fees accrued in `token` and not yet withdrawn. -/
def getFeeBalance (token : Address) : M X I128 := do
  maybeMigrateFeeBalance token
  let feeBalance : Option I128 ← persistentGet (DataKey.feeBalanceToken token)
  pure (feeBalance.getD 0)

/-- The fee on `amount` at the given rate, and what would be left. -/
def previewFee (amount : I128) (bps : UInt32) : M X (I128 × I128) := do
  let fee ← feeFor amount bps
  pure (fee, amount - fee)

/-! ## The v1 API: the first token of the allowlist is the default token -/

/-- The v1 `tip`, in the default token. -/
def tipLegacy (sender creator : Address) (amount : I128) : M X Unit := do
  let tokens ← getTokens
  let defaultToken ← unwrapOrPanic tokens.head? .notInitialized
  tip sender creator defaultToken amount

/-- The v1 getter; an empty allowlist reads as zero. -/
def getTotalTipsLegacy (creator : Address) : M X I128 := do
  let tokens ← getTokens
  match tokens.head? with
  | none => pure 0
  | some defaultToken => getTotalTips creator defaultToken

/-- The v1 `withdraw`, in the default token. -/
def withdrawLegacy (caller creator dest : Address) (amount : Option I128) : M X Unit := do
  let tokens ← getTokens
  let defaultToken ← unwrapOrPanic tokens.head? .notInitialized
  withdraw caller creator defaultToken dest amount

end TipJar
