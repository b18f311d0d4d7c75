import StellarTipjar.Soroban.Host

/-!
# TipJar — storage keys, values, events and errors

The data model of `contracts/tipjar/src/lib.rs`: the `DataKey` enumeration with the type stored
under each key, the circuit-breaker state, the published events, the error codes and the
constants. Names follow the source.
-/

namespace TipJar

open Lib Soroban

/-! ## Constants -/

def ledgerThreshold : Nat := 100000
def ledgerBump : Nat := 120960

def payoutDelayLedgers : UInt32 := 17280

def adminTransferExpiryLedgers : UInt32 := 34560

def bpsDenominator : I128 := 10000
def maxFeeBps : UInt32 := 1000

/-- The storage schema version this build expects; `migrate` advances `DataVersion` to it. -/
def dataVersion : UInt32 := 2

def maxAllowedTokens : Nat := 50

def defaultGuardianPauseDurationLedgers : UInt32 := 17280

def pauseFlagTips : UInt32 := (1 : UInt32) <<< 0
def pauseFlagWithdrawals : UInt32 := (1 : UInt32) <<< 1
def pauseFlagAll : UInt32 := pauseFlagTips ||| pauseFlagWithdrawals

/-! ## Storage -/

/-- The keys. `token`, `creatorBalance`, `creatorTotal` and `feeBalance` are the v1 layout;
`balance`, `total` and `feeBalanceToken` replace the last three. -/
inductive DataKey where
  | token
  | creatorBalance (creator : Address)
  | creatorTotal (creator : Address)
  | allowedTokens
  | balance (creator token : Address)
  | total (creator token : Address)
  | payoutAddress (creator : Address)
  | pendingPayoutChange (creator : Address)
  | operator (creator operator : Address)
  | admin
  | pendingAdmin
  | upgradeTimelockLedgers
  | pendingUpgrade
  | dataVersion
  | guardian
  | pause
  | guardianPauseDuration
  | feeBps
  | feeCollector
  | pendingFeeCollector
  | feeBalance
  | feeBalanceToken (token : Address)
deriving DecidableEq, Repr

/-- Circuit-breaker state: two independent bitmasks over the pause flags, the admin's persistent
one and the guardian's, which expires at `guardianExpiry`. -/
structure PauseState where
  adminFlags : UInt32
  guardianFlags : UInt32
  guardianExpiry : UInt32
  notes : Option String
deriving DecidableEq, Repr

/-- A stored `PauseState`: a map from field names to values. The v1 layout has no `notes` field,
which is `notes = none` here. -/
structure StoredPause where
  adminFlags : UInt32
  guardianFlags : UInt32
  guardianExpiry : UInt32
  notes : Option (Option String)
deriving DecidableEq, Repr

-- decoding into the struct needs exactly its four fields
def StoredPause.decode (raw : StoredPause) : Option PauseState :=
  raw.notes.map fun notes => ⟨raw.adminFlags, raw.guardianFlags, raw.guardianExpiry, notes⟩

def PauseState.encode (state : PauseState) : StoredPause :=
  ⟨state.adminFlags, state.guardianFlags, state.guardianExpiry, some state.notes⟩

@[simp] theorem PauseState.decode_encode (state : PauseState) :
    state.encode.decode = some state := rfl

/-- What is stored under each key. -/
abbrev DataKey.Val : DataKey → Type
  | .token => Address
  | .creatorBalance _ => I128
  | .creatorTotal _ => I128
  | .allowedTokens => List Address
  | .balance _ _ => I128
  | .total _ _ => I128
  | .payoutAddress _ => Address
  | .pendingPayoutChange _ => Address × UInt32
  | .operator _ _ => I128 × UInt32
  | .admin => Address
  | .pendingAdmin => Address × UInt32
  | .upgradeTimelockLedgers => UInt32
  | .pendingUpgrade => BytesN 32 × UInt32
  | .dataVersion => UInt32
  | .guardian => Address
  | .pause => StoredPause
  | .guardianPauseDuration => UInt32
  | .feeBps => UInt32
  | .feeCollector => Address
  | .pendingFeeCollector => Address × UInt32
  | .feeBalance => I128
  | .feeBalanceToken _ => I128

/-! ## Events and errors -/

inductive Event where
  | tip (creator token sender : Address) (amount : I128)
  | withdraw (creator token : Address) (amount : I128) (dest : Address)
  | payoutChangeProposed (creator newPayout : Address) (effectiveLedger : UInt32)
  | payoutChangeApplied (creator newPayout : Address)
  | payoutChangeCancelled (creator : Address)
  | operatorAuthorized (creator operator : Address) (allowance : I128) (expiryLedger : UInt32)
  | operatorRevoked (creator operator : Address)
  | adminTransferProposed (currentAdmin newAdmin : Address) (expiryLedger : UInt32)
  | adminTransferAccepted (newAdmin : Address)
  | adminTransferCancelled (admin : Address)
  | upgradeProposed (hash : BytesN 32) (unlockLedger : UInt32)
  | upgradeExecuted (hash : BytesN 32)
  | upgradeCancelled (hash : BytesN 32)
  | migrated (fromVersion toVersion : UInt32)
  | paused (by_ : Address) (flags : UInt32)
  | unpaused (by_ : Address) (flags : UInt32)
  | guardianUpdated (admin guardian : Address)
  | feeCharged (creator : Address) (gross fee net : I128)
  | feeConfigured (admin : Address) (bps : UInt32)
  | feeWithdraw (collector : Address) (amount : I128)
  | feeCollectorTransferProposed (currentAdmin newCollector : Address) (expiryLedger : UInt32)
  | feeCollectorTransferAccepted (newCollector : Address)
  | feeCollectorTransferCancelled (admin : Address)
deriving DecidableEq, Repr

inductive Error where
  | alreadyInitialized
  | notInitialized
  | invalidAmount
  | nothingToWithdraw
  | invalidOperator
  | operatorExpired
  | insufficientAllowance
  | pendingPayoutChangeActive
  | noPendingPayoutChange
  | invalidTarget
  | unauthorized
  | noPendingAdmin
  | invalidTimelock
  | upgradeAlreadyPending
  | noPendingUpgrade
  | timelockNotElapsed
  | tipsPaused
  | withdrawalsPaused
  | invalidDuration
  | invalidFee
  | feeOverflow
  | notFeeCollector
  | tokenNotAllowed
  | tokenAlreadyExists
  | maxTokensReached
  | noPendingFeeCollector
  | adminTransferExpired
  | feeCollectorTransferExpired
  | adminTransferAlreadyPending
  | feeCollectorTransferAlreadyPending
deriving DecidableEq, Repr

/-- The state a call of the contract works on. -/
abbrev World (X : Type) := Env DataKey DataKey.Val Event X

/-- A program of the contract. -/
abbrev M (X : Type) := Contract DataKey DataKey.Val Event Error X

end TipJar
