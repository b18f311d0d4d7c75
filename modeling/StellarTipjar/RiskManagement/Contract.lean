import StellarTipjar.Soroban.Machine

/-!
# RiskManagement — the contract

The data model and the entrypoints of `contracts/risk-management/src/lib.rs`, in the order of the
source. Everything is in persistent storage. The bare `+`, `-` and `*` wrap, as they do in the
release WASM; the contract makes no token call.
-/

namespace RiskManagement

open Lib Soroban Contract

/-! ## The data model -/

structure RiskProfile where
  owner : Address
  exposure : I128
  riskScore : UInt32
  alertThreshold : I128
deriving DecidableEq, Repr

structure RiskMetrics where
  totalExposure : I128
  highRiskCount : UInt32
  lastUpdated : UInt64
deriving DecidableEq, Repr

/-- The metrics that are read where none are stored. -/
def RiskMetrics.initial : RiskMetrics := ⟨0, 0, 0⟩

inductive DataKey where
  | profile (owner : Address)
  | metrics
  | admin
deriving DecidableEq, Repr

/-- What is stored under each key. -/
abbrev DataKey.Val : DataKey → Type
  | .profile _ => RiskProfile
  | .metrics => RiskMetrics
  | .admin => Address

/-- The events, all under the topic `risk`. -/
inductive Event where
  | expUpd (caller : Address) (exposure : I128) (riskScore : UInt32)
  | alert (caller : Address) (exposure alertThreshold : I128)
deriving DecidableEq, Repr

inductive RiskError where
  | unauthorized
  | notRegistered
  | exposureLimitExceeded
  | alreadyRegistered
  | invalidThreshold
deriving DecidableEq, Repr

/-- The state a call of the contract works on. -/
abbrev World (X : Type) := Env DataKey DataKey.Val Event X

/-- A program of the contract. -/
abbrev M (X : Type) := Contract DataKey DataKey.Val Event RiskError X

/-! ## The entrypoints -/

variable {X : Type}

-- nothing asks whether the contract was initialised before
def init (admin : Address) : M X Unit := do
  requireAuth admin
  persistentSet DataKey.admin admin
  let now ← ledgerTimestamp
  persistentSet DataKey.metrics { totalExposure := 0, highRiskCount := 0, lastUpdated := now }

def registerParticipant (caller : Address) (alertThreshold : I128) : M X Unit := do
  requireAuth caller
  panicIf (alertThreshold ≤ 0) .invalidThreshold
  let registered ← persistentHas (DataKey.profile caller)
  panicIf (registered = true) .alreadyRegistered
  persistentSet (DataKey.profile caller)
    { owner := caller, exposure := 0, riskScore := 0, alertThreshold }

/-- The risk score of an exposure, in percent of the threshold and between 0 and 100. -/
def riskScore (exposure alertThreshold : I128) : M X UInt32 := do
  let rawScore ← if 0 < alertThreshold then divOrTrap (exposure * 100) alertThreshold else pure 100
  pure (if 100 < rawScore then 100 else if rawScore < 0 then 0 else .ofNat rawScore.val.toNat)

def updateExposure (caller : Address) (delta : I128) : M X Unit := do
  requireAuth caller
  let stored : Option RiskProfile ← persistentGet (DataKey.profile caller)
  let profile ← unwrapOrPanic stored .notRegistered
  let oldExposure := profile.exposure
  let exposure := profile.exposure + delta
  let score ← riskScore exposure profile.alertThreshold
  persistentSet (DataKey.profile caller) { profile with exposure, riskScore := score }
  -- update the global metrics
  let metrics : Option RiskMetrics ← persistentGet DataKey.metrics
  let metrics := metrics.getD .initial
  let now ← ledgerTimestamp
  persistentSet DataKey.metrics
    { metrics with
      totalExposure := metrics.totalExposure - oldExposure + exposure
      lastUpdated := now }
  publish (.expUpd caller exposure score)
  onlyIf (profile.alertThreshold < exposure)
    (publish (.alert caller exposure profile.alertThreshold))

def checkExposure (owner : Address) : M X RiskProfile := do
  let stored : Option RiskProfile ← persistentGet (DataKey.profile owner)
  unwrapOrPanic stored .notRegistered

def enforceLimit (caller : Address) : M X Unit := do
  requireAuth caller
  let stored : Option RiskProfile ← persistentGet (DataKey.profile caller)
  let profile ← unwrapOrPanic stored .notRegistered
  panicIf (profile.alertThreshold < profile.exposure) .exposureLimitExceeded

def getRiskMetrics : M X RiskMetrics := do
  let metrics : Option RiskMetrics ← persistentGet DataKey.metrics
  pure (metrics.getD .initial)

def resetExposure (admin owner : Address) : M X Unit := do
  requireAuth admin
  let stored : Option Address ← persistentGet DataKey.admin
  let storedAdmin ← unwrapOrPanic stored .unauthorized
  panicIf (storedAdmin ≠ admin) .unauthorized
  let stored : Option RiskProfile ← persistentGet (DataKey.profile owner)
  let profile ← unwrapOrPanic stored .notRegistered
  let oldExposure := profile.exposure
  persistentSet (DataKey.profile owner) { profile with exposure := 0, riskScore := 0 }
  let metrics : Option RiskMetrics ← persistentGet DataKey.metrics
  let metrics := metrics.getD .initial
  let now ← ledgerTimestamp
  persistentSet DataKey.metrics
    { metrics with totalExposure := metrics.totalExposure - oldExposure, lastUpdated := now }

/-! ## The machine -/

/-- The public functions, with their arguments. -/
inductive Entrypoint where
  | init (admin : Address)
  | registerParticipant (caller : Address) (alertThreshold : I128)
  | updateExposure (caller : Address) (delta : I128)
  | checkExposure (owner : Address)
  | enforceLimit (caller : Address)
  | getRiskMetrics
  | resetExposure (admin owner : Address)
deriving DecidableEq, Repr

/-- What a call returns. -/
inductive Ret where
  | unit
  | profile (p : RiskProfile)
  | metrics (m : RiskMetrics)
deriving DecidableEq, Repr

def program : Entrypoint → M X Ret
  | .init admin => do init admin; pure .unit
  | .registerParticipant caller alertThreshold => do
    registerParticipant caller alertThreshold; pure .unit
  | .updateExposure caller delta => do updateExposure caller delta; pure .unit
  | .checkExposure owner => do let p ← checkExposure owner; pure (.profile p)
  | .enforceLimit caller => do enforceLimit caller; pure .unit
  | .getRiskMetrics => do let m ← getRiskMetrics; pure (.metrics m)
  | .resetExposure admin owner => do resetExposure admin owner; pure .unit

abbrev Call := Machine.Invocation Entrypoint

abbrev Action (X : Type) := Machine.Action Entrypoint X

abbrev exec (chain : Chain X) : Call → World X → Except (Failure RiskError) (Ret × World X) :=
  Machine.exec program chain

abbrev step (chain : Chain X) : World X → Action X → World X := Machine.step program chain

/-- The occurrence `o` is a successful call `c`. -/
abbrev Succeeds (chain : Chain X) (o : Occ (World X) (Action X)) (c : Call) : Prop :=
  Machine.Succeeds program chain o c

end RiskManagement
