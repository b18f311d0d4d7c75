import StellarTipjar.TipJar.Views
import StellarTipjar.Lib.Trace
import StellarTipjar.Soroban.StandardToken

/-!
# TipJar — the contract as a state machine

`Entrypoint` lists every public function of the contract with its arguments, `exec` runs one call
of it on a chain and `step` is the machine: a call that fails changes nothing, and between two
calls the world outside the contract may become anything (`Action.outside`). Statements about
runs of the contract are statements about `Lib.run` and `Lib.trace` of `step`.

The code is the one modelled here throughout a run: `execute_upgrade` records the hash it
installs, and what a later version of the contract does is not part of the machine.
-/

namespace TipJar

open Lib Soroban Contract

/-! ## Calls -/

/-- The public functions, with their arguments. -/
inductive Entrypoint where
  | init (token admin : Address) (upgradeTimelockLedgers : UInt32)
  | tip (sender creator token : Address) (amount : I128)
  | getTotalTips (creator token : Address)
  | getBalance (creator token : Address)
  | getTokens
  | withdraw (caller creator token dest : Address) (amount : Option I128)
  | addToken (admin token : Address)
  | removeToken (admin token : Address)
  | setPayoutAddress (creator payout : Address)
  | cancelPayoutAddress (creator : Address)
  | authorizeOperator (creator operator : Address) (allowance : I128) (expiryLedger : UInt32)
  | revokeOperator (creator operator : Address)
  | proposeAdmin (admin newAdmin : Address)
  | acceptAdmin (newAdmin : Address)
  | cancelAdminTransfer (admin : Address)
  | getAdmin
  | getPendingAdmin
  | proposeUpgrade (admin : Address) (newWasmHash : BytesN 32)
  | cancelUpgrade (admin : Address)
  | executeUpgrade
  | migrate (admin : Address)
  | getDataVersion
  | setGuardian (admin guardian : Address)
  | setGuardianPauseDuration (admin : Address) (ledgers : UInt32)
  | pauseTips (caller : Address)
  | pauseWithdrawals (caller : Address)
  | pauseAll (caller : Address)
  | unpauseTips (caller : Address)
  | unpauseWithdrawals (caller : Address)
  | unpauseAll (caller : Address)
  | isFeaturePaused (flag : UInt32)
  | pauseFlags
  | guardianPauseExpiryLedger
  | getGuardian
  | setFee (admin : Address) (bps : UInt32)
  | proposeFeeCollector (admin newCollector : Address)
  | acceptFeeCollector (newCollector : Address)
  | cancelFeeCollectorTransfer (admin : Address)
  | getPendingFeeCollector
  | withdrawFees (caller token : Address) (amount : Option I128)
  | getFeeBps
  | getFeeCollector
  | getFeeBalance (token : Address)
  | previewFee (amount : I128) (bps : UInt32)
  | tipLegacy (sender creator : Address) (amount : I128)
  | getTotalTipsLegacy (creator : Address)
  | withdrawLegacy (caller creator dest : Address) (amount : Option I128)
deriving DecidableEq, Repr

/-- What a call returns. -/
inductive Ret where
  | unit
  | i128 (x : I128)
  | i128Pair (x y : I128)
  | u32 (x : UInt32)
  | bool (b : Bool)
  | address (a : Address)
  | optAddress (a : Option Address)
  | addresses (as : List Address)
deriving DecidableEq, Repr

variable {X : Type}

def program : Entrypoint → M X Ret
  | .init token admin ledgers => do init token admin ledgers; pure .unit
  | .tip sender creator token amount => do tip sender creator token amount; pure .unit
  | .getTotalTips creator token => do let x ← getTotalTips creator token; pure (.i128 x)
  | .getBalance creator token => do let x ← getBalance creator token; pure (.i128 x)
  | .getTokens => do let as ← getTokens; pure (.addresses as)
  | .withdraw caller creator token dest amount => do
    withdraw caller creator token dest amount; pure .unit
  | .addToken admin token => do addToken admin token; pure .unit
  | .removeToken admin token => do removeToken admin token; pure .unit
  | .setPayoutAddress creator payout => do setPayoutAddress creator payout; pure .unit
  | .cancelPayoutAddress creator => do cancelPayoutAddress creator; pure .unit
  | .authorizeOperator creator operator allowance expiryLedger => do
    authorizeOperator creator operator allowance expiryLedger; pure .unit
  | .revokeOperator creator operator => do revokeOperator creator operator; pure .unit
  | .proposeAdmin admin newAdmin => do proposeAdmin admin newAdmin; pure .unit
  | .acceptAdmin newAdmin => do acceptAdmin newAdmin; pure .unit
  | .cancelAdminTransfer admin => do cancelAdminTransfer admin; pure .unit
  | .getAdmin => do let a ← getAdmin; pure (.address a)
  | .getPendingAdmin => do let a ← getPendingAdmin; pure (.optAddress a)
  | .proposeUpgrade admin newWasmHash => do proposeUpgrade admin newWasmHash; pure .unit
  | .cancelUpgrade admin => do cancelUpgrade admin; pure .unit
  | .executeUpgrade => do executeUpgrade; pure .unit
  | .migrate admin => do migrate admin; pure .unit
  | .getDataVersion => do let x ← getDataVersion; pure (.u32 x)
  | .setGuardian admin guardian => do setGuardian admin guardian; pure .unit
  | .setGuardianPauseDuration admin ledgers => do
    setGuardianPauseDuration admin ledgers; pure .unit
  | .pauseTips caller => do pauseTips caller; pure .unit
  | .pauseWithdrawals caller => do pauseWithdrawals caller; pure .unit
  | .pauseAll caller => do pauseAll caller; pure .unit
  | .unpauseTips caller => do unpauseTips caller; pure .unit
  | .unpauseWithdrawals caller => do unpauseWithdrawals caller; pure .unit
  | .unpauseAll caller => do unpauseAll caller; pure .unit
  | .isFeaturePaused flag => do let b ← isFeaturePaused flag; pure (.bool b)
  | .pauseFlags => do let x ← pauseFlags; pure (.u32 x)
  | .guardianPauseExpiryLedger => do let x ← guardianPauseExpiryLedger; pure (.u32 x)
  | .getGuardian => do let a ← getGuardian; pure (.optAddress a)
  | .setFee admin bps => do setFee admin bps; pure .unit
  | .proposeFeeCollector admin newCollector => do
    proposeFeeCollector admin newCollector; pure .unit
  | .acceptFeeCollector newCollector => do acceptFeeCollector newCollector; pure .unit
  | .cancelFeeCollectorTransfer admin => do cancelFeeCollectorTransfer admin; pure .unit
  | .getPendingFeeCollector => do let a ← getPendingFeeCollector; pure (.optAddress a)
  | .withdrawFees caller token amount => do withdrawFees caller token amount; pure .unit
  | .getFeeBps => do let x ← getFeeBps; pure (.u32 x)
  | .getFeeCollector => do let a ← getFeeCollector; pure (.optAddress a)
  | .getFeeBalance token => do let x ← getFeeBalance token; pure (.i128 x)
  | .previewFee amount bps => do let p ← previewFee amount bps; pure (.i128Pair p.1 p.2)
  | .tipLegacy sender creator amount => do tipLegacy sender creator amount; pure .unit
  | .getTotalTipsLegacy creator => do let x ← getTotalTipsLegacy creator; pure (.i128 x)
  | .withdrawLegacy caller creator dest amount => do
    withdrawLegacy caller creator dest amount; pure .unit

/-- One invocation: the ledger it runs in, the addresses that authorised it, the function. -/
structure Call where
  sequence : UInt32
  auth : List Address
  entry : Entrypoint
deriving DecidableEq, Repr

-- the host loads the contract, then runs the function
def invoke (entry : Entrypoint) : M X Ret := do
  loadInstance
  program entry

def exec (chain : Chain X) (call : Call) (w : World X) :
    Except (Failure Error) (Ret × World X) :=
  (invoke call.entry).run (chain.ctx call.sequence call.auth) w

/-! ## The machine -/

/-- A call of the contract, or anything that happens elsewhere and leaves the outside world
at `x`. -/
inductive Action (X : Type) where
  | call (c : Call)
  | outside (x : X)

def step (chain : Chain X) (w : World X) : Action X → World X
  | .call c =>
    match exec chain c w with
    | .ok (_, w') => w'
    | .error _ => w
  | .outside x => { w with ext := x }

/-- The occurrence `o` is a successful call `c`. -/
def Succeeds (chain : Chain X) (o : Occ (World X) (Action X)) (c : Call) : Prop :=
  o.act = .call c ∧ ∃ r, exec chain c o.before = .ok (r, o.after)

/-- A deployed contract nobody has called yet. -/
structure Fresh (w : World X) : Prop where
  inst : w.inst = Store.empty
  pers : w.pers = Store.empty
  events : w.events = []
  transfers : w.transfers = []
  wasm : w.wasm = none

/-- The contract as it is deployed into the outside world `x`. -/
def freshWorld (x : X) : World X where
  inst := Store.empty
  pers := Store.empty
  instLive := 0
  persLive := fun _ => 0
  events := []
  transfers := []
  writes := []
  wasm := none
  ext := x

theorem freshWorld_fresh (x : X) : Fresh (freshWorld x) := ⟨rfl, rfl, rfl, rfl, rfl⟩

/-- `w` is a fresh contract right after a successful `init(token, admin, D)`. -/
def AfterInit (chain : Chain X) (token admin : Address) (D : UInt32) (w : World X) : Prop :=
  ∃ w₀ sequence auth r, Fresh w₀ ∧
    exec chain ⟨sequence, auth, .init token admin D⟩ w₀ = .ok (r, w)

/-- A state in the v1 layout of the token `T₀`: `Token` and `Admin` are set, the v1 counters are
non-negative and there is no v2 counter of `T₀`. Everything else is arbitrary. -/
structure V1Layout (T₀ : Address) (w : World X) : Prop where
  token : w.inst.get .token = some T₀
  admin : (w.inst.get .admin).isSome
  creatorBalance : ∀ c v, w.pers.get (.creatorBalance c) = some v → 0 ≤ I128.val v
  creatorTotal : ∀ c v, w.pers.get (.creatorTotal c) = some v → 0 ≤ I128.val v
  feeBalance : ∀ v, w.pers.get .feeBalance = some v → 0 ≤ I128.val v
  balance : ∀ c, w.pers.get (.balance c T₀) = none
  total : ∀ c, w.pers.get (.total c T₀) = none
  feeBalanceToken : w.pers.get (.feeBalanceToken T₀) = none

/-- The ledger sequence of the calls never goes back. -/
def LedgerOrder (acts : List (Action X)) : Prop :=
  acts.Pairwise fun a b => ∀ c d, a = .call c → b = .call d → c.sequence ≤ d.sequence

/-! ## Steps -/

section Step

variable {chain : Chain X} {w w' : World X} {call : Call} {r : Ret}

theorem step_call_ok (h : exec chain call w = .ok (r, w')) : step chain w (.call call) = w' := by
  simp [step, h]

theorem step_call_error {e : Failure Error} (h : exec chain call w = .error e) :
    step chain w (.call call) = w := by
  simp [step, h]

@[simp] theorem step_outside (x : X) : step chain w (.outside x) = { w with ext := x } := rfl

/-- What a step can be: a successful call, a failed one, or something outside. -/
theorem step_cases (chain : Chain X) (w : World X) (a : Action X) :
    (∃ c r, a = .call c ∧ exec chain c w = .ok (r, step chain w a)) ∨
    (∃ c e, a = .call c ∧ exec chain c w = .error e ∧ step chain w a = w) ∨
    (∃ x, a = .outside x ∧ step chain w a = { w with ext := x }) := by
  cases a with
  | call c =>
    cases h : exec chain c w with
    | ok p =>
      obtain ⟨r, w'⟩ := p
      exact .inl ⟨c, r, rfl, by rw [step_call_ok h, h]⟩
    | error e => exact .inr (.inl ⟨c, e, rfl, h, step_call_error h⟩)
  | outside x => exact .inr (.inr ⟨x, rfl, rfl⟩)

/-- A step keeps what successful calls and the outside world keep. -/
theorem step_preserves {P : World X → Prop} (hext : ∀ x, P { w with ext := x })
    (hcall : ∀ c r w', exec chain c w = .ok (r, w') → P w') (a : Action X) :
    P (step chain w a) := by
  rcases step_cases chain w a with ⟨c, r, -, hexec⟩ | ⟨c, e, -, -, hsame⟩ | ⟨x, -, hx⟩
  · exact hcall c r _ hexec
  · rw [hsame]
    exact hext w.ext
  · rw [hx]
    exact hext x

theorem Succeeds.unique {o : Occ (World X) (Action X)} {c d : Call} (hc : Succeeds chain o c)
    (hd : Succeeds chain o d) : c = d := by
  have h : Action.call c = (.call d : Action X) := hc.1.symm.trans hd.1
  cases h
  rfl

theorem Succeeds.exists_iff {o : Occ (World X) (Action X)} {c : Call} (hc : Succeeds chain o c)
    {P : Call → Prop} : (∃ d, Succeeds chain o d ∧ P d) ↔ P c := by
  constructor
  · rintro ⟨d, hd, hP⟩
    rw [hc.unique hd]
    exact hP
  · exact fun hP => ⟨c, hc, hP⟩

/-- A step that is no successful call changes at most the outside world. -/
theorem succeeds_or_outside {o : Occ (World X) (Action X)} (h : IsStep (step chain) o) :
    (∃ c, Succeeds chain o c) ∨ ∃ x, o.after = { o.before with ext := x } := by
  unfold IsStep at h
  rcases step_cases chain o.before o.act with ⟨c, r, hact, hexec⟩ | ⟨c, e, -, -, hsame⟩ | ⟨x, -, hx⟩
  · exact .inl ⟨c, hact, r, by rw [h]; exact hexec⟩
  · exact .inr ⟨o.before.ext, by rw [h, hsame]⟩
  · exact .inr ⟨x, by rw [h, hx]⟩

/-- A call that succeeded in a run is one of the run's actions. -/
theorem mem_acts_of_succeeds {w₀ : World X} {acts : List (Action X)}
    {o : Occ (World X) (Action X)} {d : Call} (ho : o ∈ trace (step chain) w₀ acts)
    (hd : Succeeds chain o d) : Action.call d ∈ acts := by
  rw [← map_act_trace (step chain) w₀ acts, ← hd.1]
  exact List.mem_map_of_mem ho

/-- In a run whose ledger sequence never goes back, earlier calls ran in earlier ledgers. -/
theorem LedgerOrder.le {acts : List (Action X)} (h : LedgerOrder acts) {w₀ : World X}
    {tr₁ tr₂ : List (Occ (World X) (Action X))} {o q : Occ (World X) (Action X)} {c d : Call}
    (htr : trace (step chain) w₀ acts = tr₁ ++ o :: tr₂) (hq : q ∈ tr₁)
    (hd : Succeeds chain q d) (hc : Succeeds chain o c) : d.sequence ≤ c.sequence := by
  have hacts : acts = tr₁.map Occ.act ++ o.act :: tr₂.map Occ.act := by
    rw [← map_act_trace (step chain) w₀ acts, htr]
    simp
  unfold LedgerOrder at h
  rw [hacts, List.pairwise_append] at h
  exact h.2.2 q.act (List.mem_map_of_mem hq) o.act (by simp) d c hd.1 hc.1

/-- No call that satisfies `P` succeeded in the list. -/
def NoneSucceeds (chain : Chain X) (P : Call → Prop) (tr : List (Occ (World X) (Action X))) :
    Prop :=
  ∀ q ∈ tr, ∀ c, Succeeds chain q c → ¬P c

/-- What holds after every successful run of the function holds after the call. -/
theorem exec_post {Q : Ret → World X → Prop}
    (hQ : wp (program call.entry) (chain.ctx call.sequence call.auth) w Q)
    (h : exec chain call w = .ok (r, w')) : Q r w' := by
  have hwp : wp (invoke call.entry) (chain.ctx call.sequence call.auth) w Q := by
    simp only [invoke, wp_bind, wp_loadInstance]
    intro _
    exact hQ
  exact hwp r w' h

end Step

/-! ## A sample deployment

The contract at address 0 of the standard network, after `init(1, 2, D)` at ledger 1: the token is
address 1, the admin address 2, and everybody holds 1000 of every token. -/

def sampleChain : Chain Balances := standardChain ⟨0⟩

def sampleWorld (D : UInt32) : World Balances :=
  step sampleChain (freshWorld fun _ _ => 1000) (.call ⟨1, [⟨2⟩], .init ⟨1⟩ ⟨2⟩ D⟩)

theorem sampleWorld_afterInit : AfterInit sampleChain ⟨1⟩ ⟨2⟩ 50 (sampleWorld 50) :=
  ⟨_, 1, [⟨2⟩], .unit, freshWorld_fresh _, rfl⟩

def sampleHash : BytesN 32 := Vector.replicate 32 7

end TipJar
