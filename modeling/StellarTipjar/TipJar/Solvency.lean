import StellarTipjar.TipJar.Accounting
import Mathlib.Algebra.BigOperators.Finprod

/-!
# TipJar — solvency of the escrow

What the contract owes in a token is the sum of all balances and fees, in both storage layouts. A
tip brings in exactly what it adds to the debt, a withdrawal takes exactly what it removes from
it, and everything else leaves both alone; so a token that moves what it is told to move covers
the debt in every reachable state (`owed_le_holding`). From a covered state every creator and the
fee collector can be paid (`no_stuck_funds`).
-/

namespace TipJar

open Lib Soroban

/-! ## The debt of a ledger -/

/-- All balances and fees in `T`. -/
noncomputable def Ledger.owed (L : Ledger) (T : Address) : Int :=
  (∑ᶠ c, L.balance c T) + L.fee T

/-- What a move brings into the contract in `T`. -/
def Move.inflow (T : Address) : Move → Int
  | .idle => 0
  | .tip _ token amount _ => if token = T then amount else 0
  | .withdraw _ token amount => if token = T then -amount else 0
  | .withdrawFees token amount => if token = T then -amount else 0

namespace Ledger

variable {L : Ledger} {T : Address}

/-- The sum of the balances moves by what is added to one creator. -/
theorem sum_balance_apply (hL : (fun c => L.balance c T).support.Finite) {m : Move}
    (creator : Address) (hm : ∀ c, c ≠ creator → m.toBalance c T = 0) :
    ∑ᶠ c, (L.apply m).balance c T = ∑ᶠ c, L.balance c T + m.toBalance creator T := by
  have hother : ∀ c, c ≠ creator → (L.apply m).balance c T = L.balance c T := by
    intro c hc
    rw [balance_apply, hm c hc, Int.add_zero]
  rw [finsum_update creator hL hother, balance_apply]
  omega

theorem owed_apply (hL : (fun c => L.balance c T).support.Finite) (m : Move) :
    (L.apply m).owed T = L.owed T + m.inflow T := by
  unfold owed
  rw [fee_apply]
  cases m with
  | idle => simp [apply, Move.toFee, Move.inflow]
  | tip creator token amount fee =>
    rw [sum_balance_apply hL creator (by intro c hc; simp [Move.toBalance, Ne.symm hc])]
    simp only [Move.toBalance, Move.toFee, Move.inflow, true_and]
    split <;> omega
  | withdraw creator token amount =>
    rw [sum_balance_apply hL creator (by intro c hc; simp [Move.toBalance, Ne.symm hc])]
    simp only [Move.toBalance, Move.toFee, Move.inflow, true_and]
    omega
  | withdrawFees token amount =>
    simp only [apply, setFee, Move.toFee, Move.inflow]
    omega

/-- No balance and no fee is more than the debt. -/
theorem Sound.le_owed (h : L.Sound) (hL : (fun c => L.balance c T).support.Finite) (c : Address) :
    L.balance c T ≤ L.owed T ∧ L.fee T ≤ L.owed T := by
  have hone : L.balance c T ≤ ∑ᶠ c, L.balance c T :=
    single_le_finsum c hL fun c => h.balance_nonneg c T
  have hsum : 0 ≤ ∑ᶠ c, L.balance c T := finsum_nonneg fun c => h.balance_nonneg c T
  have hfee := h.fee_nonneg T
  unfold owed
  omega

end Ledger

/-! ## The debt of the storage -/

variable {X : Type}

/-- The number stored in a counter. -/
def counterVal (v : Option I128) : Int := (v.getD 0).val

/-- What the v2 layout owes: `Σ_c Balance(c, T) + FeeBalanceToken(T)`. -/
noncomputable def owedV2 (w : World X) (T : Address) : Int :=
  (∑ᶠ c, counterVal (w.pers.get (.balance c T))) + counterVal (w.pers.get (.feeBalanceToken T))

/-- What the migrations have not moved yet: for the legacy token `Σ_c CreatorBalance(c) +
FeeBalance`. -/
noncomputable def owedV1 (w : World X) (T : Address) : Int :=
  if w.inst.get .token = some T then
    (∑ᶠ c, counterVal (w.pers.get (.creatorBalance c))) + counterVal (w.pers.get .feeBalance)
  else 0

/-- All that the contract owes in `T`. -/
noncomputable def owed (w : World X) (T : Address) : Int := owedV2 w T + owedV1 w T

section Storage

variable {w w' : World X}

theorem balance_finite (w : World X) (T : Address) :
    (fun c => counterVal (w.pers.get (.balance c T))).support.Finite :=
  w.pers.finite_support (fun c => .balance c T) (fun _ _ h => (DataKey.balance.inj h).1)
    (fun _ => counterVal) fun _ => rfl

theorem creatorBalance_finite (w : World X) :
    (fun c => counterVal (w.pers.get (.creatorBalance c))).support.Finite :=
  w.pers.finite_support (fun c => .creatorBalance c) (fun _ _ h => DataKey.creatorBalance.inj h)
    (fun _ => counterVal) fun _ => rfl

/-- Where the layouts are apart a logical balance is the sum of its two counters. -/
theorem Separate.balance_eq (h : Separate w) (c T : Address) :
    (ledger w).balance c T = counterVal (w.pers.get (.balance c T))
      + if w.inst.get .token = some T then counterVal (w.pers.get (.creatorBalance c)) else 0 := by
  show logicalBalance w c T = _
  unfold logicalBalance balanceEntry
  by_cases hT : w.inst.get .token = some T
  · rw [if_pos hT, if_pos hT]
    cases hv1 : w.pers.get (.creatorBalance c) with
    | none => simp [counterVal]
    | some v =>
      have hv2 : w.pers.get (.balance c T) = none := (h T hT c).1 (by rw [hv1]; simp)
      simp [hv2, counterVal]
  · rw [if_neg hT, if_neg hT]
    simp [counterVal]

theorem ledger_finite (h : Separate w) (T : Address) :
    (fun c => (ledger w).balance c T).support.Finite := by
  refine ((balance_finite w T).union (creatorBalance_finite w)).subset ?_
  intro c hc
  by_contra hno
  simp only [Set.mem_union, Function.mem_support, not_or, not_not] at hno
  refine hc ?_
  show (ledger w).balance c T = 0
  rw [h.balance_eq c T, hno.1, hno.2]
  simp

/-- The debt read off the storage is the debt of the abstract ledger. -/
theorem Separate.owed_eq (h : Separate w) (T : Address) : owed w T = (ledger w).owed T := by
  have hfee : (ledger w).fee T = counterVal (w.pers.get (.feeBalanceToken T))
      + if w.inst.get .token = some T then counterVal (w.pers.get .feeBalance) else 0 := rfl
  unfold owed owedV2 owedV1 Ledger.owed
  rw [hfee, finsum_congr fun c => h.balance_eq c T]
  by_cases hT : w.inst.get .token = some T
  · simp only [if_pos hT]
    rw [finsum_add_distrib (balance_finite w T) (creatorBalance_finite w)]
    omega
  · simp only [if_neg hT, Int.add_zero]

end Storage

/-- The v1 counters that count as debt are not negative. -/
structure V1Nonneg (w : World X) : Prop where
  creatorBalance : ∀ c v, w.pers.get (.creatorBalance c) = some v → 0 ≤ I128.val v
  feeBalance : ∀ v, w.pers.get .feeBalance = some v → 0 ≤ I128.val v

section V1

variable {w w' : World X}

theorem counterVal_nonneg {o : Option I128} (h : ∀ v, o = some v → 0 ≤ v.val) :
    0 ≤ counterVal o := by
  cases o with
  | none => exact le_rfl
  | some v => exact h v rfl

theorem V1Nonneg.owedV1_nonneg (h : V1Nonneg w) (T : Address) : 0 ≤ owedV1 w T := by
  unfold owedV1
  split
  · have hsum : 0 ≤ ∑ᶠ c, counterVal (w.pers.get (.creatorBalance c)) :=
      finsum_nonneg fun c => counterVal_nonneg (h.creatorBalance c)
    have hfee := counterVal_nonneg h.feeBalance
    omega
  · exact le_rfl

/-- They stay so because nothing writes them. -/
theorem V1Nonneg.shrink (h : V1Nonneg w) (hshrinks : V1Shrinks w w') : V1Nonneg w' := by
  refine ⟨?_, ?_⟩
  · intro c v hv
    rcases hshrinks (.creatorBalance c) rfl with hnone | hsame
    · rw [hnone] at hv
      cases hv
    · rw [hsame] at hv
      exact h.creatorBalance c v hv
  · intro v hv
    rcases hshrinks .feeBalance rfl with hnone | hsame
    · rw [hnone] at hv
      cases hv
    · rw [hsame] at hv
      exact h.feeBalance v hv

end V1

/-! ## Covered states -/

/-- The contract's holding of `T` covers what it owes. -/
structure Covered (chain : Chain X) (T : Address) (holding : X → Address → Nat)
    (w : World X) : Prop where
  admin : (w.inst.get .admin).isSome
  separate : Separate w
  v1Nonneg : V1Nonneg w
  covers : (ledger w).owed T ≤ holding w.ext chain.self

/-- Nobody authorises a call as the contract itself, and nothing outside the contract debits its
account. -/
def Permitted (chain : Chain X) (holding : X → Address → Nat) (o : Occ (World X) (Action X)) :
    Prop :=
  match o.act with
  | .call c => chain.self ∉ c.auth
  | .outside x => holding o.before.ext chain.self ≤ holding x chain.self

/-- Where a run starts: right after `init`, or in a v1 layout whose debt is covered. -/
inductive EscrowStart (chain : Chain X) (T : Address) (holding : X → Address → Nat)
    (w : World X) : Prop where
  | init (token admin : Address) (D : UInt32) (h : AfterInit chain token admin D w)
  | v1 (T₀ : Address) (layout : V1Layout T₀ w) (covers : owed w T ≤ holding w.ext chain.self)

section Runs

variable {chain : Chain X} {T : Address} {holding : X → Address → Nat} {w w' : World X}
  {call : Call}

/-- The tokens a call moves match its move on the ledger. -/
theorem MoneyEffect.inflow (h : MoneyEffect chain call w w') (htoken : chain.ExactToken T holding)
    (hself : chain.self ∉ call.auth) :
    ∃ m, ledger w' = (ledger w).apply m ∧ (Separate w → Separate w') ∧
      (holding w.ext chain.self : Int) + m.inflow T ≤ holding w'.ext chain.self := by
  cases h with
  | tipped sender creator token amount fee entry h =>
    have hsender : sender ≠ chain.self := by
      rintro rfl
      exact hself h.authorised
    exact ⟨_, h.moves.ledger, h.moves.separate, htoken.receives hsender h.ext⟩
  | withdrawn caller creator token dest amount paid entry h =>
    exact ⟨_, h.moves.ledger, h.moves.separate, htoken.sends h.paid_pos.le h.ext⟩
  | feesWithdrawn caller token amount paid entry h =>
    exact ⟨_, h.moves.ledger, h.moves.separate, htoken.sends h.paid_pos.le h.ext⟩
  | idle entry ledger separate v1 transfers ext =>
    refine ⟨.idle, ledger, separate, ?_⟩
    rw [ext]
    simp [Move.inflow]

/-- A permitted occurrence keeps the debt covered. -/
theorem Covered.step (htoken : chain.ExactToken T holding) {o : Occ (World X) (Action X)}
    (hstep : IsStep (step chain) o) (hperm : Permitted chain holding o)
    (h : Covered chain T holding o.before) : Covered chain T holding o.after := by
  unfold IsStep at hstep
  rw [hstep]
  rcases step_cases chain o.before o.act with
    ⟨c, r, hact, hexec⟩ | ⟨c, e, -, -, hsame⟩ | ⟨x, hact, hx⟩
  · have hself : chain.self ∉ c.auth := by
      unfold Permitted at hperm
      rw [hact] at hperm
      exact hperm
    have hgov := exec_governs hexec
    have hmoney := (exec_effect hexec).money hgov h.admin
    obtain ⟨m, hledger, hseparate, hinflow⟩ := hmoney.inflow htoken hself
    refine ⟨hgov.admin_isSome h.admin, hseparate h.separate, h.v1Nonneg.shrink hmoney.v1Shrinks, ?_⟩
    have hcovers := h.covers
    rw [hledger, Ledger.owed_apply (ledger_finite h.separate T)]
    omega
  · rw [hsame]
    exact h
  · have hkept : holding o.before.ext chain.self ≤ holding x chain.self := by
      unfold Permitted at hperm
      rw [hact] at hperm
      exact hperm
    rw [hx]
    refine ⟨h.admin, h.separate, ⟨h.v1Nonneg.creatorBalance, h.v1Nonneg.feeBalance⟩, ?_⟩
    have hcovers := h.covers
    show (ledger o.before).owed T ≤ (holding x chain.self : Int)
    omega

theorem AfterInit.separate {token admin : Address} {D : UInt32}
    (h : AfterInit chain token admin D w) : Separate w := by
  intro T₀ _ c
  exact ⟨fun _ => h.pers_get _, fun _ => h.pers_get _⟩

theorem V1Layout.separate {T₀ : Address} (h : V1Layout T₀ w) : Separate w := by
  intro T₁ hT₁ c
  rw [h.token] at hT₁
  cases hT₁
  exact ⟨fun _ => h.balance c, fun _ => h.total c⟩

theorem EscrowStart.covered (h : EscrowStart chain T holding w) : Covered chain T holding w := by
  cases h with
  | init token admin D h =>
    refine ⟨h.initialised.admin, h.separate, ⟨?_, ?_⟩, ?_⟩
    · intro c v hv
      rw [h.pers_get] at hv
      cases hv
    · intro v hv
      rw [h.pers_get] at hv
      cases hv
    have hzero : (Ledger.zero).owed T = 0 := by simp [Ledger.owed, Ledger.zero]
    rw [h.ledger_zero, hzero]
    omega
  | v1 T₀ layout covers =>
    refine ⟨layout.admin, layout.separate, ⟨layout.creatorBalance, layout.feeBalance⟩, ?_⟩
    rw [← layout.separate.owed_eq]
    exact covers

theorem EscrowStart.run_covered (htoken : chain.ExactToken T holding)
    (h₀ : EscrowStart chain T holding w) {acts : List (Action X)}
    (hperm : ∀ o ∈ trace (step chain) w acts, Permitted chain holding o) :
    Covered chain T holding (run (TipJar.step chain) w acts) :=
  run_invariant_of_trace (TipJar.step chain) h₀.covered fun o ho hbefore =>
    hbefore.step htoken (isStep_of_mem _ ho) (hperm o ho)

/-- In every reachable state the contract holds at least what it owes in both layouts, and so what
it owes in the v2 layout alone. -/
theorem owed_le_holding (htoken : chain.ExactToken T holding)
    (h₀ : EscrowStart chain T holding w) (acts : List (Action X))
    (hperm : ∀ o ∈ trace (step chain) w acts, Permitted chain holding o) :
    owed (run (step chain) w acts) T ≤ holding (run (step chain) w acts).ext chain.self ∧
      owedV2 (run (step chain) w acts) T ≤ holding (run (step chain) w acts).ext chain.self := by
  have hcovered := h₀.run_covered htoken hperm
  have hall : owed (run (step chain) w acts) T
      ≤ holding (run (step chain) w acts).ext chain.self := by
    rw [hcovered.separate.owed_eq]
    exact hcovered.covers
  have hv1 := hcovered.v1Nonneg.owedV1_nonneg T
  refine ⟨hall, ?_⟩
  unfold owed at hall
  omega

end Runs

/-- A tip, a deposit nobody accounts for and a withdrawal to the contract's own address. -/
theorem owed_le_holding_sample :
    let acts : List (Action Balances) :=
      [.call ⟨2, [⟨5⟩], .tip ⟨5⟩ ⟨3⟩ ⟨1⟩ 105⟩, .outside fun _ _ => 2000,
        .call ⟨3, [⟨3⟩], .setPayoutAddress ⟨3⟩ ⟨0⟩⟩,
        .call ⟨17283, [⟨3⟩], .withdraw ⟨3⟩ ⟨3⟩ ⟨1⟩ ⟨0⟩ (some 40)⟩]
    (run (step sampleChain) (sampleWorld 50) acts).ext ⟨1⟩ ⟨0⟩ = 2000 ∧
    owed (run (step sampleChain) (sampleWorld 50) acts) ⟨1⟩ ≤ 2000 ∧
    owedV2 (run (step sampleChain) (sampleWorld 50) acts) ⟨1⟩ ≤ 2000 := by
  intro acts
  have hperm : ∀ o ∈ trace (step sampleChain) (sampleWorld 50) acts,
      Permitted sampleChain (fun x a => x ⟨1⟩ a) o := by
    intro o ho
    simp only [acts, trace, List.mem_cons, List.not_mem_nil, or_false] at ho
    rcases ho with rfl | rfl | rfl | rfl
    · show (⟨0⟩ : Address) ∉ [⟨5⟩]
      decide
    · show (1105 : Nat) ≤ 2000
      decide
    · show (⟨0⟩ : Address) ∉ [⟨3⟩]
      decide
    · show (⟨0⟩ : Address) ∉ [⟨3⟩]
      decide
  exact ⟨rfl, owed_le_holding (standardChain_exactToken ⟨0⟩ ⟨1⟩)
    (.init _ _ _ sampleWorld_afterInit) acts hperm⟩

/-! ## Everybody can be paid -/

section Payments

variable {chain : Chain X} {T token admin : Address} {holding : X → Address → Nat} {D : UInt32}
  {w₀ w w' : World X}

/-- The holdings after `a` of `T` went from the contract to `p`. -/
def Pays (chain : Chain X) (T : Address) (holding : X → Address → Nat) (p : Address) (a : I128)
    (w w' : World X) : Prop :=
  w'.transfers = w.transfers ++ [⟨T, chain.self, p, a⟩] ∧
    ∀ x, (holding w'.ext x : Int)
      = holding w.ext x + (if x = p then a.val else 0) - (if x = chain.self then a.val else 0)

/-- The WITHDRAWALS flag is not effectively paused at `sequence`. -/
def WithdrawalsOpen (w : World X) (sequence : UInt32) : Prop :=
  ∀ state, pauseStateOf w = some state →
    effectivePauseFlags sequence state &&& pauseFlagWithdrawals = 0

theorem WithdrawalsOpen.notPaused {sequence : UInt32} (h : WithdrawalsOpen w sequence)
    (hpause : (pauseStateOf w).isSome) : NotPaused pauseFlagWithdrawals sequence w := by
  obtain ⟨state, hstate⟩ := Option.isSome_iff_exists.mp hpause
  exact ⟨state, hstate, h state hstate⟩

/-- From a covered state a creator can withdraw any part of its balance. -/
theorem creator_paid (htoken : chain.PayingToken T holding) (harchival : chain.archival = false)
    (hw : FromInit w) (hcovered : Covered chain T holding w) {c : Address} {sequence : UInt32}
    {auth : List Address} {a : I128} (hauth : c ∈ auth) (hopen : WithdrawalsOpen w sequence)
    (hpos : 0 < a.val) (hle : a.val ≤ logicalBalance w c T) :
    ∃ r w', exec chain ⟨sequence, auth, .withdraw c c T (payoutOf w c sequence) (some a)⟩ w
        = .ok (r, w') ∧
      Pays chain T holding (payoutOf w c sequence) a w w' ∧
      logicalBalance w' c T = logicalBalance w c T - a.val := by
  have howed := (hw.sound.le_owed (ledger_finite hcovered.separate T) c).1
  have hholds : a.val ≤ (holding w.ext chain.self : Int) :=
    hle.trans (howed.trans hcovered.covers)
  have hpays := htoken.pays ⟨T, chain.self, payoutOf w c sequence, a⟩ w.ext rfl rfl hpos hholds
  obtain ⟨r, w', hexec⟩ := withdraw_succeeds harchival hauth (hopen.notPaused hw.pause) hw.admin
    hpos hle hpays
  obtain ⟨paid, h⟩ := exec_spec hexec rfl (withdraw_spec c c T (payoutOf w c sequence) (some a))
  obtain rfl : paid = a := I128.ext h.paid_eq
  refine ⟨r, w', hexec, ⟨h.transfers, htoken.moves _ _ _ rfl h.ext⟩, ?_⟩
  show (ledger w').balance c T = (ledger w).balance c T - paid.val
  rw [h.moves.ledger, Ledger.balance_apply]
  simp [Move.toBalance, Int.sub_eq_add_neg]

/-- And the fee collector any part of the fees. -/
theorem collector_paid (htoken : chain.PayingToken T holding) (harchival : chain.archival = false)
    (hw : FromInit w) (hcovered : Covered chain T holding w) {k : Address} {sequence : UInt32}
    {auth : List Address} {a : I128} (hauth : k ∈ auth)
    (hcollector : w.inst.get .feeCollector = some k) (hpos : 0 < a.val)
    (hle : a.val ≤ logicalFee w T) :
    ∃ r w', exec chain ⟨sequence, auth, .withdrawFees k T (some a)⟩ w = .ok (r, w') ∧
      Pays chain T holding k a w w' ∧ logicalFee w' T = logicalFee w T - a.val := by
  have howed := (hw.sound.le_owed (ledger_finite hcovered.separate T) k).2
  have hholds : a.val ≤ (holding w.ext chain.self : Int) :=
    hle.trans (howed.trans hcovered.covers)
  have hpays := htoken.pays ⟨T, chain.self, k, a⟩ w.ext rfl rfl hpos hholds
  obtain ⟨r, w', hexec⟩ := withdrawFees_succeeds harchival hauth hcollector (hw.noV1 _ rfl)
    hpos hle hpays
  obtain ⟨paid, h⟩ := exec_spec hexec rfl (withdrawFees_spec k T (some a))
  obtain rfl : paid = a := I128.ext h.paid_eq
  refine ⟨r, w', hexec, ⟨h.transfers, htoken.moves _ _ _ rfl h.ext⟩, ?_⟩
  show (ledger w').fee T = (ledger w).fee T - paid.val
  rw [h.moves.ledger, Ledger.fee_apply]
  simp [Move.toFee, Int.sub_eq_add_neg]

/-- What can be paid out of the state `w` in `T`. -/
structure NoStuckFunds (chain : Chain X) (T : Address) (holding : X → Address → Nat)
    (w : World X) : Prop where
  creator : ∀ c B, Answers chain w (.getBalance c T) B → ∀ a : I128, 0 < a.val → a.val ≤ B →
    ∀ sequence, WithdrawalsOpen w sequence → ∀ auth, c ∈ auth →
      ∃ r w', exec chain ⟨sequence, auth, .withdraw c c T (payoutOf w c sequence) (some a)⟩ w
          = .ok (r, w') ∧
        Pays chain T holding (payoutOf w c sequence) a w w' ∧
        Answers chain w' (.getBalance c T) (B - a.val)
  collector : ∀ k, w.inst.get .feeCollector = some k → ∀ F, Answers chain w (.getFeeBalance T) F →
    ∀ a : I128, 0 < a.val → a.val ≤ F → ∀ sequence auth, k ∈ auth →
      ∃ r w', exec chain ⟨sequence, auth, .withdrawFees k T (some a)⟩ w = .ok (r, w') ∧
        Pays chain T holding k a w w' ∧ Answers chain w' (.getFeeBalance T) (F - a.val)

/-- In every state reachable from `init` all balances and fees can be withdrawn. -/
theorem no_stuck_funds (htoken : chain.PayingToken T holding) (harchival : chain.archival = false)
    (h₀ : AfterInit chain token admin D w₀) (acts : List (Action X))
    (hperm : ∀ o ∈ trace (step chain) w₀ acts, Permitted chain holding o) :
    NoStuckFunds chain T holding (run (step chain) w₀ acts) := by
  have hcovered : Covered chain T holding (run (step chain) w₀ acts) :=
    (EscrowStart.init token admin D h₀).run_covered htoken.toExactToken hperm
  have hw := h₀.run_fromInit acts
  refine ⟨?_, ?_⟩
  · intro c B hB a hpos hle sequence hopen auth hauth
    obtain rfl := hB.unique harchival (getBalance_answers c T)
    obtain ⟨r, w', hexec, hpays, hbalance⟩ :=
      creator_paid htoken harchival hw hcovered hauth hopen hpos hle
    refine ⟨r, w', hexec, hpays, ?_⟩
    rw [← hbalance]
    exact getBalance_answers c T
  · intro k hk F hF a hpos hle sequence auth hauth
    have hv1 := hw.noV1 .feeBalance rfl
    obtain rfl := hF.unique harchival (getFeeBalance_answers hv1 T)
    obtain ⟨r, w', hexec, hpays, hfee⟩ :=
      collector_paid htoken harchival hw hcovered hauth hk hpos hle
    have hw' : FromInit w' := by
      rw [← step_call_ok hexec]
      exact hw.step _
    refine ⟨r, w', hexec, hpays, ?_⟩
    rw [← hfee]
    exact getFeeBalance_answers (hw'.noV1 .feeBalance rfl) T

end Payments

/-- The token has left the allowlist and a payout change has matured; a part of the balance goes
to the new payout address. -/
theorem no_stuck_funds_sample :
    let acts : List (Action Balances) :=
      [.call ⟨2, [⟨2⟩], .addToken ⟨2⟩ ⟨7⟩⟩, .call ⟨3, [⟨5⟩], .tip ⟨5⟩ ⟨3⟩ ⟨1⟩ 105⟩,
        .call ⟨3, [⟨3⟩], .setPayoutAddress ⟨3⟩ ⟨4⟩⟩, .call ⟨4, [⟨2⟩], .removeToken ⟨2⟩ ⟨1⟩⟩]
    let w := run (step sampleChain) (sampleWorld 50) acts
    payoutOf w ⟨3⟩ 17283 = ⟨4⟩ ∧
    ∃ r w', exec sampleChain ⟨17283, [⟨3⟩], .withdraw ⟨3⟩ ⟨3⟩ ⟨1⟩ ⟨4⟩ (some 40)⟩ w = .ok (r, w') ∧
      Pays sampleChain ⟨1⟩ (fun x a => x ⟨1⟩ a) ⟨4⟩ 40 w w' ∧
      Answers sampleChain w' (.getBalance ⟨3⟩ ⟨1⟩) 65 := by
  intro acts w
  have hperm : ∀ o ∈ trace (step sampleChain) (sampleWorld 50) acts,
      Permitted sampleChain (fun x a => x ⟨1⟩ a) o := by
    intro o ho
    simp only [acts, trace, List.mem_cons, List.not_mem_nil, or_false] at ho
    rcases ho with rfl | rfl | rfl | rfl
    · show (⟨0⟩ : Address) ∉ [⟨2⟩]
      decide
    · show (⟨0⟩ : Address) ∉ [⟨5⟩]
      decide
    · show (⟨0⟩ : Address) ∉ [⟨3⟩]
      decide
    · show (⟨0⟩ : Address) ∉ [⟨2⟩]
      decide
  have hstuck :=
    no_stuck_funds (standardChain_payingToken ⟨0⟩ ⟨1⟩) rfl sampleWorld_afterInit acts hperm
  have hbalance : Answers sampleChain w (.getBalance ⟨3⟩ ⟨1⟩) 105 := getBalance_answers ⟨3⟩ ⟨1⟩
  have hopen : WithdrawalsOpen w 17283 := by
    intro state hstate
    cases hstate
    rfl
  exact ⟨rfl, hstuck.creator ⟨3⟩ 105 hbalance 40 (by decide) (by decide) 17283 hopen [⟨3⟩]
    (by decide)⟩

end TipJar
