import StellarTipjar.TipJar.Accounting

/-!
# TipJar — authority

A closed-world statement over all entrypoints: without the creator, its operators and the holders
of a role nothing of the creator's and nothing of the governance can be changed. Tips still come
in, getters still migrate, and `execute_upgrade` is open to everybody once the timelock is over.

`Governs.by_role` and `Effect.keys_kept` go through all the calls once; the run follows by
transitivity of `Untouched`.
-/

namespace TipJar

open Lib Soroban

variable {X : Type}

/-! ## Roles -/

/-- `a` is the admin, the guardian or the fee collector, or is about to be one. -/
def HasRole (w : World X) (a : Address) : Prop :=
  w.inst.get .admin = some a ∨ (∃ expiry, w.inst.get .pendingAdmin = some (a, expiry)) ∨
    w.inst.get .guardian = some a ∨ w.inst.get .feeCollector = some a ∨
    ∃ expiry, w.inst.get .pendingFeeCollector = some (a, expiry)

/-- The addresses of `A` have no say over `c` and none in the governance. -/
structure Powerless (w : World X) (c : Address) (A : Set Address) : Prop where
  creator : c ∉ A
  operators : ∀ a, (w.pers.get (.operator c a)).isSome → a ∉ A
  roles : ∀ a, HasRole w a → a ∉ A

/-- Every authorisation of the run is by an address of `A`. -/
def AuthorisedWithin (A : Set Address) (acts : List (Action X)) : Prop :=
  ∀ call, Action.call call ∈ acts → ∀ a ∈ call.auth, a ∈ A

/-- Somebody with a role in `w` is among `auth`. -/
def RoleIn (w : World X) (auth : List Address) : Prop := ∃ a ∈ auth, HasRole w a

section Roles

variable {call : Call} {w w' : World X}

theorem ByAdmin.roleIn {admin : Address} {auth : List Address} (h : ByAdmin admin auth w) :
    RoleIn w auth :=
  ⟨admin, h.1, .inl h.2⟩

theorem Paused.roleIn {caller : Address} {flag sequence : UInt32} {auth : List Address}
    (h : Paused caller flag sequence auth w w') : RoleIn w auth := by
  obtain ⟨hauth, state, -, ⟨hadmin, -⟩ | ⟨-, hguardian, -⟩⟩ := h
  · exact ⟨caller, hauth, .inl hadmin⟩
  · exact ⟨caller, hauth, .inr (.inr (.inl hguardian))⟩

/-- A call that changed the instance storage was authorised by the holder of a role, or it
executed a matured upgrade. -/
theorem Governs.by_role (h : Governs call w w') (hadmin : (w.inst.get .admin).isSome) :
    w'.inst = w.inst ∨ RoleIn w call.auth ∨ call.entry = .executeUpgrade := by
  obtain ⟨sequence, auth, entry⟩ := call
  cases entry with
  | init token admin ledgers =>
    have hnone : w.inst.get .admin = none := h.1
    rw [hnone] at hadmin
    cases hadmin
  | addToken | removeToken | proposeAdmin | cancelAdminTransfer | proposeUpgrade | cancelUpgrade
  | migrate | setGuardian | setGuardianPauseDuration | setFee | proposeFeeCollector
  | cancelFeeCollectorTransfer | unpauseTips | unpauseWithdrawals | unpauseAll =>
    exact .inr (.inl (ByAdmin.roleIn h.1))
  | acceptAdmin newAdmin =>
    obtain ⟨hauth, expiry, hpending, -⟩ := h
    exact .inr (.inl ⟨newAdmin, hauth, .inr (.inl ⟨expiry, hpending⟩)⟩)
  | acceptFeeCollector newCollector =>
    obtain ⟨hauth, expiry, hpending, -⟩ := h
    exact .inr (.inl ⟨newCollector, hauth, .inr (.inr (.inr (.inr ⟨expiry, hpending⟩)))⟩)
  | pauseTips | pauseWithdrawals | pauseAll => exact .inr (.inl (Paused.roleIn h))
  | executeUpgrade => exact .inr (.inr rfl)
  | _ => exact .inl h

end Roles

/-! ## One call -/

section Call

variable {chain : Chain X} {call : Call} {w w' : World X} {c : Address} {A : Set Address}

/-- A withdrawal is called by the creator or by one of its operators. -/
theorem Withdrawn.caller {sequence : UInt32} {auth : List Address}
    {caller creator token dest : Address} {amount : Option I128} {paid : I128}
    (h : Withdrawn chain sequence auth caller creator token dest amount paid w w') :
    caller = creator ∨ (w.pers.get (.operator creator caller)).isSome := by
  by_cases hcaller : caller = creator
  · exact .inl hcaller
  · obtain ⟨allowance, expiry, hgrant, -⟩ := h.operator hcaller
    exact .inr (by rw [hgrant]; rfl)

/-- So the powerless withdraw for other creators only. -/
theorem Powerless.creator_ne (hA : Powerless w c A) {sequence : UInt32} {auth : List Address}
    (hauth : ∀ a ∈ auth, a ∈ A) {caller creator token dest : Address} {amount : Option I128}
    {paid : I128} (h : Withdrawn chain sequence auth caller creator token dest amount paid w w') :
    creator ≠ c := by
  rintro rfl
  have hcaller : caller ∈ A := hauth caller h.authorised
  rcases h.caller with rfl | hoperator
  · exact hA.creator hcaller
  · exact hA.operators caller hoperator hcaller

/-- The payout address, the pending change and the operators of `c` are the same. -/
structure KeysKept (c : Address) (w w' : World X) : Prop where
  payoutAddress : w'.pers.get (.payoutAddress c) = w.pers.get (.payoutAddress c)
  pendingPayoutChange :
    w'.pers.get (.pendingPayoutChange c) = w.pers.get (.pendingPayoutChange c)
  operators : ∀ a, w'.pers.get (.operator c a) = w.pers.get (.operator c a)

theorem OnlyCounters.keysKept (h : OnlyCounters w w') : KeysKept c w w' :=
  ⟨h _ rfl, h _ rfl, fun _ => h _ rfl⟩

theorem Effect.keys_kept (h : Effect chain call w w') (hA : Powerless w c A)
    (hauth : ∀ a ∈ call.auth, a ∈ A) : KeysKept c w w' := by
  -- the creator whose entry a payout or operator call writes is not `c`
  have hother : ∀ creator, creator ∈ call.auth → c ≠ creator := by
    rintro creator hcreator rfl
    exact hA.creator (hauth c hcreator)
  cases h with
  | tipped _ _ _ _ _ _ h => exact h.kept.keysKept
  | withdrawn caller creator token dest amount paid entry h =>
    have hne : c ≠ creator := (hA.creator_ne hauth h).symm
    exact ⟨h.kept _ rfl (by simp [hne]) (by simp) (by simp),
      h.kept _ rfl (by simp) (by simp [hne]) (by simp),
      fun _ => h.kept _ rfl (by simp) (by simp) (by simp [hne])⟩
  | feesWithdrawn _ _ _ _ _ h => exact h.kept.keysKept
  | queried _ h => exact h.kept.keysKept
  | payoutProposed creator payout entry auth h =>
    have hne := hother creator auth
    exact ⟨h.frame _ (by simp), h.frame _ (by simp [hne]), fun _ => h.frame _ (by simp)⟩
  | payoutCancelled creator entry auth pending h =>
    have hne := hother creator auth
    exact ⟨h.frame _ (by simp), h.frame _ (by simp [hne]), fun _ => h.frame _ (by simp)⟩
  | operatorSet creator operator allowance expiry entry auth h =>
    have hne := hother creator auth
    exact ⟨h.frame _ (by simp), h.frame _ (by simp), fun _ => h.frame _ (by simp [hne])⟩
  | operatorRevoked creator operator entry auth h =>
    have hne := hother creator auth
    exact ⟨h.frame _ (by simp), h.frame _ (by simp), fun _ => h.frame _ (by simp [hne])⟩
  | governed entry pers transfers ext wasm =>
    have hsame : OnlyCounters w w' := fun k _ => by rw [pers]
    exact hsame.keysKept

/-- The balances and totals of `c` and all fee balances are at least what they were. -/
structure FiguresGrow (c : Address) (w w' : World X) : Prop where
  balance : ∀ T, logicalBalance w c T ≤ logicalBalance w' c T
  total : ∀ T, logicalTotal w c T ≤ logicalTotal w' c T
  fee : ∀ T, logicalFee w T ≤ logicalFee w' T

theorem figuresGrow_of_move {m : Move} (hledger : ledger w' = (ledger w).apply m)
    (hbalance : ∀ T, 0 ≤ m.toBalance c T) (htotal : ∀ T, 0 ≤ m.toTotal c T)
    (hfee : ∀ T, 0 ≤ m.toFee T) : FiguresGrow c w w' := by
  refine ⟨?_, ?_, ?_⟩
  · intro T
    show (ledger w).balance c T ≤ (ledger w').balance c T
    rw [hledger, Ledger.balance_apply]
    have := hbalance T
    omega
  · intro T
    show (ledger w).total c T ≤ (ledger w').total c T
    rw [hledger, Ledger.total_apply]
    have := htotal T
    omega
  · intro T
    show (ledger w).fee T ≤ (ledger w').fee T
    rw [hledger, Ledger.fee_apply]
    have := hfee T
    omega

theorem MoneyEffect.figures_grow (h : MoneyEffect chain call w w') (hrate : feeRate w ≤ maxFeeBps)
    (hA : Powerless w c A) (hauth : ∀ a ∈ call.auth, a ∈ A) : FiguresGrow c w w' := by
  cases h with
  | tipped sender creator token amount fee entry h =>
    -- under the cap the fee is between zero and the amount
    have hamount := h.amount_pos
    have hfee₀ : 0 ≤ fee.val := (feeOf_net hamount.le h.fee_eq).1
    have hfee₁ : fee.val ≤ amount.val := by
      rw [feeOf_val hamount.le h.fee_eq]
      exact feeAt_le hamount.le hrate
    refine figuresGrow_of_move h.moves.ledger ?_ ?_ ?_
    · intro T
      simp only [Move.toBalance]
      split <;> omega
    · intro T
      simp only [Move.toTotal]
      split <;> omega
    · intro T
      simp only [Move.toFee]
      split <;> omega
  | withdrawn caller creator token dest amount paid entry h =>
    have hne : creator ≠ c := hA.creator_ne hauth h
    refine figuresGrow_of_move h.moves.ledger ?_ (fun _ => le_rfl) (fun _ => le_rfl)
    intro T
    simp [Move.toBalance, hne]
  | feesWithdrawn caller token amount paid entry h =>
    exact absurd (hauth caller h.authorised)
      (hA.roles caller (.inr (.inr (.inr (.inl h.collector)))))
  | idle entry ledger separate v1 transfers ext =>
    exact figuresGrow_of_move (m := .idle) ledger (fun _ => le_rfl) (fun _ => le_rfl)
      fun _ => le_rfl

end Call

/-! ## Runs -/

/-- The states the contract can be in: reached from `init`, or from a v1 layout with a fee rate
under the cap. -/
inductive Reachable (chain : Chain X) (w : World X) : Prop where
  | init (token admin : Address) (D : UInt32) (w₀ : World X) (acts : List (Action X))
      (start : AfterInit chain token admin D w₀) (run : w = run (step chain) w₀ acts)
  | v1 (T₀ : Address) (w₀ : World X) (acts : List (Action X)) (start : V1Layout T₀ w₀)
      (rate : feeRate w₀ ≤ maxFeeBps) (run : w = run (step chain) w₀ acts)

/-- In `tr` the pending upgrade was executed, in ledger `unlock` or later. -/
def ExecutedIn (chain : Chain X) (tr : List (Occ (World X) (Action X))) (unlock : UInt32) : Prop :=
  ∃ o ∈ tr, ∃ call, Succeeds chain o call ∧ call.entry = .executeUpgrade ∧ unlock ≤ call.sequence

/-- What the history `tr` from `w` to `w'` left alone: every instance key (the admin, the fee
collector, the guardian and their pending successors, the fee rate, the pause state, the allowlist,
the legacy token, the data version, the timelock) except the pending upgrade, which may have been
executed, and everything of `c`'s. -/
structure Untouched (chain : Chain X) (tr : List (Occ (World X) (Action X))) (c : Address)
    (w w' : World X) : Prop where
  inst : ∀ k, k ≠ .pendingUpgrade → w'.inst.get k = w.inst.get k
  keys : KeysKept c w w'
  figures : FiguresGrow c w w'
  upgrade : (w'.inst.get .pendingUpgrade = w.inst.get .pendingUpgrade ∧ w'.wasm = w.wasm) ∨
    ∃ hash unlock, w.inst.get .pendingUpgrade = some (hash, unlock) ∧ ExecutedIn chain tr unlock ∧
      w'.inst.get .pendingUpgrade = none ∧ w'.wasm = some hash

section Run

variable {chain : Chain X} {tr : List (Occ (World X) (Action X))} {c : Address}
  {w w₁ w' : World X} {A : Set Address}

theorem Untouched.of_ext (x : X) : Untouched chain tr c w { w with ext := x } where
  inst := fun _ _ => rfl
  keys := ⟨rfl, rfl, fun _ => rfl⟩
  figures := ⟨fun _ => le_rfl, fun _ => le_rfl, fun _ => le_rfl⟩
  upgrade := .inl ⟨rfl, rfl⟩

theorem Untouched.trans (h₁ : Untouched chain tr c w w₁) (h₂ : Untouched chain tr c w₁ w') :
    Untouched chain tr c w w' where
  inst := fun k hk => (h₂.inst k hk).trans (h₁.inst k hk)
  keys :=
    ⟨h₂.keys.payoutAddress.trans h₁.keys.payoutAddress,
      h₂.keys.pendingPayoutChange.trans h₁.keys.pendingPayoutChange,
      fun a => (h₂.keys.operators a).trans (h₁.keys.operators a)⟩
  figures :=
    ⟨fun T => (h₁.figures.balance T).trans (h₂.figures.balance T),
      fun T => (h₁.figures.total T).trans (h₂.figures.total T),
      fun T => (h₁.figures.fee T).trans (h₂.figures.fee T)⟩
  upgrade := by
    rcases h₁.upgrade with ⟨hsame₁, hwasm₁⟩ | ⟨hash, unlock, hpending, hexecuted, hnone, hwasm₁⟩
    · rw [← hsame₁, ← hwasm₁]
      exact h₂.upgrade
    · -- after an execution nothing is pending, so there is no second one
      rcases h₂.upgrade with ⟨hsame₂, hwasm₂⟩ | ⟨_, _, hpending₂, -⟩
      · exact .inr ⟨hash, unlock, hpending, hexecuted, hsame₂.trans hnone, hwasm₂.trans hwasm₁⟩
      · rw [hnone] at hpending₂
        cases hpending₂

theorem Powerless.of_untouched (h : Powerless w c A) (hw : Untouched chain tr c w w') :
    Powerless w' c A := by
  refine ⟨h.creator, ?_, ?_⟩
  · intro a ha
    rw [hw.keys.operators a] at ha
    exact h.operators a ha
  · intro a ha
    unfold HasRole at ha
    rw [hw.inst .admin (by simp), hw.inst .pendingAdmin (by simp), hw.inst .guardian (by simp),
      hw.inst .feeCollector (by simp), hw.inst .pendingFeeCollector (by simp)] at ha
    exact h.roles a ha

/-- One successful call. -/
theorem untouched_of_succeeds {o : Occ (World X) (Action X)} {call : Call}
    (hcall : Succeeds chain o call) (ho : o ∈ tr) (hadmin : (o.before.inst.get .admin).isSome)
    (hrate : feeRate o.before ≤ maxFeeBps) (hA : Powerless o.before c A)
    (hauth : ∀ a ∈ call.auth, a ∈ A) : Untouched chain tr c o.before o.after := by
  have hgov := hcall.governs
  have hkeys := hcall.effect.keys_kept hA hauth
  have hfigures := (hcall.effect.money hgov hadmin).figures_grow hrate hA hauth
  by_cases hupgrade : call.entry = .executeUpgrade
  · obtain ⟨hash, unlock, hpending, hunlock, hinst, hwasm⟩ := hgov.of_entry hupgrade
    refine ⟨?_, hkeys, hfigures, .inr ⟨hash, unlock, hpending, ?_, ?_, hwasm⟩⟩
    · intro k hk
      rw [hinst, Store.get_remove_of_ne _ hk]
    · exact ⟨o, ho, call, hcall, hupgrade, hunlock⟩
    · rw [hinst, Store.get_remove_self]
  · have hinst : o.after.inst = o.before.inst := by
      rcases hgov.by_role hadmin with hinst | ⟨a, ha, hrole⟩ | hentry
      · exact hinst
      · exact absurd (hauth a ha) (hA.roles a hrole)
      · exact absurd hentry hupgrade
    refine ⟨fun k _ => ?_, hkeys, hfigures, .inl ⟨?_, hcall.effect.wasm hupgrade⟩⟩
    · rw [hinst]
    · rw [hinst]

/-- There is an admin and the fee rate is under the cap. -/
structure Configured (w : World X) : Prop where
  admin : (w.inst.get .admin).isSome
  rate : feeRate w ≤ maxFeeBps

theorem Configured.step (h : Configured w) (a : Action X) : Configured (step chain w a) := by
  refine step_preserves (fun x => ⟨h.admin, h.rate⟩) ?_ a
  intro c r w' hexec
  have hgov := exec_governs hexec
  exact ⟨hgov.admin_isSome h.admin, hgov.feeRate_le h.rate⟩

theorem Reachable.configured (h : Reachable chain w) : Configured w := by
  cases h with
  | init token admin D w₀ acts start hrun =>
    have hinit := start.fromInit
    rw [hrun]
    exact run_invariant (TipJar.step chain) (fun _ a h => h.step a) ⟨hinit.admin, hinit.rate⟩ acts
  | v1 T₀ w₀ acts start rate hrun =>
    rw [hrun]
    exact run_invariant (TipJar.step chain) (fun _ a h => h.step a) ⟨start.admin, rate⟩ acts

/-- Whatever the powerless do, and however often, `c` and the governance stay untouched. -/
theorem powerless_run_untouched (hw : Reachable chain w) (hA : Powerless w c A)
    (acts : List (Action X)) (hauth : AuthorisedWithin A acts) :
    Untouched chain (trace (step chain) w acts) c w (run (step chain) w acts) := by
  refine run_invariant_of_trace (step chain)
    (P := Untouched chain (trace (step chain) w acts) c w) (.of_ext w.ext) ?_
  intro o ho hbefore
  refine hbefore.trans ?_
  have hstep := isStep_of_mem (step chain) ho
  rcases succeeds_or_outside hstep with ⟨call, hcall⟩ | ⟨x, hx⟩
  · have hconf : Configured o.before :=
      trace_invariant (step chain) (fun _ a h => h.step a) hw.configured ho
    exact untouched_of_succeeds hcall ho hconf.admin hconf.rate (hA.of_untouched hbefore)
      (hauth call (mem_acts_of_succeeds ho hcall))
  · rw [hx]
    exact .of_ext x

end Run

/-- A stranger tips the creator, tries to take the contract over and executes the upgrade that
matured. -/
theorem powerless_run_untouched_sample :
    let w := run (step sampleChain) (sampleWorld 50)
      [.call ⟨2, [⟨2⟩], .proposeUpgrade ⟨2⟩ sampleHash⟩,
        .call ⟨3, [⟨3⟩], .authorizeOperator ⟨3⟩ ⟨4⟩ 10 900⟩]
    let acts : List (Action Balances) :=
      [.call ⟨4, [⟨5⟩], .tip ⟨5⟩ ⟨3⟩ ⟨1⟩ 105⟩, .call ⟨5, [⟨5⟩], .proposeAdmin ⟨5⟩ ⟨5⟩⟩,
        .call ⟨6, [⟨5⟩], .withdraw ⟨5⟩ ⟨3⟩ ⟨1⟩ ⟨3⟩ none⟩, .call ⟨60, [], .executeUpgrade⟩]
    (run (step sampleChain) w acts).wasm = some sampleHash ∧
    logicalBalance (run (step sampleChain) w acts) ⟨3⟩ ⟨1⟩ = 105 ∧
    Untouched sampleChain (trace (step sampleChain) w acts) ⟨3⟩ w
      (run (step sampleChain) w acts) := by
  intro w acts
  have hA : Powerless w ⟨3⟩ {⟨5⟩} := by
    refine ⟨by simp, ?_, ?_⟩
    · rintro a ha rfl
      cases ha
    · rintro a ha rfl
      rcases ha with ha | ⟨e, ha⟩ | ha | ha | ⟨e, ha⟩ <;> cases ha
  have hauth : AuthorisedWithin {⟨5⟩} acts := by
    intro call hcall a ha
    simp only [acts, List.mem_cons, List.not_mem_nil, or_false, Action.call.injEq] at hcall
    rcases hcall with rfl | rfl | rfl | rfl
    · simpa using ha
    · simpa using ha
    · simpa using ha
    · cases ha
  exact ⟨rfl, rfl,
    powerless_run_untouched (.init _ _ _ _ _ sampleWorld_afterInit rfl) hA acts hauth⟩

end TipJar
