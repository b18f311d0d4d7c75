import StellarTipjar.TipJar.Effects
import StellarTipjar.TipJar.Progress

/-!
# TipJar — exact accounting

The figures the getters report are sums over the history of the contract: every successful tip
adds its amount to the total, its net amount to the balance and its fee to the fee balance, every
successful withdrawal takes what it paid, and nothing else moves a figure.
-/

namespace TipJar

open Lib Soroban

variable {X : Type}

/-! ## The calls that move money -/

def Entrypoint.movesMoney : Entrypoint → Bool
  | .tip .. | .withdraw .. | .withdrawFees .. => true
  | _ => false

/-- What a successful call did to the figures and to the tokens. -/
inductive MoneyEffect (chain : Chain X) (call : Call) (w w' : World X) : Prop where
  | tipped (sender creator token : Address) (amount fee : I128)
      (entry : resolve w call.entry = .tip sender creator token amount)
      (h : Tipped chain call.sequence call.auth sender creator token amount fee w w')
  | withdrawn (caller creator token dest : Address) (amount : Option I128) (paid : I128)
      (entry : resolve w call.entry = .withdraw caller creator token dest amount)
      (h : Withdrawn chain call.sequence call.auth caller creator token dest amount paid w w')
  | feesWithdrawn (caller token : Address) (amount : Option I128) (paid : I128)
      (entry : resolve w call.entry = .withdrawFees caller token amount)
      (h : FeesWithdrawn chain call.auth caller token amount paid w w')
  | idle (entry : (resolve w call.entry).movesMoney = false) (ledger : ledger w' = ledger w)
      (separate : Separate w → Separate w') (v1 : V1Shrinks w w')
      (transfers : w'.transfers = w.transfers) (ext : w'.ext = w.ext)

section Money

variable {chain : Chain X} {call : Call} {w w' : World X}

/-- A getter moves no money. -/
theorem movesMoney_of_isQuery {entry : Entrypoint} (h : entry.isQuery = true) :
    (resolve w entry).movesMoney = false := by
  cases entry <;> first | rfl | cases h

/-- Nor does a call of the governance. -/
theorem movesMoney_of_isGovernance {entry : Entrypoint} (h : entry.isGovernance = true) :
    (resolve w entry).movesMoney = false := by
  cases entry <;> first | rfl | cases h

/-- An entry outside the counters shows nowhere in the figures. -/
theorem WritesEntry.money {k : DataKey} {v : Option (DataKey.Val k)} (h : WritesEntry k v w w')
    (hk : k.isLedger = false) (hentry : (resolve w call.entry).movesMoney = false) :
    MoneyEffect chain call w w' := by
  have htoken : w'.inst.get .token = w.inst.get .token := by rw [h.inst]
  have hcounters : ∀ j, j.isLedger = true → w'.pers.get j = w.pers.get j := by
    intro j hj
    refine h.frame j ?_
    rintro rfl
    rw [hk] at hj
    cases hj
  refine .idle hentry (ledger_congr htoken hcounters) (fun hs => hs.congr htoken hcounters) ?_
    h.transfers h.ext
  intro j hj
  exact .inr (hcounters j (by cases j <;> first | rfl | cases hj))

/-- Once there is an admin, only tips and withdrawals move figures. -/
theorem Effect.money (h : Effect chain call w w') (hgov : Governs call w w')
    (hadmin : (w.inst.get .admin).isSome) : MoneyEffect chain call w w' := by
  cases h with
  | tipped sender creator token amount fee entry h =>
    exact .tipped sender creator token amount fee entry h
  | withdrawn caller creator token dest amount paid entry h =>
    exact .withdrawn caller creator token dest amount paid entry h
  | feesWithdrawn caller token amount paid entry h =>
    exact .feesWithdrawn caller token amount paid (by rw [entry]; rfl) h
  | queried entry h =>
    exact .idle (movesMoney_of_isQuery entry) h.ledger h.separate h.v1 h.transfers h.ext
  | payoutProposed _ _ entry _ h => exact h.money rfl (by rw [entry]; rfl)
  | payoutCancelled _ entry _ _ h => exact h.money rfl (by rw [entry]; rfl)
  | operatorSet _ _ _ _ entry _ h => exact h.money rfl (by rw [entry]; rfl)
  | operatorRevoked _ _ entry _ h => exact h.money rfl (by rw [entry]; rfl)
  | governed entry pers transfers ext =>
    -- the storage is the same and so is the legacy token the figures are read with
    have htoken : w'.inst.get .token = w.inst.get .token := hgov.frozen hadmin (.inl rfl)
    have hcounters : ∀ k, DataKey.isLedger k = true → w'.pers.get k = w.pers.get k := by
      intro k _
      rw [pers]
    exact .idle (movesMoney_of_isGovernance entry) (ledger_congr htoken hcounters)
      (fun hs => hs.congr htoken hcounters) (fun k _ => .inr (by rw [pers])) transfers ext

end Money

/-! ## Contributions to the figures -/

/-- The call of a successful occurrence, with the token of a v1 call resolved. -/
def entryAt (chain : Chain X) (o : Occ (World X) (Action X)) : Option Entrypoint :=
  match o.act with
  | .call c =>
    match exec chain c o.before with
    | .ok _ => some (resolve o.before c.entry)
    | .error _ => none
  | .outside _ => none

/-- The amount of a successful tip for `(c, T)`. -/
def tipAmount (chain : Chain X) (c T : Address) (o : Occ (World X) (Action X)) : Int :=
  match entryAt chain o with
  | some (.tip _ creator token amount) => if creator = c ∧ token = T then amount.val else 0
  | _ => 0

/-- `floor(amount * bps / 10000)` at the fee rate stored at that moment. -/
def feeAt (o : Occ (World X) (Action X)) (amount : I128) : Int :=
  amount.val * (feeRate o.before).toNat / 10000

/-- The fee of a successful tip for `(c, T)`. -/
def tipFee (chain : Chain X) (c T : Address) (o : Occ (World X) (Action X)) : Int :=
  match entryAt chain o with
  | some (.tip _ creator token amount) => if creator = c ∧ token = T then feeAt o amount else 0
  | _ => 0

/-- The fee of a successful tip in `T`, whoever the creator. -/
def feeAmount (chain : Chain X) (T : Address) (o : Occ (World X) (Action X)) : Int :=
  match entryAt chain o with
  | some (.tip _ _ token amount) => if token = T then feeAt o amount else 0
  | _ => 0

/-- What the token transfers of an occurrence moved. -/
def paidBy (o : Occ (World X) (Action X)) : Int :=
  ((o.after.transfers.drop o.before.transfers.length).map fun t => t.amount.val).sum

/-- What a successful withdrawal for `(c, T)` paid. -/
def withdrawnAmount (chain : Chain X) (c T : Address) (o : Occ (World X) (Action X)) : Int :=
  match entryAt chain o with
  | some (.withdraw _ creator token _ _) => if creator = c ∧ token = T then paidBy o else 0
  | _ => 0

/-- What a successful fee withdrawal in `T` paid. -/
def feesWithdrawnAmount (chain : Chain X) (T : Address) (o : Occ (World X) (Action X)) : Int :=
  match entryAt chain o with
  | some (.withdrawFees _ token _) => if token = T then paidBy o else 0
  | _ => 0

section Contributions

variable {chain : Chain X} {o : Occ (World X) (Action X)}

/-- The call at an occurrence, with the token of a v1 call resolved. -/
theorem Succeeds.entryAt_eq {c : Call} (h : Succeeds chain o c) :
    entryAt chain o = some (resolve o.before c.entry) := by
  obtain ⟨hact, r, hexec⟩ := h
  simp only [entryAt, hact, hexec]

/-- Only a successful call counts. -/
theorem entryAt_eq_some {e : Entrypoint} (hstep : IsStep (step chain) o)
    (h : entryAt chain o = some e) : ∃ c, Succeeds chain o c ∧ resolve o.before c.entry = e := by
  unfold entryAt at h
  cases hact : o.act with
  | outside x =>
    rw [hact] at h
    cases h
  | call c =>
    rw [hact] at h
    cases hexec : exec chain c o.before with
    | error e =>
      simp only [hexec] at h
      cases h
    | ok res =>
      obtain ⟨r, w'⟩ := res
      simp only [hexec, Option.some.injEq] at h
      have hafter : o.after = w' := by
        rw [show o.after = step chain o.before o.act from hstep, hact]
        exact step_call_ok hexec
      exact ⟨c, ⟨hact, r, by rw [hexec, hafter]⟩, h⟩

/-- Where no call succeeded there is no entry. -/
theorem entryAt_eq_none (hstep : IsStep (step chain) o) (hno : ¬∃ c, Succeeds chain o c) :
    entryAt chain o = none := by
  cases h : entryAt chain o with
  | none => rfl
  | some e =>
    obtain ⟨c, hc, -⟩ := entryAt_eq_some hstep h
    exact absurd ⟨c, hc⟩ hno

/-- The amount of the one transfer of the step. -/
theorem paidBy_eq {t : Transfer} (h : o.after.transfers = o.before.transfers ++ [t]) :
    paidBy o = t.amount.val := by
  rw [paidBy, h, List.drop_left]
  simp

end Contributions

/-! ## One step -/

section Step

variable {chain : Chain X} {o : Occ (World X) (Action X)}

/-- The figures after an occurrence are those before plus its contributions. -/
structure FiguresStep (chain : Chain X) (o : Occ (World X) (Action X)) : Prop where
  total : ∀ c T, logicalTotal o.after c T = logicalTotal o.before c T + tipAmount chain c T o
  balance : ∀ c T, logicalBalance o.after c T = logicalBalance o.before c T
    + (tipAmount chain c T o - tipFee chain c T o - withdrawnAmount chain c T o)
  fee : ∀ T, logicalFee o.after T
    = logicalFee o.before T + (feeAmount chain T o - feesWithdrawnAmount chain T o)

/-- The figures move by the contributions of one abstract move. -/
theorem figuresStep_of_move {m : Move} (hledger : ledger o.after = (ledger o.before).apply m)
    (htotal : ∀ c T, m.toTotal c T = tipAmount chain c T o)
    (hbalance : ∀ c T,
      m.toBalance c T = tipAmount chain c T o - tipFee chain c T o - withdrawnAmount chain c T o)
    (hfee : ∀ T, m.toFee T = feeAmount chain T o - feesWithdrawnAmount chain T o) :
    FiguresStep chain o where
  total := by
    intro c T
    show (ledger o.after).total c T = _
    rw [hledger, Ledger.total_apply, htotal]
    rfl
  balance := by
    intro c T
    show (ledger o.after).balance c T = _
    rw [hledger, Ledger.balance_apply, hbalance]
    rfl
  fee := by
    intro T
    show (ledger o.after).fee T = _
    rw [hledger, Ledger.fee_apply, hfee]
    rfl

/-- An occurrence that moves no money contributes nothing. -/
theorem figuresStep_of_idle (hledger : ledger o.after = ledger o.before)
    (hentry : ∀ e, entryAt chain o = some e → e.movesMoney = false) : FiguresStep chain o := by
  refine figuresStep_of_move (m := .idle) hledger ?_ ?_ ?_
  all_goals
    intros
    simp only [Move.toTotal, Move.toBalance, Move.toFee, tipAmount, tipFee, withdrawnAmount,
      feeAmount, feesWithdrawnAmount]
    cases he : entryAt chain o with
    | none => rfl
    | some e => cases e <;> first | rfl | cases hentry _ he

/-- A step changes the figures by its tip, its withdrawal or its fee withdrawal. -/
theorem figures_step (hstep : IsStep (step chain) o) (hadmin : (o.before.inst.get .admin).isSome) :
    FiguresStep chain o := by
  cases he : entryAt chain o with
  | none =>
    rcases succeeds_or_outside hstep with ⟨c, hc⟩ | ⟨x, hx⟩
    · rw [hc.entryAt_eq] at he
      cases he
    · refine figuresStep_of_idle ?_ (by simp [he])
      rw [hx]
      rfl
  | some e =>
    obtain ⟨call, hcall, rfl⟩ := entryAt_eq_some hstep he
    have hmoney := hcall.effect.money hcall.governs hadmin
    cases hmoney with
    | tipped sender creator token amount fee entry h =>
      have hfee : fee.val = feeAt o amount := feeOf_val h.amount_pos.le h.fee_eq
      rw [entry] at he
      refine figuresStep_of_move h.moves.ledger ?_ ?_ ?_
      · intro c T
        simp only [Move.toTotal, tipAmount, he]
      · intro c T
        simp only [Move.toBalance, tipAmount, tipFee, withdrawnAmount, he, hfee]
        split <;> omega
      · intro T
        simp only [Move.toFee, feeAmount, feesWithdrawnAmount, he, hfee]
        omega
    | withdrawn caller creator token dest amount paid entry h =>
      have hpaid : paidBy o = paid.val := paidBy_eq h.transfers
      rw [entry] at he
      refine figuresStep_of_move h.moves.ledger ?_ ?_ ?_
      · intro c T
        simp only [Move.toTotal, tipAmount, he]
      · intro c T
        simp only [Move.toBalance, tipAmount, tipFee, withdrawnAmount, he, hpaid]
        split <;> omega
      · intro T
        simp only [Move.toFee, feeAmount, feesWithdrawnAmount, he]
        omega
    | feesWithdrawn caller token amount paid entry h =>
      have hpaid : paidBy o = paid.val := paidBy_eq h.transfers
      rw [entry] at he
      refine figuresStep_of_move h.moves.ledger ?_ ?_ ?_
      · intro c T
        simp only [Move.toTotal, tipAmount, he]
      · intro c T
        simp only [Move.toBalance, tipAmount, tipFee, withdrawnAmount, he]
        omega
      · intro T
        simp only [Move.toFee, feeAmount, feesWithdrawnAmount, he, hpaid]
        split <;> omega
    | idle entry ledger =>
      refine figuresStep_of_idle ledger ?_
      intro e' he'
      rw [he] at he'
      cases he'
      exact entry

end Step

/-! ## Reachable states -/

/-- What holds of every state reachable from `init`. -/
structure FromInit (w : World X) : Prop where
  admin : (w.inst.get .admin).isSome
  rate : feeRate w ≤ maxFeeBps
  pause : (pauseStateOf w).isSome
  noV1 : ∀ k, DataKey.isV1 k = true → w.pers.get k = none
  sound : (ledger w).Sound

section Reachable

variable {chain : Chain X} {w w' : World X} {call : Call}

/-- A fee is at most the amount. -/
theorem feeAt_le {amount : I128} {rate : UInt32} (hpos : 0 ≤ amount.val)
    (hrate : rate ≤ maxFeeBps) :
    amount.val * rate.toNat / 10000 ≤ amount.val := by
  have hnat : rate.toNat ≤ 1000 := hrate
  have hmul : amount.val * rate.toNat ≤ amount.val * 1000 :=
    Int.mul_le_mul_of_nonneg_left (by exact_mod_cast hnat) hpos
  omega

/-- Under the cap every call makes a fair move, or none. -/
theorem MoneyEffect.move (h : MoneyEffect chain call w w') (hrate : feeRate w ≤ maxFeeBps) :
    ∃ m, ledger w' = (ledger w).apply m ∧ (ledger w).Fair m := by
  cases h with
  | tipped sender creator token amount fee entry h =>
    refine ⟨_, h.moves.ledger, (feeOf_net h.amount_pos.le h.fee_eq).1, ?_⟩
    rw [feeOf_val h.amount_pos.le h.fee_eq]
    exact feeAt_le h.amount_pos.le hrate
  | withdrawn caller creator token dest amount paid entry h =>
    exact ⟨_, h.moves.ledger, h.paid_pos, h.paid_le⟩
  | feesWithdrawn caller token amount paid entry h =>
    exact ⟨_, h.moves.ledger, h.paid_pos, h.paid_le⟩
  | idle entry ledger separate v1 => exact ⟨.idle, ledger, trivial⟩

/-- No call writes a v1 counter. -/
theorem MoneyEffect.v1Shrinks (h : MoneyEffect chain call w w') : V1Shrinks w w' := by
  cases h with
  | tipped _ _ _ _ _ _ h => exact h.moves.v1
  | withdrawn _ _ _ _ _ _ _ h => exact h.moves.v1
  | feesWithdrawn _ _ _ _ _ h => exact h.moves.v1
  | idle _ _ _ v1 => exact v1

/-- No call takes the admin away, or raises the rate beyond its bound. -/
theorem FromInit.step (h : FromInit w) (a : Action X) : FromInit (step chain w a) := by
  refine step_preserves (fun x => ⟨h.admin, h.rate, h.pause, h.noV1, h.sound⟩) ?_ a
  intro c r w' hexec
  have hgov := exec_governs hexec
  have hmoney := (exec_effect hexec).money hgov h.admin
  obtain ⟨m, hledger, hfair⟩ := hmoney.move h.rate
  refine ⟨hgov.admin_isSome h.admin, hgov.feeRate_le h.rate, hgov.pauseStateOf_isSome h.pause,
    fun k hk => ?_, ?_⟩
  · rcases hmoney.v1Shrinks k hk with hnone | hkept
    · exact hnone
    · rw [hkept]
      exact h.noV1 k hk
  · rw [hledger]
    exact h.sound.apply hfair

/-- After `init` nothing is owed to anyone. -/
theorem AfterInit.ledger_zero {token admin : Address} {D : UInt32}
    (h : AfterInit chain token admin D w) : ledger w = Ledger.zero := by
  ext
  · simp [ledger, Ledger.zero, logicalBalance, balanceEntry, h.pers_get]
  · simp [ledger, Ledger.zero, logicalTotal, totalEntry, h.pers_get]
  · simp [ledger, Ledger.zero, logicalFee, h.pers_get]

theorem AfterInit.fromInit {token admin : Address} {D : UInt32}
    (h : AfterInit chain token admin D w) : FromInit w := by
  obtain ⟨-, hinst, -⟩ := h.state
  refine ⟨h.initialised.admin, ?_, ?_, fun k _ => h.pers_get k, ?_⟩
  · rw [feeRate, hinst]
    simp [maxFeeBps]
  · rw [pauseStateOf, hinst]
    simp
  · rw [h.ledger_zero]
    exact ⟨fun _ _ => le_rfl, fun _ _ => le_rfl, fun _ => le_rfl⟩

/-- By induction over the run. -/
theorem AfterInit.run_fromInit {token admin : Address} {D : UInt32}
    (h : AfterInit chain token admin D w) (acts : List (Action X)) :
    FromInit (run (TipJar.step chain) w acts) :=
  run_invariant (TipJar.step chain) (fun _ a hs => hs.step a) h.fromInit acts

/-- In particular before each of its steps. -/
theorem AfterInit.trace_fromInit {token admin : Address} {D : UInt32}
    (h : AfterInit chain token admin D w) {acts : List (Action X)}
    {o : Occ (World X) (Action X)} (ho : o ∈ trace (TipJar.step chain) w acts) :
    FromInit o.before :=
  trace_invariant (TipJar.step chain) (fun _ a hs => hs.step a) h.fromInit ho

end Reachable

/-! ## The figures of a run -/

/-- Every successful call of the getter `entry` returns `x`; and on a host that restores archived
entries every call of it succeeds. -/
def Answers (chain : Chain X) (w : World X) (entry : Entrypoint) (x : Int) : Prop :=
  (∀ sequence auth r w', exec chain ⟨sequence, auth, entry⟩ w = .ok (r, w') →
    ∃ v, r = .i128 v ∧ v.val = x) ∧
  (chain.archival = false → ∀ sequence auth,
    ∃ r w', exec chain ⟨sequence, auth, entry⟩ w = .ok (r, w'))

section Answers

variable {chain : Chain X} {w : World X}

/-- A getter has one answer. -/
theorem Answers.unique {entry : Entrypoint} {x y : Int} (harchival : chain.archival = false)
    (hx : Answers chain w entry x) (hy : Answers chain w entry y) : x = y := by
  obtain ⟨r, w', hexec⟩ := hx.2 harchival 0 []
  obtain ⟨u, hu, hux⟩ := hx.1 0 [] r w' hexec
  obtain ⟨v, hv, hvy⟩ := hy.1 0 [] r w' hexec
  rw [hu] at hv
  cases hv
  omega

/-- The getters answer with the logical figures. -/
theorem getTotalTips_answers (c T : Address) :
    Answers chain w (.getTotalTips c T) (logicalTotal w c T) := by
  refine ⟨?_, fun harchival sequence auth => getTotalTips_succeeds harchival c T⟩
  intro sequence auth r w' hexec
  obtain ⟨v, hr, hv, -⟩ := exec_spec_i128 hexec rfl (getTotalTips_spec c T)
  exact ⟨v, hr, hv⟩

theorem getBalance_answers (c T : Address) :
    Answers chain w (.getBalance c T) (logicalBalance w c T) := by
  refine ⟨?_, fun harchival sequence auth => getBalance_succeeds harchival c T⟩
  intro sequence auth r w' hexec
  obtain ⟨v, hr, hv, -⟩ := exec_spec_i128 hexec rfl (getBalance_spec c T)
  exact ⟨v, hr, hv⟩

-- with a v1 counter left, adding it to the v2 one could overflow
theorem getFeeBalance_answers (hv1 : w.pers.get .feeBalance = none) (T : Address) :
    Answers chain w (.getFeeBalance T) (logicalFee w T) := by
  refine ⟨?_, fun harchival sequence auth => getFeeBalance_succeeds harchival T hv1⟩
  intro sequence auth r w' hexec
  obtain ⟨v, hr, hv, -⟩ := exec_spec_i128 hexec rfl (getFeeBalance_spec T)
  exact ⟨v, hr, hv⟩

end Answers

/-- The accounts of the contract in state `w` after the history `tr`. -/
structure ExactAccounting (chain : Chain X) (tr : List (Occ (World X) (Action X)))
    (w : World X) : Prop where
  totalTips : ∀ c T, Answers chain w (.getTotalTips c T) (tr.map (tipAmount chain c T)).sum
  balance : ∀ c T, Answers chain w (.getBalance c T)
    ((tr.map fun o => tipAmount chain c T o - tipFee chain c T o).sum
      - (tr.map (withdrawnAmount chain c T)).sum)
  feeBalance : ∀ T, Answers chain w (.getFeeBalance T)
    ((tr.map (feeAmount chain T)).sum - (tr.map (feesWithdrawnAmount chain T)).sum)
  bounds : ∀ c T, 0 ≤ logicalBalance w c T ∧ logicalBalance w c T ≤ logicalTotal w c T
  totalGrows : ∀ o ∈ tr, ∀ c T, logicalTotal o.before c T ≤ logicalTotal o.after c T
  rate : (feeRate w).toNat ≤ 1000
  /-- only a tip or a withdrawal for the pair itself moves its figures -/
  isolated : ∀ o ∈ tr, ∀ c T, (∀ s a, entryAt chain o ≠ some (.tip s c T a)) →
    (∀ k d a, entryAt chain o ≠ some (.withdraw k c T d a)) →
      logicalBalance o.after c T = logicalBalance o.before c T ∧
        logicalTotal o.after c T = logicalTotal o.before c T

section Sums

variable {chain : Chain X} {token admin : Address} {D : UInt32} {w₀ : World X}
  {acts : List (Action X)}

/-- Every step of a run from `init` books its amounts. -/
theorem figures_of_run (h₀ : AfterInit chain token admin D w₀) {o : Occ (World X) (Action X)}
    (ho : o ∈ trace (step chain) w₀ acts) : FiguresStep chain o :=
  figures_step (isStep_of_mem (step chain) ho) (h₀.trace_fromInit ho).admin

/-- The total is the sum of the tips. -/
theorem logicalTotal_run (h₀ : AfterInit chain token admin D w₀) (c T : Address) :
    logicalTotal (run (step chain) w₀ acts) c T
      = ((trace (step chain) w₀ acts).map (tipAmount chain c T)).sum := by
  have hzero : logicalTotal w₀ c T = 0 := by
    show (ledger w₀).total c T = 0
    rw [h₀.ledger_zero]
    rfl
  rw [run_eq_add_sum (step chain) (f := fun w => logicalTotal w c T)
    fun o ho => (figures_of_run h₀ ho).total c T, hzero, Int.zero_add]

/-- The balance is the sum of the tips less fees, less the withdrawals. -/
theorem logicalBalance_run (h₀ : AfterInit chain token admin D w₀) (c T : Address) :
    logicalBalance (run (step chain) w₀ acts) c T
      = ((trace (step chain) w₀ acts).map fun o =>
          tipAmount chain c T o - tipFee chain c T o).sum
        - ((trace (step chain) w₀ acts).map (withdrawnAmount chain c T)).sum := by
  have hzero : logicalBalance w₀ c T = 0 := by
    show (ledger w₀).balance c T = 0
    rw [h₀.ledger_zero]
    rfl
  rw [run_eq_add_sum (step chain) (f := fun w => logicalBalance w c T)
    fun o ho => (figures_of_run h₀ ho).balance c T, hzero, Int.zero_add, sum_map_sub]

/-- The fees are the sum of the fees taken, less those withdrawn. -/
theorem logicalFee_run (h₀ : AfterInit chain token admin D w₀) (T : Address) :
    logicalFee (run (step chain) w₀ acts) T
      = ((trace (step chain) w₀ acts).map (feeAmount chain T)).sum
        - ((trace (step chain) w₀ acts).map (feesWithdrawnAmount chain T)).sum := by
  have hzero : logicalFee w₀ T = 0 := by
    show (ledger w₀).fee T = 0
    rw [h₀.ledger_zero]
    rfl
  rw [run_eq_add_sum (step chain) (f := fun w => logicalFee w T)
    fun o ho => (figures_of_run h₀ ho).fee T, hzero, Int.zero_add, sum_map_sub]

/-- No tip is negative. -/
theorem tipAmount_nonneg {o : Occ (World X) (Action X)} (hstep : IsStep (step chain) o)
    (c T : Address) : 0 ≤ tipAmount chain c T o := by
  unfold tipAmount
  split
  · next sender creator tok amount he =>
    obtain ⟨call, hcall, hentry⟩ := entryAt_eq_some hstep he
    split
    · obtain ⟨fee, h⟩ := hcall.tipped hentry
      exact h.amount_pos.le
    · exact le_rfl
  · exact le_rfl

/-- A pair that no tip and no withdrawal named gets no contribution. -/
theorem contributions_of_other {o : Occ (World X) (Action X)} {c T : Address}
    (htip : ∀ s a, entryAt chain o ≠ some (.tip s c T a))
    (hwithdraw : ∀ k d a, entryAt chain o ≠ some (.withdraw k c T d a)) :
    tipAmount chain c T o = 0 ∧ tipFee chain c T o = 0 ∧ withdrawnAmount chain c T o = 0 := by
  unfold tipAmount tipFee withdrawnAmount
  cases he : entryAt chain o with
  | none => exact ⟨rfl, rfl, rfl⟩
  | some e =>
    cases e with
    | tip s c' T' a =>
      have hne : ¬(c' = c ∧ T' = T) := by
        rintro ⟨rfl, rfl⟩
        exact htip s a he
      simp [hne]
    | withdraw k c' T' d a =>
      have hne : ¬(c' = c ∧ T' = T) := by
        rintro ⟨rfl, rfl⟩
        exact hwithdraw k d a he
      simp [hne]
    | _ => exact ⟨rfl, rfl, rfl⟩

/-- In every run from `init` the accounts are exact. -/
theorem exact_accounting (h₀ : AfterInit chain token admin D w₀) (acts : List (Action X)) :
    ExactAccounting chain (trace (step chain) w₀ acts) (run (step chain) w₀ acts) := by
  have hend := h₀.run_fromInit acts
  refine ⟨?_, ?_, ?_, ?_, ?_, hend.rate, ?_⟩
  · intro c T
    rw [← logicalTotal_run h₀]
    exact getTotalTips_answers c T
  · intro c T
    rw [← logicalBalance_run h₀]
    exact getBalance_answers c T
  · intro T
    rw [← logicalFee_run h₀]
    exact getFeeBalance_answers (hend.noV1 _ rfl) T
  · intro c T
    exact ⟨hend.sound.balance_nonneg c T, hend.sound.balance_le c T⟩
  · intro o ho c T
    have hpos := tipAmount_nonneg (isStep_of_mem (step chain) ho) c T
    rw [(figures_of_run h₀ ho).total c T]
    omega
  · intro o ho c T htip hwithdraw
    have hstep := figures_of_run h₀ ho
    obtain ⟨ht, hf, hw⟩ := contributions_of_other htip hwithdraw
    rw [hstep.balance c T, hstep.total c T, ht, hf, hw]
    simp

end Sums

/-- A tip with a fee, a change of the rate, a withdrawal and a fee withdrawal, with the figures
they leave. -/
theorem exact_accounting_sample :
    let acts : List (Action Balances) :=
      [.call ⟨2, [⟨2⟩], .setFee ⟨2⟩ 1000⟩, .call ⟨2, [⟨2⟩], .proposeFeeCollector ⟨2⟩ ⟨6⟩⟩,
        .call ⟨2, [⟨6⟩], .acceptFeeCollector ⟨6⟩⟩, .call ⟨3, [⟨5⟩], .tip ⟨5⟩ ⟨3⟩ ⟨1⟩ 105⟩,
        .call ⟨4, [⟨2⟩], .setFee ⟨2⟩ 0⟩, .call ⟨5, [⟨5⟩], .tipLegacy ⟨5⟩ ⟨3⟩ 100⟩,
        .call ⟨6, [⟨3⟩], .withdraw ⟨3⟩ ⟨3⟩ ⟨1⟩ ⟨3⟩ (some 40)⟩,
        .call ⟨7, [⟨6⟩], .withdrawFees ⟨6⟩ ⟨1⟩ none⟩]
    logicalTotal (run (step sampleChain) (sampleWorld 50) acts) ⟨3⟩ ⟨1⟩ = 205 ∧
    logicalBalance (run (step sampleChain) (sampleWorld 50) acts) ⟨3⟩ ⟨1⟩ = 155 ∧
    logicalFee (run (step sampleChain) (sampleWorld 50) acts) ⟨1⟩ = 0 ∧
    ExactAccounting sampleChain (trace (step sampleChain) (sampleWorld 50) acts)
      (run (step sampleChain) (sampleWorld 50) acts) := by
  intro acts
  exact ⟨rfl, rfl, rfl, exact_accounting sampleWorld_afterInit acts⟩

end TipJar
