import StellarTipjar.TipJar.Accounting
import StellarTipjar.TipJar.Footprints
import StellarTipjar.Soroban.Reentrancy

/-!
# TipJar — if the host allowed re-entry

`withdraw` and `withdraw_fees` read a counter, call the token, and write the counter afterwards
from what they had read. On a host that lets the token call back, a withdrawal made inside the
transfer of another one is overwritten by it, and the money is paid twice.

`play` runs the contract on such a host: every token call of every call may itself make calls, to
any finite depth. The history keeps, for every call that succeeded, the calls in whose transfers
it was made. `pots_covered` says that self-nested withdrawals are the only way to be overpaid: a
pot that is never drawn on during the transfer of a draw on the same pot pays out at most what was
paid in.
-/

namespace TipJar

open Lib Soroban Contract

variable {X : Type}

/-! ## The machine with re-entry -/

/-- A call that succeeded: the calls in whose transfers it was made, itself (with the token of a
v1 call resolved), the fee rate when it began and the amount of the last token transfer. -/
structure Record where
  enclosing : List Entrypoint
  entry : Entrypoint
  rate : UInt32
  moved : Int
deriving DecidableEq, Repr

/-- A state whose token keeps the history of the calls. -/
abbrev LoggedWorld (X : Type) := World (Logged Record X)

-- the transfer of a call is logged when it returns, after those of the calls made inside it
def lastMoved (w : World X) : Int := (w.transfers.getLast?.map fun t => t.amount.val).getD 0

/-- One call whose token runs `before` and `after`. -/
def enter (chain : Chain X) (stack : List Entrypoint)
    (before after : LoggedWorld X → LoggedWorld X) (c : Call) (w : LoggedWorld X) :
    LoggedWorld X :=
  match (invoke c.entry).run (chain.reentrantCtx before after c.sequence c.auth) w with
  | .ok (_, w') =>
    { w' with
      ext := { w'.ext with
        log := w'.ext.log ++ [⟨stack, resolve w c.entry, feeRate w, lastMoved w'⟩] } }
  | .error _ => w

/-- The contract along a script, inside the transfers of the calls of `stack`. -/
def play (chain : Chain X) : Script Call X → List Entrypoint → LoggedWorld X → LoggedWorld X
  | .done, _, w => w
  | .outside x rest, stack, w => play chain rest stack { w with ext := { w.ext with ext := x } }
  | .call c before after rest, stack, w =>
    play chain rest stack
      (enter chain stack (play chain before (resolve w c.entry :: stack))
        (play chain after (resolve w c.entry :: stack)) c w)

/-! ## Pots -/

/-- What can be drawn on: the balance of a creator in a token, or the fees of a token. -/
inductive Pot where
  | balance (creator token : Address)
  | fees (token : Address)
deriving DecidableEq, Repr

/-- What is in the pot. -/
def Pot.held (L : Ledger) : Pot → Int
  | .balance c T => L.balance c T
  | .fees T => L.fee T

/-- The calls that pay out of the pot. -/
def Pot.drawnBy : Pot → Entrypoint → Bool
  | .balance c T, .withdraw _ creator token _ _ => creator = c ∧ token = T
  | .fees T, .withdrawFees _ token _ => token = T
  | _, _ => false

/-- What the recorded call paid into the pot: a tip is split at the rate it found. -/
def Pot.paidIn (r : Record) : Pot → Int
  | .balance c T =>
    match r.entry with
    | .tip _ creator token amount =>
      if creator = c ∧ token = T then amount.val - amount.val * r.rate.toNat / 10000 else 0
    | _ => 0
  | .fees T =>
    match r.entry with
    | .tip _ _ token amount => if token = T then amount.val * r.rate.toNat / 10000 else 0
    | _ => 0

/-- What the recorded call drew from the pot: the amount of its transfer. -/
def Pot.paidOut (r : Record) (pot : Pot) : Int := if pot.drawnBy r.entry then r.moved else 0

/-- What the calls of a history paid into the pot. -/
def totalPaidIn (pot : Pot) (log : List Record) : Int := (log.map fun r => pot.paidIn r).sum

/-- What the calls of a history drew from the pot. -/
def totalPaidOut (pot : Pot) (log : List Record) : Int := (log.map fun r => pot.paidOut r).sum

/-- No draw on the pot was made during the transfer of another draw on it. -/
def NotNested (pot : Pot) (log : List Record) : Prop :=
  ∀ r ∈ log, pot.drawnBy r.entry = true → ∀ e ∈ r.enclosing, pot.drawnBy e = false

/-- A call that moves no money draws on no pot. -/
theorem Pot.drawnBy_of_idle {e : Entrypoint} (h : e.movesMoney = false) {pot : Pot} :
    pot.drawnBy e = false := by
  cases pot <;> cases e <;> first | rfl | cases h

/-- And it pays into none. -/
theorem Pot.paidIn_of_idle {r : Record} (h : r.entry.movesMoney = false) {pot : Pot} :
    pot.paidIn r = 0 := by
  obtain ⟨enclosing, entry, rate, moved⟩ := r
  cases pot <;> cases entry <;> first | rfl | cases h

/-- Only the v1 calls have a token to be resolved. -/
theorem resolve_of_callsToken {e : Entrypoint} {w : World X} (h : e.callsToken = false) :
    resolve w e = e := by
  cases e <;> first | rfl | cases h

section Totals

variable {pot : Pot} {l₁ l₂ log : List Record}

/-- The totals add up over the parts of a history. -/
theorem totalPaidIn_append :
    totalPaidIn pot (l₁ ++ l₂) = totalPaidIn pot l₁ + totalPaidIn pot l₂ := by
  simp [totalPaidIn]

theorem totalPaidOut_append :
    totalPaidOut pot (l₁ ++ l₂) = totalPaidOut pot l₁ + totalPaidOut pot l₂ := by
  simp [totalPaidOut]

/-- A part of a history without nested draws has none. -/
theorem NotNested.left (h : NotNested pot (l₁ ++ l₂)) : NotNested pot l₁ :=
  fun r hr => h r (List.mem_append_left _ hr)

theorem NotNested.right (h : NotNested pot (l₁ ++ l₂)) : NotNested pot l₂ :=
  fun r hr => h r (List.mem_append_right _ hr)

/-- Nothing is taken by paying in. -/
theorem totalPaidIn_nonneg (h : ∀ r ∈ log, 0 ≤ pot.paidIn r) : 0 ≤ totalPaidIn pot log := by
  refine List.sum_nonneg ?_
  intro x hx
  obtain ⟨r, hr, rfl⟩ := List.mem_map.mp hx
  exact h r hr

/-- Inside the transfer of a draw on the pot nothing is drawn on it. -/
theorem NotNested.totalPaidOut_eq_zero (h : NotNested pot log) {e : Entrypoint}
    (he : pot.drawnBy e = true) (henclosing : ∀ r ∈ log, e ∈ r.enclosing) :
    totalPaidOut pot log = 0 := by
  refine List.sum_eq_zero ?_
  intro x hx
  obtain ⟨r, hr, rfl⟩ := List.mem_map.mp hx
  unfold Pot.paidOut
  split
  · next hdrawn =>
    have hnot := h r hr hdrawn e (henclosing r hr)
    rw [he] at hnot
    cases hnot
  · rfl

end Totals

/-! ## The money calls, interrupted

The specifications of `Escrow` on an arbitrary host: `w₁` is the state in which the token is
called, `w₂` the state in which it returns. -/

/-- One rewriting of the ledger after the other. -/
theorem Rewrites.trans {f g : Ledger → Ledger} {w w₁ w' : World X} (h : Rewrites f w w₁)
    (h' : Rewrites g w₁ w') : Rewrites (fun L => g (f L)) w w' where
  inst := h'.inst.trans h.inst
  wasm := h'.wasm.trans h.wasm
  transfers := h'.transfers.trans h.transfers
  ext := h'.ext.trans h.ext
  ledger := by rw [h'.ledger, h.ledger]
  separate := fun hs => h'.separate (h.separate hs)
  v1 := h.v1.trans h'.v1
  kept := fun k hk => (h'.kept k hk).trans (h.kept k hk)

/-- A call that makes the transfer `t` and books `f` when it has returned. -/
structure Detour (ctx : Ctx DataKey DataKey.Val Event Error X) (t : Transfer)
    (f : Ledger → Ledger) (w w₁ w₂ w' : World X) : Prop where
  inst : w₁.inst = w.inst
  ext : w₁.ext = w.ext
  counters : ∀ k, k.isLedger = true → w₁.pers.get k = w.pers.get k
  transfer : ctx.transfer t w₁ = .ok w₂
  booked : NoV1 w₂ → Rewrites f (w₂.transferred t) w'

section Detours

variable {ctx : Ctx DataKey DataKey.Val Event Error X} {w : World X}

/-- A hypothesis about the state before can be used in the postcondition. -/
theorem wp_imp {α : Type} {m : M X α} {p : Prop} {Q : α → World X → Prop}
    (h : p → wp m ctx w Q) : wp m ctx w fun a w' => p → Q a w' :=
  fun a w' hrun hp => h hp a w' hrun

/-- An entrypoint that returns nothing is its body. -/
theorem wp_unit {m : M X Unit} {Q : World X → Prop} (h : wp m ctx w fun _ w' => Q w') :
    wp (m >>= fun _ => pure Ret.unit) ctx w fun _ w' => Q w' := by
  rw [wp_bind]
  exact wp_mono h fun _ _ hQ => (wp_pure _).mpr hQ

-- with no v1 counter the logical balance is the stored one
theorem NoV1.logicalBalance_eq (hv1 : NoV1 w) (creator token : Address) :
    logicalBalance w creator token
      = ((w.pers.get (.balance creator token) : Option I128).getD 0).val := by
  have hnone : w.pers.get (.creatorBalance creator) = none := hv1 _ rfl
  rw [logicalBalance, balanceEntry, hnone]
  simp

/-- With no v1 counter the logical fees are the stored ones. -/
theorem NoV1.logicalFee_eq (hv1 : NoV1 w) (token : Address) :
    logicalFee w token = ((w.pers.get (.feeBalanceToken token) : Option I128).getD 0).val := by
  have hnone : w.pers.get .feeBalance = none := hv1 _ rfl
  rw [logicalFee, hnone]
  simp

/-- A tip calls the token in the state it found, and books itself in the state the token leaves. -/
theorem tip_detour (hv1 : NoV1 w) (sender creator token : Address) (amount : I128) :
    wp (tip sender creator token amount) ctx w fun _ w' =>
      0 < amount.val ∧ ∃ fee w₂, feeOf amount (feeRate w) = some fee ∧
        Detour ctx ⟨token, sender, ctx.self, amount⟩
          (fun L => L.apply (.tip creator token amount.val fee.val)) w w w₂ w' := by
  simp only [tip, wp_bind, wp_requireAuth, wp_checkNotPaused, wp_panicIf, wp_ensureInitialized,
    wp_ensureTokenAllowed]
  intro _ _ hamount _ _
  have hpos : 0 < amount.val := not_le.mp hamount
  refine maybeMigrateCreatorData_noV1 hv1 creator token ?_
  simp only [wp_instanceGet, wp_feeFor, wp_currentContractAddress, wp_tokenTransfer_host,
    wp_onlyIf, wp_bumpInstanceTtl, wp_publish]
  intro fee hfee w₂ htransfer
  obtain ⟨-, hnet⟩ := feeOf_net hpos.le hfee
  -- what follows the transfer is only known when nothing is left to migrate in `w₂`
  have hcredit : wp (creditTip creator token amount fee) ctx
      (w₂.transferred ⟨token, sender, ctx.self, amount⟩) fun _ w₃ => NoV1 w₂ →
        Rewrites (fun L => (L.setBalance creator token
          (L.balance creator token + (amount - fee).val)).setTotal creator token
          (L.total creator token + amount.val))
          (w₂.transferred ⟨token, sender, ctx.self, amount⟩) w₃ :=
    wp_imp fun hv1₂ => creditTip_spec creator token amount fee fun _ => ⟨hv1₂ _ rfl, hv1₂ _ rfl⟩
  refine wp_mono hcredit fun _ w₃ hcredited => ?_
  have hdone : ∀ w', Rewrites (fun L => L.setFee token (L.fee token + fee.val)) w₃ w' →
      Detour ctx ⟨token, sender, ctx.self, amount⟩
        (fun L => L.apply (.tip creator token amount.val fee.val)) w w w₂ w' := by
    intro w' hcollect
    refine ⟨rfl, rfl, fun _ _ => rfl, htransfer, fun hv1₂ => ?_⟩
    have hboth := (hcredited hv1₂).trans hcollect
    rw [hnet] at hboth
    exact hboth
  refine ⟨fun _ => ?_, fun hzero => ⟨hpos, fee, w₂, hfee, hdone _ (Rewrites.published ?_)⟩⟩
  · exact wp_mono (collectFee_spec creator token amount fee) fun _ w' hcollect =>
      ⟨hpos, fee, w₂, hfee, hdone _ hcollect.published⟩
  · exact .of_no_fee (feeOf_zero_rate hzero hfee) token w₃

/-- A withdrawal sets the balance to the one it read before the transfer, less what it paid: what the
token did in between to that balance is overwritten. -/
theorem withdraw_detour (hv1 : NoV1 w) (caller creator token dest : Address)
    (amount : Option I128) :
    wp (withdraw caller creator token dest amount) ctx w fun _ w' =>
      ∃ paid w₁ w₂, 0 < I128.val paid ∧ paid.val ≤ logicalBalance w creator token ∧
        Detour ctx ⟨token, ctx.self, dest, paid⟩
          (fun L => L.setBalance creator token (logicalBalance w creator token - paid.val))
          w w₁ w₂ w' := by
  simp only [withdraw, wp_bind, wp_requireAuth, wp_checkNotPaused, wp_ensureInitialized]
  intro _ _ _
  refine maybeMigrateCreatorData_noV1 hv1 creator token ?_
  simp only [wp_persistentGet, wp_panicIf]
  intro _ _ hamount
  rw [hv1.logicalBalance_eq]
  obtain ⟨balance, hbalance⟩ :
      ∃ balance, balance = (w.pers.get (.balance creator token) : Option I128).getD 0 := ⟨_, rfl⟩
  obtain ⟨paid, hpaid⟩ : ∃ paid, paid = amount.getD balance := ⟨_, rfl⟩
  rw [← hbalance, ← hpaid] at hamount ⊢
  obtain ⟨hpos, hle, hsub⟩ := I128.val_take hamount
  refine wp_mono (payoutSettled_spec creator caller paid) fun _ w₃ hsettle => ?_
  refine wp_mono hsettle fun _ w₄ hsettle => wp_mono hsettle fun payout w₁ hsettled => ?_
  simp only [wp_currentContractAddress, wp_tokenTransfer_host, wp_persistentSet,
    wp_bumpPersistentTtl, wp_bumpInstanceTtl, wp_publish]
  intro hdest w₂ htransfer _ _ _
  obtain rfl : dest = payout := not_not.mp hdest
  refine ⟨paid, w₁, w₂, hpos, hle, hsettled.inst, hsettled.ext, ?_, htransfer, fun hv1₂ => ?_⟩
  · intro k hk
    exact hsettled.frame k (by rintro rfl; cases hk) (by rintro rfl; cases hk)
      (by rintro _ rfl; cases hk)
  · refine ⟨rfl, rfl, rfl, rfl, ?_, fun hs => ?_, fun k hk => .inr ?_, fun k hk => ?_⟩
    · rw [ledger_publish, ledger_bumpInstance, ledger_bumpPersistent,
        ledger_setPersistent_balance _ (by exact fun _ => hv1₂ _ rfl), hsub]
    · exact hs.setPersistent_balance ctx (balance - paid) fun _ => hv1₂ _ rfl
    · have hk₀ : k ≠ .balance creator token := by rintro rfl; cases hk
      simp [hk₀]
    · have hk₀ : k ≠ .balance creator token := by rintro rfl; cases hk
      simp [hk₀]

/-- The same for the fees. -/
theorem withdrawFees_detour (hv1 : NoV1 w) (caller token : Address) (amount : Option I128) :
    wp (withdrawFees caller token amount) ctx w fun _ w' =>
      ∃ paid w₂, 0 < I128.val paid ∧ paid.val ≤ logicalFee w token ∧
        Detour ctx ⟨token, ctx.self, caller, paid⟩
          (fun L => L.setFee token (logicalFee w token - paid.val)) w w w₂ w' := by
  simp only [withdrawFees, wp_bind, wp_requireAuth, wp_instanceGet, wp_unwrapOrPanic, wp_panicIf]
  intro _ collector _ hcaller
  obtain rfl : caller = collector := not_not.mp hcaller
  refine maybeMigrateFeeBalance_noV1 hv1 token ?_
  simp only [wp_persistentGet, wp_currentContractAddress, wp_tokenTransfer_host, wp_persistentSet,
    wp_bumpPersistentTtl, wp_bumpInstanceTtl, wp_publish]
  intro _ _ hamount w₂ htransfer _ _ _
  rw [hv1.logicalFee_eq]
  obtain ⟨balance, hbalance⟩ :
      ∃ balance, balance = (w.pers.get (.feeBalanceToken token) : Option I128).getD 0 := ⟨_, rfl⟩
  obtain ⟨paid, hpaid⟩ : ∃ paid, paid = amount.getD balance := ⟨_, rfl⟩
  rw [← hbalance, ← hpaid] at hamount htransfer ⊢
  obtain ⟨hpos, hle, hsub⟩ := I128.val_take hamount
  refine ⟨paid, w₂, hpos, hle, rfl, rfl, fun _ _ => rfl, htransfer, fun hv1₂ => ?_⟩
  refine ⟨rfl, rfl, rfl, rfl, ?_, fun hs => ?_, fun k hk => .inr ?_, fun k hk => ?_⟩
  · rw [ledger_publish, ledger_bumpInstance, ledger_bumpPersistent,
      ledger_setPersistent_fee _ (by exact fun _ => hv1₂ _ rfl), hsub]
  · exact hs.setPersistent_fee ctx (balance - paid)
  · have hk₀ : k ≠ .feeBalanceToken token := by rintro rfl; cases hk
    simp [hk₀]
  · have hk₀ : k ≠ .feeBalanceToken token := by rintro rfl; cases hk
    simp [hk₀]

end Detours

/-! ## The books of a history -/

/-- What holds in every state, also in the middle of a transfer. -/
structure Guarded (w : World X) : Prop where
  admin : (w.inst.get .admin).isSome
  rate : feeRate w ≤ maxFeeBps
  noV1 : NoV1 w
  held : ∀ pot : Pot, 0 ≤ pot.held (ledger w)

/-- From `w` to `w'` exactly the calls of `new` succeeded, all of them inside the transfers of
`stack`, and a pot without nested draws ends with at most what they leave in it. -/
structure Accounts (stack : List Entrypoint) (new : List Record) (w w' : LoggedWorld X) :
    Prop where
  guarded : Guarded w'
  log : w'.ext.log = w.ext.log ++ new
  enclosing : ∀ r ∈ new, ∀ e ∈ stack, e ∈ r.enclosing
  paidIn : ∀ r ∈ new, ∀ pot : Pot, 0 ≤ pot.paidIn r
  held : ∀ pot : Pot, NotNested pot new →
    pot.held (ledger w') ≤ pot.held (ledger w) + totalPaidIn pot new - totalPaidOut pot new

/-- A guarded state stays guarded, and what is new in the history accounts for the pots. -/
def Accounted (stack : List Entrypoint) (w w' : LoggedWorld X) : Prop :=
  Guarded w → ∃ new, Accounts stack new w w'

section Accounted

variable {stack : List Entrypoint} {w w₁ w₂ w' : LoggedWorld X}

/-- Nothing happened to the pots or the history. -/
theorem accounted_of_same (hinst : w'.inst = w.inst) (hlog : w'.ext.log = w.ext.log)
    (hcounters : ∀ k, DataKey.isLedger k = true → w'.pers.get k = w.pers.get k) :
    Accounted stack w w' := by
  intro hw
  have hledger : ledger w' = ledger w := ledger_congr (by rw [hinst]) hcounters
  refine ⟨[], ⟨?_, ?_, ?_, ?_⟩, by simpa using hlog, by simp, by simp, fun pot _ => ?_⟩
  · rw [hinst]
    exact hw.admin
  · rw [feeRate, hinst]
    exact hw.rate
  · intro k hk
    rw [hcounters k (by cases k <;> first | rfl | cases hk)]
    exact hw.noV1 k hk
  · rw [hledger]
    exact hw.held
  · rw [hledger]
    simp [totalPaidIn, totalPaidOut]

/-- The histories are joined, and the bounds are added. -/
theorem Accounted.trans (h : Accounted stack w w₁) (h' : Accounted stack w₁ w') :
    Accounted stack w w' := by
  intro hw
  obtain ⟨new, h⟩ := h hw
  obtain ⟨new', h'⟩ := h' h.guarded
  refine ⟨new ++ new', h'.guarded, ?_, ?_, ?_, fun pot hnested => ?_⟩
  · rw [h'.log, h.log, List.append_assoc]
  · intro r hr
    rcases List.mem_append.mp hr with hr | hr
    · exact h.enclosing r hr
    · exact h'.enclosing r hr
  · intro r hr
    rcases List.mem_append.mp hr with hr | hr
    · exact h.paidIn r hr
    · exact h'.paidIn r hr
  · have hfirst := h.held pot hnested.left
    have hsecond := h'.held pot hnested.right
    rw [totalPaidIn_append, totalPaidOut_append]
    omega

/-- What a call that succeeded did around its transfer, which returned in `w₂`: a draw sets the
pot to what the call had found there at its start, less the payment. -/
structure Settles (r : Record) (w w₂ w' : LoggedWorld X) : Prop where
  admin : (w'.inst.get .admin).isSome
  rate : feeRate w' ≤ maxFeeBps
  noV1 : NoV1 w'
  ext : w'.ext = w₂.ext
  drawn : ∀ pot : Pot, pot.drawnBy r.entry = true →
    pot.held (ledger w') = pot.held (ledger w) - r.moved ∧ r.moved ≤ pot.held (ledger w)
  other : ∀ pot : Pot, pot.drawnBy r.entry = false →
    pot.held (ledger w') = pot.held (ledger w₂) + pot.paidIn r
  paidIn : ∀ pot : Pot, 0 ≤ pot.paidIn r

/-- Recording a call extends the account of what its token did by the call itself. The pot it
draws on is where self-nesting matters: what the token did to that pot is overwritten. -/
theorem Settles.accounted {r : Record} (hstack : r.enclosing = stack)
    (hnested : Accounted (r.entry :: stack) w w₂)
    (hsettles : Guarded w₂ → Settles r w w₂ w') :
    Accounted stack w { w' with ext := { w'.ext with log := w'.ext.log ++ [r] } } := by
  intro hw
  obtain ⟨new, hnew⟩ := hnested hw
  have h := hsettles hnew.guarded
  have hheld : ∀ pot : Pot, 0 ≤ pot.held (ledger w') := by
    intro pot
    cases hdrawn : pot.drawnBy r.entry with
    | true =>
      have := h.drawn pot hdrawn
      omega
    | false =>
      have := h.other pot hdrawn
      have := h.paidIn pot
      have := hnew.guarded.held pot
      omega
  refine ⟨new ++ [r], ⟨h.admin, h.rate, h.noV1, hheld⟩, ?_, ?_, ?_, fun pot hnot => ?_⟩
  · show w'.ext.log ++ [r] = _
    rw [h.ext, hnew.log, List.append_assoc]
  · intro q hq e he
    rcases List.mem_append.mp hq with hq | hq
    · exact hnew.enclosing q hq e (List.mem_cons_of_mem _ he)
    · rw [List.mem_singleton.mp hq, hstack]
      exact he
  · intro q hq
    rcases List.mem_append.mp hq with hq | hq
    · exact hnew.paidIn q hq
    · rw [List.mem_singleton.mp hq]
      exact h.paidIn
  · have hbefore := hnew.held pot hnot.left
    have hpaidIn := h.paidIn pot
    show pot.held (ledger w') ≤ _
    rw [totalPaidIn_append, totalPaidOut_append]
    simp only [totalPaidIn, totalPaidOut, List.map_cons, List.map_nil, List.sum_cons,
      List.sum_nil, Pot.paidOut] at hbefore ⊢
    cases hdrawn : pot.drawnBy r.entry with
    | true =>
      -- no draw inside this one, so the overwritten part of the account is not negative
      have hnone := hnot.left.totalPaidOut_eq_zero hdrawn
        fun q hq => hnew.enclosing q hq _ List.mem_cons_self
      have hin := totalPaidIn_nonneg fun q hq => hnew.paidIn q hq pot
      have := h.drawn pot hdrawn
      simp only [totalPaidIn, totalPaidOut, Pot.paidOut] at hnone hin
      simp only [if_true]
      omega
    | false =>
      have := h.other pot hdrawn
      simp only [Bool.false_eq_true, if_false]
      omega

end Accounted

/-! ## One call -/

section Calls

variable {chain : Chain X} {stack : List Entrypoint}
  {before after : LoggedWorld X → LoggedWorld X} {sequence : UInt32} {auth : List Address}
  {w w₁ w₂ w' : LoggedWorld X} {t : Transfer} {f : Ledger → Ledger}

/-- The calls that the token makes are accounted for, before the call has booked anything. -/
theorem Detour.accounted
    (h : Detour (chain.reentrantCtx before after sequence auth) t f w w₁ w₂ w')
    (hbefore : ∀ v, Accounted stack v (before v)) (hafter : ∀ v, Accounted stack v (after v)) :
    Accounted stack w w₂ := by
  have hfirst : Accounted stack w w₁ :=
    accounted_of_same h.inst (by rw [h.ext]) h.counters
  refine hfirst.trans ?_
  exact Chain.reentrant_transfer (fun _ _ _ h h' => h.trans h') hbefore hafter
    (fun _ _ => accounted_of_same rfl rfl fun _ _ => rfl) h.transfer

/-- The last transfer that is logged is the one of the call itself. -/
theorem Detour.lastMoved_eq {ctx : Ctx DataKey DataKey.Val Event Error (Logged Record X)}
    (h : Detour ctx t f w w₁ w₂ w') (hw₂ : Guarded w₂) : lastMoved w' = t.amount.val := by
  rw [lastMoved, (h.booked hw₂.noV1).transfers]
  simp

/-- A call settles when its booking does. -/
theorem Detour.settles {ctx : Ctx DataKey DataKey.Val Event Error (Logged Record X)}
    (h : Detour ctx t f w w₁ w₂ w') (hw₂ : Guarded w₂) {r : Record}
    (hdrawn : ∀ pot : Pot, pot.drawnBy r.entry = true →
      pot.held (f (ledger w₂)) = pot.held (ledger w) - r.moved ∧ r.moved ≤ pot.held (ledger w))
    (hother : ∀ pot : Pot, pot.drawnBy r.entry = false →
      pot.held (f (ledger w₂)) = pot.held (ledger w₂) + pot.paidIn r)
    (hpaidIn : ∀ pot : Pot, 0 ≤ pot.paidIn r) : Settles r w w₂ w' := by
  have hbooked := h.booked hw₂.noV1
  have hinst : w'.inst = w₂.inst := hbooked.inst
  have hledger : ledger w' = f (ledger w₂) := hbooked.ledger
  refine ⟨?_, ?_, hbooked.v1.noV1 hw₂.noV1, hbooked.ext, fun pot hpot => ?_, fun pot hpot => ?_,
    hpaidIn⟩
  · rw [hinst]
    exact hw₂.admin
  · rw [feeRate, hinst]
    exact hw₂.rate
  · rw [hledger]
    exact hdrawn pot hpot
  · rw [hledger]
    exact hother pot hpot

/-- `w'` is the end of a call recorded as `r`, in the course of which its token did only what is
accounted for. -/
def Concluded (stack : List Entrypoint) (r : Record) (w w' : LoggedWorld X) : Prop :=
  ∃ w₂, Accounted (r.entry :: stack) w w₂ ∧ (Guarded w₂ → Settles r w w₂ w')

/-- A tip credits the state the token leaves, so nested calls do not matter to it. -/
theorem tip_concluded {sender creator token : Address} {amount : I128} (hw : Guarded w)
    (hbefore : ∀ v, Accounted (.tip sender creator token amount :: stack) v (before v))
    (hafter : ∀ v, Accounted (.tip sender creator token amount :: stack) v (after v)) :
    wp (tip sender creator token amount) (chain.reentrantCtx before after sequence auth) w
      fun _ w' =>
        Concluded stack ⟨stack, .tip sender creator token amount, feeRate w, lastMoved w'⟩ w w' := by
  refine wp_mono (tip_detour hw.noV1 sender creator token amount) ?_
  rintro _ w' ⟨hpos, fee, w₂, hfee, hdetour⟩
  refine ⟨w₂, hdetour.accounted hbefore hafter, fun hw₂ => hdetour.settles hw₂ ?_ ?_ ?_⟩
  · intro pot hdrawn
    cases pot <;> cases hdrawn
  · intro pot _
    have hval := feeOf_val hpos.le hfee
    cases pot with
    | balance c T =>
      simp only [Pot.held, Ledger.balance_apply, Move.toBalance, Pot.paidIn, hval]
    | fees T => simp only [Pot.held, Ledger.fee_apply, Move.toFee, Pot.paidIn, hval]
  · intro pot
    have hle := feeAt_le hpos.le hw.rate
    have hnonneg : 0 ≤ amount.val * (feeRate w).toNat / 10000 := by
      have := Int.mul_nonneg hpos.le (Int.natCast_nonneg (feeRate w).toNat)
      omega
    cases pot with
    | balance c T =>
      simp only [Pot.paidIn]
      split <;> omega
    | fees T =>
      simp only [Pot.paidIn]
      split <;> omega

/-- A withdrawal writes a balance read before its transfer. Nothing was drawn in between unless the
history is nested, so the bound holds for a pot without nested draws. -/
theorem withdraw_concluded {caller creator token dest : Address} {amount : Option I128}
    (hw : Guarded w)
    (hbefore : ∀ v, Accounted (.withdraw caller creator token dest amount :: stack) v (before v))
    (hafter : ∀ v, Accounted (.withdraw caller creator token dest amount :: stack) v (after v)) :
    wp (withdraw caller creator token dest amount)
      (chain.reentrantCtx before after sequence auth) w fun _ w' =>
        Concluded stack ⟨stack, .withdraw caller creator token dest amount, feeRate w, lastMoved w'⟩
          w w' := by
  refine wp_mono (withdraw_detour hw.noV1 caller creator token dest amount) ?_
  rintro _ w' ⟨paid, w₁, w₂, hpos, hle, hdetour⟩
  refine ⟨w₂, hdetour.accounted hbefore hafter, fun hw₂ => hdetour.settles hw₂ ?_ ?_ ?_⟩
  · intro pot hdrawn
    rw [hdetour.lastMoved_eq hw₂]
    cases pot with
    | fees T => cases hdrawn
    | balance c T =>
      obtain ⟨rfl, rfl⟩ : creator = c ∧ token = T := by simpa [Pot.drawnBy] using hdrawn
      refine ⟨?_, hle⟩
      simp only [Pot.held, Ledger.setBalance, and_self, if_true]
      rfl
  · intro pot hdrawn
    cases pot with
    | fees T => simp [Pot.held, Ledger.setBalance, Pot.paidIn]
    | balance c T =>
      have hne : ¬(c = creator ∧ T = token) := by
        rintro ⟨rfl, rfl⟩
        simp [Pot.drawnBy] at hdrawn
      simp [Pot.held, Ledger.setBalance, Pot.paidIn, hne]
  · intro pot
    cases pot <;> exact le_rfl

/-- The same for the fees. -/
theorem withdrawFees_concluded {caller token : Address} {amount : Option I128} (hw : Guarded w)
    (hbefore : ∀ v, Accounted (.withdrawFees caller token amount :: stack) v (before v))
    (hafter : ∀ v, Accounted (.withdrawFees caller token amount :: stack) v (after v)) :
    wp (withdrawFees caller token amount) (chain.reentrantCtx before after sequence auth) w
      fun _ w' =>
        Concluded stack ⟨stack, .withdrawFees caller token amount, feeRate w, lastMoved w'⟩
          w w' := by
  refine wp_mono (withdrawFees_detour hw.noV1 caller token amount) ?_
  rintro _ w' ⟨paid, w₂, hpos, hle, hdetour⟩
  refine ⟨w₂, hdetour.accounted hbefore hafter, fun hw₂ => hdetour.settles hw₂ ?_ ?_ ?_⟩
  · intro pot hdrawn
    rw [hdetour.lastMoved_eq hw₂]
    cases pot with
    | balance c T => cases hdrawn
    | fees T =>
      obtain rfl : token = T := by simpa [Pot.drawnBy] using hdrawn
      refine ⟨?_, hle⟩
      simp only [Pot.held, Ledger.setFee, if_true]
      rfl
  · intro pot hdrawn
    cases pot with
    | balance c T => simp [Pot.held, Ledger.setFee, Pot.paidIn]
    | fees T =>
      have hne : ¬T = token := by
        rintro rfl
        simp [Pot.drawnBy] at hdrawn
      simp [Pot.held, Ledger.setFee, Pot.paidIn, hne]
  · intro pot
    cases pot <;> exact le_rfl

/-- A call that calls no token runs as on a chain, and moves no pot. -/
theorem idle_concluded {call : Call} (hw : Guarded w) (hcall : call.entry.callsToken = false) :
    wp (program call.entry) (chain.reentrantCtx before after call.sequence call.auth) w
      fun _ w' =>
        Concluded stack ⟨stack, resolve w call.entry, feeRate w, lastMoved w'⟩ w w' := by
  intro ret w' hrun
  have hrun' : (program call.entry).run ((chain.logged Record).ctx call.sequence call.auth) w
      = .ok (ret, w') := by
    rw [← hrun]
    exact (run_eq_of_callsToken hcall rfl w).symm
  obtain ⟨heffect, hgov⟩ := program_spec (chain.logged Record) call w ret w' hrun'
  have hmoney := heffect.money hgov hw.admin
  refine ⟨w, accounted_of_same rfl rfl fun _ _ => rfl, fun _ => ?_⟩
  cases hmoney with
  | tipped sender creator token amount fee entry _ =>
    rcases resolve_eq_tip entry with h | ⟨h, -⟩
    · rw [h] at hcall
      cases hcall
    · rw [h] at hcall
      cases hcall
  | withdrawn caller creator token dest amount paid entry _ =>
    rcases resolve_eq_withdraw entry with h | ⟨h, -⟩
    · rw [h] at hcall
      cases hcall
    · rw [h] at hcall
      cases hcall
  | feesWithdrawn caller token amount paid entry _ =>
    rw [resolve_of_callsToken hcall] at entry
    rw [entry] at hcall
    cases hcall
  | idle entry ledger separate v1 transfers ext =>
    refine ⟨hgov.admin_isSome hw.admin, hgov.feeRate_le hw.rate, v1.noV1 hw.noV1, ext,
      fun pot hdrawn => ?_, fun pot _ => ?_, fun pot => ?_⟩
    · rw [Pot.drawnBy_of_idle entry] at hdrawn
      cases hdrawn
    · rw [ledger, Pot.paidIn_of_idle entry]
      omega
    · rw [Pot.paidIn_of_idle entry]

/-- Whatever is called, and whatever its token does meanwhile. -/
theorem program_concluded {call : Call} (hw : Guarded w)
    (hbefore : ∀ v, Accounted (resolve w call.entry :: stack) v (before v))
    (hafter : ∀ v, Accounted (resolve w call.entry :: stack) v (after v)) :
    wp (program call.entry) (chain.reentrantCtx before after call.sequence call.auth) w
      fun _ w' =>
        Concluded stack ⟨stack, resolve w call.entry, feeRate w, lastMoved w'⟩ w w' := by
  cases hcall : call.entry.callsToken with
  | false => exact idle_concluded hw hcall
  | true =>
    obtain ⟨sequence, auth, entry⟩ := call
    cases entry with
    | tip => exact wp_unit (tip_concluded hw hbefore hafter)
    | withdraw => exact wp_unit (withdraw_concluded hw hbefore hafter)
    | withdrawFees => exact wp_unit (withdrawFees_concluded hw hbefore hafter)
    | tipLegacy sender creator amount =>
      -- the v1 call is the v2 call of the token it resolves
      refine wp_unit ?_
      simp only [tipLegacy, wp_bind, wp_getTokens, wp_unwrapOrPanic]
      intro _ token htoken
      simp only [resolve, htoken] at hbefore hafter ⊢
      exact tip_concluded hw hbefore hafter
    | withdrawLegacy caller creator dest amount =>
      refine wp_unit ?_
      simp only [withdrawLegacy, wp_bind, wp_getTokens, wp_unwrapOrPanic]
      intro _ token htoken
      simp only [resolve, htoken] at hbefore hafter ⊢
      exact withdraw_concluded hw hbefore hafter
    | _ => cases hcall

/-- One call, with what its token runs: by cases on whether it moves money. -/
theorem enter_accounted {call : Call}
    (hbefore : ∀ v, Accounted (resolve w call.entry :: stack) v (before v))
    (hafter : ∀ v, Accounted (resolve w call.entry :: stack) v (after v)) :
    Accounted stack w (enter chain stack before after call w) := by
  unfold enter
  cases hrun : (invoke call.entry).run
      (chain.reentrantCtx before after call.sequence call.auth) w with
  | error e => exact accounted_of_same rfl rfl fun _ _ => rfl
  | ok p =>
    obtain ⟨ret, w'⟩ := p
    intro hw
    have hwp : wp (invoke call.entry) (chain.reentrantCtx before after call.sequence call.auth) w
        fun _ w' =>
          Concluded stack ⟨stack, resolve w call.entry, feeRate w, lastMoved w'⟩ w w' := by
      simp only [invoke, wp_bind, wp_loadInstance]
      intro _
      exact program_concluded hw hbefore hafter
    obtain ⟨w₂, hnested, hsettles⟩ := hwp ret w' hrun
    exact Settles.accounted rfl hnested hsettles hw

end Calls

/-! ## Whole scripts -/

/-- By induction over the script, for every stack of enclosing calls. -/
theorem play_accounted (chain : Chain X) (script : Script Call X) (stack : List Entrypoint)
    (w : LoggedWorld X) : Accounted stack w (play chain script stack w) := by
  induction script generalizing stack w with
  | done => exact accounted_of_same rfl rfl fun _ _ => rfl
  | outside x rest ih =>
    have hout : Accounted stack w { w with ext := { w.ext with ext := x } } :=
      accounted_of_same rfl rfl fun _ _ => rfl
    exact hout.trans (ih stack _)
  | call c before after rest ihbefore ihafter ihrest =>
    exact (enter_accounted (ihbefore _) (ihafter _)).trans (ihrest stack _)

/-- The calls that succeed along a script from `w`. -/
def history (chain : Chain X) (w : LoggedWorld X) (script : Script Call X) : List Record :=
  (play chain script [] w).ext.log

/-- However the tokens call back: what was paid out for a creator in a token that was never
withdrawn during the transfer of another withdrawal for the same creator and token is at most what
was tipped net of fees, and likewise for the fees of a token. -/
theorem pots_covered {chain : Chain X} {token admin : Address} {D : UInt32} {w : LoggedWorld X}
    (hinit : AfterInit (chain.logged Record) token admin D w) (hlog : w.ext.log = [])
    (script : Script Call X) :
    (∀ c T, NotNested (.balance c T) (history chain w script) →
      totalPaidOut (.balance c T) (history chain w script)
        ≤ totalPaidIn (.balance c T) (history chain w script)) ∧
    ∀ T, NotNested (.fees T) (history chain w script) →
      totalPaidOut (.fees T) (history chain w script)
        ≤ totalPaidIn (.fees T) (history chain w script) := by
  have hfrom := hinit.fromInit
  have hzero := hinit.ledger_zero
  have hheld : ∀ pot : Pot, pot.held (ledger w) = 0 := by
    intro pot
    rw [hzero]
    cases pot <;> rfl
  obtain ⟨new, hnew⟩ := play_accounted chain script [] w
    ⟨hfrom.admin, hfrom.rate, hfrom.noV1, fun pot => (hheld pot).ge⟩
  have hhistory : history chain w script = new := by
    rw [history, hnew.log, hlog, List.nil_append]
  have hcovered : ∀ pot : Pot, NotNested pot new → totalPaidOut pot new ≤ totalPaidIn pot new := by
    intro pot hnot
    have hbound := hnew.held pot hnot
    have hnonneg := hnew.guarded.held pot
    rw [hheld] at hbound
    omega
  rw [hhistory]
  exact ⟨fun c T => hcovered _, fun T => hcovered _⟩

/-! ## A double payment

On the sample deployment address 5 tips 100 to each of the creators 3 and 4. Creator 3 withdraws its
100, and the token lets it withdraw 100 once more before it moves the money. -/

/-- The deployment, with a token that logs. -/
def loggedSample : LoggedWorld Balances :=
  step (sampleChain.logged Record) (freshWorld ⟨fun _ _ => 1000, []⟩)
    (.call ⟨1, [⟨2⟩], .init ⟨1⟩ ⟨2⟩ 50⟩)

/-- It is the state after `init`. -/
theorem loggedSample_afterInit :
    AfterInit (sampleChain.logged Record) ⟨1⟩ ⟨2⟩ 50 loggedSample :=
  ⟨_, 1, [⟨2⟩], .unit, freshWorld_fresh _, rfl⟩

/-- Creator 3 withdraws its 100. -/
def drainCall : Call := ⟨3, [⟨3⟩], .withdraw ⟨3⟩ ⟨3⟩ ⟨1⟩ ⟨3⟩ (some 100)⟩

/-- The two tips, then `withdrawal`. -/
def sampleTips (withdrawal : Script Call Balances) : Script Call Balances :=
  .call ⟨2, [⟨5⟩], .tip ⟨5⟩ ⟨3⟩ ⟨1⟩ 100⟩ .done .done
    (.call ⟨2, [⟨5⟩], .tip ⟨5⟩ ⟨4⟩ ⟨1⟩ 100⟩ .done .done withdrawal)

/-- Creator 3 is paid 200 of the 100 tipped to it. -/
theorem withdrawal_paid_twice :
    ¬∀ (script : Script Call Balances) (c : Address),
      totalPaidOut (.balance c ⟨1⟩) (history sampleChain loggedSample script)
        ≤ totalPaidIn (.balance c ⟨1⟩) (history sampleChain loggedSample script) := by
  intro h
  have hdrain := h (sampleTips (.call drainCall (.call drainCall .done .done .done) .done .done)) ⟨3⟩
  have hpaid : totalPaidOut (.balance ⟨3⟩ ⟨1⟩) (history sampleChain loggedSample
      (sampleTips (.call drainCall (.call drainCall .done .done .done) .done .done))) = 200 := by
    decide
  have htipped : totalPaidIn (.balance ⟨3⟩ ⟨1⟩) (history sampleChain loggedSample
      (sampleTips (.call drainCall (.call drainCall .done .done .done) .done .done))) = 100 := by
    decide
  omega

/-- One withdrawal after the other is covered, also when the token calls back in between. -/
theorem pots_covered_sample :
    totalPaidOut (.balance ⟨3⟩ ⟨1⟩) (history sampleChain loggedSample
        (sampleTips (.call drainCall (.call ⟨3, [], .getAdmin⟩ .done .done .done) .done
          (.call drainCall .done .done .done))))
      ≤ totalPaidIn (.balance ⟨3⟩ ⟨1⟩) (history sampleChain loggedSample
        (sampleTips (.call drainCall (.call ⟨3, [], .getAdmin⟩ .done .done .done) .done
          (.call drainCall .done .done .done)))) := by
  refine (pots_covered loggedSample_afterInit rfl _).1 ⟨3⟩ ⟨1⟩ ?_
  unfold NotNested
  decide

end TipJar
