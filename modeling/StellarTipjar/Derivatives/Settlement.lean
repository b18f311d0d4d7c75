import StellarTipjar.Derivatives.Conservation

/-!
# Derivatives — settlement

`settle_order` is the only entrypoint that moves tokens, and it looks at the order and at nothing
else: positions are never consulted. What it pays is what an order that is still open asks for. The
flag that closes an order is set by a match, by a cancellation and by the settlement itself, and
only a new placement under the same id clears it, so an order is paid at most once.
-/

namespace Derivatives

open Lib Soroban Contract

variable {X : Type}

/-! ## Closed orders stay closed -/

/-- The order is there and closed. -/
def IsClosed (id : UInt64) (w : World X) : Prop :=
  ∃ order, orderOf w id = some order ∧ order.settled = true

/-- The step settles the order. -/
def SettlesOrder (chain : Chain X) (id : UInt64) (o : Occ (World X) (Action X)) : Prop :=
  ∃ c caller, Succeeds chain o c ∧ c.entry = .settleOrder caller id

/-- The step places an order under `id`. -/
def PlacesOrder (chain : Chain X) (id : UInt64) (o : Occ (World X) (Action X)) : Prop :=
  ∃ c, Succeeds chain o c ∧ c.entry.placer ≠ none ∧ nextId o.before = id

section Closed

variable {chain : Chain X} {w w' : World X} {id : UInt64} {order : Order}
  {o p q : Occ (World X) (Action X)} {tr₁ mid tr₂ : List (Occ (World X) (Action X))}

theorem IsClosed.enter (h : IsClosed id w) (pair : Order × Order) : IsClosed id (enter w pair) := by
  unfold IsClosed
  rw [orderOf_enter]
  split
  · exact ⟨_, rfl, rfl⟩
  · split
    · exact ⟨_, rfl, rfl⟩
    · exact h

theorem IsClosed.close {j : UInt64} (h : IsClosed id w)
    (hpers : w'.pers = w.pers.set (.order j) order.close) : IsClosed id w' := by
  unfold IsClosed
  rw [orderOf_close hpers]
  split
  · exact ⟨_, rfl, rfl⟩
  · exact h

/-- A closed order stays closed until its id is used again. -/
theorem IsClosed.after_step (h : IsClosed id o.before) (hl : Listed o.before)
    (hstep : IsStep (step chain) o) (hplace : ¬PlacesOrder chain id o) : IsClosed id o.after := by
  rcases Machine.succeeds_or_outside hstep with ⟨c, hc⟩ | ⟨x, hx⟩
  · obtain ⟨r, hexec⟩ := hc.2
    cases exec_effect hexec with
    | placed order entry heffect =>
      have hne : id ≠ order.id := by
        rintro rfl
        exact hplace ⟨c, hc, by simp [entry], heffect.id.symm⟩
      unfold IsClosed
      rw [orderOf_place heffect, if_neg hne]
      exact h
    | matched entry heffect =>
      have hfold := foldl_enter (P := IsClosed id) (fun _ pair hw _ => hw.enter pair) h
        hl.picks_ready
      unfold IsClosed orderOf at hfold ⊢
      rw [heffect.eq_foldl.1]
      exact hfold
    | settled caller j order entry heffect => exact h.close heffect.pers
    | cancelled caller j order entry heffect => exact h.close heffect.pers
    | view same =>
      rw [same]
      exact h
  · rw [hx]
    exact h

theorem SettlesOrder.before (h : SettlesOrder chain id o) :
    ∃ order, orderOf o.before id = some order ∧ order.settled = false := by
  obtain ⟨c, caller, hc, hentry⟩ := h
  obtain ⟨r, hexec⟩ := hc.2
  obtain ⟨order, hsettles⟩ := exec_settleOrder hentry hexec
  exact ⟨order, hsettles.stored, hsettles.isOpen⟩

theorem SettlesOrder.after (h : SettlesOrder chain id o) : IsClosed id o.after := by
  obtain ⟨c, caller, hc, hentry⟩ := h
  obtain ⟨r, hexec⟩ := hc.2
  obtain ⟨order, hsettles⟩ := exec_settleOrder hentry hexec
  refine ⟨order.close, ?_, rfl⟩
  rw [orderOf_close hsettles.pers, if_pos rfl]

/-- Between two settlements under one id an order is placed under it. -/
theorem settles_once {w₀ : World X} (h₀ : Machine.Fresh w₀) {acts : List (Action X)}
    (htr : trace (step chain) w₀ acts = tr₁ ++ p :: mid ++ q :: tr₂)
    (hp : SettlesOrder chain id p) (hq : SettlesOrder chain id q) :
    ∃ o ∈ mid, PlacesOrder chain id o := by
  by_contra hnone
  obtain ⟨l, hmid, hbefore⟩ := trace_between _ htr
  have hclosed : IsClosed id q.before := by
    rw [hbefore]
    refine run_invariant_of_trace (step chain) (P := IsClosed id) hp.after ?_
    intro o ho hclosed
    have hmem : o ∈ mid := by
      rw [hmid]
      exact ho
    have hin : o ∈ trace (step chain) w₀ acts := by
      rw [htr]
      simp [hmem]
    obtain ⟨l₁, l₂, -, hb, -⟩ := trace_mem (step chain) hin
    have hl : Listed o.before := by
      rw [hb]
      exact listed_run h₀ l₁
    exact hclosed.after_step hl (isStep_of_mem _ ho) fun hplace => hnone ⟨o, hmem, hplace⟩
  obtain ⟨order, hstored, hopen⟩ := hq.before
  obtain ⟨other, hother, hsettled⟩ := hclosed
  rw [hstored] at hother
  cases hother
  rw [hopen] at hsettled
  cases hsettled

end Closed

/-! ## What is paid -/

/-- The step pays for the open order under `id`, and no more than its quantity at its strike. -/
structure PaysFor (chain : Chain X) (id : UInt64) (order : Order) (o : Occ (World X) (Action X)) :
    Prop where
  stored : orderOf o.before id = some order
  isOpen : order.settled = false
  expired : order.expiry ≤ chain.timestamp o.before.ext
  transfers : o.after.transfers = o.before.transfers
    ++ [⟨order.underlying, chain.self, order.owner, order.quantity * order.strikePrice⟩]
  amount_le : (order.quantity * order.strikePrice).val
    ≤ order.quantity.val * order.strikePrice.val

/-- The host can load the contract and the entry of the order `id`. -/
def Loads (chain : Chain X) (sequence : UInt32) (auth : List Address) (id : UInt64) (w : World X) :
    Prop :=
  let ctx : Ctx DataKey DataKey.Val Event DerivativesError X := chain.ctx sequence auth
  InstanceLive ctx w ∧ ¬w.Archived ctx (.order id)

section Paid

variable {chain : Chain X} {w w' : World X} {id : UInt64} {order : Order}
  {o : Occ (World X) (Action X)}

theorem pays_of_step (hl : Listed o.before) (hstep : IsStep (step chain) o) :
    o.after.transfers = o.before.transfers ∨
      ∃ id order, SettlesOrder chain id o ∧ PaysFor chain id order o := by
  rcases Machine.succeeds_or_outside hstep with ⟨c, hc⟩ | ⟨x, hx⟩
  · obtain ⟨r, hexec⟩ := hc.2
    cases exec_effect hexec with
    | placed order entry heffect => exact .inl heffect.transfers
    | matched entry heffect => exact .inl heffect.transfers
    | settled caller id order entry heffect =>
      obtain ⟨-, hquantity, hstrike⟩ := hl.stored id order heffect.stored
      exact .inr ⟨id, order, ⟨c, caller, hc, entry⟩, heffect.stored, heffect.isOpen,
        heffect.expired, heffect.transfers,
        I128.val_wrap_le (Int.mul_nonneg hquantity.le hstrike.le)⟩
    | cancelled caller id order entry heffect => exact .inl heffect.transfers
    | view same =>
      rw [same]
      exact .inl rfl
  · rw [hx]
    exact .inl rfl

/-- Nothing concerns the address `a`: it owns no order and was paid nothing. -/
def Stranger (a : Address) (w : World X) : Prop :=
  (∀ id order, orderOf w id = some order → order.owner ≠ a) ∧ ∀ t ∈ w.transfers, t.dest ≠ a

theorem Stranger.enter {a : Address} {pair : Order × Order} (h : Stranger a w)
    (hp : Ready w pair) : Stranger a (Derivatives.enter w pair) := by
  refine ⟨fun id order hstored => ?_, h.2⟩
  obtain ⟨⟨s₁, hs₁, hc₁⟩, ⟨s₂, hs₂, hc₂⟩, -⟩ := hp
  rw [orderOf_enter] at hstored
  split at hstored
  · cases hstored
    obtain ⟨settled, rfl⟩ := Order.eq_of_close hc₂
    have howner := h.1 _ _ hs₂
    exact howner
  · split at hstored
    · cases hstored
      obtain ⟨settled, rfl⟩ := Order.eq_of_close hc₁
      have howner := h.1 _ _ hs₁
      exact howner
    · exact h.1 id order hstored

theorem Stranger.close {a : Address} {j : UInt64} (h : ∀ id order, orderOf w id = some order →
      order.owner ≠ a) (hstored : orderOf w j = some order)
    (hpers : w'.pers = w.pers.set (.order j) order.close) :
    ∀ id order, orderOf w' id = some order → order.owner ≠ a := by
  intro id other hother
  rw [orderOf_close hpers] at hother
  split at hother
  · cases hother
    exact h j order hstored
  · exact h id other hother

theorem Stranger.after_step {a : Address} (h : Stranger a o.before) (hl : Listed o.before)
    (hstep : IsStep (step chain) o)
    (hplace : ∀ c, Succeeds chain o c → c.entry.placer ≠ some a) : Stranger a o.after := by
  rcases Machine.succeeds_or_outside hstep with ⟨c, hc⟩ | ⟨x, hx⟩
  · obtain ⟨r, hexec⟩ := hc.2
    cases exec_effect hexec with
    | placed order entry heffect =>
      refine ⟨fun id other hother => ?_, ?_⟩
      · rw [orderOf_place heffect] at hother
        split at hother
        · cases hother
          rintro rfl
          exact hplace c hc entry
        · exact h.1 id other hother
      · rw [heffect.transfers]
        exact h.2
    | matched entry heffect =>
      have hfold := foldl_enter (P := Stranger a) (fun _ _ => Stranger.enter) h hl.picks_ready
      refine ⟨?_, ?_⟩
      · unfold orderOf
        rw [heffect.eq_foldl.1]
        exact hfold.1
      · rw [heffect.transfers]
        exact h.2
    | settled caller j order entry heffect =>
      refine ⟨Stranger.close h.1 heffect.stored heffect.pers, ?_⟩
      intro t ht
      rw [heffect.transfers] at ht
      rcases List.mem_append.mp ht with ht | ht
      · exact h.2 t ht
      · rw [List.mem_singleton.mp ht]
        exact h.1 j order heffect.stored
    | cancelled caller j order entry heffect =>
      refine ⟨Stranger.close h.1 heffect.stored heffect.pers, ?_⟩
      rw [heffect.transfers]
      exact h.2
    | view same =>
      rw [same]
      exact h
  · rw [hx]
    exact h

/-- An open order whose expiry has passed can be settled by anybody, if the contract holds the
settlement value. -/
theorem settle_succeeds {holding : X → Address → Nat}
    (htoken : chain.PayingToken order.underlying holding) (hstored : orderOf w id = some order)
    (hopen : order.settled = false) (hexpired : order.expiry ≤ chain.timestamp w.ext)
    (hpos : 0 < (order.quantity * order.strikePrice).val)
    (hholds : (order.quantity * order.strikePrice).val ≤ holding w.ext chain.self)
    {sequence : UInt32} {auth : List Address} {caller : Address} (hauth : caller ∈ auth)
    (hloads : Loads chain sequence auth id w) :
    ∃ r w', exec chain ⟨sequence, auth, .settleOrder caller id⟩ w = .ok (r, w') ∧
      w'.transfers = w.transfers
        ++ [⟨order.underlying, chain.self, order.owner, order.quantity * order.strikePrice⟩] := by
  obtain ⟨x, htransfer⟩ := htoken.pays
    ⟨order.underlying, chain.self, order.owner, order.quantity * order.strikePrice⟩ w.ext rfl rfl
    hpos hholds
  have hcall : twp (program (.settleOrder caller id)) (chain.ctx sequence auth) w
      fun _ w' => w'.transfers = w.transfers
        ++ [⟨order.underlying, chain.self, order.owner, order.quantity * order.strikePrice⟩] := by
    simp only [program, settleOrder, twp_bind, twp_requireAuth, twp_persistentGet,
      twp_unwrapOrPanic, twp_panicIf, twp_ledgerTimestamp, twp_currentContractAddress,
      twp_tokenTransfer, twp_persistentSet, twp_publish, twp_pure]
    exact ⟨hauth, hloads.2, order, hstored, by simp [hopen], UInt64.not_lt.mpr hexpired, x,
      htransfer, hloads.2, rfl⟩
  exact Machine.exec_of_twp ⟨sequence, auth, Entrypoint.settleOrder caller id⟩ hloads.1 hcall

end Paid

/-- Tokens leave the contract for open orders only: each is paid at most once after it was placed,
not before its expiry, to its owner, and at most its quantity at its strike; who places no order
gets nothing. An open order whose time has come can be settled. -/
theorem settlement_run (chain : Chain X) {w₀ : World X} (h₀ : Machine.Fresh w₀)
    (acts : List (Action X)) :
    (∀ o ∈ trace (step chain) w₀ acts, o.after.transfers = o.before.transfers ∨
      ∃ id order, SettlesOrder chain id o ∧ PaysFor chain id order o) ∧
    (∀ tr₁ p mid q tr₂ id, trace (step chain) w₀ acts = tr₁ ++ p :: mid ++ q :: tr₂ →
      SettlesOrder chain id p → SettlesOrder chain id q → ∃ o ∈ mid, PlacesOrder chain id o) ∧
    (∀ a, (∀ o ∈ trace (step chain) w₀ acts, ∀ c, Succeeds chain o c → c.entry.placer ≠ some a) →
      ∀ t ∈ (run (step chain) w₀ acts).transfers, t.dest ≠ a) ∧
    ∀ id order holding, let w := run (step chain) w₀ acts
      orderOf w id = some order → order.settled = false →
      order.expiry ≤ chain.timestamp w.ext → chain.PayingToken order.underlying holding →
      0 < (order.quantity * order.strikePrice).val →
      (order.quantity * order.strikePrice).val ≤ holding w.ext chain.self →
      ∀ sequence auth caller, caller ∈ auth → Loads chain sequence auth id w →
      ∃ r w', exec chain ⟨sequence, auth, .settleOrder caller id⟩ w = .ok (r, w') ∧
        w'.transfers = w.transfers
          ++ [⟨order.underlying, chain.self, order.owner, order.quantity * order.strikePrice⟩] := by
  have hlisted : ∀ o ∈ trace (step chain) w₀ acts, Listed o.before := by
    intro o ho
    obtain ⟨l₁, l₂, -, hbefore, -⟩ := trace_mem (step chain) ho
    rw [hbefore]
    exact listed_run h₀ l₁
  refine ⟨?_, ?_, ?_, ?_⟩
  · intro o ho
    exact pays_of_step (hlisted o ho) (isStep_of_mem _ ho)
  · intro tr₁ p mid q tr₂ id htr hp hq
    exact settles_once h₀ htr hp hq
  · intro a hnever
    have hstranger : Stranger a (run (step chain) w₀ acts) := by
      refine run_invariant_of_trace (step chain) (P := Stranger a) ?_ ?_
      · refine ⟨fun id order hstored => ?_, ?_⟩
        · unfold orderOf at hstored
          rw [h₀.pers] at hstored
          cases hstored
        · rw [h₀.transfers]
          simp
      · intro o ho hbefore
        exact hbefore.after_step (hlisted o ho) (isStep_of_mem _ ho) (hnever o ho)
    exact hstranger.2
  · intro id order holding w hstored hopen hexpired htoken hpos hholds sequence auth caller hauth
      hloads
    exact settle_succeeds htoken hstored hopen hexpired hpos hholds hauth hloads

/-- An order nobody matched, and a clock past its expiry. -/
def unmatchedOrder : List (Action (Clocked Balances)) :=
  [.call ⟨1, [⟨5⟩], .placeOrder ⟨5⟩ ⟨['P', 'U', 'T']⟩ ⟨1⟩ 50 1000 5 true⟩,
    .outside ⟨fun _ _ => 1000, 2000⟩]

theorem settlement_run_sample :
    let w := run (step sampleChain) sampleWorld unmatchedOrder
    ∃ r w', exec sampleChain ⟨2, [⟨6⟩], .settleOrder ⟨6⟩ 1⟩ w = .ok (r, w') ∧
      w'.transfers = [⟨⟨1⟩, ⟨0⟩, ⟨5⟩, 250⟩] := by
  intro w
  have hfresh : Machine.Fresh sampleWorld := Machine.freshEnv_fresh _
  obtain ⟨-, -, -, hsettle⟩ := settlement_run sampleChain hfresh unmatchedOrder
  have htoken := (standardChain_payingToken ⟨0⟩ ⟨1⟩).clocked
  refine hsettle 1 ⟨1, ⟨5⟩, ⟨['P', 'U', 'T']⟩, ⟨1⟩, 50, 1000, 5, true, false⟩ _ rfl rfl ?_ htoken ?_
    ?_ 2 [⟨6⟩] ⟨6⟩ (by simp) ?_
  · show (1000 : UInt64) ≤ 2000
    decide
  · show (0 : Int) < 250
    decide
  · show (250 : Int) ≤ (1000 : Nat)
    decide
  · exact ⟨fun hlive => absurd hlive.1 (by decide), Env.not_archived rfl w (.order 1)⟩

/-- The order without a position is paid. An order with a position is not, though its expiry has
passed and the contract holds enough. -/
theorem settles_without_position :
    let w := run (step sampleChain) sampleWorld
      (unmatchedOrder ++ [.call ⟨2, [⟨5⟩], .settleOrder ⟨5⟩ 1⟩])
    let v := run (step sampleChain) sampleWorld (tidyOrders ++ [.outside ⟨fun _ _ => 1000, 10000⟩])
    Machine.Fresh sampleWorld ∧ positionOf w ⟨5⟩ 1 = none ∧
    w.transfers = [⟨⟨1⟩, ⟨0⟩, ⟨5⟩, 250⟩] ∧ w.ext.ext ⟨1⟩ ⟨5⟩ = 1250 ∧
    positionOf v ⟨5⟩ 1 = some ⟨⟨5⟩, 1, 10, 100⟩ ∧ v.ext.ext ⟨1⟩ ⟨0⟩ = 1000 ∧
    exec sampleChain ⟨3, [⟨5⟩], .settleOrder ⟨5⟩ 1⟩ v = .error (.error .alreadySettled) := by
  intro w v
  exact ⟨Machine.freshEnv_fresh _, rfl, rfl, rfl, rfl, rfl, rfl⟩

end Derivatives
