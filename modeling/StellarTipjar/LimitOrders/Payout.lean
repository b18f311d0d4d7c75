import StellarTipjar.LimitOrders.Solvency

/-!
# LimitOrders — what a filled order pays

`match_order` pays `remaining * limit_price / current_price`. The limit price is positive, being
checked at placement, but the current price comes from the caller and is only checked from above;
and the product is formed in `i128` without a check. `match_pays_iff` says for which orders and
prices the payout is the one the limit price promises.
-/

namespace LimitOrders

open Lib Soroban Contract

variable {X : Type}

/-! ## Orders as they are stored -/

/-- What holds of every stored order, whatever the history. -/
structure LimitOrder.Admitted (order : LimitOrder) : Prop extends order.AllOrNothing where
  limitPrice_pos : 0 < order.limitPrice.val

/-- The unfilled amount. -/
def LimitOrder.unfilled (order : LimitOrder) : Int := order.amountIn.val - order.filled.val

def AllAdmitted (w : World X) : Prop := ∀ id order, orderOf w id = some order → order.Admitted

section Steps

variable {chain : Chain X} {w w' : World X} {call : Call}

theorem orderOf_set {id : UInt64} {order : LimitOrder}
    (h : w'.pers = w.pers.set (.order id) order) (j : UInt64) :
    orderOf w' j = if j = id then some order else orderOf w j := by
  unfold orderOf
  rw [h]
  by_cases hj : j = id
  · rw [if_pos hj, hj, Store.get_set_self]
  · rw [if_neg hj, Store.get_set_of_ne _ (by simp [hj])]

theorem AllAdmitted.set (h : AllAdmitted w) {id : UInt64} {order : LimitOrder}
    (hpers : w'.pers = w.pers.set (.order id) order) (horder : order.Admitted) :
    AllAdmitted w' := by
  intro j other hother
  rw [orderOf_set hpers] at hother
  split at hother
  · obtain rfl := Option.some.inj hother
    exact horder
  · exact h j other hother

theorem AllAdmitted.effect (h : AllAdmitted w) (heffect : Effect chain call w w') :
    AllAdmitted w' := by
  cases heffect with
  | placed caller tokenIn tokenOut amountIn limitPrice _ hplaces =>
    intro j order horder
    unfold orderOf at horder
    rw [hplaces.pers, Store.get_set_of_ne _ (by simp), Store.get_set_of_ne _ (by simp)] at horder
    by_cases hj : j = nextId w
    · rw [hj, Store.get_set_self] at horder
      obtain rfl := Option.some.inj horder
      exact ⟨⟨hplaces.amountIn_pos, .inl rfl⟩, hplaces.limitPrice_pos⟩
    · rw [Store.get_set_of_ne _ (by simp [hj])] at horder
      exact h j order horder
  | matched id price order amountOut _ hmatches =>
    have hold := h id order hmatches.stored
    refine h.set hmatches.pers ⟨⟨hold.amountIn_pos, .inr ?_⟩, hold.limitPrice_pos⟩
    exact hold.filled_add_remaining hmatches.remaining_pos
  | cancelled caller id order _ hcancels =>
    have hold := h id order hcancels.stored
    exact h.set hcancels.pers ⟨⟨hold.amountIn_pos, hold.filled⟩, hold.limitPrice_pos⟩
  | view same =>
    rw [same]
    exact h

theorem AllAdmitted.step (h : AllAdmitted w) (a : Action X) : AllAdmitted (step chain w a) := by
  have hstep : IsStep (LimitOrders.step chain) ⟨w, a, LimitOrders.step chain w a⟩ := rfl
  rcases Machine.succeeds_or_outside hstep with ⟨c, -, r, hexec⟩ | ⟨x, hx⟩
  · exact h.effect (exec_effect hexec)
  · rw [show LimitOrders.step chain w a = { w with ext := x } from hx]
    exact h

theorem allAdmitted_of_fresh (h : Machine.Fresh w) : AllAdmitted w := by
  intro id order horder
  unfold orderOf at horder
  rw [h.pers] at horder
  cases horder

end Steps

/-! ## The payout -/

/-- What the limit price promises for a match at `price`: the price is one, within the limit, and
the payout is the exact quotient rounded down, which is at least the unfilled amount. -/
def LimitOrder.PaysPromised (order : LimitOrder) (price paid : I128) : Prop :=
  0 < price.val ∧ price.val ≤ order.limitPrice.val ∧
    paid.val = order.unfilled * order.limitPrice.val / price.val ∧ order.unfilled ≤ paid.val

theorem LimitOrder.Admitted.pays_iff {order : LimitOrder} (h : order.Admitted) {price paid : I128}
    (hle : price.val ≤ order.limitPrice.val) (hpos : 0 < order.remaining.val)
    (hpayout : order.payout price = some paid) :
    order.PaysPromised price paid ↔
      0 < price.val ∧ order.unfilled * order.limitPrice.val < 2 ^ 127 := by
  have hremaining : order.remaining.val = order.unfilled := h.remaining_val
  rw [hremaining] at hpos
  obtain ⟨-, hpaid⟩ := I128.checkedDiv_eq_some.mp hpayout
  rw [show (order.remaining * order.limitPrice).val
    = (I128.wrap (order.remaining.val * order.limitPrice.val)).val from rfl, hremaining] at hpaid
  have hproduct : 0 ≤ order.unfilled * order.limitPrice.val :=
    Int.mul_nonneg hpos.le h.limitPrice_pos.le
  constructor
  · rintro ⟨hprice, -, hexact, -⟩
    rw [hpaid] at hexact
    exact ⟨hprice, (I128.wrap_tdiv_eq_iff hproduct hprice price.val_lt).mp hexact⟩
  · rintro ⟨hprice, hfits⟩
    have hexact := (I128.wrap_tdiv_eq_iff hproduct hprice price.val_lt).mpr hfits
    refine ⟨hprice, hle, hpaid.trans hexact, ?_⟩
    rw [hpaid, hexact, Int.le_ediv_iff_mul_le hprice]
    exact Int.mul_le_mul_of_nonneg_left hle hpos.le

/-- In every run from the deployment, a successful `match_order` pays the owner what the limit price
promises just when the price is positive and the product of the unfilled amount and the limit price
fits into `i128`. -/
theorem match_pays_iff (chain : Chain X) {w₀ : World X} (hfresh : Machine.Fresh w₀)
    (acts : List (Action X)) :
    ∀ o ∈ trace (step chain) w₀ acts, ∀ call id price, Succeeds chain o call →
      call.entry = .matchOrder id price →
      ∃ order paid, orderOf o.before id = some order ∧
        o.after.transfers
          = o.before.transfers ++ [⟨order.tokenOut, chain.self, order.owner, paid⟩] ∧
        (order.PaysPromised price paid ↔
          0 < price.val ∧ order.unfilled * order.limitPrice.val < 2 ^ 127) := by
  intro o ho call id price hcall hentry
  have hadmitted : AllAdmitted o.before :=
    trace_invariant (step chain) (fun _ a h => h.step a) (allAdmitted_of_fresh hfresh) ho
  obtain ⟨-, r, hexec⟩ := hcall
  obtain ⟨order, paid, hmatches⟩ := exec_matchOrder hentry hexec
  refine ⟨order, paid, hmatches.stored, hmatches.transfers, ?_⟩
  exact (hadmitted id order hmatches.stored).pays_iff hmatches.price_le hmatches.remaining_pos
    hmatches.payout

/-- An order over 100 at limit 50, matched at 20 out of a deposit: the owner gets 250. -/
theorem match_pays_iff_sample :
    let acts : List (Action Balances) := [.call ⟨1, [⟨5⟩], .placeOrder ⟨5⟩ ⟨1⟩ ⟨2⟩ 100 50⟩,
      .outside fun _ _ => 5000, .call ⟨3, [], .matchOrder 1 20⟩]
    ∃ o ∈ trace (step sampleChain) sampleWorld acts,
      Succeeds sampleChain o ⟨3, [], .matchOrder 1 20⟩ ∧
        ∃ order paid, orderOf o.before 1 = some order ∧ order.PaysPromised 20 paid ∧
          o.after.transfers = o.before.transfers ++ [⟨⟨2⟩, ⟨0⟩, ⟨5⟩, paid⟩] := by
  intro acts
  have hmem := List.mem_of_getElem? (l := trace (step sampleChain) sampleWorld acts) (i := 2) rfl
  refine ⟨_, hmem, ⟨rfl, .unit, rfl⟩, ?_⟩
  obtain ⟨order, paid, horder, htransfers, hiff⟩ := match_pays_iff sampleChain
    (Machine.freshEnv_fresh _) acts _ hmem ⟨3, [], .matchOrder 1 20⟩ 1 20 ⟨rfl, .unit, rfl⟩ rfl
  cases horder
  exact ⟨_, paid, rfl, hiff.mpr (by decide), htransfers⟩

/-- Two matches that pay nothing. An order over 100 at limit 50 is filled at price -6000; one over
2^100 at limit 2^28 is filled at price 1, and the product has wrapped to 0. -/
theorem filled_for_nothing :
    let acts : List (Action Balances) := [.outside fun _ _ => 2 ^ 101,
      .call ⟨1, [⟨5⟩], .placeOrder ⟨5⟩ ⟨1⟩ ⟨2⟩ 100 50⟩,
      .call ⟨1, [⟨6⟩], .placeOrder ⟨6⟩ ⟨1⟩ ⟨2⟩ 1267650600228229401496703205376 268435456⟩,
      .call ⟨2, [], .matchOrder 1 (I128.wrap (-6000))⟩, .call ⟨3, [], .matchOrder 2 1⟩]
    (∃ o ∈ trace (step sampleChain) sampleWorld acts,
      Succeeds sampleChain o ⟨2, [], .matchOrder 1 (I128.wrap (-6000))⟩ ∧
        ∃ order, orderOf o.before 1 = some order ∧
          o.after.transfers = o.before.transfers ++ [⟨⟨2⟩, ⟨0⟩, ⟨5⟩, 0⟩] ∧
          ¬order.PaysPromised (I128.wrap (-6000)) 0) ∧
    ∃ o ∈ trace (step sampleChain) sampleWorld acts,
      Succeeds sampleChain o ⟨3, [], .matchOrder 2 1⟩ ∧
        ∃ order, orderOf o.before 2 = some order ∧
          o.after.transfers = o.before.transfers ++ [⟨⟨2⟩, ⟨0⟩, ⟨6⟩, 0⟩] ∧
          ¬order.PaysPromised 1 0 := by
  intro acts
  have hfirst := List.mem_of_getElem? (l := trace (step sampleChain) sampleWorld acts) (i := 3) rfl
  have hsecond := List.mem_of_getElem? (l := trace (step sampleChain) sampleWorld acts) (i := 4) rfl
  refine ⟨⟨_, hfirst, ⟨rfl, .unit, rfl⟩, _, rfl, rfl, fun h => ?_⟩,
    ⟨_, hsecond, ⟨rfl, .unit, rfl⟩, _, rfl, rfl, fun h => ?_⟩⟩
  · exact absurd h.1 (by decide)
  · exact absurd h.2.2.2 (by decide)

end LimitOrders
