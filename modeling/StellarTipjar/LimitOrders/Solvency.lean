import StellarTipjar.LimitOrders.Effects

/-!
# LimitOrders — solvency of the escrow

All orders share one holding per token. What the contract keeps for the owners in a token is
`escrowed`, the sum of `amount_in - filled` over the orders that are not cancelled. A placement
brings in exactly what it adds to that sum and a cancellation takes exactly what it removes. A
match does not: it pays `token_out` at a price of the caller's choice, and the escrow it releases
is in `token_in`. So the escrow is covered along a run exactly when every match of the run was paid
out of what the contract held beyond the escrow of the other orders (`escrow_safe_iff`), and
nothing in `match_order` sees to that.
-/

namespace LimitOrders

open Lib Soroban Contract

variable {X : Type}

/-! ## The escrow -/

/-- What an order keeps in escrow in `T`. -/
def LimitOrder.escrow (order : LimitOrder) (T : Address) : Int :=
  if order.cancelled = false ∧ order.tokenIn = T then order.amountIn.val - order.filled.val else 0

/-- The same for a stored order, which may be missing. -/
def escrowAt (T : Address) (stored : Option LimitOrder) : Int :=
  stored.elim 0 fun order => order.escrow T

/-- All that the contract keeps for the owners of orders in `T`. -/
noncomputable def escrowed (w : World X) (T : Address) : Int :=
  ∑ᶠ id, escrowAt T (orderOf w id)

/-- Only stored orders count, and they are finitely many. -/
theorem escrow_finite (w : World X) (T : Address) :
    (fun id => escrowAt T (orderOf w id)).support.Finite :=
  w.pers.finite_support (fun id => .order id) (fun _ _ h => DataKey.order.inj h)
    (fun _ => escrowAt T) fun _ => rfl

/-! ## Sound orders -/

/-- An order is filled all at once: it is open, or nothing of it remains. -/
structure LimitOrder.AllOrNothing (order : LimitOrder) : Prop where
  amountIn_pos : 0 < order.amountIn.val
  filled : order.filled = 0 ∨ order.filled = order.amountIn

namespace LimitOrder.AllOrNothing

variable {order : LimitOrder}

/-- The unchecked difference does not wrap. -/
theorem remaining_val (h : order.AllOrNothing) :
    order.remaining.val = order.amountIn.val - order.filled.val := by
  have hpos := h.amountIn_pos
  rcases h.filled with hfilled | hfilled
  · refine I128.val_sub_of_le ?_ ?_ <;> rw [hfilled, I128.val_zero]
    omega
  · refine I128.val_sub_of_le ?_ ?_ <;> rw [hfilled]
    omega

/-- Nothing is filled as long as something remains. -/
theorem filled_eq_zero (h : order.AllOrNothing) (hpos : 0 < order.remaining.val) :
    order.filled = 0 := by
  rcases h.filled with hfilled | hfilled
  · exact hfilled
  · rw [h.remaining_val, hfilled] at hpos
    omega

/-- An unfilled order has everything left. -/
theorem remaining_eq (h : order.AllOrNothing) (hzero : order.filled = 0) :
    order.remaining = order.amountIn := by
  apply I128.ext
  rw [h.remaining_val, hzero, I128.val_zero, Int.sub_zero]

/-- A fill takes all that remains. -/
theorem filled_add_remaining (h : order.AllOrNothing) (hpos : 0 < order.remaining.val) :
    order.filled + order.remaining = order.amountIn := by
  have hzero := h.filled_eq_zero hpos
  have hlt := order.amountIn.val_lt
  have hin := h.amountIn_pos
  rw [h.remaining_eq hzero, hzero]
  apply I128.ext
  rw [I128.val_add] <;> rw [I128.val_zero] <;> omega

end LimitOrder.AllOrNothing

/-- What holds of every order the contract stores. -/
structure LimitOrder.Sound (contract : Address) (order : LimitOrder) : Prop where
  owner_ne : order.owner ≠ contract
  amountIn_pos : 0 < order.amountIn.val
  filled : order.filled = 0 ∨ order.filled = order.amountIn

namespace LimitOrder.Sound

variable {contract : Address} {order : LimitOrder}

/-- An order is filled whole or not at all. -/
theorem allOrNothing (h : order.Sound contract) : order.AllOrNothing := ⟨h.amountIn_pos, h.filled⟩

/-- No order owes less than nothing. -/
theorem escrow_nonneg (h : order.Sound contract) (T : Address) : 0 ≤ order.escrow T := by
  have hpos := h.amountIn_pos
  unfold LimitOrder.escrow
  split
  · rcases h.filled with hfilled | hfilled <;> rw [hfilled]
    · rw [I128.val_zero]
      omega
    · omega
  · omega

end LimitOrder.Sound

/-- Every stored order is sound. -/
def OrdersSound (chain : Chain X) (w : World X) : Prop :=
  ∀ id order, orderOf w id = some order → order.Sound chain.self

theorem OrdersSound.escrowAt_nonneg {chain : Chain X} {w : World X} (h : OrdersSound chain w)
    (T : Address) (id : UInt64) : 0 ≤ escrowAt T (orderOf w id) := by
  cases hget : orderOf w id with
  | none => exact le_rfl
  | some order => exact (h id order hget).escrow_nonneg T

/-- One order's escrow is at most the whole. -/
theorem OrdersSound.escrow_le {chain : Chain X} {w : World X} (h : OrdersSound chain w)
    {id : UInt64} {order : LimitOrder} (hstored : orderOf w id = some order) (T : Address) :
    order.escrow T ≤ escrowed w T := by
  have hle : escrowAt T (orderOf w id) ≤ escrowed w T :=
    single_le_finsum id (escrow_finite w T) fun id => h.escrowAt_nonneg T id
  rw [hstored] at hle
  exact hle

/-! ## Every effect rewrites one order -/

/-- `w'` has the orders of `w` but for `order` under `id`. -/
def Rewrites (id : UInt64) (order : LimitOrder) (w w' : World X) : Prop :=
  orderOf w' id = some order ∧ ∀ j, j ≠ id → orderOf w' j = orderOf w j

section Rewrites

variable {chain : Chain X} {auth : List Address} {w w' : World X} {id : UInt64}
  {order : LimitOrder}

/-- Writing one order. -/
theorem Rewrites.of_set (h : w'.pers = w.pers.set (.order id) order) : Rewrites id order w w' := by
  unfold Rewrites orderOf
  rw [h]
  refine ⟨Store.get_set_self _ _ _, ?_⟩
  intro j hj
  exact Store.get_set_of_ne _ (by simpa using hj) _

theorem Places.rewrites {caller tokenIn tokenOut : Address} {amountIn limitPrice : I128}
    (h : Places chain auth caller tokenIn tokenOut amountIn limitPrice w w') :
    Rewrites (nextId w)
      (LimitOrder.opened (nextId w) caller tokenIn tokenOut amountIn limitPrice) w w' := by
  unfold Rewrites orderOf
  rw [h.pers]
  refine ⟨?_, ?_⟩
  · rw [Store.get_set_of_ne _ (by simp), Store.get_set_of_ne _ (by simp), Store.get_set_self]
  · intro j hj
    rw [Store.get_set_of_ne _ (by simp), Store.get_set_of_ne _ (by simp),
      Store.get_set_of_ne _ (by simpa using hj)]

/-- The escrow changes by the difference of the one order. -/
theorem Rewrites.escrowed_eq (h : Rewrites id order w w') (T : Address) :
    escrowed w' T = escrowed w T + (order.escrow T - escrowAt T (orderOf w id)) := by
  have hother : ∀ j, j ≠ id → escrowAt T (orderOf w' j) = escrowAt T (orderOf w j) := by
    intro j hj
    rw [h.2 j hj]
  have hsum := finsum_update id (escrow_finite w T) hother
  rw [h.1] at hsum
  exact hsum

/-- Writing a sound order keeps the book sound. -/
theorem Rewrites.sound (h : Rewrites id order w w') (hw : OrdersSound chain w)
    (horder : order.Sound chain.self) : OrdersSound chain w' := by
  intro j other hstored
  by_cases hj : j = id
  · rw [hj, h.1] at hstored
    cases hstored
    exact horder
  · rw [h.2 j hj] at hstored
    exact hw j other hstored

end Rewrites

/-! ## What the effects do to the escrow and to the holding -/

section Effects

variable {chain : Chain X} {T : Address} {holding : X → Address → Nat} {auth : List Address}
  {w w' : World X} {id : UInt64} {order : LimitOrder} {price amountOut : I128} {caller : Address}

/-- A placement brings in at least what it adds to the escrow. The id of the new order may be one
that is taken, `2^64` placements later; then the escrow of the old order is forgotten. -/
theorem Places.covers {tokenIn tokenOut : Address} {amountIn limitPrice : I128}
    (h : Places chain auth caller tokenIn tokenOut amountIn limitPrice w w')
    (htoken : chain.ExactToken T holding) (hw : OrdersSound chain w) (hself : chain.self ∉ auth)
    (hcovers : escrowed w T ≤ holding w.ext chain.self) :
    escrowed w' T ≤ holding w'.ext chain.self := by
  have hcaller : caller ≠ chain.self := by
    rintro rfl
    exact hself h.authorised
  have hreceived := htoken.receives hcaller h.ext
  have hescrowed := h.rewrites.escrowed_eq T
  have hold := hw.escrowAt_nonneg T (nextId w)
  have hnew : (LimitOrder.opened (nextId w) caller tokenIn tokenOut amountIn limitPrice).escrow T
      = if tokenIn = T then amountIn.val else 0 := by
    simp [LimitOrder.escrow, LimitOrder.opened]
  omega

/-- The contract cannot place an order with itself, as it signs nothing. -/
theorem Places.sound {tokenIn tokenOut : Address} {amountIn limitPrice : I128}
    (h : Places chain auth caller tokenIn tokenOut amountIn limitPrice w w')
    (hw : OrdersSound chain w) (hself : chain.self ∉ auth) : OrdersSound chain w' := by
  refine h.rewrites.sound hw ⟨?_, h.amountIn_pos, .inl rfl⟩
  show caller ≠ chain.self
  rintro rfl
  exact hself h.authorised

/-- A filled order is sound. -/
theorem Matches.sound (h : Matches chain id price order amountOut w w')
    (hw : OrdersSound chain w) : OrdersSound chain w' := by
  have horder := hw id order h.stored
  have hfull := horder.allOrNothing.filled_add_remaining h.remaining_pos
  exact (Rewrites.of_set h.pers).sound hw ⟨horder.owner_ne, horder.amountIn_pos, .inr hfull⟩

/-- A match releases the escrow of its order. -/
theorem Matches.escrowed_eq (h : Matches chain id price order amountOut w w')
    (hw : OrdersSound chain w) (T : Address) :
    escrowed w' T = escrowed w T - order.escrow T := by
  have hfull := (hw id order h.stored).allOrNothing.filled_add_remaining h.remaining_pos
  have hescrowed := (Rewrites.of_set h.pers).escrowed_eq T
  rw [h.stored] at hescrowed
  have hnew :
      ({ order with filled := order.filled + order.remaining } : LimitOrder).escrow T = 0 := by
    unfold LimitOrder.escrow
    rw [hfull]
    simp
  have hold : escrowAt T (some order) = order.escrow T := rfl
  omega

/-- It pays out of the holding of its `token_out`, which is another pot unless the tokens agree. -/
theorem Matches.holding_eq (h : Matches chain id price order amountOut w w')
    (htoken : chain.ExactToken T holding) (hw : OrdersSound chain w) (hT : order.tokenOut = T) :
    (holding w'.ext chain.self : Int) = holding w.ext chain.self - amountOut.val := by
  have hmoves := htoken.moves _ _ _ hT h.ext chain.self
  simp only [if_neg (hw id order h.stored).owner_ne.symm, if_true] at hmoves
  omega

/-- A cancelled order is sound. -/
theorem Cancels.sound (h : Cancels chain auth caller id order w w') (hw : OrdersSound chain w) :
    OrdersSound chain w' := by
  have horder := hw id order h.stored
  exact (Rewrites.of_set h.pers).sound hw ⟨horder.owner_ne, horder.amountIn_pos, horder.filled⟩

/-- A cancellation releases the escrow of its order. -/
theorem Cancels.escrowed_eq (h : Cancels chain auth caller id order w w') (T : Address) :
    escrowed w' T = escrowed w T - order.escrow T := by
  have hescrowed := (Rewrites.of_set h.pers).escrowed_eq T
  rw [h.stored] at hescrowed
  have hnew : ({ order with cancelled := true } : LimitOrder).escrow T = 0 := by
    simp [LimitOrder.escrow]
  have hold : escrowAt T (some order) = order.escrow T := rfl
  omega

/-- It takes at most that escrow out of the holding. -/
theorem Cancels.holding_le (h : Cancels chain auth caller id order w w')
    (htoken : chain.ExactToken T holding) (hw : OrdersSound chain w) :
    (holding w.ext chain.self : Int) - order.escrow T ≤ holding w'.ext chain.self := by
  have horder := hw id order h.stored
  have hnonneg := horder.escrow_nonneg T
  by_cases hpos : 0 < order.remaining.val
  · have hsent := htoken.sends hpos.le (h.refund hpos).1
    have hescrow : order.escrow T = if order.tokenIn = T then order.remaining.val else 0 := by
      simp [LimitOrder.escrow, h.live, horder.allOrNothing.remaining_val]
    split at hescrow <;> rename_i hT
    · rw [if_pos hT] at hsent
      omega
    · rw [if_neg hT] at hsent
      omega
  · rw [(h.noRefund (not_lt.mp hpos)).1]
    omega

end Effects

/-! ## Runs -/

/-- The contract's holding of `T` covers the escrow. -/
def Covers (chain : Chain X) (T : Address) (holding : X → Address → Nat) (w : World X) : Prop :=
  escrowed w T ≤ holding w.ext chain.self

/-- The host can load the contract and the entry of the order `id`. -/
def Loads (chain : Chain X) (sequence : UInt32) (auth : List Address) (id : UInt64) (w : World X) :
    Prop :=
  let ctx : Ctx DataKey DataKey.Val Event LimitOrderError X := chain.ctx sequence auth
  InstanceLive ctx w ∧ ¬w.Archived ctx (.order id)

/-- The owner of an order in `T` that is neither filled nor cancelled gets `amount_in` back by
cancelling it. -/
def Refundable (chain : Chain X) (T : Address) (holding : X → Address → Nat) (w : World X) :
    Prop :=
  ∀ id order sequence auth, orderOf w id = some order → order.tokenIn = T → order.filled = 0 →
    order.cancelled = false → order.owner ∈ auth → Loads chain sequence auth id w →
    ∃ r w', exec chain ⟨sequence, auth, .cancelOrder order.owner id⟩ w = .ok (r, w') ∧
      w'.transfers = w.transfers ++ [⟨T, chain.self, order.owner, order.amountIn⟩] ∧
      ∀ a, (holding w'.ext a : Int) = holding w.ext a
        + (if a = order.owner then order.amountIn.val else 0)
        - (if a = chain.self then order.amountIn.val else 0)

/-- A match that pays in `T` pays no more than the contract holds beyond the escrow of the other
orders. -/
def MatchCovered (chain : Chain X) (T : Address) (holding : X → Address → Nat)
    (o : Occ (World X) (Action X)) : Prop :=
  ∀ c id price order amountOut, Succeeds chain o c → c.entry = .matchOrder id price →
    orderOf o.before id = some order → order.tokenOut = T → order.payout price = some amountOut →
    amountOut.val ≤ holding o.before.ext chain.self - (escrowed o.before T - order.escrow T)

section Runs

variable {chain : Chain X} {T : Address} {holding : X → Address → Nat} {w₀ w w' : World X}
  {o : Occ (World X) (Action X)}

/-- Without archival every entry can be read. -/
theorem Loads.of_no_archival (h : chain.archival = false) (sequence : UInt32)
    (auth : List Address) (id : UInt64) (w : World X) : Loads chain sequence auth id w :=
  ⟨fun hlive => absurd (h.symm.trans hlive.1) (by decide), Env.not_archived h w (.order id)⟩

/-- Every step keeps the orders sound. -/
theorem OrdersSound.step (hstep : IsStep (step chain) o) (hperm : Machine.Permitted chain holding o)
    (h : OrdersSound chain o.before) : OrdersSound chain o.after := by
  rcases Machine.succeeds_or_outside hstep with ⟨c, hc⟩ | ⟨x, hx⟩
  · obtain ⟨r, hexec⟩ := hc.2
    have hself := hperm.self_not_mem hc
    cases exec_effect hexec with
    | placed caller tokenIn tokenOut amountIn limitPrice entry heffect =>
      exact heffect.sound h hself
    | matched id price order amountOut entry heffect => exact heffect.sound h
    | cancelled caller id order entry heffect => exact heffect.sound h
    | view same =>
      rw [same]
      exact h
  · rw [hx]
    exact h

/-- A covered match is one after which the escrow is covered, if it was before. -/
theorem Matches.covers_iff {id : UInt64} {price amountOut : I128} {order : LimitOrder}
    (h : Matches chain id price order amountOut w w') (htoken : chain.ExactToken T holding)
    (hw : OrdersSound chain w) (hT : order.tokenOut = T) :
    Covers chain T holding w' ↔
      amountOut.val ≤ holding w.ext chain.self - (escrowed w T - order.escrow T) := by
  have hescrowed := h.escrowed_eq hw T
  have hholding := h.holding_eq htoken hw hT
  unfold Covers
  constructor <;> intro hle <;> omega

/-- A match that pays in another token leaves `T` alone. -/
theorem Matches.covers_of_ne {id : UInt64} {price amountOut : I128} {order : LimitOrder}
    (h : Matches chain id price order amountOut w w') (htoken : chain.ExactToken T holding)
    (hw : OrdersSound chain w) (hT : order.tokenOut ≠ T) (hcovers : Covers chain T holding w) :
    Covers chain T holding w' := by
  have hescrowed := h.escrowed_eq hw T
  have hnonneg := (hw id order h.stored).escrow_nonneg T
  have hspares := htoken.spares _ _ _ hT h.ext
  unfold Covers at hcovers ⊢
  omega

/-- A permitted step whose match, if it is one, is covered keeps the escrow covered. -/
theorem Covers.step (htoken : chain.ExactToken T holding) (hstep : IsStep (step chain) o)
    (hperm : Machine.Permitted chain holding o) (hmatch : MatchCovered chain T holding o)
    (hw : OrdersSound chain o.before) (h : Covers chain T holding o.before) :
    Covers chain T holding o.after := by
  rcases Machine.isStep_cases hstep with ⟨c, hc⟩ | hsame | ⟨x, hact, hx⟩
  · obtain ⟨r, hexec⟩ := hc.2
    have hself := hperm.self_not_mem hc
    cases exec_effect hexec with
    | placed caller tokenIn tokenOut amountIn limitPrice entry heffect =>
      exact heffect.covers htoken hw hself h
    | matched id price order amountOut entry heffect =>
      by_cases hT : order.tokenOut = T
      · rw [heffect.covers_iff htoken hw hT]
        exact hmatch c id price order amountOut hc entry heffect.stored hT heffect.payout
      · exact heffect.covers_of_ne htoken hw hT h
    | cancelled caller id order entry heffect =>
      have hescrowed := heffect.escrowed_eq T
      have hholding := heffect.holding_le htoken hw
      unfold Covers at h ⊢
      omega
    | view same =>
      rw [same]
      exact h
  · rw [hsame]
    exact h
  · have hkept := hperm.outside hact
    have hcovers : escrowed o.before T ≤ holding x chain.self := by
      unfold Covers at h
      omega
    rw [hx]
    exact hcovers

/-- Conversely a step that leaves the escrow covered paid for its match. -/
theorem MatchCovered.of_covers (htoken : chain.ExactToken T holding)
    (hw : OrdersSound chain o.before) (h : Covers chain T holding o.after) :
    MatchCovered chain T holding o := by
  intro c id price order amountOut hc hentry hstored hT hpayout
  obtain ⟨r, hexec⟩ := hc.2
  obtain ⟨order', amountOut', heffect⟩ := exec_matchOrder hentry hexec
  have horder : order' = order := Option.some.inj (heffect.stored.symm.trans hstored)
  subst horder
  have hamount : amountOut' = amountOut := Option.some.inj (heffect.payout.symm.trans hpayout)
  subst hamount
  exact (heffect.covers_iff htoken hw hT).mp h

/-- From a covered state every open order can be cancelled for its whole `amount_in`. -/
theorem Covers.refundable (htoken : chain.PayingToken T holding) (hw : OrdersSound chain w)
    (h : Covers chain T holding w) : Refundable chain T holding w := by
  intro id order sequence auth hstored hT hfilled hlive hauth hloads
  have horder := hw id order hstored
  have hremaining := horder.allOrNothing.remaining_eq hfilled
  -- the order's own escrow is part of what is covered
  have hholds : order.amountIn.val ≤ (holding w.ext chain.self : Int) := by
    have hle := hw.escrow_le hstored T
    have hescrow : order.escrow T = order.amountIn.val := by
      simp [LimitOrder.escrow, hlive, hT, hfilled]
    unfold Covers at h
    omega
  obtain ⟨x, htransfer⟩ := htoken.pays ⟨T, chain.self, order.owner, order.amountIn⟩ w.ext rfl rfl
    horder.amountIn_pos hholds
  have hpos : (0 : I128) < order.amountIn - order.filled := by
    show 0 < order.remaining.val
    rw [hremaining]
    exact horder.amountIn_pos
  have hcall : twp (program (.cancelOrder order.owner id)) (chain.ctx sequence auth) w
      fun _ w' => w'.ext = x ∧
        w'.transfers = w.transfers ++ [⟨T, chain.self, order.owner, order.amountIn⟩] := by
    simp only [program, cancelOrder, twp_bind, twp_requireAuth, twp_persistentGet,
      twp_unwrapOrPanic, twp_panicIf, twp_currentContractAddress, twp_onlyIf, twp_tokenTransfer,
      twp_persistentSet, twp_publish, twp_pure]
    refine ⟨hauth, hloads.2, order, hstored, not_not.mpr rfl, by simp [hlive], ?_,
      fun hneg => absurd hpos hneg⟩
    intro _
    have hrefund :
        (⟨order.tokenIn, chain.self, order.owner, order.amountIn - order.filled⟩ : Transfer)
          = ⟨T, chain.self, order.owner, order.amountIn⟩ := by
      rw [hT]
      exact congrArg _ hremaining
    refine ⟨x, ?_, hloads.2, rfl, ?_⟩
    · rw [Chain.ctx_self, hrefund]
      exact htransfer
    · show w.transfers ++ [_] = w.transfers ++ [_]
      rw [Chain.ctx_self, hrefund]
  obtain ⟨r, w', hexec, hext, htransfers⟩ :=
    Machine.exec_of_twp ⟨sequence, auth, Entrypoint.cancelOrder order.owner id⟩ hloads.1 hcall
  refine ⟨r, w', hexec, htransfers, ?_⟩
  rw [hext]
  exact htoken.moves _ _ _ rfl htransfer

/-- A fresh contract has no orders. -/
theorem OrdersSound.of_fresh (h : Machine.Fresh w) : OrdersSound chain w := by
  intro id order hstored
  unfold orderOf at hstored
  rw [h.pers] at hstored
  cases hstored

/-- And owes nothing. -/
theorem Covers.of_fresh (h : Machine.Fresh w) : Covers chain T holding w := by
  have hzero : escrowed w T = 0 := by
    unfold escrowed orderOf
    rw [h.pers]
    simp [escrowAt]
  unfold Covers
  omega

/-- By induction over the run. -/
theorem OrdersSound.run (h₀ : Machine.Fresh w₀) {acts : List (Action X)}
    (hperm : ∀ o ∈ trace (LimitOrders.step chain) w₀ acts, Machine.Permitted chain holding o) :
    OrdersSound chain (run (LimitOrders.step chain) w₀ acts) :=
  run_invariant_of_trace (LimitOrders.step chain) (.of_fresh h₀) fun o ho hbefore =>
    hbefore.step (isStep_of_mem _ ho) (hperm o ho)

/-- A run covers the escrow of `T` in every state it reaches, and lets every open order be
cancelled for its `amount_in` there, exactly when each of its matches was covered. -/
theorem escrow_safe_iff (htoken : chain.PayingToken T holding) (h₀ : Machine.Fresh w₀)
    (acts : List (Action X))
    (hperm : ∀ o ∈ trace (step chain) w₀ acts, Machine.Permitted chain holding o) :
    (∀ acts₁, acts₁ <+: acts → Covers chain T holding (run (step chain) w₀ acts₁) ∧
      Refundable chain T holding (run (step chain) w₀ acts₁)) ↔
    ∀ o ∈ trace (step chain) w₀ acts, MatchCovered chain T holding o := by
  constructor
  · intro hsafe o ho
    obtain ⟨l₁, l₂, hacts, hbefore, hafter⟩ := trace_mem (step chain) ho
    have hsound : OrdersSound chain o.before := by
      rw [hbefore]
      refine OrdersSound.run h₀ fun q hq => hperm q ?_
      rw [hacts, trace_append]
      exact List.mem_append_left _ hq
    have hcovers : Covers chain T holding o.after := by
      rw [hafter, hbefore, ← run_concat (step chain)]
      refine (hsafe (l₁ ++ [o.act]) ?_).1
      rw [hacts]
      exact ⟨l₂, by simp⟩
    exact .of_covers htoken.toExactToken hsound hcovers
  · rintro hmatch acts₁ ⟨l₂, rfl⟩
    have hmem : ∀ o ∈ trace (step chain) w₀ acts₁, o ∈ trace (step chain) w₀ (acts₁ ++ l₂) := by
      intro o ho
      rw [trace_append]
      exact List.mem_append_left _ ho
    have hinv : OrdersSound chain (run (step chain) w₀ acts₁) ∧
        Covers chain T holding (run (step chain) w₀ acts₁) := by
      refine run_invariant_of_trace (step chain)
        (P := fun w => OrdersSound chain w ∧ Covers chain T holding w)
        ⟨.of_fresh h₀, .of_fresh h₀⟩ ?_
      intro o ho hbefore
      have hstep := isStep_of_mem (step chain) ho
      exact ⟨hbefore.1.step hstep (hperm o (hmem o ho)),
        hbefore.2.step htoken.toExactToken hstep (hperm o (hmem o ho)) (hmatch o (hmem o ho))
          hbefore.1⟩
    exact ⟨hinv.2, hinv.2.refundable htoken hinv.1⟩

end Runs

/-! ## A funded contract and a drained one

The contract at address 0 of the standard network, holding nothing; everybody else holds 1000 of
every token. -/

def sampleChain : Chain Balances := standardChain ⟨0⟩

def sampleWorld : World Balances := Machine.freshEnv fun _ a => if a = ⟨0⟩ then 0 else 1000

/-- Two orders on crossing pairs, with a deposit nobody accounts for in between. -/
def fundedOrders : List (Action Balances) :=
  [.call ⟨1, [⟨5⟩], .placeOrder ⟨5⟩ ⟨1⟩ ⟨2⟩ 100 50⟩, .outside fun _ _ => 5000,
    .call ⟨2, [⟨6⟩], .placeOrder ⟨6⟩ ⟨2⟩ ⟨1⟩ 300 50⟩]

theorem escrowed_fundedOrders :
    escrowed (run (step sampleChain) sampleWorld fundedOrders) ⟨2⟩ = 300 := by
  unfold escrowed
  rw [finsum_eq_single _ 2]
  · rfl
  · intro id hid
    by_cases hone : id = 1
    · subst hone
      rfl
    · have hnone : orderOf (run (step sampleChain) sampleWorld fundedOrders) id = none := by
        show ((((((Store.empty.set (.order 1) _).set .orderCount _).set (.orderBook _ _) _).set
          (.order 2) _).set .orderCount _).set (.orderBook _ _) _ : Store DataKey DataKey.Val).get
            (.order id) = none
        simp [hid, hone]
      rw [hnone]
      rfl

/-- The first order is matched out of the deposit, and the owner of the second gets everything
back. -/
theorem escrow_safe_iff_sample :
    let acts := fundedOrders ++ [.call ⟨3, [], .matchOrder 1 50⟩]
    let w := run (step sampleChain) sampleWorld acts
    w.ext ⟨2⟩ ⟨0⟩ = 5200 ∧ escrowed w ⟨2⟩ ≤ 5200 ∧
    ∃ r w', exec sampleChain ⟨4, [⟨6⟩], .cancelOrder ⟨6⟩ 2⟩ w = .ok (r, w') ∧
      w'.transfers = w.transfers ++ [⟨⟨2⟩, ⟨0⟩, ⟨6⟩, 300⟩] := by
  intro acts w
  have hperm : ∀ o ∈ trace (step sampleChain) sampleWorld acts,
      Machine.Permitted sampleChain (fun x a => x ⟨2⟩ a) o := by
    intro o ho
    simp only [acts, fundedOrders, List.cons_append, List.nil_append, trace, List.mem_cons,
      List.not_mem_nil, or_false] at ho
    rcases ho with rfl | rfl | rfl | rfl
    · show (⟨0⟩ : Address) ∉ [⟨5⟩]
      decide
    · show (0 : Nat) ≤ 5000
      decide
    · show (⟨0⟩ : Address) ∉ [⟨6⟩]
      decide
    · show (⟨0⟩ : Address) ∉ []
      decide
  have hmatch : ∀ o ∈ trace (step sampleChain) sampleWorld acts,
      MatchCovered sampleChain ⟨2⟩ (fun x a => x ⟨2⟩ a) o := by
    intro o ho c id price order amountOut hc hentry hstored hT hpayout
    simp only [acts, fundedOrders, List.cons_append, List.nil_append, trace, List.mem_cons,
      List.not_mem_nil, or_false] at ho
    rcases ho with rfl | rfl | rfl | rfl
    · cases hc.1
      cases hentry
    · cases hc.1
    · cases hc.1
      cases hentry
    · cases hc.1
      cases hentry
      cases hstored
      cases hpayout
      show (100 : Int)
        ≤ 5300 - (escrowed (run (step sampleChain) sampleWorld fundedOrders) ⟨2⟩ - 0)
      rw [escrowed_fundedOrders]
      decide
  have hsafe := (escrow_safe_iff (standardChain_payingToken ⟨0⟩ ⟨2⟩) (Machine.freshEnv_fresh _)
    acts hperm).mpr hmatch acts (List.prefix_refl _)
  obtain ⟨r, w', hexec, htransfers, -⟩ := hsafe.2 2 _ 4 [⟨6⟩] rfl rfl rfl rfl (by decide)
    (.of_no_archival rfl _ _ _ _)
  exact ⟨rfl, hsafe.1, r, w', hexec, htransfers⟩

/-- Without the deposit the match of one order is paid with the escrow of the other, whose owner
cannot cancel any more. -/
theorem escrow_drained :
    let acts : List (Action Balances) :=
      [.call ⟨1, [⟨5⟩], .placeOrder ⟨5⟩ ⟨1⟩ ⟨2⟩ 100 50⟩,
        .call ⟨1, [⟨6⟩], .placeOrder ⟨6⟩ ⟨2⟩ ⟨1⟩ 100 50⟩, .call ⟨2, [], .matchOrder 1 50⟩]
    let w := run (step sampleChain) sampleWorld acts
    (∀ T, sampleChain.PayingToken T fun x a => x T a) ∧ Machine.Fresh sampleWorld ∧
    (∀ o ∈ trace (step sampleChain) sampleWorld acts,
      ∀ T, Machine.Permitted sampleChain (fun x a => x T a) o) ∧
    w.ext ⟨2⟩ ⟨0⟩ = 0 ∧ ¬Covers sampleChain ⟨2⟩ (fun x a => x ⟨2⟩ a) w ∧
    orderOf w 2 = some (LimitOrder.opened 2 ⟨6⟩ ⟨2⟩ ⟨1⟩ 100 50) ∧
    exec sampleChain ⟨3, [⟨6⟩], .cancelOrder ⟨6⟩ 2⟩ w = .error (.token ⟨2⟩) := by
  intro acts w
  have hperm : ∀ o ∈ trace (step sampleChain) sampleWorld acts,
      ∀ T, Machine.Permitted sampleChain (fun x a => x T a) o := by
    intro o ho T
    simp only [acts, trace, List.mem_cons, List.not_mem_nil, or_false] at ho
    rcases ho with rfl | rfl | rfl
    · show (⟨0⟩ : Address) ∉ [⟨5⟩]
      decide
    · show (⟨0⟩ : Address) ∉ [⟨6⟩]
      decide
    · show (⟨0⟩ : Address) ∉ []
      decide
  have hfresh : Machine.Fresh sampleWorld := Machine.freshEnv_fresh _
  have hstored : orderOf w 2 = some (LimitOrder.opened 2 ⟨6⟩ ⟨2⟩ ⟨1⟩ 100 50) := rfl
  have hsound : OrdersSound sampleChain w := OrdersSound.run hfresh fun o ho => hperm o ho ⟨2⟩
  have hescrow : (100 : Int) ≤ escrowed w ⟨2⟩ := hsound.escrow_le hstored ⟨2⟩
  have hnot : ¬Covers sampleChain ⟨2⟩ (fun x a => x ⟨2⟩ a) w := by
    intro hcovers
    have hle : escrowed w ⟨2⟩ ≤ 0 := hcovers
    omega
  exact ⟨standardChain_payingToken ⟨0⟩, hfresh, hperm, rfl, hnot, hstored, rfl⟩

end LimitOrders
