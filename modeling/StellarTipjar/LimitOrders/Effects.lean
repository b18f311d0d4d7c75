import StellarTipjar.LimitOrders.Contract

/-!
# LimitOrders — what a successful call does

One structure per entrypoint that writes: what it checked, the token call it made, and the
storage, the log and the events it left. `exec_effect` says that a successful call is one of
them, or a view that changes nothing; every invariant of the contract is a case analysis over
`Effect`, and no later proof unfolds an entrypoint.
-/

namespace LimitOrders

open Lib Soroban Contract

variable {X : Type}

/-- The id the next order gets. The count wraps around at `2^64`. -/
def nextId (w : World X) : UInt64 :=
  (w.pers.get .orderCount : Option UInt64).getD 0 + 1

/-- The ids of the orders of a pair, oldest first. -/
def bookOf (w : World X) (tokenIn tokenOut : Address) : List UInt64 :=
  (w.pers.get (.orderBook tokenIn tokenOut) : Option (List UInt64)).getD []

/-- The order stored under an id. -/
def orderOf (w : World X) (id : UInt64) : Option LimitOrder := w.pers.get (.order id)

namespace LimitOrder

/-- An order as it is placed. -/
def opened (id : UInt64) (owner tokenIn tokenOut : Address) (amountIn limitPrice : I128) :
    LimitOrder :=
  { id, owner, tokenIn, tokenOut, amountIn, limitPrice, filled := 0, cancelled := false }

/-- What is not filled yet. -/
def remaining (order : LimitOrder) : I128 := order.amountIn - order.filled

/-- The payout of a match at `price`: `remaining * limit_price / price` in `i128`, or none where the
division traps. -/
def payout (order : LimitOrder) (price : I128) : Option I128 :=
  (order.remaining * order.limitPrice).checkedDiv price

end LimitOrder

/-! ## The effects -/

section Effects

variable (chain : Chain X) (auth : List Address)

structure Places (caller tokenIn tokenOut : Address) (amountIn limitPrice : I128) (w w' : World X) :
    Prop where
  authorised : caller ∈ auth
  amountIn_pos : 0 < amountIn.val
  limitPrice_pos : 0 < limitPrice.val
  ext : chain.transfer ⟨tokenIn, caller, chain.self, amountIn⟩ w.ext = some w'.ext
  transfers : w'.transfers = w.transfers ++ [⟨tokenIn, caller, chain.self, amountIn⟩]
  pers : w'.pers =
    ((w.pers.set (.order (nextId w))
        (LimitOrder.opened (nextId w) caller tokenIn tokenOut amountIn limitPrice)).set
      .orderCount (nextId w)).set
      (.orderBook tokenIn tokenOut) (bookOf w tokenIn tokenOut ++ [nextId w])
  events : w'.events = w.events ++ [.placed (nextId w) caller limitPrice]

structure Matches (id : UInt64) (price : I128) (order : LimitOrder) (amountOut : I128)
    (w w' : World X) : Prop where
  stored : orderOf w id = some order
  live : order.cancelled = false
  price_le : price.val ≤ order.limitPrice.val
  remaining_pos : 0 < order.remaining.val
  payout : order.payout price = some amountOut
  ext : chain.transfer ⟨order.tokenOut, chain.self, order.owner, amountOut⟩ w.ext = some w'.ext
  transfers : w'.transfers = w.transfers ++ [⟨order.tokenOut, chain.self, order.owner, amountOut⟩]
  pers : w'.pers = w.pers.set (.order id) { order with filled := order.filled + order.remaining }
  events : w'.events = w.events ++ [.filled id order.remaining price]

/-- A filled order is cancelled without a refund. -/
structure Cancels (caller : Address) (id : UInt64) (order : LimitOrder) (w w' : World X) :
    Prop where
  authorised : caller ∈ auth
  stored : orderOf w id = some order
  owner : order.owner = caller
  live : order.cancelled = false
  refund : 0 < order.remaining.val →
    chain.transfer ⟨order.tokenIn, chain.self, caller, order.remaining⟩ w.ext = some w'.ext ∧
      w'.transfers = w.transfers ++ [⟨order.tokenIn, chain.self, caller, order.remaining⟩]
  noRefund : order.remaining.val ≤ 0 → w'.ext = w.ext ∧ w'.transfers = w.transfers
  pers : w'.pers = w.pers.set (.order id) { order with cancelled := true }
  events : w'.events = w.events ++ [.cancelled id]

end Effects

/-- What a successful call of the contract does. -/
inductive Effect (chain : Chain X) (call : Call) (w w' : World X) : Prop where
  | placed (caller tokenIn tokenOut : Address) (amountIn limitPrice : I128)
      (entry : call.entry = .placeOrder caller tokenIn tokenOut amountIn limitPrice)
      (h : Places chain call.auth caller tokenIn tokenOut amountIn limitPrice w w')
  | matched (id : UInt64) (price : I128) (order : LimitOrder) (amountOut : I128)
      (entry : call.entry = .matchOrder id price) (h : Matches chain id price order amountOut w w')
  | cancelled (caller : Address) (id : UInt64) (order : LimitOrder)
      (entry : call.entry = .cancelOrder caller id)
      (h : Cancels chain call.auth caller id order w w')
  | view (same : w' = w)

/-! ## The entrypoints have these effects -/

section Specs

variable {chain : Chain X} {sequence : UInt32} {auth : List Address} {w w' : World X}

theorem placeOrder_spec (caller tokenIn tokenOut : Address) (amountIn limitPrice : I128) :
    wp (placeOrder caller tokenIn tokenOut amountIn limitPrice) (chain.ctx sequence auth) w
      fun id w' => id = nextId w ∧
        Places chain auth caller tokenIn tokenOut amountIn limitPrice w w' := by
  simp only [placeOrder, wp_bind, wp_requireAuth, wp_panicIf, wp_currentContractAddress,
    wp_tokenTransfer, wp_persistentGet, wp_persistentSet, wp_publish, wp_pure]
  intro hauth hpositive x htransfer _ _ _ _ _
  refine ⟨rfl, hauth, ?_, ?_, htransfer, rfl, ?_, rfl⟩
  · exact not_le.mp fun h => hpositive (.inl h)
  · exact not_le.mp fun h => hpositive (.inr h)
  · -- the book is read after two writes to other keys
    simp only [Env.publish_pers, Env.setPersistent_pers, Env.transferred_pers]
    rw [Store.get_set_of_ne _ (by simp), Store.get_set_of_ne _ (by simp)]
    rfl

theorem matchOrder_spec (id : UInt64) (price : I128) :
    wp (matchOrder id price) (chain.ctx sequence auth) w
      fun _ w' => ∃ order amountOut, Matches chain id price order amountOut w w' := by
  simp only [matchOrder, wp_bind, wp_persistentGet, wp_unwrapOrPanic, wp_panicIf, wp_divOrTrap,
    wp_currentContractAddress, wp_tokenTransfer, wp_persistentSet, wp_publish]
  intro _ order hstored hlive hprice hremaining amountOut hpayout x htransfer _
  refine ⟨order, amountOut, hstored, ?_, not_lt.mp hprice, not_le.mp hremaining, hpayout,
    htransfer, rfl, rfl, rfl⟩
  simpa using hlive

theorem cancelOrder_spec (caller : Address) (id : UInt64) :
    wp (cancelOrder caller id) (chain.ctx sequence auth) w
      fun _ w' => ∃ order, Cancels chain auth caller id order w w' := by
  simp only [cancelOrder, wp_bind, wp_requireAuth, wp_persistentGet, wp_unwrapOrPanic, wp_panicIf,
    wp_currentContractAddress, wp_onlyIf, wp_tokenTransfer, wp_persistentSet, wp_publish]
  intro hauth _ order hstored howner hlive
  have howner : order.owner = caller := not_not.mp howner
  have hlive : order.cancelled = false := by simpa using hlive
  refine ⟨?_, ?_⟩
  · intro hpos x htransfer _
    exact ⟨order, hauth, hstored, howner, hlive, fun _ => ⟨htransfer, rfl⟩,
      fun h => absurd hpos (not_lt.mpr h), rfl, rfl⟩
  · intro hpos _
    exact ⟨order, hauth, hstored, howner, hlive, fun h => absurd h hpos,
      fun _ => ⟨rfl, rfl⟩, rfl, rfl⟩

/-- The loop of `get_order_book` only reads, and collects what is stored under the ids. -/
theorem collectOrders_spec (ids : List UInt64) (result : List LimitOrder) :
    wp (collectOrders result ids) (chain.ctx sequence auth) w
      fun os w' => os = result ++ ids.filterMap (orderOf w) ∧ w' = w := by
  induction ids generalizing result with
  | nil => simp [collectOrders]
  | cons id ids ih =>
    simp only [collectOrders, wp_bind, wp_persistentGet, List.filterMap_cons]
    intro _
    cases hstored : w.pers.get (.order id) with
    | none =>
      rw [show orderOf w id = none from hstored]
      exact ih result
    | some order =>
      rw [show orderOf w id = some order from hstored]
      simpa using ih (result ++ [order])

/-- It comes to its end when none of the entries is archived. -/
theorem collectOrders_succeeds (ids : List UInt64) (result : List LimitOrder)
    (hloads : ∀ id ∈ ids,
      ¬w.Archived (chain.ctx sequence auth : Ctx DataKey DataKey.Val Event LimitOrderError X)
        (.order id)) :
    twp (collectOrders result ids) (chain.ctx sequence auth) w fun _ _ => True := by
  induction ids generalizing result with
  | nil => simp [collectOrders]
  | cons id ids ih =>
    simp only [collectOrders, twp_bind, twp_persistentGet]
    refine ⟨hloads id (by simp), ?_⟩
    have hrest := fun result => ih result fun j hj => hloads j (by simp [hj])
    cases w.pers.get (.order id) with
    | none => exact hrest result
    | some order => exact hrest (result ++ [order])

/-! ### One call of each entrypoint -/

section Calls

variable {call : Call} {r : Ret}

theorem exec_placeOrder {caller tokenIn tokenOut : Address} {amountIn limitPrice : I128}
    (hentry : call.entry = .placeOrder caller tokenIn tokenOut amountIn limitPrice)
    (h : exec chain call w = .ok (r, w')) :
    r = .u64 (nextId w) ∧
      Places chain call.auth caller tokenIn tokenOut amountIn limitPrice w w' := by
  refine Machine.exec_post (Q := fun r w' => r = .u64 (nextId w) ∧
    Places chain call.auth caller tokenIn tokenOut amountIn limitPrice w w') ?_ h
  rw [hentry]
  simp only [program, wp_bind, wp_pure]
  refine wp_mono (placeOrder_spec _ _ _ _ _) ?_
  rintro id w' ⟨rfl, hplaces⟩
  exact ⟨rfl, hplaces⟩

theorem exec_matchOrder {id : UInt64} {price : I128}
    (hentry : call.entry = .matchOrder id price) (h : exec chain call w = .ok (r, w')) :
    ∃ order amountOut, Matches chain id price order amountOut w w' := by
  refine Machine.exec_post
    (Q := fun _ w' => ∃ order amountOut, Matches chain id price order amountOut w w') ?_ h
  rw [hentry]
  simp only [program, wp_bind, wp_pure]
  exact matchOrder_spec id price

theorem exec_cancelOrder {caller : Address} {id : UInt64}
    (hentry : call.entry = .cancelOrder caller id) (h : exec chain call w = .ok (r, w')) :
    ∃ order, Cancels chain call.auth caller id order w w' := by
  refine Machine.exec_post
    (Q := fun _ w' => ∃ order, Cancels chain call.auth caller id order w w') ?_ h
  rw [hentry]
  simp only [program, wp_bind, wp_pure]
  exact cancelOrder_spec caller id

theorem exec_getOrder {id : UInt64} (hentry : call.entry = .getOrder id)
    (h : exec chain call w = .ok (r, w')) : w' = w := by
  refine Machine.exec_post (Q := fun _ w' => w' = w) ?_ h
  rw [hentry]
  simp only [program, getOrder, wp_bind, wp_persistentGet, wp_unwrapOrPanic, wp_pure]
  intro _ _ _
  trivial

theorem exec_getOrderBook {tokenIn tokenOut : Address}
    (hentry : call.entry = .getOrderBook tokenIn tokenOut) (h : exec chain call w = .ok (r, w')) :
    r = .orders ((bookOf w tokenIn tokenOut).filterMap (orderOf w)) ∧ w' = w := by
  refine Machine.exec_post (Q := fun r w' =>
    r = .orders ((bookOf w tokenIn tokenOut).filterMap (orderOf w)) ∧ w' = w) ?_ h
  rw [hentry]
  simp only [program, getOrderBook, wp_bind, wp_persistentGet, wp_pure]
  intro _
  refine wp_mono (collectOrders_spec _ _) ?_
  rintro os w' ⟨rfl, rfl⟩
  exact ⟨rfl, rfl⟩

theorem exec_effect (h : exec chain call w = .ok (r, w')) : Effect chain call w w' := by
  cases hentry : call.entry with
  | placeOrder caller tokenIn tokenOut amountIn limitPrice =>
    exact .placed _ _ _ _ _ hentry (exec_placeOrder hentry h).2
  | matchOrder id price =>
    obtain ⟨order, amountOut, hmatches⟩ := exec_matchOrder hentry h
    exact .matched _ _ _ _ hentry hmatches
  | cancelOrder caller id =>
    obtain ⟨order, hcancels⟩ := exec_cancelOrder hentry h
    exact .cancelled _ _ _ hentry hcancels
  | getOrder id => exact .view (exec_getOrder hentry h)
  | getOrderBook tokenIn tokenOut => exact .view (exec_getOrderBook hentry h).2

end Calls

end Specs

end LimitOrders
