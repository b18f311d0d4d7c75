import StellarTipjar.Derivatives.Contract

/-!
# Derivatives — what a successful call does

One structure per entrypoint that writes, and `exec_…` lemmas that say a successful call has that
effect. `match_orders` is two steps: `picks` is the list of pairs its loops arrive at, a function of
the snapshot alone, and `Recorded` is what writing such a list does to the storage and to the
events. No later proof unfolds an entrypoint or a loop.
-/

namespace Derivatives

open Lib Soroban Contract

variable {X : Type}

/-! ## Reading the storage -/

/-- The id the next order gets. The count wraps around at `2^64`. -/
def nextId (w : World X) : UInt64 :=
  (w.pers.get .orderCount : Option UInt64).getD 0 + 1

/-- The ids of all orders, oldest first. -/
def idsOf (w : World X) : List UInt64 :=
  (w.pers.get .orderIds : Option (List UInt64)).getD []

def orderOf (w : World X) (id : UInt64) : Option Order := w.pers.get (.order id)

def positionOf (w : World X) (owner : Address) (id : UInt64) : Option Position :=
  w.pers.get (.position owner id)

/-- The order under `id` if it is open: neither matched nor settled nor cancelled. -/
def openOrder (w : World X) (id : UInt64) : Option Order :=
  (orderOf w id).filter fun order => !order.settled

/-- The open orders in the order of their placement: the snapshot `match_orders` takes. -/
def openOrders (w : World X) : List Order := (idsOf w).filterMap (openOrder w)

theorem openOrder_eq_some {w : World X} {id : UInt64} {order : Order} :
    openOrder w id = some order ↔ orderOf w id = some order ∧ order.settled = false := by
  unfold openOrder
  rw [Option.filter_eq_some_iff]
  simp

/-! ## Matches -/

/-- An order once it is matched, settled or cancelled. -/
def Order.close (order : Order) : Order := { order with settled := true }

/-- Orders that close to the same differ in the flag at most. -/
theorem Order.eq_of_close {a b : Order} (h : a.close = b.close) :
    ∃ settled, a = { b with settled } := by
  refine ⟨a.settled, ?_⟩
  cases a
  cases b
  simp only [Order.close, Order.mk.injEq] at h ⊢
  simp [h]

/-- `sell` is one that `match_orders` accepts for `buy`. -/
def Crosses (buy sell : Order) : Prop :=
  sell.isBuy = false ∧ buy.derivativeType = sell.derivativeType ∧
    sell.strikePrice.val ≤ buy.strikePrice.val

instance (buy sell : Order) : Decidable (Crosses buy sell) :=
  inferInstanceAs (Decidable (_ ∧ _ ∧ _))

/-- What is crossed is no buy. -/
theorem Crosses.ne {buy sell order : Order} (h : Crosses buy sell) (hbuy : order.isBuy = true) :
    order ≠ sell := by
  rintro rfl
  rw [h.1] at hbuy
  cases hbuy

/-- The quantity of a match. -/
def matchQty (buy sell : Order) : I128 :=
  if buy.quantity < sell.quantity then buy.quantity else sell.quantity

/-- The position a match of `quantity` at `price` opens for an order. -/
def Order.position (order : Order) (quantity price : I128) : Position :=
  { owner := order.owner, derivativeId := order.id, quantity, entryPrice := price }

/-- What one match does to the storage. -/
def applyMatch (s : Store DataKey DataKey.Val) (p : Order × Order) : Store DataKey DataKey.Val :=
  (((s.set (.position p.1.owner p.1.id) (p.1.position (matchQty p.1 p.2) p.2.strikePrice)).set
    (.position p.2.owner p.2.id) (p.2.position (matchQty p.1 p.2) p.2.strikePrice)).set
    (.order p.1.id) p.1.close).set (.order p.2.id) p.2.close

/-- The event of one match. -/
def matchEvent (p : Order × Order) : Event := .matched p.1.id p.2.id p.2.strikePrice

/-- The sell the inner loop ends at: the first one that crosses. -/
def pick (buy : Order) (rest : List Order) : Option (Order × Order) :=
  (rest.find? fun sell => Crosses buy sell).map fun sell => (buy, sell)

/-- The pairs the loops arrive at. -/
def picks : List Order → List (Order × Order)
  | [] => []
  | buy :: rest => (if buy.isBuy then pick buy rest else none).toList ++ picks rest

/-! ## The effects -/

/-- The matches `ps` are entered into `w`, one after the other. -/
structure Recorded (ps : List (Order × Order)) (w w' : World X) : Prop where
  pers : w'.pers = ps.foldl applyMatch w.pers
  events : w'.events = w.events ++ ps.map matchEvent
  ext : w'.ext = w.ext
  transfers : w'.transfers = w.transfers

/-- The new order is `order`. -/
structure Places (auth : List Address) (order : Order) (w w' : World X) : Prop where
  id : order.id = nextId w
  isOpen : order.settled = false
  authorised : order.owner ∈ auth
  quantity_pos : 0 < order.quantity.val
  strikePrice_pos : 0 < order.strikePrice.val
  pers : w'.pers = ((w.pers.set (.order order.id) order).set .orderCount order.id).set .orderIds
    (idsOf w ++ [order.id])
  events : w'.events = w.events ++ [.placed order.id order.owner]
  ext : w'.ext = w.ext
  transfers : w'.transfers = w.transfers

structure Settles (chain : Chain X) (auth : List Address) (caller : Address) (id : UInt64)
    (order : Order) (w w' : World X) : Prop where
  authorised : caller ∈ auth
  stored : orderOf w id = some order
  isOpen : order.settled = false
  expired : order.expiry ≤ chain.timestamp w.ext
  ext : chain.transfer
    ⟨order.underlying, chain.self, order.owner, order.quantity * order.strikePrice⟩ w.ext
      = some w'.ext
  transfers : w'.transfers = w.transfers
    ++ [⟨order.underlying, chain.self, order.owner, order.quantity * order.strikePrice⟩]
  pers : w'.pers = w.pers.set (.order id) order.close
  events : w'.events = w.events ++ [.settled id (order.quantity * order.strikePrice)]

structure Cancels (auth : List Address) (caller : Address) (id : UInt64) (order : Order)
    (w w' : World X) : Prop where
  authorised : caller ∈ auth
  stored : orderOf w id = some order
  owner : order.owner = caller
  isOpen : order.settled = false
  pers : w'.pers = w.pers.set (.order id) order.close
  events : w'.events = w.events
  ext : w'.ext = w.ext
  transfers : w'.transfers = w.transfers

/-! ## The loops of `match_orders` -/

section Loops

variable {chain : Chain X} {sequence : UInt32} {auth : List Address} {w w₁ w₂ w' : World X}

theorem Recorded.refl (w : World X) : Recorded [] w w := ⟨rfl, by simp, rfl, rfl⟩

theorem Recorded.trans {ps qs : List (Order × Order)} (h₁ : Recorded ps w w₁)
    (h₂ : Recorded qs w₁ w₂) : Recorded (ps ++ qs) w w₂ := by
  refine ⟨?_, ?_, h₂.ext.trans h₁.ext, h₂.transfers.trans h₁.transfers⟩
  · rw [h₂.pers, h₁.pers, List.foldl_append]
  · rw [h₂.events, h₁.events, List.map_append, List.append_assoc]

theorem collectOpen_spec (ids : List UInt64) (orders : List Order) :
    wp (collectOpen orders ids) (chain.ctx sequence auth) w
      fun os w' => os = orders ++ ids.filterMap (openOrder w) ∧ w' = w := by
  induction ids generalizing orders with
  | nil => simp [collectOpen]
  | cons id ids ih =>
    simp only [collectOpen, wp_bind, wp_persistentGet, List.filterMap_cons]
    intro _
    cases hstored : w.pers.get (.order id) with
    | none =>
      rw [show openOrder w id = none by simp [openOrder, orderOf, hstored]]
      exact ih orders
    | some order =>
      cases hsettled : order.settled with
      | true =>
        rw [show openOrder w id = none by simp [openOrder, orderOf, hstored, hsettled]]
        simpa [hsettled] using ih orders
      | false =>
        rw [show openOrder w id = some order by simp [openOrder, orderOf, hstored, hsettled]]
        simpa [hsettled] using ih (orders ++ [order])

theorem recordMatch_spec (buy sell : Order) :
    wp (recordMatch buy sell) (chain.ctx sequence auth) w
      fun _ w' => Recorded [(buy, sell)] w w' := by
  simp only [recordMatch, wp_bind, wp_persistentSet, wp_publish]
  intro _ _ _ _
  exact ⟨rfl, rfl, rfl, rfl⟩

/-- The inner loop enters the first sell that crosses, if there is one. -/
theorem matchSells_spec (buy : Order) (rest : List Order) :
    wp (matchSells buy rest) (chain.ctx sequence auth) w
      fun _ w' => Recorded (pick buy rest).toList w w' := by
  induction rest with
  | nil =>
    simp only [matchSells, wp_pure]
    exact .refl w
  | cons sell rest ih =>
    by_cases hcrosses : Crosses buy sell
    · obtain ⟨hsell, htype, hprice⟩ := hcrosses
      have hpick : pick buy (sell :: rest) = some (buy, sell) := by
        simp [pick, show Crosses buy sell from ⟨hsell, htype, hprice⟩]
      rw [hpick]
      simp only [matchSells]
      have hnot : ¬buy.strikePrice < sell.strikePrice := Int.not_lt.mpr hprice
      rw [if_neg (by simp [hsell]), if_neg (not_not.mpr htype), if_neg hnot]
      exact recordMatch_spec buy sell
    · have hpick : pick buy (sell :: rest) = pick buy rest := by
        simp [pick, hcrosses]
      rw [hpick]
      simp only [matchSells, wp_ite]
      refine ⟨fun _ => ih, fun hsell => ⟨fun _ => ih, fun htype => ⟨fun _ => ih, fun hprice => ?_⟩⟩⟩
      exact absurd ⟨by simpa using hsell, not_not.mp htype, not_lt.mp hprice⟩ hcrosses

/-- The outer loop enters the picks of the whole snapshot. -/
theorem matchBuys_spec (orders : List Order) :
    wp (matchBuys orders) (chain.ctx sequence auth) w
      fun _ w' => Recorded (picks orders) w w' := by
  induction orders generalizing w with
  | nil =>
    simp only [matchBuys, wp_pure]
    exact .refl w
  | cons buy rest ih =>
    simp only [matchBuys, wp_bind, wp_onlyIf, picks]
    refine ⟨?_, ?_⟩
    · intro hbuy
      rw [if_pos hbuy]
      refine wp_mono (matchSells_spec buy rest) ?_
      intro _ w₁ h₁
      exact wp_mono ih fun _ _ h₂ => h₁.trans h₂
    · intro hbuy
      rw [if_neg hbuy]
      exact ih

end Loops

/-! ## One call of each entrypoint -/

section Calls

variable {chain : Chain X} {w w' : World X} {call : Call} {r : Ret}

theorem exec_placeOrder {caller : Address} {derivativeType : Symbol} {underlying : Address}
    {strikePrice : I128} {expiry : UInt64} {quantity : I128} {isBuy : Bool}
    (hentry : call.entry
      = .placeOrder caller derivativeType underlying strikePrice expiry quantity isBuy)
    (h : exec chain call w = .ok (r, w')) :
    r = .u64 (nextId w) ∧ Places call.auth
      { id := nextId w, owner := caller, derivativeType, underlying, strikePrice, expiry, quantity,
        isBuy, settled := false } w w' := by
  refine Machine.exec_post (Q := fun r w' => r = .u64 (nextId w) ∧ Places call.auth
    { id := nextId w, owner := caller, derivativeType, underlying, strikePrice, expiry, quantity,
      isBuy, settled := false } w w') ?_ h
  rw [hentry]
  simp only [program, placeOrder, wp_bind, wp_requireAuth, wp_panicIf, wp_persistentGet,
    wp_persistentSet, wp_publish, wp_pure]
  intro hauth hpositive _ _ _ _ _
  refine ⟨rfl, rfl, rfl, hauth, ?_, ?_, ?_, rfl, rfl, rfl⟩
  · exact not_le.mp fun h => hpositive (.inl h)
  · exact not_le.mp fun h => hpositive (.inr h)
  · -- the id list is read after two writes to other keys
    simp only [Env.publish_pers, Env.setPersistent_pers]
    rw [Store.get_set_of_ne _ (by simp), Store.get_set_of_ne _ (by simp)]
    rfl

theorem exec_matchOrders (hentry : call.entry = .matchOrders)
    (h : exec chain call w = .ok (r, w')) : Recorded (picks (openOrders w)) w w' := by
  refine Machine.exec_post (Q := fun _ w' => Recorded (picks (openOrders w)) w w') ?_ h
  rw [hentry]
  simp only [program, matchOrders, wp_bind, wp_persistentGet, wp_pure]
  intro _
  refine wp_mono (collectOpen_spec _ _) ?_
  rintro orders w₁ ⟨rfl, rfl⟩
  exact matchBuys_spec _

theorem exec_settleOrder {caller : Address} {id : UInt64}
    (hentry : call.entry = .settleOrder caller id) (h : exec chain call w = .ok (r, w')) :
    ∃ order, Settles chain call.auth caller id order w w' := by
  refine Machine.exec_post
    (Q := fun _ w' => ∃ order, Settles chain call.auth caller id order w w') ?_ h
  rw [hentry]
  simp only [program, settleOrder, wp_bind, wp_requireAuth, wp_persistentGet, wp_unwrapOrPanic,
    wp_panicIf, wp_ledgerTimestamp, wp_currentContractAddress, wp_tokenTransfer, wp_persistentSet,
    wp_publish, wp_pure]
  intro hauth _ order hstored hopen hexpired x htransfer _
  exact ⟨order, hauth, hstored, by simpa using hopen, UInt64.not_lt.mp hexpired, htransfer, rfl,
    rfl, rfl⟩

theorem exec_cancelOrder {caller : Address} {id : UInt64}
    (hentry : call.entry = .cancelOrder caller id) (h : exec chain call w = .ok (r, w')) :
    ∃ order, Cancels call.auth caller id order w w' := by
  refine Machine.exec_post (Q := fun _ w' => ∃ order, Cancels call.auth caller id order w w') ?_ h
  rw [hentry]
  simp only [program, cancelOrder, wp_bind, wp_requireAuth, wp_persistentGet, wp_unwrapOrPanic,
    wp_panicIf, wp_persistentSet, wp_pure]
  intro hauth _ order hstored howner hopen _
  exact ⟨order, hauth, hstored, not_not.mp howner, by simpa using hopen, rfl, rfl, rfl, rfl⟩

theorem exec_getPosition {owner : Address} {id : UInt64}
    (hentry : call.entry = .getPosition owner id) (h : exec chain call w = .ok (r, w')) :
    w' = w := by
  refine Machine.exec_post (Q := fun _ w' => w' = w) ?_ h
  rw [hentry]
  simp only [program, getPosition, wp_bind, wp_persistentGet, wp_unwrapOrPanic, wp_pure]
  intro _ _ _
  trivial

/-- Who places an order with the call, if it is a placement. -/
def Entrypoint.placer : Entrypoint → Option Address
  | .placeOrder caller _ _ _ _ _ _ => some caller
  | _ => none

/-- What a successful call of the contract does. -/
inductive Effect (chain : Chain X) (call : Call) (w w' : World X) : Prop where
  | placed (order : Order) (entry : call.entry.placer = some order.owner)
      (h : Places call.auth order w w')
  | matched (entry : call.entry = .matchOrders) (h : Recorded (picks (openOrders w)) w w')
  | settled (caller : Address) (id : UInt64) (order : Order)
      (entry : call.entry = .settleOrder caller id)
      (h : Settles chain call.auth caller id order w w')
  | cancelled (caller : Address) (id : UInt64) (order : Order)
      (entry : call.entry = .cancelOrder caller id) (h : Cancels call.auth caller id order w w')
  | view (same : w' = w)

theorem exec_effect (h : exec chain call w = .ok (r, w')) : Effect chain call w w' := by
  cases hentry : call.entry with
  | placeOrder caller derivativeType underlying strikePrice expiry quantity isBuy =>
    refine .placed _ ?_ (exec_placeOrder hentry h).2
    rw [hentry]
    rfl
  | matchOrders => exact .matched hentry (exec_matchOrders hentry h)
  | settleOrder caller id =>
    obtain ⟨order, hsettles⟩ := exec_settleOrder hentry h
    exact .settled _ _ _ hentry hsettles
  | getPosition owner id => exact .view (exec_getPosition hentry h)
  | cancelOrder caller id =>
    obtain ⟨order, hcancels⟩ := exec_cancelOrder hentry h
    exact .cancelled _ _ _ hentry hcancels

end Calls

end Derivatives
