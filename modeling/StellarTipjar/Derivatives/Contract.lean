import StellarTipjar.Soroban.Machine

/-!
# Derivatives — the contract

The data model and the entrypoints of `contracts/derivatives/src/lib.rs`, in the order of the
source. Everything is in persistent storage and no time to live is ever extended. The bare `+`
and `*` wrap, as they do in the release WASM. No collateral is taken: the only token call is the
one of `settle_order`.
-/

namespace Derivatives

open Lib Soroban Contract

/-! ## The data model -/

structure Order where
  id : UInt64
  owner : Address
  derivativeType : Symbol
  underlying : Address
  strikePrice : I128
  expiry : UInt64
  quantity : I128
  isBuy : Bool
  settled : Bool
deriving DecidableEq, Repr

structure Position where
  owner : Address
  derivativeId : UInt64
  quantity : I128
  entryPrice : I128
deriving DecidableEq, Repr

inductive DataKey where
  | order (id : UInt64)
  | position (owner : Address) (derivativeId : UInt64)
  | orderCount
  | orderIds
deriving DecidableEq, Repr

/-- What is stored under each key. -/
abbrev DataKey.Val : DataKey → Type
  | .order _ => Order
  | .position _ _ => Position
  | .orderCount => UInt64
  | .orderIds => List UInt64

/-- The events, all under the topic `deriv`. A cancellation publishes none. -/
inductive Event where
  | placed (orderId : UInt64) (caller : Address)
  | matched (buyId sellId : UInt64) (matchPrice : I128)
  | settled (orderId : UInt64) (settlementValue : I128)
deriving DecidableEq, Repr

inductive DerivativesError where
  | unauthorized
  | orderNotFound
  | alreadySettled
  | notExpired
  | invalidAmount
  | positionNotFound
deriving DecidableEq, Repr

/-- The state a call of the contract works on. -/
abbrev World (X : Type) := Env DataKey DataKey.Val Event X

/-- A program of the contract. -/
abbrev M (X : Type) := Contract DataKey DataKey.Val Event DerivativesError X

/-! ## The entrypoints -/

variable {X : Type}

def placeOrder (caller : Address) (derivativeType : Symbol) (underlying : Address)
    (strikePrice : I128) (expiry : UInt64) (quantity : I128) (isBuy : Bool) : M X UInt64 := do
  requireAuth caller
  panicIf (quantity ≤ 0 ∨ strikePrice ≤ 0) .invalidAmount
  let orderCount : Option UInt64 ← persistentGet DataKey.orderCount
  let orderId := orderCount.getD 0 + 1
  persistentSet (DataKey.order orderId)
    { id := orderId, owner := caller, derivativeType, underlying, strikePrice, expiry, quantity,
      isBuy, settled := false }
  persistentSet DataKey.orderCount orderId
  let ids : Option (List UInt64) ← persistentGet DataKey.orderIds
  persistentSet DataKey.orderIds (ids.getD [] ++ [orderId])
  publish (.placed orderId caller)
  pure orderId

/-! ### Matching

The nested loop of `match_orders` runs over a snapshot of the open orders that is taken once;
the outer loop over `buy = orders[i]` is a recursion on the snapshot, the inner one over
`sell = orders[j]` with `i < j` a recursion on what follows `buy` in it. -/

-- the first loop of `match_orders`: the orders that are not settled, over the ids still to come
def collectOpen (orders : List Order) : List UInt64 → M X (List Order)
  | [] => pure orders
  | id :: ids => do
    let stored : Option Order ← persistentGet (DataKey.order id)
    match stored with
    | some o => if o.settled then collectOpen orders ids else collectOpen (orders ++ [o]) ids
    | none => collectOpen orders ids

/-- What the body of the inner loop does once it has found a sell for `buy`. -/
def recordMatch (buy sell : Order) : M X Unit := do
  let matchPrice := sell.strikePrice
  let matchQty := if buy.quantity < sell.quantity then buy.quantity else sell.quantity
  persistentSet (DataKey.position buy.owner buy.id)
    { owner := buy.owner, derivativeId := buy.id, quantity := matchQty, entryPrice := matchPrice }
  persistentSet (DataKey.position sell.owner sell.id)
    { owner := sell.owner, derivativeId := sell.id, quantity := matchQty, entryPrice := matchPrice }
  publish (.matched buy.id sell.id matchPrice)
  -- mark both as settled after the match; the snapshot keeps its flags
  persistentSet (DataKey.order buy.id) { buy with settled := true }
  persistentSet (DataKey.order sell.id) { sell with settled := true }

def matchSells (buy : Order) : List Order → M X Unit
  | [] => pure ()
  | sell :: rest =>
    if sell.isBuy then matchSells buy rest
    else if buy.derivativeType ≠ sell.derivativeType then matchSells buy rest
    else if buy.strikePrice < sell.strikePrice then matchSells buy rest
    else recordMatch buy sell

def matchBuys : List Order → M X Unit
  | [] => pure ()
  | buy :: rest => do
    onlyIf (buy.isBuy = true) (matchSells buy rest)
    matchBuys rest

def matchOrders : M X Unit := do
  let ids : Option (List UInt64) ← persistentGet DataKey.orderIds
  let orders ← collectOpen [] (ids.getD [])
  matchBuys orders

/-! ### The other entrypoints -/

def settleOrder (caller : Address) (orderId : UInt64) : M X Unit := do
  requireAuth caller
  let stored : Option Order ← persistentGet (DataKey.order orderId)
  let order ← unwrapOrPanic stored .orderNotFound
  panicIf (order.settled = true) .alreadySettled
  let now ← ledgerTimestamp
  panicIf (now < order.expiry) .notExpired
  let settlementValue := order.quantity * order.strikePrice
  let contractAddress ← currentContractAddress
  tokenTransfer ⟨order.underlying, contractAddress, order.owner, settlementValue⟩
  persistentSet (DataKey.order orderId) { order with settled := true }
  publish (.settled orderId settlementValue)

def getPosition (owner : Address) (derivativeId : UInt64) : M X Position := do
  let stored : Option Position ← persistentGet (DataKey.position owner derivativeId)
  unwrapOrPanic stored .positionNotFound

def cancelOrder (caller : Address) (orderId : UInt64) : M X Unit := do
  requireAuth caller
  let stored : Option Order ← persistentGet (DataKey.order orderId)
  let order ← unwrapOrPanic stored .orderNotFound
  panicIf (order.owner ≠ caller) .unauthorized
  panicIf (order.settled = true) .alreadySettled
  persistentSet (DataKey.order orderId) { order with settled := true }

/-! ## The machine -/

/-- The public functions, with their arguments. -/
inductive Entrypoint where
  | placeOrder (caller : Address) (derivativeType : Symbol) (underlying : Address)
      (strikePrice : I128) (expiry : UInt64) (quantity : I128) (isBuy : Bool)
  | matchOrders
  | settleOrder (caller : Address) (orderId : UInt64)
  | getPosition (owner : Address) (derivativeId : UInt64)
  | cancelOrder (caller : Address) (orderId : UInt64)
deriving DecidableEq, Repr

/-- What a call returns. -/
inductive Ret where
  | unit
  | u64 (x : UInt64)
  | position (p : Position)
deriving DecidableEq, Repr

def program : Entrypoint → M X Ret
  | .placeOrder caller derivativeType underlying strikePrice expiry quantity isBuy => do
    let id ← placeOrder caller derivativeType underlying strikePrice expiry quantity isBuy
    pure (.u64 id)
  | .matchOrders => do matchOrders; pure .unit
  | .settleOrder caller orderId => do settleOrder caller orderId; pure .unit
  | .getPosition owner derivativeId => do
    let p ← getPosition owner derivativeId; pure (.position p)
  | .cancelOrder caller orderId => do cancelOrder caller orderId; pure .unit

abbrev Call := Machine.Invocation Entrypoint

abbrev Action (X : Type) := Machine.Action Entrypoint X

abbrev exec (chain : Chain X) : Call → World X → Except (Failure DerivativesError) (Ret × World X) :=
  Machine.exec program chain

abbrev step (chain : Chain X) : World X → Action X → World X := Machine.step program chain

/-- The occurrence `o` is a successful call `c`. -/
abbrev Succeeds (chain : Chain X) (o : Occ (World X) (Action X)) (c : Call) : Prop :=
  Machine.Succeeds program chain o c

end Derivatives
