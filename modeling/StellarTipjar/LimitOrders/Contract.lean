import StellarTipjar.Soroban.Machine

/-!
# LimitOrders — the contract

The data model and the entrypoints of `contracts/limit-orders/src/lib.rs`, in the order of the
source. Everything is in persistent storage and no time to live is ever extended. The bare `+`,
`-` and `*` wrap, as they do in the release WASM (the workspace profile enables no overflow
checks); a division by zero, and the one division that overflows, trap.
-/

namespace LimitOrders

open Lib Soroban Contract

/-! ## The data model -/

structure LimitOrder where
  id : UInt64
  owner : Address
  tokenIn : Address
  tokenOut : Address
  amountIn : I128
  limitPrice : I128
  filled : I128
  cancelled : Bool
deriving DecidableEq, Repr

inductive DataKey where
  | order (id : UInt64)
  | orderCount
  | orderBook (tokenIn tokenOut : Address)
deriving DecidableEq, Repr

/-- What is stored under each key. -/
abbrev DataKey.Val : DataKey → Type
  | .order _ => LimitOrder
  | .orderCount => UInt64
  | .orderBook _ _ => List UInt64

/-- The events, all under the topic `limit`. -/
inductive Event where
  | placed (orderId : UInt64) (caller : Address) (limitPrice : I128)
  | filled (orderId : UInt64) (fillAmount currentPrice : I128)
  | cancelled (orderId : UInt64)
deriving DecidableEq, Repr

inductive LimitOrderError where
  | unauthorized
  | orderNotFound
  | alreadyCancelled
  | invalidAmount
  | alreadyFilled
  | priceNotMet
deriving DecidableEq, Repr

/-- The state a call of the contract works on. -/
abbrev World (X : Type) := Env DataKey DataKey.Val Event X

/-- A program of the contract. -/
abbrev M (X : Type) := Contract DataKey DataKey.Val Event LimitOrderError X

/-! ## The entrypoints -/

variable {X : Type}

def placeOrder (caller tokenIn tokenOut : Address) (amountIn limitPrice : I128) : M X UInt64 := do
  requireAuth caller
  panicIf (amountIn ≤ 0 ∨ limitPrice ≤ 0) .invalidAmount
  -- lock `token_in` from the caller into contract escrow
  let contractAddress ← currentContractAddress
  tokenTransfer ⟨tokenIn, caller, contractAddress, amountIn⟩
  let orderCount : Option UInt64 ← persistentGet DataKey.orderCount
  let orderId := orderCount.getD 0 + 1
  persistentSet (DataKey.order orderId)
    { id := orderId, owner := caller, tokenIn, tokenOut, amountIn, limitPrice, filled := 0,
      cancelled := false }
  persistentSet DataKey.orderCount orderId
  -- add to the order book
  let book : Option (List UInt64) ← persistentGet (DataKey.orderBook tokenIn tokenOut)
  persistentSet (DataKey.orderBook tokenIn tokenOut) (book.getD [] ++ [orderId])
  publish (.placed orderId caller limitPrice)
  pure orderId

def matchOrder (orderId : UInt64) (currentPrice : I128) : M X Unit := do
  let stored : Option LimitOrder ← persistentGet (DataKey.order orderId)
  let order ← unwrapOrPanic stored .orderNotFound
  panicIf (order.cancelled = true) .alreadyCancelled
  panicIf (order.limitPrice < currentPrice) .priceNotMet
  let remaining := order.amountIn - order.filled
  panicIf (remaining ≤ 0) .alreadyFilled
  -- fill all that remains
  let fillAmount := remaining
  let amountOut ← divOrTrap (fillAmount * order.limitPrice) currentPrice
  let contractAddress ← currentContractAddress
  tokenTransfer ⟨order.tokenOut, contractAddress, order.owner, amountOut⟩
  persistentSet (DataKey.order orderId) { order with filled := order.filled + fillAmount }
  publish (.filled orderId fillAmount currentPrice)

def cancelOrder (caller : Address) (orderId : UInt64) : M X Unit := do
  requireAuth caller
  let stored : Option LimitOrder ← persistentGet (DataKey.order orderId)
  let order ← unwrapOrPanic stored .orderNotFound
  panicIf (order.owner ≠ caller) .unauthorized
  panicIf (order.cancelled = true) .alreadyCancelled
  -- refund the unfilled part of `token_in`
  let remaining := order.amountIn - order.filled
  let contractAddress ← currentContractAddress
  onlyIf (0 < remaining) (tokenTransfer ⟨order.tokenIn, contractAddress, caller, remaining⟩)
  persistentSet (DataKey.order orderId) { order with cancelled := true }
  publish (.cancelled orderId)

def getOrder (orderId : UInt64) : M X LimitOrder := do
  let stored : Option LimitOrder ← persistentGet (DataKey.order orderId)
  unwrapOrPanic stored .orderNotFound

-- the loop of `get_order_book`, over the ids still to come
def collectOrders (result : List LimitOrder) : List UInt64 → M X (List LimitOrder)
  | [] => pure result
  | id :: ids => do
    let stored : Option LimitOrder ← persistentGet (DataKey.order id)
    match stored with
    | some order => collectOrders (result ++ [order]) ids
    | none => collectOrders result ids

def getOrderBook (tokenIn tokenOut : Address) : M X (List LimitOrder) := do
  let ids : Option (List UInt64) ← persistentGet (DataKey.orderBook tokenIn tokenOut)
  collectOrders [] (ids.getD [])

/-! ## The machine -/

/-- The public functions, with their arguments. -/
inductive Entrypoint where
  | placeOrder (caller tokenIn tokenOut : Address) (amountIn limitPrice : I128)
  | matchOrder (orderId : UInt64) (currentPrice : I128)
  | cancelOrder (caller : Address) (orderId : UInt64)
  | getOrder (orderId : UInt64)
  | getOrderBook (tokenIn tokenOut : Address)
deriving DecidableEq, Repr

/-- What a call returns. -/
inductive Ret where
  | unit
  | u64 (x : UInt64)
  | order (o : LimitOrder)
  | orders (os : List LimitOrder)
deriving DecidableEq, Repr

def program : Entrypoint → M X Ret
  | .placeOrder caller tokenIn tokenOut amountIn limitPrice => do
    let id ← placeOrder caller tokenIn tokenOut amountIn limitPrice; pure (.u64 id)
  | .matchOrder orderId currentPrice => do matchOrder orderId currentPrice; pure .unit
  | .cancelOrder caller orderId => do cancelOrder caller orderId; pure .unit
  | .getOrder orderId => do let o ← getOrder orderId; pure (.order o)
  | .getOrderBook tokenIn tokenOut => do
    let os ← getOrderBook tokenIn tokenOut; pure (.orders os)

abbrev Call := Machine.Invocation Entrypoint

abbrev Action (X : Type) := Machine.Action Entrypoint X

abbrev exec (chain : Chain X) : Call → World X → Except (Failure LimitOrderError) (Ret × World X) :=
  Machine.exec program chain

abbrev step (chain : Chain X) : World X → Action X → World X := Machine.step program chain

/-- The occurrence `o` is a successful call `c`. -/
abbrev Succeeds (chain : Chain X) (o : Occ (World X) (Action X)) (c : Call) : Prop :=
  Machine.Succeeds program chain o c

end LimitOrders
