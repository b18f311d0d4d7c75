import StellarTipjar.Soroban.Machine

/-!
# Arbitrage — the contract

The data model and the entrypoints of `contracts/arbitrage/src/lib.rs`, in the order of the source.
Everything is in persistent storage and no time to live is ever extended. The bare `+`, `-` and `*`
wrap, as they do in the release WASM. No token is moved: an execution is a record of what it would
have earned.
-/

namespace Arbitrage

open Lib Soroban Contract

/-! ## The data model -/

/-- The minimum profit threshold: 100 basis points (1%). -/
def minProfitThresholdBps : I128 := 100

def bps : I128 := 10000

structure MarketPrice where
  marketId : Symbol
  token : Address
  price : I128
  updatedAt : UInt64
deriving DecidableEq, Repr

structure ArbitrageRecord where
  id : UInt64
  executor : Address
  token : Address
  buyMarket : Symbol
  sellMarket : Symbol
  profit : I128
  executedAt : UInt64
deriving DecidableEq, Repr

inductive DataKey where
  | price (marketId : Symbol) (token : Address)
  | record (id : UInt64)
  | recordCount
  | executorRecords (executor : Address)
deriving DecidableEq, Repr

/-- What is stored under each key. -/
abbrev DataKey.Val : DataKey → Type
  | .price _ _ => MarketPrice
  | .record _ => ArbitrageRecord
  | .recordCount => UInt64
  | .executorRecords _ => List UInt64

/-- The events, all under the topic `arb`. -/
inductive Event where
  | detected (token : Address) (buyMarket sellMarket : Symbol) (priceDiff : I128)
  | executed (caller token : Address) (profit : I128)
deriving DecidableEq, Repr

inductive ArbitrageError where
  | unauthorized
  | priceNotFound
  | notProfitable
  | invalidAmount
deriving DecidableEq, Repr

/-- The state a call of the contract works on. -/
abbrev World (X : Type) := Env DataKey DataKey.Val Event X

/-- A program of the contract. -/
abbrev M (X : Type) := Contract DataKey DataKey.Val Event ArbitrageError X

/-! ## The entrypoints -/

variable {X : Type}

-- anybody may feed a price
def updatePrice (caller : Address) (marketId : Symbol) (token : Address) (price : I128) :
    M X Unit := do
  requireAuth caller
  panicIf (price ≤ 0) .invalidAmount
  let now ← ledgerTimestamp
  persistentSet (DataKey.price marketId token) { marketId, token, price, updatedAt := now }

def detectOpportunity (token : Address) (marketA marketB : Symbol) : M X (I128 × Bool) := do
  let stored : Option MarketPrice ← persistentGet (DataKey.price marketA token)
  let priceA ← unwrapOrPanic stored .priceNotFound
  let stored : Option MarketPrice ← persistentGet (DataKey.price marketB token)
  let priceB ← unwrapOrPanic stored .priceNotFound
  let priceDiff := if priceA.price < priceB.price then priceB.price - priceA.price
    else priceA.price - priceB.price
  -- profitable if the difference is more than the threshold's share of the lower price
  let lowerPrice := if priceA.price < priceB.price then priceA.price else priceB.price
  let threshold ← divOrTrap (lowerPrice * minProfitThresholdBps) bps
  pure (priceDiff, decide (threshold < priceDiff))

def executeArbitrage (caller token : Address) (buyMarket sellMarket : Symbol) (amount : I128) :
    M X I128 := do
  requireAuth caller
  panicIf (amount ≤ 0) .invalidAmount
  let stored : Option MarketPrice ← persistentGet (DataKey.price buyMarket token)
  let buyPrice ← unwrapOrPanic stored .priceNotFound
  let stored : Option MarketPrice ← persistentGet (DataKey.price sellMarket token)
  let sellPrice ← unwrapOrPanic stored .priceNotFound
  panicIf (sellPrice.price ≤ buyPrice.price) .notProfitable
  let priceDiff := sellPrice.price - buyPrice.price
  let threshold ← divOrTrap (buyPrice.price * minProfitThresholdBps) bps
  panicIf (priceDiff ≤ threshold) .notProfitable
  let profit ← divOrTrap (amount * priceDiff) buyPrice.price
  let recordCount : Option UInt64 ← persistentGet DataKey.recordCount
  let recordId := recordCount.getD 0 + 1
  let now ← ledgerTimestamp
  persistentSet (DataKey.record recordId)
    { id := recordId, executor := caller, token, buyMarket, sellMarket, profit, executedAt := now }
  persistentSet DataKey.recordCount recordId
  let executorRecords : Option (List UInt64) ← persistentGet (DataKey.executorRecords caller)
  persistentSet (DataKey.executorRecords caller) (executorRecords.getD [] ++ [recordId])
  publish (.detected token buyMarket sellMarket priceDiff)
  publish (.executed caller token profit)
  pure profit

-- the loop of `get_performance`, over the ids still to come
def collectRecords (result : List ArbitrageRecord) : List UInt64 → M X (List ArbitrageRecord)
  | [] => pure result
  | id :: ids => do
    let stored : Option ArbitrageRecord ← persistentGet (DataKey.record id)
    match stored with
    | some record => collectRecords (result ++ [record]) ids
    | none => collectRecords result ids

def getPerformance (executor : Address) : M X (List ArbitrageRecord) := do
  let ids : Option (List UInt64) ← persistentGet (DataKey.executorRecords executor)
  collectRecords [] (ids.getD [])

/-! ## The machine -/

/-- The public functions, with their arguments. -/
inductive Entrypoint where
  | updatePrice (caller : Address) (marketId : Symbol) (token : Address) (price : I128)
  | detectOpportunity (token : Address) (marketA marketB : Symbol)
  | executeArbitrage (caller token : Address) (buyMarket sellMarket : Symbol) (amount : I128)
  | getPerformance (executor : Address)
deriving DecidableEq, Repr

/-- What a call returns. -/
inductive Ret where
  | unit
  | opportunity (priceDiff : I128) (isProfitable : Bool)
  | profit (x : I128)
  | records (rs : List ArbitrageRecord)
deriving DecidableEq, Repr

def program : Entrypoint → M X Ret
  | .updatePrice caller marketId token price => do
    updatePrice caller marketId token price; pure .unit
  | .detectOpportunity token marketA marketB => do
    let p ← detectOpportunity token marketA marketB; pure (.opportunity p.1 p.2)
  | .executeArbitrage caller token buyMarket sellMarket amount => do
    let x ← executeArbitrage caller token buyMarket sellMarket amount; pure (.profit x)
  | .getPerformance executor => do let rs ← getPerformance executor; pure (.records rs)

abbrev Call := Machine.Invocation Entrypoint

abbrev Action (X : Type) := Machine.Action Entrypoint X

abbrev exec (chain : Chain X) : Call → World X → Except (Failure ArbitrageError) (Ret × World X) :=
  Machine.exec program chain

abbrev step (chain : Chain X) : World X → Action X → World X := Machine.step program chain

end Arbitrage
