import StellarTipjar.Arbitrage.Contract

/-!
# Arbitrage — what a call does

The two tests of the contract as functions of the prices, one structure per entrypoint that writes,
and `exec_effect`: a successful call is one of them, or a view that changes nothing.
`exec_detectOpportunity_iff` and `exec_executeArbitrage_iff` say when the two functions that
compare prices succeed.
-/

namespace Arbitrage

open Lib Soroban Contract

variable {X : Type}

def priceOf (w : World X) (market : Symbol) (token : Address) : Option MarketPrice :=
  w.pers.get (.price market token)

def recordOf (w : World X) (id : UInt64) : Option ArbitrageRecord := w.pers.get (.record id)

/-- The id the next record gets. The count wraps around at `2^64`. -/
def nextId (w : World X) : UInt64 := (w.pers.get .recordCount : Option UInt64).getD 0 + 1

def idsOf (w : World X) (executor : Address) : List UInt64 :=
  (w.pers.get (.executorRecords executor) : Option (List UInt64)).getD []

/-! ## The tests -/

/-- One percent of a price, as both functions compute it. -/
def thresholdOf (price : I128) : Int := (price * minProfitThresholdBps).val.tdiv bps.val

/-- The difference of the prices of `detect_opportunity`. -/
def priceDiff (priceA priceB : I128) : I128 :=
  if priceA < priceB then priceB - priceA else priceA - priceB

def lowerPrice (priceA priceB : I128) : I128 := if priceA < priceB then priceA else priceB

/-- What `detect_opportunity` reports. -/
def Detected (priceA priceB : I128) : Prop :=
  thresholdOf (lowerPrice priceA priceB) < (priceDiff priceA priceB).val

instance (priceA priceB : I128) : Decidable (Detected priceA priceB) :=
  inferInstanceAs (Decidable (_ < _))

/-- What `execute_arbitrage` asks for. -/
def Executable (buy sell : I128) : Prop := buy.val < sell.val ∧ thresholdOf buy < (sell - buy).val

/-! ## The effects -/

section Effects

variable (chain : Chain X) (auth : List Address)

structure Feeds (caller : Address) (market : Symbol) (token : Address) (price : I128)
    (w w' : World X) : Prop where
  authorised : caller ∈ auth
  price_pos : 0 < price.val
  pers : w'.pers = w.pers.set (.price market token) ⟨market, token, price, chain.timestamp w.ext⟩

/-- The record of an execution. -/
def recordAt (w : World X) (caller token : Address) (buyMarket sellMarket : Symbol)
    (profit : I128) : ArbitrageRecord where
  id := nextId w
  executor := caller
  token := token
  buyMarket := buyMarket
  sellMarket := sellMarket
  profit := profit
  executedAt := chain.timestamp w.ext

structure Executes (caller token : Address) (buyMarket sellMarket : Symbol) (amount : I128)
    (buy sell : MarketPrice) (profit : I128) (w w' : World X) : Prop where
  authorised : caller ∈ auth
  amount_pos : 0 < amount.val
  buy_stored : priceOf w buyMarket token = some buy
  sell_stored : priceOf w sellMarket token = some sell
  executable : Executable buy.price sell.price
  quotient : (amount * (sell.price - buy.price)).checkedDiv buy.price = some profit
  pers : w'.pers =
    ((w.pers.set (.record (nextId w))
        (recordAt chain w caller token buyMarket sellMarket profit)).set
      .recordCount (nextId w)).set (.executorRecords caller) (idsOf w caller ++ [nextId w])
  events : w'.events = w.events
    ++ [.detected token buyMarket sellMarket (sell.price - buy.price), .executed caller token profit]

end Effects

/-- What a successful call of the contract does. -/
inductive Effect (chain : Chain X) (call : Call) (w w' : World X) : Prop where
  | fed (caller : Address) (market : Symbol) (token : Address) (price : I128)
      (entry : call.entry = .updatePrice caller market token price)
      (h : Feeds chain call.auth caller market token price w w')
  | executed (caller token : Address) (buyMarket sellMarket : Symbol) (amount : I128)
      (buy sell : MarketPrice) (profit : I128)
      (entry : call.entry = .executeArbitrage caller token buyMarket sellMarket amount)
      (h : Executes chain call.auth caller token buyMarket sellMarket amount buy sell profit w w')
  | view (same : w' = w)

/-! ## One call of each entrypoint -/

/-- The host can load the entry of `k`. -/
def Loads (chain : Chain X) (call : Call) (w : World X) (k : DataKey) : Prop :=
  ¬w.Archived (chain.ctx call.sequence call.auth : Ctx DataKey DataKey.Val Event ArbitrageError X) k

/-- The host can load the contract. -/
def Live (chain : Chain X) (call : Call) (w : World X) : Prop :=
  InstanceLive (chain.ctx call.sequence call.auth : Ctx DataKey DataKey.Val Event ArbitrageError X) w

section Calls

variable {chain : Chain X} {call : Call} {w w' : World X} {r : Ret}

theorem exec_updatePrice {caller : Address} {market : Symbol} {token : Address} {price : I128}
    (hentry : call.entry = .updatePrice caller market token price)
    (h : exec chain call w = .ok (r, w')) :
    Feeds chain call.auth caller market token price w w' := by
  refine Machine.exec_post
    (Q := fun _ w' => Feeds chain call.auth caller market token price w w') ?_ h
  rw [hentry]
  simp only [program, updatePrice, wp_bind, wp_requireAuth, wp_panicIf, wp_ledgerTimestamp,
    wp_persistentSet, wp_pure]
  intro hauth hpos _
  exact ⟨hauth, Int.not_le.mp hpos, rfl⟩

theorem executeArbitrage_spec {sequence : UInt32} {auth : List Address} (caller token : Address)
    (buyMarket sellMarket : Symbol) (amount : I128) :
    wp (executeArbitrage caller token buyMarket sellMarket amount) (chain.ctx sequence auth) w
      fun profit w' => ∃ buy sell,
        Executes chain auth caller token buyMarket sellMarket amount buy sell profit w w' := by
  simp only [executeArbitrage, wp_bind, wp_requireAuth, wp_panicIf, wp_persistentGet,
    wp_unwrapOrPanic, wp_divOrTrap, wp_ledgerTimestamp, wp_persistentSet, wp_publish, wp_pure]
  intro hauth hpos _ buy hbuy _ sell hsell hdear threshold hthreshold hmore profit hprofit _ _ _ _ _
  obtain ⟨-, hthreshold⟩ := I128.checkedDiv_eq_some.mp hthreshold
  have hexecutable : Executable buy.price sell.price := by
    refine ⟨Int.not_le.mp hdear, ?_⟩
    have hless := Int.not_le.mp hmore
    rw [hthreshold] at hless
    exact hless
  refine ⟨buy, sell, hauth, Int.not_le.mp hpos, hbuy, hsell, hexecutable, hprofit, ?_, ?_⟩
  · simp only [Env.publish_pers, Env.setPersistent_pers]
    rw [Store.get_set_of_ne _ (by simp), Store.get_set_of_ne _ (by simp)]
    rfl
  · simp [Env.publish, Env.setPersistent]

theorem exec_executeArbitrage {caller token : Address} {buyMarket sellMarket : Symbol}
    {amount : I128} (hentry : call.entry = .executeArbitrage caller token buyMarket sellMarket amount)
    (h : exec chain call w = .ok (r, w')) :
    ∃ buy sell profit, r = .profit profit ∧
      Executes chain call.auth caller token buyMarket sellMarket amount buy sell profit w w' := by
  refine Machine.exec_post (Q := fun r w' => ∃ buy sell profit, r = .profit profit ∧
    Executes chain call.auth caller token buyMarket sellMarket amount buy sell profit w w') ?_ h
  rw [hentry]
  simp only [program, wp_bind, wp_pure]
  refine wp_mono (executeArbitrage_spec _ _ _ _ _) ?_
  rintro profit w' ⟨buy, sell, hexecutes⟩
  exact ⟨buy, sell, profit, rfl, hexecutes⟩

/-- The host can load every entry an execution uses. -/
structure LoadsExecution (chain : Chain X) (call : Call) (w : World X) (caller token : Address)
    (buyMarket sellMarket : Symbol) : Prop where
  live : Live chain call w
  buy : Loads chain call w (.price buyMarket token)
  sell : Loads chain call w (.price sellMarket token)
  count : Loads chain call w .recordCount
  record : Loads chain call w (.record (nextId w))
  ids : Loads chain call w (.executorRecords caller)

/-- An execution the host can load succeeds when the prices are executable. -/
theorem executeArbitrage_succeeds {caller token : Address} {buyMarket sellMarket : Symbol}
    {amount : I128} (hentry : call.entry = .executeArbitrage caller token buyMarket sellMarket amount)
    (hloads : LoadsExecution chain call w caller token buyMarket sellMarket)
    (hauth : caller ∈ call.auth) (hpos : 0 < amount.val) {buy sell : MarketPrice}
    (hbuy : priceOf w buyMarket token = some buy) (hsell : priceOf w sellMarket token = some sell)
    (hbuypos : 0 < buy.price.val) (hexecutable : Executable buy.price sell.price) :
    ∃ r w', exec chain call w = .ok (r, w') := by
  have hruns : twp (program call.entry) (chain.ctx call.sequence call.auth) w
      fun _ _ => True := by
    obtain ⟨threshold, hthreshold, hval⟩ := I128.checkedDiv_of_pos
      (buy.price * minProfitThresholdBps) (show 0 < bps.val by decide)
    obtain ⟨profit, hprofit, -⟩ := I128.checkedDiv_of_pos
      (amount * (sell.price - buy.price)) hbuypos
    have hmore : ¬sell.price - buy.price ≤ threshold := by
      show ¬(sell.price - buy.price).val ≤ threshold.val
      rw [hval]
      exact Int.not_le.mpr hexecutable.2
    rw [hentry]
    simp only [program, executeArbitrage, twp_bind, twp_requireAuth, twp_panicIf,
      twp_persistentGet, twp_unwrapOrPanic, twp_divOrTrap, twp_ledgerTimestamp, twp_persistentSet,
      twp_publish, twp_pure]
    refine ⟨hauth, Int.not_le.mpr hpos, hloads.buy, buy, hbuy, hloads.sell, sell, hsell,
      Int.not_le.mpr hexecutable.1, threshold, hthreshold, hmore, profit, hprofit, hloads.count,
      hloads.record, ?_, ?_, ?_, trivial⟩
    · -- the entries touched later are not the ones written before
      rw [Env.archived_setPersistent_of_ne (by simp)]
      exact hloads.count
    · rw [Env.archived_setPersistent_of_ne (by simp), Env.archived_setPersistent_of_ne (by simp)]
      exact hloads.ids
    · rw [Env.archived_setPersistent_of_ne (by simp), Env.archived_setPersistent_of_ne (by simp)]
      exact hloads.ids
  obtain ⟨r, w', hexec, -⟩ := Machine.exec_of_twp call hloads.live hruns
  exact ⟨r, w', hexec⟩

/-- When an execution that nothing else stands in the way of succeeds. -/
theorem exec_executeArbitrage_iff {caller token : Address} {buyMarket sellMarket : Symbol}
    {amount : I128} (hentry : call.entry = .executeArbitrage caller token buyMarket sellMarket amount)
    (hloads : LoadsExecution chain call w caller token buyMarket sellMarket)
    (hauth : caller ∈ call.auth) (hpos : 0 < amount.val) {buy sell : MarketPrice}
    (hbuy : priceOf w buyMarket token = some buy) (hsell : priceOf w sellMarket token = some sell)
    (hbuypos : 0 < buy.price.val) :
    (∃ r w', exec chain call w = .ok (r, w')) ↔ Executable buy.price sell.price := by
  constructor
  · rintro ⟨r, w', hexec⟩
    obtain ⟨buy', sell', profit, -, hexecutes⟩ := exec_executeArbitrage hentry hexec
    obtain rfl := Option.some.inj (hexecutes.buy_stored.symm.trans hbuy)
    obtain rfl := Option.some.inj (hexecutes.sell_stored.symm.trans hsell)
    exact hexecutes.executable
  · exact executeArbitrage_succeeds hentry hloads hauth hpos hbuy hsell hbuypos

/-- What `detect_opportunity` returns, and when. -/
theorem exec_detectOpportunity_iff {token : Address} {marketA marketB : Symbol}
    (hentry : call.entry = .detectOpportunity token marketA marketB) {priceA priceB : MarketPrice}
    (hA : priceOf w marketA token = some priceA) (hB : priceOf w marketB token = some priceB) :
    exec chain call w = .ok (r, w') ↔
      Live chain call w ∧ Loads chain call w (.price marketA token) ∧
        Loads chain call w (.price marketB token) ∧
        r = .opportunity (priceDiff priceA.price priceB.price)
          (decide (Detected priceA.price priceB.price)) ∧ w' = w := by
  obtain ⟨threshold, hthreshold, hval⟩ := I128.checkedDiv_of_pos
    (lowerPrice priceA.price priceB.price * minProfitThresholdBps) (show 0 < bps.val by decide)
  have hflag : decide (threshold < priceDiff priceA.price priceB.price)
      = decide (Detected priceA.price priceB.price) := by
    refine decide_eq_decide.mpr ?_
    show threshold.val < _ ↔ _
    rw [hval]
    rfl
  constructor
  · intro h
    refine ⟨Machine.instanceLive_of_ok h, ?_⟩
    refine Machine.exec_post (Q := fun r w' => Loads chain call w (.price marketA token) ∧
      Loads chain call w (.price marketB token) ∧
      r = .opportunity (priceDiff priceA.price priceB.price)
        (decide (Detected priceA.price priceB.price)) ∧ w' = w) ?_ h
    rw [hentry]
    simp only [program, detectOpportunity, wp_bind, wp_persistentGet, wp_unwrapOrPanic,
      wp_divOrTrap, wp_pure]
    intro hloadA a ha hloadB b hb q hq
    obtain rfl := Option.some.inj (hA.symm.trans ha)
    obtain rfl := Option.some.inj (hB.symm.trans hb)
    obtain rfl := Option.some.inj (hthreshold.symm.trans hq)
    refine ⟨hloadA, hloadB, ?_, trivial⟩
    rw [← hflag]
    rfl
  · rintro ⟨hlive, hloadA, hloadB, rfl, rfl⟩
    have hruns : twp (program call.entry) (chain.ctx call.sequence call.auth) w' fun r v =>
        r = .opportunity (priceDiff priceA.price priceB.price)
          (decide (Detected priceA.price priceB.price)) ∧ v = w' := by
      rw [hentry]
      simp only [program, detectOpportunity, twp_bind, twp_persistentGet, twp_unwrapOrPanic,
        twp_divOrTrap, twp_pure]
      refine ⟨hloadA, priceA, hA, hloadB, priceB, hB, threshold, hthreshold, ?_, trivial⟩
      rw [← hflag]
      rfl
    obtain ⟨r, v, hexec, rfl, rfl⟩ := Machine.exec_of_twp call hlive hruns
    exact hexec

/-- The loop of `get_performance` only reads. -/
theorem collectRecords_spec {sequence : UInt32} {auth : List Address} (ids : List UInt64)
    (result : List ArbitrageRecord) :
    wp (collectRecords result ids) (chain.ctx sequence auth) w
      fun rs w' => rs = result ++ ids.filterMap (recordOf w) ∧ w' = w := by
  induction ids generalizing result with
  | nil => simp [collectRecords]
  | cons id ids ih =>
    simp only [collectRecords, wp_bind, wp_persistentGet, List.filterMap_cons]
    intro _
    cases hstored : w.pers.get (.record id) with
    | none =>
      rw [show recordOf w id = none from hstored]
      exact ih result
    | some record =>
      rw [show recordOf w id = some record from hstored]
      simpa using ih (result ++ [record])

theorem exec_effect (h : exec chain call w = .ok (r, w')) : Effect chain call w w' := by
  cases hentry : call.entry with
  | updatePrice caller market token price => exact .fed _ _ _ _ hentry (exec_updatePrice hentry h)
  | executeArbitrage caller token buyMarket sellMarket amount =>
    obtain ⟨buy, sell, profit, -, hexecutes⟩ := exec_executeArbitrage hentry h
    exact .executed _ _ _ _ _ _ _ _ hentry hexecutes
  | detectOpportunity token marketA marketB =>
    refine .view (Machine.exec_post (Q := fun _ w' => w' = w) ?_ h)
    rw [hentry]
    simp only [program, detectOpportunity, wp_bind, wp_persistentGet, wp_unwrapOrPanic,
      wp_divOrTrap, wp_pure]
    intro _ _ _ _ _ _ _ _
    trivial
  | getPerformance executor =>
    refine .view (Machine.exec_post (Q := fun _ w' => w' = w) ?_ h)
    rw [hentry]
    simp only [program, getPerformance, wp_bind, wp_persistentGet, wp_pure]
    intro _
    exact wp_mono (collectRecords_spec _ _) fun _ _ hview => hview.2

end Calls

end Arbitrage
