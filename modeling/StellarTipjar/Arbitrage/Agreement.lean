import StellarTipjar.Arbitrage.Effects

/-!
# Arbitrage — detection and execution

`detect_opportunity` tests the difference of two prices against one percent of the lower one, and
`execute_arbitrage` makes the same test in one direction, having asked for a difference first. All
products wrap. `detection_agrees_iff` says for which prices and amounts the two functions agree and
the recorded profit is the exact one, and at least one percent of the amount.
-/

namespace Arbitrage

open Lib Soroban Contract

variable {X : Type}

/-! ## The two tests -/

section Tests

variable {p q : I128}

theorem lowerPrice_comm (p q : I128) : lowerPrice p q = lowerPrice q p := by
  unfold lowerPrice
  by_cases hlt : p.val < q.val
  · rw [if_pos (show p < q from hlt), if_neg (show ¬q < p from Int.not_lt.mpr hlt.le)]
  · rw [if_neg (show ¬p < q from hlt)]
    by_cases hgt : q.val < p.val
    · rw [if_pos (show q < p from hgt)]
    · rw [if_neg (show ¬q < p from hgt)]
      apply I128.ext
      omega

theorem priceDiff_comm (p q : I128) : priceDiff p q = priceDiff q p := by
  unfold priceDiff
  by_cases hlt : p.val < q.val
  · rw [if_pos (show p < q from hlt), if_neg (show ¬q < p from Int.not_lt.mpr hlt.le)]
  · rw [if_neg (show ¬p < q from hlt)]
    by_cases hgt : q.val < p.val
    · rw [if_pos (show q < p from hgt)]
    · have hsame : p = q := by
        apply I128.ext
        omega
      rw [if_neg (show ¬q < p from hgt), hsame]

theorem detected_comm (p q : I128) : Detected p q ↔ Detected q p := by
  unfold Detected
  rw [lowerPrice_comm, priceDiff_comm]

/-- From the lower price to the higher one the test is that of `execute_arbitrage`. -/
theorem detected_iff_of_le (hp : 0 < p.val) (hle : p.val ≤ q.val) :
    Detected p q ↔ thresholdOf p < q.val - p.val := by
  have hdiff : (q - p).val = q.val - p.val := I128.val_sub_of_le hp.le hle
  unfold Detected lowerPrice priceDiff
  by_cases hlt : p.val < q.val
  · rw [if_pos (show p < q from hlt), if_pos (show p < q from hlt), hdiff]
  · have hsame : p = q := by
      apply I128.ext
      omega
    subst hsame
    rw [if_neg (show ¬p < p from hlt), if_neg (show ¬p < p from hlt), hdiff]

theorem executable_iff (hp : 0 < p.val) :
    Executable p q ↔ p.val < q.val ∧ thresholdOf p < q.val - p.val := by
  refine and_congr_right fun hlt => ?_
  rw [I128.val_sub_of_le hp.le (Int.le_of_lt hlt)]

/-- One percent of a positive price comes out negative when the product wraps to the negative
side. -/
theorem thresholdOf_neg_iff : thresholdOf p < 0 ↔ (p.val * 100).bmod (2 ^ 128) ≤ -10000 := by
  have hthreshold : thresholdOf p = ((p.val * 100).bmod (2 ^ 128)).tdiv 10000 := by
    rw [← I128.val_wrap_eq_bmod]
    rfl
  rw [hthreshold]
  generalize (p.val * 100).bmod (2 ^ 128) = x
  have hflip := I128.le_tdiv_iff (k := 1) (x := -x) (p := 10000) (by decide) (by decide)
  rw [Int.neg_tdiv] at hflip
  omega

theorem thresholdOf_of_fits (hp : 0 < p.val) (hfits : p.val * 100 < 2 ^ 127) :
    thresholdOf p = p.val / 100 := by
  have hthreshold : thresholdOf p = (p.val * 100).tdiv 10000 := by
    show (I128.wrap (p.val * 100)).val.tdiv 10000 = _
    rw [I128.val_wrap (by omega) hfits]
  rw [hthreshold, Int.tdiv_eq_ediv_of_nonneg (by omega)]
  omega

end Tests

/-! ## The profit -/

/-- The profit is the exact one, and no less than one percent of the amount. -/
def ProfitRight (buy sell amount profit : I128) : Prop :=
  profit.val = amount.val * (sell.val - buy.val) / buy.val ∧ amount.val / 100 ≤ profit.val

theorem profitRight_iff {buy sell amount profit : I128} (hbuy : 0 < buy.val)
    (hamount : 0 < amount.val) (hexecutable : Executable buy sell)
    (hquotient : (amount * (sell - buy)).checkedDiv buy = some profit) :
    ProfitRight buy sell amount profit ↔
      amount.val * (sell.val - buy.val) < 2 ^ 127 ∧
        (buy.val * 100 < 2 ^ 127 ∨
          amount.val / 100 * buy.val ≤ amount.val * (sell.val - buy.val)) := by
  obtain ⟨hlt, hthreshold⟩ := (executable_iff hbuy).mp hexecutable
  have hproduct : 0 ≤ amount.val * (sell.val - buy.val) := Int.mul_nonneg hamount.le (by omega)
  have hval : profit.val
      = (I128.wrap (amount.val * (sell.val - buy.val))).val.tdiv buy.val := by
    rw [← I128.val_sub_of_le hbuy.le hlt.le]
    exact (I128.checkedDiv_eq_some.mp hquotient).2
  have hexact := I128.wrap_tdiv_eq_iff hproduct hbuy buy.val_lt
  rw [← hval] at hexact
  unfold ProfitRight
  rw [hexact]
  refine and_congr_right fun hfits => ?_
  rw [hexact.mpr hfits, Int.le_ediv_iff_mul_le hbuy]
  refine ⟨.inr, fun hor => hor.elim (fun hsmall => ?_) id⟩
  -- the threshold is exact, so the difference is more than one percent of the price
  rw [thresholdOf_of_fits hbuy hsmall] at hthreshold
  have hpercent : buy.val ≤ 100 * (sell.val - buy.val) := by omega
  calc amount.val / 100 * buy.val
      ≤ amount.val / 100 * (100 * (sell.val - buy.val)) :=
        Int.mul_le_mul_of_nonneg_left hpercent (by omega)
    _ = amount.val / 100 * 100 * (sell.val - buy.val) := by rw [Int.mul_assoc]
    _ ≤ amount.val * (sell.val - buy.val) :=
        Int.mul_le_mul_of_nonneg_right (by omega) (by omega)

/-! ## The prices of a run -/

/-- Every stored price is positive. -/
def AllPositive (w : World X) : Prop :=
  ∀ market token mp, priceOf w market token = some mp → 0 < mp.price.val

section Runs

variable {chain : Chain X} {w w' w₀ : World X} {call : Call}

theorem AllPositive.effect (h : AllPositive w) (heffect : Effect chain call w w') :
    AllPositive w' := by
  intro market token mp hstored
  unfold priceOf at hstored
  cases heffect with
  | fed caller market' token' price _ hfeeds =>
    rw [hfeeds.pers] at hstored
    by_cases hkey : market = market' ∧ token = token'
    · rw [hkey.1, hkey.2, Store.get_set_self] at hstored
      obtain rfl := Option.some.inj hstored
      exact hfeeds.price_pos
    · rw [Store.get_set_of_ne _ (by simpa using hkey)] at hstored
      exact h market token mp hstored
  | executed _ _ _ _ _ _ _ _ _ hexecutes =>
    rw [hexecutes.pers, Store.get_set_of_ne _ (by simp), Store.get_set_of_ne _ (by simp),
      Store.get_set_of_ne _ (by simp)] at hstored
    exact h market token mp hstored
  | view same =>
    rw [same] at hstored
    exact h market token mp hstored

theorem AllPositive.step (h : AllPositive w) (a : Action X) : AllPositive (step chain w a) := by
  have hstep : IsStep (Arbitrage.step chain) ⟨w, a, Arbitrage.step chain w a⟩ := rfl
  rcases Machine.succeeds_or_outside hstep with ⟨c, -, r, hexec⟩ | ⟨x, hx⟩
  · exact h.effect (exec_effect hexec)
  · rw [show Arbitrage.step chain w a = { w with ext := x } from hx]
    exact h

theorem allPositive_run (h₀ : Machine.Fresh w₀) (acts : List (Action X)) :
    AllPositive (run (step chain) w₀ acts) := by
  refine run_invariant (step chain) (fun _ a h => h.step a) ?_ acts
  intro market token mp hstored
  unfold priceOf at hstored
  rw [h₀.pers] at hstored
  cases hstored

/-! ## The agreement -/

/-- The two functions agree on a buy at `buy` and a sale at `sell`: the pair is reported profitable
just when the execution succeeds, and an execution returns and records the right profit. -/
structure AgreesOn (chain : Chain X) (w : World X) (call : Call) (caller token : Address)
    (buyMarket sellMarket : Symbol) (amount buy sell : I128) (isProfitable : Bool) : Prop where
  succeeds : isProfitable = true ↔ ∃ r w', exec chain call w = .ok (r, w')
  profit : ∀ r w', exec chain call w = .ok (r, w') → ∃ profit, r = .profit profit ∧
    recordOf w' (nextId w) = some (recordAt chain w caller token buyMarket sellMarket profit) ∧
    ProfitRight buy sell amount profit

/-- Where the prices are equal, one percent of them does not wrap to less than -99. Where they
differ by more than the code's threshold, the product of amount and difference fits, and either 100
times the lower price does too, or one percent of the amount costs no more than that product. -/
def Agreeable (buy sell amount : I128) : Prop :=
  (buy = sell → -10000 < (buy.val * 100).bmod (2 ^ 128)) ∧
    (Executable buy sell → amount.val * (sell.val - buy.val) < 2 ^ 127 ∧
      (buy.val * 100 < 2 ^ 127 ∨
        amount.val / 100 * buy.val ≤ amount.val * (sell.val - buy.val)))

theorem Executes.recordOf {auth : List Address} {caller token : Address}
    {buyMarket sellMarket : Symbol} {amount profit : I128} {buy sell : MarketPrice}
    (h : Executes chain auth caller token buyMarket sellMarket amount buy sell profit w w') :
    recordOf w' (nextId w) = some (recordAt chain w caller token buyMarket sellMarket profit) := by
  unfold Arbitrage.recordOf
  rw [h.pers, Store.get_set_of_ne _ (by simp), Store.get_set_of_ne _ (by simp), Store.get_set_self]

/-- The flag says what the execution does, except for equal prices with a negative threshold. -/
theorem detected_iff_executable {buy sell : I128} (hbuy : 0 < buy.val) (hle : buy.val ≤ sell.val) :
    (Detected buy sell ↔ Executable buy sell) ↔
      (buy = sell → -10000 < (buy.val * 100).bmod (2 ^ 128)) := by
  rw [detected_iff_of_le hbuy hle, executable_iff hbuy]
  by_cases hlt : buy.val < sell.val
  · refine iff_of_true (by simp [hlt]) fun hsame => ?_
    rw [hsame] at hlt
    exact absurd hlt (Int.lt_irrefl _)
  · have hsame : buy = sell := by
      apply I128.ext
      omega
    subst hsame
    have hneg := thresholdOf_neg_iff (p := buy)
    simp only [Int.sub_self, Int.lt_irrefl, false_and, iff_false, forall_const, hneg]
    omega

theorem agreesOn_iff {caller token : Address} {buyMarket sellMarket : Symbol} {amount : I128}
    (hentry : call.entry = .executeArbitrage caller token buyMarket sellMarket amount)
    (hloads : LoadsExecution chain call w caller token buyMarket sellMarket)
    (hauth : caller ∈ call.auth) (hpos : 0 < amount.val) {buy sell : MarketPrice}
    (hbuy : priceOf w buyMarket token = some buy) (hsell : priceOf w sellMarket token = some sell)
    (hbuypos : 0 < buy.price.val) (hle : buy.price.val ≤ sell.price.val) :
    AgreesOn chain w call caller token buyMarket sellMarket amount buy.price sell.price
        (decide (Detected buy.price sell.price)) ↔
      Agreeable buy.price sell.price amount := by
  have hexec_iff := exec_executeArbitrage_iff hentry hloads hauth hpos hbuy hsell hbuypos
  have hflag := detected_iff_executable hbuypos hle
  have heffect : ∀ r w', exec chain call w = .ok (r, w') → ∃ profit, r = .profit profit ∧
      Executes chain call.auth caller token buyMarket sellMarket amount buy sell profit w w' := by
    intro r w' hexec
    obtain ⟨buy', sell', profit, hr, hexecutes⟩ := exec_executeArbitrage hentry hexec
    obtain rfl := Option.some.inj (hexecutes.buy_stored.symm.trans hbuy)
    obtain rfl := Option.some.inj (hexecutes.sell_stored.symm.trans hsell)
    exact ⟨profit, hr, hexecutes⟩
  constructor
  · intro hagree
    refine ⟨hflag.mp ?_, fun hexecutable => ?_⟩
    · rw [← hexec_iff, ← decide_eq_true_iff (p := Detected buy.price sell.price)]
      exact hagree.succeeds
    · obtain ⟨r, w', hexec⟩ := hexec_iff.mpr hexecutable
      obtain ⟨profit, hr, hexecutes⟩ := heffect r w' hexec
      obtain ⟨returned, hr', -, hright⟩ := hagree.profit r w' hexec
      obtain rfl : profit = returned := Ret.profit.inj (hr.symm.trans hr')
      exact (profitRight_iff hbuypos hpos hexecutable hexecutes.quotient).mp hright
  · intro hagreeable
    refine ⟨?_, ?_⟩
    · rw [decide_eq_true_iff, hexec_iff]
      exact hflag.mpr hagreeable.1
    · intro r w' hexec
      obtain ⟨profit, hr, hexecutes⟩ := heffect r w' hexec
      have hright := (profitRight_iff hbuypos hpos hexecutes.executable hexecutes.quotient).mpr
        (hagreeable.2 hexecutes.executable)
      exact ⟨profit, hr, hexecutes.recordOf, hright⟩

/-- In every state of a run from the deployment and for any two markets that have a price:
`detect_opportunity` does not depend on the order of the markets; and for a buy in the cheaper and
a sale in the dearer one, detection and execution agree just when the prices and the amount are
`Agreeable`. -/
theorem detection_agrees_iff (chain : Chain X) {w₀ : World X} (h₀ : Machine.Fresh w₀)
    (acts : List (Action X)) :
    let w := run (step chain) w₀ acts
    ∀ token marketA marketB priceA priceB, priceOf w marketA token = some priceA →
      priceOf w marketB token = some priceB →
      (∀ sequence auth r w',
        exec chain ⟨sequence, auth, .detectOpportunity token marketA marketB⟩ w = .ok (r, w') ↔
          exec chain ⟨sequence, auth, .detectOpportunity token marketB marketA⟩ w = .ok (r, w')) ∧
      (priceA.price.val ≤ priceB.price.val → ∀ call caller amount,
        call.entry = .executeArbitrage caller token marketA marketB amount → 0 < amount.val →
        caller ∈ call.auth → LoadsExecution chain call w caller token marketA marketB →
        ∃ diff isProfitable,
          exec chain ⟨call.sequence, call.auth, .detectOpportunity token marketA marketB⟩ w
            = .ok (.opportunity diff isProfitable, w) ∧
          (AgreesOn chain w call caller token marketA marketB amount priceA.price priceB.price
              isProfitable ↔
            Agreeable priceA.price priceB.price amount)) := by
  intro w token marketA marketB priceA priceB hA hB
  have hpositive : AllPositive w := allPositive_run h₀ acts
  refine ⟨?_, ?_⟩
  · intro sequence auth r w'
    rw [exec_detectOpportunity_iff rfl hA hB, exec_detectOpportunity_iff rfl hB hA,
      priceDiff_comm, decide_eq_decide.mpr (detected_comm priceA.price priceB.price)]
    exact ⟨fun ⟨hlive, ha, hb, hr⟩ => ⟨hlive, hb, ha, hr⟩,
      fun ⟨hlive, hb, ha, hr⟩ => ⟨hlive, ha, hb, hr⟩⟩
  · intro hle call caller amount hentry hpos hauth hloads
    refine ⟨priceDiff priceA.price priceB.price, decide (Detected priceA.price priceB.price), ?_, ?_⟩
    · rw [exec_detectOpportunity_iff rfl hA hB]
      exact ⟨hloads.live, hloads.buy, hloads.sell, rfl, rfl⟩
    · exact agreesOn_iff hentry hloads hauth hpos hA hB (hpositive _ _ _ hA) hle

end Runs

/-! ## Two markets -/

def sampleChain : Chain Balances := standardChain ⟨0⟩

def sampleWorld : World Balances := Machine.freshEnv fun _ _ => 0

def marketX : Symbol := ⟨['M', 'K', 'T', 'X']⟩

def marketY : Symbol := ⟨['M', 'K', 'T', 'Y']⟩

/-- The two markets with their prices. -/
def fedWith (priceX priceY : I128) : List (Action Balances) :=
  [.call ⟨1, [⟨7⟩], .updatePrice ⟨7⟩ marketX ⟨1⟩ priceX⟩,
    .call ⟨1, [⟨7⟩], .updatePrice ⟨7⟩ marketY ⟨1⟩ priceY⟩]

/-- A buy of 100 at 1000 and a sale at 1200 earns 20. -/
theorem detection_agrees_iff_sample :
    let w := run (step sampleChain) sampleWorld (fedWith 1000 1200)
    let call : Call := ⟨2, [⟨5⟩], .executeArbitrage ⟨5⟩ ⟨1⟩ marketX marketY 100⟩
    AgreesOn sampleChain w call ⟨5⟩ ⟨1⟩ marketX marketY 100 1000 1200 true ∧
      ∃ w', exec sampleChain call w = .ok (.profit 20, w') := by
  intro w call
  have hload : ∀ k, Loads sampleChain call w k := fun k => Env.not_archived rfl w k
  have hloads : LoadsExecution sampleChain call w ⟨5⟩ ⟨1⟩ marketX marketY :=
    ⟨fun hdead => absurd hdead.1 (by decide), hload _, hload _, hload _, hload _, hload _⟩
  obtain ⟨diff, isProfitable, hdetect, hiff⟩ := (detection_agrees_iff sampleChain
    (Machine.freshEnv_fresh _) (fedWith 1000 1200) ⟨1⟩ marketX marketY _ _ rfl rfl).2 (by decide)
    call ⟨5⟩ 100 rfl (by decide) (by decide) hloads
  cases hdetect
  refine ⟨hiff.mpr ⟨by decide, fun _ => ⟨by decide, .inl (by decide)⟩⟩, _, rfl⟩

/-- With both prices at 2 * 10^36 the threshold is negative, and an opportunity is reported that
cannot be executed. And 2^100 bought at 1 and sold at 2^28 + 1 are recorded with profit 0. -/
theorem detection_disagrees :
    (let w := run (step sampleChain) sampleWorld
      (fedWith 2000000000000000000000000000000000000 2000000000000000000000000000000000000)
    exec sampleChain ⟨2, [⟨5⟩], .detectOpportunity ⟨1⟩ marketX marketY⟩ w
        = .ok (.opportunity 0 true, w) ∧
      exec sampleChain ⟨2, [⟨5⟩], .executeArbitrage ⟨5⟩ ⟨1⟩ marketX marketY 100⟩ w
        = .error (.error .notProfitable)) ∧
    let w := run (step sampleChain) sampleWorld (fedWith 1 268435457)
    ∃ w', exec sampleChain ⟨2, [⟨5⟩], .executeArbitrage ⟨5⟩ ⟨1⟩ marketX marketY
        1267650600228229401496703205376⟩ w = .ok (.profit 0, w') ∧
      ¬ProfitRight 1 268435457 1267650600228229401496703205376 0 := by
  refine ⟨⟨rfl, rfl⟩, _, rfl, ?_⟩
  intro hright
  exact absurd hright.2 (by decide)

end Arbitrage
