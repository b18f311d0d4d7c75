import StellarTipjar.Derivatives.Book

/-!
# Derivatives — conservation of quantity

A match opens a position for a buy and one for a sell. `Conserves` is what one expects of the
positions and the matches of a state: the two sides of every instrument hold the same quantity, no
order is matched twice, a match is of one instrument, and no quantity gets lost on the way.

`match_orders` keeps that exactly when the pairs of its snapshot are tidy: the two orders of each
pair agree in underlying, expiry and quantity, and no two buys end at the same sell. Nothing in the
loops sees to any of this: the inner loop compares the derivative type and the strikes only, a sell
that was just matched is still open in the snapshot, and both orders are closed whatever the
matched quantity is.
-/

namespace Derivatives

open Lib Soroban Contract

variable {X : Type}

/-! ## Instruments and totals -/

/-- What makes two orders the same product. -/
structure Instrument where
  derivativeType : Symbol
  underlying : Address
  expiry : UInt64
deriving DecidableEq, Repr

def Order.instrument (order : Order) : Instrument :=
  ⟨order.derivativeType, order.underlying, order.expiry⟩

/-- What an order of the given side and instrument holds by its position. -/
def held (side : Bool) (I : Instrument) (w : World X) (id : UInt64) (stored : Option Order) : Int :=
  stored.elim 0 fun order =>
    if order.isBuy = side ∧ order.instrument = I then
      (positionOf w order.owner id).elim 0 fun pos => pos.quantity.val
    else 0

/-- The total quantity of the positions of one side of an instrument. -/
noncomputable def positionTotal (side : Bool) (I : Instrument) (w : World X) : Int :=
  ∑ᶠ id, held side I w id (orderOf w id)

/-- Only stored orders count, and they are finitely many. -/
theorem held_finite (side : Bool) (I : Instrument) (w : World X) :
    (fun id => held side I w id (orderOf w id)).support.Finite :=
  w.pers.finite_support (fun id => .order id) (fun _ _ h => DataKey.order.inj h)
    (held side I w) fun _ => rfl

/-! ## Matches -/

/-- The orders a match is between. -/
def Event.parties : Event → List UInt64
  | .matched buyId sellId _ => [buyId, sellId]
  | _ => []

/-- The orders of all matches so far. -/
def matchedIds (w : World X) : List UInt64 := w.events.flatMap Event.parties

/-- The match of the orders `buyId` and `sellId` at `price` is between a buy and a sell of one
instrument that cross, and it opened two positions of the same quantity. -/
def Paired (w : World X) (buyId sellId : UInt64) (price : I128) : Prop :=
  ∃ buy sell quantity, orderOf w buyId = some buy ∧ orderOf w sellId = some sell ∧
    buy.isBuy = true ∧ sell.isBuy = false ∧ buy.instrument = sell.instrument ∧
    sell.strikePrice.val ≤ buy.strikePrice.val ∧ price = sell.strikePrice ∧
    positionOf w buy.owner buyId = some (buy.position quantity price) ∧
    positionOf w sell.owner sellId = some (sell.position quantity price)

/-- No quantity appeared and none was lost. -/
structure Conserves (w : World X) : Prop where
  totals : ∀ I, positionTotal true I w = positionTotal false I w
  once : (matchedIds w).Nodup
  pairs : ∀ buyId sellId price, .matched buyId sellId price ∈ w.events →
    Paired w buyId sellId price
  remainder : ∀ id order pos, orderOf w id = some order →
    positionOf w order.owner id = some pos →
    order.quantity.val - pos.quantity.val = 0 ∨ order.settled = false

/-- The step changes no position that is there. -/
def KeepsPositions (o : Occ (World X) (Action X)) : Prop :=
  ∀ owner id pos, positionOf o.before owner id = some pos → positionOf o.after owner id = some pos

/-- The pairs of a snapshot are of one instrument and one quantity, and no two buys end at the
same sell. -/
structure Tidy (orders : List Order) : Prop where
  fits : ∀ buy sell, Picks orders buy sell → buy.underlying = sell.underlying ∧
    buy.expiry = sell.expiry ∧ buy.quantity = sell.quantity
  apart : ∀ buy buy' sell, Picks orders buy sell → Picks orders buy' sell → buy = buy'

/-- If the step is a `match_orders`, the open orders it starts from are tidy. -/
def MatchesTidily (chain : Chain X) (o : Occ (World X) (Action X)) : Prop :=
  ∀ c, Succeeds chain o c → c.entry = .matchOrders → Tidy (openOrders o.before)

/-! ## One match -/

/-- A pair that may be entered without harm. -/
structure Clean (w : World X) (p : Order × Order) : Prop where
  buy_stored : orderOf w p.1.id = some p.1
  buy_open : p.1.settled = false
  buy : p.1.isBuy = true
  sell_stored : orderOf w p.2.id = some p.2
  sell_open : p.2.settled = false
  crosses : Crosses p.1 p.2
  instrument : p.1.instrument = p.2.instrument
  quantity : p.1.quantity = p.2.quantity

section Enter

variable {w w' : World X} {p : Order × Order} {side : Bool} {I : Instrument} {id : UInt64}
  {order : Order}

/-- What an order contributes: the quantity of its owner's position, on its own side. -/
theorem held_of_order {b : Bool} {J : Instrument} {pos : Option Position}
    (h : orderOf w id = some order) (hside : order.isBuy = b) (hinstrument : order.instrument = J)
    (hpos : positionOf w order.owner id = pos) : held side I w id (orderOf w id) =
      if b = side ∧ J = I then pos.elim 0 fun pos => pos.quantity.val else 0 := by
  rw [h, ← hside, ← hinstrument, ← hpos]
  rfl

/-- The two orders of a clean pair differ. -/
theorem Clean.ids_ne (h : Clean w p) : p.1.id ≠ p.2.id := by
  intro hid
  have hsame := h.buy_stored
  rw [hid, h.sell_stored] at hsame
  exact h.crosses.ne h.buy (Option.some.inj hsame).symm

/-- A clean pair can be entered. -/
theorem Clean.ready (h : Clean w p) : Ready w p :=
  ⟨⟨_, h.buy_stored, rfl⟩, ⟨_, h.sell_stored, rfl⟩, h.ids_ne⟩

/-- The quantities are equal, so this is the quantity matched. -/
theorem Clean.matchQty (h : Clean w p) : matchQty p.1 p.2 = p.1.quantity := by
  unfold Derivatives.matchQty
  rw [h.quantity]
  split <;> rfl

/-- An open order has no position. -/
theorem Booked.open_position (h : Booked w) (hstored : orderOf w id = some order)
    (hopen : order.settled = false) (owner : Address) : positionOf w owner id = none := by
  cases hpos : positionOf w owner id with
  | none => rfl
  | some pos =>
    obtain ⟨other, hother, -, hsettled⟩ := h.positions owner id pos hpos
    rw [hstored] at hother
    cases hother
    rw [hopen] at hsettled
    cases hsettled

/-- A party of an earlier match is closed. -/
theorem Conserves.party_closed (h : Conserves w) (hb : Booked w) (hid : id ∈ matchedIds w) :
    ∃ order, orderOf w id = some order ∧ order.settled = true := by
  obtain ⟨e, he, hparty⟩ := List.mem_flatMap.mp hid
  cases e with
  | placed orderId caller => cases hparty
  | settled orderId value => cases hparty
  | matched buyId sellId price =>
    obtain ⟨buy, sell, quantity, hbuy, hsell, -, -, -, -, -, hpos₁, hpos₂⟩ :=
      h.pairs buyId sellId price he
    simp only [Event.parties, List.mem_cons, List.not_mem_nil, or_false] at hparty
    rcases hparty with rfl | rfl
    · obtain ⟨order, hstored, -, hsettled⟩ := hb.positions _ _ _ hpos₁
      exact ⟨order, hstored, hsettled⟩
    · obtain ⟨order, hstored, -, hsettled⟩ := hb.positions _ _ _ hpos₂
      exact ⟨order, hstored, hsettled⟩

/-- An open order was in no match yet. -/
theorem Conserves.ne_party (h : Conserves w) (hb : Booked w) (hstored : orderOf w id = some order)
    (hopen : order.settled = false) : id ∉ matchedIds w := by
  intro hid
  obtain ⟨other, hother, hsettled⟩ := h.party_closed hb hid
  rw [hstored] at hother
  cases hother
  rw [hopen] at hsettled
  cases hsettled

/-- Away from the two orders nothing changes. -/
theorem held_enter_of_ne (h₁ : id ≠ p.1.id) (h₂ : id ≠ p.2.id) :
    held side I (enter w p) id (orderOf (enter w p) id) = held side I w id (orderOf w id) := by
  have hpos : ∀ owner, positionOf (enter w p) owner id = positionOf w owner id := by
    intro owner
    rw [positionOf_enter, if_neg fun hkey => h₂ hkey.2, if_neg fun hkey => h₁ hkey.2]
  rw [orderOf_enter, if_neg h₂, if_neg h₁]
  unfold held
  cases orderOf w id with
  | none => rfl
  | some order => simp only [Option.elim_some, hpos]

/-- The buyer's position after the match. -/
theorem Clean.position_buy (h : Clean w p) : positionOf (enter w p) p.1.owner p.1.id
    = some (p.1.position p.1.quantity p.2.strikePrice) := by
  rw [positionOf_enter, if_neg fun hkey => h.ids_ne hkey.2, if_pos ⟨rfl, rfl⟩, h.matchQty]

/-- The seller's position after the match, for the same quantity. -/
theorem Clean.position_sell (h : Clean w p) : positionOf (enter w p) p.2.owner p.2.id
    = some (p.2.position p.1.quantity p.2.strikePrice) := by
  rw [positionOf_enter, if_pos ⟨rfl, rfl⟩, h.matchQty]

theorem Clean.order_buy (h : Clean w p) : orderOf (enter w p) p.1.id = some p.1.close := by
  rw [orderOf_enter, if_neg h.ids_ne, if_pos rfl]

theorem order_sell : orderOf (enter w p) p.2.id = some p.2.close := by
  rw [orderOf_enter, if_pos rfl]

/-- A clean match adds its quantity to the buys of its instrument and to its sells. -/
theorem Clean.positionTotal_enter (h : Clean w p) (hb : Booked w) (I : Instrument) (side : Bool) :
    positionTotal side I (enter w p) = positionTotal side I w
      + if p.1.instrument = I then p.1.quantity.val else 0 := by
  have hbuy₀ := hb.open_position h.buy_stored h.buy_open p.1.owner
  have hsell₀ := hb.open_position h.sell_stored h.sell_open p.2.owner
  -- what the two orders hold, before and after
  have hbuy : held side I w p.1.id (orderOf w p.1.id) = 0 := by
    rw [held_of_order h.buy_stored rfl rfl hbuy₀]
    exact ite_self _
  have hsell : held side I w p.2.id (orderOf w p.2.id) = 0 := by
    rw [held_of_order h.sell_stored rfl rfl hsell₀]
    exact ite_self _
  have hbuy' : held side I (enter w p) p.1.id (orderOf (enter w p) p.1.id)
      = if true = side ∧ p.1.instrument = I then p.1.quantity.val else 0 :=
    held_of_order h.order_buy h.buy rfl h.position_buy
  have hsell' : held side I (enter w p) p.2.id (orderOf (enter w p) p.2.id)
      = if false = side ∧ p.1.instrument = I then p.1.quantity.val else 0 :=
    held_of_order order_sell h.crosses.1 h.instrument.symm h.position_sell
  unfold positionTotal
  cases side with
  | true =>
    have hother : ∀ id, id ≠ p.1.id → held true I (enter w p) id (orderOf (enter w p) id)
        = held true I w id (orderOf w id) := by
      intro id hid
      by_cases hid₂ : id = p.2.id
      · rw [hid₂, hsell, hsell']
        simp
      · exact held_enter_of_ne hid hid₂
    rw [finsum_update p.1.id (held_finite true I w) hother, hbuy, hbuy']
    simp
  | false =>
    have hother : ∀ id, id ≠ p.2.id → held false I (enter w p) id (orderOf (enter w p) id)
        = held false I w id (orderOf w id) := by
      intro id hid
      by_cases hid₁ : id = p.1.id
      · rw [hid₁, hbuy, hbuy']
        simp
      · exact held_enter_of_ne hid₁ hid
    rw [finsum_update p.2.id (held_finite false I w) hother, hsell, hsell']
    simp

/-- What a match wrote is still there after orders and positions of other ids changed. -/
theorem Paired.congr {buyId sellId : UInt64} {price : I128} (h : Paired w buyId sellId price)
    (horder : ∀ id, id = buyId ∨ id = sellId → ∀ order, orderOf w id = some order →
      ∃ order', orderOf w' id = some order' ∧ order'.close = order.close)
    (hpos : ∀ id, id = buyId ∨ id = sellId → ∀ owner pos, positionOf w owner id = some pos →
      positionOf w' owner id = some pos) :
    Paired w' buyId sellId price := by
  obtain ⟨buy, sell, quantity, hbuy, hsell, hside₁, hside₂, hinst, hstrike, hprice, hpos₁, hpos₂⟩ :=
    h
  obtain ⟨buy', hbuy', hclose₁⟩ := horder buyId (.inl rfl) buy hbuy
  obtain ⟨sell', hsell', hclose₂⟩ := horder sellId (.inr rfl) sell hsell
  obtain ⟨c₁, rfl⟩ := Order.eq_of_close hclose₁
  obtain ⟨c₂, rfl⟩ := Order.eq_of_close hclose₂
  exact ⟨_, _, quantity, hbuy', hsell', hside₁, hside₂, hinst, hstrike, hprice,
    hpos buyId (.inl rfl) _ _ hpos₁, hpos sellId (.inr rfl) _ _ hpos₂⟩

/-- Only the entries and the matches in the log count. -/
theorem Conserves.congr (h : Conserves w) (hpers : w'.pers = w.pers)
    (hevents : w'.events = w.events) : Conserves w' := by
  obtain ⟨inst, pers, instLive, persLive, events, transfers, writes, wasm, ext⟩ := w'
  cases hpers
  cases hevents
  exact ⟨h.totals, h.once, h.pairs, h.remainder⟩

theorem matchedIds_enter : matchedIds (enter w p) = matchedIds w ++ [p.1.id, p.2.id] := by
  simp [matchedIds, enter, matchEvent, Event.parties]

/-- A clean pair adds the same quantity on both sides of one instrument. -/
theorem Conserves.enter (h : Conserves w) (hb : Booked w) (hp : Clean w p) :
    Conserves (enter w p) := by
  have hfresh₁ := h.ne_party hb hp.buy_stored hp.buy_open
  have hfresh₂ := h.ne_party hb hp.sell_stored hp.sell_open
  have hbuy₀ := hb.open_position hp.buy_stored hp.buy_open
  have hsell₀ := hb.open_position hp.sell_stored hp.sell_open
  refine ⟨?_, ?_, ?_, ?_⟩
  · intro I
    rw [hp.positionTotal_enter hb, hp.positionTotal_enter hb, h.totals I]
  · rw [matchedIds_enter]
    refine List.nodup_append.mpr ⟨h.once, by simpa using hp.ids_ne, ?_⟩
    intro i hi j hj hij
    rw [hij] at hi
    simp only [List.mem_cons, List.not_mem_nil, or_false] at hj
    rcases hj with rfl | rfl
    · exact hfresh₁ hi
    · exact hfresh₂ hi
  · intro buyId sellId price hmem
    rcases List.mem_append.mp hmem with hold | hnew
    · have hne : ∀ id, id = buyId ∨ id = sellId → id ≠ p.1.id ∧ id ≠ p.2.id := by
        intro id hid
        have hparty : id ∈ matchedIds w :=
          List.mem_flatMap.mpr ⟨_, hold, by simpa [Event.parties] using hid⟩
        exact ⟨fun heq => hfresh₁ (heq ▸ hparty), fun heq => hfresh₂ (heq ▸ hparty)⟩
      refine (h.pairs buyId sellId price hold).congr ?_ ?_
      · intro id hid order hstored
        rw [orderOf_enter, if_neg (hne id hid).2, if_neg (hne id hid).1]
        exact ⟨order, hstored, rfl⟩
      · intro id hid owner pos hpos
        rw [positionOf_enter, if_neg fun hkey => (hne id hid).2 hkey.2,
          if_neg fun hkey => (hne id hid).1 hkey.2]
        exact hpos
    · obtain ⟨rfl, rfl, rfl⟩ : buyId = p.1.id ∧ sellId = p.2.id ∧ price = p.2.strikePrice := by
        simpa [matchEvent] using hnew
      exact ⟨p.1.close, p.2.close, p.1.quantity, hp.order_buy, order_sell, hp.buy, hp.crosses.1,
        hp.instrument, hp.crosses.2.2, rfl, hp.position_buy, hp.position_sell⟩
  · intro id order pos hstored hpos
    rw [orderOf_enter] at hstored
    split at hstored
    · next hid =>
      cases hstored
      subst hid
      have hsame := hp.position_sell.symm.trans hpos
      cases hsame
      left
      show p.2.quantity.val - p.1.quantity.val = 0
      rw [hp.quantity, Int.sub_self]
    · next hid₂ =>
      split at hstored
      · next hid =>
        cases hstored
        subst hid
        have hsame := hp.position_buy.symm.trans hpos
        cases hsame
        exact .inl (Int.sub_self _)
      · next hid₁ =>
        rw [positionOf_enter, if_neg fun hkey => hid₂ hkey.2, if_neg fun hkey => hid₁ hkey.2]
          at hpos
        exact h.remainder id order pos hstored hpos

end Enter

/-! ## A tidy snapshot -/

/-- Two pairs without an order in common. -/
def Apart (p q : Order × Order) : Prop :=
  p.1.id ≠ q.1.id ∧ p.1.id ≠ q.2.id ∧ p.2.id ≠ q.1.id ∧ p.2.id ≠ q.2.id

section Tidy

variable {w w' : World X} {p q : Order × Order} {ps : List (Order × Order)}

/-- Entering another pair, with no order in common, leaves it clean. -/
theorem Clean.enter (h : Clean w q) (hpq : Apart p q) : Clean (enter w p) q := by
  obtain ⟨h₁, h₂, h₃, h₄⟩ := hpq
  refine ⟨?_, h.buy_open, h.buy, ?_, h.sell_open, h.crosses, h.instrument, h.quantity⟩
  · rw [orderOf_enter, if_neg h₃.symm, if_neg h₁.symm]
    exact h.buy_stored
  · rw [orderOf_enter, if_neg h₄.symm, if_neg h₂.symm]
    exact h.sell_stored

/-- By induction over the pairs of a matching. -/
theorem Conserves.foldl (h : Conserves w) (hb : Booked w) (hps : ∀ p ∈ ps, Clean w p)
    (hapart : ps.Pairwise Apart) : Conserves (ps.foldl Derivatives.enter w) := by
  induction ps generalizing w with
  | nil => exact h
  | cons p ps ih =>
    obtain ⟨hhead, htail⟩ := List.pairwise_cons.mp hapart
    have hp := hps p (by simp)
    exact ih (h.enter hb hp) (hb.enter hp.ready)
      (fun q hq => (hps q (by simp [hq])).enter (hhead q hq)) htail

/-- In a tidy book every pair that is picked is clean. -/
theorem Tidy.clean (h : Tidy (openOrders w)) (hb : Booked w)
    (hpicks : Picks (openOrders w) p.1 p.2) : Clean w p := by
  obtain ⟨hunderlying, hexpiry, hquantity⟩ := h.fits _ _ hpicks
  have hbuy := hb.open_stored hpicks.mem_left
  have hsell := hb.open_stored hpicks.mem_right
  refine ⟨hbuy.1, hbuy.2, hpicks.isBuy, hsell.1, hsell.2, hpicks.crosses, ?_, hquantity⟩
  unfold Order.instrument
  rw [hpicks.crosses.2.1, hunderlying, hexpiry]

/-- A buy of one pair is not a sell of another. -/
theorem Booked.sides_ne (hb : Booked w) (hp : Picks (openOrders w) p.1 p.2)
    (hq : Picks (openOrders w) q.1 q.2) : p.1.id ≠ q.2.id := by
  intro hid
  have heq := hb.open_inj hp.mem_left hq.mem_right hid
  exact hq.crosses.ne hp.isBuy heq

/-- And no order is in two of them. -/
theorem Tidy.pairwise (h : Tidy (openOrders w)) (hb : Booked w) :
    (picks (openOrders w)).Pairwise Apart := by
  refine (picks_pairwise hb.open_pairwise).imp_of_mem ?_
  intro p q hp hq hne
  have hp := mem_picks.mp hp
  have hq := mem_picks.mp hq
  refine ⟨hne, hb.sides_ne hp hq, (hb.sides_ne hq hp).symm, ?_⟩
  intro hid
  -- the two buys ended at the same sell
  have hsell := hb.open_inj hp.mem_right hq.mem_right hid
  rw [hsell] at hp
  exact hne (by rw [h.apart _ _ _ hp hq])

/-- A tidy `match_orders` conserves. -/
theorem Conserves.recorded (h : Conserves w) (hb : Booked w) (htidy : Tidy (openOrders w))
    (hrecorded : Recorded (picks (openOrders w)) w w') : Conserves w' := by
  have hfold := h.foldl hb (fun p hp => htidy.clean hb (mem_picks.mp hp)) (htidy.pairwise hb)
  exact hfold.congr hrecorded.eq_foldl.1 hrecorded.eq_foldl.2

end Tidy

/-! ## The other effects -/

section Others

variable {auth : List Address} {w w' : World X} {id : UInt64} {order : Order}

/-- The total is a sum over the orders. -/
theorem positionTotal_congr {side : Bool} {I : Instrument}
    (h : ∀ id, held side I w' id (orderOf w' id) = held side I w id (orderOf w id)) :
    positionTotal side I w' = positionTotal side I w := by
  unfold positionTotal
  exact finsum_congr h

/-- A placed order has no position yet. -/
theorem Conserves.place (h : Conserves w) (hb : Booked w) (hroom : HasRoom w)
    (hp : Places auth order w w') : Conserves w' := by
  have hfree := (hb.next_free hroom).1
  rw [← hp.id] at hfree
  have hnone : ∀ owner, positionOf w owner order.id = none := by
    intro owner
    cases hpos : positionOf w owner order.id with
    | none => rfl
    | some pos =>
      obtain ⟨other, hother, -⟩ := hb.positions owner order.id pos hpos
      rw [hfree] at hother
      cases hother
  have hkeep : ∀ j other, orderOf w j = some other → orderOf w' j = some other := by
    intro j other hj
    rw [orderOf_place hp, if_neg, hj]
    rintro rfl
    rw [hfree] at hj
    cases hj
  have htotal : ∀ side I, positionTotal side I w' = positionTotal side I w := by
    intro side I
    refine positionTotal_congr fun j => ?_
    rw [orderOf_place hp]
    unfold held
    simp only [positionOf_place hp]
    split
    · next hj =>
      rw [hj, hfree]
      simp [hnone]
    · rfl
  refine ⟨?_, ?_, ?_, ?_⟩
  · intro I
    rw [htotal, htotal, h.totals I]
  · have hids : matchedIds w' = matchedIds w := by
      unfold matchedIds
      rw [hp.events]
      simp [Event.parties]
    rw [hids]
    exact h.once
  · intro buyId sellId price hmem
    rw [hp.events] at hmem
    have hold : .matched buyId sellId price ∈ w.events := by simpa using hmem
    refine (h.pairs buyId sellId price hold).congr ?_ ?_
    · intro j _ other hj
      exact ⟨other, hkeep j other hj, rfl⟩
    · intro j _ owner pos hpos
      rw [positionOf_place hp]
      exact hpos
  · intro j stored pos hstored hpos
    rw [positionOf_place hp] at hpos
    rw [orderOf_place hp] at hstored
    split at hstored
    · next hj =>
      cases hstored
      rw [hj, hnone] at hpos
      cases hpos
    · exact h.remainder j stored pos hstored hpos

/-- Closing an open order, which has no position, conserves. -/
theorem Conserves.close (h : Conserves w) (hb : Booked w) (hstored : orderOf w id = some order)
    (hopen : order.settled = false) (hpers : w'.pers = w.pers.set (.order id) order.close)
    (hevents : matchedIds w' = matchedIds w)
    (hmatched : ∀ buyId sellId price, .matched buyId sellId price ∈ w'.events →
      .matched buyId sellId price ∈ w.events) : Conserves w' := by
  have hnone := hb.open_position hstored hopen
  have htotal : ∀ side I, positionTotal side I w' = positionTotal side I w := by
    intro side I
    refine positionTotal_congr fun j => ?_
    rw [orderOf_close hpers]
    unfold held
    simp only [positionOf_close hpers]
    split
    · next hj =>
      rw [hj, hstored]
      rfl
    · rfl
  refine ⟨?_, ?_, ?_, ?_⟩
  · intro I
    rw [htotal, htotal, h.totals I]
  · rw [hevents]
    exact h.once
  · intro buyId sellId price hmem
    refine (h.pairs buyId sellId price (hmatched _ _ _ hmem)).congr ?_ ?_
    · intro j _ other hj
      rw [orderOf_close hpers]
      split
      · next hid =>
        rw [hid, hstored] at hj
        cases hj
        exact ⟨_, rfl, rfl⟩
      · exact ⟨other, hj, rfl⟩
    · intro j _ owner pos hpos
      rw [positionOf_close hpers]
      exact hpos
  · intro j stored pos hj hpos
    rw [positionOf_close hpers] at hpos
    rw [orderOf_close hpers] at hj
    split at hj
    · next hid =>
      rw [hid, hnone] at hpos
      cases hpos
    · exact h.remainder j stored pos hj hpos

/-- On a fresh contract both totals are zero. -/
theorem Conserves.of_fresh (h : Machine.Fresh w) : Conserves w := by
  have hget : ∀ k, w.pers.get k = none := by
    intro k
    rw [h.pers]
    rfl
  have horder : ∀ id, orderOf w id = none := fun id => hget (.order id)
  refine ⟨?_, ?_, ?_, ?_⟩
  · intro I
    unfold positionTotal
    simp only [horder]
    rfl
  · unfold matchedIds
    rw [h.events]
    simp
  · rw [h.events]
    simp
  · intro id order pos hstored
    rw [horder] at hstored
    cases hstored

end Others

/-! ## What an untidy snapshot breaks -/

section Converse

variable {w w' : World X} {order : Order} {ps : List (Order × Order)}

theorem InBook.congr (h : InBook w order) (hpers : w'.pers = w.pers) : InBook w' order := by
  unfold InBook orderOf
  rw [hpers]
  exact h

/-- An element common to two lists of a duplicate-free concatenation comes from one of them. -/
theorem eq_of_mem_flatMap {ι κ : Type} {l : List ι} {f : ι → List κ} (h : (l.flatMap f).Nodup)
    {a b : ι} (ha : a ∈ l) (hb : b ∈ l) {x : κ} (hxa : x ∈ f a) (hxb : x ∈ f b) : a = b := by
  by_contra hne
  have hsymm : Std.Symm (Function.onFun List.Disjoint f) := ⟨fun _ _ hdisj => hdisj.symm⟩
  exact (List.nodup_flatMap.mp h).2.forall ha hb hne hxa hxb

/-- If the state after a `match_orders` conserves, its snapshot was tidy. -/
theorem Tidy.of_conserves (hb : Booked w) (hrecorded : Recorded (picks (openOrders w)) w w')
    (h : Conserves w') : Tidy (openOrders w) := by
  have hb' : Booked w' := hb.recorded hrecorded
  have hin : ∀ order ∈ openOrders w, InBook w' order := by
    intro order horder
    have hstored := hb.open_stored horder
    have hfold := foldl_enter (P := fun w => InBook w order) (fun _ _ => InBook.enter)
      ⟨order, hstored.1, rfl⟩ hb.picks_ready
    exact hfold.congr hrecorded.eq_foldl.1
  have hevent : ∀ buy sell, Picks (openOrders w) buy sell →
      .matched buy.id sell.id sell.strikePrice ∈ w'.events := by
    intro buy sell hpicks
    rw [hrecorded.events]
    exact List.mem_append_right _ (List.mem_map.mpr ⟨(buy, sell), mem_picks.mpr hpicks, rfl⟩)
  refine ⟨?_, ?_⟩
  · intro buy sell hpicks
    obtain ⟨buy', sell', quantity, hbuy', hsell', -, -, hinst, -, -, hpos₁, hpos₂⟩ :=
      h.pairs _ _ _ (hevent buy sell hpicks)
    -- the stored copies are those of the snapshot, closed
    have hcopy : ∀ order ∈ openOrders w, ∀ stored, orderOf w' order.id = some stored →
        stored.close = order.close := by
      intro order horder stored hstored
      obtain ⟨other, hother, hclose⟩ := hin order horder
      rw [hstored] at hother
      cases hother
      exact hclose
    have hclose₁ := hcopy buy hpicks.mem_left buy' hbuy'
    have hclose₂ := hcopy sell hpicks.mem_right sell' hsell'
    -- a closed order with a position has no remainder
    have hfull : ∀ id stored qty price, orderOf w' id = some stored →
        positionOf w' stored.owner id = some (stored.position qty price) →
        stored.quantity = qty := by
      intro id stored qty price hstored hpos
      obtain ⟨other, hother, -, hsettled⟩ := hb'.positions _ _ _ hpos
      rw [hstored] at hother
      cases hother
      rcases h.remainder id stored _ hstored hpos with hzero | hopen
      · exact I128.ext (Int.sub_eq_zero.mp hzero)
      · rw [hsettled] at hopen
        cases hopen
    have hqty : buy'.quantity = sell'.quantity :=
      (hfull _ _ _ _ hbuy' hpos₁).trans (hfull _ _ _ _ hsell' hpos₂).symm
    obtain ⟨c₁, rfl⟩ := Order.eq_of_close hclose₁
    obtain ⟨c₂, rfl⟩ := Order.eq_of_close hclose₂
    exact ⟨congrArg Instrument.underlying hinst, congrArg Instrument.expiry hinst, hqty⟩
  · intro buy buy' sell hpicks hpicks'
    have honce := h.once
    unfold matchedIds at honce
    rw [hrecorded.events, List.flatMap_append, List.nodup_append, List.flatMap_map] at honce
    have hsame := eq_of_mem_flatMap (x := sell.id) honce.2.1 (mem_picks.mpr hpicks)
      (mem_picks.mpr hpicks') (by simp [matchEvent, Event.parties])
      (by simp [matchEvent, Event.parties])
    exact (Prod.mk.inj hsame).1

end Converse

/-! ## Runs -/

section Runs

variable {chain : Chain X} {w₀ : World X} {o : Occ (World X) (Action X)}

/-- A matching writes the positions of the matched orders only. -/
theorem positionOf_foldl {w : World X} {ps : List (Order × Order)} {owner : Address} {id : UInt64}
    (h : ∀ p ∈ ps, id ≠ p.1.id ∧ id ≠ p.2.id) :
    positionOf (ps.foldl enter w) owner id = positionOf w owner id := by
  induction ps generalizing w with
  | nil => rfl
  | cons p ps ih =>
    obtain ⟨h₁, h₂⟩ := h p (by simp)
    rw [List.foldl_cons, ih fun q hq => h q (by simp [hq]), positionOf_enter,
      if_neg fun hkey => h₂ hkey.2, if_neg fun hkey => h₁ hkey.2]

/-- Positions of earlier calls belong to closed orders, which are in no snapshot. -/
theorem Recorded.keeps {w w' : World X} (hb : Booked w)
    (h : Recorded (picks (openOrders w)) w w') {owner : Address} {id : UInt64} {pos : Position}
    (hpos : positionOf w owner id = some pos) : positionOf w' owner id = some pos := by
  obtain ⟨order, hstored, -, hsettled⟩ := hb.positions owner id pos hpos
  have hne : ∀ other ∈ openOrders w, id ≠ other.id := by
    rintro other hother rfl
    obtain ⟨hsame, hopen⟩ := hb.open_stored hother
    rw [hstored] at hsame
    cases hsame
    rw [hopen] at hsettled
    cases hsettled
  have hsame : positionOf w' owner id
      = positionOf ((picks (openOrders w)).foldl Derivatives.enter w) owner id := by
    unfold positionOf
    rw [h.eq_foldl.1]
  rw [hsame, positionOf_foldl, hpos]
  intro p hp
  have hpicks := mem_picks.mp hp
  exact ⟨hne _ hpicks.mem_left, hne _ hpicks.mem_right⟩

/-- Every step keeps the positions there are: a matching writes those of open orders, which have none. -/
theorem keepsPositions_of_step (hb : Booked o.before) (hstep : IsStep (step chain) o) :
    KeepsPositions o := by
  intro owner id pos hpos
  rcases Machine.succeeds_or_outside hstep with ⟨c, hc⟩ | ⟨x, hx⟩
  · obtain ⟨r, hexec⟩ := hc.2
    cases exec_effect hexec with
    | placed order entry heffect =>
      rw [positionOf_place heffect]
      exact hpos
    | matched entry heffect => exact heffect.keeps hb hpos
    | settled caller j order entry heffect =>
      rw [positionOf_close heffect.pers]
      exact hpos
    | cancelled caller j order entry heffect =>
      rw [positionOf_close heffect.pers]
      exact hpos
    | view same =>
      rw [same]
      exact hpos
  · rw [hx]
    exact hpos

/-- A matching over a tidy book, or a step that writes no position. -/
theorem Conserves.after_step (h : Conserves o.before) (hb : Booked o.before)
    (hstep : IsStep (step chain) o) (hroom : RoomFor chain o) (htidy : MatchesTidily chain o) :
    Conserves o.after := by
  rcases Machine.succeeds_or_outside hstep with ⟨c, hc⟩ | ⟨x, hx⟩
  · obtain ⟨r, hexec⟩ := hc.2
    cases exec_effect hexec with
    | placed order entry heffect => exact h.place hb (hroom c hc (by simp [entry])) heffect
    | matched entry heffect => exact h.recorded hb (htidy c hc entry) heffect
    | settled caller j order entry heffect =>
      refine h.close hb heffect.stored heffect.isOpen heffect.pers ?_ ?_
      · unfold matchedIds
        rw [heffect.events]
        simp [Event.parties]
      · intro buyId sellId price hmem
        rw [heffect.events] at hmem
        simpa using hmem
    | cancelled caller j order entry heffect =>
      refine h.close hb heffect.stored heffect.isOpen heffect.pers ?_ ?_
      · unfold matchedIds
        rw [heffect.events]
      · intro buyId sellId price hmem
        rw [heffect.events] at hmem
        exact hmem
    | view same =>
      rw [same]
      exact h
  · rw [hx]
    exact h.congr rfl rfl

/-- A run conserves quantity in every state it reaches exactly when each of its `match_orders`
started from a tidy snapshot. -/
theorem conserves_iff (h₀ : Machine.Fresh w₀) (acts : List (Action X))
    (hroom : ∀ o ∈ trace (step chain) w₀ acts, RoomFor chain o) :
    ((∀ acts₁, acts₁ <+: acts → Conserves (run (step chain) w₀ acts₁)) ∧
      ∀ o ∈ trace (step chain) w₀ acts, KeepsPositions o) ↔
    ∀ o ∈ trace (step chain) w₀ acts, MatchesTidily chain o := by
  have hbooked : ∀ o ∈ trace (step chain) w₀ acts, Booked o.before := by
    intro o ho
    obtain ⟨l₁, l₂, hacts, hbefore, -⟩ := trace_mem (step chain) ho
    rw [hbefore]
    refine booked_run h₀ fun q hq => hroom q ?_
    rw [hacts, trace_append]
    exact List.mem_append_left _ hq
  constructor
  · rintro ⟨hconserves, -⟩ o ho c hc hentry
    obtain ⟨l₁, l₂, hacts, hbefore, hafter⟩ := trace_mem (step chain) ho
    obtain ⟨r, hexec⟩ := hc.2
    refine .of_conserves (hbooked o ho) (exec_matchOrders hentry hexec) ?_
    rw [hafter, hbefore, ← run_concat (step chain)]
    refine hconserves (l₁ ++ [o.act]) ?_
    rw [hacts]
    exact ⟨l₂, by simp⟩
  · intro htidy
    refine ⟨?_, fun o ho => keepsPositions_of_step (hbooked o ho) (isStep_of_mem _ ho)⟩
    rintro acts₁ ⟨l₂, rfl⟩
    refine run_invariant_of_trace (step chain) (P := Conserves) (.of_fresh h₀) ?_
    intro o ho hbefore
    have hmem : o ∈ trace (step chain) w₀ (acts₁ ++ l₂) := by
      rw [trace_append]
      exact List.mem_append_left _ ho
    exact hbefore.after_step (hbooked o hmem) (isStep_of_mem _ ho) (hroom o hmem) (htidy o hmem)

end Runs

/-! ## A tidy run and an untidy one

The contract at address 0 of the standard network with a clock; everybody holds 1000 of every
token. -/

def sampleChain : Chain (Clocked Balances) := (standardChain ⟨0⟩).clocked

def sampleWorld : World (Clocked Balances) := Machine.freshEnv ⟨fun _ _ => 1000, 0⟩

def callSymbol : Symbol := ⟨['C', 'A', 'L', 'L']⟩

/-- A buy and a sell of the same quantity of one instrument. -/
def tidyOrders : List (Action (Clocked Balances)) :=
  [.call ⟨1, [⟨5⟩], .placeOrder ⟨5⟩ callSymbol ⟨1⟩ 100 9999 10 true⟩,
    .call ⟨1, [⟨6⟩], .placeOrder ⟨6⟩ callSymbol ⟨1⟩ 100 9999 10 false⟩, .call ⟨2, [], .matchOrders⟩]

/-- Two orders of one product cross in a tidy book. -/
theorem conserves_iff_sample :
    let w := run (step sampleChain) sampleWorld tidyOrders
    Conserves w ∧ matchedIds w = [1, 2] ∧
      positionOf w ⟨5⟩ 1 = some ⟨⟨5⟩, 1, 10, 100⟩ ∧ positionOf w ⟨6⟩ 2 = some ⟨⟨6⟩, 2, 10, 100⟩ := by
  intro w
  have hfresh : Machine.Fresh sampleWorld := Machine.freshEnv_fresh _
  have hroom : ∀ o ∈ trace (step sampleChain) sampleWorld tidyOrders, RoomFor sampleChain o := by
    intro o ho c hc hplaces
    simp only [tidyOrders, trace, List.mem_cons, List.not_mem_nil, or_false] at ho
    rcases ho with rfl | rfl | rfl
    · show 0 + 1 < 2 ^ 64
      decide
    · show 1 + 1 < 2 ^ 64
      decide
    · cases hc.1
      exact absurd rfl hplaces
  have htidy : ∀ o ∈ trace (step sampleChain) sampleWorld tidyOrders,
      MatchesTidily sampleChain o := by
    intro o ho c hc hentry
    simp only [tidyOrders, trace, List.mem_cons, List.not_mem_nil, or_false] at ho
    rcases ho with rfl | rfl | rfl
    · cases hc.1
      cases hentry
    · cases hc.1
      cases hentry
    · have hpicks : ∀ buy sell, Picks (openOrders (run (step sampleChain) sampleWorld
          (tidyOrders.take 2))) buy sell → buy = ⟨1, ⟨5⟩, callSymbol, ⟨1⟩, 100, 9999, 10, true, false⟩ ∧
            sell = ⟨2, ⟨6⟩, callSymbol, ⟨1⟩, 100, 9999, 10, false, false⟩ := by
        intro buy sell h
        have hmem := mem_picks.mpr h
        exact Prod.mk.inj (List.mem_singleton.mp hmem)
      refine ⟨?_, ?_⟩
      · intro buy sell h
        obtain ⟨rfl, rfl⟩ := hpicks buy sell h
        exact ⟨rfl, rfl, rfl⟩
      · intro buy buy' sell h h'
        rw [(hpicks buy sell h).1, (hpicks buy' sell h').1]
  have hsafe := ((conserves_iff hfresh tidyOrders hroom).mpr htidy).1 tidyOrders
    (List.prefix_refl _)
  exact ⟨hsafe, rfl, rfl, rfl⟩

/-- Two buys end at one sell of half the first one's quantity and of another underlying than the
second's. -/
def untidyOrders : List (Action (Clocked Balances)) :=
  [.call ⟨1, [⟨5⟩], .placeOrder ⟨5⟩ callSymbol ⟨1⟩ 100 9999 10 true⟩,
    .call ⟨1, [⟨6⟩], .placeOrder ⟨6⟩ callSymbol ⟨2⟩ 100 9999 5 true⟩,
    .call ⟨1, [⟨7⟩], .placeOrder ⟨7⟩ callSymbol ⟨1⟩ 90 9999 5 false⟩, .call ⟨2, [], .matchOrders⟩]

/-- The sell is matched twice, once with a buy of another instrument, and the rest of the first buy
is closed with it. -/
theorem conserves_fails :
    let w := run (step sampleChain) sampleWorld untidyOrders
    Machine.Fresh sampleWorld ∧
    (∀ o ∈ trace (step sampleChain) sampleWorld untidyOrders, RoomFor sampleChain o) ∧
    matchedIds w = [1, 3, 2, 3] ∧ ¬Paired w 2 3 90 ∧
    orderOf w 1 = some ⟨1, ⟨5⟩, callSymbol, ⟨1⟩, 100, 9999, 10, true, true⟩ ∧
    positionOf w ⟨5⟩ 1 = some ⟨⟨5⟩, 1, 5, 90⟩ ∧ positionOf w ⟨6⟩ 2 = some ⟨⟨6⟩, 2, 5, 90⟩ ∧
    positionOf w ⟨7⟩ 3 = some ⟨⟨7⟩, 3, 5, 90⟩ ∧ ¬Conserves w := by
  intro w
  have hroom : ∀ o ∈ trace (step sampleChain) sampleWorld untidyOrders, RoomFor sampleChain o := by
    intro o ho c hc hplaces
    simp only [untidyOrders, trace, List.mem_cons, List.not_mem_nil, or_false] at ho
    rcases ho with rfl | rfl | rfl | rfl
    · show 0 + 1 < 2 ^ 64
      decide
    · show 1 + 1 < 2 ^ 64
      decide
    · show 2 + 1 < 2 ^ 64
      decide
    · cases hc.1
      exact absurd rfl hplaces
  have hids : matchedIds w = [1, 3, 2, 3] := rfl
  have hpaired : ¬Paired w 2 3 90 := by
    rintro ⟨buy, sell, quantity, hbuy, hsell, -, -, hinst, -⟩
    have hbuy' : orderOf w 2 = some ⟨2, ⟨6⟩, callSymbol, ⟨2⟩, 100, 9999, 5, true, true⟩ := rfl
    have hsell' : orderOf w 3 = some ⟨3, ⟨7⟩, callSymbol, ⟨1⟩, 90, 9999, 5, false, true⟩ := rfl
    rw [Option.some.inj (hbuy.symm.trans hbuy'), Option.some.inj (hsell.symm.trans hsell')] at hinst
    exact absurd hinst (by decide)
  refine ⟨Machine.freshEnv_fresh _, hroom, hids, hpaired, rfl, rfl, rfl, rfl, ?_⟩
  intro hconserves
  have honce := hconserves.once
  rw [hids] at honce
  exact absurd honce (by decide)

end Derivatives
