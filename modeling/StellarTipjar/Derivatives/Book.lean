import StellarTipjar.Derivatives.Effects

/-!
# Derivatives — the book of orders

What holds of the storage whatever is called, as long as the counter of orders does not wrap:
ids are used once, and a position belongs to an order that is closed (`Booked`). Matching is
followed pair by pair: `enter` is one match, and a pair can be entered when its two orders are
still those of the snapshot up to the flag (`Ready`).

`Picks` says declaratively which pairs the loops of `match_orders` arrive at: every buy takes the
first sell behind it that crosses it, whether or not an earlier buy took the same one.
-/

namespace Derivatives

open Lib Soroban Contract

variable {X : Type}

/-! ## The pairs of a snapshot -/

/-- In `orders`, `sell` is the first order behind `buy` that crosses it. -/
def Picks (orders : List Order) (buy sell : Order) : Prop :=
  ∃ l₁ l₂ l₃, orders = l₁ ++ buy :: (l₂ ++ sell :: l₃) ∧ buy.isBuy = true ∧ Crosses buy sell ∧
    ∀ x ∈ l₂, ¬Crosses buy x

section Picks

variable {orders rest : List Order} {a buy sell : Order}

/-- The inner loop stops at the first order that crosses. -/
theorem pick_eq_some : pick a rest = some (buy, sell) ↔
    buy = a ∧ Crosses a sell ∧ ∃ l₂ l₃, rest = l₂ ++ sell :: l₃ ∧ ∀ x ∈ l₂, ¬Crosses a x := by
  unfold pick
  rw [Option.map_eq_some_iff]
  constructor
  · rintro ⟨s, hfind, heq⟩
    cases heq
    obtain ⟨hcrosses, l₂, l₃, hrest, hfirst⟩ := List.find?_eq_some_iff_append.mp hfind
    exact ⟨rfl, by simpa using hcrosses, l₂, l₃, hrest, fun x hx => by simpa using hfirst x hx⟩
  · rintro ⟨rfl, hcrosses, l₂, l₃, hrest, hfirst⟩
    refine ⟨sell, List.find?_eq_some_iff_append.mpr ?_, rfl⟩
    exact ⟨by simpa using hcrosses, l₂, l₃, hrest, fun x hx => by simpa using hfirst x hx⟩

/-- What the two loops collect: for every buy the first order behind it that crosses. -/
theorem mem_picks : (buy, sell) ∈ picks orders ↔ Picks orders buy sell := by
  induction orders with
  | nil => simp [picks, Picks]
  | cons a rest ih =>
    rw [picks, List.mem_append, ih, Option.mem_toList]
    constructor
    · rintro (hpick | ⟨l₁, l₂, l₃, rfl, hpicks⟩)
      · split at hpick
        · next hbuy =>
          obtain ⟨rfl, hcrosses, l₂, l₃, rfl, hfirst⟩ := pick_eq_some.mp hpick
          exact ⟨[], l₂, l₃, rfl, hbuy, hcrosses, hfirst⟩
        · cases hpick
      · exact ⟨a :: l₁, l₂, l₃, rfl, hpicks⟩
    · rintro ⟨l₁, l₂, l₃, horders, hbuy, hcrosses, hfirst⟩
      cases l₁ with
      | nil =>
        obtain ⟨rfl, rfl⟩ := List.cons.inj horders
        left
        rw [if_pos hbuy]
        exact pick_eq_some.mpr ⟨rfl, hcrosses, l₂, l₃, rfl, hfirst⟩
      | cons b l₁ =>
        obtain ⟨rfl, rfl⟩ := List.cons.inj horders
        exact .inr ⟨l₁, l₂, l₃, rfl, hbuy, hcrosses, hfirst⟩

theorem picks_of_mem {p : Order × Order} (hp : p ∈ picks orders) : Picks orders p.1 p.2 :=
  mem_picks.mp hp

theorem Picks.mem_left (h : Picks orders buy sell) : buy ∈ orders := by
  obtain ⟨l₁, l₂, l₃, rfl, -⟩ := h
  simp

theorem Picks.mem_right (h : Picks orders buy sell) : sell ∈ orders := by
  obtain ⟨l₁, l₂, l₃, rfl, -⟩ := h
  simp

/-- The first of the two is a buy. -/
theorem Picks.isBuy (h : Picks orders buy sell) : buy.isBuy = true := by
  obtain ⟨l₁, l₂, l₃, -, hbuy, -⟩ := h
  exact hbuy

/-- The two cross. -/
theorem Picks.crosses (h : Picks orders buy sell) : Crosses buy sell := by
  obtain ⟨l₁, l₂, l₃, -, -, hcrosses, -⟩ := h
  exact hcrosses

/-- Every order is a buyer at most once. -/
theorem picks_pairwise (h : orders.Pairwise fun a b => a.id ≠ b.id) :
    (picks orders).Pairwise fun p q => p.1.id ≠ q.1.id := by
  induction orders with
  | nil => simp [picks]
  | cons a rest ih =>
    obtain ⟨hhead, htail⟩ := List.pairwise_cons.mp h
    rw [picks]
    refine List.pairwise_append.mpr ⟨?_, ih htail, ?_⟩
    · cases (if a.isBuy then pick a rest else none) <;> simp
    · intro p hp q hq
      have hfirst : p.1 = a := by
        split at hp
        · obtain ⟨buy, sell⟩ := p
          exact (pick_eq_some.mp (Option.mem_toList.mp hp)).1
        · cases Option.mem_toList.mp hp
      rw [hfirst]
      exact hhead q.1 (picks_of_mem hq).mem_left

end Picks

/-! ## Entering a match -/

/-- How many orders were placed. The count wraps around at `2^64`. -/
def countOf (w : World X) : UInt64 := (w.pers.get .orderCount : Option UInt64).getD 0

/-- One match entered into the storage and the log. -/
def enter (w : World X) (p : Order × Order) : World X :=
  { w with pers := applyMatch w.pers p, events := w.events ++ [matchEvent p] }

/-- The order is stored as it stands in the snapshot, or closed since. -/
def InBook (w : World X) (order : Order) : Prop :=
  ∃ stored, orderOf w order.id = some stored ∧ stored.close = order.close

/-- The pair is one of two orders of the book. -/
def Ready (w : World X) (p : Order × Order) : Prop :=
  InBook w p.1 ∧ InBook w p.2 ∧ p.1.id ≠ p.2.id

section Enter

variable {w w' : World X} {p : Order × Order} {id : UInt64} {owner : Address} {order : Order}

/-- Entering a pair closes the two orders; where both have one id the sell, stored last, remains. -/
theorem orderOf_enter : orderOf (enter w p) id =
    if id = p.2.id then some p.2.close else if id = p.1.id then some p.1.close
    else orderOf w id := by
  show (applyMatch w.pers p).get (.order id) = _
  unfold applyMatch
  by_cases h₂ : id = p.2.id
  · rw [if_pos h₂, h₂, Store.get_set_self]
  · rw [if_neg h₂, Store.get_set_of_ne _ (by simpa using h₂)]
    by_cases h₁ : id = p.1.id
    · rw [if_pos h₁, h₁, Store.get_set_self]
    · rw [if_neg h₁, Store.get_set_of_ne _ (by simpa using h₁), Store.get_set_of_ne _ (by simp),
        Store.get_set_of_ne _ (by simp)]
      rfl

/-- Entering a pair writes the positions of the two owners; the one stored last remains. -/
theorem positionOf_enter : positionOf (enter w p) owner id =
    if owner = p.2.owner ∧ id = p.2.id then some (p.2.position (matchQty p.1 p.2) p.2.strikePrice)
    else if owner = p.1.owner ∧ id = p.1.id then
      some (p.1.position (matchQty p.1 p.2) p.2.strikePrice)
    else positionOf w owner id := by
  show (applyMatch w.pers p).get (.position owner id) = _
  unfold applyMatch
  rw [Store.get_set_of_ne _ (by simp), Store.get_set_of_ne _ (by simp)]
  by_cases h₂ : owner = p.2.owner ∧ id = p.2.id
  · rw [if_pos h₂, h₂.1, h₂.2, Store.get_set_self]
  · rw [if_neg h₂, Store.get_set_of_ne _ (by simpa using h₂)]
    by_cases h₁ : owner = p.1.owner ∧ id = p.1.id
    · rw [if_pos h₁, h₁.1, h₁.2, Store.get_set_self]
    · rw [if_neg h₁, Store.get_set_of_ne _ (by simpa using h₁)]
      rfl

@[simp] theorem idsOf_enter : idsOf (enter w p) = idsOf w := by
  unfold idsOf enter applyMatch
  simp

@[simp] theorem countOf_enter : countOf (enter w p) = countOf w := by
  unfold countOf enter applyMatch
  simp

/-- Entering a pair leaves every order of the book in it. -/
theorem InBook.enter (h : InBook w order) (hp : Ready w p) : InBook (enter w p) order := by
  obtain ⟨stored, hstored, hclose⟩ := h
  obtain ⟨⟨s₁, hs₁, hc₁⟩, ⟨s₂, hs₂, hc₂⟩, -⟩ := hp
  unfold InBook
  rw [orderOf_enter]
  by_cases h₂ : order.id = p.2.id
  · rw [if_pos h₂]
    rw [h₂, hs₂] at hstored
    cases hstored
    exact ⟨_, rfl, hc₂.symm.trans hclose⟩
  · rw [if_neg h₂]
    by_cases h₁ : order.id = p.1.id
    · rw [if_pos h₁]
      rw [h₁, hs₁] at hstored
      cases hstored
      exact ⟨_, rfl, hc₁.symm.trans hclose⟩
    · rw [if_neg h₁]
      exact ⟨stored, hstored, hclose⟩

/-- Entering a pair leaves the next pair ready: it may contain an order that is settled by now. -/
theorem Ready.enter {q : Order × Order} (h : Ready w q) (hp : Ready w p) :
    Ready (Derivatives.enter w p) q :=
  ⟨h.1.enter hp, h.2.1.enter hp, h.2.2⟩

/-- Entering a list of matches is entering them one by one. -/
theorem Recorded.eq_foldl {ps : List (Order × Order)} (h : Recorded ps w w') :
    w'.pers = (ps.foldl Derivatives.enter w).pers ∧
      w'.events = (ps.foldl Derivatives.enter w).events := by
  have hfold : (ps.foldl Derivatives.enter w).pers = ps.foldl applyMatch w.pers ∧
      (ps.foldl Derivatives.enter w).events = w.events ++ ps.map matchEvent := by
    clear h
    induction ps generalizing w with
    | nil => simp
    | cons p ps ih =>
      obtain ⟨hpers, hevents⟩ := ih (w := Derivatives.enter w p)
      refine ⟨hpers, ?_⟩
      rw [List.foldl_cons, hevents]
      simp [Derivatives.enter]
  rw [h.pers, h.events, hfold.1, hfold.2]
  exact ⟨rfl, rfl⟩

end Enter

/-! ## The book -/

/-- Every order is stored under its own id, with the amounts a placement accepts. -/
structure Listed (w : World X) : Prop where
  stored : ∀ id order, orderOf w id = some order →
    order.id = id ∧ 0 < order.quantity.val ∧ 0 < order.strikePrice.val

/-- Moreover ids are used once, and positions belong to closed orders. -/
structure Booked (w : World X) : Prop extends Listed w where
  nodup : (idsOf w).Nodup
  ids : ∀ id ∈ idsOf w, id.toNat ≤ (countOf w).toNat
  bounded : ∀ id order, orderOf w id = some order → id.toNat ≤ (countOf w).toNat
  positions : ∀ owner id pos, positionOf w owner id = some pos →
    ∃ order, orderOf w id = some order ∧ order.owner = owner ∧ order.settled = true

/-- The counter has room for one more order. -/
def HasRoom (w : World X) : Prop := (countOf w).toNat + 1 < 2 ^ 64

section Listed

variable {chain : Chain X} {auth : List Address} {w w' : World X} {p : Order × Order} {id : UInt64}
  {owner : Address} {order : Order} {o : Occ (World X) (Action X)}

/-- Only persistent entries count. -/
theorem Listed.congr (h : Listed w) (hpers : w'.pers = w.pers) : Listed w' := by
  refine ⟨fun id order hstored => h.stored id order ?_⟩
  unfold orderOf at hstored ⊢
  rw [← hpers]
  exact hstored

/-- The orders the matching sees: those whose ids are listed and that are not settled. -/
theorem mem_openOrders : order ∈ openOrders w ↔
    ∃ id ∈ idsOf w, orderOf w id = some order ∧ order.settled = false := by
  unfold openOrders
  simp only [List.mem_filterMap, openOrder_eq_some]

/-- The orders of the snapshot are those stored under their ids. -/
theorem Listed.open_stored (h : Listed w) (hmem : order ∈ openOrders w) :
    orderOf w order.id = some order ∧ order.settled = false := by
  obtain ⟨id, -, hstored, hopen⟩ := mem_openOrders.mp hmem
  rw [(h.stored id order hstored).1]
  exact ⟨hstored, hopen⟩

/-- Two open orders with one id are the same order. -/
theorem Listed.open_inj (h : Listed w) {a b : Order} (ha : a ∈ openOrders w)
    (hb : b ∈ openOrders w) (hid : a.id = b.id) : a = b := by
  have hstored := (h.open_stored ha).1
  rw [hid, (h.open_stored hb).1] at hstored
  exact (Option.some.inj hstored).symm

/-- A pair that is picked can be entered. -/
theorem Listed.ready (h : Listed w) {buy sell : Order} (hpicks : Picks (openOrders w) buy sell) :
    Ready w (buy, sell) := by
  have hbuy := h.open_stored hpicks.mem_left
  have hsell := h.open_stored hpicks.mem_right
  refine ⟨⟨buy, hbuy.1, rfl⟩, ⟨sell, hsell.1, rfl⟩, ?_⟩
  intro hid
  have heq := h.open_inj hpicks.mem_left hpicks.mem_right hid
  exact hpicks.crosses.ne hpicks.isBuy heq

theorem Listed.picks_ready (h : Listed w) : ∀ p ∈ picks (openOrders w), Ready w p :=
  fun _ hp => h.ready (mem_picks.mp hp)

/-- A copy of an order of the book is as good as the order. -/
theorem Listed.inBook (h : Listed w) (hin : InBook w order) :
    0 < order.quantity.val ∧ 0 < order.strikePrice.val := by
  obtain ⟨stored, hstored, hclose⟩ := hin
  obtain ⟨settled, rfl⟩ := Order.eq_of_close hclose
  exact (h.stored _ _ hstored).2

/-- The ids stay listed when two orders are closed. -/
theorem Listed.enter (h : Listed w) (hp : Ready w p) : Listed (enter w p) := by
  refine ⟨fun id order hstored => ?_⟩
  rw [orderOf_enter] at hstored
  split at hstored
  · next hid =>
    cases hstored
    exact ⟨hid.symm, h.inBook hp.2.1⟩
  · split at hstored
    · next hid =>
      cases hstored
      exact ⟨hid.symm, h.inBook hp.1⟩
    · exact h.stored id order hstored

/-- What entering a pair keeps is kept by entering a list of them. -/
theorem foldl_enter {P : World X → Prop} (hkeep : ∀ w p, P w → Ready w p → P (enter w p)) (h : P w)
    {ps : List (Order × Order)} (hps : ∀ p ∈ ps, Ready w p) : P (ps.foldl enter w) := by
  induction ps generalizing w with
  | nil => exact h
  | cons p ps ih =>
    have hp := hps p (by simp)
    exact ih (hkeep w p h hp) fun q hq => (hps q (by simp [hq])).enter hp

/-- So the whole matching keeps the list. -/
theorem Listed.recorded (h : Listed w) (hrecorded : Recorded (picks (openOrders w)) w w') :
    Listed w' :=
  (foldl_enter (fun _ _ => Listed.enter) h h.picks_ready).congr hrecorded.eq_foldl.1

/-- A placement stores one order. -/
theorem orderOf_place (h : Places auth order w w') :
    orderOf w' id = if id = order.id then some order else orderOf w id := by
  unfold orderOf
  rw [h.pers, Store.get_set_of_ne _ (by simp), Store.get_set_of_ne _ (by simp)]
  split
  · next hid => rw [hid, Store.get_set_self]
  · next hid => rw [Store.get_set_of_ne _ (by simpa using hid)]

/-- Its id goes to the end of the list. -/
theorem idsOf_place (h : Places auth order w w') : idsOf w' = idsOf w ++ [order.id] := by
  unfold idsOf
  rw [h.pers, Store.get_set_self]
  rfl

/-- The new id is the counter, which no listed order has yet. -/
theorem Listed.place (h : Listed w) (hp : Places auth order w w') : Listed w' := by
  refine ⟨fun id stored hstored => ?_⟩
  rw [orderOf_place hp] at hstored
  split at hstored
  · next hid =>
    cases hstored
    exact ⟨hid.symm, hp.quantity_pos, hp.strikePrice_pos⟩
  · exact h.stored id stored hstored

/-- A settlement closes one order and leaves the others. -/
theorem orderOf_close (hpers : w'.pers = w.pers.set (.order id) order.close) (j : UInt64) :
    orderOf w' j = if j = id then some order.close else orderOf w j := by
  unfold orderOf
  rw [hpers]
  split
  · next hj => rw [hj, Store.get_set_self]
  · next hj => rw [Store.get_set_of_ne _ (by simpa using hj)]

/-- Closing one order, as settling and cancelling do. -/
theorem Listed.close (h : Listed w) (hstored : orderOf w id = some order)
    (hpers : w'.pers = w.pers.set (.order id) order.close) : Listed w' := by
  refine ⟨fun j stored hj => ?_⟩
  rw [orderOf_close hpers] at hj
  split at hj
  · next hid =>
    cases hj
    rw [hid]
    exact h.stored id order hstored
  · exact h.stored j stored hj

/-- Every call is a placement, a matching, a settlement or none of these. -/
theorem Listed.after_step (h : Listed o.before) (hstep : IsStep (step chain) o) :
    Listed o.after := by
  rcases Machine.succeeds_or_outside hstep with ⟨c, hc⟩ | ⟨x, hx⟩
  · obtain ⟨r, hexec⟩ := hc.2
    cases exec_effect hexec with
    | placed order entry heffect => exact h.place heffect
    | matched entry heffect => exact h.recorded heffect
    | settled caller id order entry heffect => exact h.close heffect.stored heffect.pers
    | cancelled caller id order entry heffect => exact h.close heffect.stored heffect.pers
    | view same =>
      rw [same]
      exact h
  · rw [hx]
    exact h.congr rfl

/-- By induction over the run. -/
theorem listed_run {w₀ : World X} (h₀ : Machine.Fresh w₀) (acts : List (Action X)) :
    Listed (run (step chain) w₀ acts) := by
  refine run_invariant_of_trace (step chain) (P := Listed) ?_ fun o ho hbefore =>
    hbefore.after_step (isStep_of_mem _ ho)
  refine ⟨fun id order hstored => ?_⟩
  unfold orderOf at hstored
  rw [h₀.pers] at hstored
  cases hstored

end Listed

section Booked

variable {chain : Chain X} {auth : List Address} {w w' : World X} {p : Order × Order} {id : UInt64}
  {owner : Address} {order : Order} {o : Occ (World X) (Action X)}

/-- Only persistent entries count. -/
theorem Booked.congr (h : Booked w) (hpers : w'.pers = w.pers) : Booked w' := by
  obtain ⟨inst, pers, instLive, persLive, events, transfers, writes, wasm, ext⟩ := w'
  cases hpers
  exact ⟨⟨h.stored⟩, h.nodup, h.ids, h.bounded, h.positions⟩

/-- A fresh contract has no order and no position. -/
theorem Booked.of_fresh (h : Machine.Fresh w) : Booked w := by
  have hget : ∀ k, w.pers.get k = none := by
    intro k
    rw [h.pers]
    rfl
  have horder : ∀ id, orderOf w id = none := fun id => hget (.order id)
  have hids : idsOf w = [] := by
    unfold idsOf
    rw [hget]
    rfl
  refine ⟨⟨?_⟩, ?_, ?_, ?_, ?_⟩
  · simp [horder]
  · rw [hids]
    exact List.nodup_nil
  · rw [hids]
    simp
  · simp [horder]
  · intro owner id pos hpos
    unfold positionOf at hpos
    rw [hget] at hpos
    cases hpos

/-- No open order is listed twice. -/
theorem Booked.open_pairwise (h : Booked w) :
    (openOrders w).Pairwise fun a b => a.id ≠ b.id := by
  unfold openOrders
  refine List.pairwise_filterMap.mpr (h.nodup.imp ?_)
  intro i j hne a ha b hb
  rw [openOrder_eq_some] at ha hb
  rw [(h.stored i a ha.1).1, (h.stored j b hb.1).1]
  exact hne

/-- The two positions that are written belong to orders that are now closed. -/
theorem Booked.enter (h : Booked w) (hp : Ready w p) : Booked (enter w p) := by
  obtain ⟨⟨s₁, hs₁, hc₁⟩, ⟨s₂, hs₂, hc₂⟩, hne⟩ := hp
  refine ⟨h.toListed.enter ⟨⟨s₁, hs₁, hc₁⟩, ⟨s₂, hs₂, hc₂⟩, hne⟩, ?_, ?_, ?_, ?_⟩
  · rw [idsOf_enter]
    exact h.nodup
  · rw [idsOf_enter, countOf_enter]
    exact h.ids
  · intro id order hstored
    rw [countOf_enter]
    rw [orderOf_enter] at hstored
    split at hstored
    · next hid =>
      rw [hid]
      exact h.bounded _ _ hs₂
    · split at hstored
      · next hid =>
        rw [hid]
        exact h.bounded _ _ hs₁
      · exact h.bounded id order hstored
  · intro owner id pos hpos
    rw [orderOf_enter]
    rw [positionOf_enter] at hpos
    split at hpos
    · next hkey =>
      rw [if_pos hkey.2]
      exact ⟨_, rfl, hkey.1.symm, rfl⟩
    · split at hpos
      · next hkey =>
        rw [if_neg (by rw [hkey.2]; exact hne), if_pos hkey.2]
        exact ⟨_, rfl, hkey.1.symm, rfl⟩
      · -- an old position: its order is closed, and entering it again keeps it closed
        obtain ⟨stored, hstored, howner, hsettled⟩ := h.positions owner id pos hpos
        split
        · next hid =>
          rw [hid, hs₂] at hstored
          cases hstored
          exact ⟨_, rfl, (congrArg Order.owner hc₂).symm.trans howner, rfl⟩
        · split
          · next hid =>
            rw [hid, hs₁] at hstored
            cases hstored
            exact ⟨_, rfl, (congrArg Order.owner hc₁).symm.trans howner, rfl⟩
          · exact ⟨stored, hstored, howner, hsettled⟩

/-- By induction over the pairs that are entered. -/
theorem Booked.recorded (h : Booked w) (hrecorded : Recorded (picks (openOrders w)) w w') :
    Booked w' :=
  (foldl_enter (fun _ _ => Booked.enter) h h.picks_ready).congr hrecorded.eq_foldl.1

/-- The new order's id was never used. -/
theorem Booked.next_free (h : Booked w) (hroom : HasRoom w) :
    orderOf w (nextId w) = none ∧ nextId w ∉ idsOf w ∧
      (nextId w).toNat = (countOf w).toNat + 1 := by
  have hnext : (nextId w).toNat = (countOf w).toNat + 1 := by
    show (countOf w + 1).toNat = _
    unfold HasRoom at hroom
    rw [UInt64.toNat_add]
    exact Nat.mod_eq_of_lt hroom
  refine ⟨?_, ?_, hnext⟩
  · cases hstored : orderOf w (nextId w) with
    | none => rfl
    | some order =>
      have hle := h.bounded _ _ hstored
      omega
  · intro hmem
    have hle := h.ids _ hmem
    omega

theorem positionOf_place (h : Places auth order w w') :
    positionOf w' owner id = positionOf w owner id := by
  unfold positionOf
  rw [h.pers, Store.get_set_of_ne _ (by simp), Store.get_set_of_ne _ (by simp),
    Store.get_set_of_ne _ (by simp)]

/-- The counter moves to a fresh id, which needs room below `2 ^ 64`. -/
theorem Booked.place (h : Booked w) (hroom : HasRoom w) (hp : Places auth order w w') :
    Booked w' := by
  obtain ⟨hfree, hnew, hnext⟩ := h.next_free hroom
  have hids := idsOf_place hp
  have hcount : countOf w' = order.id := by
    unfold countOf
    rw [hp.pers, Store.get_set_of_ne _ (by simp), Store.get_set_self]
    rfl
  rw [← hp.id] at hfree hnew hnext
  refine ⟨h.toListed.place hp, ?_, ?_, ?_, ?_⟩
  · rw [hids]
    refine List.nodup_append.mpr ⟨h.nodup, by simp, ?_⟩
    intro i hi j hj hij
    rw [hij, List.mem_singleton.mp hj] at hi
    exact hnew hi
  · rw [hids, hcount]
    intro id hid
    rcases List.mem_append.mp hid with hid | hid
    · have hle := h.ids id hid
      omega
    · rw [List.mem_singleton.mp hid]
  · intro id stored hstored
    rw [hcount]
    rw [orderOf_place hp] at hstored
    split at hstored
    · next hid => rw [hid]
    · have hle := h.bounded id stored hstored
      omega
  · intro owner id pos hpos
    rw [positionOf_place hp] at hpos
    obtain ⟨stored, hstored, howner, hsettled⟩ := h.positions owner id pos hpos
    refine ⟨stored, ?_, howner, hsettled⟩
    rw [orderOf_place hp, if_neg, hstored]
    rintro rfl
    rw [hfree] at hstored
    cases hstored

theorem positionOf_close (hpers : w'.pers = w.pers.set (.order id) order.close) (j : UInt64) :
    positionOf w' owner j = positionOf w owner j := by
  unfold positionOf
  rw [hpers, Store.get_set_of_ne _ (by simp)]

/-- A settlement touches no position. -/
theorem Booked.close (h : Booked w) (hstored : orderOf w id = some order)
    (hpers : w'.pers = w.pers.set (.order id) order.close) : Booked w' := by
  have hids : idsOf w' = idsOf w := by
    unfold idsOf
    rw [hpers, Store.get_set_of_ne _ (by simp)]
  have hcount : countOf w' = countOf w := by
    unfold countOf
    rw [hpers, Store.get_set_of_ne _ (by simp)]
  refine ⟨h.toListed.close hstored hpers, ?_, ?_, ?_, ?_⟩
  · rw [hids]
    exact h.nodup
  · rw [hids, hcount]
    exact h.ids
  · intro j stored hj
    rw [hcount]
    rw [orderOf_close hpers] at hj
    split at hj
    · next hid =>
      rw [hid]
      exact h.bounded id order hstored
    · exact h.bounded j stored hj
  · intro owner j pos hpos
    rw [positionOf_close hpers] at hpos
    obtain ⟨stored, hj, howner, hsettled⟩ := h.positions owner j pos hpos
    rw [orderOf_close hpers]
    split
    · next hid =>
      rw [hid, hstored] at hj
      cases hj
      exact ⟨_, rfl, howner, rfl⟩
    · exact ⟨stored, hj, howner, hsettled⟩

/-- If the step places an order, the counter has room for it. -/
def RoomFor (chain : Chain X) (o : Occ (World X) (Action X)) : Prop :=
  ∀ c, Succeeds chain o c → c.entry.placer ≠ none → HasRoom o.before

/-- As for `Listed`, with room for the ids. -/
theorem Booked.after_step (h : Booked o.before) (hstep : IsStep (step chain) o)
    (hroom : RoomFor chain o) : Booked o.after := by
  rcases Machine.succeeds_or_outside hstep with ⟨c, hc⟩ | ⟨x, hx⟩
  · obtain ⟨r, hexec⟩ := hc.2
    cases exec_effect hexec with
    | placed order entry heffect => exact h.place (hroom c hc (by simp [entry])) heffect
    | matched entry heffect => exact h.recorded heffect
    | settled caller id order entry heffect => exact h.close heffect.stored heffect.pers
    | cancelled caller id order entry heffect => exact h.close heffect.stored heffect.pers
    | view same =>
      rw [same]
      exact h
  · rw [hx]
    exact h.congr rfl

/-- By induction over the run. -/
theorem booked_run {w₀ : World X} (h₀ : Machine.Fresh w₀) {acts : List (Action X)}
    (hroom : ∀ o ∈ trace (step chain) w₀ acts, RoomFor chain o) :
    Booked (run (step chain) w₀ acts) :=
  run_invariant_of_trace (step chain) (.of_fresh h₀) fun o ho hbefore =>
    hbefore.after_step (isStep_of_mem _ ho) (hroom o ho)

end Booked

end Derivatives
