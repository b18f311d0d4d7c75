import StellarTipjar.LimitOrders.Solvency

/-!
# LimitOrders — the lifecycle of an order

Three structures of the storage tell the history of the placements: the order records, the counter
and the id list of each pair. `Records placed w` says that they agree with the list `placed` of what
the successful placements so far fixed; every call keeps it (`Records.after_step`) as long as the
counter does not wrap, so it holds along every run with fewer than `2^64` placements. What else
happens to an order happens once: it is filled in one go, or cancelled, and neither is ever undone
(`LimitOrder.Evolves`).
-/

namespace LimitOrders

open Lib Soroban Contract

variable {X : Type}

/-! ## Placements -/

/-- What a placement fixes for good. -/
structure Terms where
  owner : Address
  tokenIn : Address
  tokenOut : Address
  amountIn : I128
  limitPrice : I128
deriving DecidableEq, Repr

def LimitOrder.terms (order : LimitOrder) : Terms :=
  ⟨order.owner, order.tokenIn, order.tokenOut, order.amountIn, order.limitPrice⟩

/-- The terms a call proposes, if it is a placement. -/
def Entrypoint.terms : Entrypoint → Option Terms
  | .placeOrder caller tokenIn tokenOut amountIn limitPrice =>
    some ⟨caller, tokenIn, tokenOut, amountIn, limitPrice⟩
  | _ => none

/-- The terms of the order an occurrence placed, if it is a successful placement. -/
def placedBy (chain : Chain X) (o : Occ (World X) (Action X)) : Option Terms :=
  (Machine.accepted program chain o).bind Entrypoint.terms

/-- The terms of all orders placed, oldest first. -/
def placements (chain : Chain X) (tr : List (Occ (World X) (Action X))) : List Terms :=
  tr.filterMap (placedBy chain)

/-- The terms behind an id: the first placement has id 1. -/
def termsAt (placed : List Terms) (id : UInt64) : Option Terms :=
  if id = 0 then none else placed[id.toNat - 1]?

/-- The ids of the orders placed on a pair, in placement order. -/
def idsOn (tokenIn tokenOut : Address) (placed : List Terms) : List UInt64 :=
  ((placed.zipIdx 1).filter fun p => p.1.tokenIn = tokenIn ∧ p.1.tokenOut = tokenOut).map
    fun p => .ofNat p.2

section Placements

variable {chain : Chain X} {o : Occ (World X) (Action X)} {c : Call}

/-- A successful placement places its terms. -/
theorem placedBy_of_succeeds (h : Succeeds chain o c) : placedBy chain o = c.entry.terms := by
  unfold placedBy
  rw [Machine.accepted_of_succeeds h]
  rfl

/-- A step without a successful call places nothing. -/
theorem placedBy_of_not_succeeds (hstep : IsStep (step chain) o) (h : ∀ c, ¬Succeeds chain o c) :
    placedBy chain o = none := by
  unfold placedBy
  rw [Machine.accepted_of_not_succeeds hstep h]
  rfl

theorem placements_concat (tr : List (Occ (World X) (Action X))) (o : Occ (World X) (Action X)) :
    placements chain (tr ++ [o]) = placements chain tr ++ (placedBy chain o).toList := by
  unfold placements
  rw [List.filterMap_append]
  cases h : placedBy chain o <;> simp [h]

end Placements

/-! ## The storage records the placements -/

/-- The storage agrees with the placements, and every order is filled all at once. -/
structure Records (placed : List Terms) (w : World X) : Prop where
  count : nextId w = .ofNat (placed.length + 1)
  orders : ∀ id, (orderOf w id).map LimitOrder.terms = termsAt placed id
  ids : ∀ id order, orderOf w id = some order → order.id = id ∧ order.AllOrNothing
  book : ∀ tokenIn tokenOut, bookOf w tokenIn tokenOut = idsOn tokenIn tokenOut placed

/-- How an order may change. -/
structure LimitOrder.Evolves (order order' : LimitOrder) : Prop where
  id : order'.id = order.id
  terms : order'.terms = order.terms
  filled : order.filled.val ≤ order'.filled.val
  cancelled : order.cancelled = true → order'.cancelled = true

/-- An order may stay as it is. -/
theorem LimitOrder.Evolves.refl (order : LimitOrder) : order.Evolves order :=
  ⟨rfl, rfl, le_rfl, fun h => h⟩

section Terms

variable {placed : List Terms} {t : Terms} {id : UInt64}

/-- While there is room the next id does not wrap. -/
theorem toNat_ofNat_succ (h : placed.length + 1 < 2 ^ 64) :
    (UInt64.ofNat (placed.length + 1)).toNat = placed.length + 1 := by
  rw [UInt64.toNat_ofNat']
  exact Nat.mod_eq_of_lt h

/-- The next id is free. -/
theorem termsAt_next (h : placed.length + 1 < 2 ^ 64) :
    termsAt placed (.ofNat (placed.length + 1)) = none := by
  unfold termsAt
  split
  · rfl
  · rw [toNat_ofNat_succ h]
    simp

/-- The next id is that of the new order. -/
theorem termsAt_concat_next (h : placed.length + 1 < 2 ^ 64) :
    termsAt (placed ++ [t]) (.ofNat (placed.length + 1)) = some t := by
  have hnat := toNat_ofNat_succ h
  have hne : UInt64.ofNat (placed.length + 1) ≠ 0 := by
    intro hzero
    rw [hzero] at hnat
    exact absurd hnat (by simp)
  unfold termsAt
  rw [if_neg hne, hnat]
  simp

/-- The other ids keep their orders. -/
theorem termsAt_concat_of_ne (h : placed.length + 1 < 2 ^ 64)
    (hid : id ≠ .ofNat (placed.length + 1)) : termsAt (placed ++ [t]) id = termsAt placed id := by
  have hnat := toNat_ofNat_succ h
  have hne : id.toNat ≠ placed.length + 1 := by
    intro heq
    rw [← hnat] at heq
    exact hid (UInt64.toNat_inj.mp heq)
  unfold termsAt
  split
  · rfl
  · rename_i hzero
    have hpos : id.toNat ≠ 0 := fun h0 => hzero (UInt64.toNat_inj.mp h0)
    rw [List.getElem?_append]
    split
    · rfl
    · rw [List.getElem?_eq_none (by simp; omega), List.getElem?_eq_none (by omega)]

/-- The new id goes to the end of the book of its pair. -/
theorem idsOn_concat (tokenIn tokenOut : Address) :
    idsOn tokenIn tokenOut (placed ++ [t]) = idsOn tokenIn tokenOut placed
      ++ if t.tokenIn = tokenIn ∧ t.tokenOut = tokenOut then [.ofNat (placed.length + 1)]
        else [] := by
  unfold idsOn
  rw [List.zipIdx_append, List.filter_append, List.map_append]
  congr 1
  by_cases h : t.tokenIn = tokenIn ∧ t.tokenOut = tokenOut <;> simp [h, Nat.add_comm]

/-- The ids of a pair are those of the placements on it. -/
theorem mem_idsOn (h : placed.length < 2 ^ 64) (tokenIn tokenOut : Address) :
    id ∈ idsOn tokenIn tokenOut placed ↔
      ∃ t, termsAt placed id = some t ∧ t.tokenIn = tokenIn ∧ t.tokenOut = tokenOut := by
  induction placed using List.reverseRecOn with
  | nil => simp [idsOn, termsAt]
  | append_singleton placed t ih =>
    have hlen : placed.length + 1 < 2 ^ 64 := by simpa using h
    have ih := ih (by omega)
    rw [idsOn_concat, List.mem_append, ih]
    by_cases hid : id = .ofNat (placed.length + 1)
    · rw [hid, termsAt_next hlen, termsAt_concat_next hlen]
      simp
    · rw [termsAt_concat_of_ne hlen hid]
      split
      · simp only [List.mem_singleton, hid, or_false]
      · simp only [List.not_mem_nil, or_false]

/-- They increase: each placement has its own, in the order of the placements. -/
theorem idsOn_increasing (h : placed.length < 2 ^ 64) (tokenIn tokenOut : Address) :
    (idsOn tokenIn tokenOut placed).Pairwise (· < ·) ∧
      ∀ id ∈ idsOn tokenIn tokenOut placed, id.toNat ≤ placed.length := by
  induction placed using List.reverseRecOn with
  | nil => simp [idsOn]
  | append_singleton placed t ih =>
    have hlen : placed.length + 1 < 2 ^ 64 := by simpa using h
    have hnat := toNat_ofNat_succ hlen
    obtain ⟨hpairwise, hle⟩ := ih (by omega)
    rw [idsOn_concat, List.length_append, List.length_singleton]
    split
    · refine ⟨List.pairwise_append.mpr ⟨hpairwise, by simp, ?_⟩, ?_⟩
      · intro id hid j hj
        rw [List.mem_singleton.mp hj, UInt64.lt_iff_toNat_lt, hnat]
        exact Nat.lt_succ_of_le (hle id hid)
      · intro id hid
        rcases List.mem_append.mp hid with hid | hid
        · exact (hle id hid).trans (Nat.le_succ _)
        · rw [List.mem_singleton.mp hid, hnat]
    · rw [List.append_nil]
      exact ⟨hpairwise, fun id hid => (hle id hid).trans (Nat.le_succ _)⟩

end Terms

/-! ## One step -/

section Steps

variable {chain : Chain X} {auth : List Address} {w w' : World X} {id : UInt64}
  {order order' : LimitOrder} {placed : List Terms} {o : Occ (World X) (Action X)} {c : Call}

/-- The orders after a rewrite of one that keeps its terms. -/
theorem Records.rewrite (h : Records placed w) (hpers : w'.pers = w.pers.set (.order id) order')
    (hstored : orderOf w id = some order) (hid : order'.id = order.id)
    (hterms : order'.terms = order.terms) (hfilled : order'.AllOrNothing) : Records placed w' := by
  obtain ⟨hself, hother⟩ := Rewrites.of_set hpers
  refine ⟨?_, ?_, ?_, ?_⟩
  · rw [← h.count]
    unfold nextId
    rw [hpers, Store.get_set_of_ne _ (by simp)]
  · intro j
    by_cases hj : j = id
    · rw [hj, hself, ← h.orders id, hstored]
      simp only [Option.map_some, hterms]
    · rw [hother j hj]
      exact h.orders j
  · intro j stored hj
    by_cases hjid : j = id
    · rw [hjid, hself] at hj
      cases hj
      rw [hid, hjid]
      exact ⟨(h.ids id order hstored).1, hfilled⟩
    · rw [hother j hjid] at hj
      exact h.ids j stored hj
  · intro tokenIn tokenOut
    rw [← h.book]
    unfold bookOf
    rw [hpers, Store.get_set_of_ne _ (by simp)]

/-- A match fills the order. -/
theorem Matches.evolves {price amountOut : I128} (h : Matches chain id price order amountOut w w')
    (horder : order.AllOrNothing) :
    order.Evolves { order with filled := order.filled + order.remaining } := by
  refine ⟨rfl, rfl, ?_, fun hcancelled => hcancelled⟩
  show order.filled.val ≤ (order.filled + order.remaining).val
  have hpos := horder.amountIn_pos
  rw [horder.filled_add_remaining h.remaining_pos, horder.filled_eq_zero h.remaining_pos,
    I128.val_zero]
  omega

/-- It fills it whole. -/
theorem Matches.allOrNothing {price amountOut : I128}
    (h : Matches chain id price order amountOut w w') (horder : order.AllOrNothing) :
    ({ order with filled := order.filled + order.remaining } : LimitOrder).AllOrNothing :=
  ⟨horder.amountIn_pos, .inr (horder.filled_add_remaining h.remaining_pos)⟩

/-- A placement adds one record. -/
theorem Places.records {caller tokenIn tokenOut : Address} {amountIn limitPrice : I128}
    (h : Places chain auth caller tokenIn tokenOut amountIn limitPrice w w')
    (hw : Records placed w) (hlen : placed.length + 1 < 2 ^ 64) :
    Records (placed ++ [⟨caller, tokenIn, tokenOut, amountIn, limitPrice⟩]) w' := by
  obtain ⟨hself, hother⟩ := h.rewrites
  rw [hw.count] at hself hother
  refine ⟨?_, ?_, ?_, ?_⟩
  · unfold nextId
    rw [h.pers, Store.get_set_of_ne _ (by simp), Store.get_set_self, Option.getD_some, hw.count]
    simp [UInt64.ofNat_add]
  · intro id
    by_cases hid : id = .ofNat (placed.length + 1)
    · rw [hid, hself, termsAt_concat_next hlen]
      rfl
    · rw [hother id hid, termsAt_concat_of_ne hlen hid]
      exact hw.orders id
  · intro id order hstored
    by_cases hid : id = .ofNat (placed.length + 1)
    · rw [hid, hself] at hstored
      cases hstored
      rw [hid]
      exact ⟨rfl, h.amountIn_pos, .inl rfl⟩
    · rw [hother id hid] at hstored
      exact hw.ids id order hstored
  · intro a b
    rw [idsOn_concat, ← hw.book]
    unfold bookOf
    rw [h.pers]
    by_cases hpair : tokenIn = a ∧ tokenOut = b
    · obtain ⟨rfl, rfl⟩ := hpair
      rw [Store.get_set_self, Option.getD_some, if_pos ⟨rfl, rfl⟩, ← hw.count]
      rfl
    · rw [Store.get_set_of_ne _ (by simpa [eq_comm] using hpair),
        Store.get_set_of_ne _ (by simp), Store.get_set_of_ne _ (by simp), if_neg hpair]
      simp

/-- The id of a placement was free. -/
theorem Records.next_free (h : Records placed w) (hlen : placed.length + 1 < 2 ^ 64) :
    orderOf w (nextId w) = none := by
  have horders := h.orders (nextId w)
  rw [h.count, termsAt_next hlen] at horders
  rw [h.count]
  exact Option.map_eq_none_iff.mp horders

/-- A call keeps the records, with the placement it makes. -/
theorem Records.after_step (hstep : IsStep (step chain) o) (h : Records placed o.before)
    (hlen : (placed ++ (placedBy chain o).toList).length < 2 ^ 64) :
    Records (placed ++ (placedBy chain o).toList) o.after := by
  by_cases hcall : ∃ c, Succeeds chain o c
  · obtain ⟨c, hc⟩ := hcall
    obtain ⟨r, hexec⟩ := hc.2
    rw [placedBy_of_succeeds hc] at hlen ⊢
    cases hentry : c.entry with
    | placeOrder caller tokenIn tokenOut amountIn limitPrice =>
      rw [hentry] at hlen
      exact (exec_placeOrder hentry hexec).2.records h (by simpa [Entrypoint.terms] using hlen)
    | matchOrder id price =>
      obtain ⟨order, amountOut, heffect⟩ := exec_matchOrder hentry hexec
      have horder := (h.ids id order heffect.stored).2
      simpa [Entrypoint.terms] using
        h.rewrite heffect.pers heffect.stored rfl rfl (heffect.allOrNothing horder)
    | cancelOrder caller id =>
      obtain ⟨order, heffect⟩ := exec_cancelOrder hentry hexec
      have horder := (h.ids id order heffect.stored).2
      simpa [Entrypoint.terms] using
        h.rewrite heffect.pers heffect.stored rfl rfl ⟨horder.amountIn_pos, horder.filled⟩
    | getOrder id =>
      rw [exec_getOrder hentry hexec]
      simpa [Entrypoint.terms] using h
    | getOrderBook tokenIn tokenOut =>
      rw [(exec_getOrderBook hentry hexec).2]
      simpa [Entrypoint.terms] using h
  · have hnone := placedBy_of_not_succeeds hstep fun c hc => hcall ⟨c, hc⟩
    rw [hnone]
    simp only [Option.toList_none, List.append_nil]
    rcases Machine.succeeds_or_outside hstep with hc | ⟨x, hx⟩
    · exact absurd hc hcall
    · rw [hx]
      exact ⟨h.count, h.orders, h.ids, h.book⟩

/-- Whatever happens, an order that is there stays there and only evolves. -/
theorem Records.evolves (hstep : IsStep (step chain) o) (h : Records placed o.before)
    (hlen : (placed ++ (placedBy chain o).toList).length < 2 ^ 64)
    (hstored : orderOf o.before id = some order) :
    ∃ order', orderOf o.after id = some order' ∧ order.Evolves order' := by
  rcases Machine.succeeds_or_outside hstep with ⟨c, hc⟩ | ⟨x, hx⟩
  · obtain ⟨r, hexec⟩ := hc.2
    rw [placedBy_of_succeeds hc] at hlen
    cases exec_effect hexec with
    | placed caller tokenIn tokenOut amountIn limitPrice entry heffect =>
      rw [entry] at hlen
      have hfree := h.next_free (by simpa [Entrypoint.terms] using hlen)
      have hne : id ≠ nextId o.before := by
        rintro rfl
        rw [hfree] at hstored
        cases hstored
      rw [heffect.rewrites.2 id hne]
      exact ⟨order, hstored, .refl order⟩
    | matched j price other amountOut entry heffect =>
      obtain ⟨hself, hother⟩ := Rewrites.of_set heffect.pers
      by_cases hj : id = j
      · subst hj
        obtain rfl := Option.some.inj (heffect.stored.symm.trans hstored)
        exact ⟨_, hself, heffect.evolves (h.ids id other hstored).2⟩
      · rw [hother id hj]
        exact ⟨order, hstored, .refl order⟩
    | cancelled caller j other entry heffect =>
      obtain ⟨hself, hother⟩ := Rewrites.of_set heffect.pers
      by_cases hj : id = j
      · subst hj
        obtain rfl := Option.some.inj (heffect.stored.symm.trans hstored)
        exact ⟨_, hself, rfl, rfl, le_rfl, fun _ => rfl⟩
      · rw [hother id hj]
        exact ⟨order, hstored, .refl order⟩
    | view same =>
      rw [same]
      exact ⟨order, hstored, .refl order⟩
  · rw [hx]
    exact ⟨order, hstored, .refl order⟩

end Steps

/-! ## Runs -/

/-- `match_order` pays the order out. -/
def PaysOut (chain : Chain X) (id : UInt64) (o : Occ (World X) (Action X)) : Prop :=
  ∃ c price, Succeeds chain o c ∧ c.entry = .matchOrder id price

/-- `cancel_order` cancels the order. -/
def CancelsOrder (chain : Chain X) (id : UInt64) (o : Occ (World X) (Action X)) : Prop :=
  ∃ c caller, Succeeds chain o c ∧ c.entry = .cancelOrder caller id

/-- `cancel_order` cancels the order and pays a refund. -/
def Refunds (chain : Chain X) (id : UInt64) (o : Occ (World X) (Action X)) : Prop :=
  CancelsOrder chain id o ∧ o.after.transfers ≠ o.before.transfers

/-- The order is there and satisfies `P`. -/
def OrderIs (P : LimitOrder → Prop) (id : UInt64) (w : World X) : Prop :=
  ∃ order, orderOf w id = some order ∧ order.AllOrNothing ∧ P order

/-- Nothing can be claimed for the order any more. -/
def LimitOrder.Closed (order : LimitOrder) : Prop :=
  order.cancelled = true ∨ order.filled = order.amountIn

section Runs

variable {chain : Chain X} {w₀ w : World X} {acts : List (Action X)} {id : UInt64}
  {o p q : Occ (World X) (Action X)} {tr₁ mid tr₂ : List (Occ (World X) (Action X))}
  {placed : List Terms}

/-- A fresh contract has no orders. -/
theorem Records.of_fresh (h : Machine.Fresh w) : Records [] w := by
  have hget : ∀ k, w.pers.get k = none := by
    intro k
    rw [h.pers]
    rfl
  refine ⟨?_, ?_, ?_, ?_⟩
  · unfold nextId
    rw [hget]
    rfl
  · intro id
    unfold orderOf termsAt
    rw [hget]
    simp
  · intro id order hstored
    unfold orderOf at hstored
    rw [hget] at hstored
    cases hstored
  · intro a b
    unfold bookOf
    rw [hget]
    rfl

/-- The records agree with the placements at the end of every run. Induction from its end. -/
theorem records_run (h₀ : Machine.Fresh w₀)
    (hlen : (placements chain (trace (step chain) w₀ acts)).length < 2 ^ 64) :
    Records (placements chain (trace (step chain) w₀ acts)) (run (step chain) w₀ acts) := by
  induction acts using List.reverseRecOn with
  | nil => exact .of_fresh h₀
  | append_singleton acts a ih =>
    rw [trace_concat, placements_concat] at hlen ⊢
    rw [run_concat]
    have hbefore := ih (by simp only [List.length_append] at hlen; omega)
    exact hbefore.after_step (o := ⟨run (step chain) w₀ acts, a, _⟩) rfl hlen

/-- So they agree before every occurrence, and the counter has room for its placement. -/
theorem records_before (h₀ : Machine.Fresh w₀)
    (hlen : (placements chain (trace (step chain) w₀ acts)).length < 2 ^ 64)
    (htr : trace (step chain) w₀ acts = tr₁ ++ o :: tr₂) :
    Records (placements chain tr₁) o.before ∧
      (placements chain tr₁ ++ (placedBy chain o).toList).length < 2 ^ 64 := by
  obtain ⟨l₁, l₂, -, rfl, hbefore, -, -⟩ := trace_split _ htr
  have hroom : (placements chain (trace (step chain) w₀ l₁)
      ++ (placedBy chain o).toList).length < 2 ^ 64 := by
    rw [← placements_concat]
    rw [htr, List.append_cons] at hlen
    unfold placements at hlen ⊢
    rw [List.filterMap_append, List.length_append] at hlen
    omega
  rw [hbefore]
  refine ⟨records_run h₀ ?_, hroom⟩
  rw [List.length_append] at hroom
  omega

/-- In a run no step takes an order away or changes its terms. -/
theorem evolves_of_mem (h₀ : Machine.Fresh w₀)
    (hlen : (placements chain (trace (step chain) w₀ acts)).length < 2 ^ 64)
    (ho : o ∈ trace (step chain) w₀ acts) {order : LimitOrder}
    (hstored : orderOf o.before id = some order) :
    ∃ order', orderOf o.after id = some order' ∧ order.Evolves order' ∧ order'.AllOrNothing := by
  obtain ⟨tr₁, tr₂, htr⟩ := List.append_of_mem ho
  obtain ⟨hbefore, hroom⟩ := records_before h₀ hlen htr
  have hstep := isStep_of_mem (step chain) ho
  obtain ⟨order', hstored', hevolves⟩ := hbefore.evolves hstep hroom hstored
  exact ⟨order', hstored', hevolves, ((hbefore.after_step hstep hroom).ids id order' hstored').2⟩

/-- What an order keeps as it evolves it keeps from one occurrence to a later one. -/
theorem orderIs_between (h₀ : Machine.Fresh w₀)
    (hlen : (placements chain (trace (step chain) w₀ acts)).length < 2 ^ 64)
    (htr : trace (step chain) w₀ acts = tr₁ ++ p :: mid ++ q :: tr₂) {P : LimitOrder → Prop}
    (hkeep : ∀ order order', order.AllOrNothing → order'.AllOrNothing → order.Evolves order' →
      P order → P order')
    (h : OrderIs P id p.after) : OrderIs P id q.before := by
  obtain ⟨l, hmid, hq⟩ := trace_between _ htr
  rw [hq]
  refine run_invariant_of_trace (step chain) (P := OrderIs P id) h ?_
  rintro o ho ⟨order, hstored, hsound, hP⟩
  have hmem : o ∈ trace (step chain) w₀ acts := by
    rw [htr, hmid]
    simp [ho]
  obtain ⟨order', hstored', hevolves, hsound'⟩ := evolves_of_mem h₀ hlen hmem hstored
  exact ⟨order', hstored', hsound', hkeep order order' hsound hsound' hevolves hP⟩

/-- A closed order stays closed. -/
theorem LimitOrder.Evolves.closed {order order' : LimitOrder} (h : order.Evolves order')
    (hsound : order.AllOrNothing) (hsound' : order'.AllOrNothing) (hclosed : order.Closed) :
    order'.Closed := by
  rcases hclosed with hcancelled | hfilled
  · exact .inl (h.cancelled hcancelled)
  · right
    rcases hsound'.filled with hzero | hfull
    · -- a full order does not become an empty one
      have hle := h.filled
      have hpos := hsound.amountIn_pos
      rw [hzero, hfilled, I128.val_zero] at hle
      omega
    · exact hfull

/-! ### What closes an order -/

/-- Only an open order is paid out. -/
theorem PaysOut.before (h : PaysOut chain id o) :
    ∃ order, orderOf o.before id = some order ∧ order.cancelled = false ∧
      0 < order.remaining.val := by
  obtain ⟨c, price, hc, hentry⟩ := h
  obtain ⟨r, hexec⟩ := hc.2
  obtain ⟨order, amountOut, hmatches⟩ := exec_matchOrder hentry hexec
  exact ⟨order, hmatches.stored, hmatches.live, hmatches.remaining_pos⟩

/-- And it is closed afterwards. -/
theorem PaysOut.after (h : PaysOut chain id o) (hw : Records placed o.before) :
    OrderIs LimitOrder.Closed id o.after := by
  obtain ⟨c, price, hc, hentry⟩ := h
  obtain ⟨r, hexec⟩ := hc.2
  obtain ⟨order, amountOut, hmatches⟩ := exec_matchOrder hentry hexec
  have horder := (hw.ids id order hmatches.stored).2
  exact ⟨_, (Rewrites.of_set hmatches.pers).1, hmatches.allOrNothing horder,
    .inr (horder.filled_add_remaining hmatches.remaining_pos)⟩

/-- A cancelled order is cancelled afterwards. -/
theorem CancelsOrder.after (h : CancelsOrder chain id o) (hw : Records placed o.before) :
    OrderIs (fun order => order.cancelled = true) id o.after := by
  obtain ⟨c, caller, hc, hentry⟩ := h
  obtain ⟨r, hexec⟩ := hc.2
  obtain ⟨order, hcancels⟩ := exec_cancelOrder hentry hexec
  have horder := (hw.ids id order hcancels.stored).2
  exact ⟨_, (Rewrites.of_set hcancels.pers).1, ⟨horder.amountIn_pos, horder.filled⟩, rfl⟩

/-- A refund is for an open order, and pays its owner back in a call the owner authorised. -/
theorem Refunds.before (h : Refunds chain id o) :
    ∃ c order, Succeeds chain o c ∧ orderOf o.before id = some order ∧ order.cancelled = false ∧
      0 < order.remaining.val ∧ order.owner ∈ c.auth ∧
      o.after.transfers = o.before.transfers
        ++ [⟨order.tokenIn, chain.self, order.owner, order.remaining⟩] := by
  obtain ⟨⟨c, caller, hc, hentry⟩, hpaid⟩ := h
  obtain ⟨r, hexec⟩ := hc.2
  obtain ⟨order, hcancels⟩ := exec_cancelOrder hentry hexec
  have hpos : 0 < order.remaining.val := by
    by_contra hneg
    exact hpaid (hcancels.noRefund (not_lt.mp hneg)).2
  obtain rfl := hcancels.owner
  exact ⟨c, order, hc, hcancels.stored, hcancels.live, hpos, hcancels.authorised,
    (hcancels.refund hpos).2⟩

/-- A closed order is neither paid out nor refunded. -/
theorem OrderIs.not_settled (h : OrderIs LimitOrder.Closed id o.before) :
    ¬(PaysOut chain id o ∨ Refunds chain id o) := by
  obtain ⟨order, hstored, hsound, hclosed⟩ := h
  have hopen : ∀ other, orderOf o.before id = some other → other.cancelled = false →
      0 < other.remaining.val → False := by
    intro other hother hlive hpos
    obtain rfl := Option.some.inj (hother.symm.trans hstored)
    rcases hclosed with hcancelled | hfilled
    · rw [hlive] at hcancelled
      cases hcancelled
    · have hzero := hsound.filled_eq_zero hpos
      have hin := hsound.amountIn_pos
      rw [← hfilled, hzero, I128.val_zero] at hin
      omega
  rintro (hpays | hrefunds)
  · obtain ⟨other, hother, hlive, hpos⟩ := hpays.before
    exact hopen other hother hlive hpos
  · obtain ⟨-, other, -, hother, hlive, hpos, -⟩ := hrefunds.before
    exact hopen other hother hlive hpos

/-! ### The order book -/

/-- `get_order_book` returns the orders of the pair as they are now. -/
theorem Records.orderBook (h : Records placed w) (hlen : placed.length < 2 ^ 64) {c : Call}
    {tokenIn tokenOut : Address} (hentry : c.entry = .getOrderBook tokenIn tokenOut) {r : Ret}
    {w' : World X} (hexec : exec chain c w = .ok (r, w')) :
    w' = w ∧ ∃ os, r = .orders os ∧ os.map LimitOrder.id = idsOn tokenIn tokenOut placed ∧
      ∀ order ∈ os, orderOf w order.id = some order := by
  obtain ⟨rfl, rfl⟩ := exec_getOrderBook hentry hexec
  refine ⟨rfl, _, rfl, ?_, ?_⟩
  · rw [h.book]
    have hstored : ∀ id ∈ idsOn tokenIn tokenOut placed,
        ((orderOf w' id).map LimitOrder.id) = some id := by
      intro id hid
      obtain ⟨t, ht, -⟩ := (mem_idsOn hlen tokenIn tokenOut).mp hid
      have horder := h.orders id
      rw [ht] at horder
      obtain ⟨order, hstored, -⟩ := Option.map_eq_some_iff.mp horder
      rw [hstored, Option.map_some, (h.ids id order hstored).1]
    rw [List.map_filterMap]
    generalize idsOn tokenIn tokenOut placed = ids at hstored
    induction ids with
    | nil => rfl
    | cons id ids ih =>
      rw [List.filterMap_cons, hstored id (by simp), ih fun j hj => hstored j (by simp [hj])]
  · intro order horder
    obtain ⟨id, -, hstored⟩ := List.mem_filterMap.mp horder
    rw [(h.ids id order hstored).1]
    exact hstored

/-- The host can load the contract and all entries of a book. -/
def LoadsBook (chain : Chain X) (c : Call) (tokenIn tokenOut : Address) (w : World X) : Prop :=
  let ctx : Ctx DataKey DataKey.Val Event LimitOrderError X := chain.ctx c.sequence c.auth
  InstanceLive ctx w ∧ ¬w.Archived ctx (.orderBook tokenIn tokenOut) ∧
    ∀ id ∈ bookOf w tokenIn tokenOut, ¬w.Archived ctx (.order id)

/-- Reading a book succeeds when its entries are live. -/
theorem LoadsBook.succeeds {c : Call} {tokenIn tokenOut : Address}
    (h : LoadsBook chain c tokenIn tokenOut w) (hentry : c.entry = .getOrderBook tokenIn tokenOut) :
    ∃ r w', exec chain c w = .ok (r, w') := by
  obtain ⟨hlive, hbook, hloads⟩ := h
  have hcall : twp (program c.entry) (chain.ctx c.sequence c.auth) w fun _ _ => True := by
    rw [hentry]
    simp only [program, getOrderBook, twp_bind, twp_persistentGet, twp_pure]
    exact ⟨hbook, collectOrders_succeeds _ _ hloads⟩
  obtain ⟨r, w', hexec, -⟩ := Machine.exec_of_twp c hlive hcall
  exact ⟨r, w', hexec⟩

end Runs

/-! ## The lifecycle -/

/-- The history `tr` of a run that ends in `w` is one in which every order has one life. -/
structure Lifecycle (chain : Chain X) (tr : List (Occ (World X) (Action X))) (w : World X) :
    Prop where
  /-- The `n`-th placement gets the id `n`, which was free. -/
  ids : ∀ tr₁ o tr₂ c caller tokenIn tokenOut amountIn limitPrice r, tr = tr₁ ++ o :: tr₂ →
    o.act = .call c → c.entry = .placeOrder caller tokenIn tokenOut amountIn limitPrice →
    exec chain c o.before = .ok (r, o.after) →
    ∃ id, r = .u64 id ∧ id.toNat = (placements chain tr₁).length + 1 ∧ orderOf o.before id = none ∧
      orderOf o.after id = some (.opened id caller tokenIn tokenOut amountIn limitPrice)
  /-- The orders there are those placed, on the terms they were placed on. -/
  orders : ∀ id, (orderOf w id).map LimitOrder.terms = termsAt (placements chain tr) id
  stored : ∀ id order, orderOf w id = some order →
    order.id = id ∧ (order.filled = 0 ∨ order.filled = order.amountIn)
  evolves : ∀ o ∈ tr, ∀ id order, orderOf o.before id = some order →
    ∃ order', orderOf o.after id = some order' ∧ order.Evolves order'
  /-- No two of the occurrences pay for one order, whether they fill or refund it. -/
  once : ∀ tr₁ p mid q tr₂ id, tr = tr₁ ++ p :: mid ++ q :: tr₂ →
    PaysOut chain id p ∨ Refunds chain id p → ¬(PaysOut chain id q ∨ Refunds chain id q)
  final : ∀ tr₁ p mid q tr₂ id, tr = tr₁ ++ p :: mid ++ q :: tr₂ →
    CancelsOrder chain id p → ¬PaysOut chain id q
  refund : ∀ o ∈ tr, ∀ id, Refunds chain id o → ∃ c order, Succeeds chain o c ∧
    orderOf o.before id = some order ∧ order.owner ∈ c.auth ∧
    o.after.transfers
      = o.before.transfers ++ [⟨order.tokenIn, chain.self, order.owner, order.amountIn⟩]
  /-- `get_order_book` lists the orders of the pair by their increasing ids, as they are now. -/
  book : ∀ c tokenIn tokenOut, c.entry = .getOrderBook tokenIn tokenOut →
    (LoadsBook chain c tokenIn tokenOut w → ∃ r w', exec chain c w = .ok (r, w')) ∧
    ∀ r w', exec chain c w = .ok (r, w') → w' = w ∧ ∃ os, r = .orders os ∧
      os.map LimitOrder.id = idsOn tokenIn tokenOut (placements chain tr) ∧
      ∀ order ∈ os, orderOf w order.id = some order
  increasing : ∀ tokenIn tokenOut,
    (idsOn tokenIn tokenOut (placements chain tr)).Pairwise (· < ·)

/-- Every run with fewer than `2^64` placements is one. -/
theorem lifecycle_run (chain : Chain X) {w₀ : World X} (h₀ : Machine.Fresh w₀)
    (acts : List (Action X))
    (hlen : (placements chain (trace (step chain) w₀ acts)).length < 2 ^ 64) :
    Lifecycle chain (trace (step chain) w₀ acts) (run (step chain) w₀ acts) where
  ids := by
    intro tr₁ o tr₂ c caller tokenIn tokenOut amountIn limitPrice r htr hact hentry hexec
    obtain ⟨hbefore, hroom⟩ := records_before h₀ hlen htr
    rw [placedBy_of_succeeds ⟨hact, r, hexec⟩, hentry] at hroom
    have hroom : (placements chain tr₁).length + 1 < 2 ^ 64 := by
      simpa [Entrypoint.terms] using hroom
    obtain ⟨hid, hplaces⟩ := exec_placeOrder hentry hexec
    refine ⟨nextId o.before, hid, ?_, hbefore.next_free hroom, hplaces.rewrites.1⟩
    rw [hbefore.count]
    exact toNat_ofNat_succ hroom
  orders := (records_run h₀ hlen).orders
  stored := by
    intro id order hstored
    obtain ⟨hid, horder⟩ := (records_run h₀ hlen).ids id order hstored
    exact ⟨hid, horder.filled⟩
  evolves := by
    intro o ho id order hstored
    obtain ⟨order', hstored', hevolves, -⟩ := evolves_of_mem h₀ hlen ho hstored
    exact ⟨order', hstored', hevolves⟩
  once := by
    intro tr₁ p mid q tr₂ id htr hsettles
    have hsplit : trace (step chain) w₀ acts = tr₁ ++ p :: (mid ++ q :: tr₂) := by simpa using htr
    have hbefore := (records_before h₀ hlen hsplit).1
    have hafter : OrderIs LimitOrder.Closed id p.after := by
      rcases hsettles with hpays | hrefunds
      · exact hpays.after hbefore
      · obtain ⟨order, hstored, hsound, hcancelled⟩ := hrefunds.1.after hbefore
        exact ⟨order, hstored, hsound, .inl hcancelled⟩
    exact (orderIs_between h₀ hlen htr
      (fun _ _ hsound hsound' hevolves => hevolves.closed hsound hsound') hafter).not_settled
  final := by
    intro tr₁ p mid q tr₂ id htr hcancels hpays
    have hsplit : trace (step chain) w₀ acts = tr₁ ++ p :: (mid ++ q :: tr₂) := by simpa using htr
    have hbefore := (records_before h₀ hlen hsplit).1
    obtain ⟨order, hstored, hsound, hcancelled⟩ :=
      orderIs_between h₀ hlen htr (fun _ _ _ _ hevolves => hevolves.cancelled)
        (hcancels.after hbefore)
    exact OrderIs.not_settled ⟨order, hstored, hsound, .inl hcancelled⟩ (.inl hpays)
  refund := by
    intro o ho id hrefunds
    obtain ⟨c, order, hc, hstored, -, hpos, hauth, htransfers⟩ := hrefunds.before
    obtain ⟨tr₁, tr₂, htr⟩ := List.append_of_mem ho
    have horder := ((records_before h₀ hlen htr).1.ids id order hstored).2
    rw [horder.remaining_eq (horder.filled_eq_zero hpos)] at htransfers
    exact ⟨c, order, hc, hstored, hauth, htransfers⟩
  book := by
    intro c tokenIn tokenOut hentry
    refine ⟨fun hloads => hloads.succeeds hentry, ?_⟩
    intro r w' hexec
    exact (records_run h₀ hlen).orderBook hlen hentry hexec
  increasing := fun tokenIn tokenOut => (idsOn_increasing hlen tokenIn tokenOut).1

/-- Three orders, two of them on one pair: the first is filled and the third cancelled. -/
def sampleOrders : List (Action Balances) :=
  [.call ⟨1, [⟨5⟩], .placeOrder ⟨5⟩ ⟨1⟩ ⟨2⟩ 100 50⟩,
    .call ⟨1, [⟨6⟩], .placeOrder ⟨6⟩ ⟨2⟩ ⟨1⟩ 300 50⟩,
    .call ⟨2, [⟨5⟩], .placeOrder ⟨5⟩ ⟨1⟩ ⟨2⟩ 7 50⟩, .call ⟨3, [], .matchOrder 1 50⟩,
    .call ⟨4, [⟨5⟩], .cancelOrder ⟨5⟩ 3⟩]

theorem lifecycle_run_sample :
    let w := run (step sampleChain) sampleWorld sampleOrders
    Lifecycle sampleChain (trace (step sampleChain) sampleWorld sampleOrders) w ∧
    exec sampleChain ⟨5, [], .getOrderBook ⟨1⟩ ⟨2⟩⟩ w = .ok (.orders
      [{ LimitOrder.opened 1 ⟨5⟩ ⟨1⟩ ⟨2⟩ 100 50 with filled := 100 },
        { LimitOrder.opened 3 ⟨5⟩ ⟨1⟩ ⟨2⟩ 7 50 with cancelled := true }], w) := by
  intro w
  have hlen : (placements sampleChain (trace (step sampleChain) sampleWorld sampleOrders)).length
      = 3 := rfl
  have hfresh : Machine.Fresh sampleWorld := Machine.freshEnv_fresh _
  refine ⟨lifecycle_run sampleChain hfresh sampleOrders ?_, rfl⟩
  rw [hlen]
  decide

end LimitOrders
