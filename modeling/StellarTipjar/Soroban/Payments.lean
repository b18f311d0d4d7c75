import StellarTipjar.Soroban.Wp

/-!
# Several token calls in a row

What a function does to the tokens is a list of transfers, made one after the other. `transferAll`
is their effect on the outside world, and `holding_add_flow` and `pays_all` are the two facts about
an exact token for the whole list: what the contract holds afterwards, and that it can pay.
-/

namespace Soroban

open Lib Contract

/-- What a transfer brings the account `self` in `T`. -/
def Transfer.flow (self T : Address) (t : Transfer) : Int :=
  if t.token = T then
    (if self = t.dest then t.amount.val else 0) - (if self = t.source then t.amount.val else 0)
  else 0

/-- A positive amount is sent, nothing else is. -/
def Transfer.positive (t : Transfer) : List Transfer := if 0 < t.amount then [t] else []

theorem Transfer.mem_positive {t u : Transfer} (h : u ∈ t.positive) : u = t ∧ 0 < t.amount.val := by
  unfold Transfer.positive at h
  split at h
  · next hpos => exact ⟨List.mem_singleton.mp h, hpos⟩
  · cases h

/-- What the transfers move together. -/
def transferred (ts : List Transfer) : Int := (ts.map fun t => t.amount.val).sum

@[simp] theorem transferred_nil : transferred [] = 0 := rfl

theorem transferred_cons (t : Transfer) (ts : List Transfer) :
    transferred (t :: ts) = t.amount.val + transferred ts := by
  simp [transferred]

theorem transferred_append (ts us : List Transfer) :
    transferred (ts ++ us) = transferred ts + transferred us := by
  simp [transferred]

theorem transferred_singleton (t : Transfer) : transferred [t] = t.amount.val := by
  simp [transferred]

theorem transferred_positive {t : Transfer} (h : 0 ≤ t.amount.val) :
    transferred t.positive = t.amount.val := by
  unfold Transfer.positive
  split
  · exact transferred_singleton t
  · next hpos =>
    have hzero : ¬0 < t.amount.val := hpos
    rw [transferred_nil]
    omega

/-! ## What a list of transfers brings an account -/

section Flow

variable {self T : Address} {ts : List Transfer}

/-- What the transfers bring the account `self` in `T`. -/
def flow (self T : Address) (ts : List Transfer) : Int := (ts.map (Transfer.flow self T)).sum

@[simp] theorem flow_nil : flow self T [] = 0 := rfl

theorem flow_cons (t : Transfer) : flow self T (t :: ts) = t.flow self T + flow self T ts := by
  simp [flow]

theorem flow_other (h : ∀ t ∈ ts, t.token ≠ T) : flow self T ts = 0 := by
  refine List.sum_eq_zero fun n hn => ?_
  obtain ⟨t, ht, rfl⟩ := List.mem_map.mp hn
  exact if_neg (h t ht)

theorem flow_in (h : ∀ t ∈ ts, t.token = T ∧ t.source ≠ self ∧ t.dest = self) :
    flow self T ts = transferred ts := by
  induction ts with
  | nil => rfl
  | cons t ts ih =>
    obtain ⟨htoken, hsource, hdest⟩ := h t (by simp)
    rw [flow_cons, transferred_cons, ih fun u hu => h u (by simp [hu]), Transfer.flow,
      if_pos htoken, if_pos hdest.symm, if_neg (Ne.symm hsource)]
    omega

/-- No more is taken than is sent. -/
theorem flow_out (h : ∀ t ∈ ts, t.token = T ∧ t.source = self ∧ 0 ≤ t.amount.val) :
    -transferred ts ≤ flow self T ts := by
  induction ts with
  | nil => exact le_rfl
  | cons t ts ih =>
    obtain ⟨htoken, hsource, hamount⟩ := h t (by simp)
    have hrest := ih fun u hu => h u (by simp [hu])
    rw [flow_cons, transferred_cons, Transfer.flow, if_pos htoken, if_pos hsource.symm]
    split <;> omega

end Flow

namespace Chain

variable {X : Type} {chain : Chain X} {T : Address} {holding : X → Address → Nat} {x x' : X}

def transferAll (chain : Chain X) : List Transfer → X → Option X
  | [], x => some x
  | t :: ts, x => (chain.transfer t x).bind (chain.transferAll ts)

@[simp] theorem transferAll_nil : chain.transferAll [] x = some x := rfl

theorem transferAll_cons {t : Transfer} {ts : List Transfer} :
    chain.transferAll (t :: ts) x = some x' ↔
      ∃ y, chain.transfer t x = some y ∧ chain.transferAll ts y = some x' :=
  Option.bind_eq_some_iff

theorem transferAll_singleton {t : Transfer} :
    chain.transferAll [t] x = some x' ↔ chain.transfer t x = some x' := by
  rw [transferAll_cons]
  simp

/-- What the contract holds afterwards. -/
theorem ExactToken.holding_add_flow (h : chain.ExactToken T holding) {ts : List Transfer}
    (hts : chain.transferAll ts x = some x') :
    (holding x chain.self : Int) + flow chain.self T ts ≤ holding x' chain.self := by
  induction ts generalizing x with
  | nil =>
    obtain rfl := Option.some.inj hts
    simp
  | cons t ts ih =>
    obtain ⟨y, hy, hrest⟩ := transferAll_cons.mp hts
    have hrest := ih hrest
    rw [flow_cons]
    by_cases hT : t.token = T
    · have hmoves := h.moves t x y hT hy chain.self
      have hflow : t.flow chain.self T = (if chain.self = t.dest then t.amount.val else 0)
          - (if chain.self = t.source then t.amount.val else 0) := if_pos hT
      omega
    · have hspares := h.spares t x y hT hy
      have hflow : t.flow chain.self T = 0 := if_neg hT
      omega

/-- A contract that holds the sum of what it is to pay can make all the payments. -/
theorem PayingToken.pays_all (h : chain.PayingToken T holding) {ts : List Transfer}
    (hts : ∀ t ∈ ts, t.token = T ∧ t.source = chain.self ∧ 0 < t.amount.val)
    (hholds : transferred ts ≤ holding x chain.self) :
    ∃ x', chain.transferAll ts x = some x' := by
  induction ts generalizing x with
  | nil => exact ⟨x, rfl⟩
  | cons t ts ih =>
    obtain ⟨htoken, hsource, hpos⟩ := hts t (by simp)
    have hrest : ∀ u ∈ ts, u.token = T ∧ u.source = chain.self ∧ 0 < u.amount.val :=
      fun u hu => hts u (by simp [hu])
    have hnonneg : 0 ≤ transferred ts := by
      refine List.sum_nonneg fun n hn => ?_
      obtain ⟨u, hu, rfl⟩ := List.mem_map.mp hn
      exact (hrest u hu).2.2.le
    rw [transferred_cons] at hholds
    obtain ⟨y, hy⟩ := h.pays t x htoken hsource hpos (by omega)
    have hmoves := h.moves t x y htoken hy chain.self
    rw [if_pos hsource.symm] at hmoves
    obtain ⟨x', hx'⟩ := ih hrest (x := y) (by split at hmoves <;> omega)
    exact ⟨x', transferAll_cons.mpr ⟨y, hy, hx'⟩⟩

end Chain

/-- The token calls `ts` were made, one after the other. -/
structure Sends {κ : Type} {β : κ → Type} {ε X : Type} (chain : Chain X) (ts : List Transfer)
    (w w' : Env κ β ε X) : Prop where
  ext : chain.transferAll ts w.ext = some w'.ext
  transfers : w'.transfers = w.transfers ++ ts

namespace Sends

variable {κ : Type} {β : κ → Type} {ε X : Type} {chain : Chain X} {w w' : Env κ β ε X}

theorem none (hext : w'.ext = w.ext) (htransfers : w'.transfers = w.transfers) :
    Sends chain [] w w' :=
  ⟨by rw [Chain.transferAll_nil, hext], by rw [htransfers, List.append_nil]⟩

/-- The transfers of a step are what it added to the log. -/
theorem drop_transfers {ts : List Transfer} (h : Sends chain ts w w') :
    w'.transfers.drop w.transfers.length = ts := by
  rw [h.transfers, List.drop_left]

end Sends

end Soroban
