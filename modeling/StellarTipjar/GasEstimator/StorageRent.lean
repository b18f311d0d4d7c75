import StellarTipjar.TipJar.Types
import StellarTipjar.Lib.Trace
import Mathlib.Data.List.Basic

/-!
# Gas estimator — the storage-rent model

`tools/gas-estimator/src/storage_rent_analysis.rs` projects what the balance and the total entry of
every (creator, token) pair cost: a tip creates the two entries or extends their life, and time
lets them expire. `Reference` is what the contract does with one entry: `extend_ttl` sets the
remaining life to `LEDGER_BUMP` when it is below `LEDGER_THRESHOLD`, and does nothing otherwise.

The simulation adds `LEDGER_BUMP` on every tip, and charges for it. `follows_reference_iff`: it
follows the contract through a run just when no entry is tipped before it has expired.
-/

namespace GasEstimator

open Lib

/-! ## The simulation -/

def ledgerBump : Nat := 120960
def entryCreationCostStroops : Int := 10000
-- `(LEDGER_BUMP as f64 * 0.1) as i128`
def ttlExtensionCostStroops : Int := 12096

def u32Max : Nat := 2 ^ 32 - 1

/-- `u32::saturating_add` -/
def saturatingAdd (a b : Nat) : Nat := min (a + b) u32Max

/-- An entry has some ledgers left, or is archived, or was never there. -/
inductive EntryState where
  | nonexistent
  | active (ttlRemaining : Nat)
  | archived
deriving DecidableEq, Repr

/-- The life each entry has left, and what the tips have cost so far. -/
structure SimulationState where
  entries : List EntryState
  currentLedger : Nat
  cumulativeCost : Int
deriving DecidableEq, Repr

namespace SimulationState

def new (totalPairs : Nat) : SimulationState where
  entries := List.replicate totalPairs .nonexistent
  currentLedger := 0
  cumulativeCost := 0

/-- A tip to entry `idx`; `none` is the panic on an index out of range. -/
def tip (self : SimulationState) (idx : Nat) : Option SimulationState :=
  match self.entries[idx]? with
  | none => none
  | some .nonexistent =>
    let creationCost := 2 * entryCreationCostStroops
    let ttlCost := 2 * ttlExtensionCostStroops
    some { self with
      cumulativeCost := self.cumulativeCost + (creationCost + ttlCost)
      entries := self.entries.set idx (.active ledgerBump) }
  | some (.active ttlRemaining) =>
    let ttlCost := 2 * ttlExtensionCostStroops
    some { self with
      cumulativeCost := self.cumulativeCost + ttlCost
      entries := self.entries.set idx (.active (saturatingAdd ttlRemaining ledgerBump)) }
  | some .archived =>
    let creationCost := 2 * entryCreationCostStroops
    let ttlCost := 2 * ttlExtensionCostStroops
    some { self with
      cumulativeCost := self.cumulativeCost + (creationCost + ttlCost)
      entries := self.entries.set idx (.active ledgerBump) }

end SimulationState

/-- An entry after `ledgers` ledgers. -/
def EntryState.decay (ledgers : Nat) : EntryState → EntryState
  | .active ttlRemaining =>
    if ttlRemaining ≤ ledgers then .archived else .active (ttlRemaining - ledgers)
  | entry => entry

namespace SimulationState

/-- `none` is the overflow of the ledger counter. -/
def advance (self : SimulationState) (ledgers : Nat) : Option SimulationState :=
  if self.currentLedger + ledgers ≤ u32Max then
    some { self with
      currentLedger := self.currentLedger + ledgers
      entries := self.entries.map (EntryState.decay ledgers) }
  else none

/-- The numbers of active and of archived entries. -/
def countEntries (self : SimulationState) : Nat × Nat :=
  self.entries.foldl
    (fun count entry =>
      match entry with
      | .active _ => (count.1 + 1, count.2)
      | .archived => (count.1, count.2 + 1)
      | .nonexistent => count)
    (0, 0)

end SimulationState

/-- A tip to a pair, or time passing. -/
inductive Action where
  | tip (idx : Nat)
  | advance (ledgers : Nat)
deriving DecidableEq, Repr

def step (s : SimulationState) : Action → Option SimulationState
  | .tip idx => s.tip idx
  | .advance ledgers => s.advance ledgers

def simulate (s : SimulationState) (acts : List Action) : Option SimulationState :=
  acts.foldlM step s

theorem simulate_append (s : SimulationState) (l₁ l₂ : List Action) :
    simulate s (l₁ ++ l₂) = (simulate s l₁).bind fun s' => simulate s' l₂ :=
  List.foldlM_append ..

/-- A run grows at its end. -/
theorem simulate_concat (s : SimulationState) (l : List Action) (a : Action) :
    simulate s (l ++ [a]) = (simulate s l).bind fun s' => step s' a := by
  rw [simulate_append]
  congr 1
  funext s'
  show (step s' a).bind pure = step s' a
  exact Option.bind_fun_some _

/-! ## The contract -/

/-- `extend_ttl(LEDGER_THRESHOLD, LEDGER_BUMP)` on the remaining life of an entry. -/
def extendTtl (ttl : Nat) : Nat :=
  if ttl < TipJar.ledgerThreshold then TipJar.ledgerBump else ttl

/-- It is what the host does to the live-until ledger. -/
theorem extendTtl_of_bump {κ : Type} [DecidableEq κ] {β : κ → Type} {ε err X : Type}
    (ctx : Soroban.Ctx κ β ε err X) (env : Soroban.Env κ β ε X) (k : κ) :
    (env.bumpPersistent ctx k TipJar.ledgerThreshold TipJar.ledgerBump).persLive k
        - ctx.sequence.toNat
      = extendTtl (env.persLive k - ctx.sequence.toNat) := by
  unfold Soroban.Env.bumpPersistent extendTtl
  simp only
  split
  · rw [Function.update_self]
    omega
  · rfl

/-- The two entries of every pair, as the contract has them: the ledger at which they expire, `none`
when there has been no tip, and what was paid for them. -/
structure Reference where
  expiry : List (Option Nat)
  ledger : Nat
  cost : Int
deriving DecidableEq, Repr

namespace Reference

def new (totalPairs : Nat) : Reference where
  expiry := List.replicate totalPairs none
  ledger := 0
  cost := 0

/-- A new entry is created, an expired one restored, and either starts with `LEDGER_BUMP`; a live
one has its life extended, which costs nothing when there is nothing to extend. -/
def tip (self : Reference) (idx : Nat) : Reference :=
  match self.expiry[idx]? with
  | none => self
  | some none => { self with
      expiry := self.expiry.set idx (some (self.ledger + TipJar.ledgerBump))
      cost := self.cost + 2 * (entryCreationCostStroops + ttlExtensionCostStroops) }
  | some (some expires) =>
    if expires ≤ self.ledger then { self with
      expiry := self.expiry.set idx (some (self.ledger + TipJar.ledgerBump))
      cost := self.cost + 2 * (entryCreationCostStroops + ttlExtensionCostStroops) }
    else { self with
      expiry := self.expiry.set idx (some (self.ledger + extendTtl (expires - self.ledger)))
      cost := self.cost +
        (if expires - self.ledger < TipJar.ledgerThreshold then 2 * ttlExtensionCostStroops
        else 0) }

def step (self : Reference) : Action → Reference
  | .tip idx => self.tip idx
  | .advance ledgers => { self with ledger := self.ledger + ledgers }

theorem tip_ledger (r : Reference) (idx : Nat) : (r.tip idx).ledger = r.ledger := by
  unfold tip
  split
  · rfl
  · rfl
  · split <;> rfl

theorem tip_expiry_of_ne (r : Reference) {idx other : Nat} (h : other ≠ idx) :
    (r.tip other).expiry[idx]? = r.expiry[idx]? := by
  unfold tip
  split
  · rfl
  · exact List.getElem?_set_ne h
  · split
    · exact List.getElem?_set_ne h
    · exact List.getElem?_set_ne h

/-- A tip to a new or an expired entry gives it a life of `LEDGER_BUMP`. -/
theorem tip_expiry_self {r : Reference} {idx : Nat} {before : Option Nat}
    (hentry : r.expiry[idx]? = some before)
    (hexpired : ∀ expires, before = some expires → expires ≤ r.ledger) :
    (r.tip idx).expiry[idx]? = some (some (r.ledger + TipJar.ledgerBump)) := by
  have hin : idx < r.expiry.length := (List.getElem?_eq_some_iff.mp hentry).1
  unfold tip
  rw [hentry]
  cases before with
  | none => exact List.getElem?_set_self hin
  | some expires =>
    simp only [if_pos (hexpired expires rfl)]
    exact List.getElem?_set_self hin

/-- How the simulation shows an entry of the contract at a ledger. -/
def view (ledger : Nat) : Option Nat → EntryState
  | none => .nonexistent
  | some expires => if expires ≤ ledger then .archived else .active (expires - ledger)

/-- An entry is archived from the ledger on at which it expires. -/
theorem view_expired {ledger expires : Nat} (h : expires ≤ ledger) :
    view ledger (some expires) = .archived := if_pos h

theorem view_live {ledger expires : Nat} (h : ¬expires ≤ ledger) :
    view ledger (some expires) = .active (expires - ledger) := if_neg h

end Reference

/-- The ledger counter, every entry and the cost of the simulation are those of the contract: an
entry is active with the life that is left, archived when it has expired. -/
structure Agrees (s : SimulationState) (r : Reference) : Prop where
  ledger : s.currentLedger = r.ledger
  entries : s.entries = r.expiry.map (Reference.view r.ledger)
  cost : s.cumulativeCost = r.cost

/-- The counts of an agreeing state are those of the live and of the expired entries. -/
theorem Agrees.countEntries {s : SimulationState} {r : Reference} (h : Agrees s r) :
    s.countEntries = (r.expiry.countP fun e => e.any fun expires => r.ledger < expires,
      r.expiry.countP fun e => e.any fun expires => expires ≤ r.ledger) := by
  have hloop : ∀ (expiry : List (Option Nat)) (active archived : Nat),
      (expiry.map (Reference.view r.ledger)).foldl
        (fun count entry =>
          match entry with
          | .active _ => (count.1 + 1, count.2)
          | .archived => (count.1, count.2 + 1)
          | .nonexistent => count) (active, archived)
        = (active + expiry.countP fun e => e.any fun expires => r.ledger < expires,
          archived + expiry.countP fun e => e.any fun expires => expires ≤ r.ledger) := by
    intro expiry
    induction expiry with
    | nil => intro active archived; rfl
    | cons e expiry ih =>
      intro active archived
      rw [List.map_cons, List.foldl_cons, List.countP_cons, List.countP_cons]
      cases e with
      | none =>
        rw [show Reference.view r.ledger none = .nonexistent from rfl]
        simpa using ih active archived
      | some expires =>
        by_cases hexpired : expires ≤ r.ledger
        · rw [Reference.view_expired hexpired]
          have hnot : ¬r.ledger < expires := Nat.not_lt.mpr hexpired
          simp only [Option.any_some, hexpired, hnot, decide_true, decide_false, if_true, ih]
          simp [Nat.add_assoc, Nat.add_comm]
        · rw [Reference.view_live hexpired]
          have hlive : r.ledger < expires := Nat.lt_of_not_le hexpired
          simp only [Option.any_some, hexpired, hlive, decide_true, decide_false, if_true, ih]
          simp [Nat.add_assoc, Nat.add_comm]
  unfold SimulationState.countEntries
  rw [h.entries, hloop]
  simp only [Nat.zero_add]

/-- The simulation runs through the actions and agrees with the contract in every state on the
way. -/
def FollowsReference (totalPairs : Nat) (acts : List Action) : Prop :=
  ∀ l₁ l₂, acts = l₁ ++ l₂ → ∃ s, simulate (.new totalPairs) l₁ = some s ∧
    Agrees s (run Reference.step (.new totalPairs) l₁)

/-! ## One action -/

/-- Time passing shortens what is left by as much. -/
theorem view_decay (ledger ledgers : Nat) (expires : Option Nat) :
    Reference.view (ledger + ledgers) expires
      = (Reference.view ledger expires).decay ledgers := by
  cases expires with
  | none => rfl
  | some expires =>
    by_cases hexpired : expires ≤ ledger
    · rw [Reference.view_expired hexpired, Reference.view_expired (by omega)]
      rfl
    · rw [Reference.view_live hexpired]
      show _ = if expires - ledger ≤ ledgers then _ else _
      by_cases hexpires : expires ≤ ledger + ledgers
      · rw [Reference.view_expired hexpires, if_pos (by omega)]
      · rw [Reference.view_live hexpires, if_neg (by omega), Nat.sub_sub]

/-- Both sides let the same number of ledgers pass. -/
theorem Agrees.advance {s s' : SimulationState} {r : Reference} (h : Agrees s r) {ledgers : Nat}
    (hstep : s.advance ledgers = some s') : Agrees s' (r.step (.advance ledgers)) := by
  unfold SimulationState.advance at hstep
  split at hstep
  · cases hstep
    refine ⟨?_, ?_, h.cost⟩
    · show s.currentLedger + ledgers = r.ledger + ledgers
      rw [h.ledger]
    · show s.entries.map _ = r.expiry.map (Reference.view (r.ledger + ledgers))
      rw [h.entries, List.map_map]
      refine List.map_congr_left fun expires _ => ?_
      exact (view_decay r.ledger ledgers expires).symm
  · cases hstep

theorem Agrees.getElem? {s : SimulationState} {r : Reference} (h : Agrees s r) (idx : Nat) :
    s.entries[idx]? = r.expiry[idx]?.map (Reference.view r.ledger) := by
  rw [h.entries, List.getElem?_map]

/-- A new entry in both. -/
theorem Agrees.created {s : SimulationState} {r : Reference} (h : Agrees s r) (idx : Nat) :
    Agrees { s with
        cumulativeCost := s.cumulativeCost
          + (2 * entryCreationCostStroops + 2 * ttlExtensionCostStroops)
        entries := s.entries.set idx (.active ledgerBump) }
      { r with
        expiry := r.expiry.set idx (some (r.ledger + TipJar.ledgerBump))
        cost := r.cost + 2 * (entryCreationCostStroops + ttlExtensionCostStroops) } := by
  refine ⟨h.ledger, ?_, ?_⟩
  · show s.entries.set idx (.active ledgerBump) = (r.expiry.set idx _).map _
    have hnew : Reference.view r.ledger (some (r.ledger + TipJar.ledgerBump))
        = .active ledgerBump := by
      rw [Reference.view_live (by simp [TipJar.ledgerBump]), Nat.add_sub_cancel_left]
      rfl
    rw [List.map_set, hnew, ← h.entries]
  · show s.cumulativeCost + _ = r.cost + _
    rw [h.cost, Int.mul_add]

/-- A tip to an entry that is not active is the same in both. -/
theorem Agrees.tip {s s' : SimulationState} {r : Reference} (h : Agrees s r) {idx : Nat}
    (hstep : s.tip idx = some s') (hidle : ∀ ttl, s.entries[idx]? ≠ some (.active ttl)) :
    Agrees s' (r.tip idx) := by
  have hentry := h.getElem? idx
  unfold SimulationState.tip at hstep
  unfold Reference.tip
  cases hexpiry : r.expiry[idx]? with
  | none =>
    rw [hexpiry] at hentry
    rw [hentry] at hstep
    cases hstep
  | some expires =>
    rw [hexpiry] at hentry
    cases expires with
    | none =>
      rw [hentry] at hstep
      cases hstep
      exact h.created idx
    | some expires =>
      by_cases hexpired : expires ≤ r.ledger
      · have harchived : s.entries[idx]? = some .archived := by
          rw [hentry, Option.map_some, Reference.view_expired hexpired]
        rw [harchived] at hstep
        cases hstep
        simp only [if_pos hexpired]
        exact h.created idx
      · refine absurd ?_ (hidle (expires - r.ledger))
        rw [hentry, Option.map_some, Reference.view_live hexpired]

/-- A tip to an active entry is not: the life that is left is added to, or a charge made for
nothing. -/
theorem Agrees.not_tip {s s' : SimulationState} {r : Reference} (h : Agrees s r) {idx ttl : Nat}
    (hstep : s.tip idx = some s') (hactive : s.entries[idx]? = some (.active ttl)) :
    ¬Agrees s' (r.tip idx) := by
  intro hafter
  have hentry := h.getElem? idx
  rw [hactive] at hentry
  obtain ⟨expires, hexpiry, hview⟩ := Option.map_eq_some_iff.mp hentry.symm
  -- the entry of the contract is live, for as long as the simulation says
  obtain ⟨expires, rfl, hlive, rfl⟩ : ∃ e, expires = some e ∧ ¬e ≤ r.ledger ∧
      e - r.ledger = ttl := by
    cases expires with
    | none => cases hview
    | some e =>
      by_cases hexpired : e ≤ r.ledger
      · rw [Reference.view_expired hexpired] at hview
        cases hview
      · rw [Reference.view_live hexpired] at hview
        exact ⟨e, rfl, hexpired, EntryState.active.inj hview⟩
  unfold SimulationState.tip at hstep
  rw [hactive] at hstep
  cases hstep
  unfold Reference.tip at hafter
  rw [hexpiry] at hafter
  simp only [if_neg hlive] at hafter
  by_cases hlow : expires - r.ledger < TipJar.ledgerThreshold
  · -- a life that starts anew in the contract has the old one on top in the simulation
    have hin : idx < r.expiry.length := (List.getElem?_eq_some_iff.mp hexpiry).1
    have hins : idx < s.entries.length := by rw [h.entries, List.length_map]; exact hin
    have hsame := hafter.getElem? idx
    simp only [List.getElem?_set_self hin, List.getElem?_set_self hins, Option.map_some,
      Option.some.injEq] at hsame
    unfold extendTtl at hsame
    rw [if_pos hlow, Reference.view_live (by simp [TipJar.ledgerBump])] at hsame
    have httl := EntryState.active.inj hsame
    simp only [saturatingAdd, u32Max, ledgerBump, TipJar.ledgerBump] at httl
    omega
  · have hcost := hafter.cost
    simp only [if_neg hlow, h.cost] at hcost
    exact absurd hcost (by simp [ttlExtensionCostStroops])

/-! ## Runs -/

def Action.ledgers : Action → Nat
  | .tip _ => 0
  | .advance ledgers => ledgers

/-- The ledgers that pass during the actions. -/
def ledgersIn (acts : List Action) : Nat := (acts.map Action.ledgers).sum

/-- Between two tips to one entry at least `LEDGER_BUMP` ledgers pass. -/
def Spaced (acts : List Action) : Prop :=
  ∀ idx l₁ l₂ l₃, acts = l₁ ++ .tip idx :: l₂ ++ .tip idx :: l₃ → ledgerBump ≤ ledgersIn l₂

theorem Spaced.left {l₁ l₂ : List Action} (h : Spaced (l₁ ++ l₂)) : Spaced l₁ := by
  intro idx k₁ k₂ k₃ heq
  refine h idx k₁ k₂ (k₃ ++ l₂) ?_
  rw [heq]
  simp

/-- The ledgers of a run add up. -/
theorem ledgersIn_concat (l : List Action) (a : Action) :
    ledgersIn (l ++ [a]) = ledgersIn l + a.ledgers := by
  simp [ledgersIn]

section Reference

variable {totalPairs : Nat} {acts : List Action}

/-- An entry of the contract expires `LEDGER_BUMP` ledgers after a tip to it, when tips are spaced:
every tip finds it new or expired. -/
theorem expiry_of_spaced (hspaced : Spaced acts) {idx expires : Nat}
    (h : (run Reference.step (.new totalPairs) acts).expiry[idx]? = some (some expires)) :
    ∃ l₁ l₂, acts = l₁ ++ .tip idx :: l₂ ∧
      (run Reference.step (.new totalPairs) acts).ledger + ledgerBump
        = expires + ledgersIn l₂ := by
  induction acts using List.reverseRecOn generalizing expires with
  | nil =>
    have hmem := List.mem_of_getElem? h
    rw [run_nil] at hmem
    exact absurd (List.eq_of_mem_replicate hmem) (by simp)
  | append_singleton acts a ih =>
    have ih := fun expires => @ih hspaced.left expires
    rw [run_concat] at h ⊢
    generalize run Reference.step (.new totalPairs) acts = r at h ih ⊢
    -- an entry the action does not touch is as it was, and the action adds its ledgers
    have hkept : r.expiry[idx]? = some (some expires) → (r.step a).ledger = r.ledger + a.ledgers →
        ∃ l₁ l₂, acts ++ [a] = l₁ ++ .tip idx :: l₂ ∧
          (r.step a).ledger + ledgerBump = expires + ledgersIn l₂ := by
      intro hbefore hledger
      obtain ⟨l₁, l₂, rfl, hexpires⟩ := ih expires hbefore
      refine ⟨l₁, l₂ ++ [a], by simp, ?_⟩
      rw [ledgersIn_concat, hledger]
      omega
    cases a with
    | advance ledgers => exact hkept h rfl
    | tip other =>
      by_cases hother : other = idx
      · subst hother
        cases hbefore : r.expiry[other]? with
        | none =>
          have hsame : (r.tip other).expiry[other]? = none := by
            unfold Reference.tip
            rw [hbefore]
            exact hbefore
          rw [show (r.step (.tip other)) = r.tip other from rfl, hsame] at h
          cases h
        | some before =>
          -- the tip before this one is long enough ago
          have hexpired : ∀ e, before = some e → e ≤ r.ledger := by
            intro e he
            obtain ⟨l₁, l₂, rfl, hexpires⟩ := ih e (hbefore.trans (congrArg some he))
            have hspace := hspaced other l₁ l₂ [] (by simp)
            omega
          rw [show (r.step (.tip other)) = r.tip other from rfl,
            Reference.tip_expiry_self hbefore hexpired] at h
          obtain rfl := Option.some.inj (Option.some.inj h)
          refine ⟨acts, [], rfl, ?_⟩
          show (r.tip other).ledger + ledgerBump = r.ledger + TipJar.ledgerBump + 0
          rw [Reference.tip_ledger]
          rfl
      · refine hkept ?_ (r.tip_ledger other)
        rw [← r.tip_expiry_of_ne hother]
        exact h

end Reference

/-- Spaced tips: the simulation follows the contract. -/
theorem agrees_of_spaced {totalPairs : Nat} {acts : List Action} (hspaced : Spaced acts)
    {s : SimulationState} (hrun : simulate (.new totalPairs) acts = some s) :
    Agrees s (run Reference.step (.new totalPairs) acts) := by
  induction acts using List.reverseRecOn generalizing s with
  | nil =>
    cases hrun
    refine ⟨rfl, ?_, rfl⟩
    show List.replicate totalPairs EntryState.nonexistent = (List.replicate totalPairs none).map _
    rw [List.map_replicate]
    rfl
  | append_singleton acts a ih =>
    rw [simulate_concat] at hrun
    obtain ⟨before, hbefore, hstep⟩ := Option.bind_eq_some_iff.mp hrun
    have hagrees := ih hspaced.left hbefore
    rw [run_concat]
    cases a with
    | advance ledgers => exact hagrees.advance hstep
    | tip idx =>
      refine hagrees.tip hstep fun ttl hactive => ?_
      -- an active entry has been tipped less than `LEDGER_BUMP` ledgers ago
      rw [hagrees.getElem? idx] at hactive
      obtain ⟨expires, hexpiry, hview⟩ := Option.map_eq_some_iff.mp hactive
      cases expires with
      | none => cases hview
      | some expires =>
        obtain ⟨l₁, l₂, rfl, hledger⟩ := expiry_of_spaced hspaced.left hexpiry
        have hspace := hspaced idx l₁ l₂ [] (by simp)
        rw [Reference.view_expired (by omega)] at hview
        cases hview

/-! ### The other direction -/

/-- Entry `idx` is active, with at least `life` left. -/
def LivesFor (idx life : Nat) (s : SimulationState) : Prop :=
  ∃ ttl, s.entries[idx]? = some (.active ttl) ∧ life ≤ ttl

/-- A tip gives its entry a full life at least. -/
theorem livesFor_of_tip {s s' : SimulationState} {idx : Nat} (h : s.tip idx = some s') :
    LivesFor idx ledgerBump s' := by
  unfold SimulationState.tip at h
  cases hentry : s.entries[idx]? with
  | none =>
    rw [hentry] at h
    cases h
  | some entry =>
    have hin : idx < s.entries.length := (List.getElem?_eq_some_iff.mp hentry).1
    rw [hentry] at h
    cases entry with
    | nonexistent =>
      cases h
      exact ⟨ledgerBump, List.getElem?_set_self hin, Nat.le_refl _⟩
    | active ttl =>
      cases h
      refine ⟨saturatingAdd ttl ledgerBump, List.getElem?_set_self hin, ?_⟩
      simp only [saturatingAdd, u32Max, ledgerBump]
      omega
    | archived =>
      cases h
      exact ⟨ledgerBump, List.getElem?_set_self hin, Nat.le_refl _⟩

/-- And leaves the others. -/
theorem tip_getElem?_of_ne {s s' : SimulationState} {idx other : Nat} (h : s.tip other = some s')
    (hne : other ≠ idx) : s'.entries[idx]? = s.entries[idx]? := by
  unfold SimulationState.tip at h
  split at h
  · cases h
  all_goals
    cases h
    exact List.getElem?_set_ne hne

/-- An action takes at most its ledgers from the life of an entry. -/
theorem LivesFor.step {s s' : SimulationState} {idx life : Nat} (h : LivesFor idx life s)
    (hlife : life ≤ ledgerBump) {a : Action} (hstep : step s a = some s')
    (hledgers : a.ledgers < life) : LivesFor idx (life - a.ledgers) s' := by
  obtain ⟨ttl, hactive, hle⟩ := h
  cases a with
  | tip other =>
    by_cases hother : other = idx
    · subst hother
      obtain ⟨ttl', hactive', hle'⟩ := livesFor_of_tip hstep
      exact ⟨ttl', hactive', (Nat.sub_le _ _).trans (hlife.trans hle')⟩
    · exact ⟨ttl, (tip_getElem?_of_ne hstep hother).trans hactive, (Nat.sub_le _ _).trans hle⟩
  | advance ledgers =>
    have hledgers : ledgers < life := hledgers
    unfold GasEstimator.step SimulationState.advance at hstep
    simp only at hstep
    split at hstep
    · cases hstep
      refine ⟨ttl - ledgers, ?_, Nat.sub_le_sub_right hle ledgers⟩
      show (s.entries.map (EntryState.decay ledgers))[idx]? = _
      rw [List.getElem?_map, hactive, Option.map_some]
      show some (if ttl ≤ ledgers then _ else _) = _
      rw [if_neg (by omega)]
    · cases hstep

/-- An entry survives a run that is shorter than its life. -/
theorem LivesFor.simulate {s s' : SimulationState} {idx life : Nat} {acts : List Action}
    (h : LivesFor idx life s) (hlife : life ≤ ledgerBump)
    (hrun : simulate s acts = some s') (hledgers : ledgersIn acts < life) :
    LivesFor idx (life - ledgersIn acts) s' := by
  induction acts using List.reverseRecOn generalizing s' with
  | nil =>
    cases hrun
    exact h
  | append_singleton acts a ih =>
    rw [simulate_concat] at hrun
    obtain ⟨before, hbefore, hstep⟩ := Option.bind_eq_some_iff.mp hrun
    rw [ledgersIn_concat] at hledgers ⊢
    rw [← Nat.sub_sub]
    exact (ih hbefore (by omega)).step (by omega) hstep (by omega)

/-- Following the contract, the simulation is never asked to tip an active entry. -/
theorem spaced_of_follows {totalPairs : Nat} {acts : List Action}
    (h : FollowsReference totalPairs acts) : Spaced acts := by
  intro idx l₁ l₂ l₃ heq
  by_contra hclose
  have htwice : acts = (l₁ ++ [.tip idx]) ++ (l₂ ++ .tip idx :: l₃) := by rw [heq]; simp
  have hsecond : acts = (l₁ ++ .tip idx :: l₂) ++ .tip idx :: l₃ := heq
  have hafter : acts = ((l₁ ++ .tip idx :: l₂) ++ [.tip idx]) ++ l₃ := by rw [heq]; simp
  obtain ⟨s₁, hrun₁, -⟩ := h _ _ htwice
  obtain ⟨s₂, hrun₂, hagrees₂⟩ := h _ _ hsecond
  obtain ⟨s₃, hrun₃, hagrees₃⟩ := h _ _ hafter
  -- the first tip leaves the entry active, and it still is at the second
  have hlives₁ : LivesFor idx ledgerBump s₁ := by
    rw [simulate_concat] at hrun₁
    obtain ⟨s₀, -, htip⟩ := Option.bind_eq_some_iff.mp hrun₁
    exact livesFor_of_tip htip
  have hlives₂ : LivesFor idx (ledgerBump - ledgersIn l₂) s₂ := by
    have hsplit : l₁ ++ .tip idx :: l₂ = (l₁ ++ [.tip idx]) ++ l₂ := by simp
    rw [hsplit, simulate_append, hrun₁] at hrun₂
    exact hlives₁.simulate (Nat.le_refl _) hrun₂ (Nat.lt_of_not_le hclose)
  obtain ⟨ttl, hactive, -⟩ := hlives₂
  rw [simulate_concat, hrun₂] at hrun₃
  rw [run_concat] at hagrees₃
  exact hagrees₂.not_tip hrun₃ hactive hagrees₃

/-- By induction over the run, with `Agrees` at every state. -/
theorem follows_of_spaced {totalPairs : Nat} {acts : List Action}
    (hrun : (simulate (.new totalPairs) acts).isSome) (hspaced : Spaced acts) :
    FollowsReference totalPairs acts := by
  intro l₁ l₂ heq
  rw [heq] at hspaced hrun
  rw [simulate_append] at hrun
  cases hbefore : simulate (.new totalPairs) l₁ with
  | none =>
    rw [hbefore] at hrun
    cases hrun
  | some s => exact ⟨s, rfl, agrees_of_spaced hspaced.left hbefore⟩

/-- For any number of entries and every sequence of tips and time steps the simulation runs through:
it agrees with the contract in every state on the way just when between two tips to one entry at
least `LEDGER_BUMP` ledgers pass, so that no entry is tipped while it is alive. It then counts the
live and the expired entries of the contract; and what the contract's entries are extended by is
what the host does to the live-until ledger. -/
theorem follows_reference_iff {totalPairs : Nat} {acts : List Action}
    (hrun : (simulate (.new totalPairs) acts).isSome) :
    (FollowsReference totalPairs acts ↔ Spaced acts) ∧
    (Spaced acts → ∀ s, simulate (.new totalPairs) acts = some s →
      let r := run Reference.step (.new totalPairs) acts
      s.countEntries = (r.expiry.countP fun e => e.any fun expires => r.ledger < expires,
        r.expiry.countP fun e => e.any fun expires => expires ≤ r.ledger)) ∧
    ∀ (X : Type) (ctx : Soroban.Ctx TipJar.DataKey TipJar.DataKey.Val TipJar.Event TipJar.Error X)
      (w : TipJar.World X) (k : TipJar.DataKey),
      (w.bumpPersistent ctx k TipJar.ledgerThreshold TipJar.ledgerBump).persLive k
          - ctx.sequence.toNat
        = extendTtl (w.persLive k - ctx.sequence.toNat) :=
  ⟨⟨spaced_of_follows, follows_of_spaced hrun⟩,
    fun hspaced _ hs => (agrees_of_spaced hspaced hs).countEntries,
    fun _ ctx w k => extendTtl_of_bump ctx w k⟩

/-- Two tips a month apart: the second finds the entry expired. -/
theorem follows_reference_iff_monthly :
    FollowsReference 1 [.tip 0, .advance 518400, .tip 0] ∧
      simulate (.new 1) [.tip 0, .advance 518400, .tip 0]
        = some ⟨[.active 120960], 518400, 88384⟩ := by
  refine ⟨(follows_reference_iff (by decide)).1.mpr ?_, by decide⟩
  intro idx l₁ l₂ l₃ heq
  match l₁, l₂ with
  | [], [] => simp at heq
  | [], [a] =>
    simp only [List.nil_append, List.cons_append, List.cons.injEq] at heq
    obtain ⟨-, rfl, -⟩ := heq
    decide
  | [], _ :: _ :: _ => simp at heq
  | [_], _ => simp at heq
  | [_, _], _ => simp at heq
  | _ :: _ :: _ :: _, _ => simp at heq

/-- A tip a day: after two the simulation has the entry live for a fortnight less a day and has
charged for a second extension, which the contract does not make. -/
theorem daily_tips_accumulate :
    ¬FollowsReference 1 [.tip 0, .advance 17280, .tip 0] ∧
      simulate (.new 1) [.tip 0, .advance 17280, .tip 0]
        = some ⟨[.active 224640], 17280, 68384⟩ ∧
      run Reference.step (.new 1) [.tip 0, .advance 17280, .tip 0]
        = ⟨[some 120960], 17280, 44192⟩ := by
  refine ⟨fun h => ?_, by decide, by decide⟩
  obtain ⟨s, hrun, hagrees⟩ := h [.tip 0, .advance 17280, .tip 0] [] rfl
  obtain rfl : s = ⟨[.active 224640], 17280, 68384⟩ := by
    rw [show simulate (.new 1) [.tip 0, .advance 17280, .tip 0]
      = some ⟨[.active 224640], 17280, 68384⟩ by decide] at hrun
    exact (Option.some.inj hrun).symm
  exact absurd hagrees.cost (by decide)

end GasEstimator
