import StellarTipjar.TipJar.LazyMigration

/-!
# TipJar — the abstract ledger

What the contract is for: it keeps, per creator and token, a withdrawable balance and a running
total, and per token the fees collected. `Ledger` is that, with none of the storage layout, and
`Move` is what a call can do to it. `ledger w` reads the abstract ledger off a storage in either
layout; the lemmas of this module say how it changes under each storage update.

A v1 counter hides its v2 counter from the contract. `Separate` says that the two never exist
together, which is what makes the migrations lossless.
-/

namespace TipJar

open Lib Soroban Contract

/-! ## Ledgers and moves -/

@[ext] structure Ledger where
  balance : Address → Address → Int
  total : Address → Address → Int
  fee : Address → Int

/-- What a call does to the ledger. -/
inductive Move where
  | idle
  | tip (creator token : Address) (amount fee : Int)
  | withdraw (creator token : Address) (amount : Int)
  | withdrawFees (token : Address) (amount : Int)
deriving DecidableEq, Repr

namespace Move

/-- What a move adds to the balance of `c` in `T`. -/
def toBalance (c T : Address) : Move → Int
  | .tip creator token amount fee => if creator = c ∧ token = T then amount - fee else 0
  | .withdraw creator token amount => if creator = c ∧ token = T then -amount else 0
  | _ => 0

/-- What a move adds to the total of `c` in `T`: tips, and never anything negative. -/
def toTotal (c T : Address) : Move → Int
  | .tip creator token amount _ => if creator = c ∧ token = T then amount else 0
  | _ => 0

/-- What a move adds to the fees of `T`. -/
def toFee (T : Address) : Move → Int
  | .tip _ token _ fee => if token = T then fee else 0
  | .withdrawFees token amount => if token = T then -amount else 0
  | _ => 0

end Move

namespace Ledger

/-- The ledger of a fresh contract. -/
def zero : Ledger := ⟨fun _ _ => 0, fun _ _ => 0, fun _ => 0⟩

def setBalance (L : Ledger) (creator token : Address) (v : Int) : Ledger :=
  { L with balance := fun c t => if c = creator ∧ t = token then v else L.balance c t }

def setTotal (L : Ledger) (creator token : Address) (v : Int) : Ledger :=
  { L with total := fun c t => if c = creator ∧ t = token then v else L.total c t }

def setFee (L : Ledger) (token : Address) (v : Int) : Ledger :=
  { L with fee := fun t => if t = token then v else L.fee t }

/-- The ledger after a move. -/
def apply (L : Ledger) : Move → Ledger
  | .idle => L
  | .tip creator token amount fee =>
    ((L.setBalance creator token (L.balance creator token + (amount - fee))).setTotal creator token
      (L.total creator token + amount)).setFee token (L.fee token + fee)
  | .withdraw creator token amount =>
    L.setBalance creator token (L.balance creator token - amount)
  | .withdrawFees token amount => L.setFee token (L.fee token - amount)

/-- A move changes a balance by what it adds to it; the two lemmas below say so for totals and fees. -/
theorem balance_apply (L : Ledger) (m : Move) (c T : Address) :
    (L.apply m).balance c T = L.balance c T + m.toBalance c T := by
  cases m with
  | idle => simp [apply, Move.toBalance]
  | tip creator token amount fee =>
    show (if c = creator ∧ T = token then _ else _) = _ + (if creator = c ∧ token = T then _ else _)
    by_cases h : c = creator ∧ T = token
    · obtain ⟨rfl, rfl⟩ := h
      simp
    · simp [h, eq_comm]
  | withdraw creator token amount =>
    show (if c = creator ∧ T = token then _ else _) = _ + (if creator = c ∧ token = T then _ else _)
    by_cases h : c = creator ∧ T = token
    · obtain ⟨rfl, rfl⟩ := h
      simp [Int.sub_eq_add_neg]
    · simp [h, eq_comm]
  | withdrawFees token amount => simp [apply, setFee, Move.toBalance]

theorem total_apply (L : Ledger) (m : Move) (c T : Address) :
    (L.apply m).total c T = L.total c T + m.toTotal c T := by
  cases m with
  | idle => simp [apply, Move.toTotal]
  | tip creator token amount fee =>
    show (if c = creator ∧ T = token then _ else _) = _ + (if creator = c ∧ token = T then _ else _)
    by_cases h : c = creator ∧ T = token
    · obtain ⟨rfl, rfl⟩ := h
      simp
    · simp [h, eq_comm]
      rfl
  | withdraw creator token amount => simp [apply, setBalance, Move.toTotal]
  | withdrawFees token amount => simp [apply, setFee, Move.toTotal]

theorem fee_apply (L : Ledger) (m : Move) (T : Address) :
    (L.apply m).fee T = L.fee T + m.toFee T := by
  cases m with
  | idle => simp [apply, Move.toFee]
  | tip creator token amount fee =>
    show (if T = token then _ else _) = _ + (if token = T then _ else _)
    by_cases h : T = token
    · subst h
      simp
    · simp [h, eq_comm]
      rfl
  | withdraw creator token amount => simp [apply, setBalance, Move.toFee]
  | withdrawFees token amount =>
    show (if T = token then _ else _) = _ + (if token = T then _ else _)
    by_cases h : T = token
    · subst h
      simp [Int.sub_eq_add_neg]
    · simp [h, eq_comm]

/-- Balances are between zero and the totals, fees are not negative. -/
structure Sound (L : Ledger) : Prop where
  balance_nonneg : ∀ c T, 0 ≤ L.balance c T
  balance_le : ∀ c T, L.balance c T ≤ L.total c T
  fee_nonneg : ∀ T, 0 ≤ L.fee T

/-- A tip splits its amount, a withdrawal takes at most what is there. -/
def Fair (L : Ledger) : Move → Prop
  | .idle => True
  | .tip _ _ amount fee => 0 ≤ fee ∧ fee ≤ amount
  | .withdraw creator token amount => 0 < amount ∧ amount ≤ L.balance creator token
  | .withdrawFees token amount => 0 < amount ∧ amount ≤ L.fee token

/-- A fair move keeps the ledger sound. -/
theorem Sound.apply {L : Ledger} (h : L.Sound) {m : Move} (hm : L.Fair m) : (L.apply m).Sound := by
  refine ⟨fun c T => ?_, fun c T => ?_, fun T => ?_⟩
  · rw [balance_apply]
    have hb := h.balance_nonneg c T
    cases m with
    | idle => simpa [Move.toBalance] using hb
    | tip creator token amount fee =>
      obtain ⟨_, _⟩ := hm
      simp only [Move.toBalance]
      split <;> omega
    | withdraw creator token amount =>
      obtain ⟨_, hle⟩ := hm
      simp only [Move.toBalance]
      split
      · next heq =>
        obtain ⟨rfl, rfl⟩ := heq
        omega
      · omega
    | withdrawFees token amount => simpa [Move.toBalance] using hb
  · rw [balance_apply, total_apply]
    have hb := h.balance_le c T
    cases m with
    | idle => simpa [Move.toBalance, Move.toTotal] using hb
    | tip creator token amount fee =>
      obtain ⟨_, _⟩ := hm
      simp only [Move.toBalance, Move.toTotal]
      split <;> omega
    | withdraw creator token amount =>
      obtain ⟨_, _⟩ := hm
      simp only [Move.toBalance, Move.toTotal]
      split <;> omega
    | withdrawFees token amount => simpa [Move.toBalance, Move.toTotal] using hb
  · rw [fee_apply]
    have hf := h.fee_nonneg T
    cases m with
    | idle => simpa [Move.toFee] using hf
    | tip creator token amount fee =>
      obtain ⟨_, _⟩ := hm
      simp only [Move.toFee]
      split <;> omega
    | withdraw creator token amount => simpa [Move.toFee] using hf
    | withdrawFees token amount =>
      obtain ⟨_, hle⟩ := hm
      simp only [Move.toFee]
      split
      · next heq =>
        obtain rfl := heq
        omega
      · omega

@[simp] theorem setFee_self (L : Ledger) (token : Address) :
    L.setFee token (L.fee token) = L := by
  ext t
  · rfl
  · rfl
  · simp only [setFee]
    split <;> simp [*]

end Ledger

/-! ## Reading the ledger off the storage -/

variable {X : Type}

/-- The ledger a storage stands for. -/
def ledger (w : World X) : Ledger where
  balance := logicalBalance w
  total := logicalTotal w
  fee := logicalFee w

/-- No v1 counter of a creator exists beside its v2 counter. -/
def Separate (w : World X) : Prop :=
  ∀ T₀, w.inst.get .token = some T₀ → ∀ c,
    (w.pers.get (.creatorBalance c) ≠ none → w.pers.get (.balance c T₀) = none) ∧
    (w.pers.get (.creatorTotal c) ≠ none → w.pers.get (.total c T₀) = none)

/-- The keys of the counters, in both layouts. -/
def DataKey.isLedger : DataKey → Bool
  | .creatorBalance _ | .creatorTotal _ | .balance _ _ | .total _ _ => true
  | .feeBalance | .feeBalanceToken _ => true
  | _ => false

/-- The keys of the v1 layout's counters. -/
def DataKey.isV1 : DataKey → Bool
  | .creatorBalance _ | .creatorTotal _ | .feeBalance => true
  | _ => false

/-- There is nothing left to migrate. -/
def NoV1 (w : World X) : Prop := ∀ k, DataKey.isV1 k = true → w.pers.get k = none

/-- No v1 counter was written: each is as it was, or gone. -/
def V1Shrinks (w w' : World X) : Prop :=
  ∀ k, k.isV1 = true → w'.pers.get k = none ∨ w'.pers.get k = w.pers.get k

/-- A v1 counter that has gone does not come back. -/
theorem V1Shrinks.trans {w₁ w₂ w₃ : World X} (h : V1Shrinks w₁ w₂) (h' : V1Shrinks w₂ w₃) :
    V1Shrinks w₁ w₃ := by
  intro k hk
  rcases h' k hk with hnone | hsame
  · exact .inl hnone
  · rw [hsame]
    exact h k hk

section Congr

variable {w w' : World X}

/-- The logical balance depends on the legacy token and on the two counters. -/
theorem logicalBalance_congr {c t : Address} (htoken : w'.inst.get .token = w.inst.get .token)
    (hv1 : w'.pers.get (.creatorBalance c) = w.pers.get (.creatorBalance c))
    (hv2 : w'.pers.get (.balance c t) = w.pers.get (.balance c t)) :
    logicalBalance w' c t = logicalBalance w c t := by
  rw [logicalBalance, logicalBalance, balanceEntry, balanceEntry, htoken, hv1, hv2]

theorem logicalTotal_congr {c t : Address} (htoken : w'.inst.get .token = w.inst.get .token)
    (hv1 : w'.pers.get (.creatorTotal c) = w.pers.get (.creatorTotal c))
    (hv2 : w'.pers.get (.total c t) = w.pers.get (.total c t)) :
    logicalTotal w' c t = logicalTotal w c t := by
  rw [logicalTotal, logicalTotal, totalEntry, totalEntry, htoken, hv1, hv2]

theorem logicalFee_congr {t : Address} (htoken : w'.inst.get .token = w.inst.get .token)
    (hv1 : w'.pers.get .feeBalance = w.pers.get .feeBalance)
    (hv2 : w'.pers.get (.feeBalanceToken t) = w.pers.get (.feeBalanceToken t)) :
    logicalFee w' t = logicalFee w t := by
  rw [logicalFee, logicalFee, htoken, hv1, hv2]

/-- The ledger and `Separate` only depend on the `Token` key and the counters. -/
theorem ledger_congr (htoken : w'.inst.get .token = w.inst.get .token)
    (hpers : ∀ k, k.isLedger = true → w'.pers.get k = w.pers.get k) : ledger w' = ledger w := by
  ext
  · exact logicalBalance_congr htoken (hpers _ rfl) (hpers _ rfl)
  · exact logicalTotal_congr htoken (hpers _ rfl) (hpers _ rfl)
  · exact logicalFee_congr htoken (hpers _ rfl) (hpers _ rfl)

/-- Only the counters and the legacy token matter. -/
theorem Separate.congr (h : Separate w) (htoken : w'.inst.get .token = w.inst.get .token)
    (hpers : ∀ k, k.isLedger = true → w'.pers.get k = w.pers.get k) : Separate w' := by
  intro T₀ hT₀ c
  rw [htoken] at hT₀
  rw [hpers _ rfl, hpers _ rfl, hpers _ rfl, hpers _ rfl]
  exact h T₀ hT₀ c

/-! ## The migrations -/

/-- The lazy migration moves a counter from one key to the other and leaves the ledger as it was. -/
theorem MigratedCreator.ledger_eq {creator token : Address}
    (h : MigratedCreator creator token w w') : ledger w' = ledger w := by
  ext c t
  · simp only [ledger, logicalBalance, h.balanceEntry_eq]
  · simp only [ledger, logicalTotal, h.totalEntry_eq]
  · exact logicalFee_congr (by rw [h.inst]) (h.frame _ (by simp) (by simp) (by simp) (by simp))
      (h.frame _ (by simp) (by simp) (by simp) (by simp))

/-- That of the fees too. -/
theorem MigratedFee.ledger_eq {token : Address} (h : MigratedFee token w w') :
    ledger w' = ledger w := by
  ext c t
  · exact logicalBalance_congr (by rw [h.inst]) (h.frame _ (by simp) (by simp))
      (h.frame _ (by simp) (by simp))
  · exact logicalTotal_congr (by rw [h.inst]) (h.frame _ (by simp) (by simp))
      (h.frame _ (by simp) (by simp))
  · exact h.logicalFee_eq _

/-- The migration removes v1 counters and adds none. -/
theorem MigratedCreator.v1Shrinks {creator token : Address}
    (h : MigratedCreator creator token w w') : V1Shrinks w w' := by
  intro k hk
  by_cases hbal : k = .creatorBalance creator
  · subst hbal
    rw [h.v1Balance]
    split
    · exact .inl rfl
    · exact .inr rfl
  by_cases htot : k = .creatorTotal creator
  · subst htot
    rw [h.v1Total]
    split
    · exact .inl rfl
    · exact .inr rfl
  exact .inr (h.frame k (by rintro rfl; cases hk) (by rintro rfl; cases hk) hbal htot)

theorem MigratedFee.v1Shrinks {token : Address} (h : MigratedFee token w w') : V1Shrinks w w' := by
  intro k hk
  by_cases hfee : k = .feeBalance
  · subst hfee
    rw [h.v1Fee]
    split
    · exact .inl rfl
    · exact .inr rfl
  exact .inr (h.frame k (by rintro rfl; cases hk) hfee)

/-- Right after the creator migration no v1 counter hides the pair's v2 counters. -/
theorem MigratedCreator.hidden {creator token : Address} (h : MigratedCreator creator token w w')
    (hT : w'.inst.get .token = some token) :
    w'.pers.get (.creatorBalance creator) = none ∧ w'.pers.get (.creatorTotal creator) = none := by
  rw [h.inst] at hT
  rw [h.v1Balance, h.v1Total, if_pos hT, if_pos hT]
  exact ⟨rfl, rfl⟩

/-- The v1 counter is removed when the v2 counter is written. -/
theorem MigratedCreator.separate {creator token : Address} (h : MigratedCreator creator token w w')
    (hs : Separate w) : Separate w' := by
  intro T₀ hT₀ c
  by_cases hc : c = creator
  · subst hc
    by_cases ht : T₀ = token
    · subst ht
      obtain ⟨hbal, htot⟩ := h.hidden hT₀
      exact ⟨fun hne => absurd hbal hne, fun hne => absurd htot hne⟩
    · have hne : w.inst.get .token ≠ some token := by
        rw [← h.inst, hT₀]
        simpa using ht
      rw [h.inst] at hT₀
      rw [h.v1Balance, h.v1Total, if_neg hne, if_neg hne,
        h.frame (.balance c T₀) (by simp [ht]) (by simp) (by simp) (by simp),
        h.frame (.total c T₀) (by simp) (by simp [ht]) (by simp) (by simp)]
      exact hs T₀ hT₀ c
  · rw [h.inst] at hT₀
    rw [h.frame (.creatorBalance c) (by simp) (by simp) (by simp [hc]) (by simp),
      h.frame (.creatorTotal c) (by simp) (by simp) (by simp) (by simp [hc]),
      h.frame (.balance c T₀) (by simp [hc]) (by simp) (by simp) (by simp),
      h.frame (.total c T₀) (by simp) (by simp [hc]) (by simp) (by simp)]
    exact hs T₀ hT₀ c

theorem MigratedFee.separate {token : Address} (h : MigratedFee token w w') (hs : Separate w) :
    Separate w' := by
  intro T₀ hT₀ c
  rw [h.inst] at hT₀
  rw [h.frame _ (by simp) (by simp), h.frame _ (by simp) (by simp),
    h.frame _ (by simp) (by simp), h.frame _ (by simp) (by simp)]
  exact hs T₀ hT₀ c

end Congr

section NothingLeft

variable {ctx : Ctx DataKey DataKey.Val Event Error X} {w w' : World X} {R : Unit → World X → Prop}

/-- Without v1 counters there will be none. -/
theorem V1Shrinks.noV1 (h : V1Shrinks w w') (hv1 : NoV1 w) : NoV1 w' := by
  intro k hk
  rcases h k hk with hnone | hkept
  · exact hnone
  · rw [hkept]
    exact hv1 k hk

/-- Without v1 counters the migrations do nothing. -/
theorem maybeMigrateCreatorData_noV1 (hv1 : NoV1 w) (creator token : Address) (hR : R () w) :
    wp (maybeMigrateCreatorData creator token) ctx w R := by
  have hbalance : w.pers.get (.creatorBalance creator) = none := hv1 _ rfl
  have htotal : w.pers.get (.creatorTotal creator) = none := hv1 _ rfl
  simp only [maybeMigrateCreatorData, migrateV1Balance, migrateV1Total, wp_bind, wp_instanceGet,
    wp_ifSome, wp_onlyIf, wp_persistentGet, hbalance, htotal]
  simp [hR]

theorem maybeMigrateFeeBalance_noV1 (hv1 : NoV1 w) (token : Address) (hR : R () w) :
    wp (maybeMigrateFeeBalance token) ctx w R := by
  have hfee : w.pers.get .feeBalance = none := hv1 _ rfl
  simp only [maybeMigrateFeeBalance, wp_bind, wp_persistentGet, wp_ifSome, hfee]
  simp [hR]

end NothingLeft

/-! ## Storage updates -/

section Updates

variable {ctx : Ctx DataKey DataKey.Val Event Error X} {w : World X}

@[simp] theorem ledger_bumpInstance (m n : Nat) : ledger (w.bumpInstance ctx m n) = ledger w := rfl

@[simp] theorem ledger_bumpPersistent (k : DataKey) (m n : Nat) :
    ledger (w.bumpPersistent ctx k m n) = ledger w := rfl

@[simp] theorem ledger_publish (e : Event) : ledger (w.publish e) = ledger w := rfl

@[simp] theorem ledger_transferred (x : X) (t : Transfer) :
    ledger (({ w with ext := x } : World X).transferred t) = ledger w := rfl

/-- Writing a v2 balance that no v1 balance hides sets it in the ledger. -/
theorem ledger_setPersistent_balance {c t : Address} (v : I128)
    (hidden : w.inst.get .token = some t → w.pers.get (.creatorBalance c) = none) :
    ledger (w.setPersistent ctx (.balance c t) v) = (ledger w).setBalance c t v.val := by
  ext c' t'
  · simp only [ledger, Ledger.setBalance]
    split
    · next heq =>
      obtain ⟨rfl, rfl⟩ := heq
      by_cases hT : w.inst.get .token = some t'
      · simp [logicalBalance, balanceEntry, hT, hidden hT]
      · simp [logicalBalance, balanceEntry, hT]
    · next hne =>
      have hk : DataKey.balance c' t' ≠ .balance c t := by
        simpa using hne
      exact logicalBalance_congr rfl (by simp) (by simp [hk])
  · exact logicalTotal_congr rfl (by simp) (by simp)
  · exact logicalFee_congr rfl (by simp) (by simp)

/-- The same for a total. -/
theorem ledger_setPersistent_total {c t : Address} (v : I128)
    (hidden : w.inst.get .token = some t → w.pers.get (.creatorTotal c) = none) :
    ledger (w.setPersistent ctx (.total c t) v) = (ledger w).setTotal c t v.val := by
  ext c' t'
  · exact logicalBalance_congr rfl (by simp) (by simp)
  · simp only [ledger, Ledger.setTotal]
    split
    · next heq =>
      obtain ⟨rfl, rfl⟩ := heq
      by_cases hT : w.inst.get .token = some t'
      · simp [logicalTotal, totalEntry, hT, hidden hT]
      · simp [logicalTotal, totalEntry, hT]
    · next hne =>
      have hk : DataKey.total c' t' ≠ .total c t := by
        simpa using hne
      exact logicalTotal_congr rfl (by simp) (by simp [hk])
  · exact logicalFee_congr rfl (by simp) (by simp)

/-- And for the fees of a token. -/
theorem ledger_setPersistent_fee {t : Address} (v : I128)
    (hidden : w.inst.get .token = some t → w.pers.get .feeBalance = none) :
    ledger (w.setPersistent ctx (.feeBalanceToken t) v) = (ledger w).setFee t v.val := by
  ext c' t'
  · exact logicalBalance_congr rfl (by simp) (by simp)
  · exact logicalTotal_congr rfl (by simp) (by simp)
  · simp only [ledger, Ledger.setFee]
    split
    · next heq =>
      obtain rfl := heq
      by_cases hT : w.inst.get .token = some c'
      · simp [logicalFee, hT, hidden hT]
      · simp [logicalFee, hT]
    · next hne =>
      exact logicalFee_congr rfl (by simp) (by simp [hne])

/-- Writing the v2 counter of a pair whose v1 counter is gone keeps the layouts apart. -/
theorem Separate.setPersistent_balance (h : Separate w)
    (ctx : Ctx DataKey DataKey.Val Event Error X) {c t : Address} (v : I128)
    (hidden : w.inst.get .token = some t → w.pers.get (.creatorBalance c) = none) :
    Separate (w.setPersistent ctx (.balance c t) v) := by
  intro T₀ hT₀ c'
  obtain ⟨hbal, htot⟩ := h T₀ hT₀ c'
  refine ⟨fun hne => ?_, fun hne => ?_⟩
  · have hk : DataKey.balance c' T₀ ≠ .balance c t := by
      rintro heq
      cases heq
      exact hne (by simpa using hidden hT₀)
    simp only [Env.setPersistent_pers, Store.get_set_of_ne _ hk]
    exact hbal (by simpa using hne)
  · simpa using htot (by simpa using hne)

/-- Writing where no v1 counter is keeps the layouts apart. -/
theorem Separate.setPersistent_total (h : Separate w)
    (ctx : Ctx DataKey DataKey.Val Event Error X) {c t : Address} (v : I128)
    (hidden : w.inst.get .token = some t → w.pers.get (.creatorTotal c) = none) :
    Separate (w.setPersistent ctx (.total c t) v) := by
  intro T₀ hT₀ c'
  obtain ⟨hbal, htot⟩ := h T₀ hT₀ c'
  refine ⟨fun hne => ?_, fun hne => ?_⟩
  · simpa using hbal (by simpa using hne)
  · have hk : DataKey.total c' T₀ ≠ .total c t := by
      rintro heq
      cases heq
      exact hne (by simpa using hidden hT₀)
    simp only [Env.setPersistent_pers, Store.get_set_of_ne _ hk]
    exact htot (by simpa using hne)

theorem Separate.setPersistent_fee (h : Separate w)
    (ctx : Ctx DataKey DataKey.Val Event Error X) {t : Address} (v : I128) :
    Separate (w.setPersistent ctx (.feeBalanceToken t) v) := by
  intro T₀ hT₀ c'
  simpa using h T₀ hT₀ c'

end Updates

end TipJar
