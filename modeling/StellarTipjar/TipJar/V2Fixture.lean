import StellarTipjar.TipJar.Solvency
import StellarTipjar.Soroban.Machine

/-!
# TipJar — the second version of the contract

`contracts/tipjar-v2-fixture` is the code the upgrade flow of `contracts/tipjar` is exercised
against: a contract with its own `tip`, `withdraw`, `get_total_tips`, `get_data_version` and
`migrate` that reads and writes the same storage entries. It has no fee, no allowlist, no pause
and no lazy migration, and its `withdraw` pays the creator itself.

Its `DataKey` and `Error` are subsets of those of the first version, entry for entry, so its
programs are programs over the same host.
-/

namespace TipJarV2Fixture

open Lib Soroban Contract TipJar

variable {X : Type}

/-! ## The entrypoints -/

def ledgerThreshold : Nat := 100000
def ledgerBump : Nat := 120960

/-- The storage schema version this build expects. -/
def dataVersion : UInt32 := 2

def tip (sender creator token : Address) (amount : I128) : M X Unit := do
  requireAuth sender
  panicIf (amount ≤ 0) .invalidAmount
  let contractAddress ← currentContractAddress
  tokenTransfer ⟨token, sender, contractAddress, amount⟩
  let balance : Option I128 ← persistentGet (DataKey.balance creator token)
  let total : Option I128 ← persistentGet (DataKey.total creator token)
  let newBalance ← unwrapOrPanic ((balance.getD 0).checkedAdd amount) .invalidAmount
  let newTotal ← unwrapOrPanic ((total.getD 0).checkedAdd amount) .invalidAmount
  persistentSet (DataKey.balance creator token) newBalance
  persistentSet (DataKey.total creator token) newTotal
  persistentExtendTtl (DataKey.balance creator token) ledgerThreshold ledgerBump
  persistentExtendTtl (DataKey.total creator token) ledgerThreshold ledgerBump
  instanceExtendTtl ledgerThreshold ledgerBump

def withdraw (creator token : Address) (amount : Option I128) : M X Unit := do
  requireAuth creator
  let stored : Option I128 ← persistentGet (DataKey.balance creator token)
  let balance := stored.getD 0
  panicIf (balance = 0) .nothingToWithdraw
  let amountToWithdraw := amount.getD balance
  panicIf (amountToWithdraw ≤ 0 ∨ balance < amountToWithdraw) .invalidAmount
  let contractAddress ← currentContractAddress
  tokenTransfer ⟨token, contractAddress, creator, amountToWithdraw⟩
  persistentSet (DataKey.balance creator token) (balance - amountToWithdraw)
  persistentExtendTtl (DataKey.balance creator token) ledgerThreshold ledgerBump
  instanceExtendTtl ledgerThreshold ledgerBump

def getTotalTips (creator token : Address) : M X I128 := do
  let total : Option I128 ← persistentGet (DataKey.total creator token)
  pure (total.getD 0)

def getDataVersion : M X UInt32 := do
  let stored : Option UInt32 ← instanceGet DataKey.dataVersion
  pure (stored.getD 1)

def migrate (admin : Address) : M X Unit := do
  requireAuth admin
  let stored : Option Address ← instanceGet DataKey.admin
  let storedAdmin ← unwrapOrPanic stored .notInitialized
  panicIf (admin ≠ storedAdmin) .unauthorized
  let version : Option UInt32 ← instanceGet DataKey.dataVersion
  let current := version.getD 1
  -- a second call is a silent no-op
  onlyIf (¬dataVersion ≤ current) do
    instanceSet DataKey.dataVersion dataVersion
    publish (.migrated current dataVersion)

/-! ## What they do -/

/-- The entry of `Balance(c, T)`, which is all this version reads. -/
def balanceOf (w : World X) (c T : Address) : Int := counterVal (w.pers.get (.balance c T))

def totalOf (w : World X) (c T : Address) : Int := counterVal (w.pers.get (.total c T))

/-- The entries of the persistent storage after adding `db` to `Balance(creator, token)` and `dt`
to `Total(creator, token)`; nothing else changes but TTLs, events and what is outside. -/
structure Adds (creator token : Address) (db dt : Int) (w w' : World X) : Prop where
  inst : w'.inst = w.inst
  wasm : w'.wasm = w.wasm
  balance : balanceOf w' creator token = balanceOf w creator token + db
  total : totalOf w' creator token = totalOf w creator token + dt
  frame : ∀ k, k ≠ .balance creator token → k ≠ .total creator token →
    w'.pers.get k = w.pers.get k

structure Tipped (chain : Chain X) (auth : List Address) (sender creator token : Address)
    (amount : I128) (w w' : World X) : Prop where
  authorised : sender ∈ auth
  amount_pos : 0 < amount.val
  adds : Adds creator token amount.val amount.val w w'
  transfers : w'.transfers = w.transfers ++ [⟨token, sender, chain.self, amount⟩]
  ext : chain.transfer ⟨token, sender, chain.self, amount⟩ w.ext = some w'.ext

structure Withdrawn (chain : Chain X) (auth : List Address) (creator token : Address)
    (amount : Option I128) (paid : I128) (w w' : World X) : Prop where
  authorised : creator ∈ auth
  paid_eq : paid.val = (amount.map I128.val).getD (balanceOf w creator token)
  paid_pos : 0 < paid.val
  paid_le : paid.val ≤ balanceOf w creator token
  adds : Adds creator token (-paid.val) 0 w w'
  transfers : w'.transfers = w.transfers ++ [⟨token, chain.self, creator, paid⟩]
  ext : chain.transfer ⟨token, chain.self, creator, paid⟩ w.ext = some w'.ext

/-- A call that leaves the counters, the tokens and the code alone. -/
structure Idle (w w' : World X) : Prop where
  pers : w'.pers = w.pers
  wasm : w'.wasm = w.wasm
  inst : ∀ k, k ≠ .dataVersion → w'.inst.get k = w.inst.get k
  transfers : w'.transfers = w.transfers
  ext : w'.ext = w.ext

section Specs

variable {chain : Chain X} {sequence : UInt32} {auth : List Address} {w : World X}

theorem tip_spec (sender creator token : Address) (amount : I128) :
    wp (tip sender creator token amount) (chain.ctx sequence auth) w fun _ w' =>
      Tipped chain auth sender creator token amount w w' := by
  simp only [tip, wp_bind, wp_requireAuth, wp_panicIf, wp_currentContractAddress,
    wp_tokenTransfer, wp_persistentGet, wp_unwrapOrPanic, wp_persistentSet,
    wp_persistentExtendTtl, wp_instanceExtendTtl]
  intro hauth hpos x hx _ _ newBalance hbalance newTotal htotal _ _ _ _ _ _
  rw [I128.checkedAdd_eq_some] at hbalance htotal
  refine ⟨hauth, Int.not_le.mp hpos, ⟨rfl, rfl, ?_, ?_, fun k hk hk' => ?_⟩, rfl, hx⟩
  · simpa [balanceOf, counterVal] using hbalance
  · simpa [totalOf, counterVal] using htotal
  · simp [hk, hk']

theorem withdraw_spec (creator token : Address) (amount : Option I128) :
    wp (withdraw creator token amount) (chain.ctx sequence auth) w fun _ w' =>
      ∃ paid, Withdrawn chain auth creator token amount paid w w' := by
  simp only [withdraw, wp_bind, wp_requireAuth, wp_panicIf, wp_currentContractAddress,
    wp_tokenTransfer, wp_persistentGet, wp_persistentSet, wp_persistentExtendTtl,
    wp_instanceExtendTtl]
  intro hauth _ _ hamount x hx _ _ _
  obtain ⟨hpos, hle, htake⟩ := I128.val_take hamount
  refine ⟨_, hauth, ?_, hpos, hle, ⟨rfl, rfl, ?_, ?_, fun k hk _ => ?_⟩, rfl, hx⟩
  · cases amount with
    | none => rfl
    | some a => rfl
  · simp only [balanceOf, counterVal, Env.bumpInstance_pers, Env.bumpPersistent_pers,
      Env.setPersistent_pers, Store.get_set_self, Option.getD_some, Env.transferred_pers]
    rw [htake]
    omega
  · simp [totalOf]
  · simp [hk]

theorem getTotalTips_spec (creator token : Address) :
    wp (getTotalTips creator token) (chain.ctx sequence auth) w fun total w' =>
      total.val = totalOf w creator token ∧ Idle w w' := by
  simp only [getTotalTips, wp_bind, wp_persistentGet, wp_pure]
  intro _
  exact ⟨rfl, rfl, rfl, fun _ _ => rfl, rfl, rfl⟩

theorem getDataVersion_spec :
    wp getDataVersion (chain.ctx sequence auth) w fun _ w' => Idle w w' := by
  simp only [getDataVersion, wp_bind, wp_instanceGet, wp_pure]
  exact ⟨rfl, rfl, fun _ _ => rfl, rfl, rfl⟩

theorem migrate_spec (admin : Address) :
    wp (migrate admin) (chain.ctx sequence auth) w fun _ w' => Idle w w' := by
  simp only [migrate, wp_bind, wp_requireAuth, wp_instanceGet, wp_unwrapOrPanic, wp_panicIf,
    wp_onlyIf, wp_instanceSet, wp_publish]
  intro _ _ _ _
  refine ⟨fun _ => ⟨rfl, rfl, fun k hk => ?_, rfl, rfl⟩, fun _ => ⟨rfl, rfl, fun _ _ => rfl, rfl, rfl⟩⟩
  simp [hk]

/-- On a host that restores archived entries a creator's withdrawal fails only for want of
authorisation, of balance or of the token. -/
theorem withdraw_runs (harchival : chain.archival = false) {creator token : Address} {a : I128}
    (hauth : creator ∈ auth) (hpos : 0 < a.val) (hle : a.val ≤ balanceOf w creator token)
    (hpays : ∃ x, chain.transfer ⟨token, chain.self, creator, a⟩ w.ext = some x) :
    twp (withdraw creator token (some a)) (chain.ctx sequence auth) w fun _ _ => True := by
  obtain ⟨x, hx⟩ := hpays
  have hlive : ∀ (env : World X) k,
      ¬env.Archived (chain.ctx sequence auth : Ctx DataKey DataKey.Val Event Error X) k :=
    Env.not_archived harchival
  have hle' : a.val ≤ ((w.pers.get (.balance creator token) : Option I128).getD 0).val := hle
  simp only [withdraw, twp_bind, twp_requireAuth, twp_panicIf, twp_currentContractAddress,
    twp_tokenTransfer, twp_persistentGet, twp_persistentSet, twp_persistentExtendTtl,
    twp_instanceExtendTtl]
  refine ⟨hauth, hlive _ _, ?_, ?_, x, hx, hlive _ _, hlive _ _, ?_, trivial⟩
  · intro hzero
    rw [hzero] at hle'
    exact absurd hpos (Int.not_lt.mpr hle')
  · rintro (hneg | hmore)
    · exact absurd hpos (Int.not_lt.mpr hneg)
    · exact absurd hle' (Int.not_le.mpr hmore)
  · simp

theorem getTotalTips_runs (harchival : chain.archival = false) (creator token : Address) :
    twp (getTotalTips creator token) (chain.ctx sequence auth) w fun _ _ => True := by
  simp only [getTotalTips, twp_bind, twp_persistentGet, twp_pure]
  exact ⟨Env.not_archived harchival _ _, trivial⟩

end Specs

end TipJarV2Fixture
