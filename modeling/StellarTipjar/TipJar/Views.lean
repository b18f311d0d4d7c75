import StellarTipjar.TipJar.Contract
import StellarTipjar.Soroban.Wp

/-!
# TipJar — what the storage means, and the helpers' pre- and postconditions

A creator's balance, total and the fees live under v2 keys or, not yet migrated, under v1 keys.
`balanceEntry`, `totalEntry` and `logicalFee` are the values the contract acts on whichever
layout they are in: the v1 entry of the legacy token when there is one, else the v2 entry. The
two lazy migrations leave all three alone (`MigratedCreator.balanceEntry_eq`,
`MigratedFee.logicalFee_eq`), which is why later specifications can speak about the logical
values only.
-/

namespace TipJar

open Lib Soroban Contract

variable {X : Type}

/-! ## Views of the storage -/

/-- The rate in force. -/
def feeRate (w : World X) : UInt32 := ((w.inst.get .feeBps : Option UInt32)).getD 0

/-- The allowed tokens. -/
def allowlist (w : World X) : List Address :=
  (w.inst.get .allowedTokens : Option (List Address)).getD []

/-- The stored pause state, `none` when it does not decode. -/
def pauseStateOf (w : World X) : Option PauseState :=
  match (w.inst.get .pause : Option StoredPause) with
  | none => some ⟨0, 0, 0, none⟩
  | some raw => raw.decode

/-- `flag` is not effectively paused at ledger `sequence`. -/
def NotPaused (flag sequence : UInt32) (w : World X) : Prop :=
  ∃ state, pauseStateOf w = some state ∧ effectivePauseFlags sequence state &&& flag = 0

/-- The fee of `amount` at rate `bps`, `none` when it overflows. -/
def feeOf (amount : I128) (bps : UInt32) : Option I128 :=
  if bps = 0 then some 0
  else (amount.checkedMul (.ofUInt32 bps)).bind fun product => product.checkedDiv bpsDenominator

/-- The stored balance as the contract finds it, in either layout. -/
def balanceEntry (w : World X) (creator token : Address) : Option I128 :=
  (if w.inst.get .token = some token then w.pers.get (.creatorBalance creator) else none)
    <|> w.pers.get (.balance creator token)

/-- The stored total as the contract finds it. -/
def totalEntry (w : World X) (creator token : Address) : Option I128 :=
  (if w.inst.get .token = some token then w.pers.get (.creatorTotal creator) else none)
    <|> w.pers.get (.total creator token)

/-- What the creator can withdraw. -/
def logicalBalance (w : World X) (creator token : Address) : Int :=
  ((balanceEntry w creator token).getD 0).val

/-- What was tipped to the creator. -/
def logicalTotal (w : World X) (creator token : Address) : Int :=
  ((totalEntry w creator token).getD 0).val

/-- The fees accrued in the token. -/
def logicalFee (w : World X) (token : Address) : Int :=
  ((w.pers.get (.feeBalanceToken token) : Option I128).getD 0).val
    + (if w.inst.get .token = some token then ((w.pers.get .feeBalance : Option I128).getD 0).val
      else 0)

/-- Only the persistent storage differs. -/
structure OnlyPersistent (w w' : World X) : Prop where
  inst : w'.inst = w.inst
  events : w'.events = w.events
  transfers : w'.transfers = w.transfers
  wasm : w'.wasm = w.wasm
  ext : w'.ext = w.ext

theorem OnlyPersistent.refl (w : World X) : OnlyPersistent w w := ⟨rfl, rfl, rfl, rfl, rfl⟩

/-! ## Helpers that only read -/

section Reads

variable {ctx : Ctx DataKey DataKey.Val Event Error X} {w : World X} {R : Unit → World X → Prop}

@[simp] theorem wp_bumpInstanceTtl :
    wp bumpInstanceTtl ctx w R ↔ R () (w.bumpInstance ctx ledgerThreshold ledgerBump) :=
  wp_instanceExtendTtl _ _

@[simp] theorem wp_bumpPersistentTtl (k : DataKey) :
    wp (bumpPersistentTtl k) ctx w R ↔
      (¬w.Archived ctx k → (w.pers.get k).isSome →
        R () (w.bumpPersistent ctx k ledgerThreshold ledgerBump)) :=
  wp_persistentExtendTtl _ _ _

@[simp] theorem wp_adminAddress {Q : Address → World X → Prop} :
    wp adminAddress ctx w Q ↔ ∀ a, w.inst.get .admin = some a → Q a w := by
  simp [adminAddress]

@[simp] theorem wp_requireAdmin (caller : Address) :
    wp (requireAdmin caller) ctx w R ↔ (w.inst.get .admin = some caller → R () w) := by
  simp only [requireAdmin, wp_bind, wp_adminAddress, wp_panicIf, not_not]
  constructor
  · intro h hadmin
    exact h caller hadmin rfl
  · rintro h a hadmin rfl
    exact h hadmin

@[simp] theorem wp_ensureInitialized :
    wp ensureInitialized ctx w R ↔ ((w.inst.get .admin).isSome → R () w) := by
  simp [ensureInitialized]

@[simp] theorem wp_ensureTokenAllowed (token : Address) :
    wp (ensureTokenAllowed token) ctx w R ↔ (token ∈ allowlist w → R () w) := by
  simp [ensureTokenAllowed, allowlist]

@[simp] theorem wp_storedPauseState {Q : Option PauseState → World X → Prop} :
    wp storedPauseState ctx w Q ↔
      (w.inst.get .pause = none → Q none w) ∧
        ∀ raw, w.inst.get .pause = some raw → ∀ state, raw.decode = some state →
          Q (some state) w := by
  simp only [storedPauseState, wp_bind, wp_instanceGet]
  cases hp : (w.inst.get .pause : Option StoredPause) with
  | none => simp
  | some raw =>
    cases hd : raw.decode with
    | none => simp [hd]
    | some state => simp [hd]

@[simp] theorem wp_pauseState {Q : PauseState → World X → Prop} :
    wp pauseState ctx w Q ↔ ∀ state, pauseStateOf w = some state → Q state w := by
  simp only [pauseState, wp_bind, wp_storedPauseState, wp_pure, pauseStateOf]
  cases hp : (w.inst.get .pause : Option StoredPause) with
  | none => simp
  | some raw => simp

@[simp] theorem wp_checkNotPaused (flag : UInt32) :
    wp (checkNotPaused flag) ctx w R ↔ (NotPaused flag ctx.sequence w → R () w) := by
  simp only [checkNotPaused, wp_bind, wp_pauseState, wp_ledgerSequence, wp_onlyIf, wp_ite,
    wp_panicWithError, NotPaused, not_not]
  constructor
  · rintro h ⟨state, hstate, hflag⟩
    exact (h state hstate).2 hflag
  · intro h state hstate
    exact ⟨fun _ => ⟨fun _ => trivial, fun _ => trivial⟩, fun hflag => h ⟨state, hstate, hflag⟩⟩

@[simp] theorem wp_feeFor (amount : I128) (bps : UInt32) {Q : I128 → World X → Prop} :
    wp (feeFor amount bps) ctx w Q ↔ ∀ fee, feeOf amount bps = some fee → Q fee w := by
  by_cases hb : bps = 0
  · simp [feeFor, feeOf, hb]
  · simp only [feeFor, feeOf, if_neg hb, wp_bind, wp_unwrapOrPanic, Option.bind_eq_some_iff]
    constructor
    · rintro h fee ⟨product, hmul, hdiv⟩
      exact h product hmul fee hdiv
    · intro h product hmul fee hdiv
      exact h fee ⟨product, hmul, hdiv⟩

/-! ### Succeeding -/

@[simp] theorem twp_bumpInstanceTtl :
    twp bumpInstanceTtl ctx w R ↔ R () (w.bumpInstance ctx ledgerThreshold ledgerBump) :=
  twp_instanceExtendTtl _ _

@[simp] theorem twp_bumpPersistentTtl (k : DataKey) :
    twp (bumpPersistentTtl k) ctx w R ↔
      ¬w.Archived ctx k ∧ (w.pers.get k).isSome ∧
        R () (w.bumpPersistent ctx k ledgerThreshold ledgerBump) :=
  twp_persistentExtendTtl _ _ _

@[simp] theorem twp_ensureInitialized :
    twp ensureInitialized ctx w R ↔ (w.inst.get .admin).isSome ∧ R () w := by
  simp [ensureInitialized]

@[simp] theorem twp_requireAdmin (caller : Address) :
    twp (requireAdmin caller) ctx w R ↔ w.inst.get .admin = some caller ∧ R () w := by
  simp only [requireAdmin, adminAddress, twp_bind, twp_instanceGet, twp_unwrapOrPanic, twp_panicIf,
    not_not]
  constructor
  · rintro ⟨a, hadmin, rfl, h⟩
    exact ⟨hadmin, h⟩
  · rintro ⟨hadmin, h⟩
    exact ⟨caller, hadmin, rfl, h⟩

@[simp] theorem twp_pauseState {Q : PauseState → World X → Prop} :
    twp pauseState ctx w Q ↔ ∃ state, pauseStateOf w = some state ∧ Q state w := by
  simp only [pauseState, storedPauseState, twp_bind, twp_instanceGet, pauseStateOf]
  cases (w.inst.get .pause : Option StoredPause) with
  | none => simp
  | some raw =>
    cases hd : raw.decode with
    | none => simp [hd]
    | some state => simp [hd]

@[simp] theorem twp_checkNotPaused (flag : UInt32) :
    twp (checkNotPaused flag) ctx w R ↔ NotPaused flag ctx.sequence w ∧ R () w := by
  simp only [checkNotPaused, twp_bind, twp_pauseState, twp_ledgerSequence, twp_onlyIf, twp_ite,
    twp_panicWithError, NotPaused]
  constructor
  · rintro ⟨state, hstate, hpaused, hok⟩
    have hflag : effectivePauseFlags ctx.sequence state &&& flag = 0 := by
      by_contra hne
      obtain ⟨htips, hother⟩ := hpaused hne
      by_cases hf : flag = pauseFlagTips
      · exact htips hf
      · exact hother hf
    exact ⟨⟨state, hstate, hflag⟩, hok (by simpa using hflag)⟩
  · rintro ⟨⟨state, hstate, hflag⟩, hok⟩
    exact ⟨state, hstate, fun hne => absurd hflag hne, fun _ => hok⟩

end Reads

/-! ## The fee -/

/-- The fee is `floor(amount * bps / 10000)`, in exact integers. -/
theorem feeOf_val {amount fee : I128} {bps : UInt32} (hpos : 0 ≤ amount.val)
    (h : feeOf amount bps = some fee) : fee.val = amount.val * bps.toNat / 10000 := by
  unfold feeOf at h
  split at h
  · next hb =>
    cases h
    simp [hb]
  · obtain ⟨product, hmul, hdiv⟩ := Option.bind_eq_some_iff.mp h
    rw [I128.checkedMul_eq_some] at hmul
    rw [I128.checkedDiv_eq_some] at hdiv
    rw [hdiv.2, hmul, I128.val_ofUInt32, show bpsDenominator.val = 10000 from rfl]
    exact Int.tdiv_eq_ediv_of_nonneg (Int.mul_nonneg hpos (by omega))

/-- There is no fee at a zero rate. -/
theorem feeOf_zero_rate {amount fee : I128} {bps : UInt32} (hzero : ¬0 < bps)
    (h : feeOf amount bps = some fee) : fee.val = 0 := by
  have hbps : bps = 0 := UInt32.le_antisymm (UInt32.not_lt.mp hzero) UInt32.zero_le
  rw [hbps] at h
  cases h
  rfl

/-- The net amount of a tip is exact whatever the rate: the checked product keeps the fee far
from the limits of `i128`. -/
theorem feeOf_net {amount fee : I128} {bps : UInt32} (hpos : 0 ≤ amount.val)
    (h : feeOf amount bps = some fee) :
    0 ≤ fee.val ∧ (amount - fee).val = amount.val - fee.val := by
  have hfee := feeOf_val hpos h
  have hmul : 0 ≤ amount.val * bps.toNat := Int.mul_nonneg hpos (by omega)
  have hnonneg : 0 ≤ fee.val := by rw [hfee]; omega
  refine ⟨hnonneg, I128.val_sub ?_ ?_⟩
  · have := fee.val_lt
    omega
  · have := amount.val_lt
    omega

end TipJar
