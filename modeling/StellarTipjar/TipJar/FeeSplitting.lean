import StellarTipjar.TipJar.EventLog

/-!
# TipJar — the fee of a tip and of its parts

`fee_for` rounds down. `feeOf_of_fits` says when it answers and with what; `tip_charges` that a tip
credits and publishes the split `preview_fee` announces; `fee_splitting_bound` puts the fees of the
parts of an amount beside the fee of the whole: splitting never raises the fee, and each part but
one can lower it by less than a unit.
-/

namespace TipJar

open Lib Soroban Contract

/-! ## Sums of floors -/

/-- The floors of the parts and the floor of the sum, in exact integers. -/
theorem sum_floor_bounds (d : Int) (hd : 0 < d) (parts : List Int) (hne : parts ≠ []) :
    (parts.map (· / d)).sum ≤ parts.sum / d ∧
      parts.sum / d ≤ (parts.map (· / d)).sum + parts.length - 1 := by
  induction parts with
  | nil => exact absurd rfl hne
  | cons x rest ih =>
    cases rest with
    | nil => simp
    | cons y rest =>
      obtain ⟨hlo, hhi⟩ := ih (by simp)
      rw [List.map_cons, List.sum_cons, List.sum_cons, List.length_cons, Nat.cast_succ]
      generalize (y :: rest).sum = s at hlo hhi
      generalize ((y :: rest).map (· / d)).sum = q at hlo hhi ⊢
      -- two quotients, and the remainders together carry over at most once
      have hlow : x / d + s / d ≤ (x + s) / d := by
        rw [Int.le_ediv_iff_mul_le hd, Int.add_mul]
        have h₁ := Int.ediv_mul_le x hd.ne'
        have h₂ := Int.ediv_mul_le s hd.ne'
        omega
      have hhigh : (x + s) / d < x / d + s / d + 2 := by
        rw [Int.ediv_lt_iff_lt_mul hd, Int.add_mul, Int.add_mul]
        have h₁ := Int.lt_ediv_add_one_mul_self x hd
        have h₂ := Int.lt_ediv_add_one_mul_self s hd
        rw [Int.add_mul] at h₁ h₂
        omega
      omega

/-! ## The fee of one amount -/

/-- The fee is computed whenever the product with the rate fits. -/
theorem feeOf_of_fits {amount : I128} {bps : UInt32} (hpos : 0 ≤ amount.val)
    (hfits : amount.val * bps.toNat < 2 ^ 127) : ∃ fee, feeOf amount bps = some fee := by
  by_cases hzero : bps = 0
  · exact ⟨0, by rw [feeOf, if_pos hzero]⟩
  · have hproduct : 0 ≤ amount.val * bps.toNat := Int.mul_nonneg hpos (by omega)
    have hmul : amount.checkedMul (.ofUInt32 bps)
        = some ⟨amount.val * bps.toNat, by omega, hfits⟩ := I128.checkedMul_eq_some.mpr rfl
    obtain ⟨fee, hdiv, -⟩ :=
      I128.checkedDiv_of_pos ⟨amount.val * bps.toNat, by omega, hfits⟩
        (show 0 < bpsDenominator.val by decide)
    exact ⟨fee, by rw [feeOf, if_neg hzero, hmul]; exact hdiv⟩

/-- Under the cap a tenth bounds the fee. -/
theorem fee_le_tenth {amount : I128} {bps : UInt32} (hpos : 0 ≤ amount.val)
    (hcap : bps ≤ maxFeeBps) : amount.val * bps.toNat / 10000 ≤ amount.val / 10 := by
  have hnat : bps.toNat ≤ 1000 := hcap
  have hmul : amount.val * bps.toNat ≤ amount.val * 1000 :=
    Int.mul_le_mul_of_nonneg_left (by exact_mod_cast hnat) hpos
  omega

variable {X : Type}

section Runs

variable {ctx : Ctx DataKey DataKey.Val Event Error X} {w : World X} {amount fee : I128}
  {bps : UInt32}

theorem run_feeFor (h : feeOf amount bps = some fee) :
    (feeFor amount bps).run ctx w = .ok (fee, w) := by
  have htwp : twp (feeFor amount bps) ctx w fun a w' => a = fee ∧ w' = w := by
    by_cases hzero : bps = 0
    · rw [feeOf, if_pos hzero] at h
      rw [feeFor, if_pos hzero, twp_pure]
      exact ⟨Option.some.inj h, rfl⟩
    · rw [feeOf, if_neg hzero, Option.bind_eq_some_iff] at h
      obtain ⟨product, hmul, hdiv⟩ := h
      simp only [feeFor, if_neg hzero, twp_bind, twp_unwrapOrPanic]
      exact ⟨product, hmul, fee, hdiv, rfl, trivial⟩
  obtain ⟨a, w', hrun, rfl, rfl⟩ := htwp
  exact hrun

theorem run_previewFee (h : feeOf amount bps = some fee) :
    (previewFee amount bps).run ctx w = .ok ((fee, amount - fee), w) := by
  unfold previewFee
  rw [run_bind, run_feeFor h]
  rfl

end Runs

/-! ## The fee of a tip -/

section Tips

variable {chain : Chain X} {sequence : UInt32} {auth : List Address} {w w' : World X}

/-- The events of a tip in any state, also one that still has v1 entries. -/
theorem tip_events (sender creator token : Address) (amount : I128) :
    wp (tip sender creator token amount) (chain.ctx sequence auth) w fun _ w' =>
      ∃ fee, feeOf amount (feeRate w) = some fee ∧
        w'.events = w.events ++ tipEvents sender creator token amount
          (if 0 < feeRate w then some fee else none) := by
  simp only [tip, wp_bind, wp_requireAuth, wp_checkNotPaused, wp_panicIf, wp_ensureInitialized,
    wp_ensureTokenAllowed]
  intro _ _ _ _ _
  refine wp_mono (maybeMigrateCreatorData_spec creator token) ?_
  intro _ w₁ hmig
  simp only [wp_instanceGet, wp_feeFor, wp_currentContractAddress, wp_tokenTransfer, wp_onlyIf,
    wp_bumpInstanceTtl, wp_publish]
  intro fee hfee x _
  refine wp_mono (creditTip_books creator token amount fee) ?_
  intro _ w₂ hcredit
  obtain ⟨_, _, _, _, _, hevents, hinst⟩ := hcredit
  rw [hmig.inst] at hfee
  have hbefore : w₂.events = w.events := hevents.trans hmig.events
  show (0 < (w₁.inst.get .feeBps : Option UInt32).getD 0 → _) ∧ _
  rw [hmig.inst]
  constructor
  · intro hrate
    simp only [collectFee, wp_bind]
    refine wp_mono (maybeMigrateFeeBalance_spec token) ?_
    intro _ w₃ hmig₃
    simp only [wp_persistentGet, wp_unwrapOrPanic, wp_persistentSet, wp_bumpPersistentTtl,
      wp_publish]
    intro _ newFee _ _ _ _
    refine ⟨fee, hfee, ?_⟩
    rw [if_pos (show 0 < feeRate w from hrate)]
    simp [tipEvents, hmig₃.events, hbefore]
  · intro hrate
    refine ⟨fee, hfee, ?_⟩
    rw [if_neg (show ¬0 < feeRate w from hrate)]
    simp [tipEvents, hbefore]

/-- A tip at the rate `bps` credits and reports the split of `fee_for`. -/
theorem tip_charges {sender creator token : Address} {amount fee : I128} {r : Ret}
    (hfee : feeOf amount (feeRate w) = some fee)
    (h : exec chain ⟨sequence, auth, .tip sender creator token amount⟩ w = .ok (r, w')) :
    ledger w' = (ledger w).apply (.tip creator token amount.val fee.val) ∧
      w'.events = w.events ++ tipEvents sender creator token amount
        (if 0 < feeRate w then some fee else none) := by
  obtain ⟨fee₁, htipped⟩ := exec_spec h rfl (tip_spec sender creator token amount)
  obtain ⟨fee₂, hfee₂, hevents⟩ := exec_spec h rfl (tip_events sender creator token amount)
  obtain rfl : fee = fee₁ := Option.some.inj (hfee.symm.trans htipped.fee_eq)
  obtain rfl : fee = fee₂ := Option.some.inj (hfee.symm.trans hfee₂)
  exact ⟨htipped.moves.ledger, hevents⟩

end Tips

/-- What the contract makes of `amount` at the rate `bps`: the fee is the floor, at most a tenth,
`fee_for` and `preview_fee` answer it in every state and write nothing, and every tip of the amount
that succeeds at that rate credits the net amount, sets the fee aside and, at a rate that is not
zero, publishes both in `FeeCharged`. -/
structure SplitsInto (X : Type) (amount : I128) (bps : UInt32) (fee : I128) : Prop where
  floor : fee.val = amount.val * bps.toNat / 10000
  nonneg : 0 ≤ fee.val
  tenth : fee.val ≤ amount.val / 10
  net : (amount - fee).val = amount.val - fee.val
  feeFor : ∀ ctx (w : World X), (feeFor amount bps).run ctx w = .ok (fee, w)
  previewFee : ∀ ctx (w : World X),
    (previewFee amount bps).run ctx w = .ok ((fee, amount - fee), w)
  tip : ∀ (chain : Chain X) sequence auth sender creator token w r w', feeRate w = bps →
    exec chain ⟨sequence, auth, .tip sender creator token amount⟩ w = .ok (r, w') →
    ledger w' = (ledger w).apply (.tip creator token amount.val fee.val) ∧
      w'.events = w.events
        ++ (if 0 < bps then [.feeCharged creator amount fee (amount - fee)] else [])
        ++ [.tip creator token sender amount]

theorem splitsInto_of_fits {amount : I128} {bps : UInt32} (hpos : 0 ≤ amount.val)
    (hcap : bps ≤ maxFeeBps) (hfits : amount.val * bps.toNat < 2 ^ 127) :
    ∃ fee, SplitsInto X amount bps fee := by
  obtain ⟨fee, hfee⟩ := feeOf_of_fits hpos hfits
  have hfloor := feeOf_val hpos hfee
  obtain ⟨hnonneg, hnet⟩ := feeOf_net hpos hfee
  refine ⟨fee, hfloor, hnonneg, ?_, hnet, fun _ _ => run_feeFor hfee,
    fun _ _ => run_previewFee hfee, ?_⟩
  · rw [hfloor]
    exact fee_le_tenth hpos hcap
  · intro chain sequence auth sender creator token w r w' hrate hexec
    rw [← hrate] at hfee ⊢
    obtain ⟨hledger, hevents⟩ := tip_charges hfee hexec
    refine ⟨hledger, hevents.trans ?_⟩
    rw [List.append_assoc]
    congr 1
    split <;> rfl

/-! ## The parts of an amount -/

theorem amount_le_sum {amounts : List I128} (hpos : ∀ a ∈ amounts, 0 < a.val) {a : I128}
    (ha : a ∈ amounts) : a.val ≤ (amounts.map I128.val).sum := by
  refine List.single_le_sum ?_ a.val (List.mem_map_of_mem ha)
  intro x hx
  obtain ⟨b, hb, rfl⟩ := List.mem_map.mp hx
  exact (hpos b hb).le

/-- For every rate under the cap and all positive amounts whose sum, times the rate, fits `i128`:
each amount and the sum are split as `SplitsInto` says, and the fees of the parts add up to at most
the fee of the sum and to at least that less one unit for each part but one. At a rate above zero
the sum itself fits; at a zero rate it need not, and is then no amount of any call. -/
theorem fee_splitting_bound (X : Type) {bps : UInt32} (hcap : bps ≤ maxFeeBps)
    {amounts : List I128} (hne : amounts ≠ []) (hpos : ∀ a ∈ amounts, 0 < a.val)
    (hfits : (amounts.map I128.val).sum * bps.toNat ≤ 2 ^ 127 - 1) :
    ∃ fee : I128 → I128,
      (∀ a ∈ amounts, SplitsInto X a bps (fee a)) ∧
      (0 < bps → ∃ total : I128, total.val = (amounts.map I128.val).sum) ∧
      ∀ total : I128, total.val = (amounts.map I128.val).sum →
        SplitsInto X total bps (fee total) ∧
        (amounts.map fun a => (fee a).val).sum ≤ (fee total).val ∧
        (fee total).val ≤ (amounts.map fun a => (fee a).val).sum + amounts.length - 1 := by
  have hbps : (0 : Int) ≤ bps.toNat := by omega
  have hsum : 0 ≤ (amounts.map I128.val).sum := by
    obtain ⟨a, ha⟩ := List.exists_mem_of_ne_nil amounts hne
    exact (hpos a ha).le.trans (amount_le_sum hpos ha)
  -- the fee of every amount up to the sum is computed
  have hsplits : ∀ a : I128, 0 ≤ a.val → a.val ≤ (amounts.map I128.val).sum →
      ∃ fee, SplitsInto X a bps fee := by
    intro a ha hle
    have hmul := Int.mul_le_mul_of_nonneg_right hle hbps
    exact splitsInto_of_fits ha hcap (by omega)
  choose! fee hfee using hsplits
  refine ⟨fee, fun a ha => hfee a (hpos a ha).le (amount_le_sum hpos ha), ?_, ?_⟩
  · intro hrate
    have hone : (1 : Int) ≤ bps.toNat := by exact_mod_cast hrate
    have hmul := Int.mul_le_mul_of_nonneg_left hone hsum
    exact ⟨⟨(amounts.map I128.val).sum, by omega, by omega⟩, rfl⟩
  · intro total htotal
    have hsplit := hfee total (by omega) (by omega)
    refine ⟨hsplit, ?_⟩
    have hfees : (amounts.map fun a => (fee a).val)
        = (amounts.map fun a => a.val * (bps.toNat : Int)).map fun x => x / 10000 := by
      rw [List.map_map]
      refine List.map_congr_left fun a ha => ?_
      exact (hfee a (hpos a ha).le (amount_le_sum hpos ha)).floor
    have hbounds := sum_floor_bounds 10000 (by decide) (amounts.map fun a => a.val * bps.toNat)
      (by simpa using hne)
    rw [List.sum_map_mul_right, ← htotal, ← hfees, ← hsplit.floor, List.length_map] at hbounds
    exact hbounds

/-- Tips of 19, 19 and 25 at five percent pay no fee, none and 1; a tip of 63 pays 3. -/
theorem fee_splitting_bound_sample :
    feeOf 19 500 = some 0 ∧ feeOf 25 500 = some 1 ∧ feeOf 63 500 = some 3 ∧
      ∃ fee : I128 → I128, (∀ a ∈ [19, 19, 25], SplitsInto Balances a 500 (fee a)) ∧
        SplitsInto Balances 63 500 (fee 63) ∧
        ([19, 19, 25].map fun a => (fee a).val).sum ≤ (fee 63).val ∧
        (fee 63).val ≤ ([19, 19, 25].map fun a => (fee a).val).sum + 3 - 1 := by
  refine ⟨rfl, rfl, rfl, ?_⟩
  obtain ⟨fee, hparts, -, htotal⟩ := fee_splitting_bound Balances
    (show (500 : UInt32) ≤ maxFeeBps by decide) (show [19, 19, 25] ≠ [] by decide)
    (by decide) (by decide)
  exact ⟨fee, hparts, htotal 63 rfl⟩

end TipJar
