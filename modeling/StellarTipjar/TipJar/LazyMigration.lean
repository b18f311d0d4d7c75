import StellarTipjar.TipJar.Views

/-!
# TipJar — the two lazy migrations

`maybe_migrate_creator_data` moves a creator's v1 balance and total to the v2 keys of the legacy
token and `maybe_migrate_fee_balance` adds the v1 fee counter to the v2 one. `MigratedCreator`
and `MigratedFee` say what each leaves behind; neither changes a logical value.
-/

namespace TipJar

open Lib Soroban Contract

variable {X : Type} {ctx : Ctx DataKey DataKey.Val Event Error X} {w w' : World X}

theorem OnlyPersistent.trans {w w₁ w' : World X} (h₁ : OnlyPersistent w w₁)
    (h₂ : OnlyPersistent w₁ w') : OnlyPersistent w w' :=
  ⟨h₂.inst.trans h₁.inst, h₂.events.trans h₁.events, h₂.transfers.trans h₁.transfers,
    h₂.wasm.trans h₁.wasm, h₂.ext.trans h₁.ext⟩

/-! ## Creator data -/

theorem migrateV1Balance_spec (creator token : Address) :
    wp (migrateV1Balance creator token) ctx w fun _ w' =>
      OnlyPersistent w w' ∧
      w'.pers.get (.balance creator token)
        = (w.pers.get (.creatorBalance creator) <|> w.pers.get (.balance creator token)) ∧
      w'.pers.get (.creatorBalance creator) = none ∧
      ∀ k, k ≠ .balance creator token → k ≠ .creatorBalance creator →
        w'.pers.get k = w.pers.get k := by
  simp only [migrateV1Balance, wp_bind, wp_persistentGet, wp_ifSome, wp_persistentSet,
    wp_persistentRemove, wp_bumpPersistentTtl]
  intro _
  refine ⟨fun hnone => ?_, fun v hsome _ _ _ _ => ?_⟩
  · exact ⟨.refl w, by simp [hnone], hnone, fun _ _ _ => trivial⟩
  · refine ⟨⟨rfl, rfl, rfl, rfl, rfl⟩, by simp [hsome], by simp, fun k hk hk' => ?_⟩
    simp [hk, hk']

theorem migrateV1Total_spec (creator token : Address) :
    wp (migrateV1Total creator token) ctx w fun _ w' =>
      OnlyPersistent w w' ∧
      w'.pers.get (.total creator token)
        = (w.pers.get (.creatorTotal creator) <|> w.pers.get (.total creator token)) ∧
      w'.pers.get (.creatorTotal creator) = none ∧
      ∀ k, k ≠ .total creator token → k ≠ .creatorTotal creator →
        w'.pers.get k = w.pers.get k := by
  simp only [migrateV1Total, wp_bind, wp_persistentGet, wp_ifSome, wp_persistentSet,
    wp_persistentRemove, wp_bumpPersistentTtl]
  intro _
  refine ⟨fun hnone => ?_, fun v hsome _ _ _ _ => ?_⟩
  · exact ⟨.refl w, by simp [hnone], hnone, fun _ _ _ => trivial⟩
  · refine ⟨⟨rfl, rfl, rfl, rfl, rfl⟩, by simp [hsome], by simp, fun k hk hk' => ?_⟩
    simp [hk, hk']

/-- `w'` is `w` after the creator migration for `creator` under `token`. -/
structure MigratedCreator (creator token : Address) (w w' : World X) : Prop
    extends OnlyPersistent w w' where
  balance : w'.pers.get (.balance creator token) = balanceEntry w creator token
  total : w'.pers.get (.total creator token) = totalEntry w creator token
  v1Balance : w'.pers.get (.creatorBalance creator)
    = if w.inst.get .token = some token then none else w.pers.get (.creatorBalance creator)
  v1Total : w'.pers.get (.creatorTotal creator)
    = if w.inst.get .token = some token then none else w.pers.get (.creatorTotal creator)
  frame : ∀ k, k ≠ .balance creator token → k ≠ .total creator token →
    k ≠ .creatorBalance creator → k ≠ .creatorTotal creator → w'.pers.get k = w.pers.get k

theorem MigratedCreator.unchanged {creator token : Address} (h : w.inst.get .token ≠ some token) :
    MigratedCreator creator token w w where
  toOnlyPersistent := .refl w
  balance := by simp [balanceEntry, h]
  total := by simp [totalEntry, h]
  v1Balance := by simp [h]
  v1Total := by simp [h]
  frame := fun _ _ _ _ _ => rfl

theorem maybeMigrateCreatorData_spec (creator token : Address) :
    wp (maybeMigrateCreatorData creator token) ctx w fun _ w' =>
      MigratedCreator creator token w w' := by
  simp only [maybeMigrateCreatorData, wp_bind, wp_instanceGet, wp_ifSome, wp_onlyIf]
  refine ⟨fun hnone => .unchanged (by simp [hnone]), fun legacy hlegacy => ⟨?_, ?_⟩⟩
  · rintro rfl
    refine wp_mono (migrateV1Balance_spec creator legacy) ?_
    rintro _ w₁ ⟨honly₁, hbal, hbalv1, hframe₁⟩
    refine wp_mono (migrateV1Total_spec creator legacy) ?_
    rintro _ w₂ ⟨honly₂, htot, htotv1, hframe₂⟩
    exact {
      toOnlyPersistent := honly₁.trans honly₂
      balance := by
        rw [hframe₂ _ (by simp) (by simp), hbal]
        simp [balanceEntry, hlegacy]
      total := by
        rw [htot, hframe₁ _ (by simp) (by simp), hframe₁ _ (by simp) (by simp)]
        simp [totalEntry, hlegacy]
      v1Balance := by
        rw [hframe₂ _ (by simp) (by simp), hbalv1]
        simp [hlegacy]
      v1Total := by simp [htotv1, hlegacy]
      frame := fun k hk₁ hk₂ hk₃ hk₄ => by
        rw [hframe₂ k hk₂ hk₄, hframe₁ k hk₁ hk₃] }
  · intro hne
    exact .unchanged (by simpa [hlegacy] using hne)

/-- The migration changes no logical balance. -/
theorem MigratedCreator.balanceEntry_eq {creator token : Address}
    (h : MigratedCreator creator token w w') (c t : Address) :
    balanceEntry w' c t = balanceEntry w c t := by
  by_cases hc : c = creator
  · subst hc
    by_cases ht : t = token
    · subst ht
      rw [balanceEntry, h.balance, h.inst, h.v1Balance]
      by_cases hl : w.inst.get .token = some t
      · simp [hl]
      · simp [hl, balanceEntry]
    · -- under another token the v2 entry is out of the frame, the v1 entry out of the view
      have hbal : w'.pers.get (.balance c t) = w.pers.get (.balance c t) :=
        h.frame _ (by simp [ht]) (by simp) (by simp) (by simp)
      rw [balanceEntry, balanceEntry, h.inst, hbal, h.v1Balance]
      by_cases hl : w.inst.get .token = some t
      · have hlt : w.inst.get .token ≠ some token := by
          rw [hl]
          simpa using ht
        simp [hlt]
      · simp [hl]
  · have hbal : w'.pers.get (.balance c t) = w.pers.get (.balance c t) :=
      h.frame _ (by simp [hc]) (by simp) (by simp) (by simp)
    have hv1 : w'.pers.get (.creatorBalance c) = w.pers.get (.creatorBalance c) :=
      h.frame _ (by simp) (by simp) (by simp [hc]) (by simp)
    rw [balanceEntry, balanceEntry, h.inst, hbal, hv1]

/-- The migration changes no logical total. -/
theorem MigratedCreator.totalEntry_eq {creator token : Address}
    (h : MigratedCreator creator token w w') (c t : Address) :
    totalEntry w' c t = totalEntry w c t := by
  by_cases hc : c = creator
  · subst hc
    by_cases ht : t = token
    · subst ht
      rw [totalEntry, h.total, h.inst, h.v1Total]
      by_cases hl : w.inst.get .token = some t
      · simp [hl]
      · simp [hl, totalEntry]
    · have htot : w'.pers.get (.total c t) = w.pers.get (.total c t) :=
        h.frame _ (by simp) (by simp [ht]) (by simp) (by simp)
      rw [totalEntry, totalEntry, h.inst, htot, h.v1Total]
      by_cases hl : w.inst.get .token = some t
      · have hlt : w.inst.get .token ≠ some token := by
          rw [hl]
          simpa using ht
        simp [hlt]
      · simp [hl]
  · have htot : w'.pers.get (.total c t) = w.pers.get (.total c t) :=
      h.frame _ (by simp) (by simp [hc]) (by simp) (by simp)
    have hv1 : w'.pers.get (.creatorTotal c) = w.pers.get (.creatorTotal c) :=
      h.frame _ (by simp) (by simp) (by simp) (by simp [hc])
    rw [totalEntry, totalEntry, h.inst, htot, hv1]

/-! ## The fee counter -/

/-- `w'` is `w` after the fee migration under `token`. -/
structure MigratedFee (token : Address) (w w' : World X) : Prop
    extends OnlyPersistent w w' where
  fee : ((w'.pers.get (.feeBalanceToken token) : Option I128).getD 0).val = logicalFee w token
  v1Fee : w'.pers.get .feeBalance
    = if w.inst.get .token = some token then none else w.pers.get .feeBalance
  frame : ∀ k, k ≠ .feeBalanceToken token → k ≠ .feeBalance → w'.pers.get k = w.pers.get k

theorem MigratedFee.unchanged {token : Address}
    (h : w.inst.get .token = some token → w.pers.get .feeBalance = none) :
    MigratedFee token w w where
  toOnlyPersistent := .refl w
  fee := by
    unfold logicalFee
    split
    · next hl => simp [h hl]
    · simp
  v1Fee := by
    split
    · next hl => exact h hl
    · rfl
  frame := fun _ _ _ => rfl

theorem maybeMigrateFeeBalance_spec (token : Address) :
    wp (maybeMigrateFeeBalance token) ctx w fun _ w' => MigratedFee token w w' := by
  simp only [maybeMigrateFeeBalance, wp_bind, wp_persistentGet, wp_instanceGet, wp_ifSome,
    wp_onlyIf, wp_unwrapOrPanic, wp_persistentSet, wp_persistentRemove, wp_bumpPersistentTtl]
  intro _
  refine ⟨fun hnone => .unchanged fun _ => hnone, fun legacy hlegacy => ⟨?_, ?_⟩⟩
  · intro hnone
    exact .unchanged (by simp [hnone])
  · intro primary hprimary
    refine ⟨?_, fun hne => .unchanged fun h => ?_⟩
    · rintro rfl _ combined hadd _ _ _ _
      rw [I128.checkedAdd_eq_some] at hadd
      exact {
        inst := rfl
        events := rfl
        transfers := rfl
        wasm := rfl
        ext := rfl
        fee := by simp [logicalFee, hprimary, hlegacy, hadd]
        v1Fee := by simp [hprimary]
        frame := fun k hk hk' => by simp [hk, hk'] }
    · rw [hprimary] at h
      exact absurd (Option.some.inj h).symm hne

/-- The migration changes no logical fee balance. -/
theorem MigratedFee.logicalFee_eq {token : Address} (h : MigratedFee token w w') (t : Address) :
    logicalFee w' t = logicalFee w t := by
  by_cases ht : t = token
  · subst ht
    rw [logicalFee, h.fee, h.inst, h.v1Fee]
    by_cases hl : w.inst.get .token = some t
    · simp [hl]
    · simp [hl]
  · have hfee : w'.pers.get (.feeBalanceToken t) = w.pers.get (.feeBalanceToken t) :=
      h.frame _ (by simp [ht]) (by simp)
    rw [logicalFee, logicalFee, h.inst, hfee, h.v1Fee]
    by_cases hl : w.inst.get .token = some t
    · have hlt : w.inst.get .token ≠ some token := by
        rw [hl]
        simpa using ht
      simp [hlt]
    · simp [hl]

end TipJar
