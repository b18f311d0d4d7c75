import StellarTipjar.TipJar.System
import StellarTipjar.Soroban.TimeToLive

/-!
# TipJar — what the contract writes stays live

Every `set` of the contract is paired by hand with an `extend_ttl` of the same entry, or of the
instance. `program_repays` checks the pairing for every entrypoint but one: `migrate` writes to
the instance and does not extend it, so what it writes lives as long as the instance happened to.
`writes_stay_live` is the consequence for whole runs.
-/

namespace TipJar

open Lib Soroban Contract

variable {X : Type} {α : Type} {p q : List (Slot DataKey)}

/-! ## Helpers -/

/-- Extending the instance repays everything that was written to it, when nothing else is owed. -/
theorem repays_bumpInstanceTtl (hp : ∀ k, Slot.pers k ∉ p) :
    Repays ledgerThreshold p [] (bumpInstanceTtl : M X Unit) :=
  repays_instanceExtendTtl (by decide) (by decide) fun k hk => absurd hk (hp k)

@[simp] theorem repays_bumpInstanceTtl_nil :
    Repays ledgerThreshold [] [] (bumpInstanceTtl : M X Unit) :=
  repays_bumpInstanceTtl fun _ => List.not_mem_nil

/-- Extending an entry repays that entry. -/
theorem repays_bumpPersistentTtl {k : DataKey} (hq : ∀ slot ∈ p, slot ≠ .pers k → slot ∈ q) :
    Repays ledgerThreshold p q (bumpPersistentTtl k : M X Unit) :=
  repays_persistentExtendTtl (by decide) (by decide) hq

@[simp] theorem repays_bumpPersistentTtl_same (k : DataKey) :
    Repays ledgerThreshold p p (bumpPersistentTtl k : M X Unit) :=
  repays_bumpPersistentTtl fun _ hslot _ => hslot

/-- An entry is set and extended at once. -/
theorem repays_write {k : DataKey} {v : DataKey.Val k} {rest : Unit → M X α}
    (hrest : ∀ a, Repays ledgerThreshold p q (rest a)) :
    Repays ledgerThreshold p q (persistentSet k v >>= fun _ => bumpPersistentTtl k >>= rest) := by
  refine .bind (repays_persistentSet k v) fun _ => .bind ?_ hrest
  refine repays_bumpPersistentTtl fun slot hslot hne => ?_
  rcases List.mem_cons.mp hslot with heq | hmem
  · exact absurd heq hne
  · exact hmem

@[simp] theorem repays_adminAddress :
    Repays ledgerThreshold p p (adminAddress : M X Address) := .step (by simp) fun _ => by simp

@[simp] theorem repays_requireAdmin (caller : Address) :
    Repays ledgerThreshold p p (requireAdmin caller : M X Unit) := .step (by simp) fun _ => by simp

@[simp] theorem repays_ensureInitialized :
    Repays ledgerThreshold p p (ensureInitialized : M X Unit) := .step (by simp) fun _ => by simp

@[simp] theorem repays_ensureTokenAllowed (token : Address) :
    Repays ledgerThreshold p p (ensureTokenAllowed token : M X Unit) :=
  .step (by simp) fun _ => by simp

@[simp] theorem repays_feeFor (amount : I128) (bps : UInt32) :
    Repays ledgerThreshold p p (feeFor amount bps : M X I128) :=
  repays_ite (by simp) (.step (by simp) fun _ => by simp)

@[simp] theorem repays_storedPauseState :
    Repays ledgerThreshold p p (storedPauseState : M X (Option PauseState)) := by
  refine .step (by simp) fun raw => ?_
  cases raw with
  | none => simp
  | some raw =>
    simp only
    cases raw.decode with
    | none => simp
    | some state => simp

@[simp] theorem repays_pauseState :
    Repays ledgerThreshold p p (pauseState : M X PauseState) := .step (by simp) fun _ => by simp

@[simp] theorem repays_checkNotPaused (flag : UInt32) :
    Repays ledgerThreshold p p (checkNotPaused flag : M X Unit) := by
  refine .step (by simp) fun _ => .step (by simp) fun _ => repays_onlyIf ?_
  exact repays_ite (by simp) (by simp)

@[simp] theorem repays_migrateV1Balance (creator token : Address) :
    Repays ledgerThreshold p p (migrateV1Balance creator token : M X Unit) :=
  .step (by simp) fun _ => repays_ifSome fun _ => repays_write fun _ => by simp

@[simp] theorem repays_migrateV1Total (creator token : Address) :
    Repays ledgerThreshold p p (migrateV1Total creator token : M X Unit) :=
  .step (by simp) fun _ => repays_ifSome fun _ => repays_write fun _ => by simp

@[simp] theorem repays_maybeMigrateCreatorData (creator token : Address) :
    Repays ledgerThreshold p p (maybeMigrateCreatorData creator token : M X Unit) := by
  refine .step (by simp) fun _ => repays_ifSome fun _ => repays_onlyIf ?_
  exact .step (by simp) fun _ => by simp

@[simp] theorem repays_maybeMigrateFeeBalance (token : Address) :
    Repays ledgerThreshold p p (maybeMigrateFeeBalance token : M X Unit) := by
  refine .step (by simp) fun _ => repays_ifSome fun _ => .step (by simp) fun _ => ?_
  refine repays_ifSome fun _ => repays_onlyIf (.step (by simp) fun _ => ?_)
  exact .step (by simp) fun _ => repays_write fun _ => by simp

-- both counters are set before either is extended
@[simp] theorem repays_creditTip (creator token : Address) (amount fee : I128) :
    Repays ledgerThreshold p p (creditTip creator token amount fee : M X Unit) := by
  refine .step (by simp) fun _ => .step (by simp) fun _ => .step (by simp) fun _ => ?_
  refine .step (by simp) fun _ => .bind (repays_persistentSet _ _) fun _ => ?_
  refine .bind (repays_persistentSet _ _) fun _ => ?_
  refine .bind (q := .pers (.total creator token) :: p) (repays_bumpPersistentTtl ?_) fun _ =>
    repays_bumpPersistentTtl ?_
  · intro slot hslot hne
    simpa [hne] using hslot
  · intro slot hslot hne
    simpa [hne] using hslot

@[simp] theorem repays_collectFee (creator token : Address) (amount fee : I128) :
    Repays ledgerThreshold p p (collectFee creator token amount fee : M X Unit) := by
  refine .step (by simp) fun _ => .step (by simp) fun _ => .step (by simp) fun _ => ?_
  exact repays_write fun _ => by simp

@[simp] theorem repays_spendAllowance (creator caller : Address) (amount : I128) :
    Repays ledgerThreshold p p (spendAllowance creator caller amount : M X Unit) := by
  refine .step (by simp) fun _ => .step (by simp) fun _ => .step (by simp) fun _ => ?_
  refine .step (by simp) fun _ => .step (by simp) fun _ => repays_ite (by simp) ?_
  refine .bind (repays_persistentSet _ _) fun _ => repays_bumpPersistentTtl ?_
  intro slot hslot hne
  simpa [hne] using hslot

@[simp] theorem repays_applyPendingPayout (creator : Address) :
    Repays ledgerThreshold p p (applyPendingPayout creator : M X Unit) := by
  refine .step (by simp) fun _ => repays_ifSome fun _ => .step (by simp) fun _ => ?_
  exact repays_onlyIf (repays_write fun _ => .step (by simp) fun _ => by simp)

@[simp] theorem repays_currentPayoutAddress (creator : Address) :
    Repays ledgerThreshold p p (currentPayoutAddress creator : M X Address) := by
  refine .step (by simp) fun _ => .step (by simp) fun _ => ?_
  exact .step (repays_onlyIf (by simp)) fun _ => by simp

@[simp] theorem repays_getTokens :
    Repays ledgerThreshold p p (getTokens : M X (List Address)) :=
  .step (by simp) fun _ => .step (by simp) fun _ => by simp

/-! ## The entrypoints -/

/-- The counters are repaid by `creditTip` and `collectFee`, the instance at the end. -/
theorem repays_tip (sender creator token : Address) (amount : I128) :
    Repays ledgerThreshold [] [] (tip sender creator token amount : M X Unit) := by
  refine .step (by simp) fun _ => .step (by simp) fun _ => .step (by simp) fun _ => ?_
  refine .step (by simp) fun _ => .step (by simp) fun _ => .step (by simp) fun _ => ?_
  refine .step (by simp) fun _ => .step (by simp) fun _ => .step (by simp) fun _ => ?_
  refine .step (by simp) fun _ => .step (by simp) fun _ => ?_
  exact .step (repays_onlyIf (by simp)) fun _ => .step (by simp) fun _ => by simp

/-- The balance is extended after it is written; the operator and payout entries by the helpers. -/
theorem repays_withdraw (caller creator token dest : Address) (amount : Option I128) :
    Repays ledgerThreshold [] [] (withdraw caller creator token dest amount : M X Unit) := by
  refine .step (by simp) fun _ => .step (by simp) fun _ => .step (by simp) fun _ => ?_
  refine .step (by simp) fun _ => .step (by simp) fun _ => .step (by simp) fun _ => ?_
  refine .step (by simp) fun _ => .step (repays_onlyIf (by simp)) fun _ => ?_
  refine .step (by simp) fun _ => .step (by simp) fun _ => .step (by simp) fun _ => ?_
  refine .step (by simp) fun _ => .step (by simp) fun _ => repays_write fun _ => ?_
  exact .step (by simp) fun _ => by simp

/-- The fee entry is extended after it is written. -/
theorem repays_withdrawFees (caller token : Address) (amount : Option I128) :
    Repays ledgerThreshold [] [] (withdrawFees caller token amount : M X Unit) := by
  refine .step (by simp) fun _ => .step (by simp) fun _ => .step (by simp) fun _ => ?_
  refine .step (by simp) fun _ => .step (by simp) fun _ => .step (by simp) fun _ => ?_
  refine .step (by simp) fun _ => .step (by simp) fun _ => .step (by simp) fun _ => ?_
  refine .step (by simp) fun _ => repays_write fun _ => ?_
  exact .step (by simp) fun _ => by simp

/-- The pause state is in the instance, whichever branch has changed it. -/
theorem repays_pauseInternal (caller : Address) (flag : UInt32) :
    Repays ledgerThreshold [] [] (pauseInternal caller flag : M X Unit) := by
  refine .step (by simp) fun _ => .step (by simp) fun _ => .step (by simp [guardianAddress]) ?_
  refine fun _ => .step (by simp) fun _ => .step ?_ fun _ => ?_
  · refine repays_ite (by simp) (repays_ite (.step (by simp) fun _ => ?_) (by simp))
    exact .step (.step (by simp) fun _ => by simp) fun _ => by simp
  · refine .bind (repays_instanceSet _ _) fun _ => ?_
    exact .bind (repays_bumpInstanceTtl (by simp)) fun _ => by simp

/-- The same for the unpause. -/
theorem repays_unpauseInternal (caller : Address) (flag : UInt32) :
    Repays ledgerThreshold [] [] (unpauseInternal caller flag : M X Unit) := by
  refine .step (by simp) fun _ => .step (by simp) fun _ => .step (by simp) fun _ => ?_
  refine .bind (repays_instanceSet _ _) fun _ => ?_
  exact .bind (repays_bumpInstanceTtl (by simp)) fun _ => by simp

/-- `migrate` leaves what it sets as it is. -/
theorem repays_migrate (admin : Address) :
    Repays ledgerThreshold [] [.inst .dataVersion, .inst .pause] (migrate admin : M X Unit) := by
  have hidle : Repays ledgerThreshold [] [.inst .pause] (pure () : M X Unit) :=
    (repays_pure ()).weaken (by simp)
  refine .step (by simp) fun _ => .step (by simp) fun _ => .step (by simp) fun _ => ?_
  refine repays_ite ?_ ((repays_pure ()).weaken (by simp))
  refine .bind (repays_ite (.step (by simp) fun state => ?_) hidle) fun _ => ?_
  · cases state with
    | none => exact hidle
    | some state => exact repays_instanceSet _ _
  · exact .bind (repays_instanceSet _ _) fun _ => by simp

/-- Every entrypoint but `migrate` extends what it sets. -/
theorem program_repays (entry : Entrypoint) (hentry : ∀ admin, entry ≠ .migrate admin) :
    Repays ledgerThreshold [] [] (program entry : M X Ret) := by
  cases entry with
  | migrate admin => exact absurd rfl (hentry admin)
  | tip => exact .step (repays_tip _ _ _ _) fun _ => by simp
  | withdraw => exact .step (repays_withdraw _ _ _ _ _) fun _ => by simp
  | withdrawFees => exact .step (repays_withdrawFees _ _ _) fun _ => by simp
  | tipLegacy =>
    refine .step (.step (by simp) fun _ => .step (by simp) fun _ => ?_) fun _ => by simp
    exact repays_tip _ _ _ _
  | withdrawLegacy =>
    refine .step (.step (by simp) fun _ => .step (by simp) fun _ => ?_) fun _ => by simp
    exact repays_withdraw _ _ _ _ _
  | getTotalTipsLegacy creator =>
    refine .step (.step (by simp) fun tokens => ?_) fun _ => by simp
    cases tokens.head? with
    | none => simp
    | some token => exact .step (by simp) fun _ => .step (by simp) fun _ => by simp
  | pauseTips | pauseWithdrawals | pauseAll =>
    exact .step (repays_pauseInternal _ _) fun _ => by simp
  | unpauseTips | unpauseWithdrawals | unpauseAll =>
    exact .step (repays_unpauseInternal _ _) fun _ => by simp
  | _ =>
    -- a set of an instance entry incurs a debt, which `bump_instance_ttl` pays
    simp only [program, init, getTotalTips, getBalance, addToken, removeToken,
      setPayoutAddress, cancelPayoutAddress, authorizeOperator, revokeOperator, proposeAdmin,
      acceptAdmin, cancelAdminTransfer, getAdmin, getPendingAdmin, proposeUpgrade, cancelUpgrade,
      executeUpgrade, getDataVersion, setGuardian, setGuardianPauseDuration, isFeaturePaused,
      pauseFlags, guardianPauseExpiryLedger, getGuardian, guardianAddress, setFee,
      proposeFeeCollector, acceptFeeCollector, cancelFeeCollectorTransfer, getPendingFeeCollector,
      getFeeBps, getFeeCollector, getFeeBalance, previewFee]
    refine .step ?_ fun _ => by simp
    repeat' first
      | exact repays_write fun _ => .step (by simp) fun _ => by simp
      | with_reducible refine .step (by simp) fun _ => ?_
      | with_reducible refine .bind (repays_instanceSet _ _) fun _ => ?_
      | with_reducible refine .bind (repays_bumpInstanceTtl (by simp)) fun _ => ?_
      | with_reducible exact repays_bumpInstanceTtl (by simp)
      | with_reducible refine .step ?_ fun _ => ?_
      | simp

/-! ## Calls and runs -/

/-- The schema version `migrate` finds. -/
def storedVersion (w : World X) : UInt32 := (w.inst.get .dataVersion : Option UInt32).getD 1

/-- If the call is a `migrate` that has something to do, the instance has long to live. -/
def RenewedFor (c : Call) (w : World X) : Prop :=
  ∀ admin, c.entry = .migrate admin → storedVersion w < dataVersion →
    c.sequence.toNat + ledgerThreshold ≤ w.instLive

section Runs

variable {chain : Chain X} {w w' : World X}

/-- `migrate` writes to the instance without extending it. Nothing is owed only if the instance lives
long enough already, or if the call has nothing to write. -/
theorem migrate_owes {sequence : UInt32} {auth : List Address} (admin : Address)
    (hlive : storedVersion w < dataVersion → sequence.toNat + ledgerThreshold ≤ w.instLive) :
    wp (migrate admin) (chain.ctx sequence auth) w fun _ w' =>
      Owes ledgerThreshold sequence.toNat w w' [] := by
  by_cases hold : storedVersion w < dataVersion
  · refine wp_mono (repays_migrate admin chain sequence auth w w (.refl _ _ w)) fun _ w' howes => ?_
    exact howes.of_instLive (hlive hold) (by simp)
  · simp only [migrate, wp_bind, wp_requireAuth, wp_requireAdmin, wp_instanceGet]
    intro _ _
    exact (wp_onlyIf _ _).mpr ⟨fun h => absurd h hold, fun _ => .refl _ _ w⟩

/-- A successful call leaves no debt. -/
theorem exec_owes {c : Call} {r : Ret} (h : exec chain c w = .ok (r, w'))
    (hrenewed : RenewedFor c w) : Owes ledgerThreshold c.sequence.toNat w w' [] := by
  refine exec_post (Q := fun _ w' => Owes ledgerThreshold c.sequence.toNat w w' []) ?_ h
  by_cases hentry : ∃ admin, c.entry = .migrate admin
  · obtain ⟨admin, hmigrate⟩ := hentry
    rw [hmigrate]
    simp only [program, wp_bind]
    refine wp_mono (migrate_owes admin (hrenewed admin hmigrate)) fun _ _ howes => ?_
    exact (wp_pure _).mpr howes
  · exact program_repays c.entry (fun admin h => hentry ⟨admin, h⟩) chain _ _ w w (.refl _ _ w)

/-- No later call shortens a life that ends within its own reach. -/
theorem step_liveUntil {o : Occ (World X) (Action X)} {slot : Slot DataKey} {n : Nat}
    (hstep : IsStep (step chain) o) (hpresent : o.after.Present slot)
    (hcall : ∀ c, Succeeds chain o c → RenewedFor c o.before ∧ n ≤ c.sequence.toNat + ledgerThreshold)
    (hlive : n ≤ o.before.liveUntil slot) : n ≤ o.after.liveUntil slot := by
  rcases succeeds_or_outside hstep with ⟨c, hc⟩ | ⟨x, hx⟩
  · obtain ⟨hrenewed, hn⟩ := hcall c hc
    obtain ⟨-, r, hexec⟩ := hc
    have howes := exec_owes hexec hrenewed
    cases slot with
    | inst k => exact hlive.trans howes.instLive
    | pers k => exact (le_min hlive hn).trans (howes.persLive k hpresent List.not_mem_nil)
  · rw [hx]
    exact hlive

end Runs

/-- The entry is there and live at ledger `t`. -/
def LiveAt (t : Nat) (slot : Slot DataKey) (w : World X) : Prop :=
  w.Present slot ∧ t ≤ w.liveUntil slot

/-- In a run in which no `migrate` with something to do meets an instance about to expire, an entry
that a call at ledger `s` has set, and that nobody has removed since, is live at every ledger up
to `s + 100000`. -/
theorem writes_stay_live {chain : Chain X} {w₀ : World X} {acts : List (Action X)}
    (horder : LedgerOrder acts)
    (hrenewed : ∀ o ∈ trace (step chain) w₀ acts, ∀ c, Succeeds chain o c → RenewedFor c o.before)
    {tr₁ tr₂ : List (Occ (World X) (Action X))} {o : Occ (World X) (Action X)} {c : Call}
    (htr : trace (step chain) w₀ acts = tr₁ ++ o :: tr₂) (hc : Succeeds chain o c)
    {slot : Slot DataKey} (hset : slot ∈ o.before.written o.after)
    (hpresent : o.after.Present slot) (hkept : ∀ q ∈ tr₂, q.after.Present slot)
    {t : Nat} (ht : t ≤ c.sequence.toNat + 100000) :
    LiveAt t slot (run (step chain) w₀ acts) := by
  have ho : o ∈ trace (step chain) w₀ acts := by
    rw [htr]
    simp
  obtain ⟨-, r, hexec⟩ := id hc
  have howes := exec_owes hexec (hrenewed o ho c hc)
  have hlive : c.sequence.toNat + ledgerThreshold ≤ o.after.liveUntil slot :=
    howes.extended slot hset hpresent List.not_mem_nil
  -- from the call on: the entry is there, and lives as long as that call saw to
  refine run_invariant_since (step chain) (P := fun w => LiveAt t slot w) htr
    ⟨hpresent, ht.trans hlive⟩ ?_
  intro q hq hin hbefore
  refine ⟨hkept q hq, ?_⟩
  have hstep := isStep_of_mem (step chain) hin
  refine step_liveUntil hstep (hkept q hq) (fun d hd => ?_) hbefore.2
  refine ⟨hrenewed q hin d hd, ht.trans ?_⟩
  obtain ⟨mid, rest, hmid⟩ := List.append_of_mem hq
  have hsplit : trace (step chain) w₀ acts = (tr₁ ++ o :: mid) ++ q :: rest := by
    rw [htr, hmid]
    simp
  have hle : c.sequence ≤ d.sequence := horder.le hsplit (by simp) hc hd
  exact Nat.add_le_add_right hle _

/-! ## A v1 jar that nobody has called for a long time

On a network that archives, its instance lives until ledger 10. -/

/-- A chain on which entries expire, and new ones live 16 ledgers. -/
def archivingChain : Chain Balances := { sampleChain with archival := true, minLife := 16 }

/-- A v1 jar whose instance lives until ledger 10. -/
def quietJar : World Balances :=
  { freshWorld (fun _ _ => 1000) with
    inst := (Store.empty.set .token ⟨1⟩).set .admin ⟨2⟩
    instLive := 10 }

/-- It has the layout of a v1 jar. -/
theorem quietJar_layout : V1Layout ⟨1⟩ quietJar where
  token := rfl
  admin := rfl
  creatorBalance := by intro c v h; cases h
  creatorTotal := by intro c v h; cases h
  feeBalance := by intro v h; cases h
  balance := fun _ => rfl
  total := fun _ => rfl
  feeBalanceToken := rfl

/-- `migrate` at ledger 5 sets `DataVersion`, and six ledgers later the entry is archived. -/
theorem migrate_leaves_expiring :
    V1Layout ⟨1⟩ quietJar ∧ ∃ w', exec archivingChain ⟨5, [⟨2⟩], .migrate ⟨2⟩⟩ quietJar = .ok (.unit, w') ∧
      .inst .dataVersion ∈ quietJar.written w' ∧ w'.Present (.inst .dataVersion) ∧
      ¬LiveAt 11 (.inst .dataVersion) w' :=
  ⟨quietJar_layout, _, rfl, by decide, rfl, fun h => absurd h.2 (by decide)⟩

/-- A creator grants an operator an allowance. -/
def grantCall : Call := ⟨5, [⟨3⟩], .authorizeOperator ⟨3⟩ ⟨4⟩ 100 1000⟩

/-- An operator is authorised at ledger 5, which renews the instance; the migration one ledger
later finds it renewed. -/
def quietJarRun : List (Action Balances) := [.call grantCall, .call ⟨6, [⟨2⟩], .migrate ⟨2⟩⟩]

theorem writes_stay_live_sample :
    LiveAt 100005 (.pers (.operator ⟨3⟩ ⟨4⟩)) (run (step archivingChain) quietJar quietJarRun) := by
  have htr : trace (step archivingChain) quietJar quietJarRun
      = [] ++ ⟨quietJar, .call grantCall, step archivingChain quietJar (.call grantCall)⟩ :: [_] :=
    rfl
  refine writes_stay_live ?_ ?_ htr (c := grantCall) ⟨rfl, .unit, rfl⟩ (by decide) ?_ ?_
    (by decide)
  · refine List.Pairwise.cons ?_ (List.pairwise_singleton _ _)
    intro b hb c d hc hd
    cases List.mem_singleton.mp hb
    cases hc
    cases hd
    decide
  · intro o ho c hc admin hadmin
    rcases List.mem_cons.mp ho with rfl | ho
    · cases hc.1
      cases hadmin
    · cases List.mem_singleton.mp ho
      cases hc.1
      intro _
      decide
  · exact rfl
  · intro q hq
    cases List.mem_singleton.mp hq
    exact rfl

end TipJar
