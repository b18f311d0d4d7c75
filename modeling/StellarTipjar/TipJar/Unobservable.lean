import StellarTipjar.TipJar.EagerMigration
import StellarTipjar.TipJar.Accounting

/-!
# TipJar — the lazy migration is unobservable

Every entrypoint keeps the relation between a lazily and an eagerly migrated storage and answers
the same in both (`program_keeps`), so two runs of the same calls cannot be told apart
(`lazy_migration_unobservable`).
-/

namespace TipJar

open Lib Soroban Contract

variable {X : Type}

/-! ## The entrypoints -/

section Entrypoints

variable {T₀ : Address} {S : List DataKey}

section Helpers

variable {I : Store DataKey DataKey.Val → Prop}
  {P : Store DataKey DataKey.Val → Store DataKey DataKey.Val → Prop}

/-- A value that does not decode makes both runs trap. -/
theorem keeps_storedPauseState : Keeps I P (storedPauseState : M X (Option PauseState)) := by
  refine keeps_bind (keeps_instanceGet _) ?_
  intro raw
  cases raw with
  | none => exact keeps_pure none
  | some raw =>
    dsimp only
    cases raw.decode with
    | none => exact keeps_fail _
    | some state => exact keeps_pure (some state)

@[simp] theorem keeps_pauseState : Keeps I P (pauseState : M X PauseState) :=
  keeps_bind keeps_storedPauseState fun _ => keeps_pure _

@[simp] theorem keeps_checkNotPaused (flag : UInt32) :
    Keeps I P (checkNotPaused flag : M X Unit) := by
  refine keeps_bind keeps_pauseState fun state => ?_
  refine keeps_bind keeps_ledgerSequence fun sequence => keeps_onlyIf ?_
  exact keeps_ite (keeps_panicWithError _) (keeps_panicWithError _)

@[simp] theorem keeps_adminAddress : Keeps I P (adminAddress : M X Address) :=
  keeps_bind (keeps_instanceGet _) fun _ => keeps_unwrapOrPanic _ _

@[simp] theorem keeps_requireAdmin (caller : Address) :
    Keeps I P (requireAdmin caller : M X Unit) :=
  keeps_bind keeps_adminAddress fun _ => keeps_panicIf _ _

@[simp] theorem keeps_ensureInitialized : Keeps I P (ensureInitialized : M X Unit) :=
  keeps_bind (keeps_instanceHas _) fun _ => keeps_panicIf _ _

@[simp] theorem keeps_ensureTokenAllowed (token : Address) :
    Keeps I P (ensureTokenAllowed token : M X Unit) :=
  keeps_bind (keeps_instanceGet _) fun _ => keeps_panicIf _ _

@[simp] theorem keeps_feeFor (amount : I128) (bps : UInt32) :
    Keeps I P (feeFor amount bps : M X I128) := by
  simp [feeFor]

@[simp] theorem keeps_getTokens : Keeps I P (getTokens : M X (List Address)) :=
  keeps_bind keeps_ensureInitialized fun _ => keeps_bind (keeps_instanceGet _) fun _ => keeps_pure _

end Helpers

/-- `init` fails: there is an admin. -/
theorem keeps_init (token admin : Address) (ledgers : UInt32) :
    Keeps (LegacyToken T₀) (EagerAt T₀ S) (init token admin ledgers : M X Unit) := by
  intro chain sequence auth v e _ htwins
  have hfails : ∀ w : World X, (w.inst.get .admin).isSome →
      (init token admin ledgers : M X Unit).run (chain.ctx sequence auth) w
        = .error (.error .alreadyInitialized) := by
    intro w hadmin
    simp only [init, run_bind, instanceHas, hadmin, panicIf, if_true]
    rfl
  have hadmin := htwins.invariant.2
  rw [hfails v hadmin, hfails e (by rw [htwins.inst]; exact hadmin)]
  rfl

/-! ### Counters -/

/-- The two getters migrate first, so both states answer with the same v2 entry. -/
theorem getTotalTips_keeps (creator token : Address) :
    Keeps (LegacyToken T₀) (EagerAt T₀ []) (getTotalTips creator token : M X I128) :=
  keeps_migratedCreator (keeps_bind (keeps_get (by simp)) fun _ => keeps_pure _)

theorem getBalance_keeps (creator token : Address) :
    Keeps (LegacyToken T₀) (EagerAt T₀ []) (getBalance creator token : M X I128) :=
  keeps_migratedCreator (keeps_bind (keeps_get (by simp)) fun _ => keeps_pure _)

theorem getFeeBalance_keeps (token : Address) :
    Keeps (LegacyToken T₀) (EagerAt T₀ []) (getFeeBalance token : M X I128) :=
  keeps_movedFee (keeps_bind (keeps_get (by simp)) fun _ => keeps_pure _)

/-- The two entries are among the migrated ones here, so both states read and write them alike. -/
theorem creditTip_keeps (creator token : Address) (amount fee : I128) :
    Keeps (LegacyToken T₀) (EagerAt T₀ [.balance creator token, .total creator token])
      (creditTip creator token amount fee : M X Unit) := by
  refine keeps_bind (keeps_get (by simp)) fun balance => ?_
  refine keeps_bind (keeps_get (by simp)) fun total => ?_
  refine keeps_bind (by simp) fun newBalance => keeps_bind (by simp) fun newTotal => ?_
  refine keeps_bind (by simp) fun _ => keeps_bind (by simp) fun _ => ?_
  exact keeps_bind (by simp) fun _ => by simp

/-- The fee entry is migrated at the start. -/
theorem collectFee_keeps (creator token : Address) (amount fee : I128) :
    Keeps (LegacyToken T₀) (EagerAt T₀ []) (collectFee creator token amount fee : M X Unit) := by
  refine keeps_movedFee (keeps_bind (keeps_get (by simp)) fun feeBalance => ?_)
  refine keeps_bind (by simp) fun newFeeBalance => ?_
  refine keeps_bind (by simp) fun _ => keeps_bind (by simp) fun _ => ?_
  exact keeps_publish _

/-- After the migration the two runs go through the same steps. -/
theorem tip_keeps (sender creator token : Address) (amount : I128) :
    Keeps (LegacyToken T₀) (EagerAt T₀ []) (tip sender creator token amount : M X Unit) := by
  refine keeps_bind (by simp) fun _ => keeps_bind (by simp) fun _ => ?_
  refine keeps_bind (by simp) fun _ => keeps_bind (by simp) fun _ => ?_
  refine keeps_bind (by simp) fun _ => ?_
  refine Carries.bind (maybeMigrateCreatorData_carries creator token) fun _ => ?_
  refine Carries.bind (keeps_instanceGet _) fun feeBps => ?_
  refine Carries.bind (keeps_feeFor _ _) fun fee => ?_
  refine Carries.bind keeps_currentContractAddress fun contractAddress => ?_
  refine Carries.bind (keeps_tokenTransfer _) fun _ => ?_
  refine Carries.bind (creditTip_keeps creator token amount fee) fun _ => ?_
  -- from here on the counters of the pair are not accessed
  refine Carries.strengthen (fun _ _ h => h.forget) ?_
  refine keeps_bind (keeps_onlyIf (collectFee_keeps creator token amount fee)) fun _ => ?_
  exact keeps_bind keeps_bumpInstanceTtl fun _ => keeps_publish _

/-! ### Withdrawals -/

/-- An operator entry is the same in both layouts. -/
theorem spendAllowance_keeps (creator caller : Address) (amount : I128) :
    Keeps (LegacyToken T₀) (EagerAt T₀ S) (spendAllowance creator caller amount : M X Unit) := by
  refine keeps_bind (keeps_get nofun) fun stored => ?_
  refine keeps_bind (by simp) fun grant => keeps_bind (by simp) fun sequence => ?_
  refine keeps_bind (by simp) fun _ => keeps_bind (by simp) fun _ => ?_
  refine keeps_ite (keeps_remove nofun) ?_
  refine keeps_bind (keeps_set nofun) fun _ => ?_
  exact keeps_bumpPersistentTtl nofun

/-- So is a pending payout change. -/
theorem applyPendingPayout_keeps (creator : Address) :
    Keeps (LegacyToken T₀) (EagerAt T₀ S) (applyPendingPayout creator : M X Unit) := by
  refine keeps_bind (keeps_get nofun) fun pending => ?_
  refine keeps_ifSome fun pending => keeps_bind (by simp) fun sequence => keeps_onlyIf ?_
  refine keeps_bind (keeps_set nofun) fun _ => ?_
  refine keeps_bind (keeps_bumpPersistentTtl nofun) fun _ => ?_
  refine keeps_bind (keeps_remove nofun) fun _ => ?_
  exact keeps_publish _

/-- And the payout address. -/
theorem currentPayoutAddress_keeps (creator : Address) :
    Keeps (LegacyToken T₀) (EagerAt T₀ S) (currentPayoutAddress creator : M X Address) := by
  refine keeps_bind (keeps_get nofun) fun stored => ?_
  refine keeps_bind (keeps_has nofun) fun present => ?_
  refine keeps_bind (keeps_onlyIf (keeps_bumpPersistentTtl nofun)) fun _ => ?_
  exact keeps_pure _

/-- As for `tip`. -/
theorem withdraw_keeps (caller creator token dest : Address) (amount : Option I128) :
    Keeps (LegacyToken T₀) (EagerAt T₀ [])
      (withdraw caller creator token dest amount : M X Unit) := by
  refine keeps_bind (by simp) fun _ => keeps_bind (by simp) fun _ => ?_
  refine keeps_bind (by simp) fun _ => ?_
  refine keeps_migratedCreator (keeps_bind (keeps_get (by simp)) fun stored => ?_)
  refine keeps_bind (by simp) fun _ => keeps_bind (by simp) fun _ => ?_
  refine keeps_bind (keeps_onlyIf (spendAllowance_keeps creator caller _)) fun _ => ?_
  refine keeps_bind (applyPendingPayout_keeps creator) fun _ => ?_
  refine keeps_bind (currentPayoutAddress_keeps creator) fun payoutAddress => ?_
  refine keeps_bind (by simp) fun _ => keeps_bind (by simp) fun contractAddress => ?_
  refine keeps_bind (by simp) fun _ => keeps_bind (by simp) fun _ => ?_
  refine keeps_bind (by simp) fun _ => keeps_bind (by simp) fun _ => ?_
  exact keeps_publish _

/-- The fee entry is migrated before it is read. -/
theorem withdrawFees_keeps (caller token : Address) (amount : Option I128) :
    Keeps (LegacyToken T₀) (EagerAt T₀ []) (withdrawFees caller token amount : M X Unit) := by
  refine keeps_bind (by simp) fun _ => keeps_bind (keeps_instanceGet _) fun stored => ?_
  refine keeps_bind (by simp) fun collector => keeps_bind (by simp) fun _ => ?_
  refine keeps_movedFee (keeps_bind (keeps_get (by simp)) fun feeBalance => ?_)
  refine keeps_bind (by simp) fun _ => keeps_bind (by simp) fun _ => ?_
  refine keeps_bind (by simp) fun contractAddress => keeps_bind (by simp) fun _ => ?_
  refine keeps_bind (by simp) fun _ => keeps_bind (by simp) fun _ => ?_
  exact keeps_bind (by simp) fun _ => keeps_publish _

/-! ### Governance -/

/-- The pause state is in the instance, which the two layouts share. -/
theorem pauseInternal_keeps (caller : Address) (flag : UInt32) :
    Keeps (LegacyToken T₀) (EagerAt T₀ S) (pauseInternal caller flag : M X Unit) := by
  refine keeps_bind (by simp) fun _ => keeps_bind keeps_adminAddress fun admin => ?_
  refine keeps_bind (keeps_instanceGet _) fun guardian => ?_
  refine keeps_bind keeps_pauseState fun state => ?_
  refine keeps_bind (keeps_ite (keeps_pure _) (keeps_ite ?_ (by simp))) fun state' => ?_
  · refine keeps_bind (by simp) fun sequence => keeps_bind ?_ fun duration => keeps_pure _
    exact keeps_bind (keeps_instanceGet _) fun _ => keeps_pure _
  · exact keeps_bind (by simp) fun _ => keeps_bind (by simp) fun _ => keeps_publish _

/-- The same for the unpause. -/
theorem unpauseInternal_keeps (caller : Address) (flag : UInt32) :
    Keeps (LegacyToken T₀) (EagerAt T₀ S) (unpauseInternal caller flag : M X Unit) := by
  refine keeps_bind (by simp) fun _ => keeps_bind (by simp) fun _ => ?_
  refine keeps_bind keeps_pauseState fun state => keeps_bind (by simp) fun _ => ?_
  exact keeps_bind (by simp) fun _ => keeps_publish _

/-- `migrate` touches the instance alone. -/
theorem migrate_keeps (admin : Address) :
    Keeps (LegacyToken T₀) (EagerAt T₀ S) (migrate admin : M X Unit) := by
  refine keeps_bind (by simp) fun _ => keeps_bind (by simp) fun _ => ?_
  refine keeps_bind (keeps_instanceGet _) fun stored => keeps_onlyIf ?_
  refine keeps_bind (keeps_onlyIf ?_) fun _ => ?_
  · exact keeps_bind keeps_storedPauseState fun _ =>
      keeps_ifSome fun _ => keeps_setInstance (by simp)
  · exact keeps_bind (by simp) fun _ => keeps_publish _

/-- No entrypoint tells the lazy storage from the eager one. -/
theorem program_keeps (entry : Entrypoint) :
    Keeps (LegacyToken T₀) (EagerAt T₀ []) (program entry : M X Ret) := by
  cases entry with
  | init token admin ledgers =>
    exact keeps_bind (keeps_init token admin ledgers) fun _ => keeps_pure _
  | tip sender creator token amount =>
    exact keeps_bind (tip_keeps sender creator token amount) fun _ => keeps_pure _
  | getTotalTips creator token =>
    exact keeps_bind (getTotalTips_keeps creator token) fun _ => keeps_pure _
  | getBalance creator token =>
    exact keeps_bind (getBalance_keeps creator token) fun _ => keeps_pure _
  | withdraw caller creator token dest amount =>
    exact keeps_bind (withdraw_keeps caller creator token dest amount) fun _ => keeps_pure _
  | withdrawFees caller token amount =>
    exact keeps_bind (withdrawFees_keeps caller token amount) fun _ => keeps_pure _
  | getFeeBalance token => exact keeps_bind (getFeeBalance_keeps token) fun _ => keeps_pure _
  | tipLegacy sender creator amount =>
    refine keeps_bind ?_ fun _ => keeps_pure _
    refine keeps_bind keeps_getTokens fun tokens => keeps_bind (by simp) fun defaultToken => ?_
    exact tip_keeps sender creator defaultToken amount
  | getTotalTipsLegacy creator =>
    refine keeps_bind (keeps_bind keeps_getTokens fun tokens => ?_) fun _ => keeps_pure _
    cases tokens.head? with
    | none => exact keeps_pure _
    | some defaultToken => exact getTotalTips_keeps creator defaultToken
  | withdrawLegacy caller creator dest amount =>
    refine keeps_bind ?_ fun _ => keeps_pure _
    refine keeps_bind keeps_getTokens fun tokens => keeps_bind (by simp) fun defaultToken => ?_
    exact withdraw_keeps caller creator defaultToken dest amount
  | migrate admin => exact keeps_bind (migrate_keeps admin) fun _ => keeps_pure _
  | pauseTips caller | pauseWithdrawals caller | pauseAll caller =>
    exact keeps_bind (pauseInternal_keeps caller _) fun _ => keeps_pure _
  | unpauseTips caller | unpauseWithdrawals caller | unpauseAll caller =>
    exact keeps_bind (unpauseInternal_keeps caller _) fun _ => keeps_pure _
  | _ =>
    -- straight-line calls that access no counter: every host operation in them keeps the relation
    simp only [program, addToken, removeToken, setPayoutAddress, cancelPayoutAddress,
      authorizeOperator, revokeOperator, proposeAdmin, acceptAdmin, cancelAdminTransfer, getAdmin,
      getPendingAdmin, proposeUpgrade, cancelUpgrade, executeUpgrade, getDataVersion, setGuardian,
      setGuardianPauseDuration, isFeaturePaused, pauseFlags, guardianPauseExpiryLedger, getGuardian,
      guardianAddress, setFee, proposeFeeCollector, acceptFeeCollector, cancelFeeCollectorTransfer,
      getPendingFeeCollector, getFeeBps, getFeeCollector, previewFee]
    repeat' with_reducible refine keeps_bind ?_ fun _ => ?_
    all_goals first
      | exact keeps_instanceGet _
      | simp
      | exact keeps_has (by simp [DataKey.isLedger])
      | exact keeps_set (by simp [DataKey.isLedger])
      | exact keeps_bumpPersistentTtl (by simp [DataKey.isLedger])
      | exact keeps_remove (by simp [DataKey.isLedger])

end Entrypoints

/-! ## Runs -/

/-- What somebody outside the contract sees of a step: the answer of the call, the events and the
token transfers. -/
structure Observation where
  result : Option (Except (Failure Error) Ret)
  events : List Event
  transfers : List Transfer

/-- What a caller sees of an occurrence: the answer, and what it adds to transfers and events. -/
def observe (chain : Chain X) (o : Occ (World X) (Action X)) : Observation where
  result :=
    match o.act with
    | .call c => some ((exec chain c o.before).map Prod.fst)
    | .outside _ => none
  events := o.after.events.drop o.before.events.length
  transfers := o.after.transfers.drop o.before.transfers.length

/-- The contract with every v1 counter moved at once. -/
def eager (T₀ : Address) (w : World X) : World X := { w with pers := eagerStore T₀ w.pers }

/-- `e` is an eagerly migrated twin of `v`. -/
def EagerTwin (T₀ : Address) (v e : World X) : Prop :=
  Twins (LegacyToken T₀) (EagerAt T₀ []) v e

section Runs

variable {chain : Chain X} {T₀ : Address} {v e w₀ : World X}

/-- The two initial states: one in v1 layout, one where everything is migrated. -/
theorem V1Layout.eagerTwin (h : V1Layout T₀ w₀) : EagerTwin T₀ w₀ (eager T₀ w₀) := by
  refine ⟨rfl, rfl, rfl, rfl, rfl, ⟨h.token, h.admin⟩, fun _ => rfl, ?_, by simp⟩
  intro n _
  cases n with
  | balance c => exact h.balance c
  | total c => exact h.total c
  | fee => exact h.feeBalanceToken

/-- One call: the same answer, and twins again. -/
theorem EagerTwin.exec (harchival : chain.archival = false) (h : EagerTwin T₀ v e) (c : Call) :
    Agree (EagerTwin T₀) (TipJar.exec chain c v) (TipJar.exec chain c e) :=
  keeps_bind keeps_loadInstance (fun _ => program_keeps c.entry) chain c.sequence c.auth v e
    harchival h

/-- A step keeps the twins and looks the same from outside. -/
theorem EagerTwin.step (harchival : chain.archival = false) (h : EagerTwin T₀ v e)
    (a : Action X) :
    EagerTwin T₀ (step chain v a) (step chain e a) ∧
      observe chain ⟨v, a, step chain v a⟩ = observe chain ⟨e, a, step chain e a⟩ := by
  cases a with
  | outside x =>
    refine ⟨⟨h.inst, h.events, h.transfers, h.wasm, rfl, h.invariant, h.pers⟩, ?_⟩
    simp only [observe, step_outside, h.events, h.transfers]
  | call c =>
    rcases (h.exec harchival c).cases with ⟨f, hv, he⟩ | ⟨r, v', e', hv, he, h'⟩
    · rw [step_call_error hv, step_call_error he]
      refine ⟨h, ?_⟩
      simp only [observe, hv, he, h.events, h.transfers]
    · rw [step_call_ok hv, step_call_ok he]
      refine ⟨h', ?_⟩
      simp only [observe, hv, he, h.events, h.transfers, h'.events, h'.transfers]
      rfl

/-- By induction over the run: the observations are the same throughout. -/
theorem EagerTwin.run (harchival : chain.archival = false) (h : EagerTwin T₀ v e)
    (acts : List (Action X)) :
    EagerTwin T₀ (run (TipJar.step chain) v acts) (run (TipJar.step chain) e acts) ∧
      (trace (TipJar.step chain) v acts).map (observe chain)
        = (trace (TipJar.step chain) e acts).map (observe chain) := by
  induction acts generalizing v e with
  | nil => exact ⟨h, rfl⟩
  | cons a l ih =>
    obtain ⟨hstep, hobserve⟩ := h.step harchival a
    obtain ⟨hrun, htrace⟩ := ih hstep
    refine ⟨hrun, ?_⟩
    simp only [trace, List.map_cons, hobserve, htrace]

/-! ## The v1 counters -/

/-- A v1 counter is only ever removed. -/
theorem Counter.v1_step (n : Counter) {w : World X} (hadmin : (w.inst.get .admin).isSome)
    (a : Action X) :
    n.v1 (step chain w a).pers = none ∨ n.v1 (step chain w a).pers = n.v1 w.pers := by
  refine step_preserves (P := fun w' => n.v1 w'.pers = none ∨ n.v1 w'.pers = n.v1 w.pers)
    (fun _ => .inr rfl) ?_ a
  intro c r w' hexec
  have hshrinks := ((exec_effect hexec).money (exec_governs hexec) hadmin).v1Shrinks
  cases n with
  | balance creator => exact hshrinks (.creatorBalance creator) rfl
  | total creator => exact hshrinks (.creatorTotal creator) rfl
  | fee => exact hshrinks .feeBalance rfl

/-- Once it is gone it stays gone. -/
theorem Counter.v1_gone (n : Counter) {w : World X} (hadmin : (w.inst.get .admin).isSome)
    (hnone : n.v1 w.pers = none) {acts : List (Action X)} {q : Occ (World X) (Action X)}
    (hq : q ∈ trace (step chain) w acts) : n.v1 q.after.pers = none := by
  have hstep : ∀ (w : World X) (a : Action X),
      (w.inst.get .admin).isSome ∧ n.v1 w.pers = none →
        ((step chain w a).inst.get .admin).isSome ∧ n.v1 (step chain w a).pers = none := by
    intro w a hw
    refine ⟨step_admin_isSome hw.1 a, ?_⟩
    rcases n.v1_step hw.1 a with hgone | hsame
    · exact hgone
    · rw [hsame]
      exact hw.2
  have hbefore := trace_invariant (step chain) hstep ⟨hadmin, hnone⟩ hq
  obtain ⟨-, -, -, -, hafter⟩ := trace_mem (step chain) hq
  rw [hafter]
  exact (hstep _ _ hbefore).2

/-- A lazily migrated run beside the eagerly migrated one. -/
structure MigrationUnobservable (chain : Chain X) (T₀ : Address) (w₀ : World X)
    (acts : List (Action X)) : Prop where
  /-- every call answers, publishes and transfers the same -/
  observations : (trace (step chain) w₀ acts).map (observe chain)
    = (trace (step chain) (eager T₀ w₀) acts).map (observe chain)
  /-- no v1 value is lost: moved or not, it is what the eager run has -/
  kept : ∀ n : Counter, n.v2 T₀ (run (step chain) (eager T₀ w₀) acts).pers
    = (n.v1 (run (step chain) w₀ acts).pers <|> n.v2 T₀ (run (step chain) w₀ acts).pers)
  /-- a v1 counter changes by being moved: there was no v2 value to overwrite, and it is gone for
  the rest of the run -/
  movedOnce : ∀ tr₁ o tr₂, trace (step chain) w₀ acts = tr₁ ++ o :: tr₂ → ∀ n : Counter,
    n.v1 o.after.pers ≠ n.v1 o.before.pers →
      n.v2 T₀ o.before.pers = none ∧ n.v1 o.after.pers = none ∧
        ∀ q ∈ tr₂, n.v1 q.after.pers = none

/-- In the migrated state a counter is the v1 one where there was one. -/
theorem Counter.v2_eager (n : Counter) (s : Store DataKey DataKey.Val) :
    n.v2 T₀ (eagerStore T₀ s) = (n.v1 s <|> n.v2 T₀ s) := by
  cases n <;> simp [Counter.v1, Counter.v2, eagerStore, eagerGet]

/-- For every sequence of calls the lazily migrated contract behaves like the eagerly migrated
one. -/
theorem lazy_migration_unobservable (harchival : chain.archival = false) (h₀ : V1Layout T₀ w₀)
    (acts : List (Action X)) : MigrationUnobservable chain T₀ w₀ acts := by
  obtain ⟨hend, hobserve⟩ := h₀.eagerTwin.run harchival acts
  refine ⟨hobserve, ?_, ?_⟩
  · intro n
    rw [← n.v2_eager, hend.pers.eq_eagerStore]
  · intro tr₁ o tr₂ htr n hne
    obtain ⟨l₁, l₂, -, -, hbefore, hafter, htail⟩ := trace_split (step chain) htr
    -- the twins up to this step
    have htwin := (h₀.eagerTwin.run harchival l₁).1
    rw [← hbefore] at htwin
    have hadmin : (o.before.inst.get .admin).isSome := htwin.invariant.2
    have hgone : n.v1 o.after.pers = none := by
      rw [hafter] at hne ⊢
      rcases n.v1_step hadmin o.act with hnone | hsame
      · exact hnone
      · exact absurd hsame hne
    have hpresent : n.v1 o.before.pers ≠ none := by
      intro hnone
      exact hne (hgone.trans hnone.symm)
    refine ⟨htwin.pers.apart n hpresent, hgone, ?_⟩
    intro q hq
    rw [htail] at hq
    refine n.v1_gone ?_ hgone hq
    rw [hafter]
    exact step_admin_isSome hadmin o.act

end Runs

/-! ## A sample in the v1 layout

The sample deployment with a v1 balance of 100, a v1 total of 150 and v1 fees of 5. -/

/-- A v1 jar with one creator. -/
def sampleV1World : World Balances :=
  { sampleWorld 50 with
    pers := ((Store.empty.set (.creatorBalance ⟨3⟩) 100).set (.creatorTotal ⟨3⟩) 150).set
      .feeBalance 5 }

/-- It has the layout of a v1 jar. -/
theorem sampleV1World_layout : V1Layout ⟨1⟩ sampleV1World where
  token := rfl
  admin := rfl
  creatorBalance := by
    intro c v hv
    by_cases hc : c = ⟨3⟩
    · subst hc
      cases hv
      decide
    · simp [sampleV1World, hc] at hv
  creatorTotal := by
    intro c v hv
    by_cases hc : c = ⟨3⟩
    · subst hc
      cases hv
      decide
    · simp [sampleV1World, hc] at hv
  feeBalance := by
    intro v hv
    cases hv
    decide
  balance := fun c => by simp [sampleV1World]
  total := fun c => by simp [sampleV1World]
  feeBalanceToken := rfl

/-- A tip migrates the creator's counters and, with a fee set, the fee counter. -/
theorem lazy_migration_unobservable_sample :
    let acts : List (Action Balances) :=
      [.call ⟨2, [⟨2⟩], .setFee ⟨2⟩ 1000⟩, .call ⟨3, [⟨5⟩], .tip ⟨5⟩ ⟨3⟩ ⟨1⟩ 100⟩,
        .call ⟨4, [], .getBalance ⟨3⟩ ⟨1⟩⟩, .call ⟨5, [⟨3⟩], .withdraw ⟨3⟩ ⟨3⟩ ⟨1⟩ ⟨3⟩ (some 40)⟩]
    Counter.v1 (run (step sampleChain) sampleV1World acts).pers (.balance ⟨3⟩) = none ∧
    Counter.v2 ⟨1⟩ (run (step sampleChain) sampleV1World acts).pers (.balance ⟨3⟩) = some 150 ∧
    Counter.v2 ⟨1⟩ (run (step sampleChain) sampleV1World acts).pers .fee = some 15 ∧
    MigrationUnobservable sampleChain ⟨1⟩ sampleV1World acts := by
  intro acts
  exact ⟨rfl, rfl, rfl, lazy_migration_unobservable rfl sampleV1World_layout acts⟩

end TipJar
