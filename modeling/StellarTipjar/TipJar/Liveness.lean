import StellarTipjar.TipJar.Solvency
import StellarTipjar.TipJar.Upgrade
import StellarTipjar.Lib.Mask

/-!
# TipJar — governance never gets stuck

The hand-over and upgrade protocols refuse a second proposal while one is pending, also one that
has expired, and a pause may be the guardian's or the admin's. This module says that none of it
wedges the contract:

* `upgrade_not_blocked` — once proposed, an upgrade that no admin cancels is installed or can be
  installed by anybody from its unlock ledger on, whatever calls come in between.
* `governance_live` — from every reachable state the admin can hand over, replace the fee collector
  and put up an upgrade within three calls of one ledger.
* `no_permanent_freeze` — whoever paused, one call of the admin lets every creator withdraw.

Everything is about a host that restores archived entries.
-/

namespace TipJar

open Lib Soroban Contract

variable {X : Type}

/-! ## The governance calls run through -/

section Runs

variable {chain : Chain X} {sequence : UInt32} {auth : List Address} {w : World X}

theorem exec_runs {entry : Entrypoint} (harchival : chain.archival = false)
    (h : twp (program entry) (chain.ctx sequence auth) w fun _ _ => True) :
    ∃ r w', exec chain ⟨sequence, auth, entry⟩ w = .ok (r, w') := by
  obtain ⟨r, w', hexec, -⟩ := exec_of_twp harchival h
  exact ⟨r, w', hexec⟩

variable (sequence auth)

theorem proposeAdmin_succeeds (harchival : chain.archival = false) {admin : Address}
    (newAdmin : Address) (hauth : admin ∈ auth) (hadmin : w.inst.get .admin = some admin)
    (hnone : w.inst.get .pendingAdmin = none) :
    ∃ r w', exec chain ⟨sequence, auth, .proposeAdmin admin newAdmin⟩ w = .ok (r, w') := by
  refine exec_runs harchival ?_
  simp only [program, proposeAdmin, twp_bind, twp_requireAuth, twp_requireAdmin]
  refine ⟨hauth, hadmin, ?_⟩
  simp [hnone]

theorem cancelAdminTransfer_succeeds (harchival : chain.archival = false) {admin : Address}
    (hauth : admin ∈ auth) (hadmin : w.inst.get .admin = some admin)
    (hpending : (w.inst.get .pendingAdmin).isSome) :
    ∃ r w', exec chain ⟨sequence, auth, .cancelAdminTransfer admin⟩ w = .ok (r, w') := by
  refine exec_runs harchival ?_
  simp only [program, cancelAdminTransfer, twp_bind, twp_requireAuth, twp_requireAdmin]
  refine ⟨hauth, hadmin, ?_⟩
  simp [hpending]

theorem acceptAdmin_succeeds (harchival : chain.archival = false) {newAdmin : Address}
    {expiry : UInt32} (hauth : newAdmin ∈ auth)
    (hpending : w.inst.get .pendingAdmin = some (newAdmin, expiry)) (hexpiry : sequence ≤ expiry) :
    ∃ r w', exec chain ⟨sequence, auth, .acceptAdmin newAdmin⟩ w = .ok (r, w') := by
  refine exec_runs harchival ?_
  simp only [program, acceptAdmin, twp_bind, twp_requireAuth, twp_instanceGet, hpending]
  simp [hauth, hexpiry]

theorem proposeFeeCollector_succeeds (harchival : chain.archival = false)
    {admin newCollector : Address} (hauth : admin ∈ auth)
    (hadmin : w.inst.get .admin = some admin) (hother : w.inst.get .feeCollector ≠ some newCollector)
    (hnone : w.inst.get .pendingFeeCollector = none) :
    ∃ r w', exec chain ⟨sequence, auth, .proposeFeeCollector admin newCollector⟩ w
      = .ok (r, w') := by
  refine exec_runs harchival ?_
  simp only [program, proposeFeeCollector, twp_bind, twp_requireAuth, twp_requireAdmin,
    twp_instanceGet, twp_panicIf, twp_instanceHas, hnone]
  refine ⟨hauth, hadmin, hother, ?_⟩
  simp

theorem cancelFeeCollectorTransfer_succeeds (harchival : chain.archival = false) {admin : Address}
    (hauth : admin ∈ auth) (hadmin : w.inst.get .admin = some admin)
    (hpending : (w.inst.get .pendingFeeCollector).isSome) :
    ∃ r w', exec chain ⟨sequence, auth, .cancelFeeCollectorTransfer admin⟩ w = .ok (r, w') := by
  refine exec_runs harchival ?_
  simp only [program, cancelFeeCollectorTransfer, twp_bind, twp_requireAuth, twp_requireAdmin]
  refine ⟨hauth, hadmin, ?_⟩
  simp [hpending]

theorem acceptFeeCollector_succeeds (harchival : chain.archival = false) {newCollector : Address}
    {expiry : UInt32} (hauth : newCollector ∈ auth)
    (hpending : w.inst.get .pendingFeeCollector = some (newCollector, expiry))
    (hexpiry : sequence ≤ expiry) :
    ∃ r w', exec chain ⟨sequence, auth, .acceptFeeCollector newCollector⟩ w = .ok (r, w') := by
  refine exec_runs harchival ?_
  simp only [program, acceptFeeCollector, twp_bind, twp_requireAuth, twp_instanceGet, hpending]
  simp [hauth, hexpiry]

theorem proposeUpgrade_succeeds (harchival : chain.archival = false) {admin : Address}
    {timelock : UInt32} (hash : BytesN 32) (hauth : admin ∈ auth)
    (hadmin : w.inst.get .admin = some admin) (hnone : w.inst.get .pendingUpgrade = none)
    (htimelock : w.inst.get .upgradeTimelockLedgers = some timelock) :
    ∃ r w', exec chain ⟨sequence, auth, .proposeUpgrade admin hash⟩ w = .ok (r, w') := by
  refine exec_runs harchival ?_
  simp only [program, proposeUpgrade, twp_bind, twp_requireAuth, twp_requireAdmin,
    twp_instanceHas, twp_panicIf, twp_instanceGet, hnone, htimelock]
  refine ⟨hauth, hadmin, ?_⟩
  simp

theorem cancelUpgrade_succeeds (harchival : chain.archival = false) {admin : Address}
    (hauth : admin ∈ auth) (hadmin : w.inst.get .admin = some admin)
    (hpending : (w.inst.get .pendingUpgrade).isSome) :
    ∃ r w', exec chain ⟨sequence, auth, .cancelUpgrade admin⟩ w = .ok (r, w') := by
  obtain ⟨pending, hpending⟩ := Option.isSome_iff_exists.mp hpending
  refine exec_runs harchival ?_
  simp only [program, cancelUpgrade, twp_bind, twp_requireAuth, twp_requireAdmin,
    twp_instanceGet, hpending]
  refine ⟨hauth, hadmin, ?_⟩
  simp

theorem executeUpgrade_succeeds (harchival : chain.archival = false) {hash : BytesN 32}
    {unlock : UInt32} (hpending : w.inst.get .pendingUpgrade = some (hash, unlock))
    (hunlock : unlock ≤ sequence) (hwasm : chain.hasWasm hash w.ext = true) :
    ∃ r w', exec chain ⟨sequence, auth, .executeUpgrade⟩ w = .ok (r, w') := by
  refine exec_runs harchival ?_
  simp only [program, executeUpgrade, twp_bind, twp_instanceGet, hpending]
  simp [hunlock, hwasm]

theorem unpauseWithdrawals_succeeds (harchival : chain.archival = false) {admin : Address}
    (hauth : admin ∈ auth) (hadmin : w.inst.get .admin = some admin)
    (hpause : (pauseStateOf w).isSome) :
    ∃ r w', exec chain ⟨sequence, auth, .unpauseWithdrawals admin⟩ w = .ok (r, w') := by
  obtain ⟨state, hstate⟩ := Option.isSome_iff_exists.mp hpause
  refine exec_runs harchival ?_
  simp only [program, unpauseWithdrawals, unpauseInternal, twp_bind, twp_requireAuth,
    twp_requireAdmin, twp_pauseState]
  refine ⟨hauth, hadmin, state, hstate, ?_⟩
  simp

end Runs

/-! ## An upgrade that is not cancelled goes through -/

section Upgrade

variable {chain : Chain X} {token admin : Address} {D : UInt32} {w₀ : World X}

/-- The occurrence installs `hash` by a successful `execute_upgrade`. -/
def Installs (chain : Chain X) (hash : BytesN 32) (o : Occ (World X) (Action X)) : Prop :=
  ∃ c, Succeeds chain o c ∧ c.entry = .executeUpgrade ∧ o.after.wasm = some hash

def CancelsUpgrade (chain : Chain X) (o : Occ (World X) (Action X)) : Prop :=
  ∃ c b, Succeeds chain o c ∧ c.entry = .cancelUpgrade b

/-- Only a cancellation or an execution takes a pending upgrade away. -/
theorem pendingUpgrade_stays {o : Occ (World X) (Action X)} {hash : BytesN 32} {unlock : UInt32}
    (hstep : IsStep (step chain) o) (hpending : pendingUpgrade o.before = some (hash, unlock))
    (hcancel : ¬CancelsUpgrade chain o) (hinstalls : ¬Installs chain hash o) :
    pendingUpgrade o.after = some (hash, unlock) := by
  rcases succeeds_or_outside hstep with ⟨c, hc⟩ | ⟨x, hx⟩
  · by_cases hup : c.IsUpgrade
    · rcases hup with ⟨b, hash', hentry⟩ | ⟨b, hentry⟩ | hentry
      · obtain ⟨timelock, -, -, -, hnone, -⟩ := proposesUpgrade_of_succeeds hc hentry
        rw [hnone] at hpending
        cases hpending
      · exact absurd ⟨c, b, hc, hentry⟩ hcancel
      · obtain ⟨hash', unlock', hpending', -, -, hwasm⟩ := hc.governs.of_entry hentry
        have heq : (hash', unlock') = (hash, unlock) :=
          Option.some.inj (hpending'.symm.trans hpending)
        cases heq
        exact absurd ⟨c, hc, hentry, hwasm⟩ hinstalls
    · rw [pendingUpgrade_kept hc hup]
      exact hpending
  · rw [hx]
    exact hpending

/-- Whatever happens after a successful `propose_upgrade`, as long as no admin cancels: the hash was
installed, or from the unlock ledger on anybody can install it. -/
theorem upgrade_not_blocked (harchival : chain.archival = false)
    (h₀ : AfterInit chain token admin D w₀) {acts : List (Action X)}
    {tr₁ tr₂ : List (Occ (World X) (Action X))} {o : Occ (World X) (Action X)} {c : Call}
    {a : Address} {hash : BytesN 32} (htr : trace (step chain) w₀ acts = tr₁ ++ o :: tr₂)
    (hc : Succeeds chain o c) (hentry : c.entry = .proposeUpgrade a hash)
    (hcancel : ∀ q ∈ tr₂, ¬CancelsUpgrade chain q) :
    (∃ q ∈ tr₂, Installs chain hash q) ∨
      ∀ sequence auth, c.sequence + D ≤ sequence →
        chain.hasWasm hash (run (step chain) w₀ acts).ext = true →
        ∃ r w', exec chain ⟨sequence, auth, .executeUpgrade⟩ (run (step chain) w₀ acts)
            = .ok (r, w') ∧ w'.wasm = some hash := by
  by_cases hinstalled : ∃ q ∈ tr₂, Installs chain hash q
  · exact .inl hinstalled
  right
  have ho : o ∈ trace (step chain) w₀ acts := by
    rw [htr]
    simp
  obtain ⟨timelock, htimelock, -, -, -, hafter⟩ := proposesUpgrade_of_succeeds hc hentry
  have hinit : Initialised token D o.before :=
    trace_invariant (step chain) (fun _ b hs => hs.step b) h₀.initialised ho
  obtain rfl : D = timelock := Option.some.inj (hinit.timelock.symm.trans htimelock)
  have hpending : pendingUpgrade (run (step chain) w₀ acts) = some (hash, c.sequence + D) := by
    refine run_invariant_since (step chain) (P := fun w => pendingUpgrade w = some (hash, _)) htr
      hafter ?_
    intro q hq hin hbefore
    exact pendingUpgrade_stays (isStep_of_mem (step chain) hin) hbefore (hcancel q hq) fun hi => hinstalled ⟨q, hq, hi⟩
  intro sequence auth hunlock hwasm
  obtain ⟨r, w', hexec⟩ := executeUpgrade_succeeds sequence auth harchival hpending hunlock hwasm
  refine ⟨r, w', hexec, ?_⟩
  obtain ⟨hash', unlock', hpending', -, -, hw'⟩ := (exec_governs hexec).of_entry rfl
  have heq : (hash', unlock') = (hash, c.sequence + D) :=
    Option.some.inj (hpending'.symm.trans hpending)
  cases heq
  exact hw'

end Upgrade

/-- A proposal, a guardian's pause and a hand-over of the admin role, after which the unlock ledger
has come. -/
theorem upgrade_not_blocked_sample :
    let acts : List (Action Balances) :=
      [.call ⟨2, [⟨2⟩], .setGuardian ⟨2⟩ ⟨9⟩⟩, .call ⟨2, [⟨2⟩], .proposeUpgrade ⟨2⟩ sampleHash⟩,
        .call ⟨3, [⟨9⟩], .pauseAll ⟨9⟩⟩, .call ⟨3, [⟨2⟩], .proposeAdmin ⟨2⟩ ⟨4⟩⟩,
        .call ⟨4, [⟨4⟩], .acceptAdmin ⟨4⟩⟩, .call ⟨4, [⟨2⟩], .cancelUpgrade ⟨2⟩⟩]
    ∃ r w', exec sampleChain ⟨52, [], .executeUpgrade⟩
        (run (step sampleChain) (sampleWorld 50) acts) = .ok (r, w') ∧
      w'.wasm = some sampleHash := by
  intro acts
  have htr : trace (step sampleChain) (sampleWorld 50) acts
      = (trace (step sampleChain) (sampleWorld 50) acts).take 1
        ++ ((trace (step sampleChain) (sampleWorld 50) acts).drop 1).head (by simp [acts, trace])
          :: (trace (step sampleChain) (sampleWorld 50) acts).drop 2 := rfl
  have hpropose : Succeeds sampleChain
      (((trace (step sampleChain) (sampleWorld 50) acts).drop 1).head (by simp [acts, trace]))
      ⟨2, [⟨2⟩], .proposeUpgrade ⟨2⟩ sampleHash⟩ := ⟨rfl, .unit, rfl⟩
  have hrest : ∀ q ∈ (trace (step sampleChain) (sampleWorld 50) acts).drop 2,
      ¬CancelsUpgrade sampleChain q ∧ ¬Installs sampleChain sampleHash q := by
    intro q hq
    simp only [acts, trace, List.drop_succ_cons, List.drop_zero, List.mem_cons, List.not_mem_nil,
      or_false] at hq
    rcases hq with rfl | rfl | rfl | rfl
    · refine ⟨?_, ?_⟩
      · intro h
        obtain ⟨c, b, ⟨hact, -⟩, hentry⟩ := h
        cases hact
        cases hentry
      · intro h
        obtain ⟨c, ⟨hact, -⟩, hentry, -⟩ := h
        cases hact
        cases hentry
    · refine ⟨?_, ?_⟩
      · intro h
        obtain ⟨c, b, ⟨hact, -⟩, hentry⟩ := h
        cases hact
        cases hentry
      · intro h
        obtain ⟨c, ⟨hact, -⟩, hentry, -⟩ := h
        cases hact
        cases hentry
    · refine ⟨?_, ?_⟩
      · intro h
        obtain ⟨c, b, ⟨hact, -⟩, hentry⟩ := h
        cases hact
        cases hentry
      · intro h
        obtain ⟨c, ⟨hact, -⟩, hentry, -⟩ := h
        cases hact
        cases hentry
    · refine ⟨?_, ?_⟩
      · intro h
        obtain ⟨c, b, ⟨hact, r, hexec⟩, -⟩ := h
        cases hact
        cases hexec
      · intro h
        obtain ⟨c, ⟨hact, -⟩, hentry, -⟩ := h
        cases hact
        cases hentry
  rcases upgrade_not_blocked rfl sampleWorld_afterInit htr hpropose rfl
    fun q hq => (hrest q hq).1 with ⟨q, hq, hinstalls⟩ | hlive
  · exact absurd hinstalls (hrest q hq).2
  · exact hlive 52 [] (by decide) rfl

/-! ## The admin always gets through -/

/-- Calls of ledger `t`, each authorised by `a` alone or by `b` alone. -/
def MadeBy (t : UInt32) (a b : Address) (calls : List Call) : Prop :=
  ∀ c ∈ calls, c.sequence = t ∧ (c.auth = [a] ∨ c.auth = [b])

/-- What the admin can do from `w` in one ledger, with the cooperation of nobody but the address it
names. -/
structure GovernanceLive (chain : Chain X) (D : UInt32) (w : World X) : Prop where
  admin : ∀ a, w.inst.get .admin = some a → ∀ b t, t ≤ t + adminTransferExpiryLedgers →
    ∃ calls, calls.length ≤ 3 ∧ MadeBy t a b calls ∧
      (run (step chain) w (calls.map .call)).inst.get .admin = some b
  feeCollector : ∀ a, w.inst.get .admin = some a → ∀ b t, t ≤ t + adminTransferExpiryLedgers →
    ∃ calls, calls.length ≤ 3 ∧ MadeBy t a b calls ∧
      (run (step chain) w (calls.map .call)).inst.get .feeCollector = some b
  upgrade : ∀ a, w.inst.get .admin = some a → ∀ hash t,
    ∃ calls, calls.length ≤ 2 ∧ MadeBy t a a calls ∧
      pendingUpgrade (run (step chain) w (calls.map .call)) = some (hash, t + D)

section Live

variable {chain : Chain X} {token admin : Address} {D : UInt32} {w w₀ : World X}

theorem MadeBy.cons {t : UInt32} {a b : Address} {c : Call} {calls : List Call}
    (ht : c.sequence = t) (hauth : c.auth = [a] ∨ c.auth = [b]) (h : MadeBy t a b calls) :
    MadeBy t a b (c :: calls) := by
  intro d hd
  rcases List.mem_cons.mp hd with rfl | hd
  · exact ⟨ht, hauth⟩
  · exact h d hd

theorem MadeBy.nil {t : UInt32} {a b : Address} : MadeBy t a b [] := by
  intro d hd
  cases hd

/-- With no hand-over pending, two calls do. -/
theorem handOver_of_none (harchival : chain.archival = false) {a : Address}
    (hadmin : w.inst.get .admin = some a) (hnone : w.inst.get .pendingAdmin = none) (b : Address)
    {t : UInt32} (hexpiry : t ≤ t + adminTransferExpiryLedgers) :
    ∃ calls, calls.length ≤ 2 ∧ MadeBy t a b calls ∧
      (run (step chain) w (calls.map .call)).inst.get .admin = some b := by
  obtain ⟨r₁, w₁, h₁⟩ := proposeAdmin_succeeds t [a] harchival b
    (by simp) hadmin hnone
  obtain ⟨-, -, hinst₁⟩ := (exec_governs h₁).of_entry rfl
  have hpending : w₁.inst.get .pendingAdmin = some (b, t + adminTransferExpiryLedgers) := by
    rw [hinst₁]
    simp
  obtain ⟨r₂, w₂, h₂⟩ := acceptAdmin_succeeds t [b] harchival (by simp) hpending hexpiry
  obtain ⟨-, expiry, -, -, hinst₂⟩ := (exec_governs h₂).of_entry rfl
  refine ⟨[⟨t, [a], .proposeAdmin a b⟩, ⟨t, [b], .acceptAdmin b⟩], le_rfl,
    .cons rfl (.inl rfl) (.cons rfl (.inr rfl) .nil), ?_⟩
  simp only [List.map_cons, List.map_nil, run_cons, run_nil, step_call_ok h₁, step_call_ok h₂]
  rw [hinst₂]
  simp

/-- A pending hand-over, expired or not, is cancelled first. -/
theorem handOver_live (harchival : chain.archival = false) {a : Address}
    (hadmin : w.inst.get .admin = some a) (b : Address) {t : UInt32}
    (hexpiry : t ≤ t + adminTransferExpiryLedgers) :
    ∃ calls, calls.length ≤ 3 ∧ MadeBy t a b calls ∧
      (run (step chain) w (calls.map .call)).inst.get .admin = some b := by
  by_cases hnone : w.inst.get .pendingAdmin = none
  · obtain ⟨calls, hlength, hmade, hrun⟩ := handOver_of_none harchival hadmin hnone b hexpiry
    exact ⟨calls, by omega, hmade, hrun⟩
  · obtain ⟨r, w₁, h₁⟩ := cancelAdminTransfer_succeeds t [a] harchival
      (by simp) hadmin (Option.isSome_iff_ne_none.mpr hnone)
    obtain ⟨-, -, hinst⟩ := (exec_governs h₁).of_entry rfl
    obtain ⟨calls, hlength, hmade, hrun⟩ := handOver_of_none (w := w₁) harchival
      (by rw [hinst]; simpa using hadmin) (by rw [hinst]; simp) b hexpiry
    refine ⟨⟨t, [a], .cancelAdminTransfer a⟩ :: calls, by simp; omega,
      .cons rfl (.inl rfl) hmade, ?_⟩
    rw [List.map_cons, run_cons, step_call_ok h₁]
    exact hrun

theorem collector_of_none (harchival : chain.archival = false) {a b : Address}
    (hadmin : w.inst.get .admin = some a) (hother : w.inst.get .feeCollector ≠ some b)
    (hnone : w.inst.get .pendingFeeCollector = none) {t : UInt32}
    (hexpiry : t ≤ t + adminTransferExpiryLedgers) :
    ∃ calls, calls.length ≤ 2 ∧ MadeBy t a b calls ∧
      (run (step chain) w (calls.map .call)).inst.get .feeCollector = some b := by
  obtain ⟨r₁, w₁, h₁⟩ := proposeFeeCollector_succeeds t [a] harchival
    (by simp) hadmin hother hnone
  obtain ⟨-, -, -, hinst₁⟩ := (exec_governs h₁).of_entry rfl
  have hpending : w₁.inst.get .pendingFeeCollector = some (b, t + adminTransferExpiryLedgers) := by
    rw [hinst₁]
    simp
  obtain ⟨r₂, w₂, h₂⟩ :=
    acceptFeeCollector_succeeds t [b] harchival (by simp) hpending hexpiry
  obtain ⟨-, expiry, -, -, hinst₂⟩ := (exec_governs h₂).of_entry rfl
  refine ⟨[⟨t, [a], .proposeFeeCollector a b⟩, ⟨t, [b], .acceptFeeCollector b⟩], le_rfl,
    .cons rfl (.inl rfl) (.cons rfl (.inr rfl) .nil), ?_⟩
  simp only [List.map_cons, List.map_nil, run_cons, run_nil, step_call_ok h₁, step_call_ok h₂]
  rw [hinst₂]
  simp

theorem collector_live (harchival : chain.archival = false) {a : Address}
    (hadmin : w.inst.get .admin = some a) (b : Address) {t : UInt32}
    (hexpiry : t ≤ t + adminTransferExpiryLedgers) :
    ∃ calls, calls.length ≤ 3 ∧ MadeBy t a b calls ∧
      (run (step chain) w (calls.map .call)).inst.get .feeCollector = some b := by
  -- proposing the collector in office is refused, and not needed
  by_cases hother : w.inst.get .feeCollector = some b
  · exact ⟨[], by simp, .nil, hother⟩
  by_cases hnone : w.inst.get .pendingFeeCollector = none
  · obtain ⟨calls, hlength, hmade, hrun⟩ := collector_of_none harchival hadmin hother hnone hexpiry
    exact ⟨calls, by omega, hmade, hrun⟩
  · obtain ⟨r, w₁, h₁⟩ := cancelFeeCollectorTransfer_succeeds t [a]
      harchival (by simp) hadmin (Option.isSome_iff_ne_none.mpr hnone)
    obtain ⟨-, -, hinst⟩ := (exec_governs h₁).of_entry rfl
    obtain ⟨calls, hlength, hmade, hrun⟩ := collector_of_none (w := w₁) (b := b) harchival
      (by rw [hinst]; simpa using hadmin) (by rw [hinst]; simpa using hother)
      (by rw [hinst]; simp) hexpiry
    refine ⟨⟨t, [a], .cancelFeeCollectorTransfer a⟩ :: calls, by simp; omega,
      .cons rfl (.inl rfl) hmade, ?_⟩
    rw [List.map_cons, run_cons, step_call_ok h₁]
    exact hrun

theorem upgrade_of_none (harchival : chain.archival = false) {a : Address}
    (hadmin : w.inst.get .admin = some a) (hnone : w.inst.get .pendingUpgrade = none)
    (htimelock : w.inst.get .upgradeTimelockLedgers = some D) (hash : BytesN 32) (t : UInt32) :
    pendingUpgrade (step chain w (.call ⟨t, [a], .proposeUpgrade a hash⟩)) = some (hash, t + D) := by
  obtain ⟨r, w', h⟩ := proposeUpgrade_succeeds t [a] harchival hash
    (by simp) hadmin hnone htimelock
  obtain ⟨-, -, timelock, htimelock', hinst⟩ := (exec_governs h).of_entry rfl
  obtain rfl : D = timelock := Option.some.inj (htimelock.symm.trans htimelock')
  rw [step_call_ok h, pendingUpgrade, hinst]
  simp

theorem upgrade_live (harchival : chain.archival = false) {a : Address}
    (hadmin : w.inst.get .admin = some a)
    (htimelock : w.inst.get .upgradeTimelockLedgers = some D) (hash : BytesN 32) (t : UInt32) :
    ∃ calls, calls.length ≤ 2 ∧ MadeBy t a a calls ∧
      pendingUpgrade (run (step chain) w (calls.map .call)) = some (hash, t + D) := by
  by_cases hnone : w.inst.get .pendingUpgrade = none
  · refine ⟨[⟨t, [a], .proposeUpgrade a hash⟩], by simp, .cons rfl (.inl rfl) .nil, ?_⟩
    exact upgrade_of_none harchival hadmin hnone htimelock hash t
  · obtain ⟨r, w₁, h₁⟩ := cancelUpgrade_succeeds t [a] harchival
      (by simp) hadmin (Option.isSome_iff_ne_none.mpr hnone)
    obtain ⟨-, -, hinst⟩ := (exec_governs h₁).of_entry rfl
    refine ⟨[⟨t, [a], .cancelUpgrade a⟩, ⟨t, [a], .proposeUpgrade a hash⟩], le_rfl,
      .cons rfl (.inl rfl) (.cons rfl (.inl rfl) .nil), ?_⟩
    simp only [List.map_cons, List.map_nil, run_cons, run_nil, step_call_ok h₁]
    exact upgrade_of_none harchival (by rw [hinst]; simpa using hadmin) (by rw [hinst]; simp)
      (by rw [hinst]; simpa using htimelock) hash t

/-- No history wedges the hand-overs or the upgrade protocol. -/
theorem governance_live (harchival : chain.archival = false)
    (h₀ : AfterInit chain token admin D w₀) (acts : List (Action X)) :
    GovernanceLive chain D (run (step chain) w₀ acts) := by
  have hinit : Initialised token D (run (step chain) w₀ acts) :=
    run_invariant (step chain) (fun _ b hs => hs.step b) h₀.initialised acts
  exact ⟨fun a hadmin b t hexpiry => handOver_live harchival hadmin b hexpiry,
    fun a hadmin b t hexpiry => collector_live harchival hadmin b hexpiry,
    fun a hadmin hash t => upgrade_live harchival hadmin hinit.timelock hash t⟩

end Live

/-- A hand-over has been left to expire and another proposal is refused meanwhile. -/
theorem governance_live_sample :
    let w := run (step sampleChain) (sampleWorld 50)
      [.call ⟨2, [⟨2⟩], .proposeAdmin ⟨2⟩ ⟨4⟩⟩, .call ⟨40000, [⟨2⟩], .proposeAdmin ⟨2⟩ ⟨5⟩⟩]
    w.inst.get .pendingAdmin = some (⟨4⟩, 34562) ∧
    ∃ calls, calls.length ≤ 3 ∧ MadeBy 40000 ⟨2⟩ ⟨5⟩ calls ∧
      (run (step sampleChain) w (calls.map .call)).inst.get .admin = some ⟨5⟩ := by
  intro w
  exact ⟨rfl, (governance_live rfl sampleWorld_afterInit _).admin ⟨2⟩ rfl ⟨5⟩ 40000 (by decide)⟩

/-! ## No pause is permanent -/

section Freeze

variable {chain : Chain X} {T token admin : Address} {holding : X → Address → Nat} {D : UInt32}
  {w w' w₀ : World X}

/-- After the admin's `unpause_withdrawals` no pause of withdrawals is left, in any ledger. -/
theorem withdrawalsOpen_of_unpaused {caller : Address} {auth : List Address}
    (h : Unpaused caller pauseFlagWithdrawals auth w w') (sequence : UInt32) :
    WithdrawalsOpen w' sequence := by
  obtain ⟨-, state, -, hinst⟩ := h
  intro state' hstate'
  have hget : w'.inst.get .pause = some (PauseState.encode { state with
      adminFlags := state.adminFlags &&& ~~~pauseFlagWithdrawals
      guardianFlags := state.guardianFlags &&& ~~~pauseFlagWithdrawals }) := by
    rw [hinst]
    simp
  unfold pauseStateOf at hstate'
  simp only [hget, PauseState.decode_encode, Option.some.injEq] at hstate'
  subst hstate'
  unfold effectivePauseFlags
  split
  all_goals
    refine Mask.ext_bit fun i => ?_
    simp only [Mask.bit_and, Mask.bit_or, Mask.bit_not, Mask.bit_zero]
    cases Mask.bit pauseFlagWithdrawals i <;> simp

/-- Whatever is paused, the admin's one call makes every balance withdrawable, until somebody with
the authority pauses again. -/
theorem no_permanent_freeze (htoken : chain.PayingToken T holding)
    (harchival : chain.archival = false) (h₀ : AfterInit chain token admin D w₀)
    (acts : List (Action X))
    (hperm : ∀ o ∈ trace (step chain) w₀ acts, Permitted chain holding o) {a : Address}
    (hadmin : (run (step chain) w₀ acts).inst.get .admin = some a) {t : UInt32}
    {auth : List Address} (hauth : a ∈ auth) (hself : chain.self ∉ auth) :
    ∃ r w', exec chain ⟨t, auth, .unpauseWithdrawals a⟩ (run (step chain) w₀ acts) = .ok (r, w') ∧
      ∀ c (x : I128), 0 < x.val → x.val ≤ logicalBalance (run (step chain) w₀ acts) c T →
        ∀ sequence auth', c ∈ auth' →
          ∃ r' w'', exec chain
              ⟨sequence, auth', .withdraw c c T (payoutOf w' c sequence) (some x)⟩ w'
                = .ok (r', w'') ∧
            Pays chain T holding (payoutOf w' c sequence) x w' w'' := by
  have hw := h₀.run_fromInit acts
  have hcovered : Covered chain T holding (run (step chain) w₀ acts) :=
    (EscrowStart.init token admin D h₀).run_covered htoken.toExactToken hperm
  obtain ⟨r, w', hexec⟩ := unpauseWithdrawals_succeeds t auth harchival hauth hadmin hw.pause
  have hstep := step_call_ok hexec
  have hw' : FromInit w' := by
    rw [← hstep]
    exact hw.step _
  have hcovered' : Covered chain T holding w' :=
    Covered.step (o := ⟨_, .call _, w'⟩) htoken.toExactToken hstep.symm hself hcovered
  have hledger : ledger w' = ledger (run (step chain) w₀ acts) := by
    have hmoney := (exec_effect hexec).money (exec_governs hexec) hw.admin
    cases hmoney with
    | tipped _ _ _ _ _ entry _ => cases entry
    | withdrawn _ _ _ _ _ _ entry _ => cases entry
    | feesWithdrawn _ _ _ _ entry _ => cases entry
    | idle _ ledger => exact ledger
  refine ⟨r, w', hexec, fun c x hpos hle sequence auth' hc => ?_⟩
  have hle' : x.val ≤ logicalBalance w' c T := by
    show x.val ≤ (ledger w').balance c T
    rw [hledger]
    exact hle
  obtain ⟨r', w'', hpaid, hpays, -⟩ := creator_paid htoken harchival hw' hcovered' hc
    (withdrawalsOpen_of_unpaused ((exec_governs hexec).of_entry rfl) sequence) hpos hle'
  exact ⟨r', w'', hpaid, hpays⟩

end Freeze

/-- Admin and guardian have both paused. -/
theorem no_permanent_freeze_sample :
    let acts : List (Action Balances) :=
      [.call ⟨2, [⟨5⟩], .tip ⟨5⟩ ⟨3⟩ ⟨1⟩ 105⟩, .call ⟨2, [⟨2⟩], .setGuardian ⟨2⟩ ⟨9⟩⟩,
        .call ⟨3, [⟨2⟩], .pauseAll ⟨2⟩⟩, .call ⟨3, [⟨9⟩], .pauseWithdrawals ⟨9⟩⟩]
    ∃ r w', exec sampleChain ⟨4, [⟨2⟩], .unpauseWithdrawals ⟨2⟩⟩
        (run (step sampleChain) (sampleWorld 50) acts) = .ok (r, w') ∧
      ∃ r' w'', exec sampleChain
          ⟨4, [⟨3⟩], .withdraw ⟨3⟩ ⟨3⟩ ⟨1⟩ (payoutOf w' ⟨3⟩ 4) (some 105)⟩ w' = .ok (r', w'') ∧
        Pays sampleChain ⟨1⟩ (fun x a => x ⟨1⟩ a) (payoutOf w' ⟨3⟩ 4) 105 w' w'' := by
  intro acts
  have hperm : ∀ o ∈ trace (step sampleChain) (sampleWorld 50) acts,
      Permitted sampleChain (fun x a => x ⟨1⟩ a) o := by
    intro o ho
    simp only [acts, trace, List.mem_cons, List.not_mem_nil, or_false] at ho
    rcases ho with rfl | rfl | rfl | rfl
    · show (⟨0⟩ : Address) ∉ [⟨5⟩]
      decide
    · show (⟨0⟩ : Address) ∉ [⟨2⟩]
      decide
    · show (⟨0⟩ : Address) ∉ [⟨2⟩]
      decide
    · show (⟨0⟩ : Address) ∉ [⟨9⟩]
      decide
  obtain ⟨r, w', hexec, hpaid⟩ := no_permanent_freeze (t := 4)
    (standardChain_payingToken ⟨0⟩ ⟨1⟩) rfl sampleWorld_afterInit acts hperm (a := ⟨2⟩) rfl
    (show (⟨2⟩ : Address) ∈ [⟨2⟩] by decide) (by decide)
  exact ⟨r, w', hexec, hpaid ⟨3⟩ 105 (by decide) (by show (105 : Int) ≤ 105; exact le_rfl) 4 [⟨3⟩]
    (by decide)⟩

end TipJar
