import StellarTipjar.TipJar.Effects

/-!
# TipJar — the two-step hand-over of the admin and of the fee collector

Both roles change hands the same way: the admin proposes a successor, who has to accept before
the proposal expires; until then the admin may cancel. `Role` is what the two have in common,
`RoleLaws` what their calls do to the role's holder and its pending successor, and the results
are proved once from the laws. The two machines share only the admin key.
-/

namespace TipJar

open Lib Soroban

variable {X : Type}

/-! ## Roles -/

/-- A role that is handed over in two steps. `settled w` says that from `w` on `init` cannot name
the holder any more; `privileged e` is the caller of a call reserved to the holder. -/
structure Role (X : Type) where
  holder : World X → Option Address
  pending : World X → Option (Address × UInt32)
  propose : Address → Address → Entrypoint
  accept : Address → Entrypoint
  cancel : Address → Entrypoint
  settled : World X → Prop
  privileged : Entrypoint → Option Address

/-- The calls reserved to the admin. -/
def Entrypoint.adminOnly : Entrypoint → Option Address
  | .addToken admin _ | .removeToken admin _ => some admin
  | .proposeAdmin admin _ | .cancelAdminTransfer admin => some admin
  | .proposeUpgrade admin _ | .cancelUpgrade admin | .migrate admin => some admin
  | .setGuardian admin _ | .setGuardianPauseDuration admin _ => some admin
  | .unpauseTips admin | .unpauseWithdrawals admin | .unpauseAll admin => some admin
  | .setFee admin _ => some admin
  | .proposeFeeCollector admin _ | .cancelFeeCollectorTransfer admin => some admin
  | _ => none

/-- The call reserved to the fee collector. -/
def Entrypoint.collectorOnly : Entrypoint → Option Address
  | .withdrawFees caller _ _ => some caller
  | _ => none

def adminRole : Role X where
  holder w := w.inst.get .admin
  pending w := w.inst.get .pendingAdmin
  propose := .proposeAdmin
  accept := .acceptAdmin
  cancel := .cancelAdminTransfer
  settled w := (w.inst.get .admin).isSome
  privileged := Entrypoint.adminOnly

def feeCollectorRole : Role X where
  holder w := w.inst.get .feeCollector
  pending w := w.inst.get .pendingFeeCollector
  propose := .proposeFeeCollector
  accept := .acceptFeeCollector
  cancel := .cancelFeeCollectorTransfer
  settled _ := True
  privileged := Entrypoint.collectorOnly

namespace Role

variable (role : Role X)

/-- The three calls of the hand-over. -/
def IsCall (c : Call) : Prop :=
  (∃ admin b, c.entry = role.propose admin b) ∨ (∃ b, c.entry = role.accept b) ∨
    ∃ admin, c.entry = role.cancel admin

def Proposes (chain : Chain X) (o : Occ (World X) (Action X)) (p : Address × UInt32) : Prop :=
  ∃ c admin, Succeeds chain o c ∧ c.entry = role.propose admin p.1 ∧
    p.2 = c.sequence + adminTransferExpiryLedgers

def Closes (chain : Chain X) (o : Occ (World X) (Action X)) : Prop :=
  ∃ c, Succeeds chain o c ∧ ((∃ b, c.entry = role.accept b) ∨ ∃ admin, c.entry = role.cancel admin)

/-- What the calls of the contract do to the holder and to the pending successor. -/
structure Laws (chain : Chain X) : Prop where
  propose : ∀ o c admin b, Succeeds chain o c → c.entry = role.propose admin b →
    admin ∈ c.auth ∧ o.before.inst.get .admin = some admin ∧ role.pending o.before = none ∧
      role.pending o.after = some (b, c.sequence + adminTransferExpiryLedgers)
  accept : ∀ o c b, Succeeds chain o c → c.entry = role.accept b →
    b ∈ c.auth ∧ (∃ expiry, role.pending o.before = some (b, expiry) ∧ c.sequence ≤ expiry) ∧
      role.pending o.after = none ∧ role.holder o.after = some b
  cancel : ∀ o c admin, Succeeds chain o c → c.entry = role.cancel admin →
    role.pending o.before ≠ none ∧ role.pending o.after = none
  keep : ∀ o c, Succeeds chain o c → ¬role.IsCall c → role.pending o.after = role.pending o.before
  assign : ∀ o c, Succeeds chain o c → role.settled o.before →
    role.holder o.after ≠ role.holder o.before → ∃ b, c.entry = role.accept b
  settled_of_holder : ∀ w a, role.holder w = some a → role.settled w
  settled_step : ∀ w a, role.settled w → role.settled (step chain w a)
  holder_outside : ∀ (w : World X) x, role.holder { w with ext := x } = role.holder w
  pending_outside : ∀ (w : World X) x, role.pending { w with ext := x } = role.pending w
  privileged : ∀ o c a, Succeeds chain o c → role.privileged c.entry = some a →
    role.holder o.before = some a

end Role

/-! ## The laws of the two roles -/

section Laws

variable (chain : Chain X)

theorem adminOnly_admin {call : Call} {w w' : World X} {a : Address} (h : Governs call w w')
    (ha : call.entry.adminOnly = some a) : ByAdmin a call.auth w := by
  obtain ⟨sequence, auth, entry⟩ := call
  cases entry <;> cases ha <;> exact h.1

theorem adminRole_laws : (adminRole : Role X).Laws chain where
  propose := by
    intro o c admin b hc hentry
    obtain ⟨⟨hauth, hadmin⟩, hnone, hinst⟩ := hc.governs.of_entry hentry
    refine ⟨hauth, hadmin, hnone, ?_⟩
    simp only [adminRole]
    rw [hinst]
    simp
  accept := by
    intro o c b hc hentry
    obtain ⟨hauth, expiry, hpending, hexpiry, hinst⟩ := hc.governs.of_entry hentry
    refine ⟨hauth, ⟨expiry, hpending, hexpiry⟩, ?_, ?_⟩
    · simp only [adminRole]
      rw [hinst]
      simp
    · simp only [adminRole]
      rw [hinst]
      simp
  cancel := by
    intro o c admin hc hentry
    obtain ⟨-, hpending, hinst⟩ := hc.governs.of_entry hentry
    refine ⟨hpending, ?_⟩
    simp only [adminRole]
    rw [hinst]
    simp
  keep := by
    intro o c hc hnot
    refine hc.governs.frame fun hmem => hnot ?_
    obtain ⟨sequence, auth, entry⟩ := c
    cases entry with
    | proposeAdmin admin b => exact .inl ⟨admin, b, rfl⟩
    | acceptAdmin b => exact .inr (.inl ⟨b, rfl⟩)
    | cancelAdminTransfer admin => exact .inr (.inr ⟨admin, rfl⟩)
    | _ =>
      revert hmem
      simp [Entrypoint.instanceWrites]
  assign := by
    intro o c hc hsettled hne
    have hgov := hc.governs
    have hmem := hgov.mem_writes hne
    obtain ⟨sequence, auth, entry⟩ := c
    cases entry with
    | acceptAdmin b => exact ⟨b, rfl⟩
    | init token admin ledgers =>
      -- `init` is over: there is an admin
      have hnone : o.before.inst.get .admin = none := hgov.1
      have hsome : (o.before.inst.get .admin).isSome := hsettled
      rw [hnone] at hsome
      cases hsome
    | _ =>
      revert hmem
      simp [Entrypoint.instanceWrites]
  settled_of_holder := by
    intro w a h
    simp only [adminRole] at h ⊢
    rw [h]
    rfl
  settled_step := by
    intro w a h
    exact step_admin_isSome h a
  holder_outside := fun _ _ => rfl
  pending_outside := fun _ _ => rfl
  privileged := by
    intro o c a hc ha
    exact (adminOnly_admin hc.governs ha).2

theorem feeCollectorRole_laws : (feeCollectorRole : Role X).Laws chain where
  propose := by
    intro o c admin b hc hentry
    obtain ⟨⟨hauth, hadmin⟩, -, hnone, hinst⟩ := hc.governs.of_entry hentry
    refine ⟨hauth, hadmin, hnone, ?_⟩
    simp only [feeCollectorRole]
    rw [hinst]
    simp
  accept := by
    intro o c b hc hentry
    obtain ⟨hauth, expiry, hpending, hexpiry, hinst⟩ := hc.governs.of_entry hentry
    refine ⟨hauth, ⟨expiry, hpending, hexpiry⟩, ?_, ?_⟩
    · simp only [feeCollectorRole]
      rw [hinst]
      simp
    · simp only [feeCollectorRole]
      rw [hinst]
      simp
  cancel := by
    intro o c admin hc hentry
    obtain ⟨-, hpending, hinst⟩ := hc.governs.of_entry hentry
    refine ⟨hpending, ?_⟩
    simp only [feeCollectorRole]
    rw [hinst]
    simp
  keep := by
    intro o c hc hnot
    refine hc.governs.frame fun hmem => hnot ?_
    obtain ⟨sequence, auth, entry⟩ := c
    cases entry with
    | proposeFeeCollector admin b => exact .inl ⟨admin, b, rfl⟩
    | acceptFeeCollector b => exact .inr (.inl ⟨b, rfl⟩)
    | cancelFeeCollectorTransfer admin => exact .inr (.inr ⟨admin, rfl⟩)
    | _ =>
      revert hmem
      simp [Entrypoint.instanceWrites]
  assign := by
    intro o c hc _ hne
    have hmem := hc.governs.mem_writes hne
    obtain ⟨sequence, auth, entry⟩ := c
    cases entry with
    | acceptFeeCollector b => exact ⟨b, rfl⟩
    | _ =>
      revert hmem
      simp [Entrypoint.instanceWrites]
  settled_of_holder := fun _ _ _ => trivial
  settled_step := fun _ _ _ => trivial
  holder_outside := fun _ _ => rfl
  pending_outside := fun _ _ => rfl
  privileged := by
    intro o c a hc ha
    obtain ⟨sequence, auth, entry⟩ := c
    obtain ⟨-, r, hexec⟩ := hc
    cases entry with
    | withdrawFees caller token amount =>
      obtain rfl : caller = a := Option.some.inj ha
      obtain ⟨paid, h⟩ := exec_spec hexec rfl (withdrawFees_spec caller token amount)
      exact h.collector
    | _ => cases ha

end Laws

/-! ## The pending successor as a register -/

namespace Role

section Register

variable {role : Role X} {chain : Chain X} {o : Occ (World X) (Action X)} {c : Call}

theorem disturbs_of_isCall (h : Succeeds chain o c) (hc : role.IsCall c) :
    (∃ p, role.Proposes chain o p) ∨ role.Closes chain o := by
  rcases hc with ⟨admin, b, hentry⟩ | hentry | hentry
  · exact .inl ⟨(b, c.sequence + adminTransferExpiryLedgers), c, admin, h, hentry, rfl⟩
  · exact .inr ⟨c, h, .inl hentry⟩
  · exact .inr ⟨c, h, .inr hentry⟩

theorem Laws.closes_state (laws : role.Laws chain) (h : role.Closes chain o) :
    role.pending o.before ≠ none ∧ role.pending o.after = none := by
  obtain ⟨c, hc, ⟨b, hentry⟩ | ⟨admin, hentry⟩⟩ := h
  · obtain ⟨-, ⟨expiry, hpending, -⟩, hafter, -⟩ := laws.accept o c b hc hentry
    refine ⟨?_, hafter⟩
    rw [hpending]
    simp
  · exact laws.cancel o c admin hc hentry

theorem Laws.register (laws : role.Laws chain) :
    PendingLaws (step chain) role.pending (role.Proposes chain) (role.Closes chain) where
  put := by
    intro o p _ ⟨c, admin, hc, hentry, hp⟩
    obtain ⟨-, -, -, hafter⟩ := laws.propose o c admin p.1 hc hentry
    rw [hafter, ← hp]
  clear := fun o _ h => (laws.closes_state h).2
  keep := by
    intro o hstep hnoput hnoclear
    rcases succeeds_or_outside hstep with ⟨c, hc⟩ | ⟨x, hx⟩
    · refine laws.keep o c hc fun hcall => ?_
      rcases disturbs_of_isCall hc hcall with ⟨p, hp⟩ | hclose
      · exact hnoput p hp
      · exact hnoclear hclose
    · rw [hx, laws.pending_outside]

theorem noCall_of_undisturbed {tr : List (Occ (World X) (Action X))}
    (h : Undisturbed (role.Proposes chain) (role.Closes chain) tr) :
    NoneSucceeds chain role.IsCall tr := by
  intro q hq c hc hcall
  obtain ⟨hnoput, hnoclear⟩ := h q hq
  rcases disturbs_of_isCall hc hcall with ⟨p, hp⟩ | hclose
  · exact hnoput p hp
  · exact hnoclear hclose

end Register

/-! ## The hand-over -/

/-- `o` is a successful acceptance by `b` of a proposal in the history `tr₁` that the admin of
that moment made at most 34560 ledgers before and that nothing has touched since. -/
def AcceptedFrom (role : Role X) (chain : Chain X) (tr₁ : List (Occ (World X) (Action X)))
    (o : Occ (World X) (Action X)) (b : Address) : Prop :=
  ∃ c, Succeeds chain o c ∧ c.entry = role.accept b ∧ b ∈ c.auth ∧
    ∃ pre p mid d admin, tr₁ = pre ++ p :: mid ∧ Succeeds chain p d ∧
      d.entry = role.propose admin b ∧ admin ∈ d.auth ∧ p.before.inst.get .admin = some admin ∧
      c.sequence.toNat ≤ d.sequence.toNat + 34560 ∧ NoneSucceeds chain role.IsCall mid

/-- The two-step hand-over of a role over a whole history. -/
structure TwoStep (role : Role X) (chain : Chain X) (tr : List (Occ (World X) (Action X))) :
    Prop where
  /-- the holder changes only by accepting a proposal -/
  changes : ∀ tr₁ o tr₂, tr = tr₁ ++ o :: tr₂ → role.settled o.before →
    role.holder o.after ≠ role.holder o.before →
      ∃ b, role.holder o.after = some b ∧ role.AcceptedFrom chain tr₁ o b
  /-- a proposal is accepted at most once: two acceptances have a new proposal between them -/
  acceptedOnce : ∀ tr₁ p mid q tr₂ c d a b, tr = tr₁ ++ p :: mid ++ q :: tr₂ →
    Succeeds chain p c → c.entry = role.accept a → Succeeds chain q d → d.entry = role.accept b →
      ∃ r ∈ mid, ∃ u, role.Proposes chain r u
  /-- proposing fails while a proposal is pending, expired or not -/
  noOverwrite : ∀ w c admin b, c.entry = role.propose admin b → role.pending w ≠ none →
    ∃ e, exec chain c w = .error e
  /-- a holder that was replaced succeeds in no call reserved to the holder, unless it accepted
  the role again -/
  demoted : ∀ tr₁ o mid q tr₂ a c, tr = tr₁ ++ o :: mid ++ q :: tr₂ →
    role.holder o.before = some a → role.holder o.after ≠ some a →
    Succeeds chain q c → role.privileged c.entry = some a →
      ∃ r ∈ mid, ∃ d, Succeeds chain r d ∧ d.entry = role.accept a

section Theorems

variable {role : Role X} {chain : Chain X} {w₀ : World X} {acts : List (Action X)}

/-- Every acceptance answers the last proposal. -/
theorem Laws.acceptedFrom (laws : role.Laws chain) (h₀ : role.pending w₀ = none)
    (hbound : ∀ c, .call c ∈ acts → c.sequence.toNat + 34560 < 2 ^ 32)
    {tr₁ tr₂ : List (Occ (World X) (Action X))} {o : Occ (World X) (Action X)} {c : Call}
    {b : Address} (htr : trace (step chain) w₀ acts = tr₁ ++ o :: tr₂) (hc : Succeeds chain o c)
    (hentry : c.entry = role.accept b) : role.AcceptedFrom chain tr₁ o b := by
  obtain ⟨hauth, ⟨expiry, hpending, hexpiry⟩, -⟩ := laws.accept o c b hc hentry
  obtain ⟨l₁, l₂, -, rfl, hbefore, -, -⟩ := trace_split (step chain) htr
  rw [hbefore] at hpending
  rcases laws.register.last_put hpending with ⟨hsome, -⟩ | ⟨pre, p, mid, hpre, hput, hquiet⟩
  · rw [h₀] at hsome
    cases hsome
  · obtain ⟨d, admin, hd, hdentry, hdexpiry⟩ := hput
    obtain ⟨hdauth, hdadmin, -, -⟩ := laws.propose p d admin b hd hdentry
    -- the proposing call is one of the run, so its expiry does not wrap
    have hp : p ∈ trace (step chain) w₀ acts := by
      rw [htr, hpre]
      simp
    have hmem : Action.call d ∈ acts := mem_acts_of_succeeds hp hd
    have hsum : expiry.toNat = d.sequence.toNat + 34560 := by
      have hexp : expiry = d.sequence + adminTransferExpiryLedgers := hdexpiry
      rw [hexp, UInt32.toNat_add]
      exact Nat.mod_eq_of_lt (hbound d hmem)
    refine ⟨c, hc, hentry, hauth, pre, p, mid, d, admin, hpre, hd, hdentry, hdauth, hdadmin, ?_,
      noCall_of_undisturbed hquiet⟩
    rw [← hsum]
    exact hexpiry

/-- Between a state where `a` does not hold the role and one where it does, `a` accepted it. -/
theorem Laws.exists_accept (laws : role.Laws chain) {a : Address} {w : World X}
    (hsettled : role.settled w) (hw : role.holder w ≠ some a)
    (h : role.holder (run (step chain) w acts) = some a) :
    ∃ r ∈ trace (step chain) w acts, ∃ d, Succeeds chain r d ∧ d.entry = role.accept a := by
  by_contra hno
  have hinv : role.settled (run (step chain) w acts) ∧
      role.holder (run (step chain) w acts) ≠ some a := by
    refine run_invariant_of_trace (step chain)
      (P := fun w => role.settled w ∧ role.holder w ≠ some a) ⟨hsettled, hw⟩ ?_
    rintro o ho ⟨hs, hne⟩
    have hstep := isStep_of_mem (step chain) ho
    refine ⟨?_, fun hafter => ?_⟩
    · rw [show o.after = step chain o.before o.act from hstep]
      exact laws.settled_step _ _ hs
    · rcases succeeds_or_outside hstep with ⟨c, hc⟩ | ⟨x, hx⟩
      · obtain ⟨b, hentry⟩ := laws.assign o c hc hs (by rw [hafter]; exact Ne.symm hne)
        obtain ⟨-, -, -, hholder⟩ := laws.accept o c b hc hentry
        obtain rfl : b = a := Option.some.inj (hholder.symm.trans hafter)
        exact hno ⟨o, ho, c, hc, hentry⟩
      · rw [hx, laws.holder_outside] at hafter
        exact hne hafter
  exact hinv.2 h

theorem Laws.twoStep (laws : role.Laws chain) (h₀ : role.pending w₀ = none)
    (hbound : ∀ c, .call c ∈ acts → c.sequence.toNat + 34560 < 2 ^ 32) :
    role.TwoStep chain (trace (step chain) w₀ acts) where
  changes := by
    intro tr₁ o tr₂ htr hsettled hne
    have hstep : IsStep (step chain) o := isStep_of_mem (step chain) (by rw [htr]; simp)
    rcases succeeds_or_outside hstep with ⟨c, hc⟩ | ⟨x, hx⟩
    · obtain ⟨b, hentry⟩ := laws.assign o c hc hsettled hne
      obtain ⟨-, -, -, hholder⟩ := laws.accept o c b hc hentry
      exact ⟨b, hholder, laws.acceptedFrom h₀ hbound htr hc hentry⟩
    · rw [hx, laws.holder_outside] at hne
      exact absurd rfl hne
  acceptedOnce := by
    intro tr₁ p mid q tr₂ c d a b htr hc hcentry hd hdentry
    obtain ⟨l, rfl, hq⟩ := trace_between (step chain) htr
    obtain ⟨-, hafter⟩ := laws.closes_state ⟨c, hc, .inl ⟨a, hcentry⟩⟩
    obtain ⟨hbefore, -⟩ := laws.closes_state ⟨d, hd, .inl ⟨b, hdentry⟩⟩
    rw [hq] at hbefore
    exact laws.register.exists_put hafter hbefore
  noOverwrite := by
    intro w c admin b hentry hpending
    cases hexec : exec chain c w with
    | error e => exact ⟨e, rfl⟩
    | ok res =>
      obtain ⟨r, w'⟩ := res
      obtain ⟨-, -, hnone, -⟩ :=
        laws.propose ⟨w, .call c, w'⟩ c admin b ⟨rfl, r, hexec⟩ hentry
      exact absurd hnone hpending
  demoted := by
    intro tr₁ o mid q tr₂ a c htr hbefore hafter hc hpriv
    have ho : o ∈ trace (step chain) w₀ acts := by rw [htr]; simp
    have hsettled : role.settled o.after := by
      rw [show o.after = step chain o.before o.act from isStep_of_mem (step chain) ho]
      exact laws.settled_step _ _ (laws.settled_of_holder _ a hbefore)
    obtain ⟨l, rfl, hq⟩ := trace_between (step chain) htr
    have hholder := laws.privileged q c a hc hpriv
    rw [hq] at hholder
    exact laws.exists_accept hsettled hafter hholder

end Theorems

end Role

/-- Both roles are handed over in two steps, in every run of the contract. -/
theorem handover_two_step (chain : Chain X) {w₀ : World X} (h₀ : Fresh w₀)
    (acts : List (Action X))
    (hbound : ∀ c, .call c ∈ acts → c.sequence.toNat < 2 ^ 32 - 34560) :
    adminRole.TwoStep chain (trace (step chain) w₀ acts) ∧
      feeCollectorRole.TwoStep chain (trace (step chain) w₀ acts) := by
  have hsum : ∀ c, .call c ∈ acts → c.sequence.toNat + 34560 < 2 ^ 32 := by
    intro c hc
    have := hbound c hc
    omega
  refine ⟨(adminRole_laws chain).twoStep ?_ hsum, (feeCollectorRole_laws chain).twoStep ?_ hsum⟩
  · simp only [adminRole]
    rw [h₀.inst]
    rfl
  · simp only [feeCollectorRole]
    rw [h₀.inst]
    rfl

/-- Both roles change hands in one run, at the last ledger the proposals allow. -/
theorem handover_two_step_sample :
    let acts : List (Action Balances) :=
      [.call ⟨1, [⟨2⟩], .init ⟨1⟩ ⟨2⟩ 50⟩, .call ⟨5, [⟨2⟩], .proposeAdmin ⟨2⟩ ⟨3⟩⟩,
        .call ⟨5, [⟨2⟩], .proposeFeeCollector ⟨2⟩ ⟨4⟩⟩, .call ⟨34565, [⟨3⟩], .acceptAdmin ⟨3⟩⟩,
        .call ⟨34565, [⟨4⟩], .acceptFeeCollector ⟨4⟩⟩]
    let w₀ : World Balances := freshWorld fun _ _ => 1000
    (run (step sampleChain) w₀ acts).inst.get .admin = some ⟨3⟩ ∧
    (run (step sampleChain) w₀ acts).inst.get .feeCollector = some ⟨4⟩ ∧
    adminRole.TwoStep sampleChain (trace (step sampleChain) w₀ acts) ∧
    feeCollectorRole.TwoStep sampleChain (trace (step sampleChain) w₀ acts) := by
  intro acts w₀
  refine ⟨rfl, rfl, handover_two_step sampleChain (freshWorld_fresh _) acts ?_⟩
  intro c hc
  simp only [acts, List.mem_cons, Action.call.injEq, List.not_mem_nil, or_false] at hc
  rcases hc with rfl | rfl | rfl | rfl | rfl <;> decide

end TipJar
