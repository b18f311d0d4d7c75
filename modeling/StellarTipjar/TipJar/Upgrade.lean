import StellarTipjar.TipJar.Effects

/-!
# TipJar — the upgrade protocol

`propose_upgrade` stores a hash with its unlock ledger, `cancel_upgrade` drops it and the
permissionless `execute_upgrade` installs it once the unlock ledger is reached. The pending entry
is a `PendingLaws` register: what `execute_upgrade` installs was put there by the last proposal,
which nobody has disturbed since.

The unlock ledger is computed with a wrapping `u32` addition of the delay chosen at `init`, so the
delay is only kept when that addition does not wrap.
-/

namespace TipJar

open Lib Soroban

variable {X : Type}

def pendingUpgrade (w : World X) : Option (BytesN 32 × UInt32) := w.inst.get .pendingUpgrade

/-- A successful `propose_upgrade` of the hash `p.1` that unlocks at `p.2`. -/
def ProposesUpgrade (chain : Chain X) (o : Occ (World X) (Action X)) (p : BytesN 32 × UInt32) :
    Prop :=
  ∃ c admin timelock, Succeeds chain o c ∧ c.entry = .proposeUpgrade admin p.1 ∧
    o.before.inst.get .upgradeTimelockLedgers = some timelock ∧ p.2 = c.sequence + timelock

/-- A successful `cancel_upgrade` or `execute_upgrade`. -/
def ClosesUpgrade (chain : Chain X) (o : Occ (World X) (Action X)) : Prop :=
  ∃ c, Succeeds chain o c ∧ (c.entry = .executeUpgrade ∨ ∃ admin, c.entry = .cancelUpgrade admin)

/-- The three calls of the protocol. -/
def Call.IsUpgrade (c : Call) : Prop :=
  (∃ admin hash, c.entry = .proposeUpgrade admin hash) ∨
    (∃ admin, c.entry = .cancelUpgrade admin) ∨ c.entry = .executeUpgrade

/-! ## The pending entry as a register -/

section Register

variable {chain : Chain X} {o : Occ (World X) (Action X)} {c : Call}

theorem proposesUpgrade_of_succeeds {admin : Address} {hash : BytesN 32}
    (h : Succeeds chain o c) (hentry : c.entry = .proposeUpgrade admin hash) :
    ∃ timelock, o.before.inst.get .upgradeTimelockLedgers = some timelock ∧
      o.before.inst.get .admin = some admin ∧ admin ∈ c.auth ∧ pendingUpgrade o.before = none ∧
      pendingUpgrade o.after = some (hash, c.sequence + timelock) := by
  obtain ⟨⟨hauth, hadmin⟩, hnone, timelock, htimelock, hinst⟩ := h.governs.of_entry hentry
  refine ⟨timelock, htimelock, hadmin, hauth, hnone, ?_⟩
  rw [pendingUpgrade, hinst]
  simp

/-- A call outside the protocol leaves the pending entry alone. -/
theorem pendingUpgrade_kept (h : Succeeds chain o c) (hc : ¬c.IsUpgrade) :
    pendingUpgrade o.after = pendingUpgrade o.before := by
  refine h.governs.frame fun hmem => hc ?_
  obtain ⟨sequence, auth, entry⟩ := c
  cases entry with
  | proposeUpgrade admin hash => exact .inl ⟨admin, hash, rfl⟩
  | cancelUpgrade admin => exact .inr (.inl ⟨admin, rfl⟩)
  | executeUpgrade => exact .inr (.inr rfl)
  | _ =>
    revert hmem
    simp [Entrypoint.instanceWrites]

/-- Cancelling and executing need a pending entry and leave none. -/
theorem closesUpgrade_state (h : ClosesUpgrade chain o) :
    pendingUpgrade o.before ≠ none ∧ pendingUpgrade o.after = none := by
  obtain ⟨c, hc, hentry⟩ := h
  rcases hentry with hentry | ⟨admin, hentry⟩
  · obtain ⟨hash, unlock, hpending, -, hinst, -⟩ := hc.governs.of_entry hentry
    refine ⟨?_, ?_⟩
    · rw [pendingUpgrade, hpending]
      simp
    · rw [pendingUpgrade, hinst]
      simp
  · obtain ⟨-, hpending, hinst⟩ := hc.governs.of_entry hentry
    refine ⟨hpending, ?_⟩
    rw [pendingUpgrade, hinst]
    simp

/-- Every successful call of the protocol proposes or closes. -/
theorem upgrade_disturbs (h : Succeeds chain o c) (hc : c.IsUpgrade) :
    (∃ p, ProposesUpgrade chain o p) ∨ ClosesUpgrade chain o := by
  rcases hc with ⟨admin, hash, hentry⟩ | ⟨admin, hentry⟩ | hentry
  · obtain ⟨timelock, htimelock, -⟩ := proposesUpgrade_of_succeeds h hentry
    exact .inl ⟨(hash, c.sequence + timelock), c, admin, timelock, h, hentry, htimelock, rfl⟩
  · exact .inr ⟨c, h, .inr ⟨admin, hentry⟩⟩
  · exact .inr ⟨c, h, .inl hentry⟩

theorem pendingUpgrade_laws (chain : Chain X) :
    PendingLaws (step chain) pendingUpgrade (ProposesUpgrade chain) (ClosesUpgrade chain) where
  put := by
    intro o p _ ⟨c, admin, timelock, hc, hentry, htimelock, hp⟩
    obtain ⟨timelock', htimelock', -, -, -, hafter⟩ := proposesUpgrade_of_succeeds hc hentry
    obtain rfl : timelock = timelock' := Option.some.inj (htimelock.symm.trans htimelock')
    rw [hafter, ← hp]
  clear := fun o _ h => (closesUpgrade_state h).2
  keep := by
    intro o hstep hnoput hnoclear
    rcases succeeds_or_outside hstep with ⟨c, hc⟩ | ⟨x, hx⟩
    · refine pendingUpgrade_kept hc fun hup => ?_
      rcases upgrade_disturbs hc hup with ⟨p, hp⟩ | hclose
      · exact hnoput p hp
      · exact hnoclear hclose
    · rw [hx]
      rfl

/-- A stretch without proposals and closures has no successful call of the protocol. -/
theorem noUpgrade_of_undisturbed {tr : List (Occ (World X) (Action X))}
    (h : Undisturbed (ProposesUpgrade chain) (ClosesUpgrade chain) tr) :
    NoneSucceeds chain Call.IsUpgrade tr := by
  intro q hq c hc hup
  obtain ⟨hnoput, hnoclear⟩ := h q hq
  rcases upgrade_disturbs hc hup with ⟨p, hp⟩ | hclose
  · exact hnoput p hp
  · exact hnoclear hclose

end Register

/-! ## What an execution installs -/

/-- Before `o`, in the history `tr₁`, the admin of that moment proposed `hash`; nobody proposed,
cancelled or executed an upgrade since. `d` is the call of that proposal. -/
def LastProposed (chain : Chain X) (tr₁ : List (Occ (World X) (Action X))) (hash : BytesN 32)
    (d : Call) : Prop :=
  ∃ pre p mid admin, tr₁ = pre ++ p :: mid ∧ Succeeds chain p d ∧
    d.entry = .proposeUpgrade admin hash ∧ admin ∈ d.auth ∧
    p.before.inst.get .admin = some admin ∧ NoneSucceeds chain Call.IsUpgrade mid

section Execution

variable {chain : Chain X} {token admin : Address} {D : UInt32} {w₀ : World X}
  {acts : List (Action X)} {tr₁ tr₂ : List (Occ (World X) (Action X))}
  {o : Occ (World X) (Action X)} {c : Call}

/-- An execution installs the last proposal, at or after the unlock ledger computed for it. -/
theorem execution_lastProposed (h₀ : AfterInit chain token admin D w₀)
    (htr : trace (step chain) w₀ acts = tr₁ ++ o :: tr₂) (hc : Succeeds chain o c)
    (hentry : c.entry = .executeUpgrade) :
    ∃ hash d, o.after.wasm = some hash ∧ LastProposed chain tr₁ hash d ∧
      d.sequence + D ≤ c.sequence := by
  obtain ⟨hash, unlock, hpending, hunlock, -, hwasm⟩ := hc.governs.of_entry hentry
  obtain ⟨l₁, l₂, -, rfl, hbefore, -, -⟩ := trace_split (step chain) htr
  have hstart : pendingUpgrade w₀ = none := by
    obtain ⟨-, hinst, -⟩ := h₀.state
    rw [pendingUpgrade, hinst]
    simp
  have hnow : pendingUpgrade (run (step chain) w₀ l₁) = some (hash, unlock) := by
    rw [← hbefore]
    exact hpending
  rcases (pendingUpgrade_laws chain).last_put hnow with
    ⟨hsome, -⟩ | ⟨pre, p, mid, hpre, hput, hquiet⟩
  · rw [hstart] at hsome
    cases hsome
  · obtain ⟨d, admin', timelock, hd, hdentry, htimelock, hdunlock⟩ := hput
    obtain ⟨-, -, hadmin, hauth, -⟩ := proposesUpgrade_of_succeeds hd hdentry
    have hp : p ∈ trace (step chain) w₀ l₁ := by
      rw [hpre]
      simp
    have hinit : Initialised token D p.before :=
      trace_invariant (step chain) (fun _ a hs => hs.step a) h₀.initialised hp
    obtain rfl : D = timelock := Option.some.inj (hinit.timelock.symm.trans htimelock)
    refine ⟨hash, d, hwasm, ⟨pre, p, mid, admin', hpre, hd, hdentry, hauth, hadmin,
      noUpgrade_of_undisturbed hquiet⟩, ?_⟩
    rw [← hdunlock]
    exact hunlock

end Execution

/-! ## Safety of the protocol -/

/-- The protocol over a whole history. -/
structure UpgradeProtocol (chain : Chain X) (tr : List (Occ (World X) (Action X))) : Prop where
  /-- an execution installs the last proposal, which nothing has touched since -/
  executes : ∀ tr₁ o tr₂ c, tr = tr₁ ++ o :: tr₂ → Succeeds chain o c →
    c.entry = .executeUpgrade →
      ∃ hash d, o.after.wasm = some hash ∧ LastProposed chain tr₁ hash d
  /-- at most one proposal is pending: the earlier one was closed before the next was made -/
  onePending : ∀ tr₁ p mid q tr₂ c d admin admin' hash hash', tr = tr₁ ++ p :: mid ++ q :: tr₂ →
    Succeeds chain p c → c.entry = .proposeUpgrade admin hash →
    Succeeds chain q d → d.entry = .proposeUpgrade admin' hash' →
      ∃ r ∈ mid, ClosesUpgrade chain r
  /-- a proposal that was cancelled or executed is not executed (again): there is a new one -/
  closedForGood : ∀ tr₁ p mid q tr₂ d, tr = tr₁ ++ p :: mid ++ q :: tr₂ →
    ClosesUpgrade chain p → Succeeds chain q d → d.entry = .executeUpgrade →
      ∃ r ∈ mid, ∃ u, ProposesUpgrade chain r u
  /-- no other call creates, alters or drops the pending proposal -/
  others : ∀ o ∈ tr, ∀ c, Succeeds chain o c → ¬c.IsUpgrade →
    pendingUpgrade o.after = pendingUpgrade o.before

theorem upgrade_protocol_safe (chain : Chain X) {token admin : Address} {D : UInt32}
    {w₀ : World X} (h₀ : AfterInit chain token admin D w₀) (acts : List (Action X)) :
    UpgradeProtocol chain (trace (step chain) w₀ acts) where
  executes := by
    intro tr₁ o tr₂ c htr hc hentry
    obtain ⟨hash, d, hwasm, hlast, -⟩ := execution_lastProposed h₀ htr hc hentry
    exact ⟨hash, d, hwasm, hlast⟩
  onePending := by
    intro tr₁ p mid q tr₂ c d a a' hash hash' htr hc hcentry hd hdentry
    obtain ⟨l, rfl, hq⟩ := trace_between (step chain) htr
    obtain ⟨timelock, -, -, -, -, hafter⟩ := proposesUpgrade_of_succeeds hc hcentry
    obtain ⟨timelock', -, -, -, hbefore, -⟩ := proposesUpgrade_of_succeeds hd hdentry
    have hsome : pendingUpgrade p.after ≠ none := by
      rw [hafter]
      simp
    rw [hq] at hbefore
    exact (pendingUpgrade_laws chain).exists_clear hsome hbefore
  closedForGood := by
    intro tr₁ p mid q tr₂ d htr hclose hd hdentry
    obtain ⟨l, rfl, hq⟩ := trace_between (step chain) htr
    obtain ⟨-, hafter⟩ := closesUpgrade_state hclose
    obtain ⟨hbefore, -⟩ := closesUpgrade_state ⟨d, hd, .inl hdentry⟩
    rw [hq] at hbefore
    exact (pendingUpgrade_laws chain).exists_put hafter hbefore
  others := fun _ _ _ hc hup => pendingUpgrade_kept hc hup

/-- The protocol on a run that proposes and executes. -/
theorem upgrade_protocol_safe_sample :
    AfterInit sampleChain ⟨1⟩ ⟨2⟩ 50 (sampleWorld 50) ∧
    (run (step sampleChain) (sampleWorld 50)
      [.call ⟨2, [⟨2⟩], .proposeUpgrade ⟨2⟩ sampleHash⟩,
        .call ⟨52, [], .executeUpgrade⟩]).wasm = some sampleHash ∧
    UpgradeProtocol sampleChain (trace (step sampleChain) (sampleWorld 50)
      [.call ⟨2, [⟨2⟩], .proposeUpgrade ⟨2⟩ sampleHash⟩, .call ⟨52, [], .executeUpgrade⟩]) := by
  exact ⟨sampleWorld_afterInit, rfl, upgrade_protocol_safe sampleChain sampleWorld_afterInit _⟩

/-! ## The delay -/

/-- Every execution that installs a hash comes at least `D` ledgers, in exact arithmetic, after a
proposal of that hash. -/
def TimelockKept (chain : Chain X) (D : UInt32) (tr : List (Occ (World X) (Action X))) : Prop :=
  ∀ tr₁ o tr₂ c hash, tr = tr₁ ++ o :: tr₂ → Succeeds chain o c → c.entry = .executeUpgrade →
    o.after.wasm = some hash →
      ∃ p ∈ tr₁, ∃ d admin, Succeeds chain p d ∧ d.entry = .proposeUpgrade admin hash ∧
        d.sequence.toNat + D.toNat ≤ c.sequence.toNat

/-- `sequence + D` does not wrap at any successful proposal. -/
def NoUnlockWrap (chain : Chain X) (D : UInt32) (tr : List (Occ (World X) (Action X))) : Prop :=
  ∀ p ∈ tr, ∀ d admin hash, Succeeds chain p d → d.entry = .proposeUpgrade admin hash →
    d.sequence.toNat + D.toNat < 2 ^ 32

theorem timelock_kept_of_no_wrap (chain : Chain X) {token admin : Address} {D : UInt32}
    {w₀ : World X} (h₀ : AfterInit chain token admin D w₀) (acts : List (Action X))
    (hwrap : NoUnlockWrap chain D (trace (step chain) w₀ acts)) :
    TimelockKept chain D (trace (step chain) w₀ acts) := by
  intro tr₁ o tr₂ c hash htr hc hentry hwasm
  obtain ⟨hash', d, hwasm', hlast, hunlock⟩ := execution_lastProposed h₀ htr hc hentry
  obtain rfl : hash = hash' := Option.some.inj (hwasm.symm.trans hwasm')
  obtain ⟨pre, p, mid, admin', rfl, hd, hdentry, -, -, -⟩ := hlast
  have hmem : p ∈ trace (step chain) w₀ acts := by
    rw [htr]
    simp
  have hsum : (d.sequence + D).toNat = d.sequence.toNat + D.toNat := by
    rw [UInt32.toNat_add, Nat.mod_eq_of_lt (hwrap p hmem d admin' hash hd hdentry)]
  refine ⟨p, by simp, d, admin', hd, hdentry, ?_⟩
  rw [← hsum]
  exact hunlock

/-- A run whose only proposal does not wrap, and which does execute. -/
theorem timelock_kept_of_no_wrap_sample :
    (run (step sampleChain) (sampleWorld 50)
      [.call ⟨2, [⟨2⟩], .proposeUpgrade ⟨2⟩ sampleHash⟩,
        .call ⟨52, [], .executeUpgrade⟩]).wasm = some sampleHash ∧
    TimelockKept sampleChain 50 (trace (step sampleChain) (sampleWorld 50)
      [.call ⟨2, [⟨2⟩], .proposeUpgrade ⟨2⟩ sampleHash⟩, .call ⟨52, [], .executeUpgrade⟩]) := by
  refine ⟨rfl, timelock_kept_of_no_wrap sampleChain sampleWorld_afterInit _ ?_⟩
  intro p hp d admin hash hd hentry
  simp only [trace, List.mem_cons, List.not_mem_nil, or_false] at hp
  obtain ⟨hact, -⟩ := hd
  rcases hp with rfl | rfl
  · cases hact
    decide
  · cases hact
    cases hentry

/-- With the largest delay `init` accepts, a proposal made at ledger 100 unlocks at ledger 99: it
is executed in the ledger it was proposed in. -/
theorem timelock_wraps :
    ∃ (chain : Chain Balances) (token admin : Address) (D : UInt32) (w₀ : World Balances)
      (acts : List (Action Balances)), AfterInit chain token admin D w₀ ∧ LedgerOrder acts ∧
      ¬TimelockKept chain D (trace (step chain) w₀ acts) := by
  refine ⟨sampleChain, ⟨1⟩, ⟨2⟩, 4294967295, sampleWorld 4294967295,
    [.call ⟨100, [⟨2⟩], .proposeUpgrade ⟨2⟩ sampleHash⟩, .call ⟨100, [], .executeUpgrade⟩],
    ⟨_, 1, [⟨2⟩], .unit, freshWorld_fresh _, rfl⟩, ?_, ?_⟩
  · simp [LedgerOrder]
  · intro hkept
    obtain ⟨p, hp, d, admin, hd, -, hdelay⟩ := hkept [_] _ [] ⟨100, [], .executeUpgrade⟩ sampleHash
      rfl ⟨rfl, .unit, rfl⟩ rfl rfl
    obtain rfl := List.mem_singleton.mp hp
    obtain ⟨hact, -⟩ := hd
    cases hact
    revert hdelay
    decide

end TipJar
