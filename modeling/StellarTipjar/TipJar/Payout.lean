import StellarTipjar.TipJar.Effects

/-!
# TipJar — delayed payout redirection

`set_payout_address` stores a pending change that takes effect 17280 ledgers later; the first
withdrawal of the creator at or after that ledger applies it, and withdrawals pay the applied
address. The pending change and the applied address are two `PendingLaws` registers per creator:
proposals put and cancellations or applications clear the first, applications put the second,
which nothing ever clears.

`set_payout_address` and `cancel_payout_address` do not look at whether the change they replace
has matured. A matured change that no withdrawal has applied yet is lost that way, and the
address in force before it comes back.
-/

namespace TipJar

open Lib Soroban

variable {X : Type}

def payoutAddress (w : World X) (c : Address) : Option Address := w.pers.get (.payoutAddress c)

/-- `call` is a withdrawal for the creator `c`, in either API. -/
def IsWithdrawal (c : Address) (w : World X) (call : Call) : Prop :=
  ∃ caller token dest amount, resolve w call.entry = .withdraw caller c token dest amount

/-- `call` proposes or cancels a payout change of `c`. -/
def Call.ChangesPayout (c : Address) (call : Call) : Prop :=
  (∃ payout, call.entry = .setPayoutAddress c payout) ∨ call.entry = .cancelPayoutAddress c

/-- `o` is a successful withdrawal `call` for `c` whose token transfer went to `payee`. -/
def Withdraws (chain : Chain X) (o : Occ (World X) (Action X)) (c : Address) (call : Call)
    (payee : Address) : Prop :=
  Succeeds chain o call ∧ IsWithdrawal c o.before call ∧
    ∃ token paid, o.after.transfers = o.before.transfers ++ [⟨token, chain.self, payee, paid⟩]

/-! ## What the calls do to the two registers -/

section Registers

variable {chain : Chain X} {o : Occ (World X) (Action X)} {call : Call} {c : Address}

theorem setPayout_state {payout : Address} (h : Succeeds chain o call)
    (hentry : call.entry = .setPayoutAddress c payout) :
    c ∈ call.auth ∧
      pendingPayout o.after c = some (payout, call.sequence + payoutDelayLedgers) ∧
      payoutAddress o.after c = payoutAddress o.before c := by
  obtain ⟨-, r, hexec⟩ := h
  obtain ⟨hauth, -, hwrites⟩ :=
    exec_spec hexec (by rw [hentry]; rfl) (setPayoutAddress_spec c payout)
  exact ⟨hauth, hwrites.entry, hwrites.frame _ (by simp)⟩

theorem cancelPayout_state (h : Succeeds chain o call)
    (hentry : call.entry = .cancelPayoutAddress c) :
    pendingPayout o.after c = none ∧ payoutAddress o.after c = payoutAddress o.before c := by
  obtain ⟨-, r, hexec⟩ := h
  obtain ⟨-, -, -, hwrites⟩ :=
    exec_spec hexec (by rw [hentry]; rfl) (cancelPayoutAddress_spec c)
  exact ⟨hwrites.entry, hwrites.frame _ (by simp)⟩

/-- A withdrawal pays `payoutOf`, and applies the pending change if it has matured. -/
theorem withdrawal_state (h : Succeeds chain o call) (hw : IsWithdrawal c o.before call) :
    Withdraws chain o c call (payoutOf o.before c call.sequence) ∧
      payoutAddress o.after c
        = (maturedPayout o.before c call.sequence <|> payoutAddress o.before c) ∧
      pendingPayout o.after c
        = if (maturedPayout o.before c call.sequence).isSome then none
          else pendingPayout o.before c := by
  obtain ⟨caller, token, dest, amount, hentry⟩ := hw
  obtain ⟨paid, hwithdrawn⟩ := h.withdrawn hentry
  refine ⟨⟨h, ⟨caller, token, dest, amount, hentry⟩, token, paid, ?_⟩,
    hwithdrawn.payoutAddress, hwithdrawn.pendingPayoutChange⟩
  rw [← hwithdrawn.dest_eq]
  exact hwithdrawn.transfers

/-- The payee of a withdrawal is determined by the state before it. -/
theorem Withdraws.payee_eq {payee : Address} (h : Withdraws chain o c call payee) :
    payee = payoutOf o.before c call.sequence := by
  obtain ⟨hc, hw, token, paid, htransfers⟩ := h
  obtain ⟨⟨-, -, token', paid', htransfers'⟩, -⟩ := withdrawal_state hc hw
  have heq := List.append_cancel_left (htransfers.symm.trans htransfers')
  have htransfer := (List.cons.inj heq).1
  exact congrArg Transfer.dest htransfer

/-- No other call touches the two registers. -/
theorem payout_kept (h : Succeeds chain o call) (hchange : ¬call.ChangesPayout c)
    (hw : ¬IsWithdrawal c o.before call) :
    pendingPayout o.after c = pendingPayout o.before c ∧
      payoutAddress o.after c = payoutAddress o.before c := by
  have heffect := h.effect
  cases heffect with
  | tipped _ _ _ _ _ _ h => exact ⟨h.kept _ rfl, h.kept _ rfl⟩
  | withdrawn caller creator token dest amount paid entry h =>
    have hne : c ≠ creator := by
      rintro rfl
      exact hw ⟨caller, token, dest, amount, entry⟩
    exact ⟨h.kept _ rfl (by simp) (by simp [hne]) (by simp),
      h.kept _ rfl (by simp [hne]) (by simp) (by simp)⟩
  | feesWithdrawn _ _ _ _ _ h => exact ⟨h.kept _ rfl, h.kept _ rfl⟩
  | queried _ h => exact ⟨h.kept _ rfl, h.kept _ rfl⟩
  | payoutProposed creator payout entry _ h =>
    have hne : c ≠ creator := by
      rintro rfl
      exact hchange (.inl ⟨payout, entry⟩)
    exact ⟨h.frame _ (by simp [hne]), h.frame _ (by simp)⟩
  | payoutCancelled creator entry _ _ h =>
    have hne : c ≠ creator := by
      rintro rfl
      exact hchange (.inr entry)
    exact ⟨h.frame _ (by simp [hne]), h.frame _ (by simp)⟩
  | operatorSet _ _ _ _ _ _ h => exact ⟨h.frame _ (by simp), h.frame _ (by simp)⟩
  | operatorRevoked _ _ _ _ h => exact ⟨h.frame _ (by simp), h.frame _ (by simp)⟩
  | governed _ pers =>
    rw [pendingPayout, pendingPayout, payoutAddress, payoutAddress, pers]
    exact ⟨rfl, rfl⟩

/-- A successful proposal of `p.1` that takes effect at `p.2`. -/
def ProposesPayout (chain : Chain X) (c : Address) (o : Occ (World X) (Action X))
    (p : Address × UInt32) : Prop :=
  ∃ call, Succeeds chain o call ∧ call.entry = .setPayoutAddress c p.1 ∧
    p.2 = call.sequence + payoutDelayLedgers

/-- A successful withdrawal that applies the matured change to `payout`. -/
def AppliesPayout (chain : Chain X) (c : Address) (o : Occ (World X) (Action X))
    (payout : Address) : Prop :=
  ∃ call, Succeeds chain o call ∧ IsWithdrawal c o.before call ∧
    maturedPayout o.before c call.sequence = some payout

/-- A successful cancellation or application. -/
def ClosesPayout (chain : Chain X) (c : Address) (o : Occ (World X) (Action X)) : Prop :=
  (∃ call, Succeeds chain o call ∧ call.entry = .cancelPayoutAddress c) ∨
    ∃ payout, AppliesPayout chain c o payout

theorem pendingPayout_laws (chain : Chain X) (c : Address) :
    PendingLaws (step chain) (pendingPayout · c) (ProposesPayout chain c)
      (ClosesPayout chain c) where
  put := by
    intro o p _ ⟨call, hcall, hentry, hp⟩
    obtain ⟨-, hpending, -⟩ := setPayout_state hcall hentry
    rw [hpending, ← hp]
  clear := by
    intro o _ hclose
    rcases hclose with ⟨call, hcall, hentry⟩ | ⟨payout, call, hcall, hw, hmatured⟩
    · exact (cancelPayout_state hcall hentry).1
    · obtain ⟨-, -, hpending⟩ := withdrawal_state hcall hw
      rw [hpending, hmatured]
      rfl
  keep := by
    intro o hstep hnoput hnoclear
    rcases succeeds_or_outside hstep with ⟨call, hcall⟩ | ⟨x, hx⟩
    · by_cases hw : IsWithdrawal c o.before call
      · obtain ⟨-, -, hpending⟩ := withdrawal_state hcall hw
        cases hmatured : maturedPayout o.before c call.sequence with
        | none =>
          rw [hpending, hmatured]
          rfl
        | some payout => exact absurd (.inr ⟨payout, call, hcall, hw, hmatured⟩) hnoclear
      · refine (payout_kept hcall (fun hchange => ?_) hw).1
        rcases hchange with ⟨payout, hentry⟩ | hentry
        · exact hnoput (payout, call.sequence + payoutDelayLedgers) ⟨call, hcall, hentry, rfl⟩
        · exact hnoclear (.inl ⟨call, hcall, hentry⟩)
    · rw [hx]
      rfl

theorem payoutAddress_laws (chain : Chain X) (c : Address) :
    PendingLaws (step chain) (payoutAddress · c) (AppliesPayout chain c) fun _ => False where
  put := by
    intro o p _ ⟨call, hcall, hw, hmatured⟩
    obtain ⟨-, haddress, -⟩ := withdrawal_state hcall hw
    rw [haddress, hmatured]
    rfl
  clear := fun _ _ h => h.elim
  keep := by
    intro o hstep hnoput _
    rcases succeeds_or_outside hstep with ⟨call, hcall⟩ | ⟨x, hx⟩
    · by_cases hw : IsWithdrawal c o.before call
      · obtain ⟨-, haddress, -⟩ := withdrawal_state hcall hw
        cases hmatured : maturedPayout o.before c call.sequence with
        | none =>
          rw [haddress, hmatured]
          rfl
        | some payout => exact absurd ⟨call, hcall, hw, hmatured⟩ (hnoput payout)
      · by_cases hchange : call.ChangesPayout c
        · rcases hchange with ⟨payout, hentry⟩ | hentry
          · exact (setPayout_state hcall hentry).2.2
          · exact (cancelPayout_state hcall hentry).2
        · exact (payout_kept hcall hchange hw).2
    · rw [hx]
      rfl

end Registers

/-! ## Redirection is delayed -/

theorem maturedPayout_eq_some {w : World X} {c : Address} {sequence : UInt32} {payout : Address} :
    maturedPayout w c sequence = some payout ↔
      ∃ effective, pendingPayout w c = some (payout, effective) ∧ effective ≤ sequence := by
  unfold maturedPayout
  split
  · next payout' effective hpending =>
    rw [hpending]
    constructor
    · intro h
      split at h
      · next hle =>
        cases h
        exact ⟨effective, rfl, hle⟩
      · cases h
    · rintro ⟨effective', heq, hle⟩
      cases heq
      rw [if_pos hle]
  · next hpending =>
    rw [hpending]
    simp

/-- The proposal of `payout` by `c` in the call `d` of the history `pre ++ s :: mid`: 17280 ledgers
passed until ledger `t`, and in `mid` the creator changed nothing and had no withdrawal at or after
the proposal's effective ledger. -/
structure Waited (chain : Chain X) (c payout : Address) (t : UInt32)
    (s : Occ (World X) (Action X)) (mid : List (Occ (World X) (Action X))) (d : Call) : Prop where
  proposed : Succeeds chain s d
  entry : d.entry = .setPayoutAddress c payout
  authorised : c ∈ d.auth
  delay : d.sequence.toNat + 17280 ≤ t.toNat
  unchanged : NoneSucceeds chain (Call.ChangesPayout c) mid
  unapplied : ∀ q ∈ mid, ∀ e, Succeeds chain q e → IsWithdrawal c q.before e →
    e.sequence.toNat < d.sequence.toNat + 17280

section Delay

variable {chain : Chain X} {w₀ : World X} {acts : List (Action X)} {c : Address}
  {tr₁ tr₂ : List (Occ (World X) (Action X))} {o : Occ (World X) (Action X)} {call : Call}

/-- What a withdrawal applies was proposed 17280 ledgers before. -/
theorem waited_of_matured (h₀ : pendingPayout w₀ c = none)
    (hbound : ∀ d, .call d ∈ acts → d.sequence.toNat + 17280 < 2 ^ 32)
    (htr : trace (step chain) w₀ acts = tr₁ ++ o :: tr₂) {payout : Address} {t : UInt32}
    (hmatured : maturedPayout o.before c t = some payout) :
    ∃ pre s mid d, tr₁ = pre ++ s :: mid ∧ Waited chain c payout t s mid d := by
  obtain ⟨effective, hpending, hle⟩ := maturedPayout_eq_some.mp hmatured
  obtain ⟨l₁, l₂, hacts, rfl, hbefore, -, -⟩ := trace_split (step chain) htr
  rw [hbefore] at hpending
  have hlaws := pendingPayout_laws chain c
  rcases hlaws.last_put hpending with ⟨hsome, -⟩ | ⟨pre, s, mid, hpre, hput, hquiet⟩
  · rw [show pendingPayout w₀ c = none from h₀] at hsome
    cases hsome
  obtain ⟨d, hd, hentry, heffective⟩ := hput
  obtain ⟨hauth, hafter, -⟩ := setPayout_state hd hentry
  have hs : s ∈ trace (step chain) w₀ acts := by
    rw [htr, hpre]
    simp
  have hsum : effective.toNat = d.sequence.toNat + 17280 := by
    have heq : effective = d.sequence + payoutDelayLedgers := heffective
    rw [heq, UInt32.toNat_add]
    exact Nat.mod_eq_of_lt (hbound d (mem_acts_of_succeeds hs hd))
  have hdelay : d.sequence.toNat + 17280 ≤ t.toNat := by
    rw [← hsum]
    exact hle
  refine ⟨pre, s, mid, d, hpre, hd, hentry, hauth, hdelay, ?_, ?_⟩
  · intro q hq e he hchange
    obtain ⟨hnoput, hnoclear⟩ := hquiet q hq
    rcases hchange with ⟨p, hset⟩ | hcancel
    · exact hnoput (p, e.sequence + payoutDelayLedgers) ⟨e, he, hset, rfl⟩
    · exact hnoclear (.inl ⟨e, he, hcancel⟩)
  · -- the change is pending all along `mid`, so a withdrawal late enough would have applied it
    intro q hq e he hw
    by_contra hlate
    obtain ⟨l₃, l₄, -, -, -, -, hmid⟩ := trace_split (step chain) hpre
    rw [hmid] at hq hquiet
    obtain ⟨hsame, -⟩ := hlaws.undisturbed hquiet q hq
    have hq_pending : pendingPayout q.before c = some (payout, effective) := by
      rw [show pendingPayout q.before c = pendingPayout s.after c from hsame, hafter, ← heffective]
    have hq_le : effective ≤ e.sequence := by
      have : effective.toNat ≤ e.sequence.toNat := by omega
      exact this
    exact (hquiet q hq).2 (.inr ⟨payout, e, he, hw,
      maturedPayout_eq_some.mpr ⟨effective, hq_pending, hq_le⟩⟩)

/-- Where a withdrawal's money may go: to the creator as long as no change was ever applied, or
to an address the creator proposed at least 17280 ledgers before. The proposal stood unchanged
until `f`, the first withdrawal at or after its effective ledger. -/
def DelayedPayee (chain : Chain X) (c payee : Address) (t : UInt32)
    (tr₁ : List (Occ (World X) (Action X))) (o : Occ (World X) (Action X)) : Prop :=
  (payee = c ∧ ∀ q ∈ tr₁ ++ [o], ∀ payout, ¬AppliesPayout chain c q payout) ∨
    ∃ pre s mid f rest d e, tr₁ ++ [o] = pre ++ s :: mid ++ f :: rest ∧
      Waited chain c payee t s mid d ∧ Succeeds chain f e ∧ IsWithdrawal c f.before e ∧
      d.sequence.toNat + 17280 ≤ e.sequence.toNat

/-- A stored payout address was applied by an earlier withdrawal `f`, which had waited. -/
theorem delayedPayee_of_stored (hpending₀ : pendingPayout w₀ c = none)
    (haddress₀ : payoutAddress w₀ c = none) (horder : LedgerOrder acts)
    (hbound : ∀ d, .call d ∈ acts → d.sequence.toNat + 17280 < 2 ^ 32)
    (htr : trace (step chain) w₀ acts = tr₁ ++ o :: tr₂) (hcall : Succeeds chain o call)
    {payout : Address} (haddress : payoutAddress o.before c = some payout) :
    DelayedPayee chain c payout call.sequence tr₁ o := by
  obtain ⟨l₁, l₂, -, hl₁, hbefore, -, -⟩ := trace_split (step chain) htr
  rw [hbefore] at haddress
  rcases (payoutAddress_laws chain c).last_put haddress with
    ⟨hsome, -⟩ | ⟨pre', f, rest, hsplit, ⟨e, he, hew, hematured⟩, -⟩
  · rw [show payoutAddress w₀ c = none from haddress₀] at hsome
    cases hsome
  rw [← hl₁] at hsplit
  have hf : trace (step chain) w₀ acts = pre' ++ f :: (rest ++ o :: tr₂) := by
    rw [htr, hsplit]
    simp
  obtain ⟨pre, s, mid, d, rfl, hwaited⟩ := waited_of_matured hpending₀ hbound hf hematured
  have hle : e.sequence ≤ call.sequence := horder.le htr (by rw [hsplit]; simp) he hcall
  have hdelay : d.sequence.toNat + 17280 ≤ call.sequence.toNat := le_trans hwaited.delay hle
  refine .inr ⟨pre, s, mid, f, rest ++ [o], d, e, ?_, { hwaited with delay := hdelay }, he, hew,
    hwaited.delay⟩
  rw [hsplit]
  simp

/-- Applied addresses are never cleared, so with none stored nothing was ever applied. -/
theorem not_applied_of_none (htr : trace (step chain) w₀ acts = tr₁ ++ o :: tr₂)
    (haddress : payoutAddress o.before c = none) {q : Occ (World X) (Action X)} (hq : q ∈ tr₁)
    (payout : Address) : ¬AppliesPayout chain c q payout := by
  intro happlies
  obtain ⟨pre, post, hsplit⟩ := List.append_of_mem hq
  have hbetween : trace (step chain) w₀ acts = pre ++ q :: post ++ o :: tr₂ := by
    rw [htr, hsplit]
  have hstep : IsStep (step chain) q := isStep_of_mem (step chain) (by rw [htr]; simp [hq])
  obtain ⟨l, -, ho⟩ := trace_between (step chain) hbetween
  have hafter := (payoutAddress_laws chain c).put q payout hstep happlies
  rw [ho] at haddress
  obtain ⟨_, _, hfalse⟩ := (payoutAddress_laws chain c).exists_clear
    (by rw [hafter]; simp) haddress
  exact hfalse

/-- Every withdrawal pays where it may, and only the creator's own proposals, cancellations and
withdrawals touch its pending change. -/
theorem payout_redirection_delayed (chain : Chain X) {token admin : Address} {D : UInt32}
    {w₀ : World X} (h₀ : AfterInit chain token admin D w₀) (acts : List (Action X))
    (horder : LedgerOrder acts)
    (hbound : ∀ d, .call d ∈ acts → d.sequence.toNat < 2 ^ 32 - 17280) (c : Address) :
    (∀ tr₁ o tr₂ call payee, trace (step chain) w₀ acts = tr₁ ++ o :: tr₂ →
      Withdraws chain o c call payee → DelayedPayee chain c payee call.sequence tr₁ o) ∧
    (∀ o ∈ trace (step chain) w₀ acts, ∀ call, Succeeds chain o call → ¬call.ChangesPayout c →
      ¬IsWithdrawal c o.before call → pendingPayout o.after c = pendingPayout o.before c) := by
  have hpending₀ : pendingPayout w₀ c = none := h₀.pers_get _
  have haddress₀ : payoutAddress w₀ c = none := h₀.pers_get _
  have hsum : ∀ d, .call d ∈ acts → d.sequence.toNat + 17280 < 2 ^ 32 := by
    intro d hd
    have := hbound d hd
    omega
  refine ⟨?_, fun o _ call hcall hchange hw => (payout_kept hcall hchange hw).1⟩
  intro tr₁ o tr₂ call payee htr hwithdraws
  have hpayee := hwithdraws.payee_eq
  obtain ⟨hcall, hw, -⟩ := hwithdraws
  cases hmatured : maturedPayout o.before c call.sequence with
  | some payout =>
    -- this withdrawal applies the change itself
    obtain ⟨pre, s, mid, d, rfl, hwaited⟩ := waited_of_matured hpending₀ hsum htr hmatured
    have heq : payee = payout := by
      rw [hpayee, payoutOf, hmatured]
      rfl
    rw [heq]
    exact .inr ⟨pre, s, mid, o, [], d, call, by simp, hwaited, hcall, hw, hwaited.delay⟩
  | none =>
    have hstored : payee = (payoutAddress o.before c).getD c := by
      rw [hpayee, payoutOf, hmatured]
      rfl
    cases haddress : payoutAddress o.before c with
    | some payout =>
      have heq : payee = payout := by rw [hstored, haddress]; rfl
      rw [heq]
      exact delayedPayee_of_stored hpending₀ haddress₀ horder hsum htr hcall haddress
    | none =>
      refine .inl ⟨by rw [hstored, haddress]; rfl, ?_⟩
      intro q hq payout
      rcases List.mem_append.mp hq with hq | hq
      · exact not_applied_of_none htr haddress hq payout
      · obtain rfl := List.mem_singleton.mp hq
        rintro ⟨call', hcall', -, hmatured'⟩
        obtain rfl := hcall.unique hcall'
        rw [hmatured] at hmatured'
        cases hmatured'

end Delay

/-- A creator that proposes an address and withdraws to it 17280 ledgers later. -/
theorem payout_redirection_delayed_sample :
    let acts : List (Action Balances) :=
      [.call ⟨2, [⟨5⟩], .tip ⟨5⟩ ⟨3⟩ ⟨1⟩ 100⟩, .call ⟨3, [⟨3⟩], .setPayoutAddress ⟨3⟩ ⟨4⟩⟩,
        .call ⟨17283, [⟨3⟩], .withdraw ⟨3⟩ ⟨3⟩ ⟨1⟩ ⟨4⟩ (some 40)⟩]
    (run (step sampleChain) (sampleWorld 50) acts).ext ⟨1⟩ ⟨4⟩ = 1040 ∧
    ∀ tr₁ o tr₂ call payee, trace (step sampleChain) (sampleWorld 50) acts = tr₁ ++ o :: tr₂ →
      Withdraws sampleChain o ⟨3⟩ call payee →
        DelayedPayee sampleChain ⟨3⟩ payee call.sequence tr₁ o := by
  intro acts
  have horder : LedgerOrder acts := by
    simp only [LedgerOrder, acts]
    simp
  refine ⟨rfl, (payout_redirection_delayed sampleChain sampleWorld_afterInit acts horder ?_ ⟨3⟩).1⟩
  intro d hd
  simp only [acts, List.mem_cons, Action.call.injEq, List.not_mem_nil, or_false] at hd
  rcases hd with rfl | rfl | rfl <;> decide

/-! ## A matured change that is replaced before it is applied -/

/-- The proposal `e`, which `rest` follows, has matured by ledger `t`: its effective ledger has come,
and the creator changed nothing before it. A proposal that was cancelled or replaced earlier never
matures. -/
def Matures (chain : Chain X) (c : Address) (e : Call) (rest : List (Occ (World X) (Action X)))
    (t : UInt32) : Prop :=
  e.sequence.toNat + 17280 ≤ t.toNat ∧
    ∀ r ∈ rest, ∀ f, Succeeds chain r f → f.ChangesPayout c →
      e.sequence.toNat + 17280 ≤ f.sequence.toNat

/-- If the creator proposed `payout` at some ledger `s`, made no other change in the ledgers
`[s, s + 17280)`, and none of its later proposals has matured, then a withdrawal from ledger
`s + 17280` on pays `payout`. -/
def PaysMatured (chain : Chain X) (c : Address) (tr : List (Occ (World X) (Action X))) : Prop :=
  ∀ tr₁ s mid o tr₂ d call payout payee, tr = tr₁ ++ s :: mid ++ o :: tr₂ →
    Succeeds chain s d → d.entry = .setPayoutAddress c payout →
    Withdraws chain o c call payee → d.sequence.toNat + 17280 ≤ call.sequence.toNat →
    (∀ q ∈ tr₁ ++ mid ++ tr₂, ∀ e, Succeeds chain q e → e.ChangesPayout c →
      e.sequence.toNat < d.sequence.toNat ∨ d.sequence.toNat + 17280 ≤ e.sequence.toNat) →
    (∀ m₁ q m₂ e p, mid = m₁ ++ q :: m₂ → Succeeds chain q e → e.entry = .setPayoutAddress c p →
      ¬Matures chain c e m₂ call.sequence) →
    payee = payout

/-- The creator replaces or cancels no change that has matured but was not applied yet, and its
proposals' effective ledgers do not wrap. -/
structure NoLateChange (chain : Chain X) (c : Address) (tr : List (Occ (World X) (Action X))) :
    Prop where
  unmatured : ∀ q ∈ tr, ∀ e, Succeeds chain q e → e.ChangesPayout c →
    maturedPayout q.before c e.sequence = none
  noWrap : ∀ q ∈ tr, ∀ e p, Succeeds chain q e → e.entry = .setPayoutAddress c p →
    e.sequence.toNat + 17280 < 2 ^ 32

/-- Withdrawals are on their way to `payout`: it is pending, or it was applied last. -/
def Settling (c payout : Address) (effective : UInt32) (w : World X) : Prop :=
  pendingPayout w c = some (payout, effective) ∨ payoutAddress w c = some payout

section Matured

variable {chain : Chain X} {c payout : Address} {effective : UInt32} {w₀ : World X}
  {acts : List (Action X)} {o : Occ (World X) (Action X)}

theorem Settling.payoutOf_eq {w : World X} {t : UInt32} (h : Settling c payout effective w)
    (hle : effective ≤ t) (honly : ∀ p, maturedPayout w c t = some p → p = payout) :
    payoutOf w c t = payout := by
  rw [payoutOf]
  cases hm : maturedPayout w c t with
  | some p => exact honly p hm
  | none =>
    rcases h with hpending | haddress
    · rw [maturedPayout_eq_some.mpr ⟨effective, hpending, hle⟩] at hm
      cases hm
    · rw [show w.pers.get (.payoutAddress c) = some payout from haddress]
      rfl

/-- One occurrence keeps withdrawals on their way to `payout`, when it replaces no matured change
and applies no other one. -/
theorem Settling.step (h : Settling c payout effective o.before) (hstep : IsStep (step chain) o)
    (hlate : ∀ e, Succeeds chain o e → e.ChangesPayout c →
      effective ≤ e.sequence ∧ maturedPayout o.before c e.sequence = none)
    (honly : ∀ p, AppliesPayout chain c o p → p = payout) :
    Settling c payout effective o.after := by
  rcases succeeds_or_outside hstep with ⟨e, he⟩ | ⟨x, hx⟩
  · by_cases hw : IsWithdrawal c o.before e
    · obtain ⟨-, haddress, hpending⟩ := withdrawal_state he hw
      cases hm : maturedPayout o.before c e.sequence with
      | some p =>
        rw [hm] at haddress
        rw [honly p ⟨e, he, hw, hm⟩] at haddress
        exact .inr haddress
      | none =>
        rw [hm] at haddress hpending
        exact h.imp hpending.trans haddress.trans
    · by_cases hchange : e.ChangesPayout c
      · obtain ⟨hle, hm⟩ := hlate e he hchange
        -- a pending `payout` would be the matured change that may not be replaced
        rcases h with hp | ha
        · rw [maturedPayout_eq_some.mpr ⟨effective, hp, hle⟩] at hm
          cases hm
        · rcases hchange with ⟨p, hentry⟩ | hentry
          · exact .inr ((setPayout_state he hentry).2.2.trans ha)
          · exact .inr ((cancelPayout_state he hentry).2.trans ha)
      · obtain ⟨hpending, haddress⟩ := payout_kept he hchange hw
        exact h.imp hpending.trans haddress.trans
  · rw [hx]
    exact h

/-- A change that has matured at `q` and is not the one proposed at `s` was proposed in between, and
stood unchanged since. -/
theorem proposed_of_matured {tr₁ mid tr₂ : List (Occ (World X) (Action X))}
    {s q : Occ (World X) (Action X)} {d : Call} {t : UInt32} {p : Address}
    (hno : NoLateChange chain c (trace (step chain) w₀ acts))
    (htr : trace (step chain) w₀ acts = tr₁ ++ s :: mid ++ q :: tr₂) (hd : Succeeds chain s d)
    (hentry : d.entry = .setPayoutAddress c payout) (hm : maturedPayout q.before c t = some p) :
    p = payout ∨ ∃ m₁ r m₂ e, mid = m₁ ++ r :: m₂ ∧ Succeeds chain r e ∧
      e.entry = .setPayoutAddress c p ∧ e.sequence.toNat + 17280 ≤ t.toNat ∧
        NoneSucceeds chain (Call.ChangesPayout c) m₂ := by
  obtain ⟨l, hmid, hbefore⟩ := trace_between (step chain) htr
  obtain ⟨effective, hpending, hle⟩ := maturedPayout_eq_some.mp hm
  rw [hbefore] at hpending
  rcases (pendingPayout_laws chain c).last_put hpending with
    ⟨hsame, -⟩ | ⟨m₁, r, m₂, hsplit, ⟨e, he, hset, heffective⟩, hquiet⟩
  · rw [show pendingPayout s.after c = _ from (setPayout_state hd hentry).2.1] at hsame
    cases hsame
    exact .inl rfl
  · rw [← hmid] at hsplit
    have hr : r ∈ trace (step chain) w₀ acts := by rw [htr, hsplit]; simp
    have hsum : effective.toNat = e.sequence.toNat + 17280 := by
      rw [show effective = e.sequence + payoutDelayLedgers from heffective, UInt32.toNat_add]
      exact Nat.mod_eq_of_lt (hno.noWrap r hr e p he hset)
    refine .inr ⟨m₁, r, m₂, e, hsplit, he, hset, hsum ▸ UInt32.le_iff_toNat_le.mp hle, ?_⟩
    intro x hx f hf hchange
    obtain ⟨hnoput, hnoclear⟩ := hquiet x hx
    rcases hchange with ⟨p', hset'⟩ | hcancel
    · exact hnoput (p', f.sequence + payoutDelayLedgers) ⟨f, hf, hset', rfl⟩
    · exact hnoclear (.inl ⟨f, hf, hcancel⟩)

theorem pays_matured_of_no_late_change (chain : Chain X) (w₀ : World X) (acts : List (Action X))
    (horder : LedgerOrder acts) (c : Address)
    (hno : NoLateChange chain c (trace (step chain) w₀ acts)) :
    PaysMatured chain c (trace (step chain) w₀ acts) := by
  intro tr₁ s mid o tr₂ d call payout payee htr hd hentry hwithdraws hdelay hquiet hlater
  have hs : s ∈ trace (step chain) w₀ acts := by rw [htr]; simp
  have hsum : (d.sequence + payoutDelayLedgers).toNat = d.sequence.toNat + 17280 := by
    rw [UInt32.toNat_add]
    exact Nat.mod_eq_of_lt (hno.noWrap s hs d payout hd hentry)
  obtain ⟨l, hmid, hbefore⟩ := trace_between (step chain) htr
  -- what a withdrawal in `mid` applies is `payout`: another change would have matured there
  have honly : ∀ q ∈ mid, ∀ p, AppliesPayout chain c q p → p = payout := by
    rintro q hq p ⟨e, he, hew, hm⟩
    obtain ⟨m, m', hsplit⟩ := List.append_of_mem hq
    have hq_at : trace (step chain) w₀ acts = tr₁ ++ s :: m ++ q :: (m' ++ o :: tr₂) := by
      rw [htr, hsplit]
      simp
    have hcall : e.sequence.toNat ≤ call.sequence.toNat :=
      horder.le htr (by simp [hq]) he hwithdraws.1
    rcases proposed_of_matured hno hq_at hd hentry hm with
      heq | ⟨m₁, r, m₂, f, hm₁, hf, hset, hle, hnone⟩
    · exact heq
    refine absurd ⟨le_trans hle hcall, fun x hx g hg hchange => ?_⟩
      (hlater m₁ r (m₂ ++ q :: m') f p (by rw [hsplit, hm₁]; simp) hf hset)
    rcases List.mem_append.mp hx with hx | hx
    · exact absurd hchange (hnone x hx g hg)
    · rcases List.mem_cons.mp hx with rfl | hx
      · obtain rfl := he.unique hg
        exact hle
      · obtain ⟨n, n', hn⟩ := List.append_of_mem hx
        have hx_at : trace (step chain) w₀ acts
            = (tr₁ ++ s :: m ++ q :: n) ++ x :: (n' ++ o :: tr₂) := by
          rw [hq_at, hn]
          simp
        have hge : e.sequence.toNat ≤ g.sequence.toNat := horder.le hx_at (by simp) he hg
        omega
  have hsettling : Settling c payout (d.sequence + payoutDelayLedgers)
      (run (step chain) s.after l) := by
    refine run_invariant_of_trace (step chain) (.inl (setPayout_state hd hentry).2.1) ?_
    intro q hq hsettling
    rw [← hmid] at hq
    have hqtr : q ∈ trace (step chain) w₀ acts := by rw [htr]; simp [hq]
    refine hsettling.step (isStep_of_mem (step chain) hqtr) (fun e he hchange => ?_) (honly q hq)
    refine ⟨?_, hno.unmatured q hqtr e he hchange⟩
    obtain ⟨m₁, m₂, hm⟩ := List.append_of_mem hq
    have hq_after : trace (step chain) w₀ acts = (tr₁ ++ s :: m₁) ++ q :: (m₂ ++ o :: tr₂) := by
      rw [htr, hm]
      simp
    have hge : d.sequence.toNat ≤ e.sequence.toNat := horder.le hq_after (by simp) hd he
    have hlate : (d.sequence + payoutDelayLedgers).toNat ≤ e.sequence.toNat := by
      rw [hsum]
      rcases hquiet q (by simp [hq]) e he hchange with h | h
      · omega
      · exact h
    exact hlate
  have hle : d.sequence + payoutDelayLedgers ≤ call.sequence := by
    have : (d.sequence + payoutDelayLedgers).toNat ≤ call.sequence.toNat := by
      rw [hsum]
      exact hdelay
    exact this
  rw [hwithdraws.payee_eq, hbefore]
  refine hsettling.payoutOf_eq hle fun p hm => ?_
  rw [← hbefore] at hm
  rcases proposed_of_matured hno htr hd hentry hm with
    heq | ⟨m₁, r, m₂, f, hm₁, hf, hset, hle, hnone⟩
  · exact heq
  · exact absurd ⟨hle, fun x hx g hg hchange => absurd hchange (hnone x hx g hg)⟩
      (hlater m₁ r m₂ f p hm₁ hf hset)

end Matured

/-- A creator that lets a withdrawal apply its change before proposing the next one. -/
theorem pays_matured_of_no_late_change_sample :
    let acts : List (Action Balances) :=
      [.call ⟨2, [⟨5⟩], .tip ⟨5⟩ ⟨3⟩ ⟨1⟩ 100⟩, .call ⟨3, [⟨3⟩], .setPayoutAddress ⟨3⟩ ⟨4⟩⟩,
        .call ⟨17283, [⟨3⟩], .withdraw ⟨3⟩ ⟨3⟩ ⟨1⟩ ⟨4⟩ (some 40)⟩,
        .call ⟨20000, [⟨3⟩], .setPayoutAddress ⟨3⟩ ⟨6⟩⟩,
        .call ⟨20001, [⟨3⟩], .withdraw ⟨3⟩ ⟨3⟩ ⟨1⟩ ⟨4⟩ (some 40)⟩]
    (run (step sampleChain) (sampleWorld 50) acts).ext ⟨1⟩ ⟨4⟩ = 1080 ∧
    PaysMatured sampleChain ⟨3⟩ (trace (step sampleChain) (sampleWorld 50) acts) := by
  intro acts
  have horder : LedgerOrder acts := by
    simp only [LedgerOrder, acts]
    simp
  refine ⟨rfl, pays_matured_of_no_late_change sampleChain (sampleWorld 50) acts horder ⟨3⟩ ?_⟩
  refine ⟨fun q hq e he hchange => ?_, fun q hq e p he hentry => ?_⟩
  · simp only [acts, trace, List.mem_cons, List.not_mem_nil, or_false] at hq
    obtain ⟨hact, -⟩ := he
    rcases hq with rfl | rfl | rfl | rfl | rfl <;> cases hact
    · rcases hchange with ⟨p, h⟩ | h <;> cases h
    · rfl
    · rcases hchange with ⟨p, h⟩ | h <;> cases h
    · rfl
    · rcases hchange with ⟨p, h⟩ | h <;> cases h
  · simp only [acts, trace, List.mem_cons, List.not_mem_nil, or_false] at hq
    obtain ⟨hact, -⟩ := he
    rcases hq with rfl | rfl | rfl | rfl | rfl <;> cases hact <;> cases hentry <;> decide

/-- Address 4 is proposed at ledger 3 and matures at 17283; proposing address 6 at ledger 20000,
before any withdrawal, drops it, and the withdrawal at 20001 pays the creator again. -/
theorem matured_change_lost :
    ∃ (chain : Chain Balances) (w₀ : World Balances) (acts : List (Action Balances)) (c : Address),
      Fresh w₀ ∧ LedgerOrder acts ∧ ¬PaysMatured chain c (trace (step chain) w₀ acts) := by
  refine ⟨sampleChain, freshWorld fun _ _ => 1000,
    [.call ⟨1, [⟨2⟩], .init ⟨1⟩ ⟨2⟩ 50⟩, .call ⟨2, [⟨5⟩], .tip ⟨5⟩ ⟨3⟩ ⟨1⟩ 100⟩,
      .call ⟨3, [⟨3⟩], .setPayoutAddress ⟨3⟩ ⟨4⟩⟩,
      .call ⟨20000, [⟨3⟩], .setPayoutAddress ⟨3⟩ ⟨6⟩⟩,
      .call ⟨20001, [⟨3⟩], .withdraw ⟨3⟩ ⟨3⟩ ⟨1⟩ ⟨3⟩ (some 40)⟩], ⟨3⟩, freshWorld_fresh _, ?_, ?_⟩
  · simp only [LedgerOrder]
    simp
  · intro hpays
    have hpayee : (⟨3⟩ : Address) = ⟨4⟩ := by
      refine hpays [_, _] _ [_] _ [] ⟨3, [⟨3⟩], .setPayoutAddress ⟨3⟩ ⟨4⟩⟩
        ⟨20001, [⟨3⟩], .withdraw ⟨3⟩ ⟨3⟩ ⟨1⟩ ⟨3⟩ (some 40)⟩ ⟨4⟩ ⟨3⟩ rfl ⟨rfl, .unit, rfl⟩ rfl
        ⟨⟨rfl, .unit, rfl⟩, ⟨⟨3⟩, ⟨1⟩, ⟨3⟩, some 40, rfl⟩, ⟨1⟩, 40, rfl⟩ (by decide) ?_ ?_
      · intro q hq e he hchange
        simp only [List.cons_append, List.nil_append, List.append_nil, List.mem_cons,
          List.not_mem_nil, or_false] at hq
        obtain ⟨hact, -⟩ := he
        rcases hq with rfl | rfl | rfl <;> cases hact
        · rcases hchange with ⟨p, h⟩ | h <;> cases h
        · rcases hchange with ⟨p, h⟩ | h <;> cases h
        · exact .inr (by decide)
      · rintro m₁ q m₂ e p hmid he - ⟨hle, -⟩
        have hq : q ∈ m₁ ++ q :: m₂ := by simp
        rw [← hmid] at hq
        obtain rfl := List.mem_singleton.mp hq
        obtain ⟨hact, -⟩ := he
        cases hact
        exact absurd hle (by decide)
    cases hpayee

end TipJar
