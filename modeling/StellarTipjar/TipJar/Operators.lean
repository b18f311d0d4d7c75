import StellarTipjar.TipJar.Accounting
import StellarTipjar.TipJar.Payout

/-!
# TipJar — operators and their allowances

A creator grants an operator an allowance with an expiry ledger. The allowance is one number for
all tokens; every withdrawal by the operator is taken off it, and the entry disappears when
nothing is left. `allowance_run` follows the entry from one grant to the next change of it, and
`operator_bounded` puts the intervals of a run together.
-/

namespace TipJar

open Lib Soroban

variable {X : Type}

/-- What is left of the allowance of `operator`, and its expiry ledger. -/
def allowance (w : World X) (creator operator : Address) : Option (Int × UInt32) :=
  (w.pers.get (.operator creator operator) : Option (I128 × UInt32)).map fun grant =>
    (grant.1.val, grant.2)

/-- `call` grants, changes or revokes the allowance. -/
def Call.SetsAllowance (creator operator : Address) (call : Call) : Prop :=
  (∃ amount expiry, call.entry = .authorizeOperator creator operator amount expiry) ∨
    call.entry = .revokeOperator creator operator

/-- `o` is a successful withdrawal from `creator` by `operator`, in either API. -/
def OperatorWithdraws (chain : Chain X) (o : Occ (World X) (Action X))
    (creator operator : Address) (call : Call) : Prop :=
  Succeeds chain o call ∧ ∃ token dest amount,
    resolve o.before call.entry = .withdraw operator creator token dest amount

/-- What a successful withdrawal from `creator` by `operator` paid, whatever the token. -/
def operatorPaid (chain : Chain X) (creator operator : Address)
    (o : Occ (World X) (Action X)) : Int :=
  match entryAt chain o with
  | some (.withdraw caller creator' _ _ _) =>
    if caller = operator ∧ creator' = creator then paidBy o else 0
  | _ => 0

/-- What the entry of a grant of `amount` holds once `spent` was withdrawn. -/
def remaining (amount : Int) (expiry : UInt32) (spent : Int) : Option (Int × UInt32) :=
  if 0 < spent ∧ spent = amount then none else some (amount - spent, expiry)

/-! ## One step -/

/-- What an occurrence does to the allowance. -/
inductive AllowanceStep (chain : Chain X) (creator operator : Address)
    (o : Occ (World X) (Action X)) : Prop where
  | granted (call : Call) (amount : I128) (expiry : UInt32) (success : Succeeds chain o call)
      (entry : call.entry = .authorizeOperator creator operator amount expiry)
      (unpaid : operatorPaid chain creator operator o = 0)
      (after : allowance o.after creator operator = some (amount.val, expiry))
  | revoked (call : Call) (success : Succeeds chain o call)
      (entry : call.entry = .revokeOperator creator operator)
      (unpaid : operatorPaid chain creator operator o = 0)
      (after : allowance o.after creator operator = none)
  | spent (call : Call) (withdraws : OperatorWithdraws chain o creator operator call)
      (left : Int) (expiry : UInt32) (positive : 0 < operatorPaid chain creator operator o)
      (before : allowance o.before creator operator = some (left, expiry))
      (enough : operatorPaid chain creator operator o ≤ left) (inTime : call.sequence ≤ expiry)
      (after : allowance o.after creator operator
        = if left - operatorPaid chain creator operator o = 0 then none
          else some (left - operatorPaid chain creator operator o, expiry))
  | kept (unpaid : operatorPaid chain creator operator o = 0)
      (nobody : ∀ call, ¬OperatorWithdraws chain o creator operator call)
      (after : allowance o.after creator operator = allowance o.before creator operator)

section Step

variable {chain : Chain X} {creator operator : Address} {o : Occ (World X) (Action X)}

/-- Nothing but a withdrawal by the operator counts. -/
theorem operatorPaid_eq_zero {call : Call} (hcall : Succeeds chain o call)
    (h : ∀ token dest amount,
      resolve o.before call.entry ≠ .withdraw operator creator token dest amount) :
    operatorPaid chain creator operator o = 0 := by
  unfold operatorPaid
  rw [hcall.entryAt_eq]
  cases hentry : resolve o.before call.entry with
  | withdraw caller creator' token dest amount =>
    have hne : ¬(caller = operator ∧ creator' = creator) := by
      rintro ⟨rfl, rfl⟩
      exact h token dest amount hentry
    simp [hne]
  | _ => rfl

theorem not_operatorWithdraws {call : Call} (hcall : Succeeds chain o call)
    (h : ∀ token dest amount,
      resolve o.before call.entry ≠ .withdraw operator creator token dest amount) :
    ∀ d, ¬OperatorWithdraws chain o creator operator d := by
  rintro d ⟨hd, token, dest, amount, hentry⟩
  rw [hd.unique hcall] at hentry
  exact h token dest amount hentry

/-- A call that is no withdrawal by the operator and does not write the entry keeps it. -/
theorem AllowanceStep.of_frame {call : Call} (hcall : Succeeds chain o call)
    (h : ∀ token dest amount,
      resolve o.before call.entry ≠ .withdraw operator creator token dest amount)
    (hget : o.after.pers.get (.operator creator operator)
      = o.before.pers.get (.operator creator operator)) :
    AllowanceStep chain creator operator o :=
  .kept (operatorPaid_eq_zero hcall h) (not_operatorWithdraws hcall h)
    (by rw [allowance, allowance, hget])

theorem operatorPaid_of_withdrawn {call : Call} (hcall : Succeeds chain o call)
    {token dest : Address} {amount : Option I128} {paid : I128}
    (hentry : resolve o.before call.entry = .withdraw operator creator token dest amount)
    (h : Withdrawn chain call.sequence call.auth operator creator token dest amount paid
      o.before o.after) : operatorPaid chain creator operator o = paid.val := by
  unfold operatorPaid
  rw [hcall.entryAt_eq, hentry]
  simp [paidBy_eq h.transfers]

theorem withdrawal_spends {call : Call} (hne : operator ≠ creator)
    (hcall : Succeeds chain o call) {token dest : Address} {amount : Option I128} {paid : I128}
    (hentry : resolve o.before call.entry = .withdraw operator creator token dest amount)
    (h : Withdrawn chain call.sequence call.auth operator creator token dest amount paid
      o.before o.after) : AllowanceStep chain creator operator o := by
  have hpaid : operatorPaid chain creator operator o = paid.val :=
    operatorPaid_of_withdrawn hcall hentry h
  obtain ⟨left, expiry, hbefore, htime, henough, hafter⟩ := h.operator hne
  have hsub : (left - paid).val = left.val - paid.val :=
    I128.val_sub_of_le h.paid_pos.le henough
  refine .spent call ⟨hcall, token, dest, amount, hentry⟩ left.val expiry ?_ ?_ ?_ htime ?_
  · rw [hpaid]
    exact h.paid_pos
  · rw [allowance, hbefore]
    rfl
  · rw [hpaid]
    exact henough
  · rw [allowance, hafter, hpaid, ← hsub]
    by_cases hzero : left - paid = 0
    · simp [hzero]
    · have hval : (left - paid).val ≠ 0 := fun h => hzero (I128.ext h)
      simp [hzero, hval]

theorem allowance_step (hne : operator ≠ creator) (hstep : IsStep (step chain) o) :
    AllowanceStep chain creator operator o := by
  by_cases hsuccess : ∃ call, Succeeds chain o call
  · obtain ⟨call, hcall⟩ := hsuccess
    have heffect := hcall.effect
    cases heffect with
    | tipped _ _ _ _ _ entry h =>
      exact .of_frame hcall (by rw [entry]; simp) (h.kept _ rfl)
    | withdrawn caller creator' token dest amount paid entry h =>
      by_cases hpair : caller = operator ∧ creator' = creator
      · obtain ⟨rfl, rfl⟩ := hpair
        exact withdrawal_spends hne hcall entry h
      · refine .of_frame hcall ?_ (h.kept _ rfl (by simp) (by simp) ?_)
        · intro _ _ _ heq
          rw [entry] at heq
          cases heq
          exact hpair ⟨rfl, rfl⟩
        · rintro - heq
          cases heq
          exact hpair ⟨rfl, rfl⟩
    | feesWithdrawn _ _ _ _ entry h =>
      exact .of_frame hcall (by rw [entry]; simp [resolve]) (h.kept _ rfl)
    | queried entry h =>
      refine .of_frame hcall ?_ (h.kept _ rfl)
      intro _ _ _ hentry
      have := movesMoney_of_isQuery (w := o.before) entry
      rw [hentry] at this
      cases this
    | payoutProposed _ _ entry _ h =>
      exact .of_frame hcall (by rw [entry]; simp [resolve]) (h.frame _ (by simp))
    | payoutCancelled _ entry _ _ h =>
      exact .of_frame hcall (by rw [entry]; simp [resolve]) (h.frame _ (by simp))
    | operatorSet creator' operator' amount expiry entry _ h =>
      by_cases hpair : operator' = operator ∧ creator' = creator
      · obtain ⟨rfl, rfl⟩ := hpair
        refine .granted call amount expiry hcall entry ?_ ?_
        · exact operatorPaid_eq_zero hcall (by rw [entry]; simp [resolve])
        · rw [allowance, h.entry]
          rfl
      · refine .of_frame hcall (by rw [entry]; simp [resolve]) (h.frame _ ?_)
        intro heq
        cases heq
        exact hpair ⟨rfl, rfl⟩
    | operatorRevoked creator' operator' entry _ h =>
      by_cases hpair : operator' = operator ∧ creator' = creator
      · obtain ⟨rfl, rfl⟩ := hpair
        refine .revoked call hcall entry ?_ ?_
        · exact operatorPaid_eq_zero hcall (by rw [entry]; simp [resolve])
        · rw [allowance, h.entry]
          rfl
      · refine .of_frame hcall (by rw [entry]; simp [resolve]) (h.frame _ ?_)
        intro heq
        cases heq
        exact hpair ⟨rfl, rfl⟩
    | governed entry pers =>
      refine .of_frame hcall ?_ (by rw [pers])
      intro _ _ _ hentry
      have := movesMoney_of_isGovernance (w := o.before) entry
      rw [hentry] at this
      cases this
  · obtain ⟨x, hx⟩ := (succeeds_or_outside hstep).resolve_left hsuccess
    have hentry := entryAt_eq_none hstep hsuccess
    refine .kept ?_ (fun call h => hsuccess ⟨call, h.1⟩) ?_
    · rw [operatorPaid, hentry]
    · rw [allowance, allowance, hx]

/-- A withdrawal by the operator takes what it pays off an allowance that is still valid. -/
theorem OperatorWithdraws.spends {call : Call} (h : OperatorWithdraws chain o creator operator call)
    (hne : operator ≠ creator) :
    ∃ left expiry, allowance o.before creator operator = some (left, expiry) ∧
      call.sequence ≤ expiry ∧ 0 < operatorPaid chain creator operator o ∧
      operatorPaid chain creator operator o ≤ left := by
  obtain ⟨hcall, token, dest, amount, hentry⟩ := h
  obtain ⟨paid, hwithdrawn⟩ := hcall.withdrawn hentry
  have hpaid : operatorPaid chain creator operator o = paid.val :=
    operatorPaid_of_withdrawn hcall hentry hwithdrawn
  obtain ⟨left, expiry, hbefore, htime, henough, -⟩ := hwithdrawn.operator hne
  refine ⟨left.val, expiry, ?_, htime, ?_, ?_⟩
  · rw [allowance, hbefore]
    rfl
  · rw [hpaid]
    exact hwithdrawn.paid_pos
  · rw [hpaid]
    exact henough

end Step

/-! ## From one grant to the next change -/

section Interval

variable {chain : Chain X} {creator operator : Address} {w : World X} {acts : List (Action X)}

/-- Nobody withdraws on an allowance that is not there, and it does not come back by itself. -/
theorem allowance_none_run (hne : operator ≠ creator)
    (hw : allowance w creator operator = none)
    (hquiet : NoneSucceeds chain (Call.SetsAllowance creator operator)
      (trace (step chain) w acts)) :
    allowance (run (step chain) w acts) creator operator = none := by
  refine run_invariant_of_trace (step chain)
    (P := fun w => allowance w creator operator = none) hw fun o ho hbefore => ?_
  cases allowance_step hne (isStep_of_mem _ ho) with
  | granted call amount expiry success entry =>
    exact absurd (.inl ⟨amount, expiry, entry⟩) (hquiet o ho call success)
  | revoked call success entry => exact absurd (.inr entry) (hquiet o ho call success)
  | spent _ _ _ _ _ before =>
    rw [hbefore] at before
    cases before
  | kept _ _ after =>
    rw [after]
    exact hbefore

/-- Until the next change of the allowance, the entry holds the grant less what the operator
withdrew since. Induction from the end of the run. -/
theorem allowance_run (hne : operator ≠ creator) {amount : Int} {expiry : UInt32}
    (hw : allowance w creator operator = some (amount, expiry))
    (hquiet : NoneSucceeds chain (Call.SetsAllowance creator operator)
      (trace (step chain) w acts)) :
    0 ≤ ((trace (step chain) w acts).map (operatorPaid chain creator operator)).sum ∧
      ((trace (step chain) w acts).map (operatorPaid chain creator operator)).sum ≤ max amount 0 ∧
      allowance (run (step chain) w acts) creator operator = remaining amount expiry
        ((trace (step chain) w acts).map (operatorPaid chain creator operator)).sum := by
  induction acts using List.reverseRecOn with
  | nil => simp [remaining, hw]
  | append_singleton acts a ih =>
    rw [trace_concat] at hquiet
    rw [trace_concat, run_concat, List.map_append, List.sum_append]
    obtain ⟨hnonneg, hle, hrun⟩ := ih fun q hq => hquiet q (List.mem_append_left _ hq)
    revert hnonneg hle hrun
    generalize ((trace (step chain) w acts).map (operatorPaid chain creator operator)).sum = spent
    intro hnonneg hle hrun
    generalize hlast : (⟨run (step chain) w acts, a, step chain (run (step chain) w acts) a⟩ :
      Occ (World X) (Action X)) = last
    have hbefore : allowance last.before creator operator = remaining amount expiry spent := by
      rw [← hlast]
      exact hrun
    have hafter : step chain (run (step chain) w acts) a = last.after := by rw [← hlast]
    have hstep : IsStep (step chain) last := by rw [← hlast]; rfl
    have hlastQuiet := hquiet last (by rw [hlast]; simp)
    rw [hafter]
    simp only [List.map_cons, List.map_nil, List.sum_cons, List.sum_nil, Int.add_zero]
    cases allowance_step hne hstep with
    | granted call amount expiry success entry =>
      exact absurd (.inl ⟨amount, expiry, entry⟩) (hlastQuiet call success)
    | revoked call success entry => exact absurd (.inr entry) (hlastQuiet call success)
    | spent call _ left expiry' positive before enough _ after =>
      -- something was left, so the entry still shows the grant less what was spent
      rw [hbefore, remaining] at before
      split at before
      · cases before
      · obtain ⟨rfl, rfl⟩ : amount - spent = left ∧ expiry = expiry' := by simpa using before
        refine ⟨by omega, by omega, ?_⟩
        rw [after, remaining]
        by_cases hall : amount - spent - operatorPaid chain creator operator last = 0
        · rw [if_pos hall, if_pos (by omega)]
        · rw [if_neg hall, if_neg (by omega), Int.sub_sub]
    | kept unpaid _ after =>
      rw [unpaid, Int.add_zero, after]
      exact ⟨hnonneg, hle, hbefore⟩

end Interval

/-! ## All intervals of a run -/

/-- What the allowance bounds, over a whole history.

* `interval`: after a grant of `A` until ledger `e`, and up to any point before the next grant or
  revocation, the operator withdrew at most `max A 0` over all tokens, never past ledger `e` and
  only to the creator's effective payout address, and the entry holds what is left.
* `granted`: every withdrawal of the operator stands in such an interval, and the grant covers it
  together with those before it. -/
structure OperatorBound (chain : Chain X) (creator operator : Address)
    (tr : List (Occ (World X) (Action X))) : Prop where
  interval : ∀ tr₁ p mid tr₂ d amount expiry, tr = tr₁ ++ p :: (mid ++ tr₂) → Succeeds chain p d →
    d.entry = .authorizeOperator creator operator amount expiry →
    NoneSucceeds chain (Call.SetsAllowance creator operator) mid →
    (mid.map (operatorPaid chain creator operator)).sum ≤ max amount.val 0 ∧
      (∀ q ∈ mid, ∀ call, OperatorWithdraws chain q creator operator call →
        call.sequence ≤ expiry ∧
          Withdraws chain q creator call (payoutOf q.before creator call.sequence)) ∧
      allowance (endState p.after mid) creator operator
        = remaining amount.val expiry (mid.map (operatorPaid chain creator operator)).sum
  granted : ∀ tr₀ q tr₂ call, tr = tr₀ ++ q :: tr₂ →
    OperatorWithdraws chain q creator operator call →
    ∃ tr₁ p mid d amount expiry, tr₀ = tr₁ ++ p :: mid ∧ Succeeds chain p d ∧
      d.entry = .authorizeOperator creator operator amount expiry ∧
      NoneSucceeds chain (Call.SetsAllowance creator operator) mid ∧
      0 < operatorPaid chain creator operator q ∧
      (mid.map (operatorPaid chain creator operator)).sum + operatorPaid chain creator operator q
        ≤ amount.val

section Run

variable {chain : Chain X} {creator operator : Address} {w₀ : World X} {acts : List (Action X)}

theorem allowance_of_granted {p : Occ (World X) (Action X)} {d : Call} {amount : I128}
    {expiry : UInt32} (hd : Succeeds chain p d)
    (hentry : d.entry = .authorizeOperator creator operator amount expiry) :
    allowance p.after creator operator = some (amount.val, expiry) := by
  obtain ⟨-, r, hexec⟩ := hd
  obtain ⟨-, hwrites⟩ := exec_spec hexec (by rw [hentry]; rfl)
    (authorizeOperator_spec creator operator amount expiry)
  rw [allowance, hwrites.entry]
  rfl

theorem allowance_of_revoked {p : Occ (World X) (Action X)} {d : Call} (hd : Succeeds chain p d)
    (hentry : d.entry = .revokeOperator creator operator) :
    allowance p.after creator operator = none := by
  obtain ⟨-, r, hexec⟩ := hd
  obtain ⟨-, hwrites⟩ := exec_spec hexec (by rw [hentry]; rfl)
    (revokeOperator_spec creator operator)
  rw [allowance, hwrites.entry]
  rfl

/-- Before the first grant, and after a revocation, the operator withdraws nothing. -/
theorem not_operatorWithdraws_of_none (hne : operator ≠ creator) {w : World X}
    (hw : allowance w creator operator = none)
    (hquiet : NoneSucceeds chain (Call.SetsAllowance creator operator)
      (trace (step chain) w acts))
    {q : Occ (World X) (Action X)} (hq : q.before = run (step chain) w acts) {call : Call} :
    ¬OperatorWithdraws chain q creator operator call := by
  intro hwithdraws
  obtain ⟨left, expiry, hbefore, -⟩ := hwithdraws.spends hne
  rw [hq, allowance_none_run hne hw hquiet] at hbefore
  cases hbefore

/-- A withdrawal before the next change of the grant is covered by it. -/
theorem OperatorWithdraws.covered (hne : operator ≠ creator) {w : World X} {amount : Int}
    {expiry : UInt32} (hw : allowance w creator operator = some (amount, expiry))
    (hquiet : NoneSucceeds chain (Call.SetsAllowance creator operator)
      (trace (step chain) w acts))
    {q : Occ (World X) (Action X)} (hq : q.before = run (step chain) w acts) {call : Call}
    (h : OperatorWithdraws chain q creator operator call) :
    call.sequence ≤ expiry ∧ 0 < operatorPaid chain creator operator q ∧
      ((trace (step chain) w acts).map (operatorPaid chain creator operator)).sum
        + operatorPaid chain creator operator q ≤ amount := by
  obtain ⟨left, expiry', hbefore, htime, hpos, hle⟩ := h.spends hne
  obtain ⟨-, -, hrun⟩ := allowance_run hne hw hquiet
  rw [hq, hrun, remaining] at hbefore
  split at hbefore
  · cases hbefore
  · obtain ⟨rfl, rfl⟩ : amount - _ = left ∧ expiry = expiry' := by simpa using hbefore
    exact ⟨htime, hpos, by omega⟩

theorem operator_bounded (hfresh : Fresh w₀) (acts : List (Action X)) (hne : operator ≠ creator) :
    OperatorBound chain creator operator (trace (step chain) w₀ acts) where
  interval := by
    intro tr₁ p mid tr₂ d amount expiry htr hd hentry hquiet
    obtain ⟨-, l, -, -, -, -, hrest⟩ := trace_split _ htr
    -- the interval is a run of its own, from the state the grant left
    obtain ⟨l₁, hmid⟩ : ∃ l₁, mid = trace (step chain) p.after l₁ := trace_prefix _ hrest.symm
    subst hmid
    have hgrant := allowance_of_granted hd hentry
    obtain ⟨-, hle, hrun⟩ := allowance_run hne hgrant hquiet
    refine ⟨hle, fun q hq call hcall => ?_, ?_⟩
    · obtain ⟨tr₃, tr₄, hsplit⟩ := List.append_of_mem hq
      obtain ⟨l₃, -, -, rfl, hbefore, -, -⟩ := trace_split _ hsplit
      have hquiet₃ : NoneSucceeds chain (Call.SetsAllowance creator operator)
          (trace (step chain) p.after l₃) :=
        fun o ho => hquiet o (by rw [hsplit]; exact List.mem_append_left _ ho)
      refine ⟨(hcall.covered hne hgrant hquiet₃ hbefore).1, ?_⟩
      obtain ⟨hsuccess, token, dest, amount, hwithdraw⟩ := hcall
      exact (withdrawal_state hsuccess ⟨operator, token, dest, amount, hwithdraw⟩).1
    · rw [endState_trace]
      exact hrun
  granted := by
    intro tr₀ q tr₂ call htr hcall
    obtain ⟨l₀, -, -, rfl, hbefore, -, -⟩ := trace_split _ htr
    rcases last_occurrence
      (fun o => ∃ d, Succeeds chain o d ∧ Call.SetsAllowance creator operator d)
      (trace (step chain) w₀ l₀) with hnone | ⟨tr₁, p, mid, hsplit, ⟨d, hd, hsets⟩, hlast⟩
    · have hempty : allowance w₀ creator operator = none := by
        rw [allowance, hfresh.pers]
        rfl
      exact absurd hcall (not_operatorWithdraws_of_none hne hempty
        (fun o ho d hd hsets => hnone o ho ⟨d, hd, hsets⟩) hbefore)
    · have hquiet : NoneSucceeds chain (Call.SetsAllowance creator operator) mid :=
        fun o ho d hd hsets => hlast o ho ⟨d, hd, hsets⟩
      obtain ⟨l₂, hmid, hend⟩ := trace_tail _ hsplit
      have hrun : q.before = run (step chain) p.after l₂ := hbefore.trans hend
      rw [hmid] at hquiet
      rcases hsets with ⟨amount, expiry, hentry⟩ | hentry
      · obtain ⟨-, hpos, hle⟩ :=
          hcall.covered hne (allowance_of_granted hd hentry) hquiet hrun
        rw [← hmid] at hquiet hle
        exact ⟨tr₁, p, mid, d, amount, expiry, hsplit, hd, hentry, hquiet, hpos, hle⟩
      · exact absurd hcall
          (not_operatorWithdraws_of_none hne (allowance_of_revoked hd hentry) hquiet hrun)

end Run

/-- Creator 3 grants operator 4 an allowance of 100 after a tip of 500. The operator withdraws 60,
fails to withdraw 60 more, and withdraws the remaining 40. -/
theorem operator_bounded_sample :
    let acts : List (Action Balances) := [.call ⟨1, [⟨2⟩], .init ⟨1⟩ ⟨2⟩ 50⟩,
      .call ⟨2, [⟨5⟩], .tip ⟨5⟩ ⟨3⟩ ⟨1⟩ 500⟩,
      .call ⟨3, [⟨3⟩], .authorizeOperator ⟨3⟩ ⟨4⟩ 100 9⟩,
      .call ⟨4, [⟨4⟩], .withdraw ⟨4⟩ ⟨3⟩ ⟨1⟩ ⟨3⟩ (some 60)⟩,
      .call ⟨5, [⟨4⟩], .withdraw ⟨4⟩ ⟨3⟩ ⟨1⟩ ⟨3⟩ (some 60)⟩,
      .call ⟨6, [⟨4⟩], .withdraw ⟨4⟩ ⟨3⟩ ⟨1⟩ ⟨3⟩ (some 40)⟩]
    let tr := trace (step sampleChain) (freshWorld fun _ _ => 1000) acts
    tr.map (operatorPaid sampleChain ⟨3⟩ ⟨4⟩) = [0, 0, 0, 60, 0, 40] ∧
      OperatorBound sampleChain ⟨3⟩ ⟨4⟩ tr := by
  intro acts tr
  exact ⟨by decide +kernel, operator_bounded (freshWorld_fresh _) acts (by decide)⟩

end TipJar
