import StellarTipjar.TipJar.Allowlist
import StellarTipjar.TipJar.Solvency

/-!
# TipJar — the default token of the v1 interface

`tip_legacy`, `withdraw_legacy` and `get_total_tips_legacy` work on the first token of the
allowlist, looked up at every call. As long as that token stays on the list it is the same one, and
the three calls speak about the same account. Taking it off the list points them to the next token:
the total they report may drop and money tipped through them is out of their reach (it can still
be withdrawn with `withdraw`).
-/

namespace TipJar

open Lib Soroban Contract

variable {X : Type}

/-! ## Steps and the first token -/

/-- `o` takes the first token off the allowlist. -/
def RemovesHead (chain : Chain X) (o : Occ (World X) (Action X)) : Prop :=
  ∃ T, RemovesToken chain o T ∧ (allowlist o.before).head? = some T

/-- What `get_total_tips_legacy` is to answer for `c`. -/
def legacyTotal (w : World X) (c : Address) : Int :=
  match (allowlist w).head? with
  | some T => logicalTotal w c T
  | none => 0

section Step

variable {chain : Chain X} {o : Occ (World X) (Action X)} {T : Address}

theorem head?_filter_ne {l : List Address} {U : Address} (h : l.head? = some T) (hne : T ≠ U) :
    (l.filter (· ≠ U)).head? = some T := by
  cases l with
  | nil => cases h
  | cons V l =>
    cases h
    simp [hne]

/-- Every other step keeps the first token, if there is one. -/
theorem head_kept (hstep : IsStep (step chain) o) (hadmin : (o.before.inst.get .admin).isSome)
    (hkeeps : ¬RemovesHead chain o) (hhead : (allowlist o.before).head? = some T) :
    (allowlist o.after).head? = some T := by
  rcases succeeds_or_outside hstep with ⟨call, hcall⟩ | ⟨x, hx⟩
  · cases allowlist_step hcall.governs hadmin with
    | added U _ _ _ after =>
      rw [after, List.head?_append, hhead]
      rfl
    | removed U entry after =>
      rw [after]
      refine head?_filter_ne hhead ?_
      rintro rfl
      exact hkeeps ⟨T, ⟨call, hcall, entry⟩, hhead⟩
    | kept _ _ after =>
      rw [after]
      exact hhead
  · rw [hx]
    exact hhead

end Step

/-! ## The reported total -/

section Total

variable {chain : Chain X} {token admin : Address} {D : UInt32} {w₀ w w' : World X}
  {acts : List (Action X)} {sequence : UInt32} {auth : List Address} {r : Ret}

theorem getTotalTipsLegacy_returns {c : Address}
    (h : exec chain ⟨sequence, auth, .getTotalTipsLegacy c⟩ w = .ok (r, w')) :
    ∃ v, r = .i128 v ∧ v.val = legacyTotal w c := by
  have hspec : wp (getTotalTipsLegacy c) (chain.ctx sequence auth) w
      fun v _ => v.val = legacyTotal w c := by
    simp only [getTotalTipsLegacy, wp_bind, wp_getTokens]
    intro _
    unfold legacyTotal
    cases (allowlist w).head? with
    | none => exact (wp_pure _).mpr rfl
    | some T => exact wp_mono (getTotalTips_spec c T) fun _ _ h => h.1
  obtain ⟨v, hr, hv⟩ := exec_spec_i128 h rfl hspec
  exact ⟨v, hr, hv⟩

theorem logicalTotal_mono (h₀ : AfterInit chain token admin D w₀) {o : Occ (World X) (Action X)}
    (ho : o ∈ trace (step chain) w₀ acts) (c T : Address) :
    logicalTotal o.before c T ≤ logicalTotal o.after c T := by
  have hpos := tipAmount_nonneg (isStep_of_mem (step chain) ho) c T
  rw [(figures_of_run h₀ ho).total c T]
  omega

theorem FromInit.logicalTotal_nonneg (h : FromInit w) (c T : Address) : 0 ≤ logicalTotal w c T :=
  (h.sound.balance_nonneg c T).trans (h.sound.balance_le c T)

/-- A step that does not take the first token off the list does not lower the total. -/
theorem legacyTotal_step (h₀ : AfterInit chain token admin D w₀) {o : Occ (World X) (Action X)}
    (ho : o ∈ trace (step chain) w₀ acts) (hkeeps : ¬RemovesHead chain o) (c : Address) :
    legacyTotal o.before c ≤ legacyTotal o.after c := by
  have hbefore := h₀.trace_fromInit ho
  have hstep := isStep_of_mem (step chain) ho
  have hafter : FromInit o.after := by
    rw [show o.after = step chain o.before o.act from hstep]
    exact hbefore.step o.act
  cases hhead : (allowlist o.before).head? with
  | some T =>
    have hhead' := head_kept hstep hbefore.admin hkeeps hhead
    simp only [legacyTotal, hhead, hhead']
    exact logicalTotal_mono h₀ ho c T
  | none =>
    -- nothing was reported before
    simp only [legacyTotal, hhead]
    cases (allowlist o.after).head? with
    | none => exact le_rfl
    | some T => exact hafter.logicalTotal_nonneg c T

end Total

/-! ## Tips and withdrawals -/

/-- The call of the occurrence is `tip_legacy`. -/
def isLegacyTip (o : Occ (World X) (Action X)) : Bool :=
  match o.act with
  | .call ⟨_, _, .tipLegacy ..⟩ => true
  | _ => false

/-- What a successful tip for `(c, T)` left to the creator. -/
def netTip (chain : Chain X) (c T : Address) (o : Occ (World X) (Action X)) : Int :=
  tipAmount chain c T o - tipFee chain c T o

/-- What a successful `tip_legacy` to `c` left to the creator, in the token that headed the list. -/
def legacyTip (chain : Chain X) (c : Address) (o : Occ (World X) (Action X)) : Int :=
  match (allowlist o.before).head? with
  | some T => if isLegacyTip o then netTip chain c T o else 0
  | none => 0

/-- The same, of those made in the token `T`. -/
def legacyTipIn (chain : Chain X) (c T : Address) (o : Occ (World X) (Action X)) : Int :=
  if (allowlist o.before).head? = some T then legacyTip chain c o else 0

/-- What a successful `withdraw` or `withdraw_legacy` paid for `c`, in whatever token. -/
def withdrawnFor (chain : Chain X) (c : Address) (o : Occ (World X) (Action X)) : Int :=
  match entryAt chain o with
  | some (.withdraw _ creator _ _ _) => if creator = c then paidBy o else 0
  | _ => 0

section Amounts

variable {chain : Chain X} {token admin : Address} {D : UInt32} {w₀ : World X}
  {acts : List (Action X)} {o : Occ (World X) (Action X)}

/-- The fee is a part of the tip. -/
theorem netTip_nonneg (hstep : IsStep (step chain) o) (hbefore : FromInit o.before)
    (c T : Address) : 0 ≤ netTip chain c T o := by
  unfold netTip tipAmount tipFee
  split
  · next sender creator tok amount he =>
    obtain ⟨call, hcall, hentry⟩ := entryAt_eq_some hstep he
    obtain ⟨fee, h⟩ := hcall.tipped hentry
    split
    · have hpos := h.amount_pos
      have hfee : feeAt o amount ≤ amount.val := feeAt_le hpos.le hbefore.rate
      omega
    · exact le_rfl
  · exact le_rfl

theorem withdrawnAmount_le (hstep : IsStep (step chain) o) (c T : Address) :
    withdrawnAmount chain c T o ≤ withdrawnFor chain c o := by
  unfold withdrawnAmount withdrawnFor
  cases he : entryAt chain o with
  | none => exact le_rfl
  | some entry =>
    cases entry with
    | withdraw caller creator tok dest amount =>
      obtain ⟨call, hcall, hentry⟩ := entryAt_eq_some hstep he
      obtain ⟨paid, h⟩ := hcall.withdrawn hentry
      have hpaid : 0 ≤ paidBy o := by
        rw [paidBy_eq h.transfers]
        exact h.paid_pos.le
      by_cases hc : creator = c
      · by_cases hT : tok = T
        · simp [hc, hT]
        · simp [hc, hT, hpaid]
      · simp [hc]
    | _ => exact le_rfl

theorem legacyTipIn_le (hstep : IsStep (step chain) o) (hbefore : FromInit o.before)
    (c T : Address) : legacyTipIn chain c T o ≤ netTip chain c T o := by
  have hpos := netTip_nonneg hstep hbefore c T
  unfold legacyTipIn legacyTip
  split
  · next hhead =>
    rw [hhead]
    simp only
    split
    · exact le_rfl
    · exact hpos
  · exact hpos

end Amounts

/-! ## Whole runs -/

/-- What the v1 interface keeps to in a run `acts` from `w₀`, right after `init(token, ..)`, when
`T` is a token that pays.

* `total`: over a stretch of the run in which the first token stays on the allowlist, the reported
  total of a creator does not decrease.
* `withdraw`: when `T` heads the list at the end, and more has been tipped to `c` through
  `tip_legacy` in `T` than was withdrawn for `c` in `T`, then `c` can withdraw it through
  `withdraw_legacy`.
* `unmoved`: when the first token stayed on the list all along, it is that of `init`, and tips and
  withdrawals count whatever their token. -/
structure LegacyLaws (chain : Chain X) (token T : Address) (w₀ : World X)
    (acts : List (Action X)) : Prop where
  total : ∀ acts₁ acts₂, acts = acts₁ ++ acts₂ →
    (∀ o ∈ trace (step chain) (run (step chain) w₀ acts₁) acts₂, ¬RemovesHead chain o) →
    ∀ c sequence auth a w₁ sequence' auth' b w₂,
      exec chain ⟨sequence, auth, .getTotalTipsLegacy c⟩ (run (step chain) w₀ acts₁)
        = .ok (.i128 a, w₁) →
      exec chain ⟨sequence', auth', .getTotalTipsLegacy c⟩ (run (step chain) w₀ acts)
        = .ok (.i128 b, w₂) →
      a.val ≤ b.val
  withdraw : (allowlist (run (step chain) w₀ acts)).head? = some T →
    ∀ c sequence auth, c ∈ auth → WithdrawalsOpen (run (step chain) w₀ acts) sequence →
    ((trace (step chain) w₀ acts).map (withdrawnAmount chain c T)).sum
      < ((trace (step chain) w₀ acts).map (legacyTipIn chain c T)).sum →
    ∃ r w', exec chain ⟨sequence, auth, .withdrawLegacy c c
      (payoutOf (run (step chain) w₀ acts) c sequence) none⟩ (run (step chain) w₀ acts)
        = .ok (r, w')
  unmoved : (∀ o ∈ trace (step chain) w₀ acts, ¬RemovesHead chain o) →
    (allowlist (run (step chain) w₀ acts)).head? = some token ∧
    (T = token → ∀ c sequence auth, c ∈ auth →
      WithdrawalsOpen (run (step chain) w₀ acts) sequence →
      ((trace (step chain) w₀ acts).map (withdrawnFor chain c)).sum
        < ((trace (step chain) w₀ acts).map (legacyTip chain c)).sum →
      ∃ r w', exec chain ⟨sequence, auth, .withdrawLegacy c c
        (payoutOf (run (step chain) w₀ acts) c sequence) none⟩ (run (step chain) w₀ acts)
          = .ok (r, w'))

section Run

variable {chain : Chain X} {token T admin : Address} {D : UInt32} {w₀ : World X}
  {holding : X → Address → Nat}

/-- While the first token stays on the list it is the one of `init`. -/
theorem head_run (h₀ : AfterInit chain token admin D w₀) {acts : List (Action X)}
    (hkeeps : ∀ o ∈ trace (step chain) w₀ acts, ¬RemovesHead chain o) :
    (allowlist (run (step chain) w₀ acts)).head? = some token ∧
      ∀ o ∈ trace (step chain) w₀ acts, (allowlist o.before).head? = some token := by
  have hstart : (allowlist w₀).head? = some token := by
    rw [h₀.allowlist_eq]
    rfl
  have hend : ∀ l, (∀ o ∈ trace (step chain) w₀ l, ¬RemovesHead chain o) →
      (allowlist (run (step chain) w₀ l)).head? = some token := by
    intro l hl
    refine run_invariant_of_trace (step chain)
      (P := fun w => (allowlist w).head? = some token) hstart ?_
    intro o ho hhead
    exact head_kept (isStep_of_mem _ ho) (h₀.trace_fromInit ho).admin (hl o ho) hhead
  refine ⟨hend acts hkeeps, fun o ho => ?_⟩
  obtain ⟨l₁, l₂, hacts, hbefore, -⟩ := trace_mem (step chain) ho
  rw [hbefore]
  refine hend l₁ fun q hq => hkeeps q ?_
  rw [hacts, trace_append]
  exact List.mem_append_left _ hq

/-- Tips in the first token that were not withdrawn are there to be withdrawn. -/
theorem legacy_withdrawable (htoken : chain.PayingToken T holding) (harchival : chain.archival = false)
    (h₀ : AfterInit chain token admin D w₀) {acts : List (Action X)}
    (hperm : ∀ o ∈ trace (step chain) w₀ acts, Permitted chain holding o)
    (hhead : (allowlist (run (step chain) w₀ acts)).head? = some T) {c : Address}
    {sequence : UInt32} {auth : List Address} (hauth : c ∈ auth)
    (hopen : WithdrawalsOpen (run (step chain) w₀ acts) sequence)
    (hmore : ((trace (step chain) w₀ acts).map (withdrawnAmount chain c T)).sum
      < ((trace (step chain) w₀ acts).map (legacyTipIn chain c T)).sum) :
    ∃ r w', exec chain ⟨sequence, auth, .withdrawLegacy c c
      (payoutOf (run (step chain) w₀ acts) c sequence) none⟩ (run (step chain) w₀ acts)
        = .ok (r, w') := by
  have hw := h₀.run_fromInit acts
  have hcovered : Covered chain T holding (run (step chain) w₀ acts) :=
    (EscrowStart.init token admin D h₀).run_covered htoken.toExactToken hperm
  have hlegacy : ((trace (step chain) w₀ acts).map (legacyTipIn chain c T)).sum
      ≤ ((trace (step chain) w₀ acts).map (netTip chain c T)).sum :=
    List.sum_le_sum fun o ho => legacyTipIn_le (isStep_of_mem _ ho) (h₀.trace_fromInit ho) c T
  have hbalance : 0 < logicalBalance (run (step chain) w₀ acts) c T := by
    rw [logicalBalance_run h₀]
    unfold netTip at hlegacy
    omega
  have howed := (hw.sound.le_owed (ledger_finite hcovered.separate T) c).1
  have hholds : logicalBalance (run (step chain) w₀ acts) c T
      ≤ (holding (run (step chain) w₀ acts).ext chain.self : Int) :=
    howed.trans hcovered.covers
  have hpays := htoken.pays ⟨T, chain.self, payoutOf (run (step chain) w₀ acts) c sequence,
    (balanceEntry (run (step chain) w₀ acts) c T).getD 0⟩ (run (step chain) w₀ acts).ext rfl rfl
    hbalance hholds
  exact withdrawLegacy_succeeds harchival hauth (hopen.notPaused hw.pause) hw.admin hhead rfl
    hbalance hpays

/-- The v1 interface in every run from `init`, whatever happens to the allowlist. -/
theorem legacy_api_laws (htoken : chain.PayingToken T holding) (harchival : chain.archival = false)
    (h₀ : AfterInit chain token admin D w₀) (acts : List (Action X))
    (hperm : ∀ o ∈ trace (step chain) w₀ acts, Permitted chain holding o) :
    LegacyLaws chain token T w₀ acts where
  total := by
    intro acts₁ acts₂ hacts hkeeps c sequence auth a w₁ sequence' auth' b w₂ hbefore hafter
    obtain ⟨_, hr, ha⟩ := getTotalTipsLegacy_returns hbefore
    cases hr
    obtain ⟨_, hr, hb⟩ := getTotalTipsLegacy_returns hafter
    cases hr
    rw [ha, hb, hacts, run_append]
    refine run_invariant_of_trace (step chain)
      (P := fun w => legacyTotal (run (step chain) w₀ acts₁) c ≤ legacyTotal w c) le_rfl ?_
    intro o ho hle
    have hin : o ∈ trace (step chain) w₀ acts := by
      rw [hacts, trace_append]
      exact List.mem_append_right _ ho
    exact hle.trans (legacyTotal_step h₀ hin (hkeeps o ho) c)
  withdraw := fun hhead c sequence auth hauth hopen hmore =>
    legacy_withdrawable htoken harchival h₀ hperm hhead hauth hopen hmore
  unmoved := by
    intro hkeeps
    obtain ⟨hend, hall⟩ := head_run h₀ hkeeps
    refine ⟨hend, ?_⟩
    rintro rfl c sequence auth hauth hopen hmore
    refine legacy_withdrawable htoken harchival h₀ hperm hend hauth hopen ?_
    have hsame : (trace (step chain) w₀ acts).map (legacyTipIn chain c T)
        = (trace (step chain) w₀ acts).map (legacyTip chain c) := by
      refine List.map_congr_left fun o ho => ?_
      rw [legacyTipIn, if_pos (hall o ho)]
    have hwithdrawn : ((trace (step chain) w₀ acts).map (withdrawnAmount chain c T)).sum
        ≤ ((trace (step chain) w₀ acts).map (withdrawnFor chain c)).sum :=
      List.sum_le_sum fun o ho => withdrawnAmount_le (isStep_of_mem _ ho) c T
    rw [hsame]
    omega

end Run

/-- Tips through the v1 interface around additions and removals behind the first token. -/
theorem legacy_api_laws_sample :
    let acts : List (Action Balances) := [.call ⟨2, [⟨5⟩], .tipLegacy ⟨5⟩ ⟨3⟩ 100⟩,
      .call ⟨3, [⟨2⟩], .addToken ⟨2⟩ ⟨7⟩⟩, .call ⟨4, [⟨2⟩], .removeToken ⟨2⟩ ⟨7⟩⟩]
    LegacyLaws sampleChain ⟨1⟩ ⟨1⟩ (sampleWorld 50) acts ∧
      ∃ r w', exec sampleChain ⟨5, [⟨3⟩], .withdrawLegacy ⟨3⟩ ⟨3⟩ ⟨3⟩ none⟩
        (run (step sampleChain) (sampleWorld 50) acts) = .ok (r, w') := by
  intro acts
  have hperm : ∀ o ∈ trace (step sampleChain) (sampleWorld 50) acts,
      Permitted sampleChain (fun x a => x ⟨1⟩ a) o := by
    intro o ho
    simp only [acts, trace, List.mem_cons, List.not_mem_nil, or_false] at ho
    rcases ho with rfl | rfl | rfl
    · show (⟨0⟩ : Address) ∉ [⟨5⟩]
      decide
    · show (⟨0⟩ : Address) ∉ [⟨2⟩]
      decide
    · show (⟨0⟩ : Address) ∉ [⟨2⟩]
      decide
  have hlaws := legacy_api_laws (standardChain_payingToken ⟨0⟩ ⟨1⟩) rfl sampleWorld_afterInit acts
    hperm
  refine ⟨hlaws, hlaws.withdraw (by decide) ⟨3⟩ 5 [⟨3⟩] (by decide) ?_ (by decide)⟩
  intro state hstate
  cases hstate
  rfl

/-- Creator 3 is tipped 100 through `tip_legacy`, then the admin adds token 7 and takes token 1 of
`init` off the list. The reported total drops from 100 to 0, and `withdraw_legacy` fails although
nothing was withdrawn. -/
theorem legacy_api_repointed :
    let tipped : List (Action Balances) := [.call ⟨2, [⟨5⟩], .tipLegacy ⟨5⟩ ⟨3⟩ 100⟩]
    let acts := tipped ++ [.call ⟨3, [⟨2⟩], .addToken ⟨2⟩ ⟨7⟩⟩, .call ⟨4, [⟨2⟩], .removeToken ⟨2⟩ ⟨1⟩⟩]
    let w₁ := run (step sampleChain) (sampleWorld 50) tipped
    let w₂ := run (step sampleChain) (sampleWorld 50) acts
    (∃ w', exec sampleChain ⟨2, [], .getTotalTipsLegacy ⟨3⟩⟩ w₁ = .ok (.i128 100, w')) ∧
      (∃ w', exec sampleChain ⟨5, [], .getTotalTipsLegacy ⟨3⟩⟩ w₂ = .ok (.i128 0, w')) ∧
      ((trace (step sampleChain) (sampleWorld 50) acts).map (withdrawnFor sampleChain ⟨3⟩)).sum = 0 ∧
      ((trace (step sampleChain) (sampleWorld 50) acts).map (legacyTip sampleChain ⟨3⟩)).sum = 100 ∧
      WithdrawalsOpen w₂ 5 ∧ payoutOf w₂ ⟨3⟩ 5 = ⟨3⟩ ∧
      Fails sampleChain ⟨5, [⟨3⟩], .withdrawLegacy ⟨3⟩ ⟨3⟩ ⟨3⟩ none⟩ w₂ := by
  intro tipped acts w₁ w₂
  refine ⟨⟨_, rfl⟩, ⟨_, rfl⟩, by decide, by decide, ?_, by decide, ?_⟩
  · intro state hstate
    cases hstate
    rfl
  · intro r w' hexec
    cases hexec

end TipJar
