import StellarTipjar.TipJar.Effects

/-!
# TipJar — the v1 interface of an upgraded v1 jar

A jar deployed as v1 has `Token` and `Admin` and no `AllowedTokens`, and neither the upgrade nor
`migrate` writes one. The v1 entrypoints take their token from `AllowedTokens`: with none there,
`tip_legacy` and `withdraw_legacy` fail and `get_total_tips_legacy` answers zero, whatever the jar
holds.

`V1Ledger` is what the v1 interface promises, `Conforms` that the contract behaves like it along a
run, and `v1_interface_iff` says when it does: as long as the ledger itself has nothing to do.
-/

namespace TipJar

open Lib Soroban Contract

variable {X : Type}

/-! ## The single-token ledger -/

/-- The calls of the v1 interface, and `migrate`. A creator withdraws for itself to itself. -/
inductive V1Call where
  | tip (sender creator : Address) (amount : I128)
  | withdraw (creator : Address) (amount : Option I128)
  | getTotal (creator : Address)
  | migrate (admin : Address)
deriving DecidableEq, Repr

/-- The invocation at ledger `sequence`, authorised by the address that acts. -/
def V1Call.invocation (sequence : UInt32) : V1Call → Call
  | .tip sender creator amount => ⟨sequence, [sender], .tipLegacy sender creator amount⟩
  | .withdraw creator amount => ⟨sequence, [creator], .withdrawLegacy creator creator creator amount⟩
  | .getTotal creator => ⟨sequence, [], .getTotalTipsLegacy creator⟩
  | .migrate admin => ⟨sequence, [admin], .migrate admin⟩

/-- What can happen to the jar: a call, or anything elsewhere. -/
inductive V1Action (X : Type) where
  | call (sequence : UInt32) (c : V1Call)
  | outside (x : X)

structure V1Ledger where
  balance : Address → Int
  total : Address → Int

/-- The ledger a v1 jar stores. -/
def v1Ledger (w : World X) : V1Ledger where
  balance := fun c => ((w.pers.get (.creatorBalance c) : Option I128).getD 0).val
  total := fun c => ((w.pers.get (.creatorTotal c) : Option I128).getD 0).val

namespace V1Ledger

/-- What a withdrawal asks for: `None` means everything. -/
def requested (L : V1Ledger) (creator : Address) (amount : Option I128) : Int :=
  (amount.map I128.val).getD (L.balance creator)

/-- A tip is accepted when it is positive and the sender can pay it, a withdrawal when it is
between 1 and the balance. -/
def accepts (L : V1Ledger) (chain : Chain X) (T₀ : Address) (x : X) : V1Call → Bool
  | .tip sender _ amount =>
    0 < amount.val ∧ (chain.transfer ⟨T₀, sender, chain.self, amount⟩ x).isSome
  | .withdraw creator amount =>
    0 < L.requested creator amount ∧ L.requested creator amount ≤ L.balance creator
  | .getTotal _ | .migrate _ => true

def credit (L : V1Ledger) (creator : Address) (amount net : Int) : V1Ledger where
  balance := Function.update L.balance creator (L.balance creator + net)
  total := Function.update L.total creator (L.total creator + amount)

def debit (L : V1Ledger) (creator : Address) (amount : Int) : V1Ledger where
  balance := Function.update L.balance creator (L.balance creator - amount)
  total := L.total

/-- The ledger after an accepted call, at the fee rate `bps`. -/
def book (L : V1Ledger) (bps : UInt32) : V1Call → V1Ledger
  | .tip _ creator amount =>
    L.credit creator amount.val (amount.val - amount.val * bps.toNat / 10000)
  | .withdraw creator amount => L.debit creator (L.requested creator amount)
  | .getTotal _ | .migrate _ => L

def next (L : V1Ledger) (chain : Chain X) (T₀ : Address) (w : World X) (c : V1Call) : V1Ledger :=
  if L.accepts chain T₀ w.ext c then L.book (feeRate w) c else L

end V1Ledger

/-! ## Behaving like the ledger -/

def Fails (chain : Chain X) (call : Call) (w : World X) : Prop :=
  ∀ r w', exec chain call w ≠ .ok (r, w')

/-- The call ends as the ledger says: accepted calls succeed and move the money, refused ones fail,
queries return the total. -/
def Agrees (chain : Chain X) (T₀ : Address) (L : V1Ledger) (sequence : UInt32) (c : V1Call)
    (w : World X) : Prop :=
  match c with
  | .tip sender _ amount =>
    if L.accepts chain T₀ w.ext c then
      ∃ w', exec chain (c.invocation sequence) w = .ok (.unit, w') ∧
        w'.transfers = w.transfers ++ [⟨T₀, sender, chain.self, amount⟩]
    else Fails chain (c.invocation sequence) w
  | .withdraw creator amount =>
    if L.accepts chain T₀ w.ext c then
      ∃ w' paid, exec chain (c.invocation sequence) w = .ok (.unit, w') ∧
        I128.val paid = L.requested creator amount ∧
        w'.transfers = w.transfers ++ [⟨T₀, chain.self, creator, paid⟩]
    else Fails chain (c.invocation sequence) w
  | .getTotal creator =>
    ∃ w' total, exec chain (c.invocation sequence) w = .ok (.i128 total, w') ∧
      total.val = L.total creator
  | .migrate _ => True

/-- The contract behaves as the ledger along the run. -/
def Conforms (chain : Chain X) (T₀ : Address) : V1Ledger → World X → List (V1Action X) → Prop
  | _, _, [] => True
  | L, w, .outside x :: acts => Conforms chain T₀ L { w with ext := x } acts
  | L, w, .call sequence c :: acts =>
    Agrees chain T₀ L sequence c w ∧
      Conforms chain T₀ (L.next chain T₀ w c) (step chain w (.call (c.invocation sequence))) acts

/-! ## Calls that ask for nothing -/

/-- A jar as v1 left it, in its `AllowedTokens` and `Pause` keys too. -/
structure V1Jar (T₀ : Address) (w : World X) : Prop extends V1Layout T₀ w where
  allowedTokens : w.inst.get .allowedTokens = none
  pause : w.inst.get .pause = none
  rate : feeRate w ≤ maxFeeBps

/-- The ledger refuses the call, or it asks for a total that is zero while the host can load the
contract. -/
def AsksNothing (chain : Chain X) (T₀ : Address) (w₀ : World X) (x : X) (sequence : UInt32) :
    V1Call → Prop
  | .tip sender creator amount =>
    (v1Ledger w₀).accepts chain T₀ x (.tip sender creator amount) = false
  | .withdraw creator amount =>
    (v1Ledger w₀).accepts chain T₀ x (.withdraw creator amount) = false
  | .getTotal creator =>
    (v1Ledger w₀).total creator = 0 ∧ ¬(chain.archival = true ∧ w₀.instLive < sequence.toNat)
  | .migrate _ => True

/-- No call of the run asks the jar `w₀` for anything. -/
def IdleRun (chain : Chain X) (T₀ : Address) (w₀ : World X) : X → List (V1Action X) → Prop
  | _, [] => True
  | _, .outside x :: acts => IdleRun chain T₀ w₀ x acts
  | x, .call sequence c :: acts =>
    AsksNothing chain T₀ w₀ x sequence c ∧ IdleRun chain T₀ w₀ x acts

/-! ## What the code does without an allowlist -/

theorem step_call_preserves {chain : Chain X} {w : World X} {call : Call} {P : World X → Prop}
    (hw : P w) (hcall : ∀ r w', exec chain call w = .ok (r, w') → P w') :
    P (step chain w (.call call)) := by
  cases h : exec chain call w with
  | error e =>
    rw [step_call_error h]
    exact hw
  | ok p =>
    obtain ⟨r, w'⟩ := p
    rw [step_call_ok h]
    exact hcall r w' h

/-- There is an admin and no allowlist, and the instance lives as long as that of `w₀`. -/
structure Orphaned (w₀ w : World X) : Prop where
  admin : (w.inst.get .admin).isSome
  allowedTokens : w.inst.get .allowedTokens = none
  instLive : w.instLive = w₀.instLive

section Orphaned

variable {chain : Chain X} {w₀ w w' : World X} {sequence : UInt32} {auth : List Address} {r : Ret}

theorem Orphaned.allowlist_eq (h : Orphaned w₀ w) : allowlist w = [] := by
  rw [allowlist, h.allowedTokens]
  rfl

theorem Orphaned.tip_fails (h : Orphaned w₀ w) (sender creator : Address) (amount : I128) :
    Fails chain ⟨sequence, auth, .tipLegacy sender creator amount⟩ w := by
  intro r w' hexec
  obtain ⟨token, fee, htoken, -⟩ := exec_spec hexec rfl (tipLegacy_spec sender creator amount)
  rw [h.allowlist_eq] at htoken
  cases htoken

theorem Orphaned.withdraw_fails (h : Orphaned w₀ w) (caller creator dest : Address)
    (amount : Option I128) :
    Fails chain ⟨sequence, auth, .withdrawLegacy caller creator dest amount⟩ w := by
  intro r w' hexec
  obtain ⟨token, paid, htoken, -⟩ :=
    exec_spec hexec rfl (withdrawLegacy_spec caller creator dest amount)
  rw [h.allowlist_eq] at htoken
  cases htoken

theorem Orphaned.getTotal_zero (h : Orphaned w₀ w) {creator : Address}
    (hexec : exec chain ⟨sequence, auth, .getTotalTipsLegacy creator⟩ w = .ok (r, w')) :
    r = .i128 0 ∧ w' = w := by
  refine exec_post (Q := fun r w' => r = .i128 0 ∧ w' = w) ?_ hexec
  simp only [program, getTotalTipsLegacy, wp_bind, wp_getTokens, h.allowlist_eq]
  intro _
  exact (wp_pure _).mpr ((wp_pure _).mpr ⟨rfl, rfl⟩)

/-- The query succeeds when the host can load the contract. -/
theorem Orphaned.getTotal_ok_iff (h : Orphaned w₀ w) {creator : Address} :
    (∃ r w', exec chain ⟨sequence, auth, .getTotalTipsLegacy creator⟩ w = .ok (r, w')) ↔
      ¬(chain.archival = true ∧ w₀.instLive < sequence.toNat) := by
  rw [← h.instLive]
  constructor
  · rintro ⟨r, w', hexec⟩
    have hload : wp (invoke (.getTotalTipsLegacy creator)) (chain.ctx sequence auth) w
        fun _ _ => InstanceLive (chain.ctx sequence auth : Ctx DataKey DataKey.Val Event Error X) w := by
      simp only [invoke, wp_bind, wp_loadInstance]
      intro hlive a w' _
      exact hlive
    exact hload r w' hexec
  · intro hlive
    have hrun : twp (invoke (.getTotalTipsLegacy creator)) (chain.ctx sequence auth) w
        fun _ _ => True := by
      simp only [invoke, program, getTotalTipsLegacy, getTokens, twp_bind, twp_loadInstance,
        twp_ensureInitialized, twp_instanceGet, h.allowedTokens]
      exact ⟨hlive, h.admin, by simp⟩
    obtain ⟨r, w', hexec, -⟩ := hrun
    exact ⟨r, w', hexec⟩

/-- `migrate` writes no allowlist and does not extend the instance. -/
theorem migrate_instLive {ctx : Ctx DataKey DataKey.Val Event Error X} (admin : Address) :
    wp (migrate admin) ctx w fun _ w' => w'.instLive = w.instLive := by
  simp only [migrate, wp_bind, wp_requireAuth, wp_requireAdmin, wp_instanceGet, wp_onlyIf,
    wp_storedPauseState, wp_ifSome, wp_instanceSet, wp_publish]
  intro _ _
  refine ⟨fun _ => ⟨fun _ => ⟨fun _ => ⟨fun _ => rfl, by simp⟩, ?_⟩, fun _ => rfl⟩,
    fun _ => trivial⟩
  intro raw _ state _
  exact ⟨by simp, fun _ _ => rfl⟩

/-- No call of the interface changes anything a later one depends on. -/
theorem Orphaned.step (h : Orphaned w₀ w) (sequence : UInt32) (c : V1Call) :
    Orphaned w₀ (step chain w (.call (c.invocation sequence))) ∧
      (step chain w (.call (c.invocation sequence))).ext = w.ext := by
  refine step_call_preserves (P := fun v => Orphaned w₀ v ∧ v.ext = w.ext) ⟨h, rfl⟩ ?_
  intro r w' hexec
  cases c with
  | tip sender creator amount => exact absurd hexec (h.tip_fails sender creator amount r w')
  | withdraw creator amount =>
    exact absurd hexec (h.withdraw_fails creator creator creator amount r w')
  | getTotal creator =>
    obtain ⟨-, rfl⟩ := h.getTotal_zero hexec
    exact ⟨h, rfl⟩
  | migrate admin =>
    obtain ⟨hgov, honly⟩ := exec_spec hexec rfl (migrate_spec admin)
    have hlive := exec_spec hexec rfl (migrate_instLive admin)
    refine ⟨⟨hgov.admin_isSome h.admin, ?_, hlive.trans h.instLive⟩, honly.ext⟩
    rw [hgov.frame (by simp [Entrypoint.instanceWrites]), h.allowedTokens]

-- a call that fails agrees with the ledger when the ledger refuses it
theorem refuses_iff {accepted : Bool} {p q : Prop} (hq : q) (hp : ¬p) :
    (if accepted then p else q) ↔ accepted = false := by
  cases accepted with
  | false => simpa using hq
  | true => simpa using hp

/-- The contract agrees with the ledger on a call exactly when the call asks for nothing; the ledger
then stays as it is. -/
theorem Orphaned.agrees_iff (h : Orphaned w₀ w) (T₀ : Address) (sequence : UInt32) (c : V1Call) :
    Agrees chain T₀ (v1Ledger w₀) sequence c w ↔ AsksNothing chain T₀ w₀ w.ext sequence c := by
  cases c with
  | tip sender creator amount =>
    have hfails : Fails chain ⟨sequence, [sender], .tipLegacy sender creator amount⟩ w :=
      h.tip_fails sender creator amount
    refine refuses_iff hfails ?_
    rintro ⟨w', hexec, -⟩
    exact hfails _ _ hexec
  | withdraw creator amount =>
    have hfails : Fails chain
        ⟨sequence, [creator], .withdrawLegacy creator creator creator amount⟩ w :=
      h.withdraw_fails creator creator creator amount
    refine refuses_iff hfails ?_
    rintro ⟨w', paid, hexec, -⟩
    exact hfails _ _ hexec
  | getTotal creator =>
    unfold Agrees AsksNothing
    constructor
    · rintro ⟨w', total, hexec, htotal⟩
      obtain ⟨hzero, -⟩ := h.getTotal_zero hexec
      obtain rfl : total = 0 := Ret.i128.inj hzero
      exact ⟨htotal.symm, h.getTotal_ok_iff.mp ⟨_, w', hexec⟩⟩
    · rintro ⟨htotal, hlive⟩
      obtain ⟨r, w', hexec⟩ := h.getTotal_ok_iff.mpr hlive
      obtain ⟨rfl, -⟩ := h.getTotal_zero hexec
      exact ⟨w', 0, hexec, htotal.symm⟩
  | migrate admin => exact iff_of_true trivial trivial

theorem AsksNothing.next_eq {T₀ : Address} {c : V1Call}
    (h : AsksNothing chain T₀ w₀ w.ext sequence c) :
    (v1Ledger w₀).next chain T₀ w c = v1Ledger w₀ := by
  unfold V1Ledger.next
  cases c with
  | tip sender creator amount =>
    have hrefused : (v1Ledger w₀).accepts chain T₀ w.ext (.tip sender creator amount) = false := h
    rw [hrefused]
    rfl
  | withdraw creator amount =>
    have hrefused : (v1Ledger w₀).accepts chain T₀ w.ext (.withdraw creator amount) = false := h
    rw [hrefused]
    rfl
  | getTotal creator => exact ite_self _
  | migrate admin => exact ite_self _

theorem Orphaned.conforms_iff (h : Orphaned w₀ w) (T₀ : Address) (acts : List (V1Action X)) :
    Conforms chain T₀ (v1Ledger w₀) w acts ↔ IdleRun chain T₀ w₀ w.ext acts := by
  induction acts generalizing w with
  | nil => exact Iff.rfl
  | cons a acts ih =>
    cases a with
    | outside x =>
      have houtside : Orphaned w₀ { w with ext := x } := ⟨h.admin, h.allowedTokens, h.instLive⟩
      exact ih houtside
    | call sequence c =>
      have hstep : Orphaned w₀ (TipJar.step chain w (.call (c.invocation sequence))) ∧
          (TipJar.step chain w (.call (c.invocation sequence))).ext = w.ext := h.step sequence c
      obtain ⟨hnext, hext⟩ := hstep
      rw [Conforms, IdleRun, h.agrees_iff T₀ sequence c]
      refine and_congr_right fun hidle => ?_
      rw [hidle.next_eq, ih hnext, hext]

end Orphaned

/-- On a jar as v1 left it, the v1 interface behaves as the single-token ledger exactly along the
runs that ask nothing of it: tips the ledger refuses, withdrawals it refuses, and queries of totals
that are zero. -/
theorem v1_interface_iff {chain : Chain X} {T₀ : Address} {w₀ : World X} (h : V1Jar T₀ w₀)
    (acts : List (V1Action X)) :
    Conforms chain T₀ (v1Ledger w₀) w₀ acts ↔ IdleRun chain T₀ w₀ w₀.ext acts :=
  Orphaned.conforms_iff ⟨h.admin, h.allowedTokens, rfl⟩ T₀ acts

/-! ## A jar that v1 left with a balance

The creator 3 has a balance of 100 and a total of 150, the jar holds 1000. -/

def orphanJar : World Balances :=
  { freshWorld (fun _ _ => 1000) with
    inst := (Store.empty.set .token ⟨1⟩).set .admin ⟨2⟩
    pers := (Store.empty.set (.creatorBalance ⟨3⟩) 100).set (.creatorTotal ⟨3⟩) 150 }

theorem orphanJar_v1 : V1Jar ⟨1⟩ orphanJar where
  token := rfl
  admin := rfl
  creatorBalance := by
    intro c v hv
    by_cases hc : c = ⟨3⟩
    · subst hc
      cases hv
      decide
    · simp [orphanJar, hc] at hv
  creatorTotal := by
    intro c v hv
    by_cases hc : c = ⟨3⟩
    · subst hc
      cases hv
      decide
    · simp [orphanJar, hc] at hv
  feeBalance := by
    intro v hv
    cases hv
  balance := fun c => by simp [orphanJar]
  total := fun c => by simp [orphanJar]
  feeBalanceToken := rfl
  allowedTokens := rfl
  pause := rfl
  rate := by decide

/-- Creator 3 cannot withdraw 40 of its 100. -/
theorem v1_withdrawal_refused :
    V1Jar ⟨1⟩ orphanJar ∧
      exec sampleChain ((V1Call.withdraw ⟨3⟩ (some 40)).invocation 5) orphanJar
        = .error (.error .notInitialized) ∧
      ¬Conforms sampleChain ⟨1⟩ (v1Ledger orphanJar) orphanJar
        [.call 5 (.withdraw ⟨3⟩ (some 40))] := by
  refine ⟨orphanJar_v1, rfl, ?_⟩
  rintro ⟨hagrees, -⟩
  have haccepts : (v1Ledger orphanJar).accepts sampleChain ⟨1⟩ orphanJar.ext
      (.withdraw ⟨3⟩ (some 40)) = true := by decide
  unfold Agrees at hagrees
  rw [haccepts] at hagrees
  obtain ⟨w', paid, hexec, -⟩ := hagrees
  cases hexec

/-- A migration, a tip of nothing, a withdrawal of more than there is and the total of a creator
that was never tipped. -/
theorem v1_interface_iff_sample :
    Conforms sampleChain ⟨1⟩ (v1Ledger orphanJar) orphanJar
      [.call 3 (.migrate ⟨2⟩), .call 4 (.tip ⟨5⟩ ⟨3⟩ 0), .call 5 (.withdraw ⟨3⟩ (some 101)),
        .call 6 (.getTotal ⟨9⟩)] :=
  (v1_interface_iff orphanJar_v1 _).mpr
    ⟨trivial, by exact rfl, by exact rfl, ⟨by decide, by decide⟩, trivial⟩

end TipJar
