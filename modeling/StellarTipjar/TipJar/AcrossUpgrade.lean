import StellarTipjar.TipJar.V2Fixture
import StellarTipjar.TipJar.Reentrancy

/-!
# TipJar — the escrow across an upgrade

The machine of `TipJar.System` runs the first version of the contract throughout. Here the host
dispatches on the code that is installed: `execute_upgrade` changes which program answers the next
request, and the storage the first version wrote is what the second version reads.

* `Effect2` — everything a call under the second version can do.
* `Backed` — the debt in both layouts is covered, whichever code is installed.
* `FromInit` is kept by both versions, so that from `init` a request of the second version is a
  move on the abstract ledger like one of the first.
-/

namespace TipJar

open Lib Soroban Contract

variable {X : Type}

/-! ## Requests -/

/-- The builds of the contract. -/
inductive Version where
  | v1
  | v2
deriving DecidableEq, Repr

/-- A function with its arguments. The `withdraw` of the second version takes three arguments
where that of the first takes five; the other functions of the second are among those of the
first. -/
inductive Request where
  | entry (e : Entrypoint)
  | withdrawSelf (creator token : Address) (amount : Option I128)
deriving DecidableEq, Repr

/-- The first version has no `withdraw` with three arguments. -/
def programV1 : Request → M X Ret
  | .entry e => program e
  | .withdrawSelf _ _ _ => fail .trap

-- a function the code does not export, or a call with the wrong number of arguments, traps
def programV2 : Request → M X Ret
  | .entry (.tip sender creator token amount) => do
    TipJarV2Fixture.tip sender creator token amount; pure .unit
  | .entry (.getTotalTips creator token) => do
    let x ← TipJarV2Fixture.getTotalTips creator token; pure (.i128 x)
  | .entry .getDataVersion => do let x ← TipJarV2Fixture.getDataVersion; pure (.u32 x)
  | .entry (.migrate admin) => do TipJarV2Fixture.migrate admin; pure .unit
  | .withdrawSelf creator token amount => do
    TipJarV2Fixture.withdraw creator token amount; pure .unit
  | _ => fail .trap

/-- The version that answers, where `code` tells which build a hash is of. -/
def installed (code : BytesN 32 → Version) (w : World X) : Version :=
  match w.wasm with
  | none => .v1
  | some hash => code hash

/-- The host runs the installed code. -/
def request (code : BytesN 32 → Version) (r : Request) : M X Ret :=
  ⟨fun ctx w =>
    match installed code w with
    | .v1 => (programV1 r).run ctx w
    | .v2 => (programV2 r).run ctx w⟩

section Dispatch

variable {code : BytesN 32 → Version} {chain : Chain X} {w w' : World X} {r : Ret}
  {call : Machine.Invocation Request}

/-- Once the new code is installed, a request runs it. -/
theorem wp_request_v2 (h : installed code w = .v2) {q : Request} {ctx} {Q : Ret → World X → Prop} :
    wp (request code q) ctx w Q ↔ wp (programV2 q) ctx w Q := by
  unfold wp request
  simp only [h]

theorem twp_request_v2 (h : installed code w = .v2) {q : Request} {ctx}
    {Q : Ret → World X → Prop} :
    twp (request code q) ctx w Q ↔ twp (programV2 q) ctx w Q := by
  unfold twp request
  simp only [h]

/-- While the first version is installed a request is a call of it. -/
theorem exec_request_v1 (h : installed code w = .v1) (sequence : UInt32) (auth : List Address)
    (e : Entrypoint) :
    Machine.exec (request code) chain ⟨sequence, auth, .entry e⟩ w
      = exec chain ⟨sequence, auth, e⟩ w := by
  have hload : (loadInstance : M X Unit).run (chain.ctx sequence auth) w
        = .ok ((), w) ∨ ∃ f, (loadInstance : M X Unit).run (chain.ctx sequence auth) w = .error f := by
    by_cases hlive : (chain.ctx sequence auth : Ctx DataKey DataKey.Val Event Error X).archival
        = true ∧ w.instLive < sequence.toNat
    · exact .inr ⟨_, if_pos hlive⟩
    · exact .inl (if_neg hlive)
  unfold Machine.exec exec Machine.invoke invoke
  rw [run_bind, run_bind]
  rcases hload with hok | ⟨f, herr⟩
  · rw [hok]
    show (request code (.entry e)).run _ w = _
    simp only [request, h]
    rfl
  · rw [herr]

/-- Before, it runs the old one. -/
theorem exec_v1 (h : installed code w = .v1)
    (hexec : Machine.exec (request code) chain call w = .ok (r, w')) :
    ∃ e, call.entry = .entry e ∧ exec chain ⟨call.sequence, call.auth, e⟩ w = .ok (r, w') := by
  obtain ⟨sequence, auth, q⟩ := call
  cases q with
  | entry e =>
    rw [exec_request_v1 h] at hexec
    exact ⟨e, rfl, hexec⟩
  | withdrawSelf creator token amount =>
    have hfail : wp (request code (.withdrawSelf creator token amount))
        (chain.ctx sequence auth) w fun _ _ => False := by
      intro a env' hrun
      simp only [request, h] at hrun
      cases hrun
    exact absurd hexec fun hok => Machine.exec_post hfail hok

end Dispatch

/-! ## What a call under the second version does -/

/-- The cases of a successful call under the second version. -/
inductive Effect2 (chain : Chain X) (call : Machine.Invocation Request) (w w' : World X) : Prop where
  | tipped (sender creator token : Address) (amount : I128)
      (entry : call.entry = .entry (.tip sender creator token amount))
      (h : TipJarV2Fixture.Tipped chain call.auth sender creator token amount w w')
  | withdrawn (creator token : Address) (amount : Option I128) (paid : I128)
      (entry : call.entry = .withdrawSelf creator token amount)
      (h : TipJarV2Fixture.Withdrawn chain call.auth creator token amount paid w w')
  | idle (tip : ∀ s c t a, call.entry ≠ .entry (.tip s c t a))
      (withdraw : ∀ c t a, call.entry ≠ .withdrawSelf c t a)
      (h : TipJarV2Fixture.Idle w w')

section Effects

variable {code : BytesN 32 → Version} {chain : Chain X} {w w' : World X} {r : Ret}
  {call : Machine.Invocation Request}

/-- A call of the new code does what `Effect2` lists. -/
theorem exec_effect2 (h : installed code w = .v2)
    (hexec : Machine.exec (request code) chain call w = .ok (r, w')) :
    Effect2 chain call w w' := by
  obtain ⟨sequence, auth, q⟩ := call
  refine Machine.exec_post ((wp_request_v2 h).mpr ?_) hexec (Q := fun _ w' => Effect2 chain _ w w')
  cases q with
  | withdrawSelf creator token amount =>
    simp only [programV2, wp_bind, wp_pure]
    refine wp_mono (TipJarV2Fixture.withdraw_spec creator token amount) ?_
    intro _ w' hw'
    obtain ⟨paid, hw'⟩ := hw'
    exact .withdrawn creator token amount paid rfl hw'
  | entry e =>
    cases e with
    | tip sender creator token amount =>
      simp only [programV2, wp_bind, wp_pure]
      refine wp_mono (TipJarV2Fixture.tip_spec sender creator token amount) ?_
      intro _ w' hw'
      exact .tipped sender creator token amount rfl hw'
    | getTotalTips creator token =>
      simp only [programV2, wp_bind, wp_pure]
      refine wp_mono (TipJarV2Fixture.getTotalTips_spec creator token) ?_
      intro _ w' hw'
      exact .idle (by simp) (by simp) hw'.2
    | getDataVersion =>
      simp only [programV2, wp_bind, wp_pure]
      refine wp_mono TipJarV2Fixture.getDataVersion_spec ?_
      intro _ w' hw'
      exact .idle (by simp) (by simp) hw'
    | migrate admin =>
      simp only [programV2, wp_bind, wp_pure]
      refine wp_mono (TipJarV2Fixture.migrate_spec admin) ?_
      intro _ w' hw'
      exact .idle (by simp) (by simp) hw'
    | _ => simp only [programV2, wp_fail]

/-- No request answered by the second version installs other code. -/
theorem Effect2.wasm (h : Effect2 chain call w w') : w'.wasm = w.wasm := by
  cases h with
  | tipped _ _ _ _ _ h => exact h.adds.wasm
  | withdrawn _ _ _ _ _ h => exact h.adds.wasm
  | idle _ _ h => exact h.wasm

/-- It writes no persistent entry but balances and totals. -/
theorem Effect2.frame (h : Effect2 chain call w w') {k : DataKey}
    (hbalance : ∀ c t, k ≠ .balance c t) (htotal : ∀ c t, k ≠ .total c t) :
    w'.pers.get k = w.pers.get k := by
  cases h with
  | tipped _ _ _ _ _ h => exact h.adds.frame k (hbalance _ _) (htotal _ _)
  | withdrawn _ _ _ _ _ h => exact h.adds.frame k (hbalance _ _) (htotal _ _)
  | idle _ _ h => rw [h.pers]

/-- The new code writes the data version and nothing else to the instance. -/
theorem Effect2.inst (h : Effect2 chain call w w') {k : DataKey} (hk : k ≠ .dataVersion) :
    w'.inst.get k = w.inst.get k := by
  cases h with
  | tipped _ _ _ _ _ h => rw [h.adds.inst]
  | withdrawn _ _ _ _ _ h => rw [h.adds.inst]
  | idle _ _ h => exact h.inst k hk

end Effects

/-! ## The debt under the second version -/

section Debt

variable {w w' : World X} {T : Address}

/-- Adding to one balance adds to the debt in its token. -/
theorem owed_of_adds {creator token : Address} {db dt : Int}
    (h : TipJarV2Fixture.Adds creator token db dt w w') :
    owed w' T = owed w T + if token = T then db else 0 := by
  have hv1 : owedV1 w' T = owedV1 w T := by
    unfold owedV1
    rw [h.inst, h.frame .feeBalance (by simp) (by simp),
      finsum_congr fun c => by rw [h.frame (.creatorBalance c) (by simp) (by simp)]]
  have hfee : w'.pers.get (.feeBalanceToken T) = w.pers.get (.feeBalanceToken T) :=
    h.frame _ (by simp) (by simp)
  have hother : ∀ c, c ≠ creator ∨ token ≠ T →
      counterVal (w'.pers.get (.balance c T)) = counterVal (w.pers.get (.balance c T)) := by
    intro c hc
    rw [h.frame (.balance c T) (by rintro heq; cases heq; simp at hc) (by simp)]
  unfold owed
  rw [hv1]
  unfold owedV2
  rw [hfee]
  by_cases hT : token = T
  · have hsum := finsum_update creator (balance_finite w T) fun c hc => hother c (.inl hc)
    have hbalance := h.balance
    rw [hT] at hbalance
    unfold TipJarV2Fixture.balanceOf at hbalance
    rw [if_pos hT, hsum]
    omega
  · rw [if_neg hT, finsum_congr fun c => hother c (.inr hT)]
    omega

/-- A call that moves nothing leaves what is owed. -/
theorem owed_of_idle (h : TipJarV2Fixture.Idle w w') : owed w' T = owed w T := by
  unfold owed owedV2 owedV1
  rw [h.pers, h.inst .token (by simp)]

end Debt

/-- The holding of `T` covers the debt in both layouts; under the first version the layouts are
apart, so that its migrations lose nothing. -/
structure Backed (code : BytesN 32 → Version) (chain : Chain X) (T : Address)
    (holding : X → Address → Nat) (w : World X) : Prop where
  covered : installed code w = .v1 → Covered chain T holding w
  v1Nonneg : V1Nonneg w
  covers : owed w T ≤ holding w.ext chain.self

section Backing

variable {code : BytesN 32 → Version} {chain : Chain X} {T : Address}
  {holding : X → Address → Nat} {w w' : World X} {call : Machine.Invocation Request} {r : Ret}

/-- The invariant of the old code implies the common one. -/
theorem Covered.backed (h : Covered chain T holding w) : Backed code chain T holding w where
  covered _ := h
  v1Nonneg := h.v1Nonneg
  covers := by
    rw [h.separate.owed_eq]
    exact h.covers

/-- A call of the first version keeps the debt covered, also the one that installs the second. -/
theorem Covered.exec (htoken : chain.ExactToken T holding) (h : Covered chain T holding w)
    {c : Call} (hself : chain.self ∉ c.auth) (hexec : TipJar.exec chain c w = .ok (r, w')) :
    Covered chain T holding w' := by
  have hstep : IsStep (TipJar.step chain) ⟨w, .call c, w'⟩ := (step_call_ok hexec).symm
  exact Covered.step htoken hstep hself h

/-- A request of the second version changes the debt by what it brings in. -/
theorem Effect2.backed (htoken : chain.ExactToken T holding) (heffect : Effect2 chain call w w')
    (hself : chain.self ∉ call.auth) (hv2 : installed code w = .v2)
    (h : Backed code chain T holding w) : Backed code chain T holding w' := by
  have hcovers := h.covers
  have hshrinks : V1Shrinks w w' := by
    intro k hk
    exact .inr (heffect.frame (by rintro c t rfl; cases hk) (by rintro c t rfl; cases hk))
  have hcovered : owed w' T ≤ holding w'.ext chain.self := by
    cases heffect with
    | tipped sender creator token amount entry h =>
      have hsender : sender ≠ chain.self := by
        rintro rfl
        exact hself h.authorised
      have hin := htoken.receives hsender h.ext
      rw [owed_of_adds h.adds]
      omega
    | withdrawn creator token amount paid entry h =>
      have hout := htoken.sends h.paid_pos.le h.ext
      rw [owed_of_adds h.adds]
      omega
    | idle _ _ h =>
      rw [owed_of_idle h, h.ext]
      exact hcovers
  have hstays : installed code w' = .v2 := by
    rw [← hv2]
    unfold installed
    rw [heffect.wasm]
  refine ⟨fun hv1 => ?_, h.v1Nonneg.shrink hshrinks, hcovered⟩
  rw [hstays] at hv1
  cases hv1

/-- By cases on the code that is installed. -/
theorem Backed.step (htoken : chain.ExactToken T holding)
    {o : Occ (World X) (Machine.Action Request X)}
    (hstep : IsStep (Machine.step (request code) chain) o)
    (hperm : Machine.Permitted chain holding o) (h : Backed code chain T holding o.before) :
    Backed code chain T holding o.after := by
  rcases Machine.isStep_cases hstep with ⟨call, hcall⟩ | hsame | ⟨x, hact, hx⟩
  · have hself := hperm.self_not_mem hcall
    obtain ⟨-, r, hexec⟩ := hcall
    cases hversion : installed code o.before with
    | v1 =>
      obtain ⟨e, -, hv1⟩ := exec_v1 hversion hexec
      exact (Covered.exec htoken (h.covered hversion) hself hv1).backed
    | v2 => exact (exec_effect2 hversion hexec).backed htoken hself hversion h
  · rw [hsame]
    exact h
  · have hkept := hperm.outside hact
    have hcovers := h.covers
    rw [hx]
    have hnonneg : V1Nonneg { o.before with ext := x } :=
      ⟨h.v1Nonneg.creatorBalance, h.v1Nonneg.feeBalance⟩
    refine ⟨fun hv1 => ?_, hnonneg, ?_⟩
    · have hcovered := h.covered hv1
      refine ⟨hcovered.admin, hcovered.separate, hnonneg, ?_⟩
      exact hcovered.covers.trans (by exact_mod_cast hkept)
    · show owed o.before T ≤ (holding x chain.self : Int)
      omega

/-- In every state that requests of either version reach from a start under the first version, with
upgrades on the way, the contract holds at least what it owes. -/
theorem solvent_across_upgrade (htoken : chain.ExactToken T holding)
    (h₀ : EscrowStart chain T holding w) (acts : List (Machine.Action Request X))
    (hperm : ∀ o ∈ trace (Machine.step (request code) chain) w acts,
      Machine.Permitted chain holding o) :
    owed (run (Machine.step (request code) chain) w acts) T
        ≤ holding (run (Machine.step (request code) chain) w acts).ext chain.self ∧
      owedV2 (run (Machine.step (request code) chain) w acts) T
        ≤ holding (run (Machine.step (request code) chain) w acts).ext chain.self := by
  have hbacked : Backed code chain T holding (run (Machine.step (request code) chain) w acts) :=
    run_invariant_of_trace _ h₀.covered.backed fun o ho hbefore =>
      hbefore.step htoken (isStep_of_mem _ ho) (hperm o ho)
  have hcovers := hbacked.covers
  have hv1 := hbacked.v1Nonneg.owedV1_nonneg T
  refine ⟨hcovers, ?_⟩
  unfold owed at hcovers
  omega

end Backing

/-- A network on which the sample hash is a build of the second version. -/
def sampleCode (hash : BytesN 32) : Version := if hash = sampleHash then .v2 else .v1

/-- A tip with a fee under the first version, the upgrade, a tip and a withdrawal under the second
while the first one's pause is still stored. -/
def upgradeRun : List (Machine.Action Request Balances) :=
  [.call ⟨2, [⟨2⟩], .entry (.setFee ⟨2⟩ 1000)⟩, .call ⟨3, [⟨5⟩], .entry (.tip ⟨5⟩ ⟨3⟩ ⟨1⟩ 105)⟩,
    .call ⟨4, [⟨2⟩], .entry (.proposeUpgrade ⟨2⟩ sampleHash)⟩,
    .call ⟨5, [⟨2⟩], .entry (.pauseAll ⟨2⟩)⟩, .call ⟨54, [], .entry .executeUpgrade⟩,
    .call ⟨55, [⟨5⟩], .entry (.tip ⟨5⟩ ⟨3⟩ ⟨1⟩ 20)⟩,
    .call ⟨56, [⟨3⟩], .withdrawSelf ⟨3⟩ ⟨1⟩ (some 40)⟩]

/-- The calls of the run are signed by those they concern. -/
theorem upgradeRun_permitted : ∀ o ∈ trace (Machine.step (request sampleCode) sampleChain)
    (sampleWorld 50) upgradeRun, Machine.Permitted sampleChain (fun x a => x ⟨1⟩ a) o := by
  intro o ho
  have hact : o.act ∈ upgradeRun := by
    rw [← map_act_trace (Machine.step (request sampleCode) sampleChain) (sampleWorld 50) upgradeRun]
    exact List.mem_map_of_mem ho
  unfold Machine.Permitted
  simp only [upgradeRun, List.mem_cons, List.not_mem_nil, or_false] at hact
  rcases hact with h | h | h | h | h | h | h
  all_goals
    rw [h]
    simp [sampleChain, standardChain]

theorem solvent_across_upgrade_sample :
    let w := run (Machine.step (request sampleCode) sampleChain) (sampleWorld 50) upgradeRun
    installed sampleCode w = .v2 ∧ w.ext ⟨1⟩ ⟨0⟩ = 1085 ∧ owed w ⟨1⟩ ≤ 1085 ∧
      owedV2 w ⟨1⟩ ≤ 1085 := by
  intro w
  exact ⟨rfl, rfl, solvent_across_upgrade (standardChain_exactToken ⟨0⟩ ⟨1⟩)
    (.init _ _ _ sampleWorld_afterInit) upgradeRun upgradeRun_permitted⟩

/-! ## The figures under both versions -/

/-- The occurrence as one of the machine that only has the first version; a request that version
has no name for is nothing to it. -/
def asV1 (o : Occ (World X) (Machine.Action Request X)) : Occ (World X) (Action X) where
  before := o.before
  act :=
    match o.act with
    | .call ⟨sequence, auth, .entry e⟩ => .call ⟨sequence, auth, e⟩
    | _ => .outside o.after.ext
  after := o.after

section Contributions

variable (code : BytesN 32 → Version) (chain : Chain X) (c T : Address)
  (o : Occ (World X) (Machine.Action Request X))

/-- The amount of a successful tip for `(c, T)`. -/
def tipIn : Int :=
  match installed code o.before with
  | .v1 => tipAmount chain c T (asV1 o)
  | .v2 =>
    match Machine.accepted (request code) chain o with
    | some (.entry (.tip _ creator token amount)) =>
      if creator = c ∧ token = T then amount.val else 0
    | _ => 0

/-- Its fee; the second version charges none. -/
def feeIn : Int :=
  match installed code o.before with
  | .v1 => tipFee chain c T (asV1 o)
  | .v2 => 0

/-- What a successful withdrawal for `(c, T)` paid. -/
def paidOut : Int :=
  match installed code o.before with
  | .v1 => withdrawnAmount chain c T (asV1 o)
  | .v2 =>
    match Machine.accepted (request code) chain o with
    | some (.withdrawSelf creator token _) =>
      if creator = c ∧ token = T then paidBy (asV1 o) else 0
    | _ => 0

end Contributions

/-- The figures after an occurrence are those before plus its contributions. -/
structure FiguresMove (code : BytesN 32 → Version) (chain : Chain X)
    (o : Occ (World X) (Machine.Action Request X)) : Prop where
  total : ∀ c T, logicalTotal o.after c T = logicalTotal o.before c T + tipIn code chain c T o
  balance : ∀ c T, logicalBalance o.after c T = logicalBalance o.before c T
    + (tipIn code chain c T o - feeIn code chain c T o - paidOut code chain c T o)

section Figures

variable {code : BytesN 32 → Version} {chain : Chain X} {w w' : World X}
  {call : Machine.Invocation Request} {o : Occ (World X) (Machine.Action Request X)}

/-- Without v1 counters both versions read the same total. -/
theorem NoV1.logicalTotal_eq (hv1 : NoV1 w) (creator token : Address) :
    logicalTotal w creator token = TipJarV2Fixture.totalOf w creator token := by
  have hnone : w.pers.get (.creatorTotal creator) = none := hv1 _ rfl
  rw [logicalTotal, totalEntry, hnone]
  simp [TipJarV2Fixture.totalOf, counterVal]

/-- And the same balance. -/
theorem NoV1.balanceOf_eq (hv1 : NoV1 w) (creator token : Address) :
    logicalBalance w creator token = TipJarV2Fixture.balanceOf w creator token :=
  hv1.logicalBalance_eq creator token

/-- The new code writes no v1 counter. -/
theorem NoV1.effect2 (hv1 : NoV1 w) (h : Effect2 chain call w w') : NoV1 w' := by
  intro k hk
  rw [h.frame (by rintro c t rfl; cases hk) (by rintro c t rfl; cases hk)]
  exact hv1 k hk

/-- With nothing left to migrate, adding to the entries adds to the figures. -/
theorem figures_of_adds {creator token : Address} {db dt : Int} (hv1 : NoV1 w) (hv1' : NoV1 w')
    (h : TipJarV2Fixture.Adds creator token db dt w w') (c T : Address) :
    logicalTotal w' c T = logicalTotal w c T + (if creator = c ∧ token = T then dt else 0) ∧
      logicalBalance w' c T
        = logicalBalance w c T + (if creator = c ∧ token = T then db else 0) := by
  rw [hv1.logicalTotal_eq, hv1'.logicalTotal_eq, hv1.balanceOf_eq, hv1'.balanceOf_eq]
  by_cases hpair : creator = c ∧ token = T
  · obtain ⟨rfl, rfl⟩ := hpair
    rw [if_pos ⟨rfl, rfl⟩, if_pos ⟨rfl, rfl⟩]
    exact ⟨h.total, h.balance⟩
  · have hbalance : DataKey.balance c T ≠ .balance creator token := by
      simpa [eq_comm] using hpair
    have htotal : DataKey.total c T ≠ .total creator token := by
      simpa [eq_comm] using hpair
    rw [if_neg hpair, if_neg hpair]
    unfold TipJarV2Fixture.totalOf TipJarV2Fixture.balanceOf
    rw [h.frame _ (by simp) htotal, h.frame _ hbalance (by simp)]
    omega

/-- While the first version is installed the machine steps as that version's own machine. -/
theorem isStep_asV1 (hversion : installed code o.before = .v1)
    (hstep : IsStep (Machine.step (request code) chain) o) :
    IsStep (TipJar.step chain) (asV1 o) := by
  obtain ⟨before, act, after⟩ := o
  unfold IsStep at hstep ⊢
  cases act with
  | outside x =>
    have hafter : after = { before with ext := x } := hstep
    subst hafter
    rfl
  | call d =>
    obtain ⟨sequence, auth, q⟩ := d
    cases q with
    | entry e =>
      have hexec : Machine.exec (request code) chain ⟨sequence, auth, .entry e⟩ before
          = exec chain ⟨sequence, auth, e⟩ before := exec_request_v1 hversion sequence auth e
      show after = TipJar.step chain before (.call ⟨sequence, auth, e⟩)
      simp only [Machine.step] at hstep
      cases hres : exec chain ⟨sequence, auth, e⟩ before with
      | ok res =>
        rw [hexec, hres] at hstep
        rw [step_call_ok hres]
        exact hstep
      | error f =>
        rw [hexec, hres] at hstep
        rw [step_call_error hres]
        exact hstep
    | withdrawSelf creator token amount =>
      have hafter : after = before := by
        simp only [Machine.step] at hstep
        cases hexec : Machine.exec (request code) chain
            ⟨sequence, auth, .withdrawSelf creator token amount⟩ before with
        | error e =>
          rw [hexec] at hstep
          exact hstep
        | ok res =>
          obtain ⟨e, hentry, -⟩ := exec_v1 hversion hexec
          cases hentry
      subst hafter
      rfl

/-- A step of the old code moves the figures by its tip or withdrawal. -/
theorem figures_v1 (hversion : installed code o.before = .v1)
    (hstep : IsStep (Machine.step (request code) chain) o)
    (hadmin : (o.before.inst.get .admin).isSome) : FiguresMove code chain o := by
  have h := figures_step (isStep_asV1 hversion hstep) hadmin
  refine ⟨fun c T => ?_, fun c T => ?_⟩
  · simp only [tipIn, hversion]
    exact h.total c T
  · simp only [tipIn, feeIn, paidOut, hversion]
    exact h.balance c T

/-- An occurrence under the second version that no request accepted contributes nothing. -/
theorem figures_unaccepted (hversion : installed code o.before = .v2) {x : X}
    (haccepted : Machine.accepted (request code) chain o = none)
    (hafter : o.after = { o.before with ext := x }) : FiguresMove code chain o := by
  refine ⟨fun c T => ?_, fun c T => ?_⟩
  · simp only [tipIn, hversion, haccepted, hafter]
    exact (Int.add_zero _).symm
  · simp only [tipIn, feeIn, paidOut, hversion, haccepted, hafter]
    exact (Int.add_zero _).symm

/-- So does a step of the new code. -/
theorem figures_v2 (hversion : installed code o.before = .v2) (hv1 : NoV1 o.before)
    (hcall : Machine.Succeeds (request code) chain o call) : FiguresMove code chain o := by
  have haccepted := Machine.accepted_of_succeeds hcall
  obtain ⟨-, r, hexec⟩ := hcall
  have heffect := exec_effect2 hversion hexec
  have hv1' := hv1.effect2 heffect
  cases heffect with
  | tipped sender creator token amount entry h =>
    rw [entry] at haccepted
    refine ⟨fun c T => ?_, fun c T => ?_⟩
    · simp only [tipIn, hversion, haccepted]
      exact (figures_of_adds hv1 hv1' h.adds c T).1
    · simp only [tipIn, feeIn, paidOut, hversion, haccepted, Int.sub_zero]
      exact (figures_of_adds hv1 hv1' h.adds c T).2
  | withdrawn creator token amount paid entry h =>
    have hpaid : paidBy (asV1 o) = paid.val :=
      paidBy_eq (t := ⟨token, chain.self, creator, paid⟩) h.transfers
    rw [entry] at haccepted
    refine ⟨fun c T => ?_, fun c T => ?_⟩
    · rw [(figures_of_adds hv1 hv1' h.adds c T).1]
      simp [tipIn, hversion, haccepted]
    · rw [(figures_of_adds hv1 hv1' h.adds c T).2]
      simp only [tipIn, feeIn, paidOut, hversion, haccepted, hpaid]
      split <;> omega
  | idle htip hwithdraw h =>
    have hsame : ledger o.after = ledger o.before :=
      ledger_congr (h.inst _ (by simp)) fun k _ => by rw [h.pers]
    have htotal : ∀ c T, logicalTotal o.after c T = logicalTotal o.before c T := fun c T =>
      congrFun (congrFun (congrArg Ledger.total hsame) c) T
    have hbalance : ∀ c T, logicalBalance o.after c T = logicalBalance o.before c T := fun c T =>
      congrFun (congrFun (congrArg Ledger.balance hsame) c) T
    have hnone : ∀ c T, tipIn code chain c T o = 0 ∧ paidOut code chain c T o = 0 := by
      intro c T
      simp only [tipIn, paidOut, hversion, haccepted]
      cases hentry : call.entry with
      | withdrawSelf a b d => exact absurd hentry (hwithdraw a b d)
      | entry e =>
        cases e with
        | tip a b d f => exact absurd hentry (htip a b d f)
        | _ => exact ⟨rfl, rfl⟩
    refine ⟨fun c T => ?_, fun c T => ?_⟩
    · rw [htotal, (hnone c T).1, Int.add_zero]
    · rw [hbalance, (hnone c T).1, (hnone c T).2]
      simp [feeIn, hversion]

end Figures

/-! ## Runs from `init` -/

section FromInit

variable {code : BytesN 32 → Version} {chain : Chain X} {token admin : Address} {D : UInt32}
  {w w' w₀ : World X} {call : Machine.Invocation Request}
  {o : Occ (World X) (Machine.Action Request X)} {acts : List (Machine.Action Request X)}

/-- Of the second version's requests only tips and withdrawals touch the figures, fairly. -/
theorem sound_of_effect2 (h : Effect2 chain call w w') (hv1 : NoV1 w) (hsound : (ledger w).Sound) :
    (ledger w').Sound := by
  have hv1' := hv1.effect2 h
  have hfee : ∀ T, logicalFee w' T = logicalFee w T := fun T =>
    logicalFee_congr (h.inst (by simp)) (h.frame (by simp) (by simp)) (h.frame (by simp) (by simp))
  have hfees : ∀ T, 0 ≤ logicalFee w' T := by
    intro T
    rw [hfee]
    exact hsound.fee_nonneg T
  cases h with
  | tipped sender creator token amount entry h =>
    have hpos := h.amount_pos
    refine ⟨fun c T => ?_, fun c T => ?_, hfees⟩
    · have hb := hsound.balance_nonneg c T
      show 0 ≤ logicalBalance w' c T
      rw [(figures_of_adds hv1 hv1' h.adds c T).2]
      change 0 ≤ logicalBalance w c T at hb
      split <;> omega
    · have hb := hsound.balance_le c T
      show logicalBalance w' c T ≤ logicalTotal w' c T
      rw [(figures_of_adds hv1 hv1' h.adds c T).1, (figures_of_adds hv1 hv1' h.adds c T).2]
      change logicalBalance w c T ≤ logicalTotal w c T at hb
      omega
  | withdrawn creator token amount paid entry h =>
    have hpos := h.paid_pos
    have hle := h.paid_le
    rw [← hv1.balanceOf_eq] at hle
    refine ⟨fun c T => ?_, fun c T => ?_, hfees⟩
    · have hb := hsound.balance_nonneg c T
      show 0 ≤ logicalBalance w' c T
      rw [(figures_of_adds hv1 hv1' h.adds c T).2]
      change 0 ≤ logicalBalance w c T at hb
      split
      · next hpair =>
        obtain ⟨rfl, rfl⟩ := hpair
        omega
      · omega
    · have hb := hsound.balance_le c T
      show logicalBalance w' c T ≤ logicalTotal w' c T
      rw [(figures_of_adds hv1 hv1' h.adds c T).1, (figures_of_adds hv1 hv1' h.adds c T).2]
      change logicalBalance w c T ≤ logicalTotal w c T at hb
      split <;> omega
  | idle _ _ h =>
    rw [ledger_congr (h.inst _ (by simp)) fun k _ => by rw [h.pers]]
    exact hsound

/-- The new code keeps what `init` has set up. -/
theorem FromInit.effect2 (h : FromInit w) (heffect : Effect2 chain call w w') : FromInit w' where
  admin := by
    rw [heffect.inst (by simp)]
    exact h.admin
  rate := by
    unfold feeRate
    rw [heffect.inst (by simp)]
    exact h.rate
  pause := by
    unfold pauseStateOf
    rw [heffect.inst (by simp)]
    exact h.pause
  noV1 := NoV1.effect2 h.noV1 heffect
  sound := sound_of_effect2 heffect h.noV1 h.sound

/-- What holds of every state reachable from `init` under the first version holds across the
upgrade too. -/
theorem FromInit.request (h : FromInit o.before)
    (hstep : IsStep (Machine.step (request code) chain) o) : FromInit o.after := by
  cases hversion : installed code o.before with
  | v1 =>
    have hv1 : (asV1 o).after = TipJar.step chain (asV1 o).before (asV1 o).act :=
      isStep_asV1 hversion hstep
    show FromInit (asV1 o).after
    rw [hv1]
    exact FromInit.step h _
  | v2 =>
    rcases Machine.succeeds_or_outside hstep with ⟨call, -, r, hexec⟩ | ⟨x, hx⟩
    · exact h.effect2 (exec_effect2 hversion hexec)
    · rw [hx]
      exact ⟨h.admin, h.rate, h.pause, h.noV1, h.sound⟩

/-- By cases on the code that is installed. -/
theorem figures_request (h : FromInit o.before)
    (hstep : IsStep (Machine.step (request code) chain) o) : FiguresMove code chain o := by
  cases hversion : installed code o.before with
  | v1 => exact figures_v1 hversion hstep h.admin
  | v2 =>
    by_cases hcalled : ∃ call, Machine.Succeeds (request code) chain o call
    · obtain ⟨call, hcall⟩ := hcalled
      exact figures_v2 hversion h.noV1 hcall
    · have hnone := Machine.accepted_of_not_succeeds hstep (not_exists.mp hcalled)
      rcases Machine.succeeds_or_outside hstep with hcall | ⟨x, hx⟩
      · exact absurd hcall hcalled
      · exact figures_unaccepted hversion hnone hx

/-- By induction over the run. -/
theorem AfterInit.across_fromInit (h₀ : AfterInit chain token admin D w₀) :
    FromInit (run (Machine.step (request code) chain) w₀ acts) :=
  run_invariant_of_trace _ h₀.fromInit fun _ ho hbefore => hbefore.request (isStep_of_mem _ ho)

/-- Hence every step of the run moves the figures as it should. -/
theorem AfterInit.across_figures (h₀ : AfterInit chain token admin D w₀)
    (ho : o ∈ trace (Machine.step (request code) chain) w₀ acts) : FiguresMove code chain o := by
  have hkeeps : ∀ s a, FromInit s → FromInit (Machine.step (request code) chain s a) := by
    intro s a hs
    have hstep : IsStep (Machine.step (request code) chain)
        ⟨s, a, Machine.step (request code) chain s a⟩ := rfl
    exact FromInit.request hs hstep
  have hbefore : FromInit o.before := trace_invariant _ hkeeps h₀.fromInit ho
  exact figures_request hbefore (isStep_of_mem _ ho)

end FromInit

/-- Every successful request of `get_total_tips` returns `x`, whichever version answers it; and on
a host that restores archived entries every such request succeeds. -/
def ReadsTotal (code : BytesN 32 → Version) (chain : Chain X) (w : World X) (c T : Address)
    (x : Int) : Prop :=
  (∀ sequence auth r w',
    Machine.exec (request code) chain ⟨sequence, auth, .entry (.getTotalTips c T)⟩ w
      = .ok (r, w') → ∃ v, r = .i128 v ∧ v.val = x) ∧
  (chain.archival = false → ∀ sequence auth, ∃ r w',
    Machine.exec (request code) chain ⟨sequence, auth, .entry (.getTotalTips c T)⟩ w = .ok (r, w'))

/-- The accounts after the history `tr`, part of it under either version. -/
structure AccountsAcross (code : BytesN 32 → Version) (chain : Chain X)
    (tr : List (Occ (World X) (Machine.Action Request X))) (w : World X) : Prop where
  totalTips : ∀ c T, ReadsTotal code chain w c T (tr.map (tipIn code chain c T)).sum
  balance : ∀ c T, logicalBalance w c T
    = (tr.map fun o => tipIn code chain c T o - feeIn code chain c T o).sum
      - (tr.map (paidOut code chain c T)).sum
  bounds : ∀ c T, 0 ≤ logicalBalance w c T ∧ logicalBalance w c T ≤ logicalTotal w c T

section Accounts

variable {code : BytesN 32 → Version} {chain : Chain X} {token admin : Address} {D : UInt32}
  {w w₀ : World X}

theorem NoV1.readsTotal (hv1 : NoV1 w) (c T : Address) :
    ReadsTotal code chain w c T (logicalTotal w c T) := by
  cases hversion : installed code w with
  | v1 =>
    have hanswers : Answers chain w (.getTotalTips c T) (logicalTotal w c T) :=
      getTotalTips_answers c T
    refine ⟨fun sequence auth r w' hexec => ?_, fun harchival sequence auth => ?_⟩
    · rw [exec_request_v1 hversion] at hexec
      exact hanswers.1 sequence auth r w' hexec
    · rw [exec_request_v1 hversion]
      exact hanswers.2 harchival sequence auth
  | v2 =>
    refine ⟨fun sequence auth r w' hexec => ?_, fun harchival sequence auth => ?_⟩
    · refine Machine.exec_post ((wp_request_v2 hversion).mpr ?_) hexec
        (Q := fun r _ => ∃ v, r = .i128 v ∧ v.val = logicalTotal w c T)
      simp only [programV2, wp_bind, wp_pure]
      refine wp_mono (TipJarV2Fixture.getTotalTips_spec c T) ?_
      intro total _ htotal
      exact ⟨total, rfl, by rw [htotal.1, hv1.logicalTotal_eq]⟩
    · have hlive : InstanceLive (chain.ctx sequence auth : Ctx DataKey DataKey.Val Event Error X)
          w := by
        simp [InstanceLive, harchival]
      have hruns : twp (request code (.entry (.getTotalTips c T))) (chain.ctx sequence auth) w
          fun _ _ => True := by
        rw [twp_request_v2 hversion]
        simp only [programV2, twp_bind, twp_pure]
        exact TipJarV2Fixture.getTotalTips_runs harchival c T
      obtain ⟨r, w', hexec, -⟩ :=
        Machine.exec_of_twp ⟨sequence, auth, Request.entry (.getTotalTips c T)⟩ hlive hruns
      exact ⟨r, w', hexec⟩

/-- The total is the sum of all tips, before and after the upgrade. -/
theorem logicalTotal_across (h₀ : AfterInit chain token admin D w₀)
    (acts : List (Machine.Action Request X)) (c T : Address) :
    logicalTotal (run (Machine.step (request code) chain) w₀ acts) c T
      = ((trace (Machine.step (request code) chain) w₀ acts).map (tipIn code chain c T)).sum := by
  have hzero : logicalTotal w₀ c T = 0 := by
    show (ledger w₀).total c T = 0
    rw [h₀.ledger_zero]
    rfl
  rw [run_eq_add_sum _ (f := fun w => logicalTotal w c T)
    fun o ho => (h₀.across_figures ho).total c T, hzero, Int.zero_add]

/-- The balance is what was tipped, less fees and withdrawals. -/
theorem logicalBalance_across (h₀ : AfterInit chain token admin D w₀)
    (acts : List (Machine.Action Request X)) (c T : Address) :
    logicalBalance (run (Machine.step (request code) chain) w₀ acts) c T
      = ((trace (Machine.step (request code) chain) w₀ acts).map fun o =>
          tipIn code chain c T o - feeIn code chain c T o).sum
        - ((trace (Machine.step (request code) chain) w₀ acts).map (paidOut code chain c T)).sum := by
  have hzero : logicalBalance w₀ c T = 0 := by
    show (ledger w₀).balance c T = 0
    rw [h₀.ledger_zero]
    rfl
  rw [run_eq_add_sum _ (f := fun w => logicalBalance w c T)
    fun o ho => (h₀.across_figures ho).balance c T, hzero, Int.zero_add, sum_map_sub]

/-- In every run from `init`, with upgrades on the way, the totals and balances are the sums of the
tips and withdrawals of both versions, and either version reports the same total. -/
theorem accounts_across_upgrade (h₀ : AfterInit chain token admin D w₀)
    (acts : List (Machine.Action Request X)) :
    AccountsAcross code chain (trace (Machine.step (request code) chain) w₀ acts)
      (run (Machine.step (request code) chain) w₀ acts) := by
  have hend : FromInit (run (Machine.step (request code) chain) w₀ acts) := h₀.across_fromInit
  refine ⟨fun c T => ?_, logicalBalance_across h₀ acts, fun c T => ?_⟩
  · rw [← logicalTotal_across h₀]
    exact NoV1.readsTotal hend.noV1 c T
  · exact ⟨hend.sound.balance_nonneg c T, hend.sound.balance_le c T⟩

end Accounts

theorem accounts_across_upgrade_sample :
    let w := run (Machine.step (request sampleCode) sampleChain) (sampleWorld 50) upgradeRun
    logicalTotal w ⟨3⟩ ⟨1⟩ = 125 ∧ logicalBalance w ⟨3⟩ ⟨1⟩ = 75 ∧
    AccountsAcross sampleCode sampleChain
      (trace (Machine.step (request sampleCode) sampleChain) (sampleWorld 50) upgradeRun) w := by
  intro w
  exact ⟨rfl, rfl, accounts_across_upgrade sampleWorld_afterInit upgradeRun⟩

/-! ## What the second version owes can be withdrawn -/

/-- Under the second version every creator can withdraw any part of its balance to itself, whatever
the first version's settings are, and no later request brings back the first version or touches an
entry that is no balance and no total. -/
structure Redeemable (code : BytesN 32 → Version) (chain : Chain X) (T : Address)
    (holding : X → Address → Nat) (w : World X) : Prop where
  creator : ∀ c (a : I128), 0 < a.val → a.val ≤ logicalBalance w c T → ∀ sequence auth, c ∈ auth →
    ∃ r w', Machine.exec (request code) chain ⟨sequence, auth, .withdrawSelf c T (some a)⟩ w
        = .ok (r, w') ∧
      Pays chain T holding c a w w' ∧ logicalBalance w' c T = logicalBalance w c T - a.val
  final : ∀ acts, installed code (run (Machine.step (request code) chain) w acts) = .v2 ∧
    ∀ k, (∀ c t, k ≠ .balance c t) → (∀ c t, k ≠ .total c t) →
      (run (Machine.step (request code) chain) w acts).pers.get k = w.pers.get k

section Redemption

variable {code : BytesN 32 → Version} {chain : Chain X} {T token admin : Address}
  {holding : X → Address → Nat} {D : UInt32} {w w₀ : World X}

/-- The new code has no upgrade of its own: it stays. -/
theorem final_v2 (hversion : installed code w = .v2) (acts : List (Machine.Action Request X)) :
    installed code (run (Machine.step (request code) chain) w acts) = .v2 ∧
      ∀ k, (∀ c t, k ≠ .balance c t) → (∀ c t, k ≠ .total c t) →
        (run (Machine.step (request code) chain) w acts).pers.get k = w.pers.get k := by
  refine run_invariant_of_trace _ (P := fun v : World X => installed code v = .v2 ∧
    ∀ k, (∀ c t, k ≠ .balance c t) → (∀ c t, k ≠ .total c t) → v.pers.get k = w.pers.get k)
    ⟨hversion, fun _ _ _ => rfl⟩ ?_
  intro o ho hbefore
  obtain ⟨hv2, hkept⟩ := hbefore
  rcases Machine.succeeds_or_outside (isStep_of_mem _ ho) with ⟨call, -, r, hexec⟩ | ⟨x, hx⟩
  · have heffect := exec_effect2 hv2 hexec
    refine ⟨?_, fun k hbalance htotal => ?_⟩
    · unfold installed
      rw [heffect.wasm]
      exact hv2
    · rw [heffect.frame hbalance htotal]
      exact hkept k hbalance htotal
  · rw [hx]
    exact ⟨hv2, hkept⟩

/-- The new `withdraw` succeeds and pays what the old code has credited. -/
theorem creator_paid_v2 (htoken : chain.PayingToken T holding) (harchival : chain.archival = false)
    (hversion : installed code w = .v2) (hw : FromInit w) (hbacked : Backed code chain T holding w)
    {c : Address} {a : I128} (hpos : 0 < a.val) (hle : a.val ≤ logicalBalance w c T)
    (sequence : UInt32) {auth : List Address} (hauth : c ∈ auth) :
    ∃ r w', Machine.exec (request code) chain ⟨sequence, auth, .withdrawSelf c T (some a)⟩ w
        = .ok (r, w') ∧
      Pays chain T holding c a w w' ∧ logicalBalance w' c T = logicalBalance w c T - a.val := by
  have hseparate : Separate w := by
    intro T₀ _ d
    exact ⟨fun hne => absurd (hw.noV1 _ rfl) hne, fun hne => absurd (hw.noV1 _ rfl) hne⟩
  have howed := (hw.sound.le_owed (ledger_finite hseparate T) c).1
  rw [← hseparate.owed_eq] at howed
  have hholds : a.val ≤ (holding w.ext chain.self : Int) :=
    hle.trans (howed.trans hbacked.covers)
  have hpays := htoken.pays ⟨T, chain.self, c, a⟩ w.ext rfl rfl hpos hholds
  have hlive : InstanceLive (chain.ctx sequence auth : Ctx DataKey DataKey.Val Event Error X) w := by
    simp [InstanceLive, harchival]
  have hruns : twp (request code (.withdrawSelf c T (some a))) (chain.ctx sequence auth) w
      fun _ _ => True := by
    rw [NoV1.balanceOf_eq hw.noV1] at hle
    rw [twp_request_v2 hversion]
    simp only [programV2, twp_bind, twp_pure]
    exact TipJarV2Fixture.withdraw_runs harchival hauth hpos hle hpays
  obtain ⟨r, w', hexec, -⟩ :=
    Machine.exec_of_twp ⟨sequence, auth, Request.withdrawSelf c T (some a)⟩ hlive hruns
  refine ⟨r, w', hexec, ?_⟩
  have hv1' := NoV1.effect2 hw.noV1 (exec_effect2 hversion hexec)
  cases exec_effect2 hversion hexec with
  | tipped _ _ _ _ entry _ => cases entry
  | idle _ hwithdraw _ => exact absurd rfl (hwithdraw c T (some a))
  | withdrawn creator token amount paid entry h =>
    cases entry
    obtain rfl : paid = a := I128.ext h.paid_eq
    refine ⟨⟨h.transfers, htoken.moves _ _ _ rfl h.ext⟩, ?_⟩
    rw [(figures_of_adds hw.noV1 hv1' h.adds c T).2, if_pos ⟨rfl, rfl⟩]
    omega

/-- After an upgrade to the second version, in every state reachable from `init`, no creator's
balance is stuck. -/
theorem redeemable_across_upgrade (htoken : chain.PayingToken T holding)
    (harchival : chain.archival = false) (h₀ : AfterInit chain token admin D w₀)
    (acts : List (Machine.Action Request X))
    (hperm : ∀ o ∈ trace (Machine.step (request code) chain) w₀ acts,
      Machine.Permitted chain holding o)
    (hversion : installed code (run (Machine.step (request code) chain) w₀ acts) = .v2) :
    Redeemable code chain T holding (run (Machine.step (request code) chain) w₀ acts) := by
  have hw : FromInit (run (Machine.step (request code) chain) w₀ acts) := h₀.across_fromInit
  have hbacked : Backed code chain T holding (run (Machine.step (request code) chain) w₀ acts) :=
    run_invariant_of_trace _ (EscrowStart.init token admin D h₀).covered.backed
      fun o ho hbefore => hbefore.step htoken.toExactToken (isStep_of_mem _ ho) (hperm o ho)
  refine ⟨fun c a hpos hle sequence auth hauth => ?_, final_v2 hversion⟩
  exact creator_paid_v2 htoken harchival hversion hw hbacked hpos hle sequence hauth

end Redemption

theorem redeemable_across_upgrade_sample :
    let w := run (Machine.step (request sampleCode) sampleChain) (sampleWorld 50) upgradeRun
    effectivePauseFlags 57 ⟨pauseFlagAll, 0, 0, none⟩ &&& pauseFlagWithdrawals ≠ 0 ∧
    pauseStateOf w = some ⟨pauseFlagAll, 0, 0, none⟩ ∧
    ∃ r w', Machine.exec (request sampleCode) sampleChain
        ⟨57, [⟨3⟩], .withdrawSelf ⟨3⟩ ⟨1⟩ (some 75)⟩ w = .ok (r, w') ∧
      Pays sampleChain ⟨1⟩ (fun x a => x ⟨1⟩ a) ⟨3⟩ 75 w w' ∧
      logicalBalance w' ⟨3⟩ ⟨1⟩ = logicalBalance w ⟨3⟩ ⟨1⟩ - 75 := by
  intro w
  have hredeem := redeemable_across_upgrade (standardChain_payingToken ⟨0⟩ ⟨1⟩) rfl
    sampleWorld_afterInit upgradeRun upgradeRun_permitted rfl
  have hle : (75 : I128).val ≤ logicalBalance w ⟨3⟩ ⟨1⟩ := by
    show (75 : Int) ≤ 75
    exact le_rfl
  exact ⟨by decide, rfl, hredeem.creator ⟨3⟩ 75 (by decide) hle 57 [⟨3⟩] (by decide)⟩

end TipJar
