import StellarTipjar.TipJar.Breaker
import StellarTipjar.TipJar.Accounting

/-!
# TipJar — pauses by the admin

An admin pause lasts until the admin lifts it. While a feature is paused its entrypoints fail, and
those of the other feature go on as before: apart from the gate, no entrypoint reads the pause
entry, so a call that succeeded before the pause succeeds after it (`other_feature_spared`).
-/

namespace TipJar

open Lib Lib.Mask Soroban Contract

variable {X : Type}

/-- `o` is a successful pause that names `f`. -/
def PausesFeature (chain : Chain X) (o : Occ (World X) (Action X)) (f : Feature)
    (caller : Address) : Prop :=
  ∃ call flag, Succeeds chain o call ∧ call.entry.pauses = some (caller, flag) ∧
    flag &&& f.flag = f.flag

/-- The one who pauses is the admin. -/
def AdminPauses (chain : Chain X) (o : Occ (World X) (Action X)) (f : Feature) : Prop :=
  ∃ caller, PausesFeature chain o f caller ∧ o.before.inst.get .admin = some caller

/-- `o` is a successful unpause that names `f`; only the admin can unpause. -/
def UnpausesFeature (chain : Chain X) (o : Occ (World X) (Action X)) (f : Feature) : Prop :=
  ∃ call flag, Succeeds chain o call ∧ call.entry.unpauses = some flag ∧ flag &&& f.flag = f.flag

/-- The admin's bit of `f` is set. -/
def AdminHolds (f : Feature) (w : World X) : Prop :=
  ∃ state, breakerOf w = some state ∧ bit state.adminFlags f.index = true

/-- Neither the admin's nor the guardian's bit of `f` is set. -/
def Cleared (f : Feature) (w : World X) : Prop :=
  ∃ state, breakerOf w = some state ∧ bit state.adminFlags f.index = false ∧
    bit state.guardianFlags f.index = false

/-! ## Along a run -/

section Bits

variable {chain : Chain X} {o : Occ (World X) (Action X)} {f : Feature} {w : World X}

theorem effective_iff {t : UInt32} :
    Effective f t w ↔ ∃ state, breakerOf w = some state ∧
      bit (effectivePauseFlags t state) f.index = true := by
  unfold Effective
  simp only [flagsAt_eq, and_flag_eq_flag, Option.map_eq_some_iff]
  constructor
  · rintro ⟨_, ⟨state, hstate, rfl⟩, hbit⟩
    exact ⟨state, hstate, hbit⟩
  · rintro ⟨state, hstate, hbit⟩
    exact ⟨_, ⟨state, hstate, rfl⟩, hbit⟩

theorem AdminHolds.effective (h : AdminHolds f w) (t : UInt32) : Effective f t w := by
  obtain ⟨state, hstate, hbit⟩ := h
  refine effective_iff.mpr ⟨state, hstate, ?_⟩
  rw [bit_effectivePauseFlags, hbit]
  rfl

theorem Cleared.not_effective (h : Cleared f w) (t : UInt32) : ¬Effective f t w := by
  obtain ⟨state, hstate, hadmin, hguardian⟩ := h
  intro heffective
  obtain ⟨state', hstate', hbit⟩ := effective_iff.mp heffective
  obtain rfl := Option.some.inj (hstate.symm.trans hstate')
  rw [bit_effectivePauseFlags, hadmin, hguardian, Bool.and_false] at hbit
  cases hbit

/-- A pause or unpause names one feature or both. -/
theorem bit_of_names {flag : UInt32} (h : flag &&& f.flag ≠ f.flag) :
    bit flag f.index = false := by
  rw [ne_eq, and_flag_eq_flag] at h
  simpa using h

theorem AdminHolds.step (h : AdminHolds f o.before) (hstep : IsStep (step chain) o)
    (hdecodes : (pauseStateOf o.before).isSome) (hunpause : ¬UnpausesFeature chain o f) :
    AdminHolds f o.after := by
  obtain ⟨state, hstate, hbit⟩ := h
  rcases succeeds_or_outside hstep with ⟨call, hcall⟩ | ⟨x, hx⟩
  · cases breaker_step hcall.governs hdecodes with
    | adminPaused _ flag state' _ _ before after =>
      obtain rfl := Option.some.inj (hstate.symm.trans before)
      exact ⟨_, after, by simp [PauseState.adminPaused, hbit]⟩
    | guardianPaused _ flag state' _ _ before after =>
      obtain rfl := Option.some.inj (hstate.symm.trans before)
      exact ⟨_, after, by simp [PauseState.guardianPaused, hbit]⟩
    | unpaused flag state' entry before after =>
      obtain rfl := Option.some.inj (hstate.symm.trans before)
      have hflag : bit flag f.index = false :=
        bit_of_names fun hnames => hunpause ⟨call, flag, hcall, entry, hnames⟩
      exact ⟨_, after, by simp [PauseState.unpaused, hbit, hflag]⟩
    | kept _ _ after => exact ⟨state, after.trans hstate, hbit⟩
  · rw [hx]
    exact ⟨state, hstate, hbit⟩

theorem Cleared.step (h : Cleared f o.before) (hstep : IsStep (step chain) o)
    (hdecodes : (pauseStateOf o.before).isSome)
    (hpause : ∀ caller, ¬PausesFeature chain o f caller) : Cleared f o.after := by
  obtain ⟨state, hstate, hadmin, hguardian⟩ := h
  rcases succeeds_or_outside hstep with ⟨call, hcall⟩ | ⟨x, hx⟩
  · cases breaker_step hcall.governs hdecodes with
    | adminPaused caller flag state' entry _ before after =>
      obtain rfl := Option.some.inj (hstate.symm.trans before)
      have hflag : bit flag f.index = false :=
        bit_of_names fun hnames => hpause caller ⟨call, flag, hcall, entry, hnames⟩
      exact ⟨_, after, by simp [PauseState.adminPaused, hadmin, hflag],
        by simp [PauseState.adminPaused, hguardian]⟩
    | guardianPaused caller flag state' entry _ before after =>
      obtain rfl := Option.some.inj (hstate.symm.trans before)
      have hflag : bit flag f.index = false :=
        bit_of_names fun hnames => hpause caller ⟨call, flag, hcall, entry, hnames⟩
      exact ⟨_, after, by simp [PauseState.guardianPaused, hadmin],
        by simp [PauseState.guardianPaused, hguardian, hflag]⟩
    | unpaused flag state' _ before after =>
      obtain rfl := Option.some.inj (hstate.symm.trans before)
      exact ⟨_, after, by simp [PauseState.unpaused, hadmin],
        by simp [PauseState.unpaused, hguardian]⟩
    | kept _ _ after => exact ⟨state, after.trans hstate, hadmin, hguardian⟩
  · rw [hx]
    exact ⟨state, hstate, hadmin, hguardian⟩

theorem AdminPauses.holds (h : AdminPauses chain o f) (hdecodes : (pauseStateOf o.before).isSome) :
    AdminHolds f o.after := by
  obtain ⟨caller, ⟨call, flag, hcall, hentry, hnames⟩, hadmin⟩ := h
  cases breaker_step hcall.governs hdecodes with
  | adminPaused caller' flag' state entry _ before after =>
    rw [hentry] at entry
    cases entry
    exact ⟨_, after, by simp [PauseState.adminPaused, and_flag_eq_flag.mp hnames]⟩
  | guardianPaused caller' flag' state entry notAdmin =>
    rw [hentry] at entry
    cases entry
    exact absurd hadmin notAdmin
  | unpaused _ _ entry =>
    obtain ⟨sequence, auth, entry'⟩ := call
    cases entry' <;> cases hentry <;> cases entry
  | kept pauses =>
    rw [hentry] at pauses
    cases pauses

theorem UnpausesFeature.cleared (h : UnpausesFeature chain o f)
    (hdecodes : (pauseStateOf o.before).isSome) : Cleared f o.after := by
  obtain ⟨call, flag, hcall, hentry, hnames⟩ := h
  have hbit := and_flag_eq_flag.mp hnames
  cases breaker_step hcall.governs hdecodes with
  | adminPaused _ _ _ entry =>
    obtain ⟨sequence, auth, entry'⟩ := call
    cases entry' <;> cases hentry <;> cases entry
  | guardianPaused _ _ _ entry =>
    obtain ⟨sequence, auth, entry'⟩ := call
    cases entry' <;> cases hentry <;> cases entry
  | unpaused flag' state entry before after =>
    rw [hentry] at entry
    cases entry
    exact ⟨_, after, by simp [PauseState.unpaused, hbit], by simp [PauseState.unpaused, hbit]⟩
  | kept _ unpauses =>
    rw [hentry] at unpauses
    cases unpauses

end Bits

/-! ## The gate -/

section Gate

variable {chain : Chain X} {w w' : World X} {f g : Feature} {call : Call} {r : Ret}

theorem Effective.not_notPaused {t : UInt32} (h : Effective f t w) : ¬NotPaused f.flag t w := by
  obtain ⟨flags, hflags, hset⟩ := h
  rintro ⟨state, hstate, hzero⟩
  rw [flagsAt, hstate] at hflags
  obtain rfl := Option.some.inj hflags
  rw [and_flag_eq_flag] at hset
  rw [and_flag_eq_zero, hset] at hzero
  cases hzero

/-- A gated entrypoint succeeds only while its feature is not paused. -/
theorem gated_notPaused (hgate : call.entry.gate = some f)
    (h : exec chain call w = .ok (r, w')) : NotPaused f.flag call.sequence w := by
  obtain ⟨sequence, auth, entry⟩ := call
  cases entry with
  | tip sender creator token amount =>
    cases hgate
    obtain ⟨fee, htipped⟩ := exec_spec h rfl (tip_spec sender creator token amount)
    exact htipped.notPaused
  | tipLegacy sender creator amount =>
    cases hgate
    obtain ⟨token, fee, -, htipped⟩ := exec_spec h rfl (tipLegacy_spec sender creator amount)
    exact htipped.notPaused
  | withdraw caller creator token dest amount =>
    cases hgate
    obtain ⟨paid, hwithdrawn⟩ := exec_spec h rfl (withdraw_spec caller creator token dest amount)
    exact hwithdrawn.notPaused
  | withdrawLegacy caller creator dest amount =>
    cases hgate
    obtain ⟨token, paid, -, hwithdrawn⟩ :=
      exec_spec h rfl (withdrawLegacy_spec caller creator dest amount)
    exact hwithdrawn.notPaused
  | setPayoutAddress creator payout =>
    cases hgate
    exact (exec_spec h rfl (setPayoutAddress_spec creator payout)).2.1
  | cancelPayoutAddress creator =>
    cases hgate
    exact (exec_spec h rfl (cancelPayoutAddress_spec creator)).2.1
  | authorizeOperator creator operator allowance expiry =>
    cases hgate
    have hspec : wp (authorizeOperator creator operator allowance expiry)
        (chain.ctx sequence auth) w fun _ _ => NotPaused pauseFlagWithdrawals sequence w := by
      simp only [authorizeOperator, wp_bind, wp_requireAuth, wp_checkNotPaused, wp_persistentSet,
        wp_bumpPersistentTtl, wp_bumpInstanceTtl, wp_publish]
      exact fun _ hopen _ _ _ => hopen
    exact exec_spec h rfl hspec
  | revokeOperator creator operator =>
    cases hgate
    have hspec : wp (revokeOperator creator operator) (chain.ctx sequence auth) w
        fun _ _ => NotPaused pauseFlagWithdrawals sequence w := by
      simp only [revokeOperator, wp_bind, wp_requireAuth, wp_checkNotPaused, wp_persistentRemove,
        wp_publish]
      exact fun _ hopen _ => hopen
    exact exec_spec h rfl hspec
  | _ => cases hgate

/-! ## The other feature -/

theorem notPaused_iff {t : UInt32} :
    NotPaused f.flag t w ↔ ∃ state, breakerOf w = some state ∧
      bit (effectivePauseFlags t state) f.index = false := by
  unfold NotPaused
  simp only [breakerOf, and_flag_eq_zero, Option.map_eq_some_iff]
  constructor
  · rintro ⟨state, hstate, hbit⟩
    exact ⟨_, ⟨state, hstate, rfl⟩, hbit⟩
  · rintro ⟨_, ⟨state, hstate, rfl⟩, hbit⟩
    exact ⟨state, hstate, hbit⟩

/-- An admin pause of one feature leaves the other open. -/
theorem NotPaused.of_adminPaused {t : UInt32} (h : NotPaused g.flag t w) (hne : g ≠ f)
    {state : PauseState} (hbefore : breakerOf w = some state)
    (hafter : breakerOf w' = some (state.adminPaused f.flag)) : NotPaused g.flag t w' := by
  obtain ⟨state', hstate', hbit⟩ := notPaused_iff.mp h
  obtain rfl := Option.some.inj (hbefore.symm.trans hstate')
  refine notPaused_iff.mpr ⟨_, hafter, ?_⟩
  have hother : bit f.flag g.index = false := by
    rw [bit_flag]
    cases f <;> cases g <;> first | rfl | exact absurd rfl hne
  rw [bit_effectivePauseFlags] at hbit ⊢
  simp only [PauseState.adminPaused, bit_or, bit_and, bit_not, hother, Bool.or_false,
    Bool.not_false, Bool.and_true]
  exact hbit

variable {i j : Store DataKey DataKey.Val} {sequence : UInt32} {auth : List Address}

theorem mirrored_checkNotPaused (hopen : ∀ e : World X, e.inst = j → NotPaused g.flag sequence e) :
    Mirrored i j (checkNotPaused g.flag : M X Unit) (chain.ctx sequence auth) := by
  intro v e h
  rw [wp_checkNotPaused]
  intro _
  rw [twp_checkNotPaused]
  exact ⟨hopen e h.right, rfl, h⟩

/-- Apart from its gate, an entrypoint does not read the pause entry. -/
theorem mirrored_program {entry : Entrypoint} (hgate : entry.gate = some g)
    (hsame : ∀ k, k ≠ .pause → i.get k = j.get k)
    (hopen : ∀ e : World X, e.inst = j → NotPaused g.flag sequence e) :
    Mirrored i j (program entry : M X Ret) (chain.ctx sequence auth) := by
  refine (program_footprint entry).mirrored ?_ ?_
  · intro _ _ hpart
    cases hpart with
    | check f hf =>
      obtain rfl := Option.some.inj (hgate.symm.trans hf)
      exact mirrored_checkNotPaused hopen
  · intro op hallows
    cases op with
    | loadInstance => exact hallows
    | readInstance k =>
      rcases hallows with hnone | hk
      · rw [hgate] at hnone
        cases hnone
      · exact hsame k hk
    | setInstance k =>
      rw [allows_setInstance, hgate] at hallows
      cases hallows
    | removeInstance k =>
      rw [allows_removeInstance, hgate] at hallows
      cases hallows
    | _ => trivial

theorem instLive_le_bumpInstance {ctx : Ctx DataKey DataKey.Val Event Error X} :
    w.instLive ≤ (w.bumpInstance ctx ledgerThreshold ledgerBump).instLive := by
  have hle : ledgerThreshold ≤ ledgerBump := by decide
  simp only [Env.bumpInstance]
  split <;> omega

/-- A pause leaves the life of every persistent entry, and does not shorten that of the
instance. -/
theorem pauseInternal_lives {ctx : Ctx DataKey DataKey.Val Event Error X} (caller : Address)
    (flag : UInt32) :
    wp (pauseInternal caller flag) ctx w fun _ w' =>
      w'.persLive = w.persLive ∧ w.instLive ≤ w'.instLive := by
  simp only [pauseInternal, guardianAddress, guardianPauseDuration, wp_bind, wp_requireAuth,
    wp_adminAddress, wp_instanceGet, wp_pauseState, wp_ite, wp_pure, wp_ledgerSequence,
    wp_panicWithError, wp_instanceSet, wp_bumpInstanceTtl, wp_publish]
  intro _ admin _ state _
  refine ⟨fun _ => ⟨rfl, ?_⟩, fun _ => ⟨fun _ => ⟨rfl, ?_⟩, fun _ => trivial⟩⟩
  · exact instLive_le_bumpInstance (w := w.setInstance .pause _)
  · exact instLive_le_bumpInstance (w := w.setInstance .pause _)

/-- Pausing one feature makes no call of the other feature fail that would have succeeded. -/
theorem other_feature_spared {pause : Call} {caller : Address} {r₀ : Ret}
    (hpause : exec chain pause w = .ok (r₀, w'))
    (hentry : pause.entry.pauses = some (caller, f.flag))
    (hadmin : w.inst.get .admin = some caller) (hgate : call.entry.gate = some g) (hne : g ≠ f)
    {w₁ : World X} (h : exec chain call w = .ok (r, w₁)) :
    ∃ w₁', exec chain call w' = .ok (r, w₁') := by
  have hprogram : program pause.entry = (do pauseInternal caller f.flag; pure .unit : M X Ret) := by
    obtain ⟨sequence, auth, entry⟩ := pause
    cases entry <;> cases hentry' : f <;> rw [hentry'] at hentry <;> cases hentry <;> rfl
  obtain ⟨hpaused, honly⟩ := exec_spec hpause hprogram (pauseInternal_spec caller f.flag)
  obtain ⟨hpersLive, hinstLive⟩ := exec_spec hpause hprogram (pauseInternal_lives caller f.flag)
  obtain ⟨-, state, hstate, ⟨-, hinst⟩ | ⟨hnot, -⟩⟩ := hpaused
  · have hmirrors : Mirrors w.inst w'.inst w w' :=
      ⟨rfl, rfl, honly.pers, hpersLive, honly.ext⟩
    have hsame : ∀ k, k ≠ .pause → w.inst.get k = w'.inst.get k := by
      intro k hk
      rw [hinst, Store.get_set_of_ne _ hk]
    have hbefore : breakerOf w = some { state with notes := none } := by
      rw [breakerOf, hstate]
      rfl
    have hafter : breakerOf w'
        = some (PauseState.adminPaused { state with notes := none } f.flag) := by
      rw [breakerOf_encode hinst]
      rfl
    have hopen : NotPaused g.flag call.sequence w' :=
      (gated_notPaused hgate h).of_adminPaused hne hbefore hafter
    have hopen' : ∀ e : World X, e.inst = w'.inst → NotPaused g.flag call.sequence e := by
      intro e he
      rw [NotPaused, pauseStateOf, he]
      exact hopen
    have hruns : twp (invoke call.entry) (chain.ctx call.sequence call.auth) w
        fun a v => a = r ∧ v = w₁ := ⟨r, w₁, h, rfl, rfl⟩
    rw [invoke, twp_bind, twp_loadInstance] at hruns
    obtain ⟨hlive, a, v, hrun, rfl, rfl⟩ := hruns
    obtain ⟨b, e, hrun', rfl, -⟩ := mirrored_program hgate hsame hopen' w w' hmirrors a v hrun
    have hlive' : InstanceLive (chain.ctx call.sequence call.auth) w' :=
      fun hdead => hlive ⟨hdead.1, by omega⟩
    have hexec : twp (invoke call.entry) (chain.ctx call.sequence call.auth) w'
        fun c v => c = a ∧ v = e := by
      rw [invoke, twp_bind, twp_loadInstance]
      exact ⟨hlive', a, e, hrun', rfl, rfl⟩
    obtain ⟨c, e', hexec, rfl, rfl⟩ := hexec
    exact ⟨e', hexec⟩
  · exact absurd hadmin hnot

end Gate

/-! ## Histories from `init` -/

/-- The laws of the admin's pauses, at the end of a run `acts` from `w₀`.

* `persists`: a feature whose latest pause or unpause by the admin is a pause is paused at every
  ledger.
* `gates`: while a feature is paused, none of its entrypoints succeeds.
* `spares`: an admin pause of one feature makes no call of the other feature fail.
* `stays_open`: a feature that no pause named, since the start or since an unpause of it, is paused at
  no ledger. -/
structure AdminPauseLaws (chain : Chain X) (w₀ : World X) (acts : List (Action X)) : Prop where
  persists : ∀ f tr₁ p mid, trace (step chain) w₀ acts = tr₁ ++ p :: mid →
    AdminPauses chain p f → (∀ q ∈ mid, ¬UnpausesFeature chain q f) →
    ∀ t, Effective f t (run (step chain) w₀ acts)
  gates : ∀ f call, call.entry.gate = some f →
    Effective f call.sequence (run (step chain) w₀ acts) →
    ∀ r w', exec chain call (run (step chain) w₀ acts) ≠ .ok (r, w')
  spares : ∀ f g pause caller r w', f ≠ g →
    exec chain pause (run (step chain) w₀ acts) = .ok (r, w') →
    pause.entry.pauses = some (caller, f.flag) →
    (run (step chain) w₀ acts).inst.get .admin = some caller →
    ∀ call r₁ w₁, call.entry.gate = some g →
      exec chain call (run (step chain) w₀ acts) = .ok (r₁, w₁) →
      ∃ w₁', exec chain call w' = .ok (r₁, w₁')
  stays_open : ∀ f tr₁ mid, trace (step chain) w₀ acts = tr₁ ++ mid →
    (tr₁ = [] ∨ ∃ tr₀ p, tr₁ = tr₀ ++ [p] ∧ UnpausesFeature chain p f) →
    (∀ q ∈ mid, ∀ caller, ¬PausesFeature chain q f caller) →
    ∀ t, ¬Effective f t (run (step chain) w₀ acts)

section Run

variable {chain : Chain X} {token admin : Address} {D : UInt32} {w₀ : World X}
  {acts : List (Action X)}

theorem AfterInit.decodes (h₀ : AfterInit chain token admin D w₀)
    {o : Occ (World X) (Action X)} (ho : o ∈ trace (step chain) w₀ acts) :
    (pauseStateOf o.before).isSome :=
  (h₀.trace_fromInit ho).pause

theorem AfterInit.cleared (h₀ : AfterInit chain token admin D w₀) (f : Feature) : Cleared f w₀ := by
  obtain ⟨-, hinst, -⟩ := h₀.state
  refine ⟨⟨0, 0, 0, none⟩, ?_, by simp, by simp⟩
  rw [breakerOf, pauseStateOf, hinst]
  simp

theorem admin_pause_persists (h₀ : AfterInit chain token admin D w₀) (acts : List (Action X)) :
    AdminPauseLaws chain w₀ acts where
  persists := by
    intro f tr₁ p mid htr hpauses hquiet t
    have hp : p ∈ trace (step chain) w₀ acts := by
      rw [htr]
      simp
    refine AdminHolds.effective ?_ t
    refine run_invariant_since (step chain) htr (hpauses.holds (h₀.decodes hp)) ?_
    intro q hq hin hholds
    exact hholds.step (isStep_of_mem _ hin) (h₀.decodes hin) (hquiet q hq)
  gates := by
    intro f call hgate heffective r w' hexec
    exact heffective.not_notPaused (gated_notPaused hgate hexec)
  spares := by
    intro f g pause caller r w' hne hpause hentry hadmin call r₁ w₁ hgate hexec
    exact other_feature_spared hpause hentry hadmin hgate hne.symm hexec
  stays_open := by
    intro f tr₁ mid htr hstart hquiet t
    refine Cleared.not_effective ?_ t
    have hmem : ∀ q ∈ mid, q ∈ trace (step chain) w₀ acts := by
      intro q hq
      rw [htr]
      exact List.mem_append_right _ hq
    have hkept : ∀ q ∈ mid, Cleared f q.before → Cleared f q.after := fun q hq hcleared =>
      hcleared.step (isStep_of_mem _ (hmem q hq)) (h₀.decodes (hmem q hq)) (hquiet q hq)
    rcases hstart with rfl | ⟨tr₀, p, rfl, hunpauses⟩
    · rw [List.nil_append] at htr
      rw [← htr] at hkept
      exact run_invariant_of_trace (step chain) (h₀.cleared f) hkept
    · rw [List.append_assoc, List.singleton_append] at htr
      have hp : p ∈ trace (step chain) w₀ acts := by
        rw [htr]
        simp
      exact run_invariant_since (step chain) htr (hunpauses.cleared (h₀.decodes hp))
        fun q hq _ => hkept q hq

end Run

/-- The admin pauses tips at ledger 2. At ledger 9, after the guardian has paused withdrawals and
the admin has unpaused those, tips are still paused and withdrawals are not. -/
theorem admin_pause_persists_sample :
    let acts : List (Action Balances) := [.call ⟨2, [⟨2⟩], .pauseTips ⟨2⟩⟩,
      .call ⟨3, [⟨2⟩], .setGuardian ⟨2⟩ ⟨7⟩⟩, .call ⟨4, [⟨7⟩], .pauseWithdrawals ⟨7⟩⟩,
      .call ⟨5, [⟨2⟩], .unpauseWithdrawals ⟨2⟩⟩]
    AdminPauseLaws sampleChain (sampleWorld 50) acts ∧
      flagsAt (run (step sampleChain) (sampleWorld 50) acts) 9 = some pauseFlagTips := by
  intro acts
  exact ⟨admin_pause_persists sampleWorld_afterInit acts, by decide⟩

end TipJar
