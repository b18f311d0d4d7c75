import StellarTipjar.RiskManagement.Exposure

/-!
# RiskManagement — the risk score

The limit check compares the exposure with the threshold; the score is computed from the product
`exposure * 100`, which wraps. `scores_agree_iff` says for which updates of a run the stored scores
are the exact ones, and with that monotone and in line with `enforce_limit`.
-/

namespace RiskManagement

open Lib Soroban Contract

variable {X : Type}

/-! ## The score as a number -/

/-- A percentage, between 0 and 100. -/
def percent (x : Int) : Int := min 100 (max 0 x)

/-- The score in unbounded integers. -/
def exactScore (exposure alertThreshold : Int) : Int :=
  percent ((exposure * 100).tdiv alertThreshold)

/-- The score as `update_exposure` computes it. -/
def storedScore (exposure alertThreshold : I128) : UInt32 :=
  let rawScore := (exposure * 100).val.tdiv alertThreshold.val
  if 100 < rawScore then 100 else if rawScore < 0 then 0 else .ofNat rawScore.toNat

/-- The exposure times 100 fits into `i128`; or its balanced residue is as much above the limit, or
below 1 percent of it, as the exposure itself is. -/
def ScoreFits (exposure alertThreshold : Int) : Prop :=
  (-2 ^ 127 ≤ exposure * 100 ∧ exposure * 100 < 2 ^ 127) ∨
    (0 < exposure ∧ 100 * alertThreshold ≤ (exposure * 100).bmod (2 ^ 128)) ∨
    (exposure < 0 ∧ (exposure * 100).bmod (2 ^ 128) < alertThreshold)

section Numbers

variable {exposure alertThreshold : I128} {e₁ e₂ t : Int}

theorem percent_mono (h : e₁ ≤ e₂) : percent e₁ ≤ percent e₂ := by
  unfold percent
  omega

theorem storedScore_val : ((storedScore exposure alertThreshold).toNat : Int)
    = percent ((I128.wrap (exposure.val * 100)).val.tdiv alertThreshold.val) := by
  unfold storedScore percent
  show ((if 100 < (I128.wrap (exposure.val * 100)).val.tdiv alertThreshold.val then (100 : UInt32)
    else if (I128.wrap (exposure.val * 100)).val.tdiv alertThreshold.val < 0 then 0
    else .ofNat ((I128.wrap (exposure.val * 100)).val.tdiv alertThreshold.val).toNat).toNat : Int) = _
  generalize (I128.wrap (exposure.val * 100)).val.tdiv alertThreshold.val = raw
  split
  · show (100 : Int) = _
    omega
  · split
    · show (0 : Int) = _
      omega
    · rw [UInt32.toNat_ofNat_of_lt' (by show raw.toNat < 2 ^ 32; omega)]
      omega

theorem exactScore_mono (ht : 0 < t) (h : e₁ ≤ e₂) : exactScore e₁ t ≤ exactScore e₂ t :=
  percent_mono (Int.tdiv_le_tdiv ht (by omega))

theorem exactScore_over_limit (ht : 0 < t) (h : t < e₁) : exactScore e₁ t = 100 := by
  have hquot : 100 ≤ (e₁ * 100).tdiv t := (I128.le_tdiv_iff (by decide) ht).mpr (by omega)
  unfold exactScore percent
  omega

/-- When the stored score is the exact one. -/
theorem storedScore_eq_iff (ht : 0 < alertThreshold.val) :
    ((storedScore exposure alertThreshold).toNat : Int)
        = exactScore exposure.val alertThreshold.val ↔
      ScoreFits exposure.val alertThreshold.val := by
  have hlt := alertThreshold.val_lt
  rw [storedScore_val]
  unfold ScoreFits exactScore
  rw [← I128.val_wrap_eq_bmod]
  rcases Int.lt_or_le (exposure.val * 100) (2 ^ 127) with hbelow | habove
  · rcases Int.lt_or_le (exposure.val * 100) (-2 ^ 127) with hneg | hfits
    · -- the exact score is 0, so the residue has to stay below one threshold
      have hexact := I128.tdiv_nonpos_of_neg (x := exposure.val * 100) (by omega) ht
      have hone := I128.le_tdiv_iff (k := 1) (x := (I128.wrap (exposure.val * 100)).val)
        (by decide) ht
      unfold percent
      omega
    · rw [I128.val_wrap hfits hbelow]
      exact iff_of_true rfl (.inl ⟨hfits, hbelow⟩)
  · -- the quotient gets smaller, so both have to be cut off at 100
    have hless := I128.wrap_tdiv_lt habove ht hlt
    have hexact : (exposure.val * 100).tdiv alertThreshold.val
        = exposure.val * 100 / alertThreshold.val := Int.tdiv_eq_ediv_of_nonneg (by omega)
    have hhundred := I128.le_tdiv_iff (k := 100) (x := (I128.wrap (exposure.val * 100)).val)
      (by decide) ht
    have hone : 1 ≤ exposure.val * 100 / alertThreshold.val :=
      (Int.le_ediv_iff_mul_le ht).mpr (by omega)
    unfold percent
    omega

end Numbers

/-! ## What the contract stores -/

/-- The threshold was checked at the registration, and the score was computed from what is
stored. -/
structure RiskProfile.Scored (profile : RiskProfile) : Prop where
  threshold_pos : 0 < profile.alertThreshold.val
  score : profile.riskScore = storedScore profile.exposure profile.alertThreshold

def AllScored (w : World X) : Prop := ∀ a profile, profileOf w a = some profile → profile.Scored

section Calls

variable {chain : Chain X} {w w' : World X} {call : Call} {r : Ret} {caller : Address}

theorem riskScore_scored {sequence : UInt32} {auth : List Address} {exposure alertThreshold : I128}
    (hpos : 0 < alertThreshold.val) {Q : UInt32 → World X → Prop}
    (hQ : Q (storedScore exposure alertThreshold) w) :
    wp (riskScore exposure alertThreshold) (chain.ctx sequence auth) w Q := by
  simp only [riskScore, wp_bind, wp_ite, wp_divOrTrap, wp_pure]
  refine ⟨?_, fun hnot => absurd hpos hnot⟩
  intro _ quot hquot
  obtain ⟨-, hval⟩ := I128.checkedDiv_eq_some.mp hquot
  have hscore : (if 100 < quot then (100 : UInt32) else if quot < 0 then 0
      else .ofNat quot.val.toNat) = storedScore exposure alertThreshold := by
    show (if 100 < quot.val then (100 : UInt32) else if quot.val < 0 then 0
      else .ofNat quot.val.toNat) = _
    rw [hval]
    rfl
  rw [hscore]
  exact hQ

/-- The profile after an update. -/
theorem exec_updateExposure_scored {delta : I128} {profile : RiskProfile}
    (hentry : call.entry = .updateExposure caller delta) (hstored : profileOf w caller = some profile)
    (hpos : 0 < profile.alertThreshold.val) (h : exec chain call w = .ok (r, w')) :
    profileOf w' caller = some { profile with
      exposure := profile.exposure + delta
      riskScore := storedScore (profile.exposure + delta) profile.alertThreshold } := by
  refine Machine.exec_post (Q := fun _ w' => profileOf w' caller = some { profile with
    exposure := profile.exposure + delta
    riskScore := storedScore (profile.exposure + delta) profile.alertThreshold }) ?_ h
  rw [hentry]
  simp only [program, updateExposure, wp_bind, wp_requireAuth, wp_persistentGet, wp_unwrapOrPanic]
  intro _ _ other hother
  obtain rfl : profile = other := Option.some.inj (hstored.symm.trans hother)
  refine riskScore_scored hpos ?_
  simp only [wp_persistentSet, wp_ledgerTimestamp, wp_publish, wp_onlyIf, wp_pure]
  intro _ _ _
  unfold profileOf
  simp only [Env.publish_pers, Env.setPersistent_pers]
  rw [Store.get_set_of_ne _ (by simp), Store.get_set_self]
  exact ⟨fun _ => rfl, fun _ => rfl⟩

theorem exec_registerParticipant_pos {alertThreshold : I128}
    (hentry : call.entry = .registerParticipant caller alertThreshold)
    (h : exec chain call w = .ok (r, w')) : 0 < alertThreshold.val := by
  refine Machine.exec_post (Q := fun _ _ => 0 < alertThreshold.val) ?_ h
  rw [hentry]
  simp only [program, registerParticipant, wp_bind, wp_requireAuth, wp_panicIf, wp_persistentHas,
    wp_persistentSet, wp_pure]
  intro _ hpos _ _ _
  exact Int.not_le.mp hpos

/-- Nothing but the limit stands in the way of an `enforce_limit` for `owner`. -/
structure Enforces (chain : Chain X) (w : World X) (call : Call) (owner : Address)
    (profile : RiskProfile) : Prop where
  entry : call.entry = .enforceLimit owner
  stored : profileOf w owner = some profile
  authorised : owner ∈ call.auth
  live : InstanceLive
    (chain.ctx call.sequence call.auth : Ctx DataKey DataKey.Val Event RiskError X) w
  reachable : ¬w.Archived
    (chain.ctx call.sequence call.auth : Ctx DataKey DataKey.Val Event RiskError X) (.profile owner)

theorem Enforces.fails_iff {profile : RiskProfile} (h : Enforces chain w call caller profile) :
    (∀ r w', exec chain call w ≠ .ok (r, w')) ↔
      profile.alertThreshold.val < profile.exposure.val := by
  have hstored : w.pers.get (.profile caller) = some profile := h.stored
  constructor
  · intro hfails
    by_contra hwithin
    have hruns : twp (program call.entry) (chain.ctx call.sequence call.auth) w
        fun _ _ => True := by
      rw [h.entry]
      simp only [program, enforceLimit, twp_bind, twp_requireAuth, twp_persistentGet,
        twp_unwrapOrPanic, twp_panicIf, twp_pure]
      exact ⟨h.authorised, h.reachable, profile, hstored, hwithin, trivial⟩
    obtain ⟨r, w', hexec, -⟩ := Machine.exec_of_twp call h.live hruns
    exact hfails r w' hexec
  · intro hover r w' hexec
    refine Machine.exec_post (Q := fun _ _ => False) ?_ hexec
    rw [h.entry]
    simp only [program, enforceLimit, wp_bind, wp_requireAuth, wp_persistentGet, wp_unwrapOrPanic,
      wp_panicIf, wp_pure]
    intro _ _ other hother hwithin
    obtain rfl : profile = other := Option.some.inj (hstored.symm.trans hother)
    exact hwithin hover

end Calls

/-! ## Runs -/

section Runs

variable {chain : Chain X} {w w₀ : World X} {o : Occ (World X) (Action X)}

theorem RiskProfile.Scored.of_zero {owner : Address} {alertThreshold : I128}
    (h : 0 < alertThreshold.val) : (⟨owner, 0, 0, alertThreshold⟩ : RiskProfile).Scored := by
  refine ⟨h, ?_⟩
  show (0 : UInt32) = storedScore 0 alertThreshold
  unfold storedScore
  rw [show ((0 : I128) * 100).val = 0 from rfl, Int.zero_tdiv]
  decide

/-- What a step leaves under the profile of `a`: a profile from before, one with exposure 0, or the
result of an update of `a`. -/
theorem scored_step (h : AllScored o.before) (hstep : IsStep (step chain) o) {a : Address}
    {profile' : RiskProfile} (hafter : profileOf o.after a = some profile') :
    profile'.Scored ∧ (profileOf o.before a = some profile' ∨ profile'.exposure = 0 ∨
      ∃ c delta profile, Succeeds chain o c ∧ c.entry = .updateExposure a delta ∧
        profileOf o.before a = some profile ∧ profile'.exposure = profile.exposure + delta ∧
        profile'.alertThreshold = profile.alertThreshold) := by
  cases profile_step hstep hafter with
  | kept profile before spares =>
    exact ⟨h a profile' before, .inl before⟩
  | registered c alertThreshold hc entry =>
    obtain ⟨r, hexec⟩ := hc.2
    exact ⟨.of_zero (exec_registerParticipant_pos entry hexec), .inr (.inl rfl)⟩
  | updated c delta profile score hc entry authorised before =>
    obtain ⟨r, hexec⟩ := hc.2
    have hpos := (h a profile before).threshold_pos
    rw [exec_updateExposure_scored entry before hpos hexec] at hafter
    have hscore := congrArg RiskProfile.riskScore (Option.some.inj hafter)
    exact ⟨⟨hpos, hscore.symm⟩, .inr (.inr ⟨c, delta, profile, hc, entry, before, rfl, rfl⟩)⟩
  | reset c admin profile hc entry authorised isAdmin before =>
    exact ⟨.of_zero (h a profile before).threshold_pos, .inr (.inl rfl)⟩

theorem allScored_run (h₀ : Machine.Fresh w₀) (acts : List (Action X)) :
    AllScored (run (step chain) w₀ acts) := by
  refine run_invariant (step chain) ?_ ?_ acts
  · intro w act h a profile hstored
    exact (scored_step (o := ⟨w, act, step chain w act⟩) h rfl hstored).1
  · intro a profile hstored
    rw [profileOf_fresh h₀] at hstored
    cases hstored

/-- The profile `p` is stored in a state of the run. -/
def Shown (chain : Chain X) (w₀ : World X) (acts : List (Action X)) (p : RiskProfile) : Prop :=
  ∃ acts₁ a, acts₁ <+: acts ∧ profileOf (run (step chain) w₀ acts₁) a = some p

/-- In every state of the run every score is the exact one, it does not fall where the exposure
rises, and whoever `enforce_limit` turns away has score 100. -/
structure ScoresAgree (chain : Chain X) (w₀ : World X) (acts : List (Action X)) : Prop where
  exact_score : ∀ p, Shown chain w₀ acts p →
    (p.riskScore.toNat : Int) = exactScore p.exposure.val p.alertThreshold.val
  monotone : ∀ p q, Shown chain w₀ acts p → Shown chain w₀ acts q →
    p.alertThreshold = q.alertThreshold → p.exposure ≤ q.exposure → p.riskScore ≤ q.riskScore
  limit : ∀ acts₁, acts₁ <+: acts → ∀ call owner p,
    Enforces chain (run (step chain) w₀ acts₁) call owner p →
    (∀ r w', exec chain call (run (step chain) w₀ acts₁) ≠ .ok (r, w')) → p.riskScore = 100

/-- Every update of the run leaves an exposure the score of which is not spoilt by wrapping. -/
def UpdatesFit (chain : Chain X) (w₀ : World X) (acts : List (Action X)) : Prop :=
  ∀ o ∈ trace (step chain) w₀ acts, ∀ c caller delta profile, Succeeds chain o c →
    c.entry = .updateExposure caller delta → profileOf o.before caller = some profile →
    ScoreFits (profile.exposure + delta).val profile.alertThreshold.val

theorem fits_of_shown (h₀ : Machine.Fresh w₀) {acts : List (Action X)}
    (hfits : UpdatesFit chain w₀ acts) {p : RiskProfile} (hp : Shown chain w₀ acts p) :
    ScoreFits p.exposure.val p.alertThreshold.val := by
  obtain ⟨acts₁, a, ⟨acts₂, rfl⟩, hstored⟩ := hp
  have hinv : AllScored (run (step chain) w₀ acts₁) ∧
      ∀ a profile, profileOf (run (step chain) w₀ acts₁) a = some profile →
        ScoreFits profile.exposure.val profile.alertThreshold.val := by
    refine run_invariant_of_trace (P := fun w => AllScored w ∧ ∀ a profile,
      profileOf w a = some profile → ScoreFits profile.exposure.val profile.alertThreshold.val)
      (step chain) ?_ ?_
    · have hscored : AllScored (run (step chain) w₀ []) := allScored_run h₀ []
      refine ⟨hscored, fun a profile hstored => ?_⟩
      rw [profileOf_fresh h₀] at hstored
      cases hstored
    · intro o ho hbefore
      obtain ⟨-, -, -, -, hafter⟩ := trace_mem (step chain) ho
      refine ⟨fun a profile hstored => (scored_step hbefore.1 hafter hstored).1, ?_⟩
      intro a profile' hstored
      rcases (scored_step hbefore.1 hafter hstored).2 with hkept | hzero | hupdated
      · exact hbefore.2 a profile' hkept
      · rw [hzero]
        exact .inl (by decide)
      · obtain ⟨c, delta, profile, hc, hentry, hold, hexposure, hthreshold⟩ := hupdated
        rw [hexposure, hthreshold]
        refine hfits o ?_ c a delta profile hc hentry hold
        rw [trace_append]
        exact List.mem_append_left _ ho
  exact hinv.2 a p hstored

/-- In a run from the deployment the scores agree with the exposures, and with the limit check,
just when every update leaves an exposure the score of which is not spoilt by wrapping. In any case
`enforce_limit` fails, where nothing else stands in its way, just when the exposure is over the
threshold. -/
theorem scores_agree_iff (chain : Chain X) {w₀ : World X} (h₀ : Machine.Fresh w₀)
    (acts : List (Action X)) :
    (ScoresAgree chain w₀ acts ↔ UpdatesFit chain w₀ acts) ∧
      ∀ call owner p, Enforces chain (run (step chain) w₀ acts) call owner p →
        ((∀ r w', exec chain call (run (step chain) w₀ acts) ≠ .ok (r, w')) ↔
          p.alertThreshold.val < p.exposure.val) := by
  refine ⟨⟨?_, ?_⟩, fun call owner p h => h.fails_iff⟩
  · intro hagree o ho c caller delta profile hc hentry hstored
    obtain ⟨l₁, l₂, hacts, hbefore, hafter⟩ := trace_mem (step chain) ho
    obtain ⟨r, hexec⟩ := hc.2
    have hpos : 0 < profile.alertThreshold.val := by
      rw [hbefore] at hstored
      exact (allScored_run h₀ l₁ caller profile hstored).threshold_pos
    have hnew := exec_updateExposure_scored hentry hstored hpos hexec
    -- the state after the update is one of the run
    have hreached : o.after = run (step chain) w₀ (l₁ ++ [o.act]) := by
      rw [run_concat, ← hbefore]
      exact hafter
    rw [hreached] at hnew
    have hexact := hagree.exact_score _ ⟨l₁ ++ [o.act], caller, ⟨l₂, by simp [hacts]⟩, hnew⟩
    exact (storedScore_eq_iff hpos).mp hexact
  · intro hfits
    have hscored : ∀ p, Shown chain w₀ acts p → p.Scored := by
      rintro p ⟨acts₁, a, -, hstored⟩
      exact allScored_run h₀ acts₁ a p hstored
    have hexact : ∀ p, Shown chain w₀ acts p →
        (p.riskScore.toNat : Int) = exactScore p.exposure.val p.alertThreshold.val := by
      intro p hp
      rw [(hscored p hp).score]
      exact (storedScore_eq_iff (hscored p hp).threshold_pos).mpr (fits_of_shown h₀ hfits hp)
    refine ⟨hexact, ?_, ?_⟩
    · intro p q hp hq hsame hle
      have hmono := exactScore_mono (hscored p hp).threshold_pos hle
      have hq' := hexact q hq
      rw [← hsame] at hq'
      rw [← hexact p hp, ← hq'] at hmono
      exact UInt32.le_iff_toNat_le.mpr (Int.ofNat_le.mp hmono)
    · intro acts₁ hacts₁ call owner p henforces hfails
      have hp : Shown chain w₀ acts p := ⟨acts₁, owner, hacts₁, henforces.stored⟩
      have hover := henforces.fails_iff.mp hfails
      have hscore := hexact p hp
      rw [exactScore_over_limit (hscored p hp).threshold_pos hover] at hscore
      exact UInt32.toNat_inj.mp (Int.ofNat.inj hscore)

/-- A limit of 200, and exposures 50 and then 350: the scores are 25 and 100. -/
theorem scores_agree_iff_sample :
    let acts : List (Action Balances) := [.call ⟨2, [⟨5⟩], .registerParticipant ⟨5⟩ 200⟩,
      .call ⟨3, [⟨5⟩], .updateExposure ⟨5⟩ 50⟩, .call ⟨4, [⟨5⟩], .updateExposure ⟨5⟩ 300⟩]
    ScoresAgree sampleChain sampleWorld acts ∧
      Shown sampleChain sampleWorld acts ⟨⟨5⟩, 50, 25, 200⟩ ∧
      Shown sampleChain sampleWorld acts ⟨⟨5⟩, 350, 100, 200⟩ := by
  intro acts
  refine ⟨?_, ⟨acts.take 2, ⟨5⟩, List.take_prefix _ _, rfl⟩, ⟨acts, ⟨5⟩, List.prefix_refl _, rfl⟩⟩
  refine (scores_agree_iff sampleChain (Machine.freshEnv_fresh _) acts).1.mpr ?_
  intro o ho c caller delta profile hc hentry hstored
  simp only [acts, trace, List.mem_cons, List.not_mem_nil, or_false] at ho
  rcases ho with rfl | rfl | rfl
  · cases hc.1
    cases hentry
  · cases hc.1
    cases hentry
    cases hstored
    exact .inl (by decide)
  · cases hc.1
    cases hentry
    cases hstored
    exact .inl (by decide)

/-- An exposure of 2^126 over a limit of 1: `enforce_limit` fails and the score is 0, the product
with 100 having wrapped to 0. -/
theorem over_limit_with_score_zero :
    let acts : List (Action Balances) := [.call ⟨2, [⟨5⟩], .registerParticipant ⟨5⟩ 1⟩,
      .call ⟨3, [⟨5⟩], .updateExposure ⟨5⟩ 85070591730234615865843651857942052864⟩]
    let w := run (step sampleChain) sampleWorld acts
    Machine.Fresh sampleWorld ∧
      profileOf w ⟨5⟩ = some ⟨⟨5⟩, 85070591730234615865843651857942052864, 0, 1⟩ ∧
      exec sampleChain ⟨4, [⟨5⟩], .enforceLimit ⟨5⟩⟩ w
        = .error (.error .exposureLimitExceeded) ∧
      exactScore 85070591730234615865843651857942052864 1 = 100 ∧
      ¬ScoresAgree sampleChain sampleWorld acts := by
  intro acts w
  refine ⟨Machine.freshEnv_fresh _, rfl, rfl, by decide, ?_⟩
  intro hagree
  have hexact := hagree.exact_score ⟨⟨5⟩, 85070591730234615865843651857942052864, 0, 1⟩
    ⟨acts, ⟨5⟩, List.prefix_refl _, rfl⟩
  exact absurd hexact (by decide)

end Runs

end RiskManagement
