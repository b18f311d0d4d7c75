import StellarTipjar.RiskManagement.Effects

/-!
# RiskManagement — the aggregate exposure

`metrics.total_exposure` is kept up to date by the two operations that change a profile, and set
back to 0 by `init`, which anybody may call again. What the metrics, the profiles and the admin key
should say is a function of the history: `accrued` is what the accepted deltas of a participant add
up to, `firstAdmin` is the admin of the first `init`. They do say it in every state of a run exactly
when every step was `Orderly`: no `init` finds a sum that is not 0 or another admin, and no update
leaves 128 bits.
-/

namespace RiskManagement

open Lib Soroban Contract

variable {X : Type}

/-! ## What the history says -/

/-- How an accepted call changes the sum of the deltas of `a`. -/
def Entrypoint.accrue (a : Address) (sum : Int) : Entrypoint → Int
  | .registerParticipant caller _ => if caller = a then 0 else sum
  | .updateExposure caller delta => if caller = a then sum + delta.val else sum
  | .resetExposure _ owner => if owner = a then 0 else sum
  | _ => sum

/-- The exact sum of the accepted deltas of `a` since its registration or its last reset. -/
def accrued (chain : Chain X) (a : Address) (tr : List (Occ (World X) (Action X))) : Int :=
  tr.foldl (fun sum o => (Machine.accepted program chain o).elim sum fun e => e.accrue a sum) 0

/-- The admin that an `init` sets. -/
def Entrypoint.initAdmin : Entrypoint → Option Address
  | .init admin => some admin
  | _ => none

/-- A getter changes no exposure. -/
theorem Entrypoint.view_quiet {e : Entrypoint} (h : e.isView = true) :
    e.initAdmin = none ∧ ∀ a sum, e.accrue a sum = sum := by
  cases e with
  | checkExposure owner => exact ⟨rfl, fun _ _ => rfl⟩
  | enforceLimit caller => exact ⟨rfl, fun _ _ => rfl⟩
  | getRiskMetrics => exact ⟨rfl, fun _ _ => rfl⟩
  | init admin => cases h
  | registerParticipant caller alertThreshold => cases h
  | updateExposure caller delta => cases h
  | resetExposure admin owner => cases h

/-- The admin of the first accepted `init`. -/
def firstAdmin (chain : Chain X) (tr : List (Occ (World X) (Action X))) : Option Address :=
  (tr.filterMap fun o => (Machine.accepted program chain o).bind Entrypoint.initAdmin).head?

/-! ## What the storage says -/

/-- The exposure of a profile, none where there is no profile. -/
def exposureAt (stored : Option RiskProfile) : Int := stored.elim 0 fun profile => profile.exposure.val

/-- The exact sum of the exposures of all profiles. -/
noncomputable def exposureSum (w : World X) : Int := ∑ᶠ a, exposureAt (profileOf w a)

/-- The storage says what the history says. -/
structure Consistent (chain : Chain X) (tr : List (Occ (World X) (Action X))) (w : World X) :
    Prop where
  total : (metricsOf w).totalExposure.val ≡ exposureSum w [ZMOD 2 ^ 128]
  exposure : ∀ a profile, profileOf w a = some profile →
    profile.exposure.val = accrued chain a tr
  admin : adminOf w = firstAdmin chain tr

/-- A step that lowers the exposure of a participant is an update of its own, or a reset by the
first admin. -/
def OnlyAdminLowers (chain : Chain X) (tr : List (Occ (World X) (Action X)))
    (o : Occ (World X) (Action X)) : Prop :=
  ∀ a profile profile', profileOf o.before a = some profile → profileOf o.after a = some profile' →
    profile'.exposure.val < profile.exposure.val →
    ∃ c, Succeeds chain o c ∧
      ((∃ delta, c.entry = .updateExposure a delta ∧ a ∈ c.auth) ∨
        ∃ admin, firstAdmin chain tr = some admin ∧ c.entry = .resetExposure admin a ∧
          admin ∈ c.auth)

/-- An `init` starts over only what adds up to 0, and names the admin there is; an update does not
leave 128 bits. -/
structure Orderly (chain : Chain X) (o : Occ (World X) (Action X)) : Prop where
  init : ∀ c admin, Succeeds chain o c → c.entry = .init admin →
    exposureSum o.before ≡ 0 [ZMOD 2 ^ 128] ∧
      (adminOf o.before = none ∨ adminOf o.before = some admin)
  fits : ∀ c caller delta profile, Succeeds chain o c → c.entry = .updateExposure caller delta →
    profileOf o.before caller = some profile →
    -2 ^ 127 ≤ profile.exposure.val + delta.val ∧ profile.exposure.val + delta.val < 2 ^ 127

/-! ## One step -/

section Lemmas

variable {chain : Chain X} {w w' : World X} {a : Address} {profile : RiskProfile}
  {o : Occ (World X) (Action X)} {c : Call} {tr : List (Occ (World X) (Action X))}

/-- Only stored profiles count, and they are finitely many. -/
theorem exposure_finite (w : World X) : (fun a => exposureAt (profileOf w a)).support.Finite :=
  w.pers.finite_support (fun a => .profile a) (fun _ _ h => DataKey.profile.inj h)
    (fun _ => exposureAt) fun _ => rfl

/-- The last call comes last. -/
theorem accrued_concat : accrued chain a (tr ++ [o])
    = (Machine.accepted program chain o).elim (accrued chain a tr)
        fun e => e.accrue a (accrued chain a tr) := by
  unfold accrued
  rw [List.foldl_append]
  rfl

/-- A successful call changes the sum as it says. -/
theorem accrued_succeeds (h : Succeeds chain o c) :
    accrued chain a (tr ++ [o]) = c.entry.accrue a (accrued chain a tr) := by
  rw [accrued_concat, Machine.accepted_of_succeeds h]
  rfl

/-- Any other step leaves it. -/
theorem accrued_quiet (hstep : IsStep (step chain) o) (h : ∀ c, ¬Succeeds chain o c) :
    accrued chain a (tr ++ [o]) = accrued chain a tr := by
  rw [accrued_concat, Machine.accepted_of_not_succeeds hstep h]
  rfl

/-- Only the first `init` counts. -/
theorem firstAdmin_concat : firstAdmin chain (tr ++ [o])
    = (firstAdmin chain tr).or ((Machine.accepted program chain o).bind Entrypoint.initAdmin) := by
  unfold firstAdmin
  rw [List.filterMap_append, List.head?_append]
  cases h : (Machine.accepted program chain o).bind Entrypoint.initAdmin <;> simp [h]

/-- A successful call can be that `init`. -/
theorem firstAdmin_succeeds (h : Succeeds chain o c) :
    firstAdmin chain (tr ++ [o]) = (firstAdmin chain tr).or c.entry.initAdmin := by
  rw [firstAdmin_concat, Machine.accepted_of_succeeds h]
  rfl

/-- Any other step cannot. -/
theorem firstAdmin_quiet (hstep : IsStep (step chain) o) (h : ∀ c, ¬Succeeds chain o c) :
    firstAdmin chain (tr ++ [o]) = firstAdmin chain tr := by
  rw [firstAdmin_concat, Machine.accepted_of_not_succeeds hstep h]
  simp

/-- Writing one profile moves the sum by the difference. -/
theorem exposureSum_set (hself : profileOf w' a = some profile)
    (hother : ∀ b, b ≠ a → profileOf w' b = profileOf w b) :
    exposureSum w' = exposureSum w + (profile.exposure.val - exposureAt (profileOf w a)) := by
  have hsum := finsum_update (f := fun b => exposureAt (profileOf w b))
    (g := fun b => exposureAt (profileOf w' b)) a (exposure_finite w)
    fun b hb => by rw [hother b hb]
  rw [hself] at hsum
  exact hsum

end Lemmas

/-! ### The reads after each effect -/

section Reads

variable {auth : List Address} {w w' : World X} {caller admin owner : Address}
  {alertThreshold delta : I128} {profile : RiskProfile}

/-- What the state reads as after an `init`: the profiles are left, the total starts at zero. -/
theorem Inits.reads (h : Inits auth admin w w') :
    adminOf w' = some admin ∧ (metricsOf w').totalExposure = 0 ∧
      ∀ a, profileOf w' a = profileOf w a := by
  obtain ⟨now, hpers⟩ := h.pers
  unfold adminOf metricsOf profileOf
  rw [hpers]
  refine ⟨?_, ?_, ?_⟩
  · rw [Store.get_set_of_ne _ (by simp), Store.get_set_self]
  · rw [Store.get_set_self]
    rfl
  · intro a
    rw [Store.get_set_of_ne _ (by simp), Store.get_set_of_ne _ (by simp)]

/-- After a registration. -/
theorem Registers.reads (h : Registers auth caller alertThreshold w w') :
    adminOf w' = adminOf w ∧ metricsOf w' = metricsOf w ∧
      profileOf w' caller = some ⟨caller, 0, 0, alertThreshold⟩ ∧
      ∀ a, a ≠ caller → profileOf w' a = profileOf w a := by
  unfold adminOf metricsOf profileOf
  rw [h.pers]
  refine ⟨?_, ?_, Store.get_set_self _ _ _, ?_⟩
  · rw [Store.get_set_of_ne _ (by simp)]
  · rw [Store.get_set_of_ne _ (by simp)]
  · intro a ha
    rw [Store.get_set_of_ne _ (by simpa using ha)]

/-- After an update, in the arithmetic of the code. -/
theorem Updates.reads (h : Updates auth caller delta profile w w') :
    adminOf w' = adminOf w ∧ (metricsOf w').totalExposure
        = (metricsOf w).totalExposure - profile.exposure + (profile.exposure + delta) ∧
      (∃ score, profileOf w' caller
        = some { profile with exposure := profile.exposure + delta, riskScore := score }) ∧
      ∀ a, a ≠ caller → profileOf w' a = profileOf w a := by
  obtain ⟨score, now, hpers⟩ := h.pers
  unfold adminOf profileOf
  refine ⟨?_, ?_, ⟨score, ?_⟩, ?_⟩
  · rw [hpers, Store.get_set_of_ne _ (by simp), Store.get_set_of_ne _ (by simp)]
  · unfold metricsOf
    rw [hpers, Store.get_set_self]
    rfl
  · rw [hpers, Store.get_set_of_ne _ (by simp), Store.get_set_self]
  · intro a ha
    rw [hpers, Store.get_set_of_ne _ (by simp), Store.get_set_of_ne _ (by simpa using ha)]

/-- After a reset. -/
theorem Resets.reads (h : Resets auth admin owner profile w w') :
    adminOf w' = adminOf w ∧
      (metricsOf w').totalExposure = (metricsOf w).totalExposure - profile.exposure ∧
      profileOf w' owner = some { profile with exposure := 0, riskScore := 0 } ∧
      ∀ a, a ≠ owner → profileOf w' a = profileOf w a := by
  obtain ⟨now, hpers⟩ := h.pers
  unfold adminOf profileOf
  refine ⟨?_, ?_, ?_, ?_⟩
  · rw [hpers, Store.get_set_of_ne _ (by simp), Store.get_set_of_ne _ (by simp)]
  · unfold metricsOf
    rw [hpers, Store.get_set_self]
    rfl
  · rw [hpers, Store.get_set_of_ne _ (by simp), Store.get_set_self]
  · intro a ha
    rw [hpers, Store.get_set_of_ne _ (by simp), Store.get_set_of_ne _ (by simpa using ha)]

end Reads

/-! ### What a step does to one exposure -/

/-- Where the profile of `a` after a step comes from. -/
inductive ProfileStep (chain : Chain X) (a : Address) (o : Occ (World X) (Action X)) :
    RiskProfile → Prop where
  | kept (profile : RiskProfile) (before : profileOf o.before a = some profile)
      (spares : ∀ c, Succeeds chain o c → ∀ sum, c.entry.accrue a sum = sum) :
      ProfileStep chain a o profile
  | registered (c : Call) (alertThreshold : I128) (hc : Succeeds chain o c)
      (entry : c.entry = .registerParticipant a alertThreshold)
      (before : profileOf o.before a = none) :
      ProfileStep chain a o ⟨a, 0, 0, alertThreshold⟩
  | updated (c : Call) (delta : I128) (profile : RiskProfile) (score : UInt32)
      (hc : Succeeds chain o c) (entry : c.entry = .updateExposure a delta)
      (authorised : a ∈ c.auth) (before : profileOf o.before a = some profile) :
      ProfileStep chain a o
        { profile with exposure := profile.exposure + delta, riskScore := score }
  | reset (c : Call) (admin : Address) (profile : RiskProfile) (hc : Succeeds chain o c)
      (entry : c.entry = .resetExposure admin a) (authorised : admin ∈ c.auth)
      (isAdmin : adminOf o.before = some admin) (before : profileOf o.before a = some profile) :
      ProfileStep chain a o { profile with exposure := 0, riskScore := 0 }

/-- The profile of `a` after a step, and with it what the history says. -/
inductive Moves (chain : Chain X) (a : Address) (o : Occ (World X) (Action X))
    (profile' : RiskProfile) : Prop where
  | kept (before : profileOf o.before a = some profile')
      (accrues : ∀ tr, accrued chain a (tr ++ [o]) = accrued chain a tr)
  | registered (before : profileOf o.before a = none) (zero : profile'.exposure = 0)
      (accrues : ∀ tr, accrued chain a (tr ++ [o]) = 0)
  | updated (c : Call) (delta : I128) (profile : RiskProfile) (hc : Succeeds chain o c)
      (entry : c.entry = .updateExposure a delta) (authorised : a ∈ c.auth)
      (before : profileOf o.before a = some profile)
      (sum : profile'.exposure = profile.exposure + delta)
      (accrues : ∀ tr, accrued chain a (tr ++ [o]) = accrued chain a tr + delta.val)
  | reset (c : Call) (admin : Address) (hc : Succeeds chain o c)
      (entry : c.entry = .resetExposure admin a) (authorised : admin ∈ c.auth)
      (isAdmin : adminOf o.before = some admin) (zero : profile'.exposure = 0)
      (accrues : ∀ tr, accrued chain a (tr ++ [o]) = 0)

section Steps

variable {chain : Chain X} {o : Occ (World X) (Action X)} {a : Address} {profile' : RiskProfile}
  {tr : List (Occ (World X) (Action X))}

/-- The case analysis over the calls of the contract, once for all statements about single
profiles. -/
theorem profile_step (hstep : IsStep (step chain) o) (hafter : profileOf o.after a = some profile') :
    ProfileStep chain a o profile' := by
  by_cases hcall : ∃ c, Succeeds chain o c
  · obtain ⟨c, hc⟩ := hcall
    obtain ⟨r, hexec⟩ := hc.2
    -- the step has one call, so what spares `a` is said of that one
    have hkept : profileOf o.before a = some profile' →
        (∀ sum, c.entry.accrue a sum = sum) → ProfileStep chain a o profile' := by
      intro hbefore hspares
      refine .kept profile' hbefore fun d hd => ?_
      rw [Machine.Action.call.inj (hd.1.symm.trans hc.1)]
      exact hspares
    cases exec_effect hexec with
    | inited admin entry heffect =>
      rw [heffect.reads.2.2 a] at hafter
      exact hkept hafter fun sum => by rw [entry]; rfl
    | registered caller alertThreshold entry heffect =>
      obtain ⟨-, -, hself, hother⟩ := heffect.reads
      by_cases ha : a = caller
      · subst ha
        rw [hself] at hafter
        cases hafter
        exact .registered c alertThreshold hc entry heffect.new
      · rw [hother a ha] at hafter
        exact hkept hafter fun sum => by rw [entry]; exact if_neg (Ne.symm ha)
    | updated caller delta profile entry heffect =>
      obtain ⟨-, -, ⟨score, hself⟩, hother⟩ := heffect.reads
      by_cases ha : a = caller
      · subst ha
        rw [hself] at hafter
        cases hafter
        exact .updated c delta profile score hc entry heffect.authorised heffect.stored
      · rw [hother a ha] at hafter
        exact hkept hafter fun sum => by rw [entry]; exact if_neg (Ne.symm ha)
    | reset admin owner profile entry heffect =>
      obtain ⟨-, -, hself, hother⟩ := heffect.reads
      by_cases ha : a = owner
      · subst ha
        rw [hself] at hafter
        cases hafter
        exact .reset c admin profile hc entry heffect.authorised heffect.admin heffect.stored
      · rw [hother a ha] at hafter
        exact hkept hafter fun sum => by rw [entry]; exact if_neg (Ne.symm ha)
    | view entry same =>
      rw [same] at hafter
      exact hkept hafter ((Entrypoint.view_quiet entry).2 a)
  · have hspares : ∀ c, Succeeds chain o c → ∀ sum, c.entry.accrue a sum = sum :=
      fun c hc => absurd ⟨c, hc⟩ hcall
    rcases Machine.succeeds_or_outside hstep with hc | ⟨x, hx⟩
    · exact absurd hc hcall
    · rw [hx] at hafter
      exact .kept profile' hafter hspares

/-- How a profile that is there afterwards has come about. -/
theorem moves_of_step (hstep : IsStep (step chain) o) (hafter : profileOf o.after a = some profile') :
    Moves chain a o profile' := by
  cases profile_step hstep hafter with
  | kept profile before spares =>
    refine .kept before fun tr => ?_
    by_cases hcall : ∃ c, Succeeds chain o c
    · obtain ⟨c, hc⟩ := hcall
      rw [accrued_succeeds hc, spares c hc]
    · exact accrued_quiet hstep fun c hc => hcall ⟨c, hc⟩
  | registered c alertThreshold hc entry before =>
    refine .registered before rfl fun tr => ?_
    rw [accrued_succeeds hc, entry]
    exact if_pos rfl
  | updated c delta profile score hc entry authorised before =>
    refine .updated c delta profile hc entry authorised before rfl fun tr => ?_
    rw [accrued_succeeds hc, entry]
    exact if_pos rfl
  | reset c admin profile hc entry authorised isAdmin before =>
    refine .reset c admin hc entry authorised isAdmin rfl fun tr => ?_
    rw [accrued_succeeds hc, entry]
    exact if_pos rfl

/-- The total follows the sum, as long as an `init` finds nothing to forget. -/
theorem total_step (hstep : IsStep (step chain) o) (horderly : Orderly chain o)
    (h : (metricsOf o.before).totalExposure.val ≡ exposureSum o.before [ZMOD 2 ^ 128]) :
    (metricsOf o.after).totalExposure.val ≡ exposureSum o.after [ZMOD 2 ^ 128] := by
  rcases Machine.succeeds_or_outside hstep with ⟨c, hc⟩ | ⟨x, hx⟩
  · obtain ⟨r, hexec⟩ := hc.2
    cases exec_effect hexec with
    | inited admin entry heffect =>
      obtain ⟨-, htotal, hsame⟩ := heffect.reads
      have hsum : exposureSum o.after = exposureSum o.before := by
        unfold exposureSum
        simp only [hsame]
      rw [htotal, hsum, I128.val_zero]
      exact (horderly.init c admin hc entry).1.symm
    | registered caller alertThreshold entry heffect =>
      obtain ⟨-, hmetrics, hself, hother⟩ := heffect.reads
      have hsum := exposureSum_set hself hother
      rw [heffect.new] at hsum
      rw [hmetrics, hsum]
      simpa [exposureAt] using h
    | updated caller delta profile entry heffect =>
      obtain ⟨-, htotal, ⟨score, hself⟩, hother⟩ := heffect.reads
      have hsum := exposureSum_set hself hother
      rw [heffect.stored] at hsum
      rw [htotal, hsum]
      have hmoved := ((I128.add_modEq _ (profile.exposure + delta)).trans
        ((I128.sub_modEq (metricsOf o.before).totalExposure profile.exposure).add_right _)).trans
        ((h.sub_right profile.exposure.val).add_right (profile.exposure + delta).val)
      have hexact : exposureSum o.before - profile.exposure.val + (profile.exposure + delta).val
          = exposureSum o.before + ((profile.exposure + delta).val - exposureAt (some profile)) := by
        show _ = exposureSum o.before + ((profile.exposure + delta).val - profile.exposure.val)
        omega
      rw [hexact] at hmoved
      exact hmoved
    | reset admin owner profile entry heffect =>
      obtain ⟨-, htotal, hself, hother⟩ := heffect.reads
      have hsum := exposureSum_set hself hother
      rw [heffect.stored] at hsum
      rw [htotal, hsum]
      have hmoved := (I128.sub_modEq _ profile.exposure).trans (h.sub_right profile.exposure.val)
      have hexact : exposureSum o.before - profile.exposure.val
          = exposureSum o.before + ((0 : I128).val - exposureAt (some profile)) := by
        show _ = exposureSum o.before + (0 - profile.exposure.val)
        omega
      rw [hexact] at hmoved
      exact hmoved
    | view entry same =>
      rw [same]
      exact h
  · rw [hx]
    exact h

/-- The admin stays the first one, as long as no `init` names another. -/
theorem admin_step (hstep : IsStep (step chain) o) (horderly : Orderly chain o)
    (h : adminOf o.before = firstAdmin chain tr) :
    adminOf o.after = firstAdmin chain (tr ++ [o]) := by
  by_cases hcall : ∃ c, Succeeds chain o c
  · obtain ⟨c, hc⟩ := hcall
    obtain ⟨r, hexec⟩ := hc.2
    rw [firstAdmin_succeeds hc, ← h]
    cases exec_effect hexec with
    | inited admin entry heffect =>
      rw [heffect.reads.1, entry]
      rcases (horderly.init c admin hc entry).2 with hnone | hsome
      · rw [hnone]
        rfl
      · rw [hsome]
        rfl
    | registered caller alertThreshold entry heffect =>
      rw [heffect.reads.1, entry]
      simp [Entrypoint.initAdmin]
    | updated caller delta profile entry heffect =>
      rw [heffect.reads.1, entry]
      simp [Entrypoint.initAdmin]
    | reset admin owner profile entry heffect =>
      rw [heffect.reads.1, entry]
      simp [Entrypoint.initAdmin]
    | view entry same =>
      rw [same, (Entrypoint.view_quiet entry).1, Option.or_none]
  · rw [firstAdmin_quiet hstep fun c hc => hcall ⟨c, hc⟩, ← h]
    rcases Machine.succeeds_or_outside hstep with hc | ⟨x, hx⟩
    · exact absurd hc hcall
    · rw [hx]
      rfl

end Steps

/-! ## Runs -/

section Runs

variable {chain : Chain X} {w₀ : World X} {o : Occ (World X) (Action X)}
  {tr : List (Occ (World X) (Action X))}

theorem get_fresh (h : Machine.Fresh w₀) (k : DataKey) : w₀.pers.get k = none := by
  rw [h.pers]
  rfl

/-- A fresh contract has no profiles. -/
theorem profileOf_fresh (h : Machine.Fresh w₀) (a : Address) : profileOf w₀ a = none :=
  get_fresh h (.profile a)

/-- All sums are empty. -/
theorem Consistent.of_fresh (h : Machine.Fresh w₀) : Consistent chain [] w₀ := by
  refine ⟨?_, ?_, get_fresh h .admin⟩
  · have hsum : exposureSum w₀ = 0 := by
      unfold exposureSum
      simp [profileOf_fresh h, exposureAt]
    have htotal : metricsOf w₀ = .initial := by
      unfold metricsOf
      rw [get_fresh h]
      rfl
    rw [hsum, htotal]
    rfl
  · intro a profile hstored
    rw [profileOf_fresh h] at hstored
    cases hstored

/-- An orderly step changes the total and one profile by the same amount. -/
theorem Consistent.after_step (h : Consistent chain tr o.before) (hstep : IsStep (step chain) o)
    (horderly : Orderly chain o) : Consistent chain (tr ++ [o]) o.after := by
  refine ⟨total_step hstep horderly h.total, ?_, admin_step hstep horderly h.admin⟩
  intro a profile' hafter
  cases moves_of_step hstep hafter with
  | kept before accrues =>
    rw [accrues]
    exact h.exposure a profile' before
  | registered before zero accrues =>
    rw [accrues, zero]
    rfl
  | updated c delta profile hc entry authorised before sum accrues =>
    obtain ⟨hlo, hhi⟩ := horderly.fits c a delta profile hc entry before
    rw [accrues, sum, I128.val_add hlo hhi, h.exposure a profile before]
  | reset c admin hc entry authorised isAdmin zero accrues =>
    rw [accrues, zero]
    rfl

/-- An exposure is lowered by an update of its holder, or by a reset of the admin. -/
theorem onlyAdminLowers_of_step (h : Consistent chain tr o.before)
    (hstep : IsStep (step chain) o) : OnlyAdminLowers chain tr o := by
  intro a profile profile' hbefore hafter hlower
  cases moves_of_step hstep hafter with
  | kept before accrues =>
    rw [before] at hbefore
    cases hbefore
    exact absurd hlower (Int.lt_irrefl _)
  | registered before zero accrues =>
    rw [before] at hbefore
    cases hbefore
  | updated c delta other hc entry authorised before sum accrues =>
    exact ⟨c, hc, .inl ⟨delta, entry, authorised⟩⟩
  | reset c admin hc entry authorised isAdmin zero accrues =>
    exact ⟨c, hc, .inr ⟨admin, h.admin ▸ isAdmin, entry, authorised⟩⟩

/-- Without any condition an exposure is the sum of its deltas in the arithmetic of the machine.
Induction from the end of the run. -/
theorem exposure_modEq (h₀ : Machine.Fresh w₀) (acts : List (Action X)) {a : Address}
    {profile' : RiskProfile} (hstored : profileOf (run (step chain) w₀ acts) a = some profile') :
    profile'.exposure.val ≡ accrued chain a (trace (step chain) w₀ acts) [ZMOD 2 ^ 128] := by
  induction acts using List.reverseRecOn generalizing profile' with
  | nil =>
    rw [run_nil, profileOf_fresh h₀] at hstored
    cases hstored
  | append_singleton acts act ih =>
    rw [trace_concat]
    rw [run_concat] at hstored
    generalize hlast : (⟨run (step chain) w₀ acts, act,
      step chain (run (step chain) w₀ acts) act⟩ : Occ (World X) (Action X)) = last
    have hstep : IsStep (step chain) last := by rw [← hlast]; rfl
    have hafter : profileOf last.after a = some profile' := by rw [← hlast]; exact hstored
    have hbefore : last.before = run (step chain) w₀ acts := by rw [← hlast]
    rw [← hbefore] at ih
    cases moves_of_step hstep hafter with
    | kept before accrues =>
      rw [accrues]
      exact ih before
    | registered before zero accrues =>
      rw [accrues, zero]
      rfl
    | updated c delta profile hc entry authorised before sum accrues =>
      rw [accrues, sum]
      exact (I128.add_modEq _ _).trans ((ih before).add_right _)
    | reset c admin hc entry authorised isAdmin zero accrues =>
      rw [accrues, zero]
      rfl

/-- By induction over the run. -/
theorem consistent_run (h₀ : Machine.Fresh w₀) {acts : List (Action X)}
    (horderly : ∀ o ∈ trace (step chain) w₀ acts, Orderly chain o) :
    Consistent chain (trace (step chain) w₀ acts) (run (step chain) w₀ acts) := by
  induction acts using List.reverseRecOn with
  | nil => exact .of_fresh h₀
  | append_singleton acts act ih =>
    rw [trace_concat] at horderly ⊢
    rw [run_concat]
    have hbefore := ih fun o ho => horderly o (List.mem_append_left _ ho)
    exact hbefore.after_step (o := ⟨run (step chain) w₀ acts, act, _⟩) rfl
      (horderly _ (List.mem_append_right _ (List.mem_singleton_self _)))

/-- A step between two consistent states was orderly. -/
theorem Orderly.of_consistent (h : Consistent chain tr o.before)
    (h' : Consistent chain (tr ++ [o]) o.after) : Orderly chain o := by
  refine ⟨?_, ?_⟩
  · intro c admin hc entry
    obtain ⟨r, hexec⟩ := hc.2
    obtain ⟨hadmin, htotal, hsame⟩ := (exec_init entry hexec).reads
    have hsum : exposureSum o.after = exposureSum o.before := by
      unfold exposureSum
      simp only [hsame]
    refine ⟨?_, ?_⟩
    · have hmod := h'.total
      rw [htotal, hsum] at hmod
      exact hmod.symm
    · have hfirst := h'.admin
      rw [firstAdmin_succeeds hc, ← h.admin, hadmin, entry] at hfirst
      cases hold : adminOf o.before with
      | none => exact .inl rfl
      | some old =>
        rw [hold] at hfirst
        exact .inr hfirst.symm
  · intro c caller delta profile hc entry hstored
    obtain ⟨r, hexec⟩ := hc.2
    obtain ⟨other, hupdates⟩ := exec_updateExposure entry hexec
    obtain ⟨-, -, ⟨score, hself⟩, -⟩ := hupdates.reads
    obtain rfl := Option.some.inj (hupdates.stored.symm.trans hstored)
    -- both sums are exact, so the exact sum is one of 128 bits
    have hexact := h'.exposure caller _ hself
    rw [accrued_succeeds hc, entry] at hexact
    have haccrue : Entrypoint.accrue caller (accrued chain caller tr) (.updateExposure caller delta)
        = accrued chain caller tr + delta.val := if_pos rfl
    rw [haccrue, ← h.exposure caller other hstored] at hexact
    have hlo := (other.exposure + delta).le_val
    have hhi := (other.exposure + delta).val_lt
    rw [← hexact]
    exact ⟨hlo, hhi⟩

/-- The metrics, the profiles and the admin key say what the history says in every state of a run,
and only the first admin lowers the exposure of others, exactly when every step of the run was
orderly. Whatever the steps were, an exposure is the sum of its deltas modulo `2^128`. -/
theorem consistent_iff (h₀ : Machine.Fresh w₀) (acts : List (Action X)) :
    (((∀ acts₁, acts₁ <+: acts →
        Consistent chain (trace (step chain) w₀ acts₁) (run (step chain) w₀ acts₁)) ∧
      ∀ tr₁ o tr₂, trace (step chain) w₀ acts = tr₁ ++ o :: tr₂ → OnlyAdminLowers chain tr₁ o) ↔
      ∀ o ∈ trace (step chain) w₀ acts, Orderly chain o) ∧
    ∀ a profile, profileOf (run (step chain) w₀ acts) a = some profile →
      profile.exposure.val ≡ accrued chain a (trace (step chain) w₀ acts) [ZMOD 2 ^ 128] := by
  refine ⟨⟨?_, ?_⟩, fun a profile => exposure_modEq h₀ acts⟩
  · rintro ⟨hconsistent, -⟩ o ho
    obtain ⟨tr₁, tr₂, htr⟩ := List.append_of_mem ho
    obtain ⟨l₁, l₂, hacts, htr₁, hbefore, hafter, -⟩ := trace_split _ htr
    have hb := hconsistent l₁ ⟨o.act :: l₂, hacts.symm⟩
    have ha := hconsistent (l₁ ++ [o.act]) (by rw [hacts]; exact ⟨l₂, by simp⟩)
    rw [trace_concat, run_concat, ← hbefore, ← hafter, ← htr₁] at ha
    rw [← hbefore, ← htr₁] at hb
    exact .of_consistent hb ha
  · intro horderly
    have hreached : ∀ acts₁, acts₁ <+: acts →
        Consistent chain (trace (step chain) w₀ acts₁) (run (step chain) w₀ acts₁) := by
      rintro acts₁ ⟨l₂, rfl⟩
      refine consistent_run h₀ fun o ho => horderly o ?_
      rw [trace_append]
      exact List.mem_append_left _ ho
    refine ⟨hreached, ?_⟩
    intro tr₁ o tr₂ htr
    obtain ⟨l₁, l₂, hacts, htr₁, hbefore, hafter, -⟩ := trace_split _ htr
    have hb := hreached l₁ ⟨o.act :: l₂, hacts.symm⟩
    rw [← hbefore, ← htr₁] at hb
    exact onlyAdminLowers_of_step hb hafter

end Runs

/-! ## An orderly run and a second `init` -/

def sampleChain : Chain Balances := standardChain ⟨0⟩

def sampleWorld : World Balances := Machine.freshEnv fun _ _ => 0

/-- Two participants, one of whom the admin resets. -/
def orderlyCalls : List (Action Balances) :=
  [.call ⟨1, [⟨9⟩], .init ⟨9⟩⟩, .call ⟨2, [⟨5⟩], .registerParticipant ⟨5⟩ 100⟩,
    .call ⟨2, [⟨6⟩], .registerParticipant ⟨6⟩ 50⟩, .call ⟨3, [⟨5⟩], .updateExposure ⟨5⟩ 10⟩,
    .call ⟨3, [⟨6⟩], .updateExposure ⟨6⟩ 7⟩, .call ⟨4, [⟨9⟩], .resetExposure ⟨9⟩ ⟨6⟩⟩]

theorem consistent_iff_sample :
    let w := run (step sampleChain) sampleWorld orderlyCalls
    Consistent sampleChain (trace (step sampleChain) sampleWorld orderlyCalls) w ∧
      (metricsOf w).totalExposure = 10 ∧ profileOf w ⟨5⟩ = some ⟨⟨5⟩, 10, 10, 100⟩ ∧
      adminOf w = some ⟨9⟩ := by
  intro w
  have hfresh : Machine.Fresh sampleWorld := Machine.freshEnv_fresh _
  have horderly : ∀ o ∈ trace (step sampleChain) sampleWorld orderlyCalls,
      Orderly sampleChain o := by
    intro o ho
    simp only [orderlyCalls, trace, List.mem_cons, List.not_mem_nil, or_false] at ho
    refine ⟨?_, ?_⟩
    · intro c admin hc entry
      rcases ho with rfl | rfl | rfl | rfl | rfl | rfl
      · -- the first call: there is no profile and no admin
        refine ⟨?_, .inl rfl⟩
        have hsum : exposureSum sampleWorld = 0 := by
          unfold exposureSum
          exact finsum_eq_zero_of_forall_eq_zero fun a => rfl
        rw [hsum]
      all_goals
        cases hc.1
        cases entry
    · intro c caller delta profile hc entry hstored
      rcases ho with rfl | rfl | rfl | rfl | rfl | rfl
      · cases hc.1
        cases entry
      · cases hc.1
        cases entry
      · cases hc.1
        cases entry
      · cases hc.1
        cases entry
        cases hstored
        decide
      · cases hc.1
        cases entry
        cases hstored
        decide
      · cases hc.1
        cases entry
  have hsafe := ((consistent_iff hfresh orderlyCalls).1.mpr horderly).1 orderlyCalls
    (List.prefix_refl _)
  exact ⟨hsafe, rfl, rfl, rfl⟩

/-- A stranger initialises the contract again. -/
def secondInit : List (Action Balances) :=
  [.call ⟨1, [⟨9⟩], .init ⟨9⟩⟩, .call ⟨2, [⟨5⟩], .registerParticipant ⟨5⟩ 100⟩,
    .call ⟨3, [⟨5⟩], .updateExposure ⟨5⟩ 10⟩, .call ⟨4, [⟨8⟩], .init ⟨8⟩⟩]

/-- The total is forgotten, the stranger is admin, and then lowers the exposure of somebody else. -/
theorem second_init_breaks :
    let w := run (step sampleChain) sampleWorld secondInit
    let w' := run (step sampleChain) sampleWorld
      (secondInit ++ [.call ⟨5, [⟨8⟩], .resetExposure ⟨8⟩ ⟨5⟩⟩])
    Machine.Fresh sampleWorld ∧ firstAdmin sampleChain
      (trace (step sampleChain) sampleWorld secondInit) = some ⟨9⟩ ∧ adminOf w = some ⟨8⟩ ∧
    (metricsOf w).totalExposure = 0 ∧ exposureSum w = 10 ∧
    ¬Consistent sampleChain (trace (step sampleChain) sampleWorld secondInit) w ∧
    profileOf w ⟨5⟩ = some ⟨⟨5⟩, 10, 10, 100⟩ ∧ profileOf w' ⟨5⟩ = some ⟨⟨5⟩, 0, 0, 100⟩ := by
  intro w w'
  have hsum : exposureSum w = 10 := by
    unfold exposureSum
    rw [finsum_eq_single _ (⟨5⟩ : Address)]
    · rfl
    · intro a ha
      have hnone : profileOf w a = none := by
        show (((((((Store.empty.set .admin _).set .metrics _).set (.profile ⟨5⟩) _).set
          (.profile ⟨5⟩) _).set .metrics _).set .admin _).set .metrics _ :
            Store DataKey DataKey.Val).get (.profile a) = none
        simp [ha]
      rw [hnone]
      rfl
  refine ⟨Machine.freshEnv_fresh _, rfl, rfl, rfl, hsum, ?_, rfl, rfl⟩
  intro hconsistent
  have hadmin := hconsistent.admin
  exact absurd (show (some ⟨8⟩ : Option Address) = some ⟨9⟩ from hadmin) (by decide)

end RiskManagement
