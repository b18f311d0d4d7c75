import StellarTipjar.RiskManagement.Contract

/-!
# RiskManagement — what a successful call does

One structure per entrypoint that writes; `exec_effect` says that a successful call is one of them,
or a view that changes nothing.
-/

namespace RiskManagement

open Lib Soroban Contract

variable {X : Type}

def profileOf (w : World X) (a : Address) : Option RiskProfile := w.pers.get (.profile a)

/-- The metrics as every function reads them. -/
def metricsOf (w : World X) : RiskMetrics :=
  (w.pers.get .metrics : Option RiskMetrics).getD .initial

def adminOf (w : World X) : Option Address := w.pers.get .admin

/-! ## The effects -/

section Effects

variable (auth : List Address)

/-- The total starts from 0, whatever the profiles say. -/
structure Inits (admin : Address) (w w' : World X) : Prop where
  authorised : admin ∈ auth
  pers : ∃ now, w'.pers = (w.pers.set .admin admin).set .metrics ⟨0, 0, now⟩

structure Registers (caller : Address) (alertThreshold : I128) (w w' : World X) : Prop where
  authorised : caller ∈ auth
  new : profileOf w caller = none
  pers : w'.pers = w.pers.set (.profile caller) ⟨caller, 0, 0, alertThreshold⟩

structure Updates (caller : Address) (delta : I128) (profile : RiskProfile) (w w' : World X) :
    Prop where
  authorised : caller ∈ auth
  stored : profileOf w caller = some profile
  pers : ∃ score now, w'.pers = (w.pers.set (.profile caller)
      { profile with exposure := profile.exposure + delta, riskScore := score }).set .metrics
    { metricsOf w with
      totalExposure :=
        (metricsOf w).totalExposure - profile.exposure + (profile.exposure + delta)
      lastUpdated := now }

structure Resets (admin owner : Address) (profile : RiskProfile) (w w' : World X) : Prop where
  authorised : admin ∈ auth
  admin : adminOf w = some admin
  stored : profileOf w owner = some profile
  pers : ∃ now, w'.pers = (w.pers.set (.profile owner)
      { profile with exposure := 0, riskScore := 0 }).set .metrics
    { metricsOf w with
      totalExposure := (metricsOf w).totalExposure - profile.exposure
      lastUpdated := now }

end Effects

/-- The functions that only read. -/
def Entrypoint.isView : Entrypoint → Bool
  | .checkExposure _ => true
  | .enforceLimit _ => true
  | .getRiskMetrics => true
  | _ => false

/-- What a successful call of the contract does. -/
inductive Effect (call : Call) (w w' : World X) : Prop where
  | inited (admin : Address) (entry : call.entry = .init admin)
      (h : Inits call.auth admin w w')
  | registered (caller : Address) (alertThreshold : I128)
      (entry : call.entry = .registerParticipant caller alertThreshold)
      (h : Registers call.auth caller alertThreshold w w')
  | updated (caller : Address) (delta : I128) (profile : RiskProfile)
      (entry : call.entry = .updateExposure caller delta)
      (h : Updates call.auth caller delta profile w w')
  | reset (admin owner : Address) (profile : RiskProfile)
      (entry : call.entry = .resetExposure admin owner)
      (h : Resets call.auth admin owner profile w w')
  | view (entry : call.entry.isView = true) (same : w' = w)

section Specs

variable {chain : Chain X} {w w' : World X} {call : Call} {r : Ret}

theorem riskScore_spec {sequence : UInt32} {auth : List Address} (exposure alertThreshold : I128)
    {Q : UInt32 → World X → Prop} (hQ : ∀ score, Q score w) :
    wp (riskScore exposure alertThreshold) (chain.ctx sequence auth) w Q := by
  simp only [riskScore, wp_bind, wp_ite, wp_divOrTrap, wp_pure]
  exact ⟨fun _ _ _ => hQ _, fun _ => hQ _⟩

theorem exec_init {admin : Address} (hentry : call.entry = .init admin)
    (h : exec chain call w = .ok (r, w')) : Inits call.auth admin w w' := by
  refine Machine.exec_post (Q := fun _ w' => Inits call.auth admin w w') ?_ h
  rw [hentry]
  simp only [program, init, wp_bind, wp_requireAuth, wp_persistentSet, wp_ledgerTimestamp, wp_pure]
  intro hauth _ _
  exact ⟨hauth, _, rfl⟩

theorem exec_registerParticipant {caller : Address} {alertThreshold : I128}
    (hentry : call.entry = .registerParticipant caller alertThreshold)
    (h : exec chain call w = .ok (r, w')) :
    Registers call.auth caller alertThreshold w w' := by
  refine Machine.exec_post (Q := fun _ w' => Registers call.auth caller alertThreshold w w') ?_ h
  rw [hentry]
  simp only [program, registerParticipant, wp_bind, wp_requireAuth, wp_panicIf, wp_persistentHas,
    wp_persistentSet, wp_pure]
  intro hauth _ _ hnew _
  exact ⟨hauth, by simpa [profileOf] using hnew, rfl⟩

theorem exec_updateExposure {caller : Address} {delta : I128}
    (hentry : call.entry = .updateExposure caller delta) (h : exec chain call w = .ok (r, w')) :
    ∃ profile, Updates call.auth caller delta profile w w' := by
  refine Machine.exec_post
    (Q := fun _ w' => ∃ profile, Updates call.auth caller delta profile w w') ?_ h
  rw [hentry]
  simp only [program, updateExposure, wp_bind, wp_requireAuth, wp_persistentGet, wp_unwrapOrPanic]
  intro hauth _ profile hstored
  refine riskScore_spec _ _ fun score => ?_
  simp only [wp_persistentSet, wp_ledgerTimestamp, wp_publish, wp_onlyIf, wp_pure]
  -- the metrics are read after a write to the profile
  have hmetrics : (w.pers.set (.profile caller)
      { profile with exposure := profile.exposure + delta, riskScore := score }).get .metrics
        = w.pers.get .metrics := Store.get_set_of_ne _ (by simp) _
  intro _ _ _
  have heffect : ∀ w', w'.pers = _ → ∃ profile, Updates call.auth caller delta profile w w' :=
    fun w' hpers => ⟨profile, hauth, hstored, score, chain.timestamp w.ext, hpers⟩
  refine ⟨fun _ => heffect _ ?_, fun _ => heffect _ ?_⟩ <;>
    simp only [Env.publish_pers, Env.setPersistent_pers, hmetrics] <;> rfl

theorem exec_resetExposure {admin owner : Address}
    (hentry : call.entry = .resetExposure admin owner) (h : exec chain call w = .ok (r, w')) :
    ∃ profile, Resets call.auth admin owner profile w w' := by
  refine Machine.exec_post
    (Q := fun _ w' => ∃ profile, Resets call.auth admin owner profile w w') ?_ h
  rw [hentry]
  simp only [program, resetExposure, wp_bind, wp_requireAuth, wp_persistentGet, wp_unwrapOrPanic,
    wp_panicIf, wp_persistentSet, wp_ledgerTimestamp, wp_pure]
  intro hauth _ storedAdmin hadmin hsame _ profile hstored _ _ _
  obtain rfl := not_not.mp hsame
  refine ⟨profile, hauth, hadmin, hstored, chain.timestamp w.ext, ?_⟩
  have hmetrics : (w.pers.set (.profile owner)
      { profile with exposure := 0, riskScore := 0 }).get .metrics
        = w.pers.get .metrics := Store.get_set_of_ne _ (by simp) _
  simp only [Env.setPersistent_pers, hmetrics]
  rfl

theorem exec_effect (h : exec chain call w = .ok (r, w')) : Effect call w w' := by
  cases hentry : call.entry with
  | init admin => exact .inited _ hentry (exec_init hentry h)
  | registerParticipant caller alertThreshold =>
    exact .registered _ _ hentry (exec_registerParticipant hentry h)
  | updateExposure caller delta =>
    obtain ⟨profile, hupdates⟩ := exec_updateExposure hentry h
    exact .updated _ _ _ hentry hupdates
  | resetExposure admin owner =>
    obtain ⟨profile, hresets⟩ := exec_resetExposure hentry h
    exact .reset _ _ _ hentry hresets
  | checkExposure owner =>
    refine .view (by rw [hentry]; rfl) (Machine.exec_post (Q := fun _ w' => w' = w) ?_ h)
    rw [hentry]
    simp only [program, checkExposure, wp_bind, wp_persistentGet, wp_unwrapOrPanic, wp_pure]
    intro _ _ _
    trivial
  | enforceLimit caller =>
    refine .view (by rw [hentry]; rfl) (Machine.exec_post (Q := fun _ w' => w' = w) ?_ h)
    rw [hentry]
    simp only [program, enforceLimit, wp_bind, wp_requireAuth, wp_persistentGet, wp_unwrapOrPanic,
      wp_panicIf, wp_pure]
    intro _ _ _ _ _
    trivial
  | getRiskMetrics =>
    refine .view (by rw [hentry]; rfl) (Machine.exec_post (Q := fun _ w' => w' = w) ?_ h)
    rw [hentry]
    simp only [program, getRiskMetrics, wp_bind, wp_persistentGet, wp_pure]
    intro _
    trivial

end Specs

end RiskManagement
