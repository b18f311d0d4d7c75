import StellarTipjar.TipJar.Effects
import StellarTipjar.TipJar.Footprints
import StellarTipjar.Lib.Mask

/-!
# TipJar — the circuit breaker

The pause state is two bitmasks, the admin's and the guardian's, and one expiry ledger for all
guardian bits. `breaker_step` says once what a call can do to it; the statements about histories
of pauses and unpauses follow from it. Those about the admin's pauses are in `AdminPause`.

* `guardian_pause_exact`: a guardian pause adds exactly the flags it names, unless guardian bits
  that had expired are still stored; the new expiry revives those.
* `guardian_pause_extends`: a guardian pause ends no pause earlier, unless it lowers the expiry.
-/

namespace TipJar

open Lib Lib.Mask Soroban Contract

variable {X : Type}

/-! ## Flags -/

/-- The bit of the feature in a mask. -/
def Feature.index : Feature → Fin 32
  | .tips => 0
  | .withdrawals => 1

/-- The caller and the flags of a pause call. -/
def Entrypoint.pauses : Entrypoint → Option (Address × UInt32)
  | .pauseTips caller => some (caller, pauseFlagTips)
  | .pauseWithdrawals caller => some (caller, pauseFlagWithdrawals)
  | .pauseAll caller => some (caller, pauseFlagAll)
  | _ => none

/-- The flags of an unpause call. -/
def Entrypoint.unpauses : Entrypoint → Option UInt32
  | .unpauseTips _ => some pauseFlagTips
  | .unpauseWithdrawals _ => some pauseFlagWithdrawals
  | .unpauseAll _ => some pauseFlagAll
  | _ => none

/-- The effective flags at ledger `t`, `none` when the stored state does not decode. -/
def flagsAt (w : World X) (t : UInt32) : Option UInt32 :=
  (pauseStateOf w).map (effectivePauseFlags t)

/-- `f` is paused at ledger `t`. -/
def Effective (f : Feature) (t : UInt32) (w : World X) : Prop :=
  ∃ flags, flagsAt w t = some flags ∧ flags &&& f.flag = f.flag

theorem bit_flag (f : Feature) (i : Fin 32) : bit f.flag i = decide (i = f.index) := by
  cases f <;> revert i <;> decide

theorem and_flag_eq_flag {m : UInt32} {f : Feature} :
    m &&& f.flag = f.flag ↔ bit m f.index = true := by
  constructor
  · intro h
    have hbit : bit (m &&& f.flag) f.index = bit f.flag f.index := by rw [h]
    simpa [bit_flag] using hbit
  · intro h
    refine ext_bit fun i => ?_
    rw [bit_and, bit_flag]
    by_cases hi : i = f.index
    · rw [hi, h]
      simp
    · simp [hi]

theorem and_flag_eq_zero {m : UInt32} {f : Feature} :
    m &&& f.flag = 0 ↔ bit m f.index = false := by
  constructor
  · intro h
    have hbit : bit (m &&& f.flag) f.index = bit 0 f.index := by rw [h]
    simpa [bit_flag] using hbit
  · intro h
    refine ext_bit fun i => ?_
    rw [bit_and, bit_flag, bit_zero]
    by_cases hi : i = f.index
    · rw [hi, h]
      rfl
    · simp [hi]

/-- The guardian's bits count until their expiry; that there are any need not be asked. -/
theorem bit_effectivePauseFlags (t : UInt32) (state : PauseState) (i : Fin 32) :
    bit (effectivePauseFlags t state) i
      = (bit state.adminFlags i ||
        (decide (t < state.guardianExpiry) && bit state.guardianFlags i)) := by
  unfold effectivePauseFlags
  by_cases hg : state.guardianFlags = 0
  · simp [hg]
  · by_cases ht : t < state.guardianExpiry
    · simp [hg, ht]
    · simp [ht]

/-! ## What a call does to the pause state -/

/-- The pause state without its notes, which nothing reads. -/
def breakerOf (w : World X) : Option PauseState :=
  (pauseStateOf w).map fun state => { state with notes := none }

theorem flagsAt_eq (w : World X) (t : UInt32) :
    flagsAt w t = (breakerOf w).map (effectivePauseFlags t) := by
  rw [breakerOf, Option.map_map]
  rfl

/-- What the admin configured for the guardian's pauses. -/
def guardianDuration (w : World X) : UInt32 :=
  (w.inst.get .guardianPauseDuration : Option UInt32).getD defaultGuardianPauseDurationLedgers

def PauseState.adminPaused (state : PauseState) (flag : UInt32) : PauseState :=
  { state with
    adminFlags := state.adminFlags ||| flag
    guardianFlags := state.guardianFlags &&& ~~~flag }

def PauseState.guardianPaused (state : PauseState) (flag expiry : UInt32) : PauseState :=
  { state with
    guardianFlags := state.guardianFlags ||| flag
    guardianExpiry := expiry }

def PauseState.unpaused (state : PauseState) (flag : UInt32) : PauseState :=
  { state with
    adminFlags := state.adminFlags &&& ~~~flag
    guardianFlags := state.guardianFlags &&& ~~~flag }

inductive BreakerStep (call : Call) (w w' : World X) : Prop where
  | adminPaused (caller : Address) (flag : UInt32) (state : PauseState)
      (entry : call.entry.pauses = some (caller, flag)) (admin : w.inst.get .admin = some caller)
      (before : breakerOf w = some state) (after : breakerOf w' = some (state.adminPaused flag))
  | guardianPaused (caller : Address) (flag : UInt32) (state : PauseState)
      (entry : call.entry.pauses = some (caller, flag)) (notAdmin : w.inst.get .admin ≠ some caller)
      (before : breakerOf w = some state)
      (after : breakerOf w'
        = some (state.guardianPaused flag (call.sequence + guardianDuration w)))
  | unpaused (flag : UInt32) (state : PauseState) (entry : call.entry.unpauses = some flag)
      (before : breakerOf w = some state) (after : breakerOf w' = some (state.unpaused flag))
  | kept (pauses : call.entry.pauses = none) (unpauses : call.entry.unpauses = none)
      (after : breakerOf w' = breakerOf w)

section Step

variable {chain : Chain X} {call : Call} {w w' : World X} {r : Ret}

theorem breakerOf_encode {state : PauseState}
    (h : w'.inst = w.inst.set .pause state.encode) :
    breakerOf w' = some { state with notes := none } := by
  rw [breakerOf, pauseStateOf, h]
  simp

theorem Paused.breakerStep {caller : Address} {flag : UInt32}
    (hentry : call.entry.pauses = some (caller, flag))
    (h : Paused caller flag call.sequence call.auth w w') : BreakerStep call w w' := by
  obtain ⟨-, state, hstate, ⟨hadmin, hinst⟩ | ⟨hadmin, hguardian, hinst⟩⟩ := h
  · refine .adminPaused caller flag { state with notes := none } hentry hadmin ?_ ?_
    · rw [breakerOf, hstate]
      rfl
    · rw [breakerOf_encode hinst]
      rfl
  · refine .guardianPaused caller flag { state with notes := none } hentry hadmin ?_ ?_
    · rw [breakerOf, hstate]
      rfl
    · rw [breakerOf_encode hinst]
      rfl

theorem Unpaused.breakerStep {caller : Address} {flag : UInt32}
    (hentry : call.entry.unpauses = some flag) (h : Unpaused caller flag call.auth w w') :
    BreakerStep call w w' := by
  obtain ⟨-, state, hstate, hinst⟩ := h
  refine .unpaused flag { state with notes := none } hentry ?_ ?_
  · rw [breakerOf, hstate]
    rfl
  · rw [breakerOf_encode hinst]
    rfl

/-- `migrate` only empties the notes. -/
theorem breakerOf_migrated (h : w'.inst = migratedInstance w) (hw : (pauseStateOf w).isSome) :
    breakerOf w' = breakerOf w := by
  have hget : w'.inst.get .pause = w.inst.get .pause ∨ ∃ raw : StoredPause,
      w.inst.get .pause = some raw ∧ w'.inst.get .pause = some { raw with notes := some none } := by
    rw [h]
    unfold migratedInstance
    simp only
    split
    · rw [Store.get_set_of_ne _ (by simp)]
      split
      · next raw hraw =>
        split
        · exact .inr ⟨raw, hraw, by simp⟩
        · exact .inl rfl
      · exact .inl rfl
    · exact .inl rfl
  rcases hget with hsame | ⟨raw, hraw, hraw'⟩
  · rw [breakerOf, breakerOf, pauseStateOf, pauseStateOf, hsame]
  · rw [pauseStateOf, hraw] at hw
    obtain ⟨state, hstate⟩ := Option.isSome_iff_exists.mp hw
    obtain ⟨notes, -, rfl⟩ := Option.map_eq_some_iff.mp hstate
    rw [breakerOf, breakerOf, pauseStateOf, pauseStateOf, hraw, hraw']
    simp only [hstate]
    rfl

theorem breaker_step (h : Governs call w w') (hw : (pauseStateOf w).isSome) :
    BreakerStep call w w' := by
  obtain ⟨sequence, auth, entry⟩ := call
  have hkept : .pause ∉ entry.instanceWrites → breakerOf w' = breakerOf w := by
    intro hpause
    rw [breakerOf, breakerOf, pauseStateOf, pauseStateOf, h.frame hpause]
  cases entry with
  | pauseTips caller => exact Paused.breakerStep rfl h
  | pauseWithdrawals caller => exact Paused.breakerStep rfl h
  | pauseAll caller => exact Paused.breakerStep rfl h
  | unpauseTips caller => exact Unpaused.breakerStep rfl h
  | unpauseWithdrawals caller => exact Unpaused.breakerStep rfl h
  | unpauseAll caller => exact Unpaused.breakerStep rfl h
  | migrate admin => exact .kept rfl rfl (breakerOf_migrated h.2 hw)
  | _ => exact .kept rfl rfl (hkept (by simp [Entrypoint.instanceWrites]))

/-- A pause by somebody who is not the admin. -/
theorem guardian_pause_state {caller : Address} {flag : UInt32}
    (h : exec chain call w = .ok (r, w')) (hentry : call.entry.pauses = some (caller, flag))
    (hadmin : w.inst.get .admin ≠ some caller) :
    ∃ state, breakerOf w = some state ∧ breakerOf w'
      = some (state.guardianPaused flag (call.sequence + guardianDuration w)) := by
  have hgov := exec_governs h
  have hpaused : Paused caller flag call.sequence call.auth w w' := by
    obtain ⟨sequence, auth, entry⟩ := call
    cases entry <;> cases hentry <;> exact hgov
  cases hpaused.breakerStep hentry with
  | adminPaused caller' _ _ entry admin =>
    rw [hentry] at entry
    cases entry
    exact absurd admin hadmin
  | guardianPaused caller' flag' state entry _ before after =>
    rw [hentry] at entry
    cases entry
    exact ⟨state, before, after⟩
  | unpaused _ _ entry =>
    obtain ⟨sequence, auth, entry'⟩ := call
    cases entry' <;> cases hentry <;> cases entry
  | kept pauses =>
    rw [hentry] at pauses
    cases pauses

end Step

/-! ## What a guardian pause makes effective -/

/-- Right after a guardian pause of `flag` at ledger `t`, exactly `flag` is added when its expiry
lies ahead and no other stored guardian bit had expired. A wrapped expiry has passed already: then
nothing may have to change. -/
theorem guardianPaused_exact_iff (state : PauseState) (flag t expiry : UInt32) :
    effectivePauseFlags t (state.guardianPaused flag expiry)
        = effectivePauseFlags t state ||| flag ↔
      if t < expiry then
        t < state.guardianExpiry ∨ Within state.guardianFlags (state.adminFlags ||| flag)
      else Within flag state.adminFlags ∧
        (state.guardianExpiry ≤ t ∨ Within state.guardianFlags state.adminFlags) := by
  rw [eq_iff_bit]
  simp only [bit_or, bit_effectivePauseFlags, PauseState.guardianPaused, within_iff]
  by_cases hnew : t < expiry
  · by_cases hold : t < state.guardianExpiry
    · simp only [hnew, hold, decide_true, Bool.true_and, if_true, true_or, iff_true]
      intro i
      rw [Bool.or_assoc]
    · simp only [hnew, hold, decide_true, decide_false, Bool.true_and, Bool.false_and,
        Bool.or_false, if_true, false_or]
      refine forall_congr' fun i => ?_
      cases bit state.adminFlags i <;> cases bit state.guardianFlags i <;> cases bit flag i <;> simp
  · by_cases hold : t < state.guardianExpiry
    · have hle : ¬state.guardianExpiry ≤ t := UInt32.not_le.mpr hold
      simp only [hnew, hold, hle, decide_true, decide_false, Bool.true_and, Bool.false_and,
        Bool.or_false, if_false, false_or, ← forall_and]
      refine forall_congr' fun i => ?_
      cases bit state.adminFlags i <;> cases bit state.guardianFlags i <;> cases bit flag i <;> simp
    · have hle : state.guardianExpiry ≤ t := UInt32.not_lt.mp hold
      simp only [hnew, hold, hle, decide_false, Bool.false_and, Bool.or_false, if_false, true_or,
        and_true]
      refine forall_congr' fun i => ?_
      cases bit state.adminFlags i <;> cases bit flag i <;> simp

/-- A guardian pause leaves a flag effective that was effective at some ledger `u ≥ t` just when
it does not lower the expiry of bits that still count. -/
theorem guardianPaused_extends_iff (state : PauseState) (flag t expiry : UInt32) :
    (∀ u, t ≤ u → Within (effectivePauseFlags u state)
        (effectivePauseFlags u (state.guardianPaused flag expiry))) ↔
      Within state.guardianFlags state.adminFlags ∨ state.guardianExpiry ≤ t ∨
        state.guardianExpiry ≤ expiry := by
  simp only [within_iff, bit_effectivePauseFlags, PauseState.guardianPaused, bit_or]
  constructor
  · intro h
    by_contra hno
    simp only [not_or, not_forall, UInt32.not_le] at hno
    obtain ⟨⟨i, hguardian, hadmin⟩, hold, hlow⟩ := hno
    -- the last ledger of the old pause, or now when even that is past the new expiry
    have hlater : ∃ u, t ≤ u ∧ u < state.guardianExpiry ∧ ¬u < expiry := by
      by_cases hpast : t < expiry
      · exact ⟨expiry, UInt32.le_of_lt hpast, hlow, UInt32.lt_irrefl _⟩
      · exact ⟨t, UInt32.le_refl t, hold, hpast⟩
    obtain ⟨u, htu, hcounts, hexpired⟩ := hlater
    have hbit := h u htu i (by simp [hcounts, hguardian])
    simp only [hexpired, decide_false, Bool.false_and, Bool.or_false] at hbit
    exact hadmin hbit
  · intro h u htu i hbit
    rw [Bool.or_eq_true, Bool.and_eq_true, decide_eq_true_eq] at hbit ⊢
    rcases hbit with hadmin | ⟨hcounts, hguardian⟩
    · exact .inl hadmin
    · rcases h with hwithin | hold | hle
      · exact .inl (hwithin i hguardian)
      · exact absurd (UInt32.lt_of_le_of_lt htu hcounts) (UInt32.not_lt.mpr hold)
      · refine .inr ⟨UInt32.lt_of_lt_of_le hcounts hle, ?_⟩
        rw [hguardian]
        rfl

/-! ## Guardian pauses along a run -/

/-- `o` is a successful pause of `flag` by the guardian. -/
def GuardianPauses (chain : Chain X) (o : Occ (World X) (Action X)) (call : Call) (flag : UInt32) :
    Prop :=
  Succeeds chain o call ∧ ∃ caller, call.entry.pauses = some (caller, flag) ∧
    o.before.inst.get .admin ≠ some caller

/-- The expiry of a guardian pause at ledger `t` lies ahead, and every guardian bit that is stored
still counts or belongs to what is paused anyway; or the expiry wraps, and there was nothing the
call could add. -/
def NothingToRevive (flag t : UInt32) (w : World X) : Prop :=
  ∃ state, breakerOf w = some state ∧
    if t < t + guardianDuration w then
      t < state.guardianExpiry ∨ Within state.guardianFlags (state.adminFlags ||| flag)
    else Within flag state.adminFlags ∧
      (state.guardianExpiry ≤ t ∨ Within state.guardianFlags state.adminFlags)

/-- The flags effective at ledger `u` in `w` are effective at `u` in `w'`. -/
def ExtendsPauses (u : UInt32) (w w' : World X) : Prop :=
  ∀ flags, flagsAt w u = some flags → ∃ flags', flagsAt w' u = some flags' ∧ Within flags flags'

/-- A guardian pause at ledger `t` lowers no expiry that counts: no guardian bit is stored that
the admin has not paused too, or the old expiry has passed, or it is not after the new one. -/
def ExpiryKept (t : UInt32) (w : World X) : Prop :=
  ∃ state, breakerOf w = some state ∧
    (Within state.guardianFlags state.adminFlags ∨ state.guardianExpiry ≤ t ∨
      state.guardianExpiry ≤ t + guardianDuration w)

section Guardian

variable {chain : Chain X} {o : Occ (World X) (Action X)} {call : Call} {flag : UInt32}

theorem GuardianPauses.state (h : GuardianPauses chain o call flag) :
    ∃ state, breakerOf o.before = some state ∧ breakerOf o.after
      = some (state.guardianPaused flag (call.sequence + guardianDuration o.before)) := by
  obtain ⟨⟨-, r, hexec⟩, caller, hentry, hadmin⟩ := h
  exact guardian_pause_state hexec hentry hadmin

theorem GuardianPauses.exact_iff (h : GuardianPauses chain o call flag) :
    flagsAt o.after call.sequence = (flagsAt o.before call.sequence).map (· ||| flag) ↔
      NothingToRevive flag call.sequence o.before := by
  obtain ⟨state, hbefore, hafter⟩ := h.state
  simp only [NothingToRevive, flagsAt_eq, hbefore, hafter, Option.map_some, Option.some.injEq,
    exists_eq_left']
  exact guardianPaused_exact_iff state flag call.sequence _

theorem GuardianPauses.extends_iff (h : GuardianPauses chain o call flag) :
    (∀ u, call.sequence ≤ u → ExtendsPauses u o.before o.after) ↔
      ExpiryKept call.sequence o.before := by
  obtain ⟨state, hbefore, hafter⟩ := h.state
  have hextends : ∀ u, ExtendsPauses u o.before o.after ↔
      Within (effectivePauseFlags u state) (effectivePauseFlags u
        (state.guardianPaused flag (call.sequence + guardianDuration o.before))) := by
    intro u
    simp [ExtendsPauses, flagsAt_eq, hbefore, hafter]
  have hkept : ExpiryKept call.sequence o.before ↔
      (Within state.guardianFlags state.adminFlags ∨ state.guardianExpiry ≤ call.sequence ∨
        state.guardianExpiry ≤ call.sequence + guardianDuration o.before) := by
    simp [ExpiryKept, hbefore]
  simp only [hextends, hkept]
  exact guardianPaused_extends_iff state flag call.sequence _

/-- In every run a guardian pause makes exactly its own flags effective, just when there is no
stale guardian bit it would revive. -/
theorem guardian_pause_exact (chain : Chain X) (w₀ : World X) (acts : List (Action X)) :
    ∀ o ∈ trace (step chain) w₀ acts, ∀ call flag, GuardianPauses chain o call flag →
      (flagsAt o.after call.sequence = (flagsAt o.before call.sequence).map (· ||| flag) ↔
        NothingToRevive flag call.sequence o.before) :=
  fun _ _ _ _ hpauses => hpauses.exact_iff

/-! ### Whole runs -/

variable {w₀ w w' : World X} {u : UInt32}

theorem ExtendsPauses.trans {w₁ : World X} (h : ExtendsPauses u w w₁)
    (h' : ExtendsPauses u w₁ w') : ExtendsPauses u w w' := by
  intro flags hflags
  obtain ⟨flags₁, hflags₁, hwithin⟩ := h flags hflags
  obtain ⟨flags', hflags', hwithin'⟩ := h' flags₁ hflags₁
  refine ⟨flags', hflags', within_iff.mpr fun i hi => ?_⟩
  exact within_iff.mp hwithin' i (within_iff.mp hwithin i hi)

theorem extendsPauses_of_eq (h : breakerOf w' = breakerOf w) : ExtendsPauses u w w' := by
  intro flags hflags
  rw [flagsAt_eq, ← h, ← flagsAt_eq] at hflags
  exact ⟨flags, hflags, within_iff.mpr fun _ hi => hi⟩

/-- An admin pause takes over the guardian's bits of its flags. -/
theorem adminPaused_within (state : PauseState) (flag u : UInt32) :
    Within (effectivePauseFlags u state) (effectivePauseFlags u (state.adminPaused flag)) := by
  rw [within_iff]
  intro i
  simp only [bit_effectivePauseFlags, PauseState.adminPaused, bit_or, bit_and, bit_not]
  cases bit state.adminFlags i <;> cases bit state.guardianFlags i <;> cases bit flag i <;> simp

/-- No step but an unpause ends a pause at a ledger that is still to come. -/
theorem extendsPauses_step (hstep : IsStep (step chain) o)
    (hguardian : ∀ call flag, GuardianPauses chain o call flag →
      call.sequence ≤ u ∧ ExpiryKept call.sequence o.before)
    (hunpause : ∀ call, Succeeds chain o call → call.entry.unpauses = none) :
    ExtendsPauses u o.before o.after := by
  rcases succeeds_or_outside hstep with ⟨call, hcall⟩ | ⟨x, hx⟩
  · intro flags hflags
    have hdecodes : (pauseStateOf o.before).isSome := by
      rw [flagsAt] at hflags
      obtain ⟨state, hstate, -⟩ := Option.map_eq_some_iff.mp hflags
      rw [hstate]
      rfl
    revert flags
    cases breaker_step hcall.governs hdecodes with
    | adminPaused _ flag state _ _ before after =>
      intro flags hflags
      rw [flagsAt_eq, before] at hflags
      obtain rfl := Option.some.inj hflags
      exact ⟨_, by rw [flagsAt_eq, after]; rfl, adminPaused_within state flag u⟩
    | guardianPaused caller flag state entry notAdmin before after =>
      have hpauses : GuardianPauses chain o call flag := ⟨hcall, caller, entry, notAdmin⟩
      obtain ⟨hu, hkept⟩ := hguardian call flag hpauses
      exact hpauses.extends_iff.mpr hkept u hu
    | unpaused flag _ entry =>
      rw [hunpause call hcall] at entry
      cases entry
    | kept _ _ after => exact extendsPauses_of_eq after
  · rw [hx]
    exact extendsPauses_of_eq rfl

/-- A guardian pause ends no pause earlier just when it lowers no expiry that counts. When that
holds of every guardian pause of a run, the run ends no pause earlier than it would have ended
without it, unless the admin unpauses. -/
theorem guardian_pause_extends (chain : Chain X) (w₀ : World X) (acts : List (Action X)) :
    (∀ o ∈ trace (step chain) w₀ acts, ∀ call flag, GuardianPauses chain o call flag →
      ((∀ u, call.sequence ≤ u → ExtendsPauses u o.before o.after) ↔
        ExpiryKept call.sequence o.before)) ∧
    ((∀ o ∈ trace (step chain) w₀ acts, ∀ call flag, GuardianPauses chain o call flag →
        ExpiryKept call.sequence o.before) →
      NoneSucceeds chain (fun call => call.entry.unpauses ≠ none) (trace (step chain) w₀ acts) →
      ∀ u, (∀ o ∈ trace (step chain) w₀ acts, ∀ call flag, GuardianPauses chain o call flag →
          call.sequence ≤ u) →
        ExtendsPauses u w₀ (run (step chain) w₀ acts)) := by
  refine ⟨fun o _ call flag hpauses => hpauses.extends_iff, fun hkept hquiet u hu => ?_⟩
  refine run_invariant_of_trace (step chain) (P := ExtendsPauses u w₀) (extendsPauses_of_eq rfl) ?_
  intro o ho hbefore
  refine hbefore.trans (extendsPauses_step (isStep_of_mem _ ho) ?_ ?_)
  · exact fun call flag hpauses => ⟨hu o ho call flag hpauses, hkept o ho call flag hpauses⟩
  · exact fun call hcall => not_not.mp (hquiet o ho call hcall)

end Guardian

/-- The guardian pauses tips at ledger 4, and pauses them again at ledger 20 after the first pause
has expired: exactly tips are paused then. -/
theorem guardian_pause_exact_sample :
    let acts : List (Action Balances) := [.call ⟨2, [⟨2⟩], .setGuardian ⟨2⟩ ⟨7⟩⟩,
      .call ⟨3, [⟨2⟩], .setGuardianPauseDuration ⟨2⟩ 5⟩, .call ⟨4, [⟨7⟩], .pauseTips ⟨7⟩⟩,
      .call ⟨20, [⟨7⟩], .pauseTips ⟨7⟩⟩]
    ∃ o ∈ trace (step sampleChain) (sampleWorld 50) acts,
      GuardianPauses sampleChain o ⟨20, [⟨7⟩], .pauseTips ⟨7⟩⟩ pauseFlagTips ∧
        flagsAt o.after 20 = (flagsAt o.before 20).map (· ||| pauseFlagTips) := by
  intro acts
  have hmem := List.mem_of_getElem? (l := trace (step sampleChain) (sampleWorld 50) acts)
    (i := 3) rfl
  refine ⟨_, hmem, ⟨⟨rfl, .unit, rfl⟩, ⟨7⟩, rfl, by decide⟩, ?_⟩
  exact (guardian_pause_exact sampleChain (sampleWorld 50) acts _ hmem
    ⟨20, [⟨7⟩], .pauseTips ⟨7⟩⟩ pauseFlagTips
    ⟨⟨rfl, .unit, rfl⟩, ⟨7⟩, rfl, by decide⟩).mpr ⟨_, rfl, by decide⟩

/-- The guardian pauses withdrawals at ledger 4, until ledger 9. At ledger 20 nothing is paused;
the guardian pauses tips, and withdrawals are paused again. -/
theorem expired_pause_revived :
    let acts : List (Action Balances) := [.call ⟨2, [⟨2⟩], .setGuardian ⟨2⟩ ⟨7⟩⟩,
      .call ⟨3, [⟨2⟩], .setGuardianPauseDuration ⟨2⟩ 5⟩, .call ⟨4, [⟨7⟩], .pauseWithdrawals ⟨7⟩⟩,
      .call ⟨20, [⟨7⟩], .pauseTips ⟨7⟩⟩]
    ∃ o ∈ trace (step sampleChain) (sampleWorld 50) acts,
      GuardianPauses sampleChain o ⟨20, [⟨7⟩], .pauseTips ⟨7⟩⟩ pauseFlagTips ∧
        flagsAt o.before 20 = some 0 ∧ flagsAt o.after 20 = some pauseFlagAll ∧
        flagsAt o.after 20 ≠ (flagsAt o.before 20).map (· ||| pauseFlagTips) := by
  intro acts
  have hmem := List.mem_of_getElem? (l := trace (step sampleChain) (sampleWorld 50) acts)
    (i := 3) rfl
  exact ⟨_, hmem, ⟨⟨rfl, .unit, rfl⟩, ⟨7⟩, rfl, by decide⟩, by decide, by decide, by decide⟩

/-- Two pauses of the guardian with the same duration: the second ends later than the first. -/
theorem guardian_pause_extends_sample :
    let acts : List (Action Balances) := [.call ⟨2, [⟨2⟩], .setGuardian ⟨2⟩ ⟨7⟩⟩,
      .call ⟨3, [⟨2⟩], .setGuardianPauseDuration ⟨2⟩ 50⟩, .call ⟨4, [⟨7⟩], .pauseWithdrawals ⟨7⟩⟩,
      .call ⟨20, [⟨7⟩], .pauseTips ⟨7⟩⟩]
    (∃ o ∈ trace (step sampleChain) (sampleWorld 50) acts,
      ∀ u, 20 ≤ u → ExtendsPauses u o.before o.after) ∧
      ∀ u, 20 ≤ u →
        ExtendsPauses u (sampleWorld 50) (run (step sampleChain) (sampleWorld 50) acts) := by
  intro acts
  have hmem := List.mem_of_getElem? (l := trace (step sampleChain) (sampleWorld 50) acts)
    (i := 3) rfl
  obtain ⟨hiff, hrun⟩ := guardian_pause_extends sampleChain (sampleWorld 50) acts
  refine ⟨⟨_, hmem, ?_⟩, fun u hu => hrun ?_ ?_ u ?_⟩
  · exact (hiff _ hmem ⟨20, [⟨7⟩], .pauseTips ⟨7⟩⟩ pauseFlagTips
      ⟨⟨rfl, .unit, rfl⟩, ⟨7⟩, rfl, by decide⟩).mpr ⟨_, rfl, by decide⟩
  · rintro o ho call flag ⟨⟨hact, -⟩, caller, hentry, -⟩
    simp only [acts, trace, List.mem_cons, List.not_mem_nil, or_false] at ho
    rcases ho with rfl | rfl | rfl | rfl <;> cases hact <;> cases hentry
    · exact ⟨_, rfl, by decide⟩
    · exact ⟨_, rfl, by decide⟩
  · rintro o ho call ⟨hact, -⟩ hunpauses
    simp only [acts, trace, List.mem_cons, List.not_mem_nil, or_false] at ho
    rcases ho with rfl | rfl | rfl | rfl <;> cases hact <;> exact hunpauses rfl
  · rintro o ho call flag ⟨⟨hact, -⟩, caller, hentry, -⟩
    simp only [acts, trace, List.mem_cons, List.not_mem_nil, or_false] at ho
    rcases ho with rfl | rfl | rfl | rfl <;> cases hact <;> cases hentry
    · exact UInt32.le_trans (by decide) hu
    · exact hu

/-- The guardian pauses withdrawals at ledger 4 for 50 ledgers; the admin lowers the duration to 5
and the guardian pauses tips at ledger 20. Withdrawals are then open at ledger 30 already. -/
theorem pause_cut_short :
    let acts : List (Action Balances) := [.call ⟨2, [⟨2⟩], .setGuardian ⟨2⟩ ⟨7⟩⟩,
      .call ⟨3, [⟨2⟩], .setGuardianPauseDuration ⟨2⟩ 50⟩, .call ⟨4, [⟨7⟩], .pauseWithdrawals ⟨7⟩⟩,
      .call ⟨5, [⟨2⟩], .setGuardianPauseDuration ⟨2⟩ 5⟩, .call ⟨20, [⟨7⟩], .pauseTips ⟨7⟩⟩]
    ∃ o ∈ trace (step sampleChain) (sampleWorld 50) acts,
      GuardianPauses sampleChain o ⟨20, [⟨7⟩], .pauseTips ⟨7⟩⟩ pauseFlagTips ∧
        flagsAt o.before 30 = some pauseFlagWithdrawals ∧ flagsAt o.after 30 = some 0 ∧
        ¬∀ u, 20 ≤ u → ExtendsPauses u o.before o.after := by
  intro acts
  have hmem := List.mem_of_getElem? (l := trace (step sampleChain) (sampleWorld 50) acts)
    (i := 4) rfl
  refine ⟨_, hmem, ⟨⟨rfl, .unit, rfl⟩, ⟨7⟩, rfl, by decide⟩, by decide, by decide, fun h => ?_⟩
  obtain ⟨flags', hflags', hwithin⟩ := h 30 (by decide) pauseFlagWithdrawals (by decide)
  have hopen : flags' = 0 := Option.some.inj (hflags'.symm.trans (by decide))
  rw [hopen] at hwithin
  exact absurd hwithin (by decide)

end TipJar
