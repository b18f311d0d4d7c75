import StellarTipjar.TipJar.AdminPause
import StellarTipjar.TipJar.Progress

/-!
# TipJar — how long a guardian pause lasts, and what is reported of it

A guardian pause at ledger `s` stores the expiry `s + d`, where `d` is the configured duration. The
sum is one of `u32` and wraps: `guardian_pause_lasts_iff` says for which `s` and `d` the pause
lasts from `s` up to `s + d`.

The expiry is stored once for all guardian bits, and nothing resets it when the bits go away or
expire. `guardian_expiry_reported_iff` says after which histories the stored value is what
`guardian_pause_expiry_ledger` documents: the end of the guardian pause in force, or 0.
-/

namespace TipJar

open Lib Lib.Mask Soroban Contract

variable {X : Type}

/-- The guardian's bit of `f` is stored. -/
def GuardianHolds (f : Feature) (w : World X) : Prop :=
  ∃ state, breakerOf w = some state ∧ bit state.guardianFlags f.index = true

/-- The guardian's bit of `f` is stored and counts at ledger `t`. -/
def GuardianInForce (f : Feature) (t : UInt32) (w : World X) : Prop :=
  ∃ state, breakerOf w = some state ∧ t < state.guardianExpiry ∧
    bit state.guardianFlags f.index = true

/-- `o` is a successful pause by the guardian that names `f`. -/
def GuardianPausesFeature (chain : Chain X) (o : Occ (World X) (Action X)) (f : Feature) : Prop :=
  ∃ call flag, GuardianPauses chain o call flag ∧ flag &&& f.flag = f.flag

/-- A call that pauses or unpauses something. -/
def Entrypoint.changesPauses (entry : Entrypoint) : Prop :=
  entry.pauses ≠ none ∨ entry.unpauses ≠ none

/-- A call that sets the duration of guardian pauses. -/
def Entrypoint.setsDuration : Entrypoint → Option UInt32
  | .setGuardianPauseDuration _ ledgers => some ledgers
  | _ => none

/-- After the history `tr` guardian pauses last `d` ledgers: the last successful
`set_guardian_pause_duration` said so, or there was none and `d` is the default. -/
def DurationSet (chain : Chain X) (tr : List (Occ (World X) (Action X))) (d : UInt32) : Prop :=
  (NoneSucceeds chain (fun call => call.entry.setsDuration ≠ none) tr ∧
      d = defaultGuardianPauseDurationLedgers) ∨
    ∃ tr₁ o tr₂ call, tr = tr₁ ++ o :: tr₂ ∧ Succeeds chain o call ∧
      call.entry.setsDuration = some d ∧
      NoneSucceeds chain (fun call => call.entry.setsDuration ≠ none) tr₂

/-! ## Steps -/

section Step

variable {chain : Chain X} {o : Occ (World X) (Action X)} {f : Feature} {w w' : World X}

theorem guardianDuration_set {call : Call} {d : UInt32} (hcall : Succeeds chain o call)
    (hentry : call.entry.setsDuration = some d) : guardianDuration o.after = d := by
  have hgov := hcall.governs
  obtain ⟨sequence, auth, entry⟩ := call
  cases entry <;> cases hentry
  obtain ⟨-, -, hinst⟩ := hgov
  rw [guardianDuration, hinst]
  simp

theorem guardianDuration_kept (hstep : IsStep (step chain) o)
    (hquiet : ∀ call, Succeeds chain o call → ¬call.entry.setsDuration ≠ none) :
    guardianDuration o.after = guardianDuration o.before := by
  rcases succeeds_or_outside hstep with ⟨call, hcall⟩ | ⟨x, hx⟩
  · have hentry := not_not.mp (hquiet call hcall)
    have hframe : .guardianPauseDuration ∉ call.entry.instanceWrites := by
      cases hcase : call.entry with
      | setGuardianPauseDuration caller ledgers =>
        rw [hcase] at hentry
        cases hentry
      | _ => simp [Entrypoint.instanceWrites]
    rw [guardianDuration, guardianDuration, hcall.governs.frame hframe]
  · rw [hx]
    rfl

/-- A step that neither pauses nor unpauses leaves the breaker alone. -/
theorem breakerOf_kept (hstep : IsStep (step chain) o) (hdecodes : (pauseStateOf o.before).isSome)
    (hquiet : ∀ call, Succeeds chain o call → ¬call.entry.changesPauses) :
    breakerOf o.after = breakerOf o.before := by
  rcases succeeds_or_outside hstep with ⟨call, hcall⟩ | ⟨x, hx⟩
  · have hnone := hquiet call hcall
    cases breaker_step hcall.governs hdecodes with
    | adminPaused _ _ _ entry => exact absurd (.inl (by simp [entry])) hnone
    | guardianPaused _ _ _ entry => exact absurd (.inl (by simp [entry])) hnone
    | unpaused _ _ entry => exact absurd (.inr (by simp [entry])) hnone
    | kept _ _ after => exact after
  · rw [hx]
    rfl

end Step

/-! ## The duration -/

section Duration

variable {chain : Chain X} {token admin : Address} {D : UInt32} {w₀ : World X}
  {acts : List (Action X)}

theorem AfterInit.guardianDuration_eq (h₀ : AfterInit chain token admin D w₀) :
    guardianDuration w₀ = defaultGuardianPauseDurationLedgers := by
  obtain ⟨-, hinst, -⟩ := h₀.state
  rw [guardianDuration, hinst]
  simp

/-- The stored duration is the one that was set last. -/
theorem DurationSet.eq (h₀ : AfterInit chain token admin D w₀) {d : UInt32}
    (hd : DurationSet chain (trace (step chain) w₀ acts) d) :
    guardianDuration (run (step chain) w₀ acts) = d := by
  rcases hd with ⟨hquiet, rfl⟩ | ⟨tr₁, o, tr₂, call, htr, hcall, hentry, hquiet⟩
  · refine run_invariant_of_trace (step chain)
      (P := fun w => guardianDuration w = defaultGuardianPauseDurationLedgers)
      h₀.guardianDuration_eq ?_
    intro q hq hbefore
    rw [guardianDuration_kept (isStep_of_mem _ hq) (hquiet q hq), hbefore]
  · refine run_invariant_since (step chain) (P := fun w => guardianDuration w = d) htr
      (guardianDuration_set hcall hentry) ?_
    intro q hq hin hbefore
    rw [guardianDuration_kept (isStep_of_mem _ hin) (hquiet q hq), hbefore]

end Duration

/-! ## The window -/

/-- A bit that the guardian paused at ledger `s` for `d` ledgers is effective from `s` up to
`s + d`, just when that sum fits and the admin's bit is not set, or neither. -/
theorem window_iff (s d : UInt32) (held : Bool) :
    (∀ t : UInt32, s ≤ t →
      ((held || decide (t < s + d)) = true ↔ t.toNat < s.toNat + d.toNat)) ↔
      (s.toNat + d.toNat < 2 ^ 32 ↔ held = false) := by
  have hs := s.toNat_lt
  have hd := d.toNat_lt
  have hsum : (s + d).toNat = (s.toNat + d.toNat) % 2 ^ 32 := UInt32.toNat_add s d
  constructor
  · intro h
    by_cases hfits : s.toNat + d.toNat < 2 ^ 32
    · -- at the end of the window the admin's bit would still count
      have hend := h (s + d) (by rw [UInt32.le_iff_toNat_le, hsum]; omega)
      rw [hsum, Nat.mod_eq_of_lt hfits] at hend
      simp only [UInt32.lt_irrefl, decide_false, Bool.or_false, Nat.lt_irrefl, iff_false] at hend
      have hfree : held = false := by simpa using hend
      exact iff_of_true hfits hfree
    · -- the wrapped expiry has passed when the pause starts
      have hnow := (h s (UInt32.le_refl s)).mpr (by omega)
      have hpast : ¬s < s + d := by
        rw [UInt32.lt_iff_toNat_lt, hsum]
        omega
      simp only [hpast, decide_false, Bool.or_false] at hnow
      exact iff_of_false hfits (by simp [hnow])
  · intro h t ht
    have htlt := t.toNat_lt
    have hts : s.toNat ≤ t.toNat := UInt32.le_iff_toNat_le.mp ht
    by_cases hfits : s.toNat + d.toNat < 2 ^ 32
    · rw [h.mp hfits, Bool.false_or, decide_eq_true_eq, UInt32.lt_iff_toNat_lt, hsum,
        Nat.mod_eq_of_lt hfits]
    · have hheld : held = true := by
        cases hcase : held with
        | true => rfl
        | false => exact absurd (h.mpr hcase) hfits
      rw [hheld]
      simp only [Bool.true_or, true_iff]
      omega

section Window

variable {chain : Chain X} {token admin : Address} {D : UInt32} {w₀ : World X}
  {acts : List (Action X)} {tr₁ tr₂ : List (Occ (World X) (Action X))}
  {o : Occ (World X) (Action X)} {call : Call} {flag d : UInt32} {f : Feature}

/-- A guardian pause after which nobody pauses or unpauses is what the breaker holds at the end. -/
theorem GuardianPauses.lasts (h₀ : AfterInit chain token admin D w₀)
    (htr : trace (step chain) w₀ acts = tr₁ ++ o :: tr₂) (hd : DurationSet chain tr₁ d)
    (hpauses : GuardianPauses chain o call flag)
    (hquiet : NoneSucceeds chain (fun call => call.entry.changesPauses) tr₂) :
    ∃ state, breakerOf o.before = some state ∧ breakerOf (run (step chain) w₀ acts)
      = some (state.guardianPaused flag (call.sequence + d)) := by
  obtain ⟨state, hbefore, hafter⟩ := hpauses.state
  obtain ⟨l₁, l₂, -, htr₁, hrun₁, -, htr₂⟩ := trace_split _ htr
  rw [htr₁] at hd
  rw [hrun₁, hd.eq h₀] at hafter
  refine ⟨state, hbefore, ?_⟩
  refine run_invariant_since (step chain) (P := fun w => breakerOf w
    = some (state.guardianPaused flag (call.sequence + d))) htr hafter ?_
  intro q hq hin hheld
  rw [breakerOf_kept (isStep_of_mem _ hin) (h₀.decodes hin) (hquiet q hq), hheld]

/-- When the guardian pauses `f` at ledger `s` and the configured duration is `d`, and nobody pauses
or unpauses afterwards, `f` is paused exactly from `s` up to `s + d` just when that sum fits into
32 bits and the admin has not paused `f` as well, or neither is so: a pause that wraps has expired
when it starts. The guardian's own bit counts in exactly that window just when the sum fits. -/
theorem guardian_pause_lasts_iff (h₀ : AfterInit chain token admin D w₀)
    (htr : trace (step chain) w₀ acts = tr₁ ++ o :: tr₂) (hd : DurationSet chain tr₁ d)
    (hpauses : GuardianPauses chain o call flag) (hnames : flag &&& f.flag = f.flag)
    (hquiet : NoneSucceeds chain (fun call => call.entry.changesPauses) tr₂) :
    ((∀ t, call.sequence ≤ t → (Effective f t (run (step chain) w₀ acts) ↔
        t.toNat < call.sequence.toNat + d.toNat)) ↔
      (call.sequence.toNat + d.toNat < 2 ^ 32 ↔ ¬AdminHolds f o.before)) ∧
    ((∀ t, call.sequence ≤ t → (GuardianInForce f t (run (step chain) w₀ acts) ↔
        t.toNat < call.sequence.toNat + d.toNat)) ↔
      call.sequence.toNat + d.toNat < 2 ^ 32) := by
  obtain ⟨state, hbefore, hafter⟩ := GuardianPauses.lasts h₀ htr hd hpauses hquiet
  have hbit : bit flag f.index = true := and_flag_eq_flag.mp hnames
  have heffective : ∀ t, Effective f t (run (step chain) w₀ acts) ↔
      (bit state.adminFlags f.index || decide (t < call.sequence + d)) = true := by
    intro t
    rw [effective_iff, hafter]
    simp [bit_effectivePauseFlags, PauseState.guardianPaused, hbit]
  have hforce : ∀ t, GuardianInForce f t (run (step chain) w₀ acts) ↔
      (false || decide (t < call.sequence + d)) = true := by
    intro t
    rw [GuardianInForce, hafter]
    simp [PauseState.guardianPaused, hbit]
  have hadmin : ¬AdminHolds f o.before ↔ bit state.adminFlags f.index = false := by
    rw [AdminHolds, hbefore]
    simp
  simp only [heffective, hforce, hadmin]
  refine ⟨window_iff call.sequence d _, ?_⟩
  rw [window_iff call.sequence d false]
  simp

end Window

/-- The guardian pauses tips at ledger 4 for 5 ledgers: they are paused from 4 up to 9. -/
theorem guardian_pause_lasts_sample :
    let acts : List (Action Balances) := [.call ⟨2, [⟨2⟩], .setGuardian ⟨2⟩ ⟨7⟩⟩,
      .call ⟨3, [⟨2⟩], .setGuardianPauseDuration ⟨2⟩ 5⟩, .call ⟨4, [⟨7⟩], .pauseTips ⟨7⟩⟩]
    ∀ t : UInt32, 4 ≤ t → (Effective .tips t (run (step sampleChain) (sampleWorld 50) acts) ↔
      t.toNat < 4 + 5) := by
  intro acts
  have htr : trace (step sampleChain) (sampleWorld 50) acts
      = trace (step sampleChain) (sampleWorld 50) (acts.take 2) ++
        ⟨run (step sampleChain) (sampleWorld 50) (acts.take 2), .call ⟨4, [⟨7⟩], .pauseTips ⟨7⟩⟩,
          run (step sampleChain) (sampleWorld 50) acts⟩ :: [] := rfl
  have hset : DurationSet sampleChain
      (trace (step sampleChain) (sampleWorld 50) (acts.take 2)) 5 := by
    refine .inr ⟨trace (step sampleChain) (sampleWorld 50) (acts.take 1), _, [], _, rfl,
      ⟨rfl, .unit, rfl⟩, rfl, ?_⟩
    intro q hq
    cases hq
  have hquiet : NoneSucceeds sampleChain (fun call => call.entry.changesPauses) [] := by
    intro q hq
    cases hq
  refine (guardian_pause_lasts_iff (f := .tips) sampleWorld_afterInit htr hset
    ⟨⟨rfl, .unit, rfl⟩, ⟨7⟩, rfl, by decide⟩ (by decide) hquiet).1.mpr ?_
  refine iff_of_true (by decide) ?_
  rintro ⟨state, hstate, hbit⟩
  cases hstate
  revert hbit
  decide

/-- The admin sets the longest duration there is, and the guardian pauses tips at ledger 5. Tips
are not paused at ledger 5. -/
theorem longest_guardian_pause_void :
    let acts : List (Action Balances) := [.call ⟨2, [⟨2⟩], .setGuardian ⟨2⟩ ⟨7⟩⟩,
      .call ⟨3, [⟨2⟩], .setGuardianPauseDuration ⟨2⟩ 4294967295⟩,
      .call ⟨5, [⟨7⟩], .pauseTips ⟨7⟩⟩]
    (∃ o ∈ trace (step sampleChain) (sampleWorld 50) acts,
      GuardianPauses sampleChain o ⟨5, [⟨7⟩], .pauseTips ⟨7⟩⟩ pauseFlagTips ∧
        guardianDuration o.before = 4294967295 ∧ o.after = run (step sampleChain) (sampleWorld 50) acts) ∧
      ¬(∀ t : UInt32, 5 ≤ t → (Effective .tips t (run (step sampleChain) (sampleWorld 50) acts) ↔
        t.toNat < 5 + 4294967295)) := by
  intro acts
  have hmem := List.mem_of_getElem? (l := trace (step sampleChain) (sampleWorld 50) acts)
    (i := 2) rfl
  refine ⟨⟨_, hmem, ⟨⟨rfl, .unit, rfl⟩, ⟨7⟩, rfl, by decide⟩, by decide, rfl⟩, fun h => ?_⟩
  obtain ⟨flags, hflags, hset⟩ := (h 5 (by decide)).mpr (by decide)
  have hopen : flags = 0 := Option.some.inj (hflags.symm.trans (by decide))
  rw [hopen] at hset
  revert hset
  decide

/-! ## The reported expiry -/

/-- `e` is what `guardian_pause_expiry_ledger` documents at ledger `t`: 0 when no guardian bit
counts, and otherwise the ledger from which those that do no longer count. -/
def ReportsLive (t : UInt32) (w : World X) (e : UInt32) : Prop :=
  (e = 0 ↔ ∀ f, ¬GuardianInForce f t w) ∧
    ∀ f, GuardianInForce f t w → ∀ u, t ≤ u → (GuardianInForce f u w ↔ u < e)

/-- The guardian paused `f`, and since then the admin has neither paused nor unpaused it. -/
def Standing (chain : Chain X) (tr : List (Occ (World X) (Action X))) (f : Feature) : Prop :=
  ∃ tr₁ o tr₂, tr = tr₁ ++ o :: tr₂ ∧ GuardianPausesFeature chain o f ∧
    ∀ q ∈ tr₂, ¬(AdminPauses chain q f ∨ UnpausesFeature chain q f)

/-- The guardian has not paused anything yet. -/
def NoGuardianPause (chain : Chain X) (tr : List (Occ (World X) (Action X))) : Prop :=
  ∀ q ∈ tr, ¬∃ call flag, GuardianPauses chain q call flag

/-- The last guardian pause of the history was made to expire at `e`. -/
def LastExpiry (chain : Chain X) (tr : List (Occ (World X) (Action X))) (e : UInt32) : Prop :=
  ∃ tr₁ o tr₂ call flag, tr = tr₁ ++ o :: tr₂ ∧ GuardianPauses chain o call flag ∧
    e = call.sequence + guardianDuration o.before ∧ NoGuardianPause chain tr₂

section ReportedStep

variable {chain : Chain X} {o : Occ (World X) (Action X)} {f : Feature}

theorem GuardianPausesFeature.holds (h : GuardianPausesFeature chain o f) :
    GuardianHolds f o.after := by
  obtain ⟨call, flag, hpauses, hnames⟩ := h
  obtain ⟨state, -, hafter⟩ := hpauses.state
  exact ⟨_, hafter, by simp [PauseState.guardianPaused, and_flag_eq_flag.mp hnames]⟩

/-- An admin pause takes the guardian's bit of its features over. -/
theorem AdminPauses.not_guardianHolds (h : AdminPauses chain o f)
    (hdecodes : (pauseStateOf o.before).isSome) : ¬GuardianHolds f o.after := by
  obtain ⟨caller, ⟨call, flag, hcall, hentry, hnames⟩, hadmin⟩ := h
  rintro ⟨state', hstate', hbit⟩
  cases breaker_step hcall.governs hdecodes with
  | adminPaused caller' flag' state entry _ before after =>
    rw [hentry] at entry
    cases entry
    rw [after] at hstate'
    cases hstate'
    simp [PauseState.adminPaused, and_flag_eq_flag.mp hnames] at hbit
  | guardianPaused caller' flag' state entry notAdmin =>
    rw [hentry] at entry
    cases entry
    exact absurd hadmin notAdmin
  | unpaused _ _ entry =>
    obtain ⟨sequence, auth, entry'⟩ := call
    cases entry' <;> cases hentry <;> cases entry
  | kept pauses =>
    rw [hentry] at pauses
    cases pauses

theorem Cleared.not_guardianHolds {w : World X} (h : Cleared f w) : ¬GuardianHolds f w := by
  obtain ⟨state, hstate, -, hbit⟩ := h
  rintro ⟨state', hstate', hbit'⟩
  obtain rfl := Option.some.inj (hstate.symm.trans hstate')
  rw [hbit] at hbit'
  cases hbit'

/-- Any other step leaves the guardian's bit of `f` as it is. -/
theorem guardianHolds_kept (hstep : IsStep (step chain) o)
    (hdecodes : (pauseStateOf o.before).isSome) (hguardian : ¬GuardianPausesFeature chain o f)
    (hadmin : ¬(AdminPauses chain o f ∨ UnpausesFeature chain o f)) :
    GuardianHolds f o.after ↔ GuardianHolds f o.before := by
  unfold GuardianHolds
  rcases succeeds_or_outside hstep with ⟨call, hcall⟩ | ⟨x, hx⟩
  · cases breaker_step hcall.governs hdecodes with
    | adminPaused caller flag state entry admin before after =>
      have hflag : bit flag f.index = false :=
        bit_of_names fun hnames => hadmin (.inl ⟨caller, ⟨call, flag, hcall, entry, hnames⟩, admin⟩)
      rw [before, after]
      simp [PauseState.adminPaused, hflag]
    | guardianPaused caller flag state entry notAdmin before after =>
      have hflag : bit flag f.index = false :=
        bit_of_names fun hnames => hguardian ⟨call, flag, ⟨hcall, caller, entry, notAdmin⟩, hnames⟩
      rw [before, after]
      simp [PauseState.guardianPaused, hflag]
    | unpaused flag state entry before after =>
      have hflag : bit flag f.index = false :=
        bit_of_names fun hnames => hadmin (.inr ⟨call, flag, hcall, entry, hnames⟩)
      rw [before, after]
      simp [PauseState.unpaused, hflag]
    | kept _ _ after => rw [after]
  · rw [hx]
    rfl

/-- Only a guardian pause writes the expiry. -/
theorem guardianExpiry_kept (hstep : IsStep (step chain) o)
    (hdecodes : (pauseStateOf o.before).isSome)
    (hquiet : ¬∃ call flag, GuardianPauses chain o call flag) :
    (breakerOf o.after).map PauseState.guardianExpiry
      = (breakerOf o.before).map PauseState.guardianExpiry := by
  rcases succeeds_or_outside hstep with ⟨call, hcall⟩ | ⟨x, hx⟩
  · cases breaker_step hcall.governs hdecodes with
    | adminPaused _ _ state _ _ before after =>
      rw [before, after]
      rfl
    | guardianPaused caller flag state entry notAdmin =>
      exact absurd ⟨call, flag, hcall, caller, entry, notAdmin⟩ hquiet
    | unpaused _ state _ before after =>
      rw [before, after]
      rfl
    | kept _ _ after => rw [after]
  · rw [hx]
    rfl

end ReportedStep

section Reported

variable {chain : Chain X} {token admin : Address} {D : UInt32} {w₀ : World X}
  {acts : List (Action X)} {f : Feature}

theorem guardianHolds_iff_standing (h₀ : AfterInit chain token admin D w₀) :
    GuardianHolds f (run (step chain) w₀ acts) ↔
      Standing chain (trace (step chain) w₀ acts) f := by
  rw [latch_iff (step chain) (fun o => GuardianPausesFeature chain o f)
    (fun o => AdminPauses chain o f ∨ UnpausesFeature chain o f)
    (fun o _ hset => hset.holds) ?_ ?_]
  · exact or_iff_right fun hstart => (h₀.cleared f).not_guardianHolds hstart.1
  · rintro o ho (hadmin | hunpauses)
    · exact hadmin.not_guardianHolds (h₀.decodes ho)
    · exact (hunpauses.cleared (h₀.decodes ho)).not_guardianHolds
  · exact fun o ho => guardianHolds_kept (isStep_of_mem _ ho) (h₀.decodes ho)

theorem guardianExpiry_of_quiet (h₀ : AfterInit chain token admin D w₀)
    (hquiet : NoGuardianPause chain (trace (step chain) w₀ acts)) :
    (breakerOf (run (step chain) w₀ acts)).map PauseState.guardianExpiry = some 0 := by
  refine run_invariant_of_trace (step chain)
    (P := fun w => (breakerOf w).map PauseState.guardianExpiry = some 0) ?_ ?_
  · obtain ⟨-, hinst, -⟩ := h₀.state
    rw [breakerOf, pauseStateOf, hinst]
    simp
  · intro q hq hbefore
    rw [guardianExpiry_kept (isStep_of_mem _ hq) (h₀.decodes hq) (hquiet q hq), hbefore]

theorem LastExpiry.eq (h₀ : AfterInit chain token admin D w₀) {e : UInt32}
    (h : LastExpiry chain (trace (step chain) w₀ acts) e) :
    (breakerOf (run (step chain) w₀ acts)).map PauseState.guardianExpiry = some e := by
  obtain ⟨tr₁, o, tr₂, call, flag, htr, hpauses, rfl, hquiet⟩ := h
  refine run_invariant_since (step chain)
    (P := fun w => (breakerOf w).map PauseState.guardianExpiry
      = some (call.sequence + guardianDuration o.before)) htr ?_ ?_
  · obtain ⟨state, -, hafter⟩ := hpauses.state
    rw [hafter]
    rfl
  · intro q hq hin hbefore
    rw [guardianExpiry_kept (isStep_of_mem _ hin) (h₀.decodes hin) (hquiet q hq), hbefore]

/-- The guardian has paused nothing yet, or there is a last guardian pause. -/
theorem noGuardianPause_or_lastExpiry (chain : Chain X) (tr : List (Occ (World X) (Action X))) :
    NoGuardianPause chain tr ∨ ∃ e, LastExpiry chain tr e := by
  rcases last_occurrence (fun o => ∃ call flag, GuardianPauses chain o call flag) tr with
    hquiet | ⟨tr₁, o, tr₂, htr, ⟨call, flag, hpauses⟩, hquiet⟩
  · exact .inl hquiet
  · exact .inr ⟨_, tr₁, o, tr₂, call, flag, htr, hpauses, rfl, hquiet⟩

/-- The stored expiry is right when it is 0, or ahead while some guardian bit is stored. -/
theorem reportsLive_iff {w : World X} {state : PauseState} (hstate : breakerOf w = some state)
    (t : UInt32) :
    ReportsLive t w state.guardianExpiry ↔
      state.guardianExpiry = 0 ∨ (t < state.guardianExpiry ∧ ∃ f, GuardianHolds f w) := by
  have hforce : ∀ f u, GuardianInForce f u w ↔ u < state.guardianExpiry ∧ GuardianHolds f w := by
    intro f u
    simp [GuardianInForce, GuardianHolds, hstate]
  simp only [ReportsLive, hforce]
  constructor
  · rintro ⟨hzero, -⟩
    by_cases he : state.guardianExpiry = 0
    · exact .inl he
    · obtain ⟨f, hforce⟩ := not_forall_not.mp fun hnone => he (hzero.mpr hnone)
      exact .inr ⟨hforce.1, f, hforce.2⟩
  · rintro (he | ⟨hahead, f, hholds⟩)
    · rw [he]
      refine ⟨iff_of_true rfl fun f h => ?_, fun f h => ?_⟩
      · exact UInt32.not_lt_zero h.1
      · exact absurd h.1 UInt32.not_lt_zero
    · refine ⟨iff_of_false ?_ fun h => h f ⟨hahead, hholds⟩, fun g hg u _ => ?_⟩
      · intro he
        rw [he] at hahead
        exact UInt32.not_lt_zero hahead
      · exact and_iff_left hg.2

/-- In every run from `init`, `guardian_pause_expiry_ledger` reports the guardian pause in force at
ledger `t`, or 0, just when the guardian has paused nothing yet, or its last pause was given an
expiry that is 0, or one that is ahead while some feature it paused still stands. -/
theorem guardian_expiry_reported_iff (h₀ : AfterInit chain token admin D w₀)
    (acts : List (Action X)) (t : UInt32) (auth : List Address)
    (hlive : InstanceLive (chain.ctx t auth : Ctx DataKey DataKey.Val Event Error X)
      (run (step chain) w₀ acts)) :
    ∃ e w', exec chain ⟨t, auth, .guardianPauseExpiryLedger⟩ (run (step chain) w₀ acts)
        = .ok (.u32 e, w') ∧
      (ReportsLive t (run (step chain) w₀ acts) e ↔
        NoGuardianPause chain (trace (step chain) w₀ acts) ∨
          ∃ e', LastExpiry chain (trace (step chain) w₀ acts) e' ∧
            (e' = 0 ∨ (t < e' ∧ ∃ f, Standing chain (trace (step chain) w₀ acts) f))) := by
  generalize hw : run (step chain) w₀ acts = w at hlive ⊢
  obtain ⟨full, hfull⟩ : ∃ full, pauseStateOf w = some full := by
    rw [← Option.isSome_iff_exists, ← hw]
    exact (h₀.run_fromInit acts).pause
  have hruns : twp (invoke .guardianPauseExpiryLedger) (chain.ctx t auth) w
      fun r _ => r = .u32 full.guardianExpiry := by
    simp only [invoke, program, guardianPauseExpiryLedger, twp_bind, twp_loadInstance,
      twp_pauseState, twp_pure]
    exact ⟨hlive, full, hfull, rfl⟩
  obtain ⟨_, w', hexec, rfl⟩ := hruns
  refine ⟨full.guardianExpiry, w', hexec, ?_⟩
  have hstate : breakerOf w = some { full with notes := none } := by
    rw [breakerOf, hfull]
    rfl
  have hexpiry : (breakerOf w).map PauseState.guardianExpiry = some full.guardianExpiry := by
    rw [hstate]
    rfl
  have hstanding : ∀ f, GuardianHolds f w ↔ Standing chain (trace (step chain) w₀ acts) f := by
    intro f
    rw [← hw]
    exact guardianHolds_iff_standing h₀
  refine (reportsLive_iff hstate t).trans ?_
  simp only [hstanding]
  rw [← hw] at hexpiry
  rcases noGuardianPause_or_lastExpiry chain (trace (step chain) w₀ acts) with
    hquiet | ⟨e, hlast⟩
  · -- the expiry is still that of `init`
    rw [guardianExpiry_of_quiet h₀ hquiet] at hexpiry
    exact iff_of_true (.inl (Option.some.inj hexpiry).symm) (.inl hquiet)
  · rw [hlast.eq h₀] at hexpiry
    obtain rfl := Option.some.inj hexpiry
    have hpaused : ¬NoGuardianPause chain (trace (step chain) w₀ acts) := by
      obtain ⟨tr₁, o, tr₂, call, flag, htr, hpauses, -⟩ := hlast
      exact fun hquiet => hquiet o (by rw [htr]; simp) ⟨call, flag, hpauses⟩
    constructor
    · exact fun h => .inr ⟨_, hlast, h⟩
    · rintro (hquiet | ⟨e', hlast', h⟩)
      · exact absurd hquiet hpaused
      · obtain rfl := Option.some.inj ((hlast.eq h₀).symm.trans (hlast'.eq h₀))
        exact h

end Reported

/-- The guardian pauses tips at ledger 4 for 5 ledgers; at ledger 6 the expiry 9 is reported, as it
should. -/
theorem guardian_expiry_reported_sample :
    let acts : List (Action Balances) := [.call ⟨2, [⟨2⟩], .setGuardian ⟨2⟩ ⟨7⟩⟩,
      .call ⟨3, [⟨2⟩], .setGuardianPauseDuration ⟨2⟩ 5⟩, .call ⟨4, [⟨7⟩], .pauseTips ⟨7⟩⟩]
    ∃ e w', exec sampleChain ⟨6, [], .guardianPauseExpiryLedger⟩
        (run (step sampleChain) (sampleWorld 50) acts) = .ok (.u32 e, w') ∧
      ReportsLive 6 (run (step sampleChain) (sampleWorld 50) acts) e := by
  intro acts
  obtain ⟨e, w', hexec, hiff⟩ := guardian_expiry_reported_iff sampleWorld_afterInit acts 6 []
    (fun hdead => absurd hdead.1 (by decide))
  refine ⟨e, w', hexec, hiff.mpr (.inr ⟨9, ?_, .inr ⟨by decide, .tips, ?_⟩⟩)⟩
  · exact ⟨trace (step sampleChain) (sampleWorld 50) (acts.take 2), _, [], _, pauseFlagTips, rfl,
      ⟨⟨rfl, .unit, rfl⟩, ⟨7⟩, rfl, by decide⟩, by decide, by intro q hq; cases hq⟩
  · exact ⟨trace (step sampleChain) (sampleWorld 50) (acts.take 2), _, [], rfl,
      ⟨_, pauseFlagTips, ⟨⟨rfl, .unit, rfl⟩, ⟨7⟩, rfl, by decide⟩, by decide⟩,
      by intro q hq; cases hq⟩

/-- The same pause at ledger 20, where it has long expired: the expiry reported is still 9. -/
theorem expired_expiry_reported :
    let acts : List (Action Balances) := [.call ⟨2, [⟨2⟩], .setGuardian ⟨2⟩ ⟨7⟩⟩,
      .call ⟨3, [⟨2⟩], .setGuardianPauseDuration ⟨2⟩ 5⟩, .call ⟨4, [⟨7⟩], .pauseTips ⟨7⟩⟩]
    ∃ w', exec sampleChain ⟨20, [], .guardianPauseExpiryLedger⟩
        (run (step sampleChain) (sampleWorld 50) acts) = .ok (.u32 9, w') ∧
      (∀ f, ¬GuardianInForce f 20 (run (step sampleChain) (sampleWorld 50) acts)) ∧
      ¬ReportsLive 20 (run (step sampleChain) (sampleWorld 50) acts) 9 := by
  intro acts
  have hnone : ∀ f, ¬GuardianInForce f 20 (run (step sampleChain) (sampleWorld 50) acts) := by
    rintro f ⟨state, hstate, hahead, -⟩
    cases hstate
    revert hahead
    decide
  refine ⟨_, rfl, hnone, fun h => ?_⟩
  exact absurd (h.1.mpr hnone) (by decide)

end TipJar
