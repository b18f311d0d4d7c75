import StellarTipjar.Lib.Trace
import Mathlib.Order.Basic
import Mathlib.Data.List.Basic
import Mathlib.Tactic.Common

/-!
# Escrow for two parties, settled by the latest state

A deposit is split between two parties. While the channel is open they agree on one split after the
other, each under a higher nonce; either of them can start a dispute with a state of its own, and
states with a higher nonce are taken until the window of the dispute is over. The channel ends when
both settle or, after the window, when it is finalised.

`Step` is one move and `History` a run of them. What a history leaves is decided by its moves:

* `History.last_state` — the share is the one of the last state proposed;
* `History.nonce_mono` — the nonces never go down;
* `History.closed_iff`, `History.closes_last` — a channel is closed by exactly one move, the last;
* `History.waited` — one that was finalised has waited for the window since its dispute began.

A channel that a machine keeps in its state obeys `Laws` when each step makes the move it is labelled
with, or none. The moves of a run are then a history (`Laws.history`), and `Laws.closed_once` and
`Laws.waited` carry the above over to the occurrences of the run.

Nonces are of any type with an order, times are natural numbers.
-/

namespace Lib

/-- Where a channel is in its life. -/
inductive Channel.Phase where
  | opened
  | disputed (since : Nat)
  | closed
deriving DecidableEq, Repr

/-- `share` is what the first party gets of the deposit, the second gets the rest. -/
structure Channel (ν : Type) where
  deposit : Int
  window : Nat
  share : Int
  nonce : ν
  phase : Channel.Phase

namespace Channel

variable {ν : Type}

/-- What the parties do; `claim` is made by one of them alone. -/
inductive Move (ν : Type) where
  | fund (deposit : Int) (window : Nat) (share : Int) (nonce : ν)
  | agree (share : Int) (nonce : ν)
  | settle
  | claim (now : Nat) (share : Int) (nonce : ν)
  | finalise (now : Nat)
deriving DecidableEq, Repr

/-- The state a move proposes: the nonce and the share. -/
def Move.state : Move ν → Option (ν × Int)
  | .fund _ _ share nonce => some (nonce, share)
  | .agree share nonce => some (nonce, share)
  | .claim _ share nonce => some (nonce, share)
  | .settle | .finalise _ => none

/-- The move pays out the deposit. -/
def Move.closes : Move ν → Bool
  | .settle | .finalise _ => true
  | _ => false

/-- The move puts the deposit in. -/
def Move.funds : Move ν → Bool
  | .fund _ _ _ _ => true
  | _ => false

/-- When a party made the move alone. -/
def Move.time : Move ν → Option Nat
  | .claim now _ _ | .finalise now => some now
  | _ => none

/-- What the channel still keeps. -/
def locked (c : Channel ν) : Int := if c.phase = .closed then 0 else c.deposit

variable [Preorder ν]

inductive Step : Option (Channel ν) → Move ν → Channel ν → Prop where
  | fund {deposit : Int} {window : Nat} {share : Int} {nonce : ν} (lo : 0 ≤ share)
      (hi : share ≤ deposit) :
      Step none (.fund deposit window share nonce) ⟨deposit, window, share, nonce, .opened⟩
  | agree {c : Channel ν} {share : Int} {nonce : ν} (phase : c.phase = .opened)
      (newer : c.nonce < nonce) (lo : 0 ≤ share) (hi : share ≤ c.deposit) :
      Step (some c) (.agree share nonce) { c with share, nonce }
  | settle {c : Channel ν} (phase : c.phase = .opened) :
      Step (some c) .settle { c with phase := .closed }
  | challenge {c : Channel ν} {now : Nat} {share : Int} {nonce : ν} (phase : c.phase = .opened)
      (newer : c.nonce ≤ nonce) (lo : 0 ≤ share) (hi : share ≤ c.deposit) :
      Step (some c) (.claim now share nonce) { c with share, nonce, phase := .disputed now }
  | counter {c : Channel ν} {since now : Nat} {share : Int} {nonce : ν}
      (phase : c.phase = .disputed since) (early : now < since + c.window)
      (newer : c.nonce < nonce) (lo : 0 ≤ share) (hi : share ≤ c.deposit) :
      Step (some c) (.claim now share nonce) { c with share, nonce }
  | finalise {c : Channel ν} {since now : Nat} (phase : c.phase = .disputed since)
      (late : since + c.window ≤ now) :
      Step (some c) (.finalise now) { c with phase := .closed }

/-- The moves `ms`, oldest first, lead to the channel. -/
inductive History : List (Move ν) → Option (Channel ν) → Prop where
  | nil : History [] none
  | snoc {ms : List (Move ν)} {before : Option (Channel ν)} {m : Move ν} {c : Channel ν}
      (h : History ms before) (step : Step before m c) : History (ms ++ [m]) (some c)

/-! ## One move -/

namespace Step

variable {before : Option (Channel ν)} {c c' : Channel ν} {m : Move ν}

theorem share_bounds (h : Step before m c')
    (hbefore : ∀ c ∈ before, 0 ≤ c.share ∧ c.share ≤ c.deposit) :
    0 ≤ c'.share ∧ c'.share ≤ c'.deposit := by
  cases h with
  | fund lo hi => exact ⟨lo, hi⟩
  | agree phase newer lo hi => exact ⟨lo, hi⟩
  | @settle c phase => exact hbefore c rfl
  | challenge phase newer lo hi => exact ⟨lo, hi⟩
  | counter phase early newer lo hi => exact ⟨lo, hi⟩
  | @finalise c since now phase late => exact hbefore c rfl

/-- A move that proposes a state makes it the channel's, any other leaves the state alone. -/
theorem state_cases (h : Step before m c') :
    m.state = some (c'.nonce, c'.share) ∨
      m.state = none ∧ ∃ c ∈ before, c'.nonce = c.nonce ∧ c'.share = c.share := by
  cases h with
  | settle phase => exact .inr ⟨rfl, _, rfl, rfl, rfl⟩
  | finalise phase late => exact .inr ⟨rfl, _, rfl, rfl, rfl⟩
  | _ => exact .inl rfl

theorem nonce_le (h : Step (some c) m c') : c.nonce ≤ c'.nonce := by
  cases h with
  | agree phase newer lo hi => exact newer.le
  | settle phase => exact le_rfl
  | challenge phase newer lo hi => exact newer
  | counter phase early newer lo hi => exact newer.le
  | finalise phase late => exact le_rfl

theorem not_closed (h : Step (some c) m c') : c.phase ≠ .closed := by
  intro hclosed
  cases h with
  | agree phase => rw [hclosed] at phase; cases phase
  | settle phase => rw [hclosed] at phase; cases phase
  | challenge phase => rw [hclosed] at phase; cases phase
  | counter phase => rw [hclosed] at phase; cases phase
  | finalise phase => rw [hclosed] at phase; cases phase

theorem closes_iff (h : Step before m c') : m.closes = true ↔ c'.phase = .closed := by
  cases h with
  | fund lo hi => simp [Move.closes]
  | agree phase newer lo hi => simp [Move.closes, phase]
  | settle phase => simp [Move.closes]
  | challenge phase newer lo hi => simp [Move.closes]
  | counter phase early newer lo hi => simp [Move.closes, phase]
  | finalise phase late => simp [Move.closes]

theorem funds_iff (h : Step before m c') : m.funds = true ↔ before = none := by
  cases h <;> simp [Move.funds]

/-- Only funding and an agreement leave a channel open. -/
theorem of_opened (h : Step before m c') (hphase : c'.phase = .opened) :
    m.funds = true ∨ ∃ share nonce, m = .agree share nonce := by
  cases h with
  | fund lo hi => exact .inl rfl
  | agree phase newer lo hi => exact .inr ⟨_, _, rfl⟩
  | settle phase => cases hphase
  | challenge phase newer lo hi => cases hphase
  | counter phase early newer lo hi =>
    rw [phase] at hphase
    cases hphase
  | finalise phase late => cases hphase

/-- An agreement is about an open channel, and leaves it with the share agreed on. -/
theorem of_agree {share : Int} {nonce : ν} (h : Step before (.agree share nonce) c') :
    ∃ c ∈ before, c.phase = .opened ∧ c'.share = share := by
  cases h with
  | @agree c share nonce phase newer lo hi => exact ⟨c, rfl, phase, rfl⟩

/-- Where no newer claim is possible a dispute can only end. -/
theorem of_last {since : Nat} (h : Step (some c) m c') (hphase : c.phase = .disputed since)
    (hmax : c'.nonce ≤ c.nonce) : c' = { c with phase := .closed } := by
  cases h with
  | agree phase newer lo hi => exact absurd (phase.symm.trans hphase) (by simp)
  | settle phase => exact absurd (phase.symm.trans hphase) (by simp)
  | challenge phase newer lo hi => exact absurd (phase.symm.trans hphase) (by simp)
  | counter phase early newer lo hi => exact absurd (newer.trans_le hmax) (lt_irrefl _)
  | finalise phase late => rfl

theorem of_fund {deposit share : Int} {window : Nat} {nonce : ν}
    (h : Step before (.fund deposit window share nonce) c') : c'.deposit = deposit := by
  cases h
  rfl

/-- The money in the channel changes by what the move puts in and pays out. -/
theorem locked_eq (h : Step before m c') :
    c'.locked = (before.elim 0 locked) + (if m.funds then c'.deposit else 0)
      - (if m.closes then c'.deposit else 0) := by
  cases h with
  | fund lo hi => simp [locked, Move.funds, Move.closes]
  | agree phase newer lo hi => simp [locked, Move.funds, Move.closes]
  | settle phase => simp [locked, Move.funds, Move.closes, phase]
  | challenge phase newer lo hi => simp [locked, Move.funds, Move.closes, phase]
  | counter phase early newer lo hi => simp [locked, Move.funds, Move.closes]
  | finalise phase late => simp [locked, Move.funds, Move.closes, phase]

end Step

/-! ## A run of moves -/

/-- The states proposed, oldest first. -/
def states (ms : List (Move ν)) : List (ν × Int) := ms.filterMap Move.state

namespace History

variable {ms : List (Move ν)} {at_ : Option (Channel ν)} {c : Channel ν}

theorem eq_nil (h : History ms none) : ms = [] := by
  cases h
  rfl

/-- The state of the channel is the last one proposed. -/
theorem last_state (h : History ms at_) :
    (states ms).getLast? = at_.map fun c => (c.nonce, c.share) := by
  induction h with
  | nil => rfl
  | @snoc ms before m c h step ih =>
    rw [states, List.filterMap_append, List.filterMap_cons, List.filterMap_nil]
    rcases step.state_cases with hstate | ⟨hstate, c₀, hc₀, hnonce, hshare⟩
    · rw [hstate]
      exact List.getLast?_concat
    · rw [hstate, List.append_nil, Option.map_some, hnonce, hshare]
      obtain rfl := hc₀
      exact ih

/-- The nonces of the states never go down, and the channel has the last one. -/
theorem nonce_mono (h : History ms at_) :
    (states ms).Pairwise (fun p q => p.1 ≤ q.1) ∧
      ∀ c ∈ at_, ∀ p ∈ states ms, p.1 ≤ c.nonce := by
  induction h with
  | nil => exact ⟨.nil, fun c hc => by cases hc⟩
  | @snoc ms before m c h step ih =>
    obtain ⟨hsorted, hle⟩ := ih
    -- the new nonce is not below any of the old ones
    have hnew : ∀ p ∈ states ms, p.1 ≤ c.nonce := by
      intro p hp
      cases before with
      | none =>
        rw [h.eq_nil] at hp
        cases hp
      | some c₀ => exact (hle c₀ rfl p hp).trans step.nonce_le
    have hstates : states (ms ++ [m]) = states ms ++ m.state.toList := by
      rw [states, List.filterMap_append]
      cases hm : m.state <;> simp [states, hm]
    rw [hstates]
    rcases step.state_cases with hstate | ⟨hstate, -⟩
    · rw [hstate]
      refine ⟨List.pairwise_append.mpr ⟨hsorted, List.pairwise_singleton _ _, ?_⟩, ?_⟩
      · intro p hp q hq
        obtain rfl := List.mem_singleton.mp hq
        exact hnew p hp
      · intro c' hc' p hp
        obtain rfl := Option.some.inj hc'
        rcases List.mem_append.mp hp with hp | hp
        · exact hnew p hp
        · obtain rfl := List.mem_singleton.mp hp
          exact le_rfl
    · rw [hstate, Option.toList_none, List.append_nil]
      refine ⟨hsorted, fun c' hc' => ?_⟩
      obtain rfl := Option.some.inj hc'
      exact hnew

/-- A channel is closed exactly when a move closed it. -/
theorem closed_iff (h : History ms (some c)) :
    c.phase = .closed ↔ ∃ m ∈ ms, m.closes = true := by
  generalize hat : some c = at_ at h
  induction h generalizing c with
  | nil => cases hat
  | @snoc ms before m c' h step ih =>
    obtain rfl := Option.some.inj hat
    rw [← step.closes_iff]
    constructor
    · intro hm
      exact ⟨m, by simp, hm⟩
    · intro hex
      obtain ⟨m', hm', hcloses⟩ := hex
      rcases List.mem_append.mp hm' with hm' | hm'
      · -- an earlier move would have closed the channel before this one
        cases before with
        | none =>
          rw [h.eq_nil] at hm'
          cases hm'
        | some c₀ => exact absurd ((ih rfl).mpr ⟨m', hm', hcloses⟩) step.not_closed
      · obtain rfl := List.mem_singleton.mp hm'
        exact hcloses

/-- The move that closes is the last. -/
theorem closes_last (h : History ms at_) {ms₁ ms₂ : List (Move ν)} {m : Move ν}
    (hms : ms = ms₁ ++ m :: ms₂) (hm : m.closes = true) : ms₂ = [] := by
  cases h with
  | nil => simp at hms
  | @snoc ms' before m' c h step =>
    rcases List.eq_nil_or_concat ms₂ with hnil | ⟨ms₃, m₃, rfl⟩
    · exact hnil
    · have hms : ms' ++ [m'] = (ms₁ ++ m :: ms₃) ++ [m₃] := by
        rw [hms]
        simp
      obtain ⟨hms', -⟩ := List.append_inj' hms rfl
      cases before with
      | none =>
        rw [h.eq_nil] at hms'
        simp at hms'
      | some c₀ =>
        refine absurd (h.closed_iff.mpr ⟨m, ?_, hm⟩) step.not_closed
        rw [hms']
        simp

/-- While a dispute runs it was started by a claim, and everything since was claimed within the
window. -/
theorem disputed (h : History ms (some c)) {since : Nat} (hphase : c.phase = .disputed since) :
    ∃ share nonce ms₁ ms₂, ms = ms₁ ++ .claim since share nonce :: ms₂ ∧
      ∀ m ∈ ms₂, ∃ now s n, m = .claim now s n ∧ now < since + c.window := by
  generalize hat : some c = at_ at h
  induction h generalizing c with
  | nil => cases hat
  | @snoc ms before m c' h step ih =>
    obtain rfl := Option.some.inj hat
    cases step with
    | fund lo hi => cases hphase
    | agree phase newer lo hi =>
      rw [phase] at hphase
      cases hphase
    | settle phase => cases hphase
    | @challenge c₀ now share nonce phase newer lo hi =>
      cases hphase
      exact ⟨share, nonce, ms, [], rfl, by simp⟩
    | @counter c₀ since' now share nonce phase early newer lo hi =>
      rw [phase] at hphase
      cases hphase
      obtain ⟨share', nonce', ms₁, ms₂, hms, hms₂⟩ := ih phase rfl
      refine ⟨share', nonce', ms₁, ms₂ ++ [.claim now share nonce], ?_, ?_⟩
      · rw [hms]
        simp
      · intro m hm
        rcases List.mem_append.mp hm with hm | hm
        · exact hms₂ m hm
        · obtain rfl := List.mem_singleton.mp hm
          exact ⟨now, share, nonce, rfl, early⟩
    | finalise phase late => cases hphase

/-- A channel that was finalised had been disputed for the whole window. -/
theorem waited (h : History ms at_) {ms₀ : List (Move ν)} {now : Nat}
    (hms : ms = ms₀ ++ [.finalise now]) :
    ∃ c ∈ at_, ∃ since share nonce ms₁ ms₂, ms₀ = ms₁ ++ .claim since share nonce :: ms₂ ∧
      since + c.window ≤ now ∧
      ∀ m ∈ ms₂, ∃ t s n, m = .claim t s n ∧ t < since + c.window := by
  cases h with
  | nil => simp at hms
  | @snoc ms' before m c h step =>
    obtain ⟨rfl, hm⟩ := List.append_inj' hms rfl
    obtain rfl := List.singleton_inj.mp hm
    cases step with
    | @finalise c₀ since now phase late =>
      obtain ⟨share, nonce, ms₁, ms₂, hms₀, hms₂⟩ := h.disputed phase
      exact ⟨_, rfl, since, share, nonce, ms₁, ms₂, hms₀, late, hms₂⟩

/-- A claim that no higher nonce can follow is the last word: nothing but the end of the dispute
comes after it. -/
theorem last_word (h : History ms at_) {limit : ν} (hmax : ∀ p ∈ states ms, p.1 ≤ limit)
    {ms₁ ms₂ : List (Move ν)} {now : Nat} {share : Int}
    (hms : ms = ms₁ ++ .claim now share limit :: ms₂) :
    (∃ c, at_ = some c ∧ c.share = share ∧ c.nonce = limit ∧ c.phase ≠ .opened) ∧
      ∀ m ∈ ms₂, ∃ t, m = .finalise t := by
  induction h generalizing ms₂ with
  | nil => exact absurd hms.symm (by simp)
  | @snoc ms before m c h step ih =>
    rcases List.eq_nil_or_concat ms₂ with rfl | ⟨ms₃, m', rfl⟩
    · obtain ⟨rfl, hm⟩ := List.append_inj' hms rfl
      obtain rfl := List.singleton_inj.mp hm
      refine ⟨⟨c, rfl, ?_⟩, by simp⟩
      cases step with
      | challenge phase newer lo hi => exact ⟨rfl, rfl, by simp⟩
      | counter phase early newer lo hi => exact ⟨rfl, rfl, by simp [phase]⟩
    · rw [List.concat_eq_append] at hms ⊢
      rw [← List.cons_append, ← List.append_assoc] at hms
      obtain ⟨rfl, hm⟩ := List.append_inj' hms rfl
      obtain rfl := List.singleton_inj.mp hm
      have hbound : ∀ p ∈ states (ms₁ ++ .claim now share limit :: ms₃), p.1 ≤ limit := by
        intro p hp
        refine hmax p ?_
        rw [states, List.filterMap_append]
        exact List.mem_append_left _ hp
      obtain ⟨⟨c₀, rfl, hshare, hnonce, hphase⟩, hends⟩ := ih hbound rfl
      -- a newer claim would exceed the limit
      cases step with
      | agree phase newer lo hi => exact absurd phase hphase
      | settle phase => exact absurd phase hphase
      | challenge phase newer lo hi => exact absurd phase hphase
      | @counter _ since t share' nonce phase early newer lo hi =>
        have hle : nonce ≤ limit := hmax (nonce, share') (by simp [states, Move.state])
        exact absurd (hnonce ▸ newer.trans_le hle) (lt_irrefl _)
      | @finalise _ since t phase late =>
        refine ⟨⟨_, rfl, hshare, hnonce, by simp⟩, fun m hm => ?_⟩
        rcases List.mem_append.mp hm with hm | hm
        · exact hends m hm
        · exact ⟨t, List.mem_singleton.mp hm⟩

end History

/-! ## A channel in the state of a machine -/

section Machine

variable {σ α : Type} (step : σ → α → σ)

/-- `get` reads a channel off the state, and `label` is the move a step makes there. -/
structure Laws (get : σ → Option (Channel ν)) (label : Occ σ α → Option (Move ν)) (s : σ)
    (acts : List α) : Prop where
  start : get s = none
  moves : ∀ o ∈ trace step s acts,
    (∃ m c, label o = some m ∧ Step (get o.before) m c ∧ get o.after = some c) ∨
      label o = none ∧ get o.after = get o.before

variable {step} {get : σ → Option (Channel ν)} {label : Occ σ α → Option (Move ν)} {s : σ}
  {acts : List α} {c : Channel ν}

namespace Laws

theorem history (h : Laws step get label s acts) :
    History ((trace step s acts).filterMap label) (get (run step s acts)) := by
  obtain ⟨hstart, hmoves⟩ := h
  induction acts using List.reverseRecOn with
  | nil =>
    rw [run_nil, hstart]
    exact .nil
  | append_singleton acts a ih =>
    rw [trace_concat] at hmoves ⊢
    have ih := ih fun o ho => hmoves o (List.mem_append_left _ ho)
    rw [run_concat, List.filterMap_append, List.filterMap_cons, List.filterMap_nil]
    rcases hmoves _ (List.mem_append_right _ (List.mem_singleton_self _)) with hmove | hquiet
    · obtain ⟨m, c, hlabel, hstep, hafter⟩ := hmove
      rw [hlabel]
      rw [show get (step (run step s acts) a) = some c from hafter]
      exact ih.snoc hstep
    · obtain ⟨hlabel, hafter⟩ := hquiet
      rw [hlabel, List.append_nil]
      rw [show get (step (run step s acts) a) = get (run step s acts) from hafter]
      exact ih

/-- From a step after which nothing moves the channel it stays what that step left. -/
theorem kept_since (h : Laws step get label s acts) {tr₁ tr₂ : List (Occ σ α)} {o : Occ σ α}
    (htr : trace step s acts = tr₁ ++ o :: tr₂) (hquiet : ∀ q ∈ tr₂, label q = none) :
    get (run step s acts) = get o.after := by
  refine run_invariant_since step (P := fun t => get t = get o.after) htr rfl ?_
  intro q hq hin hbefore
  rcases h.moves q hin with ⟨m, c, hlabel, -⟩ | ⟨-, hafter⟩
  · rw [hquiet q hq] at hlabel
    cases hlabel
  · rw [hafter, hbefore]

/-- A closed channel was closed by one step, which left it as it is; no step moved it afterwards, and
none closed it before. -/
theorem closed_once (h : Laws step get label s acts) (hget : get (run step s acts) = some c)
    (hclosed : c.phase = .closed) :
    ∃ tr₁ o tr₂ m, trace step s acts = tr₁ ++ o :: tr₂ ∧ label o = some m ∧ m.closes = true ∧
      get o.after = some c ∧ (∀ q ∈ tr₂, label q = none) ∧
      ∀ q ∈ tr₁, ∀ n, label q = some n → n.closes = false := by
  have hhistory := h.history
  rw [hget] at hhistory
  obtain ⟨m, hm, hcloses⟩ := hhistory.closed_iff.mp hclosed
  obtain ⟨o, ho, hlabel⟩ := List.mem_filterMap.mp hm
  obtain ⟨tr₁, tr₂, htr⟩ := List.append_of_mem ho
  have hmoves : (trace step s acts).filterMap label
      = tr₁.filterMap label ++ m :: tr₂.filterMap label := by
    rw [htr, List.filterMap_append, List.filterMap_cons, hlabel]
  have hquiet : ∀ q ∈ tr₂, label q = none :=
    List.filterMap_eq_nil_iff.mp (hhistory.closes_last hmoves hcloses)
  refine ⟨tr₁, o, tr₂, m, htr, hlabel, hcloses, ?_, hquiet, ?_⟩
  · rw [← h.kept_since htr hquiet, hget]
  · intro q hq n hn
    by_contra hclosing
    obtain ⟨l₁, l₂, hl⟩ := List.append_of_mem (List.mem_filterMap.mpr ⟨q, hq, hn⟩)
    rw [hl, List.append_assoc, List.cons_append] at hmoves
    have hnil := hhistory.closes_last hmoves (Bool.not_eq_false _ ▸ hclosing)
    simp at hnil

/-- As long as a channel is not closed nothing has closed it. -/
theorem not_closes (h : Laws step get label s acts) (hget : get (run step s acts) = some c)
    (hclosed : c.phase ≠ .closed) :
    ∀ o ∈ trace step s acts, ∀ m, label o = some m → m.closes = false := by
  intro o ho m hm
  have hhistory := h.history
  rw [hget] at hhistory
  by_contra hcloses
  refine hclosed (hhistory.closed_iff.mpr ⟨m, List.mem_filterMap.mpr ⟨o, ho, hm⟩, ?_⟩)
  exact Bool.not_eq_false _ ▸ hcloses

/-- A step that finalises a channel comes after one that started the dispute a whole window before;
what moved the channel in between was claimed within the window. -/
theorem waited (h : Laws step get label s acts) {tr₁ tr₂ : List (Occ σ α)} {o : Occ σ α} {now : Nat}
    (htr : trace step s acts = tr₁ ++ o :: tr₂) (hlabel : label o = some (.finalise now)) :
    ∃ c, get o.after = some c ∧ ∃ p since share nonce tr tr', tr₁ = tr ++ p :: tr' ∧
      label p = some (.claim since share nonce) ∧ since + c.window ≤ now ∧
      ∀ q ∈ tr', ∀ m, label q = some m → ∃ t s n, m = .claim t s n ∧ t < since + c.window := by
  -- the run up to and with the step
  have hprefix : trace step s acts = (tr₁ ++ [o]) ++ tr₂ := by
    rw [htr]
    simp
  obtain ⟨l, hl⟩ := trace_prefix step hprefix
  have hrun : run step s l = o.after := by
    rw [← endState_trace step s l, ← hl]
    simp [endState]
  have hlaws : Laws step get label s l := by
    refine ⟨h.start, fun q hq => h.moves q ?_⟩
    rw [← hl] at hq
    rw [htr]
    rcases List.mem_append.mp hq with hq | hq
    · exact List.mem_append_left _ hq
    · rw [List.mem_singleton.mp hq]
      simp
  have hmoves : (trace step s l).filterMap label
      = tr₁.filterMap label ++ [.finalise now] := by
    rw [← hl, List.filterMap_append, List.filterMap_cons, hlabel, List.filterMap_nil]
  obtain ⟨c, hc, since, share, nonce, ms₁, ms₂, hms, hlate, hwithin⟩ :=
    hlaws.history.waited hmoves
  rw [hrun] at hc
  obtain ⟨tr, rest, rfl, -, hrest⟩ := List.filterMap_eq_append_iff.mp hms
  obtain ⟨quiet, p, tr', rfl, hquiet, hp, rfl⟩ := List.filterMap_eq_cons_iff.mp hrest
  refine ⟨c, hc, p, since, share, nonce, tr ++ quiet, tr', by simp, hp, hlate, ?_⟩
  intro q hq m hm
  exact hwithin m (List.mem_filterMap.mpr ⟨q, hq, hm⟩)

end Laws

end Machine

end Channel

end Lib
