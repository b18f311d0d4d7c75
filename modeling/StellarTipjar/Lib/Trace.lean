import Mathlib.Data.List.Induction
import Mathlib.Algebra.BigOperators.Group.List.Basic
import Mathlib.Algebra.Ring.Int.Defs

/-!
# Runs of a deterministic state machine and their histories

A machine is a total step function `step : σ → α → σ`. `run` folds it over a list of actions and
`trace` keeps, for every action, the state before and after it. The rules here are the ones
temporal arguments about such machines are assembled from:

* `run_invariant` / `trace_invariant` — an invariant kept by every step holds at the end of a run
  and at every occurrence of its trace; `run_invariant_of_trace` when only the steps of one run
  keep it;
* `trace_split` — an occurrence in the middle of a trace splits the run around it;
* `last_occurrence` — the last occurrence of a kind, if there is one;
* `latch_iff` — a property that some occurrences switch on and others off holds just when the last
  of them switched it on;
* `PendingLaws` — a register that some occurrences put a value into and others clear. "The
  pending entry was put there by that proposal, and nothing disturbed it since" is `last_put`.
-/

namespace Lib

/-- One step of a run as it happened. -/
structure Occ (σ α : Type) where
  before : σ
  act : α
  after : σ

section Machine

variable {σ α : Type} (step : σ → α → σ)

/-- The state after a list of actions. -/
def run (s : σ) (acts : List α) : σ := acts.foldl step s

/-- The occurrences of a run, in order. -/
def trace : σ → List α → List (Occ σ α)
  | _, [] => []
  | s, a :: acts => ⟨s, a, step s a⟩ :: trace (step s a) acts

@[simp] theorem run_nil (s : σ) : run step s [] = s := rfl

@[simp] theorem run_cons (s : σ) (a : α) (acts : List α) :
    run step s (a :: acts) = run step (step s a) acts := rfl

theorem run_append (s : σ) (l₁ l₂ : List α) :
    run step s (l₁ ++ l₂) = run step (run step s l₁) l₂ :=
  List.foldl_append

theorem run_concat (s : σ) (acts : List α) (a : α) :
    run step s (acts ++ [a]) = step (run step s acts) a := by
  rw [run_append]
  rfl

@[simp] theorem trace_nil (s : σ) : trace step s [] = [] := rfl

theorem trace_append (s : σ) (l₁ l₂ : List α) :
    trace step s (l₁ ++ l₂) = trace step s l₁ ++ trace step (run step s l₁) l₂ := by
  induction l₁ generalizing s with
  | nil => rfl
  | cons a l ih => simp [trace, ih]

theorem trace_concat (s : σ) (acts : List α) (a : α) :
    trace step s (acts ++ [a])
      = trace step s acts ++ [⟨run step s acts, a, step (run step s acts) a⟩] := by
  rw [trace_append]
  rfl

/-- The state an occurrence list that follows `s` ends in. -/
def endState (s : σ) (tr : List (Occ σ α)) : σ := (tr.map Occ.after).getLastD s

theorem endState_trace (s : σ) (acts : List α) :
    endState s (trace step s acts) = run step s acts := by
  induction acts generalizing s with
  | nil => rfl
  | cons a l ih =>
    rw [run_cons, ← ih]
    simp only [endState, trace, List.map_cons, List.getLastD_cons]

theorem map_act_trace (s : σ) (acts : List α) : (trace step s acts).map Occ.act = acts := by
  induction acts generalizing s with
  | nil => rfl
  | cons a l ih => simp [trace, ih]

/-- An occurrence in the middle of a trace splits the run around it. -/
theorem trace_split {s : σ} {acts : List α} {tr₁ tr₂ : List (Occ σ α)} {o : Occ σ α}
    (h : trace step s acts = tr₁ ++ o :: tr₂) :
    ∃ l₁ l₂, acts = l₁ ++ o.act :: l₂ ∧ tr₁ = trace step s l₁ ∧ o.before = run step s l₁ ∧
      o.after = step o.before o.act ∧ tr₂ = trace step o.after l₂ := by
  induction tr₁ generalizing s acts with
  | nil =>
    cases acts with
    | nil => cases h
    | cons a l =>
      simp only [trace, List.nil_append, List.cons.injEq] at h
      obtain ⟨rfl, rfl⟩ := h
      exact ⟨[], l, rfl, rfl, rfl, rfl, rfl⟩
  | cons q tr ih =>
    cases acts with
    | nil => cases h
    | cons a l =>
      simp only [trace, List.cons_append, List.cons.injEq] at h
      obtain ⟨rfl, htail⟩ := h
      obtain ⟨l₁, l₂, rfl, rfl, hbefore, hafter, htr₂⟩ := ih htail
      exact ⟨a :: l₁, l₂, rfl, rfl, hbefore, hafter, htr₂⟩

/-- What follows an occurrence of a trace is a run from the state it left. -/
theorem trace_tail {s : σ} {acts : List α} {tr₁ tr₂ : List (Occ σ α)} {o : Occ σ α}
    (h : trace step s acts = tr₁ ++ o :: tr₂) :
    ∃ l, tr₂ = trace step o.after l ∧ run step s acts = run step o.after l := by
  obtain ⟨l₁, l₂, rfl, -, hbefore, hafter, htail⟩ := trace_split step h
  refine ⟨l₂, htail, ?_⟩
  rw [run_append, run_cons, ← hbefore, ← hafter]

/-- The first part of a trace is the trace of the first actions. -/
theorem trace_prefix {s : σ} {acts : List α} {tr₁ tr₂ : List (Occ σ α)}
    (h : trace step s acts = tr₁ ++ tr₂) : ∃ l, tr₁ = trace step s l := by
  induction tr₁ generalizing s acts with
  | nil => exact ⟨[], rfl⟩
  | cons q tr ih =>
    cases acts with
    | nil => cases h
    | cons a l =>
      simp only [trace, List.cons_append, List.cons.injEq] at h
      obtain ⟨rfl, htail⟩ := h
      obtain ⟨l₁, rfl⟩ := ih htail
      exact ⟨a :: l₁, rfl⟩

/-- Every occurrence is a step of the machine from a state the run reaches. -/
theorem trace_mem {s : σ} {acts : List α} {o : Occ σ α} (h : o ∈ trace step s acts) :
    ∃ l₁ l₂, acts = l₁ ++ o.act :: l₂ ∧ o.before = run step s l₁ ∧
      o.after = step o.before o.act := by
  obtain ⟨tr₁, tr₂, htr⟩ := List.append_of_mem h
  obtain ⟨l₁, l₂, hacts, -, hbefore, hafter, -⟩ := trace_split step htr
  exact ⟨l₁, l₂, hacts, hbefore, hafter⟩

/-- What happened between two occurrences of a trace is a run from the first to the second. -/
theorem trace_between {s : σ} {acts : List α} {tr₁ mid tr₂ : List (Occ σ α)} {p q : Occ σ α}
    (h : trace step s acts = tr₁ ++ p :: mid ++ q :: tr₂) :
    ∃ l, mid = trace step p.after l ∧ q.before = run step p.after l := by
  rw [List.append_assoc, List.cons_append] at h
  obtain ⟨l₁, l₂, -, -, -, -, htail⟩ := trace_split step h
  obtain ⟨l, l₃, -, hmid, hbefore, -, -⟩ := trace_split step htail.symm
  exact ⟨l, hmid, hbefore⟩

/-! ## Invariants -/

/-- An invariant kept by every step of the run holds at its end. -/
theorem run_invariant_of_trace {P : σ → Prop} {s : σ} {acts : List α} (hs : P s)
    (hstep : ∀ o ∈ trace step s acts, P o.before → P o.after) : P (run step s acts) := by
  induction acts generalizing s with
  | nil => exact hs
  | cons a l ih =>
    rw [run_cons]
    have hfirst : P (step s a) := hstep ⟨s, a, step s a⟩ (by simp [trace]) hs
    exact ih hfirst fun o ho => hstep o (by simp [trace, ho])

/-- Such an invariant also holds right before every occurrence of the run. -/
theorem trace_invariant_of_trace {P : σ → Prop} {s : σ} {acts : List α} {o : Occ σ α} (hs : P s)
    (hstep : ∀ q ∈ trace step s acts, P q.before → P q.after) (ho : o ∈ trace step s acts) :
    P o.before := by
  obtain ⟨tr₁, tr₂, htr⟩ := List.append_of_mem ho
  obtain ⟨l₁, l₂, -, hl₁, hbefore, -⟩ := trace_split step htr
  rw [hbefore]
  refine run_invariant_of_trace step hs fun q hq => hstep q ?_
  rw [htr, hl₁]
  exact List.mem_append_left _ hq

/-- What holds after an occurrence and is kept by all that follow it holds at the end. -/
theorem run_invariant_since {P : σ → Prop} {s : σ} {acts : List α} {tr₁ tr₂ : List (Occ σ α)}
    {o : Occ σ α} (htr : trace step s acts = tr₁ ++ o :: tr₂) (ho : P o.after)
    (hstep : ∀ q ∈ tr₂, q ∈ trace step s acts → P q.before → P q.after) : P (run step s acts) := by
  obtain ⟨l, hl, hrun⟩ := trace_tail step htr
  rw [hrun]
  refine run_invariant_of_trace step ho fun q hq hbefore => ?_
  rw [← hl] at hq
  have hin : q ∈ trace step s acts := by
    rw [htr]
    exact List.mem_append_right _ (List.mem_cons_of_mem o hq)
  exact hstep q hq hin hbefore

/-- In particular one kept by every step there is. -/
theorem run_invariant {P : σ → Prop} (hstep : ∀ s a, P s → P (step s a)) {s : σ} (hs : P s)
    (acts : List α) : P (run step s acts) := by
  refine run_invariant_of_trace step hs fun o ho hbefore => ?_
  obtain ⟨l₁, l₂, -, -, hafter⟩ := trace_mem step ho
  rw [hafter]
  exact hstep o.before o.act hbefore

/-- It then also holds right before every occurrence. -/
theorem trace_invariant {P : σ → Prop} (hstep : ∀ s a, P s → P (step s a)) {s : σ} (hs : P s)
    {acts : List α} {o : Occ σ α} (ho : o ∈ trace step s acts) : P o.before := by
  obtain ⟨l₁, l₂, -, hbefore, -⟩ := trace_mem step ho
  rw [hbefore]
  exact run_invariant step hstep hs l₁

/-- A quantity that every step of the run moves by `δ` ends at its start plus the sum of the
moves. -/
theorem run_eq_add_sum {f : σ → ℤ} {δ : Occ σ α → ℤ} {s : σ} {acts : List α}
    (hstep : ∀ o ∈ trace step s acts, f o.after = f o.before + δ o) :
    f (run step s acts) = f s + ((trace step s acts).map δ).sum := by
  induction acts generalizing s with
  | nil => simp
  | cons a l ih =>
    have hfirst : f (step s a) = f s + δ ⟨s, a, step s a⟩ :=
      hstep ⟨s, a, step s a⟩ (by simp [trace])
    rw [run_cons, ih fun o ho => hstep o (by simp [trace, ho]), hfirst]
    simp only [trace, List.map_cons, List.sum_cons]
    omega

theorem sum_map_sub {ι : Type} (l : List ι) (f g : ι → ℤ) :
    (l.map fun i => f i - g i).sum = (l.map f).sum - (l.map g).sum := by
  induction l with
  | nil => simp
  | cons i l ih =>
    simp only [List.map_cons, List.sum_cons, ih]
    omega

/-- A history has no occurrence of a kind, or a last one. -/
theorem last_occurrence {ι : Type} (P : ι → Prop) (tr : List ι) :
    (∀ o ∈ tr, ¬P o) ∨ ∃ tr₁ o tr₂, tr = tr₁ ++ o :: tr₂ ∧ P o ∧ ∀ q ∈ tr₂, ¬P q := by
  classical
  induction tr using List.reverseRecOn with
  | nil => exact .inl (by simp)
  | append_singleton tr o ih =>
    by_cases ho : P o
    · exact .inr ⟨tr, o, [], rfl, ho, by simp⟩
    · rcases ih with hnone | ⟨tr₁, p, tr₂, rfl, hp, hquiet⟩
      · refine .inl fun q hq => ?_
        rcases List.mem_append.mp hq with hq | hq
        · exact hnone q hq
        · rw [List.mem_singleton.mp hq]
          exact ho
      · refine .inr ⟨tr₁, p, tr₂ ++ [o], by simp, hp, fun q hq => ?_⟩
        rcases List.mem_append.mp hq with hq | hq
        · exact hquiet q hq
        · rw [List.mem_singleton.mp hq]
          exact ho

/-- Some element of the history has `P` with those before it, and none after it has `Q`. -/
def Since {ι : Type} (P : List ι → ι → Prop) (Q : ι → Prop) (l : List ι) : Prop :=
  ∃ l₁ a l₂, l = l₁ ++ a :: l₂ ∧ P l₁ a ∧ ∀ b ∈ l₂, ¬Q b

theorem since_nil {ι : Type} {P : List ι → ι → Prop} {Q : ι → Prop} : ¬Since P Q [] := by
  rintro ⟨l₁, a, l₂, heq, -, -⟩
  exact absurd heq.symm (List.append_ne_nil_of_right_ne_nil l₁ (List.cons_ne_nil a l₂))

theorem since_concat {ι : Type} {P : List ι → ι → Prop} {Q : ι → Prop} {l : List ι} {a : ι} :
    Since P Q (l ++ [a]) ↔ P l a ∨ (Since P Q l ∧ ¬Q a) := by
  constructor
  · rintro ⟨l₁, b, l₂, heq, hb, hkept⟩
    rcases List.eq_nil_or_concat l₂ with rfl | ⟨l₃, c, rfl⟩
    · obtain ⟨rfl, hlast⟩ := List.append_inj' heq rfl
      rw [List.singleton_inj.mp hlast]
      exact .inl hb
    · have hsplit : l ++ [a] = (l₁ ++ b :: l₃) ++ [c] := by rw [heq]; simp
      obtain ⟨rfl, hlast⟩ := List.append_inj' hsplit rfl
      rw [List.singleton_inj.mp hlast]
      exact .inr ⟨⟨l₁, b, l₃, rfl, hb, fun x hx => hkept x (by simp [hx])⟩, hkept c (by simp)⟩
  · rintro (ha | ⟨⟨l₁, b, l₂, rfl, hb, hkept⟩, ha⟩)
    · exact ⟨l, a, [], rfl, ha, by simp⟩
    · refine ⟨l₁, b, l₂ ++ [a], by simp, hb, fun x hx => ?_⟩
      rcases List.mem_append.mp hx with hx | hx
      · exact hkept x hx
      · rw [List.mem_singleton.mp hx]
        exact ha

/-- A property that some occurrences switch on, some switch off and the others leave alone: it
holds at the end just when it was switched on, or held from the start, and was not switched off
since. By cases on the last occurrence that switches it. -/
theorem latch_iff {P : σ → Prop} (Sets Resets : Occ σ α → Prop) {s : σ} {acts : List α}
    (hset : ∀ o ∈ trace step s acts, Sets o → P o.after)
    (hreset : ∀ o ∈ trace step s acts, Resets o → ¬P o.after)
    (hkeep : ∀ o ∈ trace step s acts, ¬Sets o → ¬Resets o → (P o.after ↔ P o.before)) :
    P (run step s acts) ↔
      (P s ∧ ∀ q ∈ trace step s acts, ¬Resets q) ∨
        ∃ tr₁ o tr₂, trace step s acts = tr₁ ++ o :: tr₂ ∧ Sets o ∧ ∀ q ∈ tr₂, ¬Resets q := by
  classical
  have hstays : ∀ o ∈ trace step s acts, ¬Resets o → P o.before → P o.after := by
    intro o ho hoff hbefore
    by_cases hon : Sets o
    · exact hset o ho hon
    · exact (hkeep o ho hon hoff).mpr hbefore
  have hstays_off : ∀ o ∈ trace step s acts, ¬(Sets o ∨ Resets o) → ¬P o.before → ¬P o.after := by
    intro o ho hquiet hbefore hafter
    have hnone := not_or.mp hquiet
    exact hbefore ((hkeep o ho hnone.1 hnone.2).mp hafter)
  constructor
  · intro hend
    rcases last_occurrence (fun o => Sets o ∨ Resets o) (trace step s acts) with
      hquiet | ⟨tr₁, o, tr₂, htr, ho, hquiet⟩
    · refine .inl ⟨?_, fun q hq hoff => hquiet q hq (.inr hoff)⟩
      by_contra hs
      exact run_invariant_of_trace step (P := fun x => ¬P x) hs
        (fun q hq => hstays_off q hq (hquiet q hq)) hend
    · refine .inr ⟨tr₁, o, tr₂, htr, ?_, fun q hq hoff => hquiet q hq (.inr hoff)⟩
      by_contra hon
      have hoff : ¬P o.after := hreset o (by rw [htr]; simp) (ho.resolve_left hon)
      exact run_invariant_since step (P := fun x => ¬P x) htr hoff
        (fun q hq hin => hstays_off q hin (hquiet q hq)) hend
  · rintro (⟨hs, hquiet⟩ | ⟨tr₁, o, tr₂, htr, hon, hquiet⟩)
    · exact run_invariant_of_trace step hs fun q hq => hstays q hq (hquiet q hq)
    · exact run_invariant_since step htr (hset o (by rw [htr]; simp) hon)
        fun q hq hin => hstays q hin (hquiet q hq)

/-! ## Pending entries

A register `pend` that some occurrences put a value into and some clear. What is pending was put
there by an occurrence since which no other put or clear happened; between two puts into an empty
register there is a clear, and between two clears a put. -/

/-- `o` is a step of the machine. -/
def IsStep (o : Occ σ α) : Prop := o.after = step o.before o.act

theorem isStep_of_mem {s : σ} {acts : List α} {o : Occ σ α} (h : o ∈ trace step s acts) :
    IsStep step o := by
  obtain ⟨l₁, l₂, -, -, hafter⟩ := trace_mem step h
  exact hafter

/-- How puts and clears act on the register; everything else keeps it. -/
structure PendingLaws {π : Type} (pend : σ → Option π) (Puts : Occ σ α → π → Prop)
    (Clears : Occ σ α → Prop) : Prop where
  put : ∀ o p, IsStep step o → Puts o p → pend o.after = some p
  clear : ∀ o, IsStep step o → Clears o → pend o.after = none
  keep : ∀ o, IsStep step o → (∀ p, ¬Puts o p) → ¬Clears o → pend o.after = pend o.before

/-- No occurrence of the list puts or clears. -/
def Undisturbed {π : Type} (Puts : Occ σ α → π → Prop) (Clears : Occ σ α → Prop)
    (tr : List (Occ σ α)) : Prop :=
  ∀ q ∈ tr, (∀ p, ¬Puts q p) ∧ ¬Clears q

section Pending

variable {step} {π : Type} {pend : σ → Option π} {Puts : Occ σ α → π → Prop}
  {Clears : Occ σ α → Prop}

/-- A pending value is as it was at the start, or the last put put it there; either way nothing
disturbed it since. Induction from the end of the run. -/
theorem PendingLaws.last_put (laws : PendingLaws step pend Puts Clears) {s : σ} {acts : List α}
    {p : π} (h : pend (run step s acts) = some p) :
    (pend s = some p ∧ Undisturbed Puts Clears (trace step s acts)) ∨
      ∃ tr₁ o tr₂, trace step s acts = tr₁ ++ o :: tr₂ ∧ Puts o p ∧
        Undisturbed Puts Clears tr₂ := by
  classical
  induction acts using List.reverseRecOn with
  | nil => exact .inl ⟨h, by intro q hq; cases hq⟩
  | append_singleton l a ih =>
    rw [run_concat] at h
    rw [trace_concat]
    generalize hlast : (⟨run step s l, a, step (run step s l) a⟩ : Occ σ α) = last
    have hstep : IsStep step last := by rw [← hlast]; rfl
    have hafter : pend last.after = some p := by rw [← hlast]; exact h
    by_cases hput : ∃ p', Puts last p'
    · obtain ⟨p', hput⟩ := hput
      have hpp : some p' = some p := (laws.put last p' hstep hput).symm.trans hafter
      obtain rfl := Option.some.inj hpp
      exact .inr ⟨trace step s l, last, [], rfl, hput, by intro q hq; cases hq⟩
    · have hnoput : ∀ p', ¬Puts last p' := fun p' hp' => hput ⟨p', hp'⟩
      have hnoclear : ¬Clears last := by
        intro hclear
        rw [laws.clear last hstep hclear] at hafter
        cases hafter
      have hbefore : pend (run step s l) = some p := by
        rw [← hafter, laws.keep last hstep hnoput hnoclear, ← hlast]
      -- the last occurrence extends the undisturbed stretch
      have hextend : ∀ tr, Undisturbed Puts Clears tr → Undisturbed Puts Clears (tr ++ [last]) := by
        intro tr htr q hq
        rcases List.mem_append.mp hq with hq | hq
        · exact htr q hq
        · rw [List.mem_singleton.mp hq]
          exact ⟨hnoput, hnoclear⟩
      rcases ih hbefore with ⟨hs, hquiet⟩ | ⟨tr₁, o, tr₂, htr, hputs, hquiet⟩
      · exact .inl ⟨hs, hextend _ hquiet⟩
      · refine .inr ⟨tr₁, o, tr₂ ++ [last], ?_, hputs, hextend tr₂ hquiet⟩
        rw [htr]
        simp

/-- Along an undisturbed stretch the register keeps its value. -/
theorem PendingLaws.undisturbed (laws : PendingLaws step pend Puts Clears) {s : σ}
    {acts : List α} (h : Undisturbed Puts Clears (trace step s acts)) :
    ∀ o ∈ trace step s acts, pend o.before = pend s ∧ pend o.after = pend s := by
  induction acts generalizing s with
  | nil => intro o ho; cases ho
  | cons a l ih =>
    have hfirst : pend (step s a) = pend s := by
      obtain ⟨hnoput, hnoclear⟩ := h ⟨s, a, step s a⟩ (by simp [trace])
      exact laws.keep ⟨s, a, step s a⟩ rfl hnoput hnoclear
    have hrest : Undisturbed Puts Clears (trace step (step s a) l) :=
      fun q hq => h q (by simp [trace, hq])
    intro o ho
    simp only [trace, List.mem_cons] at ho
    rcases ho with rfl | ho
    · exact ⟨rfl, hfirst⟩
    · rw [← hfirst]
      exact ih hrest o ho

/-- A register that went from a value to empty was cleared. -/
theorem PendingLaws.exists_clear (laws : PendingLaws step pend Puts Clears) {s : σ}
    {acts : List α} (hs : pend s ≠ none) (h : pend (run step s acts) = none) :
    ∃ o ∈ trace step s acts, Clears o := by
  classical
  by_contra hno
  have hsome : pend (run step s acts) ≠ none := by
    refine run_invariant_of_trace step (P := fun x => pend x ≠ none) hs ?_
    intro o ho hbefore hafter
    have hstep := isStep_of_mem step ho
    by_cases hput : ∃ p, Puts o p
    · obtain ⟨p, hput⟩ := hput
      rw [laws.put o p hstep hput] at hafter
      cases hafter
    · rw [laws.keep o hstep (fun p hp => hput ⟨p, hp⟩) fun hc => hno ⟨o, ho, hc⟩] at hafter
      exact hbefore hafter
  exact hsome h

/-- A register that went from empty to a value was put into. -/
theorem PendingLaws.exists_put (laws : PendingLaws step pend Puts Clears) {s : σ}
    {acts : List α} (hs : pend s = none) (h : pend (run step s acts) ≠ none) :
    ∃ o ∈ trace step s acts, ∃ p, Puts o p := by
  classical
  by_contra hno
  have hnone : pend (run step s acts) = none := by
    refine run_invariant_of_trace step (P := fun x => pend x = none) hs ?_
    intro o ho hbefore
    have hstep := isStep_of_mem step ho
    by_cases hclear : Clears o
    · exact laws.clear o hstep hclear
    · rw [laws.keep o hstep (fun p hp => hno ⟨o, ho, p, hp⟩) hclear]
      exact hbefore
  exact h hnone

end Pending

end Machine

end Lib
