import StellarTipjar.Security.RateLimiter
import Mathlib.Data.List.DropRight

/-!
# Security service — the circuit breaker

`security/src/circuit_breaker.rs`: the timestamps of the anomalies of the last `window_secs` seconds,
and a state that opens when there are `threshold` of them and stays open until somebody resets it.

`trips_run` says when it is open and what `record_anomaly` answers, in terms of the calls alone. The
anomaly that is being recorded counts whatever the width of the window is.
-/

namespace Security

open Lib

inductive CircuitState where
  | closed
  | open
deriving DecidableEq, Repr

structure CircuitBreaker where
  threshold : Nat
  windowSecs : Int
  state : CircuitState
  events : List Int
deriving DecidableEq, Repr

namespace CircuitBreaker

def new (threshold : Nat) (windowSecs : Int) : CircuitBreaker where
  threshold := threshold
  windowSecs := windowSecs
  state := .closed
  events := []

/-- Records an anomaly; the answer is whether the breaker just tripped, `none` when the call
panics. -/
def recordAnomaly (range : DateRange) (self : CircuitBreaker) (now : Int) :
    Option Bool × CircuitBreaker :=
  match cutoff range self.windowSecs now with
  | none => (none, self)
  | some cutoff =>
    let events := (self.events.filter fun t => cutoff < t) ++ [now]
    if self.threshold ≤ events.length then
      if self.state = .closed then (some true, { self with state := .open, events })
      else (some false, { self with events })
    else (some false, { self with events })

def isOpen (self : CircuitBreaker) : Bool := self.state = .open

/-- The reset by an operator. -/
def reset (self : CircuitBreaker) : CircuitBreaker := { self with state := .closed, events := [] }

/-! ## Calls -/

inductive Op where
  | recordAnomaly
  | reset
deriving DecidableEq, Repr

structure Call where
  now : Int
  op : Op
deriving DecidableEq, Repr

def step (range : DateRange) (self : CircuitBreaker) (c : Call) : CircuitBreaker :=
  match c.op with
  | .recordAnomaly => (self.recordAnomaly range c.now).2
  | .reset => self.reset

/-- The clock does not go back. -/
def ClockOrder (calls : List Call) : Prop := calls.Pairwise fun c d => c.now ≤ d.now

/-! ## The history -/

/-- The calls since the last reset. -/
def sinceReset (calls : List Call) : List Call := calls.rtakeWhile fun c => c.op ≠ .reset

/-- The call records an anomaly; one that panics does not. -/
def Call.Records (range : DateRange) (windowSecs : Int) (c : Call) : Prop :=
  c.op = .recordAnomaly ∧ (cutoff range windowSecs c.now).isSome

instance (range : DateRange) (windowSecs : Int) (c : Call) : Decidable (c.Records range windowSecs) :=
  inferInstanceAs (Decidable (_ ∧ _))

/-- The times of the anomalies recorded since the last reset. -/
def recorded (range : DateRange) (windowSecs : Int) (calls : List Call) : List Int :=
  ((sinceReset calls).filter fun c => c.Records range windowSecs).map Call.now

theorem recorded_concat (range : DateRange) (windowSecs : Int) (calls : List Call) (c : Call) :
    recorded range windowSecs (calls ++ [c])
      = if c.op = .reset then []
        else if c.Records range windowSecs then recorded range windowSecs calls ++ [c.now]
        else recorded range windowSecs calls := by
  unfold recorded sinceReset
  rw [List.rtakeWhile_concat]
  by_cases hreset : c.op = .reset
  · simp [hreset]
  · by_cases hrecords : c.Records range windowSecs
    · simp [hreset, hrecords]
    · simp [hreset, hrecords]

/-- After the calls `before`, the call `c` records an anomaly that, with the ones recorded since the
last reset and in the window that ends with it, makes up the threshold. -/
def Bursts (range : DateRange) (threshold : Nat) (windowSecs : Int) (before : List Call)
    (c : Call) : Prop :=
  c.Records range windowSecs ∧ threshold ≤
    (inWindow (windowSecs * nanosPerSec) c.now (recorded range windowSecs before)).length + 1

/-- The same with the recorded anomaly counted only when it is in its own window. -/
def BurstsInside (range : DateRange) (threshold : Nat) (windowSecs : Int) (before : List Call)
    (c : Call) : Prop :=
  c.Records range windowSecs ∧ threshold ≤
    (inWindow (windowSecs * nanosPerSec) c.now
      (recorded range windowSecs before ++ [c.now])).length

/-- The window of any width but zero has the anomaly in it. -/
theorem burstsInside_iff {range : DateRange} {threshold : Nat} {windowSecs : Int}
    (hpos : 0 < windowSecs) (before : List Call) (c : Call) :
    BurstsInside range threshold windowSecs before c ↔
      Bursts range threshold windowSecs before c := by
  have hlast : inWindow (windowSecs * nanosPerSec) c.now [c.now] = [c.now] := by
    have hwidth : 0 < windowSecs * nanosPerSec := Int.mul_pos hpos (by decide)
    have hin : c.now - windowSecs * nanosPerSec < c.now ∧ c.now ≤ c.now := by omega
    simp [inWindow, hin.1]
  unfold BurstsInside Bursts
  rw [inWindow_append, hlast, List.length_append, List.length_singleton]

/-! ## One call -/

/-- The anomalies that still count at `now`. -/
def recent (self : CircuitBreaker) (now : Int) : List Int :=
  live (self.windowSecs * nanosPerSec) now self.events

theorem recordAnomaly_panics {range : DateRange} {self : CircuitBreaker} {now : Int}
    (h : cutoff range self.windowSecs now = none) :
    self.recordAnomaly range now = (none, self) := by
  unfold recordAnomaly
  rw [h]

theorem recordAnomaly_eq {range : DateRange} {self : CircuitBreaker} {now : Int}
    (h : (cutoff range self.windowSecs now).isSome) :
    self.recordAnomaly range now
      = (some (decide (self.threshold ≤ (self.recent now).length + 1 ∧ self.isOpen = false)),
        { self with
          state := if self.threshold ≤ (self.recent now).length + 1 then .open else self.state
          events := self.recent now ++ [now] }) := by
  obtain ⟨date, hcutoff⟩ := Option.isSome_iff_exists.mp h
  obtain rfl := cutoff_eq_some hcutoff
  have hrecent : self.events.filter (fun t => now - self.windowSecs * nanosPerSec < t)
      = self.recent now := rfl
  unfold recordAnomaly
  rw [hcutoff]
  simp only [hrecent, List.length_append, List.length_singleton, isOpen]
  by_cases hreached : self.threshold ≤ (self.recent now).length + 1
  · simp only [hreached, if_true, true_and]
    cases hstate : self.state with
    | closed => rfl
    | «open» => rfl
  · simp [hreached]

theorem isOpen_of_tripped {range : DateRange} {self : CircuitBreaker} {now : Int}
    (h : (self.recordAnomaly range now).1 = some true) :
    (self.recordAnomaly range now).2.isOpen = true := by
  cases hcutoff : cutoff range self.windowSecs now with
  | none =>
    rw [recordAnomaly_panics hcutoff] at h
    cases h
  | some date =>
    have hsome : (cutoff range self.windowSecs now).isSome := by rw [hcutoff]; rfl
    rw [recordAnomaly_eq hsome] at h ⊢
    have hreached := of_decide_eq_true (Option.some.inj h)
    simp [isOpen, hreached.1]

/-! ## Runs -/

theorem mem_recorded {range : DateRange} {windowSecs : Int} {calls : List Call} {x : Int}
    (h : x ∈ recorded range windowSecs calls) : ∃ c ∈ calls, x = c.now := by
  obtain ⟨c, hc, rfl⟩ := List.mem_map.mp h
  have hsince : c ∈ sinceReset calls := (List.mem_filter.mp hc).1
  exact ⟨c, (List.rtakeWhile_suffix _ calls).subset hsince, rfl⟩

/-- The breaker has forgotten no anomaly that can still count, and is open when a burst has come
since the last reset. -/
structure Follows (range : DateRange) (threshold : Nat) (windowSecs : Int) (b : CircuitBreaker)
    (calls : List Call) : Prop where
  threshold_eq : b.threshold = threshold
  windowSecs_eq : b.windowSecs = windowSecs
  kept : ∀ t, (∀ c ∈ calls, c.now ≤ t) →
    b.recent t = live (windowSecs * nanosPerSec) t (recorded range windowSecs calls)
  open_iff : b.isOpen = true ↔
    Since (Bursts range threshold windowSecs) (fun c => c.op = .reset) calls

section Step

variable {range : DateRange} {threshold : Nat} {windowSecs : Int} {b : CircuitBreaker}
  {calls : List Call} {c : Call}

/-- The breaker counts what the history says. -/
theorem Follows.bursts_iff (h : Follows range threshold windowSecs b calls)
    (hclock : ∀ d ∈ calls, d.now ≤ c.now) (hrecords : c.Records range windowSecs) :
    b.threshold ≤ (b.recent c.now).length + 1 ↔ Bursts range threshold windowSecs calls c := by
  have hpast : ∀ x ∈ recorded range windowSecs calls, x ≤ c.now := by
    intro x hx
    obtain ⟨d, hd, rfl⟩ := mem_recorded hx
    exact hclock d hd
  unfold Bursts
  rw [h.threshold_eq, h.kept c.now hclock, inWindow_eq_live hpast]
  exact (and_iff_right hrecords).symm

theorem Follows.answer (h : Follows range threshold windowSecs b calls)
    (hclock : ∀ d ∈ calls, d.now ≤ c.now) (hrecords : c.Records range windowSecs) :
    ∃ tripped, (b.recordAnomaly range c.now).1 = some tripped ∧
      (tripped = true ↔ Bursts range threshold windowSecs calls c ∧
        ¬Since (Bursts range threshold windowSecs) (fun d => d.op = .reset) calls) := by
  have hsome : (cutoff range b.windowSecs c.now).isSome := h.windowSecs_eq ▸ hrecords.2
  refine ⟨_, by rw [recordAnomaly_eq hsome], ?_⟩
  rw [decide_eq_true_iff, h.bursts_iff hclock hrecords, ← h.open_iff, Bool.not_eq_true]

theorem Follows.recorded (h : Follows range threshold windowSecs b calls)
    (hclock : ∀ d ∈ calls, d.now ≤ c.now) (hrecords : c.Records range windowSecs) :
    Follows range threshold windowSecs (step range b c) (calls ++ [c]) := by
  have hsome : (cutoff range b.windowSecs c.now).isSome := h.windowSecs_eq ▸ hrecords.2
  have hnoreset : c.op ≠ .reset := by
    rw [hrecords.1]
    decide
  have hstep : step range b c = (b.recordAnomaly range c.now).2 := by
    unfold step
    rw [hrecords.1]
  rw [hstep, recordAnomaly_eq hsome]
  refine ⟨h.threshold_eq, h.windowSecs_eq, fun t ht => ?_, ?_⟩
  · have hbefore := h.kept t fun d hd => ht d (List.mem_append_left _ hd)
    have hnow : c.now ≤ t := ht c (by simp)
    rw [recorded_concat, if_neg hnoreset, if_pos hrecords, live_append, ← hbefore]
    show live (b.windowSecs * nanosPerSec) t (b.recent c.now ++ [c.now]) = _
    rw [live_append, h.windowSecs_eq]
    unfold recent
    rw [h.windowSecs_eq, live_live hnow]
  · rw [since_concat, ← h.bursts_iff hclock hrecords, ← h.open_iff]
    unfold isOpen
    by_cases hreached : b.threshold ≤ (b.recent c.now).length + 1
    · simp [hreached]
    · simp [hreached, hnoreset]

theorem Follows.panicked (h : Follows range threshold windowSecs b calls)
    (hop : c.op = .recordAnomaly) (hrecords : ¬c.Records range windowSecs) :
    Follows range threshold windowSecs (step range b c) (calls ++ [c]) := by
  have hnone : cutoff range b.windowSecs c.now = none := by
    rw [h.windowSecs_eq, ← Option.not_isSome_iff_eq_none]
    exact fun hsome => hrecords ⟨hop, hsome⟩
  have hnoreset : c.op ≠ .reset := by
    rw [hop]
    decide
  have hstep : step range b c = b := by
    unfold step
    rw [hop]
    show (b.recordAnomaly range c.now).2 = b
    rw [recordAnomaly_panics hnone]
  rw [hstep]
  refine ⟨h.threshold_eq, h.windowSecs_eq, fun t ht => ?_, ?_⟩
  · rw [recorded_concat, if_neg hnoreset, if_neg hrecords]
    exact h.kept t fun d hd => ht d (List.mem_append_left _ hd)
  · rw [since_concat, h.open_iff]
    constructor
    · exact fun hsince => .inr ⟨hsince, hnoreset⟩
    · rintro (hburst | ⟨hsince, -⟩)
      · exact absurd hburst.1 hrecords
      · exact hsince

theorem Follows.wasReset (h : Follows range threshold windowSecs b calls) (hop : c.op = .reset) :
    Follows range threshold windowSecs (step range b c) (calls ++ [c]) := by
  have hstep : step range b c = b.reset := by
    unfold step
    rw [hop]
  rw [hstep]
  refine ⟨h.threshold_eq, h.windowSecs_eq, fun t _ => ?_, ?_⟩
  · rw [recorded_concat, if_pos hop]
    rfl
  · rw [since_concat]
    constructor
    · intro hopen
      cases hopen
    · rintro (hburst | ⟨-, hkept⟩)
      · have hrecord := hburst.1.1
        rw [hop] at hrecord
        cases hrecord
      · exact absurd hop hkept

theorem Follows.step (h : Follows range threshold windowSecs b calls)
    (hclock : ∀ d ∈ calls, d.now ≤ c.now) :
    Follows range threshold windowSecs (CircuitBreaker.step range b c) (calls ++ [c]) := by
  by_cases hrecords : c.Records range windowSecs
  · exact h.recorded hclock hrecords
  · cases hop : c.op with
    | recordAnomaly => exact h.panicked hop hrecords
    | reset => exact h.wasReset hop

end Step

theorem follows_run (range : DateRange) (threshold : Nat) (windowSecs : Int) {calls : List Call}
    (hclock : ClockOrder calls) :
    Follows range threshold windowSecs (run (step range) (new threshold windowSecs) calls)
      calls := by
  induction calls using List.reverseRecOn with
  | nil =>
    refine ⟨rfl, rfl, fun t _ => rfl, ?_⟩
    exact iff_of_false Bool.false_ne_true since_nil
  | append_singleton calls c ih =>
    unfold ClockOrder at hclock
    rw [List.pairwise_append] at hclock
    rw [run_concat]
    exact (ih hclock.1).step fun d hd => hclock.2.2 d hd c (by simp)

/-- The breaker is open after the calls when, since the last reset, a call had `P`; a call that
records an anomaly answers whether it is the first such one, and one that panics does not answer. -/
structure TripsOn (P : List Call → Call → Prop) (range : DateRange) (threshold : Nat)
    (windowSecs : Int) (calls : List Call) : Prop where
  open_iff : (run (step range) (new threshold windowSecs) calls).isOpen = true ↔
    Since P (fun c => c.op = .reset) calls
  answer : ∀ l₁ c l₂, calls = l₁ ++ c :: l₂ → c.Records range windowSecs →
    ∃ tripped,
      ((run (step range) (new threshold windowSecs) l₁).recordAnomaly range c.now).1 = some tripped ∧
      (tripped = true ↔ P l₁ c ∧ ¬Since P (fun d => d.op = .reset) l₁)

theorem tripsOn_run (range : DateRange) (threshold : Nat) (windowSecs : Int) {calls : List Call}
    (hclock : ClockOrder calls) :
    TripsOn (Bursts range threshold windowSecs) range threshold windowSecs calls where
  open_iff := (follows_run range threshold windowSecs hclock).open_iff
  answer := by
    intro l₁ c l₂ hcalls hrecords
    unfold ClockOrder at hclock
    rw [hcalls, List.pairwise_append] at hclock
    exact (follows_run range threshold windowSecs hclock.1).answer
      (fun d hd => hclock.2.2 d hd c List.mem_cons_self) hrecords

/-- With no width to the window the anomaly that trips the breaker is in no window. -/
theorem trips_on_empty_window :
    ¬TripsOn (BurstsInside ⟨-1000, 1000⟩ 1 0) ⟨-1000, 1000⟩ 1 0 [⟨0, .recordAnomaly⟩] := by
  intro h
  have hsince := h.open_iff.mp (by decide)
  rw [← List.nil_append [_], since_concat] at hsince
  rcases hsince with hburst | ⟨hearlier, -⟩
  · exact absurd hburst.2 (by decide)
  · exact since_nil hearlier

end CircuitBreaker

end Security
