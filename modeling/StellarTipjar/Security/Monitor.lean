import StellarTipjar.Security.CircuitBreaker

/-!
# Security service — the monitor

`security/src/monitor.rs`: a transaction is put to the circuit breaker, the blacklist, the rate
limiter and the anomaly detector, in that order; an anomaly is recorded with the breaker. The score
of the detector is a floating-point number, so the detector is a parameter: any state, any score.

`breaker_trips_on_bursts` is the breaker's law, and that an open breaker stops everything: until the
next reset every transaction is answered `CircuitOpen` and nothing is written.
-/

namespace Security

open Lib

inductive SecurityCheck where
  | approved
  | rateLimited
  | suspicious
  | blocked
  | circuitOpen
deriving DecidableEq, Repr

structure Transaction where
  hash : String
  sender : String
  creator : String
  amount : Int64
deriving DecidableEq, Repr

/-- What `AlertingService::send_alert` is given. -/
inductive Alert (φ : Type) where
  | rateLimited (address : String)
  | anomalyDetected (txHash sender : String) (score : φ)
  | blacklisted (address : String)
  | circuitBreakerTripped (reason : String)
deriving DecidableEq, Repr

/-- The anomaly detector: its state `δ`, its scores `φ`. -/
structure AnomalyDetector (δ φ : Type) where
  score : δ → String → Int64 → φ × δ
  /-- `score > ANOMALY_THRESHOLD` -/
  exceeds : φ → Bool
  /-- the score with two decimals -/
  format : φ → String

structure SecurityMonitor (δ φ : Type) where
  rateLimiter : RateLimiter
  anomalyDetector : δ
  circuitBreaker : CircuitBreaker
  alerts : List (Alert φ)

namespace SecurityMonitor

variable {δ φ : Type}

def sendAlert (self : SecurityMonitor δ φ) (alert : Alert φ) : SecurityMonitor δ φ :=
  { self with alerts := self.alerts ++ [alert] }

/-- The part of `check_transaction` after the rate limiter; the breaker reads the clock again. -/
def detect (range : DateRange) (detector : AnomalyDetector δ φ) (self : SecurityMonitor δ φ)
    (recordedAt : Int) (tx : Transaction) : Option SecurityCheck × SecurityMonitor δ φ :=
  let scored := detector.score self.anomalyDetector tx.sender tx.amount
  let self := { self with anomalyDetector := scored.2 }
  if detector.exceeds scored.1 then
    let self := self.sendAlert (.anomalyDetected tx.hash tx.sender scored.1)
    match self.circuitBreaker.recordAnomaly range recordedAt with
    | (none, breaker) => (none, { self with circuitBreaker := breaker })
    | (some true, breaker) =>
      (some .suspicious, ({ self with circuitBreaker := breaker }).sendAlert
        (.circuitBreakerTripped ("Anomaly threshold exceeded; last tx=" ++ tx.hash ++ " score=" ++
          detector.format scored.1)))
    | (some false, breaker) => (some .suspicious, { self with circuitBreaker := breaker })
  else (some .approved, self)

/-- The answer, `none` when the call panics, and the monitor it leaves. -/
def checkTransaction (range : DateRange) (detector : AnomalyDetector δ φ)
    (self : SecurityMonitor δ φ) (now recordedAt : Int) (tx : Transaction) :
    Option SecurityCheck × SecurityMonitor δ φ :=
  if self.circuitBreaker.isOpen then (some .circuitOpen, self)
  else if self.rateLimiter.isBlacklisted tx.sender then
    (some .blocked, self.sendAlert (.blacklisted tx.sender))
  else
    match self.rateLimiter.check range now tx.sender with
    | (none, limiter) => (none, { self with rateLimiter := limiter })
    | (some false, limiter) =>
      (some .rateLimited,
        ({ self with rateLimiter := limiter }).sendAlert (.rateLimited tx.sender))
    | (some true, limiter) => detect range detector { self with rateLimiter := limiter } recordedAt tx

def blacklist (self : SecurityMonitor δ φ) (address : String) : SecurityMonitor δ φ :=
  { self with rateLimiter := self.rateLimiter.addToBlacklist address }

def unblacklist (self : SecurityMonitor δ φ) (address : String) : SecurityMonitor δ φ :=
  { self with rateLimiter := self.rateLimiter.removeFromBlacklist address }

def whitelist (self : SecurityMonitor δ φ) (address : String) : SecurityMonitor δ φ :=
  { self with rateLimiter := self.rateLimiter.addToWhitelist address }

def resetCircuitBreaker (self : SecurityMonitor δ φ) : SecurityMonitor δ φ :=
  { self with circuitBreaker := self.circuitBreaker.reset }

/-- A call of the monitor. A transaction comes with the times at which the limiter and the breaker
read the clock, a reset with the time at which it is made. -/
inductive Action where
  | checkTransaction (now recordedAt : Int) (tx : Transaction)
  | blacklist (address : String)
  | unblacklist (address : String)
  | whitelist (address : String)
  | resetCircuitBreaker (now : Int)
deriving DecidableEq, Repr

def step (range : DateRange) (detector : AnomalyDetector δ φ) (self : SecurityMonitor δ φ) :
    Action → SecurityMonitor δ φ
  | .checkTransaction now recordedAt tx =>
    (self.checkTransaction range detector now recordedAt tx).2
  | .blacklist address => self.blacklist address
  | .unblacklist address => self.unblacklist address
  | .whitelist address => self.whitelist address
  | .resetCircuitBreaker _ => self.resetCircuitBreaker

/-! ## The breaker inside the monitor -/

section Breaker

variable {range : DateRange} {detector : AnomalyDetector δ φ}

/-- The transaction gets as far as the detector, which flags it. -/
def flags (range : DateRange) (detector : AnomalyDetector δ φ) (self : SecurityMonitor δ φ)
    (now : Int) (tx : Transaction) : Bool :=
  !self.circuitBreaker.isOpen && !self.rateLimiter.isBlacklisted tx.sender &&
    decide ((self.rateLimiter.check range now tx.sender).1 = some true) &&
    detector.exceeds (detector.score self.anomalyDetector tx.sender tx.amount).1

theorem detect_breaker (self : SecurityMonitor δ φ) (recordedAt : Int) (tx : Transaction) :
    (detect range detector self recordedAt tx).2.circuitBreaker
      = if detector.exceeds (detector.score self.anomalyDetector tx.sender tx.amount).1
        then (self.circuitBreaker.recordAnomaly range recordedAt).2 else self.circuitBreaker := by
  unfold detect
  simp only
  split
  · show (match self.circuitBreaker.recordAnomaly range recordedAt with
      | (none, breaker) => _
      | (some true, breaker) => _
      | (some false, breaker) => _ : Option SecurityCheck × SecurityMonitor δ φ).2.circuitBreaker = _
    generalize self.circuitBreaker.recordAnomaly range recordedAt = result
    obtain ⟨answer, breaker⟩ := result
    cases answer with
    | none => rfl
    | some tripped => cases tripped <;> rfl
  · rfl

/-- A transaction records an anomaly with the breaker when it is flagged, and does not touch it
otherwise. -/
theorem checkTransaction_breaker (self : SecurityMonitor δ φ) (now recordedAt : Int)
    (tx : Transaction) :
    (self.checkTransaction range detector now recordedAt tx).2.circuitBreaker
      = if self.flags range detector now tx
        then (self.circuitBreaker.recordAnomaly range recordedAt).2 else self.circuitBreaker := by
  unfold checkTransaction flags
  by_cases hopen : self.circuitBreaker.isOpen = true
  · simp [hopen]
  by_cases hblack : self.rateLimiter.isBlacklisted tx.sender = true
  · simp [hopen, hblack, sendAlert]
  rw [if_neg hopen, if_neg hblack, Bool.of_not_eq_true hopen, Bool.of_not_eq_true hblack]
  cases hcheck : self.rateLimiter.check range now tx.sender with
  | mk answer limiter =>
    cases answer with
    | none => simp
    | some allowed =>
      cases allowed with
      | false => simp [sendAlert]
      | true =>
        show (detect range detector _ recordedAt tx).2.circuitBreaker = _
        rw [detect_breaker]
        simp

/-- What an action does to the breaker. -/
def breakerCall (range : DateRange) (detector : AnomalyDetector δ φ) (self : SecurityMonitor δ φ) :
    Action → List CircuitBreaker.Call
  | .checkTransaction now recordedAt tx =>
    if self.flags range detector now tx then [⟨recordedAt, .recordAnomaly⟩] else []
  | .resetCircuitBreaker now => [⟨now, .reset⟩]
  | _ => []

theorem step_breaker (self : SecurityMonitor δ φ) (a : Action) :
    (step range detector self a).circuitBreaker
      = run (CircuitBreaker.step range) self.circuitBreaker
          (self.breakerCall range detector a) := by
  cases a with
  | checkTransaction now recordedAt tx =>
    show (self.checkTransaction range detector now recordedAt tx).2.circuitBreaker = _
    rw [checkTransaction_breaker]
    unfold breakerCall
    simp only
    split <;> rfl
  | blacklist address => rfl
  | unblacklist address => rfl
  | whitelist address => rfl
  | resetCircuitBreaker now => rfl

/-- The breaker of a monitor runs through the calls its actions make. -/
theorem run_breaker (m : SecurityMonitor δ φ) (acts : List Action) :
    (run (step range detector) m acts).circuitBreaker
      = run (CircuitBreaker.step range) m.circuitBreaker
          ((trace (step range detector) m acts).flatMap
            fun o => o.before.breakerCall range detector o.act) := by
  induction acts using List.reverseRecOn with
  | nil => rfl
  | append_singleton acts a ih =>
    rw [run_concat, trace_concat, step_breaker, ih, List.flatMap_append, run_append,
      List.flatMap_singleton]

/-! ## An open breaker -/

def Action.isReset : Action → Bool
  | .resetCircuitBreaker _ => true
  | _ => false

theorem checkTransaction_of_open {m : SecurityMonitor δ φ} (h : m.circuitBreaker.isOpen = true)
    (now recordedAt : Int) (tx : Transaction) :
    m.checkTransaction range detector now recordedAt tx = (some .circuitOpen, m) := by
  unfold checkTransaction
  rw [if_pos h]

/-- Only a reset closes it. -/
theorem stays_open {m : SecurityMonitor δ φ} {a : Action} (h : m.circuitBreaker.isOpen = true)
    (ha : a.isReset = false) : (step range detector m a).circuitBreaker.isOpen = true := by
  cases a with
  | checkTransaction now recordedAt tx =>
    show (m.checkTransaction range detector now recordedAt tx).2.circuitBreaker.isOpen = true
    rw [checkTransaction_of_open h]
    exact h
  | blacklist address => exact h
  | unblacklist address => exact h
  | whitelist address => exact h
  | resetCircuitBreaker now => cases ha

/-- The call is a transaction whose anomaly trips the breaker: `record_anomaly` answers true. -/
def Trips (range : DateRange) (detector : AnomalyDetector δ φ)
    (o : Occ (SecurityMonitor δ φ) Action) : Prop :=
  ∃ now recordedAt tx, o.act = .checkTransaction now recordedAt tx ∧
    o.before.flags range detector now tx = true ∧
    (o.before.circuitBreaker.recordAnomaly range recordedAt).1 = some true

theorem Trips.opens {o : Occ (SecurityMonitor δ φ) Action} (h : Trips range detector o)
    (hstep : IsStep (step range detector) o) : o.after.circuitBreaker.isOpen = true := by
  obtain ⟨now, recordedAt, tx, hact, hflags, htrips⟩ := h
  have hafter : o.after.circuitBreaker
      = (o.before.circuitBreaker.recordAnomaly range recordedAt).2 := by
    unfold IsStep at hstep
    rw [hstep, hact]
    show (o.before.checkTransaction range detector now recordedAt tx).2.circuitBreaker = _
    rw [checkTransaction_breaker, if_pos hflags]
  rw [hafter]
  exact CircuitBreaker.isOpen_of_tripped htrips

/-- Between a call that trips the breaker and the next reset every transaction is answered
`CircuitOpen` and leaves the monitor as it is. -/
theorem blocked_until_reset {m : SecurityMonitor δ φ} {acts : List Action}
    {tr₁ mid tr₂ : List (Occ (SecurityMonitor δ φ) Action)} {o q : Occ (SecurityMonitor δ φ) Action}
    (htr : trace (step range detector) m acts = tr₁ ++ o :: mid ++ q :: tr₂)
    (htrips : Trips range detector o) (hmid : ∀ p ∈ mid, p.act.isReset = false)
    {now recordedAt : Int} {tx : Transaction} (hq : q.act = .checkTransaction now recordedAt tx) :
    (q.before.checkTransaction range detector now recordedAt tx).1 = some .circuitOpen ∧
      q.after = q.before := by
  have ho : o ∈ trace (step range detector) m acts := by rw [htr]; simp
  have hqmem : q ∈ trace (step range detector) m acts := by rw [htr]; simp
  have hopened := htrips.opens (isStep_of_mem _ ho)
  obtain ⟨l, hl, hbefore⟩ := trace_between (step range detector) htr
  have hopen : q.before.circuitBreaker.isOpen = true := by
    rw [hbefore]
    refine run_invariant_of_trace (step range detector)
      (P := fun x => x.circuitBreaker.isOpen = true) hopened fun p hp hpbefore => ?_
    have hstep : p.after = step range detector p.before p.act := isStep_of_mem _ hp
    rw [hstep]
    exact stays_open hpbefore (hmid p (hl ▸ hp))
  have hqstep : q.after = step range detector q.before q.act := isStep_of_mem _ hqmem
  refine ⟨by rw [checkTransaction_of_open hopen], ?_⟩
  rw [hqstep, hq]
  show (q.before.checkTransaction range detector now recordedAt tx).2 = q.before
  rw [checkTransaction_of_open hopen]

end Breaker

/-- The breaker trips on a burst, once after every reset, and stays open: for every threshold and
window, every sequence of calls and every clock that does not go back. The anomaly being recorded
always counts; in a window of some width it is one of those in the window. The breaker of a monitor
runs through the calls its actions make, and an open one stops every transaction until the next
reset, and nothing is written. -/
theorem breaker_trips_on_bursts (range : DateRange) (detector : AnomalyDetector δ φ) :
    (∀ threshold windowSecs calls, CircuitBreaker.ClockOrder calls →
      CircuitBreaker.TripsOn (CircuitBreaker.Bursts range threshold windowSecs) range threshold
        windowSecs calls ∧
      (0 < windowSecs →
        CircuitBreaker.TripsOn (CircuitBreaker.BurstsInside range threshold windowSecs) range
          threshold windowSecs calls)) ∧
    (∀ (m : SecurityMonitor δ φ) acts,
      (run (step range detector) m acts).circuitBreaker
        = run (CircuitBreaker.step range) m.circuitBreaker
            ((trace (step range detector) m acts).flatMap
              fun o => o.before.breakerCall range detector o.act)) ∧
    (∀ (m : SecurityMonitor δ φ) acts tr₁ o mid q tr₂,
      trace (step range detector) m acts = tr₁ ++ o :: mid ++ q :: tr₂ →
      Trips range detector o → (∀ p ∈ mid, p.act.isReset = false) →
      ∀ now recordedAt tx, q.act = .checkTransaction now recordedAt tx →
        (q.before.checkTransaction range detector now recordedAt tx).1 = some .circuitOpen ∧
          q.after = q.before) := by
  refine ⟨?_, run_breaker, ?_⟩
  · intro threshold windowSecs calls hclock
    have htrips := CircuitBreaker.tripsOn_run range threshold windowSecs hclock
    refine ⟨htrips, fun hpos => ?_⟩
    have hsame : CircuitBreaker.BurstsInside range threshold windowSecs
        = CircuitBreaker.Bursts range threshold windowSecs :=
      funext fun before => funext fun c => propext (CircuitBreaker.burstsInside_iff hpos before c)
    rw [hsame]
    exact htrips
  · intro m acts tr₁ o mid q tr₂ htr htrips hmid now recordedAt tx hq
    exact blocked_until_reset htr htrips hmid hq

/-- Two flagged transactions trip a breaker of threshold 2, and the third transaction is stopped. -/
theorem breaker_trips_on_bursts_sample :
    let range : DateRange := ⟨-1000000 * nanosPerSec, 1000000 * nanosPerSec⟩
    let detector : AnomalyDetector Unit Bool :=
      ⟨fun _ _ amount => (decide (100 < amount), ()), id, fun _ => "1.00"⟩
    let m : SecurityMonitor Unit Bool := ⟨.new 10 60, (), .new 2 60, []⟩
    let tx (amount : Int64) : Transaction := ⟨"hash", "GSENDER", "GCREATOR", amount⟩
    let first := step range detector m (.checkTransaction 0 0 (tx 500))
    let second := step range detector first (.checkTransaction 5 5 (tx 600))
    second.circuitBreaker.isOpen = true ∧
      (second.checkTransaction range detector 7 7 (tx 1)).1 = some .circuitOpen ∧
      CircuitBreaker.TripsOn (CircuitBreaker.BurstsInside range 2 60) range 2 60
        [⟨0, .recordAnomaly⟩, ⟨5, .recordAnomaly⟩] := by
  intro range detector m tx first second
  obtain ⟨hbreaker, -, hmonitor⟩ := breaker_trips_on_bursts range detector
  refine ⟨by decide, ?_, (hbreaker 2 60 _ ?_).2 (by decide)⟩
  · exact (hmonitor m [.checkTransaction 0 0 (tx 500), .checkTransaction 5 5 (tx 600),
      .checkTransaction 7 7 (tx 1)] [⟨m, _, first⟩] ⟨first, .checkTransaction 5 5 (tx 600), second⟩
      [] ⟨second, .checkTransaction 7 7 (tx 1), _⟩ [] rfl
      ⟨5, 5, tx 600, rfl, by decide, by decide⟩ (by simp) 7 7 (tx 1) rfl).1
  · unfold CircuitBreaker.ClockOrder
    decide

end SecurityMonitor

end Security
