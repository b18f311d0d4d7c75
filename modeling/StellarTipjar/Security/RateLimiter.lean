import StellarTipjar.Lib.HashMap
import StellarTipjar.Lib.SlidingWindow
import StellarTipjar.Lib.Trace

/-!
# Security service — the rate limiter

`security/src/rate_limiter.rs`: per address the timestamps of the approved checks of the last
`window_secs` seconds, a blacklist that refuses and a whitelist that lets pass. Timestamps are
nanoseconds.

* `tracks_run` — what is stored for an address that is not on the whitelist are its approvals, but
  for some that have left the window for good;
* `sliding_window_limit` — the bound for every position of the window, the reasons of a refusal,
  that a refused check costs nothing and that addresses do not see each other.
-/

namespace Security

open Lib

/-! ## The clock -/

def nanosPerSec : Int := 1000000000

/-- The range of `DateTime<Utc>`. -/
structure DateRange where
  earliest : Int
  latest : Int

-- the largest number of seconds a `chrono::Duration` holds: `i64::MAX` milliseconds
def maxDurationSecs : Int := 9223372036854775

/-- `now - chrono::Duration::seconds(window_secs)`, `none` where chrono panics: on a duration or on
a date out of range. -/
def cutoff (range : DateRange) (windowSecs now : Int) : Option Int :=
  let date := now - windowSecs * nanosPerSec
  if -maxDurationSecs ≤ windowSecs ∧ windowSecs ≤ maxDurationSecs ∧
      range.earliest ≤ date ∧ date ≤ range.latest then some date
  else none

/-- Where the subtraction does not overflow, the cutoff is the difference. -/
theorem cutoff_eq_some {range : DateRange} {windowSecs now date : Int}
    (h : cutoff range windowSecs now = some date) : date = now - windowSecs * nanosPerSec := by
  unfold cutoff at h
  simp only at h
  split at h
  · exact (Option.some.inj h).symm
  · cases h

/-! ## The limiter -/

/-- The limiter keeps one list of admission times for each address, and two sets of names. -/
structure RateLimiter where
  maxTx : Nat
  windowSecs : Int
  windows : HashMap String (List Int)
  blacklist : List String
  whitelist : List String

namespace RateLimiter

def new (maxTx : Nat) (windowSecs : Int) : RateLimiter where
  maxTx := maxTx
  windowSecs := windowSecs
  windows := ∅
  blacklist := []
  whitelist := []

def isBlacklisted (self : RateLimiter) (address : String) : Bool := self.blacklist.contains address

def isWhitelisted (self : RateLimiter) (address : String) : Bool := self.whitelist.contains address

/-- The answer, `none` when the call panics, and the limiter it leaves. -/
def check (range : DateRange) (self : RateLimiter) (now : Int) (address : String) :
    Option Bool × RateLimiter :=
  if self.isBlacklisted address then (some false, self)
  else if self.isWhitelisted address then (some true, self)
  else
    match cutoff range self.windowSecs now with
    | none => (none, self)
    | some cutoff =>
      let timestamps := ((self.windows.lookup address).getD []).filter fun t => cutoff < t
      if self.maxTx ≤ timestamps.length then
        (some false, { self with windows := self.windows.insert address timestamps })
      else
        (some true, { self with windows := self.windows.insert address (timestamps ++ [now]) })

/-- A blacklisted address leaves the whitelist as it is; the check looks at the blacklist first. -/
def addToBlacklist (self : RateLimiter) (address : String) : RateLimiter :=
  if self.blacklist.contains address then self
  else { self with blacklist := self.blacklist ++ [address] }

def removeFromBlacklist (self : RateLimiter) (address : String) : RateLimiter :=
  { self with blacklist := self.blacklist.filter fun a => a ≠ address }

def addToWhitelist (self : RateLimiter) (address : String) : RateLimiter :=
  if self.whitelist.contains address then self
  else { self with whitelist := self.whitelist ++ [address] }

/-! ## Calls -/

/-- The public functions that change the limiter. -/
inductive Op where
  | check (address : String)
  | addToBlacklist (address : String)
  | removeFromBlacklist (address : String)
  | addToWhitelist (address : String)
deriving DecidableEq, Repr

/-- One call, with the time at which it is made. -/
structure Call where
  now : Int
  op : Op
deriving DecidableEq, Repr

def Op.address : Op → String
  | .check address | .addToBlacklist address | .removeFromBlacklist address
  | .addToWhitelist address => address

def step (range : DateRange) (self : RateLimiter) (c : Call) : RateLimiter :=
  match c.op with
  | .check address => (self.check range c.now address).2
  | .addToBlacklist address => self.addToBlacklist address
  | .removeFromBlacklist address => self.removeFromBlacklist address
  | .addToWhitelist address => self.addToWhitelist address

/-- The clock does not go back. -/
def ClockOrder (calls : List Call) : Prop := calls.Pairwise fun c d => c.now ≤ d.now

/-- The answers to the checks, in order, each with the address that was checked. -/
def answers (range : DateRange) : RateLimiter → List Call → List (String × Option Bool)
  | _, [] => []
  | self, c :: calls =>
    match c.op with
    | .check address =>
      (address, (self.check range c.now address).1) :: answers range (step range self c) calls
    | _ => answers range (step range self c) calls

/-! ## One address

An address sees of the limiter its own timestamps, whether it is on the lists, and the two settings.
`Account` is that, and a limiter is one account per address, side by side (`account_step`). -/

/-- What the limiter knows of one address. -/
structure Account where
  maxTx : Nat
  windowSecs : Int
  timestamps : List Int
  blacklisted : Bool
  whitelisted : Bool

def account (self : RateLimiter) (address : String) : Account where
  maxTx := self.maxTx
  windowSecs := self.windowSecs
  timestamps := (self.windows.lookup address).getD []
  blacklisted := self.isBlacklisted address
  whitelisted := self.isWhitelisted address

namespace Account

/-- The width of the window. -/
def width (self : Account) : Int := self.windowSecs * nanosPerSec

/-- The timestamps that still count at `now`. -/
def recent (self : Account) (now : Int) : List Int := live self.width now self.timestamps

def check (range : DateRange) (self : Account) (now : Int) : Option Bool × Account :=
  if self.blacklisted then (some false, self)
  else if self.whitelisted then (some true, self)
  else if cutoff range self.windowSecs now = none then (none, self)
  else if self.maxTx ≤ (self.recent now).length then
    (some false, { self with timestamps := self.recent now })
  else (some true, { self with timestamps := self.recent now ++ [now] })

/-- A call about the address of the account. -/
def step (range : DateRange) (self : Account) (c : Call) : Account :=
  match c.op with
  | .check _ => (self.check range c.now).2
  | .addToBlacklist _ => { self with blacklisted := true }
  | .removeFromBlacklist _ => { self with blacklisted := false }
  | .addToWhitelist _ => { self with whitelisted := true }

end Account

/-- A check answers from the account alone, and changes it as `Account.check` says. -/
theorem check_account (range : DateRange) (self : RateLimiter) (now : Int) (address : String) :
    (self.check range now address).1 = ((self.account address).check range now).1 ∧
      (self.check range now address).2.account address
        = ((self.account address).check range now).2 := by
  have hlive : ((self.windows.lookup address).getD []).filter
      (fun t => now - self.windowSecs * nanosPerSec < t)
        = (self.account address).recent now := rfl
  unfold check Account.check
  rw [show (self.account address).blacklisted = self.isBlacklisted address from rfl,
    show (self.account address).whitelisted = self.isWhitelisted address from rfl,
    show (self.account address).windowSecs = self.windowSecs from rfl,
    show (self.account address).maxTx = self.maxTx from rfl]
  by_cases hblack : self.isBlacklisted address = true
  · rw [if_pos hblack, if_pos hblack]
    exact ⟨rfl, rfl⟩
  by_cases hwhite : self.isWhitelisted address = true
  · rw [if_neg hblack, if_neg hblack, if_pos hwhite, if_pos hwhite]
    exact ⟨rfl, rfl⟩
  rw [if_neg hblack, if_neg hblack, if_neg hwhite, if_neg hwhite]
  cases hcutoff : cutoff range self.windowSecs now with
  | none => exact ⟨rfl, rfl⟩
  | some date =>
    obtain rfl := cutoff_eq_some hcutoff
    simp only [hlive, reduceCtorEq, if_false]
    by_cases hfull : self.maxTx ≤ ((self.account address).recent now).length
    · rw [if_pos hfull, if_pos hfull]
      simp [account, isBlacklisted, isWhitelisted]
    · rw [if_neg hfull, if_neg hfull]
      simp [account, isBlacklisted, isWhitelisted]

/-- A check stores something for its own address only. -/
theorem check_account_of_ne (range : DateRange) (self : RateLimiter) (now : Int)
    {address other : String} (h : other ≠ address) :
    (self.check range now address).2.account other = self.account other := by
  have hstore : ∀ timestamps : List Int,
      ({ self with windows := self.windows.insert address timestamps } : RateLimiter).account other
        = self.account other := by
    intro timestamps
    simp [account, isBlacklisted, isWhitelisted, AList.lookup_insert_ne h]
  unfold check
  split
  · rfl
  split
  · rfl
  split
  · rfl
  · simp only
    split
    · exact hstore _
    · exact hstore _

/-- A call is a call about its own account; the others are left as they are. -/
theorem account_step (range : DateRange) (self : RateLimiter) (c : Call) (a : String) :
    (step range self c).account a
      = if c.op.address = a then (self.account a).step range c else self.account a := by
  obtain ⟨now, op⟩ := c
  cases op with
  | check address =>
    show (self.check range now address).2.account a = if address = a then _ else _
    by_cases h : address = a
    · subst h
      rw [if_pos rfl]
      exact (check_account range self now address).2
    · rw [if_neg h]
      exact check_account_of_ne range self now (Ne.symm h)
  | addToBlacklist address =>
    show (self.addToBlacklist address).account a = if address = a then _ else _
    unfold addToBlacklist
    by_cases h : address = a
    · subst h
      rw [if_pos rfl]
      split <;> simp_all [account, isBlacklisted, isWhitelisted, Account.step]
    · rw [if_neg h]
      split
      · rfl
      · simp [account, isBlacklisted, isWhitelisted, Ne.symm h]
  | removeFromBlacklist address =>
    show (self.removeFromBlacklist address).account a = if address = a then _ else _
    unfold removeFromBlacklist
    by_cases h : address = a
    · subst h
      rw [if_pos rfl]
      simp [account, isBlacklisted, isWhitelisted, Account.step]
    · rw [if_neg h]
      simp [account, isBlacklisted, isWhitelisted, Ne.symm h]
  | addToWhitelist address =>
    show (self.addToWhitelist address).account a = if address = a then _ else _
    unfold addToWhitelist
    by_cases h : address = a
    · subst h
      rw [if_pos rfl]
      split <;> simp_all [account, isBlacklisted, isWhitelisted, Account.step]
    · rw [if_neg h]
      split
      · rfl
      · simp [account, isBlacklisted, isWhitelisted, Ne.symm h]

/-! ## What is stored -/

/-- What a check of an account can do. -/
inductive Account.Checked (v : Account) (now : Int) : Option Bool → Account → Prop where
  | blacklisted (h : v.blacklisted = true) : Checked v now (some false) v
  | whitelisted (h : v.blacklisted = false) (hwhite : v.whitelisted = true) :
      Checked v now (some true) v
  | panics : Checked v now none v
  | refused (hwhite : v.whitelisted = false) (hfull : v.maxTx ≤ (v.recent now).length) :
      Checked v now (some false) { v with timestamps := v.recent now }
  | approved (hwhite : v.whitelisted = false) (hroom : (v.recent now).length < v.maxTx) :
      Checked v now (some true) { v with timestamps := v.recent now ++ [now] }

/-- The cases of a check: blacklisted, whitelisted, refused at the limit, admitted. -/
theorem Account.check_spec (range : DateRange) (v : Account) (now : Int) :
    v.Checked now (v.check range now).1 (v.check range now).2 := by
  unfold Account.check
  by_cases hblack : v.blacklisted = true
  · rw [if_pos hblack]
    exact .blacklisted hblack
  by_cases hwhite : v.whitelisted = true
  · rw [if_neg hblack, if_pos hwhite]
    exact .whitelisted (Bool.of_not_eq_true hblack) hwhite
  rw [if_neg hblack, if_neg hwhite]
  by_cases hcutoff : cutoff range v.windowSecs now = none
  · rw [if_pos hcutoff]
    exact .panics
  rw [if_neg hcutoff]
  by_cases hfull : v.maxTx ≤ (v.recent now).length
  · rw [if_pos hfull]
    exact .refused (Bool.of_not_eq_true hwhite) hfull
  · rw [if_neg hfull]
    exact .approved (Bool.of_not_eq_true hwhite) (Nat.lt_of_not_le hfull)

/-- The account has let in `approved`, at times of `calls`, and still knows all of it that can
count from the last of the calls on. -/
structure Account.Tracks (v : Account) (calls : List Call) (approved : List Int) : Prop where
  admitted : Admitted v.maxTx v.width approved
  times : ∀ x ∈ approved, ∃ c ∈ calls, x = c.now
  kept : ∀ t, (∀ c ∈ calls, c.now ≤ t) → v.recent t = live v.width t approved

theorem Account.Tracks.past {v : Account} {calls : List Call} {approved : List Int}
    (h : v.Tracks calls approved) {t : Int} (ht : ∀ c ∈ calls, c.now ≤ t) :
    ∀ x ∈ approved, x ≤ t := by
  intro x hx
  obtain ⟨c, hc, rfl⟩ := h.times x hx
  exact ht c hc

/-- A call that lets nothing in keeps what is known, whether it drops what has left the window or
not. -/
theorem Account.Tracks.later {v : Account} {calls : List Call} {approved : List Int}
    (h : v.Tracks calls approved) {c : Call} {next : Account} (hmax : next.maxTx = v.maxTx)
    (hwidth : next.width = v.width)
    (hkept : next.timestamps = v.timestamps ∨ next.timestamps = v.recent c.now) :
    next.Tracks (calls ++ [c]) approved := by
  have hadmitted := h.admitted
  rw [← hmax, ← hwidth] at hadmitted
  refine ⟨hadmitted, fun x hx => ?_, fun t ht => ?_⟩
  · obtain ⟨d, hd, rfl⟩ := h.times x hx
    exact ⟨d, List.mem_append_left _ hd, rfl⟩
  · have hbefore := h.kept t fun d hd => ht d (List.mem_append_left _ hd)
    have hnow : c.now ≤ t := ht c (by simp)
    unfold Account.recent at hbefore hkept ⊢
    rw [hwidth]
    rcases hkept with hsame | hdropped
    · rw [hsame, hbefore]
    · rw [hdropped, live_live hnow, hbefore]

/-- A call that lets `c.now` in. -/
theorem Account.Tracks.letIn {v : Account} {calls : List Call} {approved : List Int}
    (h : v.Tracks calls approved) {c : Call} (hclock : ∀ d ∈ calls, d.now ≤ c.now)
    (hroom : (v.recent c.now).length < v.maxTx) :
    ({ v with timestamps := v.recent c.now ++ [c.now] } : Account).Tracks (calls ++ [c])
      (approved ++ [c.now]) := by
  have hlive := h.kept c.now hclock
  rw [hlive] at hroom
  refine ⟨.concat h.admitted (h.past hclock) hroom, fun x hx => ?_, fun t ht => ?_⟩
  · rcases List.mem_append.mp hx with hx | hx
    · obtain ⟨d, hd, rfl⟩ := h.times x hx
      exact ⟨d, List.mem_append_left _ hd, rfl⟩
    · exact ⟨c, by simp, List.mem_singleton.mp hx⟩
  · have hbefore := h.kept t fun d hd => ht d (List.mem_append_left _ hd)
    have hnow : c.now ≤ t := ht c (by simp)
    show live v.width t (live v.width c.now v.timestamps ++ [c.now])
      = live v.width t (approved ++ [c.now])
    rw [live_append, live_append, live_live hnow]
    show v.recent t ++ _ = _
    rw [hbefore]

/-! ## Runs -/

/-- The time at which an occurrence approves a check of `a`. -/
def approvedAt (range : DateRange) (a : String) (o : Occ RateLimiter Call) : Option Int :=
  if o.act.op = .check a ∧ (o.before.check range o.act.now a).1 = some true then some o.act.now
  else none

/-- The times at which the calls of a history were admitted. -/
def approvals (range : DateRange) (a : String) (tr : List (Occ RateLimiter Call)) : List Int :=
  tr.filterMap (approvedAt range a)

section Runs

variable {range : DateRange} {s : RateLimiter} {c : Call} {calls : List Call} {a : String}

/-- A check changes nothing but the admission times. -/
theorem Account.check_fields (range : DateRange) (v : Account) (now : Int) :
    (v.check range now).2.maxTx = v.maxTx ∧ (v.check range now).2.windowSecs = v.windowSecs ∧
      (v.check range now).2.blacklisted = v.blacklisted ∧
      (v.check range now).2.whitelisted = v.whitelisted := by
  unfold Account.check
  split_ifs <;> exact ⟨rfl, rfl, rfl, rfl⟩

/-- No call changes the limit or the window. -/
theorem Account.step_settings (range : DateRange) (v : Account) (c : Call) :
    (v.step range c).maxTx = v.maxTx ∧ (v.step range c).windowSecs = v.windowSecs := by
  unfold Account.step
  cases c.op with
  | check address =>
    obtain ⟨hmax, hwindow, -, -⟩ := v.check_fields range c.now
    exact ⟨hmax, hwindow⟩
  | addToBlacklist address => exact ⟨rfl, rfl⟩
  | removeFromBlacklist address => exact ⟨rfl, rfl⟩
  | addToWhitelist address => exact ⟨rfl, rfl⟩

/-- The settings never change. -/
theorem account_settings (s : RateLimiter) (calls : List Call) (a : String) :
    ((run (step range) s calls).account a).maxTx = s.maxTx ∧
      ((run (step range) s calls).account a).windowSecs = s.windowSecs := by
  refine run_invariant (step range)
    (P := fun x => (x.account a).maxTx = s.maxTx ∧ (x.account a).windowSecs = s.windowSecs)
    (fun x c hx => ?_) ⟨rfl, rfl⟩ calls
  rw [account_step]
  split
  · obtain ⟨hmax, hwindow⟩ := (x.account a).step_settings range c
    rw [hmax, hwindow]
    exact hx
  · exact hx

/-- Nothing takes an address off the whitelist. -/
theorem whitelisted_step :
    ((step range s c).account a).whitelisted = true ↔
      (s.account a).whitelisted = true ∨ c.op = .addToWhitelist a := by
  rw [account_step]
  obtain ⟨now, op⟩ := c
  cases op with
  | check address =>
    have hsame := ((s.account a).check_fields range now).2.2.2
    by_cases h : address = a
    · simp [Op.address, Account.step, h, hsame]
    · simp [Op.address, h]
  | addToBlacklist address => by_cases h : address = a <;> simp [Op.address, Account.step, h]
  | removeFromBlacklist address => by_cases h : address = a <;> simp [Op.address, Account.step, h]
  | addToWhitelist address => by_cases h : address = a <;> simp [Op.address, Account.step, h]

/-- The last of the two calls on the blacklist counts. -/
theorem blacklisted_step :
    ((step range s c).account a).blacklisted = true ↔
      c.op = .addToBlacklist a ∨
        ((s.account a).blacklisted = true ∧ c.op ≠ .removeFromBlacklist a) := by
  rw [account_step]
  obtain ⟨now, op⟩ := c
  cases op with
  | check address =>
    have hsame := ((s.account a).check_fields range now).2.2.1
    by_cases h : address = a
    · simp [Op.address, Account.step, h, hsame]
    · simp [Op.address, h]
  | addToBlacklist address => by_cases h : address = a <;> simp [Op.address, Account.step, h]
  | removeFromBlacklist address => by_cases h : address = a <;> simp [Op.address, Account.step, h]
  | addToWhitelist address => by_cases h : address = a <;> simp [Op.address, Account.step, h]

/-- By induction over the calls. -/
theorem whitelisted_run (hs : (s.account a).whitelisted = false) :
    ((run (step range) s calls).account a).whitelisted = true ↔
      ∃ c ∈ calls, c.op = .addToWhitelist a := by
  induction calls using List.reverseRecOn with
  | nil => simp [hs]
  | append_singleton calls c ih =>
    rw [run_concat, whitelisted_step, ih]
    simp only [List.mem_append, List.mem_singleton, or_and_right, exists_or, exists_eq_left]

/-- The last edit of the blacklist that is about `a` has put it there. -/
def Blacklisted (a : String) (calls : List Call) : Prop :=
  Since (fun _ c => c.op = .addToBlacklist a) (fun d => d.op = .removeFromBlacklist a) calls

/-- By induction over the calls. -/
theorem blacklisted_run (hs : (s.account a).blacklisted = false) :
    ((run (step range) s calls).account a).blacklisted = true ↔ Blacklisted a calls := by
  induction calls using List.reverseRecOn with
  | nil =>
    rw [run_nil, hs]
    exact iff_of_false Bool.false_ne_true since_nil
  | append_singleton calls c ih =>
    rw [run_concat, blacklisted_step, ih]
    unfold Blacklisted
    rw [since_concat]

/-- The list edits and the calls about others touch no timestamps of `a`. -/
theorem account_of_not_check (range : DateRange) (s : RateLimiter) (hcheck : c.op ≠ .check a) :
    ((step range s c).account a).maxTx = (s.account a).maxTx ∧
      ((step range s c).account a).width = (s.account a).width ∧
      ((step range s c).account a).timestamps = (s.account a).timestamps := by
  rw [account_step]
  obtain ⟨now, op⟩ := c
  cases op with
  | check address =>
    have hne : address ≠ a := fun h => hcheck (by rw [h])
    rw [if_neg (by exact hne)]
    exact ⟨rfl, rfl, rfl⟩
  | addToBlacklist address => split <;> exact ⟨rfl, rfl, rfl⟩
  | removeFromBlacklist address => split <;> exact ⟨rfl, rfl, rfl⟩
  | addToWhitelist address => split <;> exact ⟨rfl, rfl, rfl⟩

/-- One call: what it approves is let in. -/
theorem tracks_step {approved : List Int} (h : (s.account a).Tracks calls approved)
    (hclock : ∀ d ∈ calls, d.now ≤ c.now) (hwhite : (s.account a).whitelisted = false) :
    ((step range s c).account a).Tracks (calls ++ [c])
      (approved ++ (approvedAt range a ⟨s, c, step range s c⟩).toList) := by
  by_cases hcheck : c.op = .check a
  · obtain ⟨hanswer, hafter⟩ := check_account range s c.now a
    have hspec := (s.account a).check_spec range c.now
    have hstep : (step range s c).account a = ((s.account a).check range c.now).2 := by
      rw [← hafter]
      unfold step
      rw [hcheck]
    rw [hstep]
    unfold approvedAt
    simp only [hcheck, true_and, hanswer]
    generalize s.account a = v at h hwhite hspec ⊢
    generalize v.check range c.now = result at hspec ⊢
    obtain ⟨answer, next⟩ := result
    cases hspec with
    | blacklisted =>
      show Account.Tracks _ _ (approved ++ [])
      rw [List.append_nil]
      exact h.later rfl rfl (.inl rfl)
    | whitelisted _ hin =>
      rw [hwhite] at hin
      cases hin
    | panics =>
      show Account.Tracks _ _ (approved ++ [])
      rw [List.append_nil]
      exact h.later rfl rfl (.inl rfl)
    | refused =>
      show Account.Tracks _ _ (approved ++ [])
      rw [List.append_nil]
      exact h.later rfl rfl (.inr rfl)
    | approved _ hroom => exact h.letIn hclock hroom
  · have hnone : approvedAt range a ⟨s, c, step range s c⟩ = none := by
      simp [approvedAt, hcheck]
    obtain ⟨hmax, hwidth, htimes⟩ := account_of_not_check range s hcheck
    rw [hnone, Option.toList_none, List.append_nil]
    exact h.later hmax hwidth (.inl htimes)

theorem approvals_concat (tr : List (Occ RateLimiter Call)) (o : Occ RateLimiter Call) :
    approvals range a (tr ++ [o]) = approvals range a tr ++ (approvedAt range a o).toList := by
  unfold approvals
  rw [List.filterMap_append]
  cases h : approvedAt range a o <;> simp [h]

/-- What is stored for an address nobody put on the whitelist are its approvals, but for some that
have left the window. -/
theorem tracks_run (range : DateRange) (maxTx : Nat) (windowSecs : Int) (hclock : ClockOrder calls)
    (hwhite : ∀ c ∈ calls, c.op ≠ .addToWhitelist a) :
    ((run (step range) (new maxTx windowSecs) calls).account a).Tracks calls
      (approvals range a (trace (step range) (new maxTx windowSecs) calls)) := by
  induction calls using List.reverseRecOn with
  | nil => exact ⟨.nil, by simp [approvals], fun t _ => rfl⟩
  | append_singleton calls c ih =>
    unfold ClockOrder at hclock
    rw [List.pairwise_append] at hclock
    have hwhite' : ∀ d ∈ calls, d.op ≠ .addToWhitelist a :=
      fun d hd => hwhite d (List.mem_append_left _ hd)
    have hnot : ((run (step range) (new maxTx windowSecs) calls).account a).whitelisted = false := by
      rw [← Bool.not_eq_true, whitelisted_run rfl]
      rintro ⟨d, hd, hop⟩
      exact hwhite' d hd hop
    rw [run_concat, trace_concat, approvals_concat]
    exact tracks_step (ih hclock.1 hwhite') (fun d hd => hclock.2.2 d hd c (by simp)) hnot

end Runs

/-! ## What later calls can tell apart -/

/-- Two accounts that no call from time `t` on tells apart: they may differ in timestamps that have
left the window. -/
structure Account.Same (t : Int) (v v' : Account) : Prop where
  maxTx : v.maxTx = v'.maxTx
  windowSecs : v.windowSecs = v'.windowSecs
  blacklisted : v.blacklisted = v'.blacklisted
  whitelisted : v.whitelisted = v'.whitelisted
  recent : ∀ u, t ≤ u → v.recent u = v'.recent u

section Same

variable {range : DateRange} {t : Int} {v v' : Account}

theorem Account.Same.refl (t : Int) (v : Account) : v.Same t v :=
  ⟨rfl, rfl, rfl, rfl, fun _ _ => rfl⟩

/-- What agrees from `t` on agrees from any later time on. -/
theorem Account.Same.mono (h : v.Same t v') {u : Int} (hle : t ≤ u) : v.Same u v' :=
  ⟨h.maxTx, h.windowSecs, h.blacklisted, h.whitelisted, fun x hx => h.recent x (Int.le_trans hle hx)⟩

/-- A check answers the same, and leaves the same. -/
theorem Account.Same.check (h : v.Same t v') {now : Int} (hnow : t ≤ now) :
    (v.check range now).1 = (v'.check range now).1 ∧
      (v.check range now).2.Same now (v'.check range now).2 := by
  have hlater := h.mono hnow
  have hrecent := h.recent now hnow
  -- once a check has dropped or let in timestamps, the two accounts are one
  unfold Account.check
  rw [h.blacklisted, h.whitelisted, h.windowSecs, h.maxTx, hrecent]
  split
  · exact ⟨rfl, hlater⟩
  split
  · exact ⟨rfl, hlater⟩
  split
  · exact ⟨rfl, hlater⟩
  split
  · exact ⟨rfl, .refl now _⟩
  · exact ⟨rfl, .refl now _⟩

/-- Two accounts that agree from the time of a call on agree after it. -/
theorem Account.Same.step (h : v.Same t v') {c : Call} (hnow : t ≤ c.now) :
    (v.step range c).Same c.now (v'.step range c) := by
  have hlater := h.mono hnow
  unfold Account.step
  cases c.op with
  | check address => exact (h.check hnow).2
  | addToBlacklist address =>
    exact ⟨hlater.maxTx, hlater.windowSecs, rfl, hlater.whitelisted, hlater.recent⟩
  | removeFromBlacklist address =>
    exact ⟨hlater.maxTx, hlater.windowSecs, rfl, hlater.whitelisted, hlater.recent⟩
  | addToWhitelist address =>
    exact ⟨hlater.maxTx, hlater.windowSecs, hlater.blacklisted, rfl, hlater.recent⟩

/-- Why a check is refused. -/
theorem Account.refused_cases {now : Int} (h : (v.check range now).1 = some false) :
    v.blacklisted = true ∨ (v.whitelisted = false ∧ v.maxTx ≤ (v.recent now).length) := by
  have hspec := v.check_spec range now
  generalize v.check range now = result at h hspec
  obtain ⟨answer, next⟩ := result
  obtain rfl : answer = some false := h
  cases hspec with
  | blacklisted hblack => exact .inl hblack
  | refused hwhite hfull => exact .inr ⟨hwhite, hfull⟩

/-- A refused check leaves what nobody can tell from what was there before. -/
theorem Account.same_of_refused {now : Int} (h : (v.check range now).1 = some false) :
    (v.check range now).2.Same now v := by
  have hspec := v.check_spec range now
  generalize v.check range now = result at h hspec ⊢
  obtain ⟨answer, next⟩ := result
  obtain rfl : answer = some false := h
  cases hspec with
  | blacklisted => exact .refl now _
  | refused => exact ⟨rfl, rfl, rfl, rfl, fun u hu => live_live hu⟩

/-- Limiters whose accounts are the same answer alike. -/
theorem answers_eq_of_same {s s' : RateLimiter} {calls : List Call}
    (h : ∀ a, (s.account a).Same t (s'.account a)) (hlater : ∀ c ∈ calls, t ≤ c.now)
    (hclock : ClockOrder calls) : answers range s calls = answers range s' calls := by
  induction calls generalizing s s' t with
  | nil => rfl
  | cons c calls ih =>
    have hnow : t ≤ c.now := hlater c List.mem_cons_self
    have hstep : ∀ a, ((RateLimiter.step range s c).account a).Same c.now
        ((RateLimiter.step range s' c).account a) := by
      intro a
      rw [account_step, account_step]
      split
      · exact (h a).step hnow
      · exact (h a).mono hnow
    unfold ClockOrder at hclock
    rw [List.pairwise_cons] at hclock
    have hrest := ih hstep hclock.1 hclock.2
    unfold answers
    cases c.op with
    | check address =>
      simp only
      rw [hrest, (check_account range s c.now address).1, (check_account range s' c.now address).1,
        ((h address).check hnow).1]
    | addToBlacklist address => exact hrest
    | removeFromBlacklist address => exact hrest
    | addToWhitelist address => exact hrest

end Same

/-- The answers to the checks of `a`. -/
def answersFor (range : DateRange) (a : String) : RateLimiter → List Call → List (Option Bool)
  | _, [] => []
  | self, c :: calls =>
    if c.op = .check a then
      (self.check range c.now a).1 :: answersFor range a (step range self c) calls
    else answersFor range a (step range self c) calls

/-- They are what the account of `a` makes of the calls about `a`. -/
theorem answersFor_filter {range : DateRange} {a : String} {s s' : RateLimiter}
    (h : s.account a = s'.account a) (calls : List Call) :
    answersFor range a s calls
      = answersFor range a s' (calls.filter fun c => c.op.address = a) := by
  induction calls generalizing s s' with
  | nil => rfl
  | cons c calls ih =>
    by_cases hmine : c.op.address = a
    · have hstep : (step range s c).account a = (step range s' c).account a := by
        rw [account_step, account_step, h]
      have hanswer : (s.check range c.now a).1 = (s'.check range c.now a).1 := by
        rw [(check_account range s c.now a).1, (check_account range s' c.now a).1, h]
      rw [List.filter_cons_of_pos (by simpa using hmine), answersFor, answersFor, ih hstep, hanswer]
    · have hstep : (step range s c).account a = s'.account a := by
        rw [account_step, if_neg hmine, h]
      have hother : c.op ≠ .check a := by
        intro hcheck
        exact hmine (by rw [hcheck]; rfl)
      rw [List.filter_cons_of_neg (by simpa using hmine), answersFor, if_neg hother, ih hstep]

/-! ## The rate limit -/

/-- What a rate limiter does over a sequence of calls: an address nobody put on the whitelist gets
at most `max_tx` approvals in any window, a check is refused only on the blacklist or with `max_tx`
approvals in the window that ends with it, leaving a refused check out changes no later answer, and
the answers to an address are those of the calls about it. -/
structure Limits (range : DateRange) (maxTx : Nat) (windowSecs : Int) (calls : List Call) :
    Prop where
  limit : ∀ a, (∀ c ∈ calls, c.op ≠ .addToWhitelist a) → ∀ t,
    (inWindow (windowSecs * nanosPerSec) t
      (approvals range a (trace (step range) (new maxTx windowSecs) calls))).length ≤ maxTx
  refusal : ∀ a l₁ c l₂, calls = l₁ ++ c :: l₂ → c.op = .check a →
    ((run (step range) (new maxTx windowSecs) l₁).check range c.now a).1 = some false →
    Blacklisted a l₁ ∨
      (inWindow (windowSecs * nanosPerSec) c.now
        (approvals range a (trace (step range) (new maxTx windowSecs) l₁))).length = maxTx
  quota : ∀ a l₁ c l₂, calls = l₁ ++ c :: l₂ → c.op = .check a →
    ((run (step range) (new maxTx windowSecs) l₁).check range c.now a).1 = some false →
    answers range (run (step range) (new maxTx windowSecs) (l₁ ++ [c])) l₂
      = answers range (run (step range) (new maxTx windowSecs) l₁) l₂
  independent : ∀ a, answersFor range a (new maxTx windowSecs) calls
    = answersFor range a (new maxTx windowSecs) (calls.filter fun c => c.op.address = a)

section Limits

variable {range : DateRange} {maxTx : Nat} {windowSecs : Int} {calls : List Call}

/-- The window stays the one the limiter was made with. -/
theorem width_run (a : String) :
    ((run (step range) (new maxTx windowSecs) calls).account a).width
      = windowSecs * nanosPerSec := by
  unfold Account.width
  rw [(account_settings (new maxTx windowSecs) calls a).2]
  rfl

/-- In no window are there more admissions than the limit. -/
theorem limit_run (hclock : ClockOrder calls) {a : String}
    (hwhite : ∀ c ∈ calls, c.op ≠ .addToWhitelist a) (t : Int) :
    (inWindow (windowSecs * nanosPerSec) t
      (approvals range a (trace (step range) (new maxTx windowSecs) calls))).length ≤ maxTx := by
  have htracks := tracks_run range maxTx windowSecs hclock hwhite
  have hbound := htracks.admitted.length_inWindow_le t
  rw [width_run, (account_settings (new maxTx windowSecs) calls a).1] at hbound
  exact hbound

/-- A refusal has one of two reasons. -/
theorem refusal_run {a : String} {c : Call} (hclock : ClockOrder calls)
    (hlater : ∀ d ∈ calls, d.now ≤ c.now)
    (h : ((run (step range) (new maxTx windowSecs) calls).check range c.now a).1 = some false) :
    Blacklisted a calls ∨
      (inWindow (windowSecs * nanosPerSec) c.now
        (approvals range a (trace (step range) (new maxTx windowSecs) calls))).length = maxTx := by
  rw [(check_account range _ c.now a).1] at h
  rcases Account.refused_cases h with hblack | ⟨hnot, hfull⟩
  · exact .inl ((blacklisted_run rfl).mp hblack)
  · have hwhite : ∀ d ∈ calls, d.op ≠ .addToWhitelist a := by
      intro d hd hop
      rw [(whitelisted_run rfl).mpr ⟨d, hd, hop⟩] at hnot
      cases hnot
    have htracks := tracks_run range maxTx windowSecs hclock hwhite
    rw [htracks.kept c.now hlater, width_run, (account_settings _ calls a).1] at hfull
    refine .inr (Nat.le_antisymm (limit_run hclock hwhite c.now) ?_)
    rw [inWindow_eq_live (htracks.past hlater)]
    exact hfull

/-- A refused check uses up nothing: the answers that follow are the same without it. -/
theorem quota_run {a : String} {c : Call} {rest : List Call}
    (hclock : ClockOrder (c :: rest)) (hcheck : c.op = .check a) {s : RateLimiter}
    (h : (s.check range c.now a).1 = some false) :
    answers range (step range s c) rest = answers range s rest := by
  unfold ClockOrder at hclock
  rw [List.pairwise_cons] at hclock
  refine answers_eq_of_same (t := c.now) (fun b => ?_) hclock.1 hclock.2
  obtain ⟨hanswer, hafter⟩ := check_account range s c.now a
  by_cases hb : a = b
  · subst hb
    have hstep : (step range s c).account a = ((s.account a).check range c.now).2 := by
      rw [← hafter]
      unfold step
      rw [hcheck]
    rw [hstep]
    exact Account.same_of_refused (hanswer.symm.trans h)
  · rw [account_step, hcheck, if_neg (by exact hb)]
    exact .refl c.now _

end Limits

/-- For every number of calls and every width of the window, every sequence of checks and edits of
the lists and every clock that does not go back. -/
theorem sliding_window_limit (range : DateRange) (maxTx : Nat) (windowSecs : Int)
    {calls : List Call} (hclock : ClockOrder calls) : Limits range maxTx windowSecs calls where
  limit := fun _ hwhite t => limit_run hclock hwhite t
  refusal := by
    intro a l₁ c l₂ hcalls _ h
    unfold ClockOrder at hclock
    rw [hcalls, List.pairwise_append] at hclock
    exact refusal_run hclock.1 (fun d hd => hclock.2.2 d hd c List.mem_cons_self) h
  quota := by
    intro a l₁ c l₂ hcalls hcheck h
    unfold ClockOrder at hclock
    rw [hcalls, List.pairwise_append] at hclock
    rw [run_concat]
    exact quota_run hclock.2.1 hcheck h
  independent := fun _ => answersFor_filter rfl calls

/-- Two approvals in ten seconds: the third check is refused, whether or not another address is
checked in between, and one after ten seconds is approved again. -/
theorem sliding_window_limit_sample :
    let at' (seconds : Int) (op : Op) : Call := ⟨seconds * nanosPerSec, op⟩
    let calls := [at' 0 (.check "GA"), at' 1 (.check "GB"), at' 4 (.check "GA"),
      at' 9 (.check "GA"), at' 10 (.check "GA")]
    answers ⟨-1000000 * nanosPerSec, 1000000 * nanosPerSec⟩ (new 2 10) calls
        = [("GA", some true), ("GB", some true), ("GA", some true), ("GA", some false),
          ("GA", some true)] ∧
      Limits ⟨-1000000 * nanosPerSec, 1000000 * nanosPerSec⟩ 2 10 calls := by
  intro at' calls
  refine ⟨by decide, sliding_window_limit _ 2 10 ?_⟩
  unfold ClockOrder
  decide

end RateLimiter

end Security
