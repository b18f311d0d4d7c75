import StellarTipjar.Soroban.Wp
import StellarTipjar.Soroban.StandardToken
import StellarTipjar.Lib.Trace

/-!
# A contract as a state machine

The machine of any contract given by its entrypoints `ι` and their programs: `exec` runs one call
on a chain and `step` is one step of the machine. A call that fails changes nothing, and between
two calls the world outside the contract may become anything (`Action.outside`). Statements about
runs of the contract are statements about `Lib.run` and `Lib.trace` of `step`.

`isStep_cases` is the inversion of a step, and `exec_post` / `exec_of_twp` carry the rules of
`wp` and `twp` to whole calls.
-/

namespace Soroban.Machine

open Lib Contract

/-- One invocation: the ledger it runs in, the addresses that authorised it, the function. -/
structure Invocation (ι : Type) where
  sequence : UInt32
  auth : List Address
  entry : ι
deriving DecidableEq, Repr

/-- A call of the contract, or anything that happens elsewhere and leaves the outside world
at `x`. -/
inductive Action (ι X : Type) where
  | call (c : Invocation ι)
  | outside (x : X)

variable {κ : Type} {β : κ → Type} {ε err X ι ρ : Type}

/-- A deployed contract nobody has called yet. -/
structure Fresh (w : Env κ β ε X) : Prop where
  inst : w.inst = Store.empty
  pers : w.pers = Store.empty
  events : w.events = []
  transfers : w.transfers = []

/-- The contract as it is deployed into the outside world `x`. -/
def freshEnv (x : X) : Env κ β ε X where
  inst := Store.empty
  pers := Store.empty
  instLive := 0
  persLive := fun _ => 0
  events := []
  transfers := []
  writes := []
  wasm := none
  ext := x

theorem freshEnv_fresh (x : X) : Fresh (freshEnv x : Env κ β ε X) := ⟨rfl, rfl, rfl, rfl⟩

/-- Nobody authorises a call as the contract itself, and nothing outside the contract debits its
account. -/
def Permitted (chain : Chain X) (holding : X → Address → Nat)
    (o : Occ (Env κ β ε X) (Action ι X)) : Prop :=
  match o.act with
  | .call c => chain.self ∉ c.auth
  | .outside x => holding o.before.ext chain.self ≤ holding x chain.self

instance (chain : Chain X) (holding : X → Address → Nat) (o : Occ (Env κ β ε X) (Action ι X)) :
    Decidable (Permitted chain holding o) :=
  match o with
  | ⟨_, .call c, _⟩ => inferInstanceAs (Decidable (chain.self ∉ c.auth))
  | ⟨before, .outside x, _⟩ =>
    inferInstanceAs (Decidable (holding before.ext chain.self ≤ holding x chain.self))

section Machine

variable (program : ι → Contract κ β ε err X ρ)

-- the host loads the contract, then runs the function
def invoke (entry : ι) : Contract κ β ε err X ρ := do
  loadInstance
  program entry

def exec (chain : Chain X) (call : Invocation ι) (w : Env κ β ε X) :
    Except (Failure err) (ρ × Env κ β ε X) :=
  (invoke program call.entry).run (chain.ctx call.sequence call.auth) w

def step (chain : Chain X) (w : Env κ β ε X) : Action ι X → Env κ β ε X
  | .call c =>
    match exec program chain c w with
    | .ok (_, w') => w'
    | .error _ => w
  | .outside x => { w with ext := x }

/-- The occurrence `o` is a successful call `c`. -/
def Succeeds (chain : Chain X) (o : Occ (Env κ β ε X) (Action ι X)) (c : Invocation ι) : Prop :=
  o.act = .call c ∧ ∃ r, exec program chain c o.before = .ok (r, o.after)

/-- The function whose call succeeded, if the occurrence is a successful call. -/
def accepted (chain : Chain X) (o : Occ (Env κ β ε X) (Action ι X)) : Option ι :=
  match o.act with
  | .call c => if (exec program chain c o.before).isOk then some c.entry else none
  | .outside _ => none

end Machine

section Steps

variable {program : ι → Contract κ β ε err X ρ} {chain : Chain X} {w w' : Env κ β ε X}
  {call : Invocation ι} {r : ρ} {o : Occ (Env κ β ε X) (Action ι X)}

/-- What a step can be: a successful call, a failed one, or something outside. -/
theorem isStep_cases (h : IsStep (step program chain) o) :
    (∃ c, Succeeds program chain o c) ∨ o.after = o.before ∨
      ∃ x, o.act = .outside x ∧ o.after = { o.before with ext := x } := by
  unfold IsStep at h
  cases hact : o.act with
  | call c =>
    rw [hact] at h
    simp only [step] at h
    cases hexec : exec program chain c o.before with
    | ok p =>
      rw [hexec] at h
      exact .inl ⟨c, hact, p.1, by rw [hexec, h]⟩
    | error e =>
      rw [hexec] at h
      exact .inr (.inl h)
  | outside x =>
    rw [hact] at h
    exact .inr (.inr ⟨x, rfl, h⟩)

/-- A step that is no successful call changes at most the outside world. -/
theorem succeeds_or_outside (h : IsStep (step program chain) o) :
    (∃ c, Succeeds program chain o c) ∨ ∃ x, o.after = { o.before with ext := x } := by
  rcases isStep_cases h with hcall | hsame | ⟨x, -, hx⟩
  · exact .inl hcall
  · exact .inr ⟨o.before.ext, hsame⟩
  · exact .inr ⟨x, hx⟩

/-- A step that calls a function which returns is a successful call. -/
theorem step_call_ok (h : exec program chain call w = .ok (r, w')) :
    step program chain w (.call call) = w' := by
  simp only [step, h]

/-- A run through a call that returns goes on from what the call left. -/
theorem run_call_ok {acts : List (Action ι X)} {w₀ : Env κ β ε X}
    (h : exec program chain call (run (step program chain) w₀ acts) = .ok (r, w'))
    (acts' : List (Action ι X)) :
    run (step program chain) w₀ (acts ++ .call call :: acts') = run (step program chain) w' acts' := by
  rw [run_append, run_cons, step_call_ok h]

theorem Succeeds.of_ok (h : IsStep (step program chain) o) (hact : o.act = .call call)
    (hexec : exec program chain call o.before = .ok (r, w')) : Succeeds program chain o call := by
  unfold IsStep at h
  rw [hact] at h
  simp only [step] at h
  rw [hexec] at h
  exact ⟨hact, r, by rw [hexec, h]⟩

theorem accepted_of_succeeds (h : Succeeds program chain o call) :
    accepted program chain o = some call.entry := by
  obtain ⟨hact, r, hexec⟩ := h
  unfold accepted
  rw [hact]
  simp only [hexec]
  rfl

theorem accepted_of_not_succeeds (hstep : IsStep (step program chain) o)
    (h : ∀ c, ¬Succeeds program chain o c) : accepted program chain o = none := by
  unfold accepted
  cases hact : o.act with
  | outside x => rfl
  | call c =>
    cases hexec : exec program chain c o.before with
    | error e =>
      simp only [hexec]
      rfl
    | ok p => exact absurd (Succeeds.of_ok hstep hact hexec) (h c)

/-- Only a successful call is accepted. -/
theorem succeeds_of_accepted {e : ι} (hstep : IsStep (step program chain) o)
    (h : accepted program chain o = some e) : ∃ c, Succeeds program chain o c ∧ c.entry = e := by
  by_cases hcall : ∃ c, Succeeds program chain o c
  · obtain ⟨c, hc⟩ := hcall
    exact ⟨c, hc, Option.some.inj ((accepted_of_succeeds hc).symm.trans h)⟩
  · rw [accepted_of_not_succeeds hstep fun c hc => hcall ⟨c, hc⟩] at h
    cases h

theorem Permitted.self_not_mem {holding : X → Address → Nat} (h : Permitted chain holding o)
    (hc : Succeeds program chain o call) : chain.self ∉ call.auth := by
  unfold Permitted at h
  rw [hc.1] at h
  exact h

theorem Permitted.outside {holding : X → Address → Nat} (h : Permitted chain holding o) {x : X}
    (hx : o.act = .outside x) : holding o.before.ext chain.self ≤ holding x chain.self := by
  unfold Permitted at h
  rw [hx] at h
  exact h

/-- What holds after every successful run of the function holds after the call. -/
theorem exec_post {Q : ρ → Env κ β ε X → Prop}
    (hQ : wp (program call.entry) (chain.ctx call.sequence call.auth) w Q)
    (h : exec program chain call w = .ok (r, w')) : Q r w' := by
  have hwp : wp (invoke program call.entry) (chain.ctx call.sequence call.auth) w Q := by
    simp only [invoke, wp_bind, wp_loadInstance]
    intro _
    exact hQ
  exact hwp r w' h

/-- A call that succeeds was loaded. -/
theorem instanceLive_of_ok (h : exec program chain call w = .ok (r, w')) :
    InstanceLive (chain.ctx call.sequence call.auth : Ctx κ β ε err X) w := by
  have hwp : wp (invoke program call.entry) (chain.ctx call.sequence call.auth) w fun _ _ =>
      InstanceLive (chain.ctx call.sequence call.auth : Ctx κ β ε err X) w := by
    simp only [invoke, wp_bind, wp_loadInstance]
    intro hlive _ _ _
    exact hlive
  exact hwp r w' h

/-- A function that succeeds on a live instance makes the call succeed. -/
theorem exec_of_twp (call : Invocation ι) {Q : ρ → Env κ β ε X → Prop}
    (hlive : InstanceLive (chain.ctx call.sequence call.auth : Ctx κ β ε err X) w)
    (hQ : twp (program call.entry) (chain.ctx call.sequence call.auth) w Q) :
    ∃ r w', exec program chain call w = .ok (r, w') ∧ Q r w' := by
  have htwp : twp (invoke program call.entry) (chain.ctx call.sequence call.auth) w Q := by
    simp only [invoke, twp_bind, twp_loadInstance]
    exact ⟨hlive, hQ⟩
  exact htwp

end Steps

end Soroban.Machine
