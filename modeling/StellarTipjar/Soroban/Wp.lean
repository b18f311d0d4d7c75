import StellarTipjar.Soroban.Host
import Mathlib.Tactic.Tauto

/-!
# Pre- and postconditions of contract programs

`wp m ctx env Q`: every successful run of `m` ends in `Q`. `twp m ctx env Q`: the run of `m` does
succeed, and ends in `Q`. Both have one equation per host operation, all tagged `simp`, so that
unfolding a contract function and simplifying is a symbolic execution of it: what is left of a
`wp` goal is `Q` at the updated environment under the conditions that were checked on the way.

The rules for a token call are those of a `Chain`, where the call cannot re-enter the contract.
-/

namespace Soroban

open Lib

namespace Env

variable {κ : Type} {β : κ → Type} {ε err X : Type}

/-- Without archival no entry is ever out of reach. -/
theorem not_archived {ctx : Ctx κ β ε err X} (h : ctx.archival = false) (env : Env κ β ε X)
    (k : κ) : ¬ env.Archived ctx k := by
  simp [Archived, h]

/-- A write leaves the other entries as archived as they were. -/
theorem archived_setPersistent_of_ne [DecidableEq κ] {ctx : Ctx κ β ε err X} {env : Env κ β ε X}
    {k k' : κ} (h : k' ≠ k) (v : β k) :
    (env.setPersistent ctx k v).Archived ctx k' ↔ env.Archived ctx k' := by
  have hlive : (env.setPersistent ctx k v).persLive k' = env.persLive k' := by
    unfold setPersistent
    split
    · rfl
    · exact Function.update_of_ne h _ _
  unfold Archived
  rw [hlive, setPersistent_pers, Store.get_set_of_ne _ h]

end Env

namespace Chain

variable {κ : Type} {β : κ → Type} {ε err X : Type}

section Fields

variable (chain : Chain X) (sequence : UInt32) (auth : List Address)

@[simp] theorem ctx_self :
    (chain.ctx sequence auth : Ctx κ β ε err X).self = chain.self := rfl
@[simp] theorem ctx_sequence :
    (chain.ctx sequence auth : Ctx κ β ε err X).sequence = sequence := rfl
@[simp] theorem ctx_auth : (chain.ctx sequence auth : Ctx κ β ε err X).auth = auth := rfl
@[simp] theorem ctx_archival :
    (chain.ctx sequence auth : Ctx κ β ε err X).archival = chain.archival := rfl
@[simp] theorem ctx_hasWasm :
    (chain.ctx sequence auth : Ctx κ β ε err X).hasWasm = chain.hasWasm := rfl
@[simp] theorem ctx_timestamp :
    (chain.ctx sequence auth : Ctx κ β ε err X).timestamp = chain.timestamp := rfl

end Fields

end Chain

namespace Contract

variable {κ : Type} {β : κ → Type} {ε err X α γ : Type}

/-- Every successful run of `m` ends in `Q`. -/
def wp (m : Contract κ β ε err X α) (ctx : Ctx κ β ε err X) (env : Env κ β ε X)
    (Q : α → Env κ β ε X → Prop) : Prop :=
  ∀ a env', m.run ctx env = .ok (a, env') → Q a env'

/-- The run of `m` succeeds and ends in `Q`. -/
def twp (m : Contract κ β ε err X α) (ctx : Ctx κ β ε err X) (env : Env κ β ε X)
    (Q : α → Env κ β ε X → Prop) : Prop :=
  ∃ a env', m.run ctx env = .ok (a, env') ∧ Q a env'

section Rules

variable {ctx : Ctx κ β ε err X} {env : Env κ β ε X} {Q : α → Env κ β ε X → Prop}
  {R : Unit → Env κ β ε X → Prop}

theorem wp_mono {m : Contract κ β ε err X α} {Q' : α → Env κ β ε X → Prop}
    (h : wp m ctx env Q) (hQ : ∀ a env', Q a env' → Q' a env') : wp m ctx env Q' :=
  fun a env' hrun => hQ a env' (h a env' hrun)

theorem twp_mono {m : Contract κ β ε err X α} {Q' : α → Env κ β ε X → Prop}
    (h : twp m ctx env Q) (hQ : ∀ a env', Q a env' → Q' a env') : twp m ctx env Q' := by
  obtain ⟨a, env', hrun, ha⟩ := h
  exact ⟨a, env', hrun, hQ a env' ha⟩

/-- A program that succeeds at all satisfies its specification totally. -/
theorem twp_of_wp {m : Contract κ β ε err X α} (hrun : twp m ctx env fun _ _ => True)
    (h : wp m ctx env Q) : twp m ctx env Q := by
  obtain ⟨a, env', hrun, -⟩ := hrun
  exact ⟨a, env', hrun, h a env' hrun⟩

/-! ### From the answer of a run to the rules

A run that answers has the postcondition at its answer; one that fails satisfies every `wp` and
no `twp`. Each operation's rule is one of these at the operation's own equation. -/

theorem wp_of_ok {m : Contract κ β ε err X α} {a : α} {env' : Env κ β ε X}
    (h : m.run ctx env = .ok (a, env')) : wp m ctx env Q ↔ Q a env' := by
  constructor
  · intro hwp
    exact hwp a env' h
  · intro hQ b e hrun
    rw [h] at hrun
    cases hrun
    exact hQ

theorem twp_of_ok {m : Contract κ β ε err X α} {a : α} {env' : Env κ β ε X}
    (h : m.run ctx env = .ok (a, env')) : twp m ctx env Q ↔ Q a env' := by
  constructor
  · rintro ⟨b, e, hrun, hQ⟩
    rw [h] at hrun
    cases hrun
    exact hQ
  · intro hQ
    exact ⟨a, env', h, hQ⟩

theorem wp_of_error {m : Contract κ β ε err X α} {e : Failure err}
    (h : m.run ctx env = .error e) : wp m ctx env Q ↔ True := by
  simp [wp, h]

theorem twp_of_error {m : Contract κ β ε err X α} {e : Failure err}
    (h : m.run ctx env = .error e) : twp m ctx env Q ↔ False := by
  simp [twp, h]

/-! ### Sequencing and branching

A check is a branch that panics. What it leaves in a `wp` goal is its negation as a hypothesis, and
in a `twp` goal its negation as something to prove; every pair of rules below differs in this. -/

@[simp] theorem wp_pure (a : α) : wp (pure a) ctx env Q ↔ Q a env := wp_of_ok rfl

@[simp] theorem twp_pure (a : α) : twp (pure a) ctx env Q ↔ Q a env := twp_of_ok rfl

theorem run_bind (m : Contract κ β ε err X γ) (f : γ → Contract κ β ε err X α)
    (ctx : Ctx κ β ε err X) (env : Env κ β ε X) :
    (m >>= f).run ctx env = match m.run ctx env with
      | .ok (a, env') => (f a).run ctx env'
      | .error e => .error e := rfl

@[simp] theorem wp_bind (m : Contract κ β ε err X γ) (f : γ → Contract κ β ε err X α) :
    wp (m >>= f) ctx env Q ↔ wp m ctx env fun a env' => wp (f a) ctx env' Q := by
  cases h : m.run ctx env with
  | error e => rw [wp_of_error h, wp_of_error (by rw [run_bind, h])]
  | ok r =>
    obtain ⟨a, env'⟩ := r
    rw [wp_of_ok h]
    unfold wp
    rw [run_bind, h]

@[simp] theorem twp_bind (m : Contract κ β ε err X γ) (f : γ → Contract κ β ε err X α) :
    twp (m >>= f) ctx env Q ↔ twp m ctx env fun a env' => twp (f a) ctx env' Q := by
  cases h : m.run ctx env with
  | error e => rw [twp_of_error h, twp_of_error (by rw [run_bind, h])]
  | ok r =>
    obtain ⟨a, env'⟩ := r
    rw [twp_of_ok h]
    unfold twp
    rw [run_bind, h]

@[simp] theorem wp_ite (c : Prop) [Decidable c] (m n : Contract κ β ε err X α) :
    wp (if c then m else n) ctx env Q ↔ (c → wp m ctx env Q) ∧ (¬c → wp n ctx env Q) := by
  by_cases hc : c <;> simp [hc]

@[simp] theorem twp_ite (c : Prop) [Decidable c] (m n : Contract κ β ε err X α) :
    twp (if c then m else n) ctx env Q ↔ (c → twp m ctx env Q) ∧ (¬c → twp n ctx env Q) := by
  by_cases hc : c <;> simp [hc]

@[simp] theorem wp_fail (e : Failure err) : wp (fail e) ctx env Q ↔ True := wp_of_error rfl

@[simp] theorem twp_fail (e : Failure err) : twp (fail e) ctx env Q ↔ False := twp_of_error rfl

@[simp] theorem wp_panicWithError (e : err) : wp (panicWithError e) ctx env Q ↔ True := wp_fail _

@[simp] theorem twp_panicWithError (e : err) : twp (panicWithError e) ctx env Q ↔ False :=
  twp_fail _

@[simp] theorem wp_panicIf (c : Prop) [Decidable c] (e : err) :
    wp (panicIf c e) ctx env R ↔ (¬c → R () env) := by
  simp [panicIf]

@[simp] theorem twp_panicIf (c : Prop) [Decidable c] (e : err) :
    twp (panicIf c e) ctx env R ↔ ¬c ∧ R () env := by
  by_cases hc : c <;> simp [panicIf, hc]

@[simp] theorem wp_unwrapOrPanic (o : Option α) (e : err) :
    wp (unwrapOrPanic o e) ctx env Q ↔ ∀ a, o = some a → Q a env := by
  cases o <;> simp [unwrapOrPanic]

@[simp] theorem twp_unwrapOrPanic (o : Option α) (e : err) :
    twp (unwrapOrPanic o e) ctx env Q ↔ ∃ a, o = some a ∧ Q a env := by
  cases o <;> simp [unwrapOrPanic]

@[simp] theorem wp_divOrTrap (a b : I128) {Q : I128 → Env κ β ε X → Prop} :
    wp (divOrTrap a b) ctx env Q ↔ ∀ q, a.checkedDiv b = some q → Q q env := by
  cases h : a.checkedDiv b <;> simp [divOrTrap, h]

@[simp] theorem twp_divOrTrap (a b : I128) {Q : I128 → Env κ β ε X → Prop} :
    twp (divOrTrap a b) ctx env Q ↔ ∃ q, a.checkedDiv b = some q ∧ Q q env := by
  cases h : a.checkedDiv b <;> simp [divOrTrap, h]

@[simp] theorem wp_onlyIf (c : Prop) [Decidable c] (m : Contract κ β ε err X Unit) :
    wp (onlyIf c m) ctx env R ↔ (c → wp m ctx env R) ∧ (¬c → R () env) := by
  simp [onlyIf]

@[simp] theorem twp_onlyIf (c : Prop) [Decidable c] (m : Contract κ β ε err X Unit) :
    twp (onlyIf c m) ctx env R ↔ (c → twp m ctx env R) ∧ (¬c → R () env) := by
  simp [onlyIf]

@[simp] theorem wp_ifSome (o : Option α) (f : α → Contract κ β ε err X Unit) :
    wp (ifSome o f) ctx env R ↔ (o = none → R () env) ∧ ∀ a, o = some a → wp (f a) ctx env R := by
  cases o <;> simp [ifSome]

@[simp] theorem twp_ifSome (o : Option α) (f : α → Contract κ β ε err X Unit) :
    twp (ifSome o f) ctx env R ↔
      (o = none → R () env) ∧ ∀ a, o = some a → twp (f a) ctx env R := by
  cases o <;> simp [ifSome]

/-! ### The invocation

What a program learns of the call and of the ledger, and the authorisations it asks for. Loading the
instance is an operation of its own: it fails when the instance is archived. -/

@[simp] theorem wp_ledgerSequence {Q : UInt32 → Env κ β ε X → Prop} :
    wp ledgerSequence ctx env Q ↔ Q ctx.sequence env := wp_of_ok rfl

@[simp] theorem twp_ledgerSequence {Q : UInt32 → Env κ β ε X → Prop} :
    twp ledgerSequence ctx env Q ↔ Q ctx.sequence env := twp_of_ok rfl

@[simp] theorem wp_ledgerTimestamp {Q : UInt64 → Env κ β ε X → Prop} :
    wp ledgerTimestamp ctx env Q ↔ Q (ctx.timestamp env.ext) env := wp_of_ok rfl

@[simp] theorem twp_ledgerTimestamp {Q : UInt64 → Env κ β ε X → Prop} :
    twp ledgerTimestamp ctx env Q ↔ Q (ctx.timestamp env.ext) env := twp_of_ok rfl

@[simp] theorem wp_currentContractAddress {Q : Address → Env κ β ε X → Prop} :
    wp currentContractAddress ctx env Q ↔ Q ctx.self env := wp_of_ok rfl

@[simp] theorem twp_currentContractAddress {Q : Address → Env κ β ε X → Prop} :
    twp currentContractAddress ctx env Q ↔ Q ctx.self env := twp_of_ok rfl

@[simp] theorem wp_requireAuth (a : Address) :
    wp (requireAuth a) ctx env R ↔ (a ∈ ctx.auth → R () env) := by
  by_cases ha : a ∈ ctx.auth
  · simp [wp_of_ok (show (requireAuth a).run ctx env = .ok ((), env) from if_pos ha), ha]
  · simp [wp_of_error (show (requireAuth a).run ctx env = .error (.auth a) from if_neg ha), ha]

@[simp] theorem twp_requireAuth (a : Address) :
    twp (requireAuth a) ctx env R ↔ a ∈ ctx.auth ∧ R () env := by
  by_cases ha : a ∈ ctx.auth
  · simp [twp_of_ok (show (requireAuth a).run ctx env = .ok ((), env) from if_pos ha), ha]
  · simp [twp_of_error (show (requireAuth a).run ctx env = .error (.auth a) from if_neg ha), ha]

/-- The instance is not archived. -/
def InstanceLive (ctx : Ctx κ β ε err X) (env : Env κ β ε X) : Prop :=
  ¬(ctx.archival = true ∧ env.instLive < ctx.sequence.toNat)

@[simp] theorem wp_loadInstance :
    wp loadInstance ctx env R ↔ (InstanceLive ctx env → R () env) := by
  by_cases h : InstanceLive ctx env
  · simp [wp_of_ok (show loadInstance.run ctx env = .ok ((), env) from if_neg h), h]
  · simp [wp_of_error (show loadInstance.run ctx env = .error .archived from
      if_pos (not_not.mp h)), h]

@[simp] theorem twp_loadInstance :
    twp loadInstance ctx env R ↔ InstanceLive ctx env ∧ R () env := by
  by_cases h : InstanceLive ctx env
  · simp [twp_of_ok (show loadInstance.run ctx env = .ok ((), env) from if_neg h), h]
  · simp [twp_of_error (show loadInstance.run ctx env = .error .archived from
      if_pos (not_not.mp h)), h]

/-! ### Storage

An access to a persistent entry fails when the entry is archived. The environment afterwards is that
of the operation, with the entry written and its life extended. -/

@[simp] theorem wp_instanceGet (k : κ) {Q : Option (β k) → Env κ β ε X → Prop} :
    wp (instanceGet k) ctx env Q ↔ Q (env.inst.get k) env := wp_of_ok rfl

@[simp] theorem twp_instanceGet (k : κ) {Q : Option (β k) → Env κ β ε X → Prop} :
    twp (instanceGet k) ctx env Q ↔ Q (env.inst.get k) env := twp_of_ok rfl

@[simp] theorem wp_instanceHas (k : κ) {Q : Bool → Env κ β ε X → Prop} :
    wp (instanceHas k) ctx env Q ↔ Q (env.inst.get k).isSome env := wp_of_ok rfl

@[simp] theorem twp_instanceHas (k : κ) {Q : Bool → Env κ β ε X → Prop} :
    twp (instanceHas k) ctx env Q ↔ Q (env.inst.get k).isSome env := twp_of_ok rfl

@[simp] theorem wp_instanceExtendTtl (n m : Nat) :
    wp (instanceExtendTtl n m) ctx env R ↔ R () (env.bumpInstance ctx n m) := wp_of_ok rfl

@[simp] theorem twp_instanceExtendTtl (n m : Nat) :
    twp (instanceExtendTtl n m) ctx env R ↔ R () (env.bumpInstance ctx n m) := twp_of_ok rfl

theorem wp_touching (k : κ) (f : Ctx κ β ε err X → Env κ β ε X → α × Env κ β ε X) :
    wp (touching k f) ctx env Q ↔
      (¬env.Archived ctx k → Q (f ctx env).1 (f ctx env).2) := by
  by_cases h : env.Archived ctx k
  · simp [wp_of_error (show (touching k f).run ctx env = .error .archived from if_pos h), h]
  · simp [wp_of_ok (show (touching k f).run ctx env = .ok (f ctx env) from if_neg h), h]

theorem twp_touching (k : κ) (f : Ctx κ β ε err X → Env κ β ε X → α × Env κ β ε X) :
    twp (touching k f) ctx env Q ↔
      ¬env.Archived ctx k ∧ Q (f ctx env).1 (f ctx env).2 := by
  by_cases h : env.Archived ctx k
  · simp [twp_of_error (show (touching k f).run ctx env = .error .archived from if_pos h), h]
  · simp [twp_of_ok (show (touching k f).run ctx env = .ok (f ctx env) from if_neg h), h]

@[simp] theorem wp_persistentGet (k : κ) {Q : Option (β k) → Env κ β ε X → Prop} :
    wp (persistentGet k) ctx env Q ↔ (¬env.Archived ctx k → Q (env.pers.get k) env) :=
  wp_touching k _

@[simp] theorem twp_persistentGet (k : κ) {Q : Option (β k) → Env κ β ε X → Prop} :
    twp (persistentGet k) ctx env Q ↔ ¬env.Archived ctx k ∧ Q (env.pers.get k) env :=
  twp_touching k _

@[simp] theorem wp_persistentHas (k : κ) {Q : Bool → Env κ β ε X → Prop} :
    wp (persistentHas k) ctx env Q ↔ (¬env.Archived ctx k → Q (env.pers.get k).isSome env) :=
  wp_touching k _

@[simp] theorem twp_persistentHas (k : κ) {Q : Bool → Env κ β ε X → Prop} :
    twp (persistentHas k) ctx env Q ↔ ¬env.Archived ctx k ∧ Q (env.pers.get k).isSome env :=
  twp_touching k _

@[simp] theorem wp_publish (e : ε) :
    wp (publish e) ctx env R ↔ R () (env.publish e) := wp_of_ok rfl

@[simp] theorem twp_publish (e : ε) :
    twp (publish e) ctx env R ↔ R () (env.publish e) := twp_of_ok rfl

@[simp] theorem wp_updateCurrentContractWasm (hash : BytesN 32) :
    wp (updateCurrentContractWasm hash) ctx env R ↔
      (ctx.hasWasm hash env.ext = true → R () { env with wasm := some hash }) := by
  by_cases h : ctx.hasWasm hash env.ext = true
  · simp [wp_of_ok (show (updateCurrentContractWasm hash).run ctx env
      = .ok ((), { env with wasm := some hash }) from if_pos h), h]
  · simp [wp_of_error (show (updateCurrentContractWasm hash).run ctx env = .error .trap from
      if_neg h), h]

@[simp] theorem twp_updateCurrentContractWasm (hash : BytesN 32) :
    twp (updateCurrentContractWasm hash) ctx env R ↔
      ctx.hasWasm hash env.ext = true ∧ R () { env with wasm := some hash } := by
  by_cases h : ctx.hasWasm hash env.ext = true
  · simp [twp_of_ok (show (updateCurrentContractWasm hash).run ctx env
      = .ok ((), { env with wasm := some hash }) from if_pos h), h]
  · simp [twp_of_error (show (updateCurrentContractWasm hash).run ctx env = .error .trap from
      if_neg h), h]

variable [DecidableEq κ]

@[simp] theorem wp_instanceSet (k : κ) (v : β k) :
    wp (instanceSet k v) ctx env R ↔ R () (env.setInstance k v) := wp_of_ok rfl

@[simp] theorem twp_instanceSet (k : κ) (v : β k) :
    twp (instanceSet k v) ctx env R ↔ R () (env.setInstance k v) := twp_of_ok rfl

@[simp] theorem wp_instanceRemove (k : κ) :
    wp (instanceRemove k) ctx env R ↔ R () (env.removeInstance k) := wp_of_ok rfl

@[simp] theorem twp_instanceRemove (k : κ) :
    twp (instanceRemove k) ctx env R ↔ R () (env.removeInstance k) := twp_of_ok rfl

@[simp] theorem wp_persistentSet (k : κ) (v : β k) :
    wp (persistentSet k v) ctx env R ↔ (¬env.Archived ctx k → R () (env.setPersistent ctx k v)) :=
  wp_touching k _

@[simp] theorem twp_persistentSet (k : κ) (v : β k) :
    twp (persistentSet k v) ctx env R ↔
      ¬env.Archived ctx k ∧ R () (env.setPersistent ctx k v) :=
  twp_touching k _

@[simp] theorem wp_persistentRemove (k : κ) :
    wp (persistentRemove k) ctx env R ↔ (¬env.Archived ctx k → R () (env.removePersistent k)) :=
  wp_touching k _

@[simp] theorem twp_persistentRemove (k : κ) :
    twp (persistentRemove k) ctx env R ↔
      ¬env.Archived ctx k ∧ R () (env.removePersistent k) :=
  twp_touching k _

@[simp] theorem wp_persistentExtendTtl (k : κ) (n m : Nat) :
    wp (persistentExtendTtl k n m) ctx env R ↔
      (¬env.Archived ctx k → (env.pers.get k).isSome → R () (env.bumpPersistent ctx k n m)) := by
  simp only [persistentExtendTtl, wp_bind, wp_persistentHas, wp_ite, wp_touching, wp_fail]
  tauto

@[simp] theorem twp_persistentExtendTtl (k : κ) (n m : Nat) :
    twp (persistentExtendTtl k n m) ctx env R ↔
      ¬env.Archived ctx k ∧ (env.pers.get k).isSome ∧ R () (env.bumpPersistent ctx k n m) := by
  simp only [persistentExtendTtl, twp_bind, twp_persistentHas, twp_ite, twp_touching, twp_fail]
  tauto

end Rules

section Transfers

variable {chain : Chain X} {sequence : UInt32} {auth : List Address} {env : Env κ β ε X}
  {R : Unit → Env κ β ε X → Prop}

/-- On a chain a token call changes what is outside the contract, or fails. -/
theorem run_tokenTransfer (t : Transfer) :
    (tokenTransfer t : Contract κ β ε err X Unit).run (chain.ctx sequence auth) env
      = match chain.transfer t env.ext with
        | some x => .ok ((), ({ env with ext := x } : Env κ β ε X).transferred t)
        | none => .error (.token t.token) := by
  simp only [tokenTransfer, Chain.ctx, Chain.host]
  cases chain.transfer t env.ext <;> rfl

@[simp] theorem wp_tokenTransfer (t : Transfer) :
    wp (tokenTransfer t : Contract κ β ε err X Unit) (chain.ctx sequence auth) env R ↔
      ∀ x, chain.transfer t env.ext = some x →
        R () (({ env with ext := x } : Env κ β ε X).transferred t) := by
  cases h : chain.transfer t env.ext with
  | none =>
    have hrun : (tokenTransfer t : Contract κ β ε err X Unit).run (chain.ctx sequence auth) env
        = .error (.token t.token) := by rw [run_tokenTransfer, h]
    simp [wp_of_error hrun]
  | some x =>
    have hrun : (tokenTransfer t : Contract κ β ε err X Unit).run (chain.ctx sequence auth) env
        = .ok ((), ({ env with ext := x } : Env κ β ε X).transferred t) := by
      rw [run_tokenTransfer, h]
    simp [wp_of_ok hrun]

@[simp] theorem twp_tokenTransfer (t : Transfer) :
    twp (tokenTransfer t : Contract κ β ε err X Unit) (chain.ctx sequence auth) env R ↔
      ∃ x, chain.transfer t env.ext = some x ∧
        R () (({ env with ext := x } : Env κ β ε X).transferred t) := by
  cases h : chain.transfer t env.ext with
  | none =>
    have hrun : (tokenTransfer t : Contract κ β ε err X Unit).run (chain.ctx sequence auth) env
        = .error (.token t.token) := by rw [run_tokenTransfer, h]
    simp [twp_of_error hrun]
  | some x =>
    have hrun : (tokenTransfer t : Contract κ β ε err X Unit).run (chain.ctx sequence auth) env
        = .ok ((), ({ env with ext := x } : Env κ β ε X).transferred t) := by
      rw [run_tokenTransfer, h]
    simp [twp_of_ok hrun]

end Transfers

end Contract

end Soroban
