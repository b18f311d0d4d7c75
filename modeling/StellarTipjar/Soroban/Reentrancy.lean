import StellarTipjar.Soroban.Footprint

/-!
# A host that allows re-entry

On a `Chain` a token call cannot come back to the contract. `Chain.reentrant` is the host on which
it can: before and after it moves the money, the called token may do anything to the contract that
calling it can do. A `Script` is a finite order of calls together with what the token called by
each of them does, to any depth; `Logged` keeps a history next to the outside world, so that a call
that fails takes back what it wrote into the history.
-/

namespace Soroban

open Lib

/-- The outside world and a history that only the observer sees. -/
structure Logged (ρ X : Type) where
  ext : X
  log : List ρ

/-- Calls and changes outside the contract, in order. With a call come the calls its token makes
before and after moving the money. -/
inductive Script (Γ X : Type) where
  | done
  | outside (x : X) (rest : Script Γ X)
  | call (c : Γ) (before after rest : Script Γ X)

namespace Chain

variable {κ : Type} {β : κ → Type} {ε err X ρ : Type}

/-- The chain with a history, which the tokens do not see. -/
def logged (ρ : Type) (chain : Chain X) : Chain (Logged ρ X) where
  self := chain.self
  transfer t x := (chain.transfer t x.ext).map fun y => { x with ext := y }
  hasWasm hash x := chain.hasWasm hash x.ext
  timestamp x := chain.timestamp x.ext
  archival := chain.archival
  minLife := chain.minLife

/-- The host whose tokens run `before` and `after` around a transfer. -/
def reentrant (chain : Chain X) (before after : Env κ β ε (Logged ρ X) → Env κ β ε (Logged ρ X)) :
    Host κ β ε err (Logged ρ X) :=
  { ((chain.logged ρ).host : Host κ β ε err (Logged ρ X)) with
    transfer := fun t env =>
      match (chain.logged ρ).transfer t (before env).ext with
      | some x => .ok (after { before env with ext := x })
      | none => .error (.token t.token) }

def reentrantCtx (chain : Chain X)
    (before after : Env κ β ε (Logged ρ X) → Env κ β ε (Logged ρ X)) (sequence : UInt32)
    (auth : List Address) : Ctx κ β ε err (Logged ρ X) :=
  { (chain.reentrant before after : Host κ β ε err (Logged ρ X)) with sequence, auth }

/-- A transfer that succeeds keeps what the token's own calls keep. -/
theorem reentrant_transfer {chain : Chain X}
    {before after : Env κ β ε (Logged ρ X) → Env κ β ε (Logged ρ X)} {t : Transfer}
    {env env' : Env κ β ε (Logged ρ X)} {R : Env κ β ε (Logged ρ X) → Env κ β ε (Logged ρ X) → Prop}
    (htrans : ∀ env₁ env₂ env₃, R env₁ env₂ → R env₂ env₃ → R env₁ env₃)
    (hbefore : ∀ env, R env (before env)) (hafter : ∀ env, R env (after env))
    (hext : ∀ (env : Env κ β ε (Logged ρ X)) y, R env { env with ext := { env.ext with ext := y } })
    (h : (chain.reentrant before after : Host κ β ε err (Logged ρ X)).transfer t env = .ok env') :
    R env env' := by
  simp only [reentrant, logged] at h
  cases hmove : chain.transfer t (before env).ext.ext with
  | none =>
    rw [hmove] at h
    cases h
  | some y =>
    rw [hmove] at h
    cases h
    exact htrans _ _ _ (htrans _ _ _ (hbefore env) (hext _ y)) (hafter _)

end Chain

namespace Contract

variable {κ : Type} {β : κ → Type} {ε err X α : Type} {ctx : Ctx κ β ε err X}
  {env : Env κ β ε X} {Q : Unit → Env κ β ε X → Prop}

/-- A token call on any host. -/
theorem wp_tokenTransfer_host (t : Transfer) :
    wp (tokenTransfer t) ctx env Q ↔
      ∀ env₁, ctx.transfer t env = .ok env₁ → Q () (env₁.transferred t) := by
  constructor
  · intro h env₁ htransfer
    refine h () _ ?_
    simp only [tokenTransfer, htransfer]
  · intro h a env' hrun
    obtain ⟨env₁, htransfer, rfl⟩ := run_tokenTransfer_ok hrun
    exact h env₁ htransfer

end Contract

end Soroban
