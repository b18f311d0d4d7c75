import StellarTipjar.Lib.Store
import StellarTipjar.Lib.Int128
import Mathlib.Tactic.Simps.Basic

/-!
# The Soroban host, as a contract sees it

A contract call is a program over the host environment: it reads and writes the contract's
instance and persistent storage, asks for authorisations, calls token contracts, publishes
events and swaps its own WASM. `Contract α` is that program type. It is parametric in the
contract's storage keys `κ`, the value type `β k` under each key, its events `ε` and its error
codes `err`, so one host serves every contract of the workspace; `X` is the state of everything
outside the contract (the token contracts among it).

A call that fails answers `Except.error` and has no state: the host rolls it back.

## What is modelled

* `require_auth` succeeds exactly for the addresses that authorised the invocation.
* Every persistent entry, and the instance as a whole, has a live-until ledger. A new entry
  starts with `minLife` ledgers, overwriting keeps the live-until, `extend_ttl(threshold, n)`
  sets the remaining life to `n` when it is below the threshold. On a host with `archival` an
  entry past its live-until makes the call that touches it fail; without it such an entry is
  restored when it is accessed, and the live-until ledgers have no effect.
* A token call is an arbitrary function of the outside state (`Chain.transfer`); the host forbids
  re-entry, so on a `Chain` it cannot touch the contract's own storage. `Host.transfer` is more
  general and leaves that open.
-/

namespace Soroban

open Lib

/-- An account or a contract. -/
structure Address where
  idx : Nat
deriving DecidableEq, Repr

/-- A symbol of the host: a short text that is only ever compared. -/
structure Symbol where
  chars : List Char
deriving DecidableEq, Repr

/-- `BytesN<n>`. -/
abbrev BytesN (n : Nat) := Vector UInt8 n

/-- One call of a token's `transfer(from, to, amount)`. -/
structure Transfer where
  token : Address
  source : Address
  dest : Address
  amount : I128
deriving DecidableEq, Repr

/-- Why a call failed: `panic_with_error!`, a `require_auth` that was not satisfied, a token call
that failed, an archived entry, or any other host trap (a stored value that does not decode, a
TTL bump of a missing entry, a WASM hash nobody uploaded). -/
inductive Failure (err : Type) where
  | error (e : err)
  | auth (a : Address)
  | token (t : Address)
  | archived
  | trap
deriving DecidableEq, Repr

/-- An entry of the instance or of the persistent storage. -/
inductive Slot (κ : Type) where
  | inst (k : κ)
  | pers (k : κ)
deriving DecidableEq, Repr

/-- The contract's side of the ledger state, with the outside world `ext`. `events`, `transfers`
and `writes` are the events published, the token calls made and the entries set so far, oldest
first; `wasm` is the code hash the contract last installed for itself. -/
structure Env (κ : Type) (β : κ → Type) (ε X : Type) where
  inst : Store κ β
  pers : Store κ β
  instLive : Nat
  persLive : κ → Nat
  events : List ε
  transfers : List Transfer
  writes : List (Slot κ)
  wasm : Option (BytesN 32)
  ext : X

/-- What the host supplies to every call of one contract. -/
structure Host (κ : Type) (β : κ → Type) (ε err X : Type) where
  self : Address
  transfer : Transfer → Env κ β ε X → Except (Failure err) (Env κ β ε X)
  hasWasm : BytesN 32 → X → Bool
  timestamp : X → UInt64
  archival : Bool
  minLife : Nat

/-- The host together with what belongs to one invocation. -/
structure Ctx (κ : Type) (β : κ → Type) (ε err X : Type) extends Host κ β ε err X where
  sequence : UInt32
  auth : List Address

/-! ## The updates of the environment

Each is named, so that a symbolic execution shows which updates happened and not their
bookkeeping; `simps` gives the lemma for every field but the live-until ledgers, which only the
storage updates touch. -/

namespace Env

variable {κ : Type} {β : κ → Type} {ε err X : Type}

/-- An extension has an effect when the life left is below `threshold`. -/
@[simps inst pers events transfers writes wasm ext]
def bumpInstance (ctx : Ctx κ β ε err X) (env : Env κ β ε X) (threshold extendTo : Nat) :
    Env κ β ε X :=
  { env with
    instLive :=
      if env.instLive - ctx.sequence.toNat < threshold then ctx.sequence.toNat + extendTo
      else env.instLive }

@[simps inst pers events transfers writes wasm ext]
def publish (env : Env κ β ε X) (e : ε) : Env κ β ε X :=
  { env with events := env.events ++ [e] }

@[simps inst pers events transfers writes wasm ext]
def transferred (env : Env κ β ε X) (t : Transfer) : Env κ β ε X :=
  { env with transfers := env.transfers ++ [t] }

variable [DecidableEq κ]

/-- The instance lives as a whole, so a write does not change how long. -/
@[simps inst pers events transfers writes wasm ext]
def setInstance (env : Env κ β ε X) (k : κ) (v : β k) : Env κ β ε X :=
  { env with
    inst := env.inst.set k v
    writes := env.writes ++ [.inst k] }

@[simps inst pers events transfers writes wasm ext]
def removeInstance (env : Env κ β ε X) (k : κ) : Env κ β ε X :=
  { env with inst := env.inst.remove k }

-- a new entry starts with the host's minimum life; an overwritten one keeps its live-until
@[simps inst pers events transfers writes wasm ext]
def setPersistent (ctx : Ctx κ β ε err X) (env : Env κ β ε X) (k : κ) (v : β k) : Env κ β ε X :=
  { env with
    pers := env.pers.set k v
    persLive :=
      if (env.pers.get k).isSome then env.persLive
      else Function.update env.persLive k (ctx.sequence.toNat + ctx.minLife)
    writes := env.writes ++ [.pers k] }

@[simps inst pers events transfers writes wasm ext]
def removePersistent (env : Env κ β ε X) (k : κ) : Env κ β ε X :=
  { env with pers := env.pers.remove k }

/-- As for the instance, for one entry. -/
@[simps inst pers events transfers writes wasm ext]
def bumpPersistent (ctx : Ctx κ β ε err X) (env : Env κ β ε X) (k : κ)
    (threshold extendTo : Nat) : Env κ β ε X :=
  { env with
    persLive :=
      if env.persLive k - ctx.sequence.toNat < threshold then
        Function.update env.persLive k (ctx.sequence.toNat + extendTo)
      else env.persLive }

/-- The entry of `k` is there but past its live-until ledger, and the host archives. -/
def Archived (ctx : Ctx κ β ε err X) (env : Env κ β ε X) (k : κ) : Prop :=
  ctx.archival = true ∧ (env.pers.get k).isSome = true ∧ env.persLive k < ctx.sequence.toNat

instance (ctx : Ctx κ β ε err X) (env : Env κ β ε X) (k : κ) : Decidable (Archived ctx env k) :=
  inferInstanceAs (Decidable (_ ∧ _ ∧ _))

end Env

/-! ## Programs -/

/-- A program of the contract. -/
structure Contract (κ : Type) (β : κ → Type) (ε err X α : Type) where
  run : Ctx κ β ε err X → Env κ β ε X → Except (Failure err) (α × Env κ β ε X)

namespace Contract

variable {κ : Type} {β : κ → Type} {ε err X α γ : Type}

instance : Monad (Contract κ β ε err X) where
  pure a := ⟨fun _ env => .ok (a, env)⟩
  bind m f := ⟨fun ctx env =>
    match m.run ctx env with
    | .ok (a, env') => (f a).run ctx env'
    | .error e => .error e⟩

/-! ### Failing and branching

`panicIf c e` is `if c { panic_with_error!(e) }`, `unwrapOrPanic o e` is
`o.unwrap_or_else(|| panic_with_error!(e))`, `onlyIf c m` is `if c { m }` and `ifSome o f` is
`if let Some(a) = o { f(a) }`. -/

/-- The call ends and everything it did is undone. -/
def fail (e : Failure err) : Contract κ β ε err X α := ⟨fun _ _ => .error e⟩

def panicWithError (e : err) : Contract κ β ε err X α := fail (.error e)

def panicIf (c : Prop) [Decidable c] (e : err) : Contract κ β ε err X Unit :=
  if c then panicWithError e else pure ()

def unwrapOrPanic (o : Option α) (e : err) : Contract κ β ε err X α :=
  match o with
  | some a => pure a
  | none => panicWithError e

def onlyIf (c : Prop) [Decidable c] (m : Contract κ β ε err X Unit) : Contract κ β ε err X Unit :=
  if c then m else pure ()

/-- The quotient of two `i128`s, which traps where there is none. -/
def divOrTrap (a b : I128) : Contract κ β ε err X I128 :=
  match a.checkedDiv b with
  | some q => pure q
  | none => fail .trap

def ifSome (o : Option α) (f : α → Contract κ β ε err X Unit) : Contract κ β ε err X Unit :=
  match o with
  | some a => f a
  | none => pure ()

/-! ### The invocation -/

def ledgerSequence : Contract κ β ε err X UInt32 := ⟨fun ctx env => .ok (ctx.sequence, env)⟩

-- the close time of the ledger is a fact of the outside world
def ledgerTimestamp : Contract κ β ε err X UInt64 :=
  ⟨fun ctx env => .ok (ctx.timestamp env.ext, env)⟩

def currentContractAddress : Contract κ β ε err X Address := ⟨fun ctx env => .ok (ctx.self, env)⟩

/-- The host compares with the authorisations of the invocation. -/
def requireAuth (a : Address) : Contract κ β ε err X Unit :=
  ⟨fun ctx env => if a ∈ ctx.auth then .ok ((), env) else .error (.auth a)⟩

-- loading the contract touches its instance
def loadInstance : Contract κ β ε err X Unit :=
  ⟨fun ctx env =>
    if ctx.archival = true ∧ env.instLive < ctx.sequence.toNat then .error .archived
    else .ok ((), env)⟩

/-! ### Storage

`touching k f` is any access of the persistent entry of `k`: it fails on an archived entry. -/

def instanceGet (k : κ) : Contract κ β ε err X (Option (β k)) :=
  ⟨fun _ env => .ok (env.inst.get k, env)⟩

def instanceHas (k : κ) : Contract κ β ε err X Bool :=
  ⟨fun _ env => .ok ((env.inst.get k).isSome, env)⟩

def instanceExtendTtl (threshold extendTo : Nat) : Contract κ β ε err X Unit :=
  ⟨fun ctx env => .ok ((), env.bumpInstance ctx threshold extendTo)⟩

variable [DecidableEq κ]

def instanceSet (k : κ) (v : β k) : Contract κ β ε err X Unit :=
  ⟨fun _ env => .ok ((), env.setInstance k v)⟩

def instanceRemove (k : κ) : Contract κ β ε err X Unit :=
  ⟨fun _ env => .ok ((), env.removeInstance k)⟩

/-- An access to a persistent entry, which must not be archived. -/
def touching (k : κ) (f : Ctx κ β ε err X → Env κ β ε X → α × Env κ β ε X) :
    Contract κ β ε err X α :=
  ⟨fun ctx env => if env.Archived ctx k then .error .archived else .ok (f ctx env)⟩

def persistentGet (k : κ) : Contract κ β ε err X (Option (β k)) :=
  touching k fun _ env => (env.pers.get k, env)

def persistentHas (k : κ) : Contract κ β ε err X Bool :=
  touching k fun _ env => ((env.pers.get k).isSome, env)

def persistentSet (k : κ) (v : β k) : Contract κ β ε err X Unit :=
  touching k fun ctx env => ((), env.setPersistent ctx k v)

def persistentRemove (k : κ) : Contract κ β ε err X Unit :=
  touching k fun _ env => ((), env.removePersistent k)

-- bumping a missing entry traps
def persistentExtendTtl (k : κ) (threshold extendTo : Nat) : Contract κ β ε err X Unit := do
  let present ← persistentHas k
  if present then touching k fun ctx env => ((), env.bumpPersistent ctx k threshold extendTo)
  else fail .trap

/-! ### Calls out of the contract -/

/-- A call of the token. What it does is up to the chain. -/
def tokenTransfer (t : Transfer) : Contract κ β ε err X Unit :=
  ⟨fun ctx env =>
    match ctx.transfer t env with
    | .ok env' => .ok ((), env'.transferred t)
    | .error e => .error e⟩

def publish (e : ε) : Contract κ β ε err X Unit :=
  ⟨fun _ env => .ok ((), env.publish e)⟩

-- the hash must be one somebody uploaded
def updateCurrentContractWasm (hash : BytesN 32) : Contract κ β ε err X Unit :=
  ⟨fun ctx env =>
    if ctx.hasWasm hash env.ext then .ok ((), { env with wasm := some hash }) else .error .trap⟩

end Contract

/-! ## A chain: the host that forbids re-entry -/

/-- A network with the contract deployed at `self`. A token call only sees, and only changes,
what is outside the contract. -/
structure Chain (X : Type) where
  self : Address
  transfer : Transfer → X → Option X
  hasWasm : BytesN 32 → X → Bool
  timestamp : X → UInt64
  archival : Bool
  minLife : Nat

namespace Chain

variable {κ : Type} {β : κ → Type} {ε err X : Type}

/-- The host a chain offers. -/
def host (chain : Chain X) : Host κ β ε err X where
  self := chain.self
  transfer t env :=
    match chain.transfer t env.ext with
    | some x => .ok { env with ext := x }
    | none => .error (.token t.token)
  hasWasm := chain.hasWasm
  timestamp := chain.timestamp
  archival := chain.archival
  minLife := chain.minLife

/-- The context of one invocation on a chain. -/
def ctx (chain : Chain X) (sequence : UInt32) (auth : List Address) : Ctx κ β ε err X :=
  { (chain.host : Host κ β ε err X) with sequence, auth }

/-- `T` is a token whose `transfer` moves exactly the requested amount, and which debits the
contract's account only on the contract's own transfers. `holding x a` is what `a` holds of it.
Other tokens are unconstrained except that calling them cannot debit the contract in `T`. -/
structure ExactToken (chain : Chain X) (T : Address) (holding : X → Address → Nat) : Prop where
  moves : ∀ t x x', t.token = T → chain.transfer t x = some x' → ∀ a,
    (holding x' a : Int) = holding x a + (if a = t.dest then t.amount.val else 0)
      - (if a = t.source then t.amount.val else 0)
  spares : ∀ t x x', t.token ≠ T → chain.transfer t x = some x' →
    holding x chain.self ≤ holding x' chain.self

/-- Moreover a positive transfer out of the contract succeeds whenever the contract holds it. -/
structure PayingToken (chain : Chain X) (T : Address) (holding : X → Address → Nat) : Prop
    extends ExactToken chain T holding where
  pays : ∀ t x, t.token = T → t.source = chain.self → 0 < t.amount.val →
    t.amount.val ≤ (holding x chain.self : Int) → ∃ x', chain.transfer t x = some x'

section Tokens

variable {chain : Chain X} {T : Address} {holding : X → Address → Nat} {x x' : X}

/-- What somebody else sends to the contract arrives. -/
theorem ExactToken.receives (h : chain.ExactToken T holding) {token source : Address}
    {amount : I128} (hsource : source ≠ chain.self)
    (htransfer : chain.transfer ⟨token, source, chain.self, amount⟩ x = some x') :
    (holding x chain.self : Int) + (if token = T then amount.val else 0)
      ≤ holding x' chain.self := by
  by_cases hT : token = T
  · have hmoves := h.moves _ x x' hT htransfer chain.self
    simp only [if_neg (Ne.symm hsource)] at hmoves
    rw [if_pos hT]
    simp only [if_true] at hmoves
    omega
  · have hspares := h.spares _ x x' hT htransfer
    rw [if_neg hT]
    omega

/-- The contract loses at most what it sends. It loses nothing when it sends to itself. -/
theorem ExactToken.sends (h : chain.ExactToken T holding) {token dest : Address} {amount : I128}
    (hamount : 0 ≤ amount.val)
    (htransfer : chain.transfer ⟨token, chain.self, dest, amount⟩ x = some x') :
    (holding x chain.self : Int) + (if token = T then -amount.val else 0)
      ≤ holding x' chain.self := by
  by_cases hT : token = T
  · have hmoves := h.moves _ x x' hT htransfer chain.self
    simp only [if_true] at hmoves
    rw [if_pos hT]
    split at hmoves <;> omega
  · have hspares := h.spares _ x x' hT htransfer
    rw [if_neg hT]
    omega

end Tokens

end Chain

end Soroban
