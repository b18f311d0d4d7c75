import StellarTipjar.Soroban.Wp

/-!
# The footprint of a contract program

`Footprint A P m`: every host operation that `m` can perform satisfies `P`, apart from those of the
parts that `A` singles out. It is derived once from the text of a program, one rule per operation,
and what a program leaves alone follows from it without running the program again:

* `Footprint.guarantee` — a run keeps every preorder that the operations keep;
* `Footprint.mirrored` — a program that reads no instance entry in which two environments differ
  succeeds in the second when it succeeds in the first;
* `Footprint.run_eq` — a program that makes no token call does not depend on the tokens.
-/

namespace Soroban

open Lib

/-- The operations a program can ask the host for. -/
inductive HostOp (κ ε : Type) where
  | loadInstance
  | readInstance (k : κ)
  | setInstance (k : κ)
  | removeInstance (k : κ)
  | bumpInstance
  | readPersistent (k : κ)
  | setPersistent (k : κ)
  | removePersistent (k : κ)
  | bumpPersistent (k : κ)
  | transfer
  | publish (e : ε)
  | updateWasm

namespace Contract

variable {κ : Type} {β : κ → Type} {ε err X α γ : Type} [DecidableEq κ]

inductive Footprint (A : (α : Type) → Contract κ β ε err X α → Prop) (P : HostOp κ ε → Prop) :
    {α : Type} → Contract κ β ε err X α → Prop where
  | part {α : Type} {m : Contract κ β ε err X α} (h : A α m) : Footprint A P m
  | pure {α : Type} (a : α) : Footprint A P (Pure.pure a)
  | bind {α γ : Type} {m : Contract κ β ε err X γ} {f : γ → Contract κ β ε err X α}
      (hm : Footprint A P m) (hf : ∀ a, Footprint A P (f a)) : Footprint A P (m >>= f)
  | fail {α : Type} (e : Failure err) : Footprint A P (fail e : Contract κ β ε err X α)
  | ledgerSequence : Footprint A P ledgerSequence
  | currentContractAddress : Footprint A P currentContractAddress
  | requireAuth (a : Address) : Footprint A P (requireAuth a)
  | loadInstance (h : P .loadInstance) : Footprint A P loadInstance
  | instanceGet (k : κ) (h : P (.readInstance k)) : Footprint A P (instanceGet k)
  | instanceHas (k : κ) (h : P (.readInstance k)) : Footprint A P (instanceHas k)
  | instanceSet (k : κ) (v : β k) (h : P (.setInstance k)) : Footprint A P (instanceSet k v)
  | instanceRemove (k : κ) (h : P (.removeInstance k)) : Footprint A P (instanceRemove k)
  | instanceExtendTtl (n m : Nat) (h : P .bumpInstance) : Footprint A P (instanceExtendTtl n m)
  | persistentGet (k : κ) (h : P (.readPersistent k)) : Footprint A P (persistentGet k)
  | persistentHas (k : κ) (h : P (.readPersistent k)) : Footprint A P (persistentHas k)
  | persistentSet (k : κ) (v : β k) (h : P (.setPersistent k)) : Footprint A P (persistentSet k v)
  | persistentRemove (k : κ) (h : P (.removePersistent k)) : Footprint A P (persistentRemove k)
  | bumpPersistent (k : κ) (n m : Nat) (h : P (.bumpPersistent k)) :
      Footprint A P (touching k fun ctx env => ((), env.bumpPersistent ctx k n m))
  | tokenTransfer (t : Transfer) (h : P .transfer) : Footprint A P (tokenTransfer t)
  | publish (e : ε) (h : P (.publish e)) : Footprint A P (publish e)
  | updateCurrentContractWasm (hash : BytesN 32) (h : P .updateWasm) :
      Footprint A P (updateCurrentContractWasm hash)

attribute [simp] Footprint.pure Footprint.fail Footprint.ledgerSequence
  Footprint.currentContractAddress Footprint.requireAuth Footprint.loadInstance
  Footprint.instanceGet Footprint.instanceHas Footprint.instanceSet Footprint.instanceRemove
  Footprint.instanceExtendTtl Footprint.persistentGet Footprint.persistentHas
  Footprint.persistentSet Footprint.persistentRemove Footprint.bumpPersistent
  Footprint.tokenTransfer Footprint.publish Footprint.updateCurrentContractWasm

/-! ## Control -/

section Control

variable {A : (α : Type) → Contract κ β ε err X α → Prop} {P : HostOp κ ε → Prop}

@[simp] theorem footprint_panicWithError (e : err) :
    Footprint A P (panicWithError e : Contract κ β ε err X α) := .fail _

@[simp] theorem footprint_ite {c : Prop} [Decidable c] {m n : Contract κ β ε err X α}
    (hm : Footprint A P m) (hn : Footprint A P n) : Footprint A P (if c then m else n) := by
  split
  · exact hm
  · exact hn

@[simp] theorem footprint_panicIf (c : Prop) [Decidable c] (e : err) :
    Footprint A P (panicIf c e : Contract κ β ε err X Unit) :=
  footprint_ite (footprint_panicWithError e) (.pure ())

@[simp] theorem footprint_unwrapOrPanic (o : Option α) (e : err) :
    Footprint A P (unwrapOrPanic o e : Contract κ β ε err X α) := by
  cases o with
  | none => exact footprint_panicWithError e
  | some a => exact .pure a

@[simp] theorem footprint_onlyIf {c : Prop} [Decidable c] {m : Contract κ β ε err X Unit}
    (hm : Footprint A P m) : Footprint A P (onlyIf c m) :=
  footprint_ite hm (.pure ())

@[simp] theorem footprint_ifSome {o : Option γ} {f : γ → Contract κ β ε err X Unit}
    (hf : ∀ a, Footprint A P (f a)) : Footprint A P (ifSome o f) := by
  cases o with
  | none => exact .pure ()
  | some a => exact hf a

@[simp] theorem footprint_persistentExtendTtl {k : κ} {n m : Nat} (hread : P (.readPersistent k))
    (hbump : P (.bumpPersistent k)) :
    Footprint A P (persistentExtendTtl k n m : Contract κ β ε err X Unit) :=
  .bind (.persistentHas k hread) fun _ => footprint_ite (.bumpPersistent k n m hbump) (.fail _)

end Control

/-! ## What the operations of a footprint keep -/

/-- What one operation does to the environment when it succeeds. -/
def Performs (ctx : Ctx κ β ε err X) (env env' : Env κ β ε X) : HostOp κ ε → Prop
  | .loadInstance | .readInstance _ | .readPersistent _ => env' = env
  | .setInstance k => ∃ v, env' = env.setInstance k v
  | .removeInstance k => env' = env.removeInstance k
  | .bumpInstance => ∃ n m, env' = env.bumpInstance ctx n m
  | .setPersistent k => ∃ v, env' = env.setPersistent ctx k v
  | .removePersistent k => env' = env.removePersistent k
  | .bumpPersistent k => ∃ n m, env' = env.bumpPersistent ctx k n m
  | .transfer => ∃ t env₁, ctx.transfer t env = .ok env₁ ∧ env' = env₁.transferred t
  | .publish e => env' = env.publish e
  | .updateWasm => ∃ hash, env' = { env with wasm := some hash }

section Guarantee

variable {A : (α : Type) → Contract κ β ε err X α → Prop} {P : HostOp κ ε → Prop}
  {R : Env κ β ε X → Env κ β ε X → Prop} {ctx : Ctx κ β ε err X}

omit [DecidableEq κ] in
theorem run_tokenTransfer_ok {t : Transfer} {env env' : Env κ β ε X} {a : Unit}
    (h : (tokenTransfer t : Contract κ β ε err X Unit).run ctx env = .ok (a, env')) :
    ∃ env₁, ctx.transfer t env = .ok env₁ ∧ env' = env₁.transferred t := by
  unfold tokenTransfer at h
  cases htransfer : ctx.transfer t env with
  | error e =>
    simp only [htransfer] at h
    cases h
  | ok env₁ =>
    simp only [htransfer] at h
    cases h
    exact ⟨env₁, rfl, rfl⟩

/-- A preorder that every operation of the footprint keeps holds between the ends of a run. -/
theorem Footprint.guarantee (hrefl : ∀ env, R env env)
    (htrans : ∀ env₁ env₂ env₃, R env₁ env₂ → R env₂ env₃ → R env₁ env₃)
    (hpart : ∀ α m, A α m → ∀ env, wp m ctx env fun _ env' => R env env')
    (hop : ∀ op env env', P op → Performs ctx env env' op → R env env')
    {m : Contract κ β ε err X α} (h : Footprint A P m) (env : Env κ β ε X) :
    wp m ctx env fun _ env' => R env env' := by
  induction h generalizing env with
  | part h => exact hpart _ _ h env
  | pure a => exact (wp_pure a).mpr (hrefl env)
  | bind _ _ ihm ihf =>
    rw [wp_bind]
    refine wp_mono (ihm env) fun a env₁ h₁ => ?_
    exact wp_mono (ihf a env₁) fun _ env₂ h₂ => htrans env env₁ env₂ h₁ h₂
  | fail e => exact (wp_fail e).mpr trivial
  | ledgerSequence => exact wp_ledgerSequence.mpr (hrefl env)
  | currentContractAddress => exact wp_currentContractAddress.mpr (hrefl env)
  | requireAuth a => exact (wp_requireAuth a).mpr fun _ => hrefl env
  | loadInstance h => exact wp_loadInstance.mpr fun _ => hrefl env
  | instanceGet k h => exact (wp_instanceGet k).mpr (hrefl env)
  | instanceHas k h => exact (wp_instanceHas k).mpr (hrefl env)
  | instanceSet k v h => exact (wp_instanceSet k v).mpr (hop _ _ _ h ⟨v, rfl⟩)
  | instanceRemove k h => exact (wp_instanceRemove k).mpr (hop _ _ _ h rfl)
  | instanceExtendTtl n m h => exact (wp_instanceExtendTtl n m).mpr (hop _ _ _ h ⟨n, m, rfl⟩)
  | persistentGet k h => exact (wp_persistentGet k).mpr fun _ => hrefl env
  | persistentHas k h => exact (wp_persistentHas k).mpr fun _ => hrefl env
  | persistentSet k v h =>
    exact (wp_persistentSet k v).mpr fun _ => hop _ _ _ h ⟨v, rfl⟩
  | persistentRemove k h => exact (wp_persistentRemove k).mpr fun _ => hop _ _ _ h rfl
  | bumpPersistent k n m h => exact (wp_touching k _).mpr fun _ => hop _ _ _ h ⟨n, m, rfl⟩
  | tokenTransfer t h =>
    intro a env' hrun
    obtain ⟨env₁, htransfer, rfl⟩ := run_tokenTransfer_ok hrun
    exact hop _ _ _ h ⟨t, env₁, htransfer, rfl⟩
  | publish e h => exact (wp_publish e).mpr (hop _ _ _ h rfl)
  | updateCurrentContractWasm hash h =>
    exact (wp_updateCurrentContractWasm hash).mpr fun _ => hop _ _ _ h ⟨hash, rfl⟩

end Guarantee

/-! ## Instance entries a program does not read -/

/-- The second environment has the same persistent storage, live-until ledgers and outside world;
the instance storages are `i` and `j`. -/
structure Mirrors (i j : Store κ β) (v e : Env κ β ε X) : Prop where
  left : v.inst = i
  right : e.inst = j
  pers : e.pers = v.pers
  persLive : e.persLive = v.persLive
  ext : e.ext = v.ext

/-- On environments with instance storages `i` and `j`, a success of `m` on the left is one on the
right. -/
def Mirrored (i j : Store κ β) (m : Contract κ β ε err X α) (ctx : Ctx κ β ε err X) : Prop :=
  ∀ v e : Env κ β ε X, Mirrors i j v e →
    wp m ctx v fun a v' => twp m ctx e fun b e' => a = b ∧ Mirrors i j v' e'

/-- The operation goes the same way with the instance storages `i` and `j`. -/
def SameIn (i j : Store κ β) : HostOp κ ε → Prop
  | .readInstance k => i.get k = j.get k
  | .loadInstance | .setInstance _ | .removeInstance _ => False
  | _ => True

section Mirror

variable {A : (α : Type) → Contract κ β ε err X α → Prop} {P : HostOp κ ε → Prop} {i j : Store κ β}

omit [DecidableEq κ] in
theorem Mirrored.bind {m : Contract κ β ε err X γ} {f : γ → Contract κ β ε err X α}
    {ctx : Ctx κ β ε err X} (hm : Mirrored i j m ctx) (hf : ∀ a, Mirrored i j (f a) ctx) :
    Mirrored i j (m >>= f) ctx := by
  intro v e h
  rw [wp_bind]
  refine wp_mono (hm v e h) fun a v₁ h₁ => ?_
  obtain ⟨b, e₁, hrun, rfl, hmirrors⟩ := h₁
  refine wp_mono (hf a v₁ e₁ hmirrors) fun c v₂ h₂ => ?_
  rw [twp_bind]
  exact ⟨a, e₁, hrun, h₂⟩

omit [DecidableEq κ] in
/-- An access of the persistent storage finds the same on both sides. -/
theorem mirrored_touching {k : κ} {f : Ctx κ β ε err X → Env κ β ε X → α × Env κ β ε X}
    {ctx : Ctx κ β ε err X}
    (hf : ∀ v e, Mirrors i j v e → (f ctx v).1 = (f ctx e).1 ∧
      Mirrors i j (f ctx v).2 (f ctx e).2) : Mirrored i j (touching k f) ctx := by
  intro v e h
  rw [wp_touching]
  intro hlive
  rw [twp_touching]
  refine ⟨?_, hf v e h⟩
  unfold Env.Archived at hlive ⊢
  rw [h.pers, h.persLive]
  exact hlive

omit [DecidableEq κ] in
theorem mirrored_of_run {m : Contract κ β ε err X α} {ctx : Ctx κ β ε err X} {a : α}
    {f : Env κ β ε X → Env κ β ε X} (hrun : ∀ env, m.run ctx env = .ok (a, f env))
    (hf : ∀ v e, Mirrors i j v e → Mirrors i j (f v) (f e)) : Mirrored i j m ctx :=
  fun v e h => (wp_of_ok (hrun v)).mpr ((twp_of_ok (hrun e)).mpr ⟨rfl, hf v e h⟩)

theorem Footprint.mirrored {chain : Chain X} {sequence : UInt32} {auth : List Address}
    (hpart : ∀ α m, A α m → Mirrored i j m (chain.ctx sequence auth))
    (hop : ∀ op, P op → SameIn i j op) {m : Contract κ β ε err X α} (h : Footprint A P m) :
    Mirrored i j m (chain.ctx sequence auth) := by
  induction h with
  | part h => exact hpart _ _ h
  | pure a => exact mirrored_of_run (fun _ => rfl) fun _ _ h => h
  | bind _ _ ihm ihf => exact ihm.bind ihf
  | fail e => exact fun v e' _ => (wp_fail e).mpr trivial
  | ledgerSequence => exact mirrored_of_run (fun _ => rfl) fun _ _ h => h
  | currentContractAddress => exact mirrored_of_run (fun _ => rfl) fun _ _ h => h
  | requireAuth a =>
    intro v e h
    rw [wp_requireAuth]
    intro hauth
    exact (twp_requireAuth a).mpr ⟨hauth, rfl, h⟩
  | loadInstance h => exact (hop _ h).elim
  | instanceGet k hk =>
    intro v e h
    rw [wp_instanceGet, twp_instanceGet, h.left, h.right]
    exact ⟨hop _ hk, h⟩
  | instanceHas k hk =>
    intro v e h
    rw [wp_instanceHas, twp_instanceHas, h.left, h.right, (hop _ hk : i.get k = j.get k)]
    exact ⟨rfl, h⟩
  | instanceSet k v h => exact (hop _ h).elim
  | instanceRemove k h => exact (hop _ h).elim
  | instanceExtendTtl n m _ =>
    exact mirrored_of_run (fun _ => rfl) fun _ _ h => ⟨h.left, h.right, h.pers, h.persLive, h.ext⟩
  | persistentGet k _ => exact mirrored_touching fun v e h => ⟨by rw [h.pers], h⟩
  | persistentHas k _ => exact mirrored_touching fun v e h => ⟨by rw [h.pers], h⟩
  | persistentSet k x _ =>
    refine mirrored_touching fun v e h => ⟨rfl, h.left, h.right, ?_, ?_, h.ext⟩
    · simp only [Env.setPersistent, h.pers]
    · simp only [Env.setPersistent, h.pers, h.persLive]
  | persistentRemove k _ =>
    refine mirrored_touching fun v e h => ⟨rfl, h.left, h.right, ?_, h.persLive, h.ext⟩
    simp only [Env.removePersistent, h.pers]
  | bumpPersistent k n m _ =>
    refine mirrored_touching fun v e h => ⟨rfl, h.left, h.right, h.pers, ?_, h.ext⟩
    simp only [Env.bumpPersistent, h.persLive]
  | tokenTransfer t _ =>
    intro v e h
    rw [wp_tokenTransfer]
    intro x hx
    rw [twp_tokenTransfer, h.ext]
    exact ⟨x, hx, rfl, h.left, h.right, h.pers, h.persLive, rfl⟩
  | publish e _ =>
    exact mirrored_of_run (fun _ => rfl) fun _ _ h => ⟨h.left, h.right, h.pers, h.persLive, h.ext⟩
  | updateCurrentContractWasm hash _ =>
    intro v e h
    rw [wp_updateCurrentContractWasm]
    intro hhash
    have hhash' : chain.hasWasm hash e.ext = true := by rw [h.ext]; exact hhash
    exact ⟨(), _, if_pos hhash', rfl, h.left, h.right, h.pers, h.persLive, h.ext⟩

end Mirror

/-! ## Programs that call no token -/

section Tokenless

variable {A : (α : Type) → Contract κ β ε err X α → Prop} {P : HostOp κ ε → Prop}

/-- A program that calls no token does not depend on what the tokens do. -/
theorem Footprint.run_eq {ctx ctx' : Ctx κ β ε err X}
    (hctx : ctx' = { ctx with transfer := ctx'.transfer })
    (hpart : ∀ α m, A α m → ∀ env, m.run ctx' env = m.run ctx env)
    (hop : ∀ op, P op → op ≠ .transfer) {m : Contract κ β ε err X α} (h : Footprint A P m)
    (env : Env κ β ε X) : m.run ctx' env = m.run ctx env := by
  induction h generalizing env with
  | part h => exact hpart _ _ h env
  | @bind _ _ m f _ _ ihm ihf =>
    rw [run_bind, run_bind, ihm]
    cases m.run ctx env with
    | error e => rfl
    | ok p => exact ihf p.1 p.2
  | tokenTransfer t h => exact absurd rfl (hop _ h)
  | _ =>
    rw [hctx]
    rfl

end Tokenless

end Contract

end Soroban
