import StellarTipjar.Soroban.Wp

/-!
# Two runs of one program

A relational logic for contract programs: the same program is run in two environments that differ
only in their persistent storage (`Twins`), and `Carries I P P' m` says that the two runs of `m`
agree — both fail with the same failure, or both return the same value — and take storages
related by `P` to storages related by `P'`. `I` is an invariant of the instance storage, which
the two sides share.

Entries are never archived here (`chain.archival = false`), so the live-until ledgers, which may
differ between the two sides, have no effect.

`Keeps I P` is the case `P' = P`. It has one rule per host operation, all tagged `simp` except
those of the storage, whose side conditions are about `I` and `P`.
-/

namespace Soroban

open Lib

variable {κ : Type} {β : κ → Type} {ε err X α γ : Type}

/-- Both failed in the same way, or both returned the same value in related environments. -/
def Agree (R : Env κ β ε X → Env κ β ε X → Prop) :
    Except (Failure err) (α × Env κ β ε X) → Except (Failure err) (α × Env κ β ε X) → Prop
  | .ok (a, v), .ok (b, e) => a = b ∧ R v e
  | .error x, .error y => x = y
  | _, _ => False

/-- Either both runs fail alike, or both answer alike. -/
theorem Agree.cases {R : Env κ β ε X → Env κ β ε X → Prop}
    {x y : Except (Failure err) (α × Env κ β ε X)} (h : Agree R x y) :
    (∃ f, x = .error f ∧ y = .error f) ∨
      ∃ a v e, x = .ok (a, v) ∧ y = .ok (a, e) ∧ R v e := by
  cases x with
  | error f =>
    cases y with
    | error g =>
      obtain rfl : f = g := h
      exact .inl ⟨f, rfl, rfl⟩
    | ok r => exact h.elim
  | ok r =>
    obtain ⟨a, v⟩ := r
    cases y with
    | error g => exact h.elim
    | ok r' =>
      obtain ⟨b, e⟩ := r'
      obtain ⟨rfl, hR⟩ := h
      exact .inr ⟨a, v, e, rfl, rfl, hR⟩

/-- The environments are the same except for the persistent storage. -/
structure Twins (I : Store κ β → Prop) (P : Store κ β → Store κ β → Prop)
    (v e : Env κ β ε X) : Prop where
  inst : e.inst = v.inst
  events : e.events = v.events
  transfers : e.transfers = v.transfers
  wasm : e.wasm = v.wasm
  ext : e.ext = v.ext
  invariant : I v.inst
  pers : P v.pers e.pers

namespace Contract

variable {I : Store κ β → Prop} {P P' P'' : Store κ β → Store κ β → Prop}

/-- Twins run the program to the same answer, and are twins again, in the second sense. -/
def Carries (I : Store κ β → Prop) (P P' : Store κ β → Store κ β → Prop)
    (m : Contract κ β ε err X α) : Prop :=
  ∀ (chain : Chain X) (sequence : UInt32) (auth : List Address) (v e : Env κ β ε X),
    chain.archival = false → Twins I P v e →
      Agree (Twins I P') (m.run (chain.ctx sequence auth) v) (m.run (chain.ctx sequence auth) e)

/-- The case of a program that leaves the relation as it is. -/
def Keeps (I : Store κ β → Prop) (P : Store κ β → Store κ β → Prop)
    (m : Contract κ β ε err X α) : Prop :=
  Carries I P P m

/-! ## Sequencing and branching -/

/-- One program after the other; the relation in the middle is that of the first. -/
theorem Carries.bind {m : Contract κ β ε err X γ} {f : γ → Contract κ β ε err X α}
    (hm : Carries I P P' m) (hf : ∀ a, Carries I P' P'' (f a)) : Carries I P P'' (m >>= f) := by
  intro chain sequence auth v e harchival htwins
  rw [run_bind, run_bind]
  rcases (hm chain sequence auth v e harchival htwins).cases with
    ⟨x, hv, he⟩ | ⟨a, v', e', hv, he, htwins'⟩
  · rw [hv, he]
    rfl
  · rw [hv, he]
    exact hf a chain sequence auth v' e' harchival htwins'

/-- Less may be said of the states afterwards. -/
theorem Carries.weaken {m : Contract κ β ε err X α} (h : Carries I P P' m)
    (hP : ∀ s t, P' s t → P'' s t) : Carries I P P'' m := by
  intro chain sequence auth v e harchival htwins
  rcases (h chain sequence auth v e harchival htwins).cases with
    ⟨x, hv, he⟩ | ⟨a, v', e', hv, he, h'⟩
  · rw [hv, he]
    rfl
  · rw [hv, he]
    exact ⟨rfl, h'.inst, h'.events, h'.transfers, h'.wasm, h'.ext, h'.invariant, hP _ _ h'.pers⟩

/-- More may be known of the states before. -/
theorem Carries.strengthen {m : Contract κ β ε err X α} (hP : ∀ s t, P s t → P' s t)
    (h : Carries I P' P'' m) : Carries I P P'' m := by
  intro chain sequence auth v e harchival hv
  exact h chain sequence auth v e harchival
    ⟨hv.inst, hv.events, hv.transfers, hv.wasm, hv.ext, hv.invariant, hP _ _ hv.pers⟩

/-- A part that succeeds on both sides, whatever it does there. -/
theorem carries_of_twp {m : Contract κ β ε err X Unit}
    (h : ∀ (chain : Chain X) (sequence : UInt32) (auth : List Address) (v e : Env κ β ε X),
      chain.archival = false → Twins I P v e →
        twp m (chain.ctx sequence auth) v fun _ v' =>
          twp m (chain.ctx sequence auth) e fun _ e' => Twins I P' v' e') : Carries I P P' m := by
  intro chain sequence auth v e harchival htwins
  obtain ⟨_, v', hv, _, e', he, htwins'⟩ := h chain sequence auth v e harchival htwins
  rw [hv, he]
  exact ⟨rfl, htwins'⟩

section Control

@[simp] theorem keeps_pure (a : α) : Keeps I P (pure a : Contract κ β ε err X α) :=
  fun _ _ _ _ _ _ htwins => ⟨rfl, htwins⟩

@[simp] theorem keeps_bind {m : Contract κ β ε err X γ} {f : γ → Contract κ β ε err X α}
    (hm : Keeps I P m) (hf : ∀ a, Keeps I P (f a)) : Keeps I P (m >>= f) :=
  Carries.bind hm hf

@[simp] theorem keeps_fail (x : Failure err) : Keeps I P (fail x : Contract κ β ε err X α) :=
  fun _ _ _ _ _ _ _ => rfl

@[simp] theorem keeps_panicWithError (x : err) :
    Keeps I P (panicWithError x : Contract κ β ε err X α) :=
  keeps_fail _

@[simp] theorem keeps_ite {c : Prop} [Decidable c] {m n : Contract κ β ε err X α}
    (hm : Keeps I P m) (hn : Keeps I P n) : Keeps I P (if c then m else n) := by
  split
  · exact hm
  · exact hn

@[simp] theorem keeps_panicIf (c : Prop) [Decidable c] (x : err) :
    Keeps I P (panicIf c x : Contract κ β ε err X Unit) :=
  keeps_ite (keeps_panicWithError x) (keeps_pure ())

@[simp] theorem keeps_unwrapOrPanic (o : Option α) (x : err) :
    Keeps I P (unwrapOrPanic o x : Contract κ β ε err X α) := by
  cases o with
  | none => exact keeps_panicWithError x
  | some a => exact keeps_pure a

@[simp] theorem keeps_onlyIf {c : Prop} [Decidable c] {m : Contract κ β ε err X Unit}
    (hm : Keeps I P m) : Keeps I P (onlyIf c m) :=
  keeps_ite hm (keeps_pure ())

@[simp] theorem keeps_ifSome {o : Option γ} {f : γ → Contract κ β ε err X Unit}
    (hf : ∀ a, Keeps I P (f a)) : Keeps I P (ifSome o f) := by
  cases o with
  | none => exact keeps_pure ()
  | some a => exact hf a

end Control

/-! ## The host operations -/

section Host

@[simp] theorem keeps_ledgerSequence :
    Keeps I P (ledgerSequence : Contract κ β ε err X UInt32) :=
  fun _ _ _ _ _ _ htwins => ⟨rfl, htwins⟩

@[simp] theorem keeps_currentContractAddress :
    Keeps I P (currentContractAddress : Contract κ β ε err X Address) :=
  fun _ _ _ _ _ _ htwins => ⟨rfl, htwins⟩

@[simp] theorem keeps_requireAuth (a : Address) :
    Keeps I P (requireAuth a : Contract κ β ε err X Unit) := by
  intro chain sequence auth v e _ htwins
  by_cases ha : a ∈ auth
  · have hrun : ∀ env : Env κ β ε X,
        (requireAuth a : Contract κ β ε err X Unit).run (chain.ctx sequence auth) env
          = .ok ((), env) := fun _ => if_pos ha
    rw [hrun, hrun]
    exact ⟨rfl, htwins⟩
  · have hrun : ∀ env : Env κ β ε X,
        (requireAuth a : Contract κ β ε err X Unit).run (chain.ctx sequence auth) env
          = .error (.auth a) := fun _ => if_neg ha
    rw [hrun, hrun]
    rfl

@[simp] theorem keeps_loadInstance : Keeps I P (loadInstance : Contract κ β ε err X Unit) := by
  intro chain sequence auth v e harchival htwins
  simp only [loadInstance, Chain.ctx_archival, harchival, Bool.false_eq_true, false_and, if_false]
  exact ⟨rfl, htwins⟩

@[simp] theorem keeps_instanceGet (k : κ) :
    Keeps I P (instanceGet k : Contract κ β ε err X (Option (β k))) :=
  fun _ _ _ _ _ _ htwins => ⟨by rw [htwins.inst], htwins⟩

@[simp] theorem keeps_instanceHas (k : κ) :
    Keeps I P (instanceHas k : Contract κ β ε err X Bool) :=
  fun _ _ _ _ _ _ htwins => ⟨by rw [htwins.inst], htwins⟩

@[simp] theorem keeps_instanceExtendTtl (m n : Nat) :
    Keeps I P (instanceExtendTtl m n : Contract κ β ε err X Unit) :=
  fun _ _ _ _ _ _ h => ⟨rfl, h.inst, h.events, h.transfers, h.wasm, h.ext, h.invariant, h.pers⟩

@[simp] theorem keeps_publish (x : ε) : Keeps I P (publish x : Contract κ β ε err X Unit) :=
  fun _ _ _ _ _ _ h =>
    ⟨rfl, h.inst, congrArg (· ++ [x]) h.events, h.transfers, h.wasm, h.ext, h.invariant, h.pers⟩

@[simp] theorem keeps_tokenTransfer (t : Transfer) :
    Keeps I P (tokenTransfer t : Contract κ β ε err X Unit) := by
  intro chain sequence auth v e _ h
  rw [run_tokenTransfer, run_tokenTransfer, h.ext]
  cases chain.transfer t v.ext with
  | none => rfl
  | some x =>
    exact ⟨rfl, h.inst, h.events, congrArg (· ++ [t]) h.transfers, h.wasm, rfl, h.invariant, h.pers⟩

@[simp] theorem keeps_updateCurrentContractWasm (hash : BytesN 32) :
    Keeps I P (updateCurrentContractWasm hash : Contract κ β ε err X Unit) := by
  intro chain sequence auth v e _ h
  by_cases hhash : chain.hasWasm hash v.ext = true
  · have hrun : ∀ env : Env κ β ε X, env.ext = v.ext →
        (updateCurrentContractWasm hash : Contract κ β ε err X Unit).run
          (chain.ctx sequence auth) env
          = .ok ((), { env with wasm := some hash }) :=
      fun env henv => if_pos (by rw [henv]; exact hhash)
    rw [hrun v rfl, hrun e h.ext]
    exact ⟨rfl, h.inst, h.events, h.transfers, rfl, h.ext, h.invariant, h.pers⟩
  · have hrun : ∀ env : Env κ β ε X, env.ext = v.ext →
        (updateCurrentContractWasm hash : Contract κ β ε err X Unit).run
          (chain.ctx sequence auth) env
          = .error .trap :=
      fun env henv => if_neg (by rw [henv]; exact hhash)
    rw [hrun v rfl, hrun e h.ext]
    rfl

/-- Without archival an access of the storage just happens. -/
theorem run_touching {chain : Chain X} (harchival : chain.archival = false) {sequence : UInt32}
    {auth : List Address} (k : κ) (f : Ctx κ β ε err X → Env κ β ε X → α × Env κ β ε X)
    (env : Env κ β ε X) :
    (touching k f).run (chain.ctx sequence auth) env = .ok (f (chain.ctx sequence auth) env) :=
  if_neg (Env.not_archived harchival env k)

/-- Reading an entry on which the two stores agree. -/
theorem keeps_persistentGet {k : κ} (hP : ∀ s t, P s t → t.get k = s.get k) :
    Keeps I P (persistentGet k : Contract κ β ε err X (Option (β k))) := by
  intro chain sequence auth v e harchival h
  rw [persistentGet, run_touching harchival, run_touching harchival]
  exact ⟨(hP _ _ h.pers).symm, h⟩

theorem keeps_persistentHas {k : κ} (hP : ∀ s t, P s t → t.get k = s.get k) :
    Keeps I P (persistentHas k : Contract κ β ε err X Bool) := by
  intro chain sequence auth v e harchival h
  rw [persistentHas, run_touching harchival, run_touching harchival]
  exact ⟨by rw [hP _ _ h.pers], h⟩

variable [DecidableEq κ]

/-- Both runs write the same value to the instance they share. -/
theorem keeps_instanceSet {k : κ} {x : β k} (hI : ∀ s, I s → I (s.set k x)) :
    Keeps I P (instanceSet k x : Contract κ β ε err X Unit) := by
  intro chain sequence auth v e _ h
  refine ⟨rfl, ?_, h.events, h.transfers, h.wasm, h.ext, hI _ h.invariant, h.pers⟩
  show e.inst.set k x = v.inst.set k x
  rw [h.inst]

theorem keeps_instanceRemove {k : κ} (hI : ∀ s, I s → I (s.remove k)) :
    Keeps I P (instanceRemove k : Contract κ β ε err X Unit) := by
  intro chain sequence auth v e _ h
  refine ⟨rfl, ?_, h.events, h.transfers, h.wasm, h.ext, hI _ h.invariant, h.pers⟩
  show e.inst.remove k = v.inst.remove k
  rw [h.inst]

/-- Both runs write the same value. -/
theorem keeps_persistentSet {k : κ} {x : β k} (hP : ∀ s t, P s t → P (s.set k x) (t.set k x)) :
    Keeps I P (persistentSet k x : Contract κ β ε err X Unit) := by
  intro chain sequence auth v e harchival h
  rw [persistentSet, run_touching harchival, run_touching harchival]
  exact ⟨rfl, h.inst, h.events, h.transfers, h.wasm, h.ext, h.invariant, hP _ _ h.pers⟩

/-- Both runs remove the same entry. -/
theorem keeps_persistentRemove {k : κ} (hP : ∀ s t, P s t → P (s.remove k) (t.remove k)) :
    Keeps I P (persistentRemove k : Contract κ β ε err X Unit) := by
  intro chain sequence auth v e harchival h
  rw [persistentRemove, run_touching harchival, run_touching harchival]
  exact ⟨rfl, h.inst, h.events, h.transfers, h.wasm, h.ext, h.invariant, hP _ _ h.pers⟩

/-- The entry is there in both stores or in neither. -/
theorem keeps_persistentExtendTtl {k : κ} (hP : ∀ s t, P s t → t.get k = s.get k) (m n : Nat) :
    Keeps I P (persistentExtendTtl k m n : Contract κ β ε err X Unit) := by
  refine keeps_bind (keeps_persistentHas hP) fun present => keeps_ite ?_ (keeps_fail _)
  intro chain sequence auth v e harchival h
  rw [run_touching harchival, run_touching harchival]
  exact ⟨rfl, h.inst, h.events, h.transfers, h.wasm, h.ext, h.invariant, h.pers⟩

end Host

end Contract

end Soroban
