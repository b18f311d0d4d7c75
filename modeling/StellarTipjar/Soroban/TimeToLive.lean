import StellarTipjar.Soroban.Wp

/-!
# Lives of storage entries

Every persistent entry and the instance as a whole have a live-until ledger, and a contract keeps
what it writes alive by extending it by hand. `Owes n env₀ env pending` says, in the middle of a
call that began in `env₀`, that every entry the call has set lives `n` more ledgers, except for the
entries of `pending`: those have been set and not been extended yet. `Repays n p q m` is the
program logic of these debts: setting an entry incurs one, extending its life pays it.
-/

namespace Soroban

open Lib

variable {κ : Type} {β : κ → Type} {ε err X α γ : Type}

namespace Env

/-- The entry is there. -/
def Present (env : Env κ β ε X) : Slot κ → Prop
  | .inst k => (env.inst.get k).isSome
  | .pers k => (env.pers.get k).isSome

/-- The last ledger in which the entry is live. The instance lives as a whole. -/
def liveUntil (env : Env κ β ε X) : Slot κ → Nat
  | .inst _ => env.instLive
  | .pers k => env.persLive k

/-- The entries set between `env₀` and `env`. -/
def written (env₀ env : Env κ β ε X) : List (Slot κ) := env.writes.drop env₀.writes.length

end Env

/-- What a call at ledger `s` that began in `env₀` owes in `env`. -/
structure Owes (n s : Nat) (env₀ env : Env κ β ε X) (pending : List (Slot κ)) : Prop where
  writes : env₀.writes.length ≤ env.writes.length
  instLive : env₀.instLive ≤ env.instLive
  persLive : ∀ k, env.Present (.pers k) → Slot.pers k ∉ pending →
    min (env₀.persLive k) (s + n) ≤ env.persLive k
  extended : ∀ slot ∈ env₀.written env, env.Present slot → slot ∉ pending →
    s + n ≤ env.liveUntil slot

namespace Owes

variable {n s : Nat} {env₀ env env' : Env κ β ε X} {p q : List (Slot κ)}

theorem refl (n s : Nat) (env : Env κ β ε X) : Owes n s env env p where
  writes := le_rfl
  instLive := le_rfl
  persLive := fun k _ _ => Nat.min_le_left _ _
  extended := by simp [Env.written]

/-- More may be owed than was. -/
theorem weaken (h : Owes n s env₀ env p) (hpq : ∀ slot ∈ p, slot ∈ q) : Owes n s env₀ env q where
  writes := h.writes
  instLive := h.instLive
  persLive := fun k hk hpending => h.persLive k hk fun hp => hpending (hpq _ hp)
  extended := fun slot hslot hpresent hpending =>
    h.extended slot hslot hpresent fun hp => hpending (hpq _ hp)

/-- Debts on instance entries of a long-lived instance are none. -/
theorem of_instLive (h : Owes n s env₀ env p) (hlive : s + n ≤ env₀.instLive)
    (hp : ∀ k, Slot.pers k ∉ p) : Owes n s env₀ env [] where
  writes := h.writes
  instLive := h.instLive
  persLive := fun k hk _ => h.persLive k hk (hp k)
  extended := by
    intro slot hslot hpresent _
    cases slot with
    | inst k => exact hlive.trans h.instLive
    | pers k => exact h.extended _ hslot hpresent (hp k)

/-- Steps that write nothing, extend nothing and at most remove entries change no debt. -/
theorem of_same (h : Owes n s env₀ env p) (hwrites : env'.writes = env.writes)
    (hinst : env'.instLive = env.instLive) (hpers : env'.persLive = env.persLive)
    (hpresent : ∀ slot, env'.Present slot → env.Present slot) : Owes n s env₀ env' p where
  writes := by rw [hwrites]; exact h.writes
  instLive := by rw [hinst]; exact h.instLive
  persLive := by
    intro k hk hpending
    rw [hpers]
    exact h.persLive k (hpresent _ hk) hpending
  extended := by
    intro slot hslot hslot' hpending
    rw [Env.written, hwrites] at hslot
    have hlive := h.extended slot hslot (hpresent _ hslot') hpending
    cases slot with
    | inst k => exact hlive.trans_eq hinst.symm
    | pers k => exact hlive.trans_eq (congrFun hpers k).symm

/-- One more entry has been set, and its extension is pending. -/
theorem written_append {slot : Slot κ} (hlen : env₀.writes.length ≤ env.writes.length)
    (hwrites : env'.writes = env.writes ++ [slot]) :
    env₀.written env' = env₀.written env ++ [slot] := by
  rw [Env.written, Env.written, hwrites, List.drop_append_of_le_length hlen]

variable {ctx : Ctx κ β ε err X}

/-- Extending the instance repays what is owed for it. -/
theorem bumpInstance (h : Owes n ctx.sequence.toNat env₀ env p) {m : Nat} (hn : 0 < n)
    (hm : n ≤ m) (hq : ∀ k, Slot.pers k ∈ p → Slot.pers k ∈ q) :
    Owes n ctx.sequence.toNat env₀ (env.bumpInstance ctx n m) q := by
  have hraised : env.instLive ≤ (env.bumpInstance ctx n m).instLive := by
    simp only [Env.bumpInstance]
    split <;> omega
  have hlong : ctx.sequence.toNat + n ≤ (env.bumpInstance ctx n m).instLive := by
    simp only [Env.bumpInstance]
    split <;> omega
  refine ⟨h.writes, h.instLive.trans hraised, fun k hk hpending => ?_,
    fun slot hslot hk hpending => ?_⟩
  · exact h.persLive k hk fun hp => hpending (hq k hp)
  · cases slot with
    | inst k => exact hlong
    | pers k => exact h.extended _ hslot hk fun hp => hpending (hq k hp)

variable [DecidableEq κ]

/-- Extending an entry repays what is owed for it. -/
theorem bumpPersistent (h : Owes n ctx.sequence.toNat env₀ env p) {m : Nat} {k : κ} (hn : 0 < n)
    (hm : n ≤ m) (hq : ∀ slot ∈ p, slot ≠ .pers k → slot ∈ q) :
    Owes n ctx.sequence.toNat env₀ (env.bumpPersistent ctx k n m) q := by
  have hlong : ctx.sequence.toNat + n ≤ (env.bumpPersistent ctx k n m).persLive k := by
    simp only [Env.bumpPersistent]
    split
    · simp only [Function.update_self]
      omega
    · omega
  have hother : ∀ j, j ≠ k → (env.bumpPersistent ctx k n m).persLive j = env.persLive j := by
    intro j hj
    simp only [Env.bumpPersistent]
    split
    · rw [Function.update_of_ne hj]
    · rfl
  refine ⟨h.writes, h.instLive, fun j hj hpending => ?_, fun slot hslot hj hpending => ?_⟩
  · by_cases hjk : j = k
    · subst hjk
      exact (Nat.min_le_right _ _).trans hlong
    · rw [hother j hjk]
      exact h.persLive j hj fun hp => hpending (hq _ hp (by simpa using hjk))
  · cases slot with
    | inst j => exact h.extended _ hslot hj fun hp => hpending (hq _ hp (by simp))
    | pers j =>
      by_cases hjk : j = k
      · subst hjk
        exact hlong
      · exact (h.extended _ hslot hj fun hp => hpending (hq _ hp (by simpa using hjk))).trans_eq
          (hother j hjk).symm

/-- A write to the instance is owed until the instance is extended. -/
theorem setInstance (h : Owes n s env₀ env p) (k : κ) (v : β k) :
    Owes n s env₀ (env.setInstance k v) (.inst k :: p) := by
  have hwritten : env₀.written (env.setInstance k v) = env₀.written env ++ [.inst k] :=
    written_append h.writes rfl
  refine ⟨?_, h.instLive, fun j hj hpending => ?_, fun slot hslot hpresent hpending => ?_⟩
  · rw [Env.setInstance_writes, List.length_append]
    exact h.writes.trans (Nat.le_add_right _ _)
  · exact h.persLive j hj fun hp => hpending (List.mem_cons_of_mem _ hp)
  · obtain ⟨hne, hnot⟩ := not_or.mp (mt List.mem_cons.mpr hpending)
    rw [hwritten] at hslot
    rcases List.mem_append.mp hslot with hslot | hslot
    · cases slot with
      | inst j =>
        have hjk : j ≠ k := by
          rintro rfl
          exact hne rfl
        refine h.extended _ hslot ?_ hnot
        simpa [Env.Present, hjk] using hpresent
      | pers j => exact h.extended _ hslot hpresent hnot
    · exact absurd (List.mem_singleton.mp hslot) hne

/-- A write to an entry is owed until the entry is extended. -/
theorem setPersistent (h : Owes n s env₀ env p) (k : κ) (v : β k) :
    Owes n s env₀ (env.setPersistent ctx k v) (.pers k :: p) := by
  have hwritten : env₀.written (env.setPersistent ctx k v) = env₀.written env ++ [.pers k] :=
    written_append h.writes rfl
  have hother : ∀ j, j ≠ k → (env.setPersistent ctx k v).persLive j = env.persLive j := by
    intro j hj
    simp only [Env.setPersistent]
    split
    · rfl
    · rw [Function.update_of_ne hj]
  have hkept : ∀ j, j ≠ k → (env.setPersistent ctx k v).Present (.pers j) →
      env.Present (.pers j) := by
    intro j hj hpresent
    simpa [Env.Present, hj] using hpresent
  refine ⟨?_, h.instLive, fun j hj hpending => ?_, fun slot hslot hpresent hpending => ?_⟩
  · rw [Env.setPersistent_writes, List.length_append]
    exact h.writes.trans (Nat.le_add_right _ _)
  · obtain ⟨hne, hnot⟩ := not_or.mp (mt List.mem_cons.mpr hpending)
    have hjk : j ≠ k := by
      rintro rfl
      exact hne rfl
    rw [hother j hjk]
    exact h.persLive j (hkept j hjk hj) hnot
  · obtain ⟨hne, hnot⟩ := not_or.mp (mt List.mem_cons.mpr hpending)
    rw [hwritten] at hslot
    rcases List.mem_append.mp hslot with hslot | hslot
    · cases slot with
      | inst j => exact h.extended _ hslot hpresent hnot
      | pers j =>
        have hjk : j ≠ k := by
          rintro rfl
          exact hne rfl
        exact (h.extended _ hslot (hkept j hjk hpresent) hnot).trans_eq (hother j hjk).symm
    · exact absurd (List.mem_singleton.mp hslot) hne

end Owes

/-! ## Programs -/

namespace Contract

/-- Run with the debts `p`, the program ends with at most the debts `q`. The network is a chain,
whose tokens do not touch the contract. -/
def Repays (n : Nat) (p q : List (Slot κ)) (m : Contract κ β ε err X α) : Prop :=
  ∀ (chain : Chain X) (sequence : UInt32) (auth : List Address) (env₀ env : Env κ β ε X),
    Owes n sequence.toNat env₀ env p →
      wp m (chain.ctx sequence auth) env fun _ env' => Owes n sequence.toNat env₀ env' q

section Rules

variable {n : Nat} {p q r : List (Slot κ)}

/-- One program after the other: the second repays what the first has left. -/
theorem Repays.bind {m : Contract κ β ε err X γ} {f : γ → Contract κ β ε err X α}
    (hm : Repays n p q m) (hf : ∀ a, Repays n q r (f a)) : Repays n p r (m >>= f) := by
  intro chain sequence auth env₀ env h
  rw [wp_bind]
  exact wp_mono (hm chain sequence auth env₀ env h) fun a env₁ h₁ =>
    hf a chain sequence auth env₀ env₁ h₁

/-- A first part that changes no debt. -/
theorem Repays.step {m : Contract κ β ε err X γ} {f : γ → Contract κ β ε err X α}
    (hm : Repays n p p m) (hf : ∀ a, Repays n p r (f a)) : Repays n p r (m >>= f) := hm.bind hf

/-- Leaving more unpaid is allowed. -/
theorem Repays.weaken {m : Contract κ β ε err X α} (hm : Repays n p q m)
    (hqr : ∀ slot ∈ q, slot ∈ r) : Repays n p r m := by
  intro chain sequence auth env₀ env h
  exact wp_mono (hm chain sequence auth env₀ env h) fun _ _ h' => h'.weaken hqr

/-- A program whose successful runs leave the environment alone. -/
theorem repays_of_reads {m : Contract κ β ε err X α}
    (hm : ∀ ctx env, wp m ctx env fun _ env' => env' = env) : Repays n p p m := by
  intro chain sequence auth env₀ env h
  refine wp_mono (hm _ env) ?_
  rintro _ env' rfl
  exact h

@[simp] theorem repays_pure (a : α) : Repays n p p (pure a : Contract κ β ε err X α) :=
  repays_of_reads fun _ _ => by simp

@[simp] theorem repays_fail (e : Failure err) :
    Repays n p q (fail e : Contract κ β ε err X α) := by
  intro chain sequence auth env₀ env _
  exact (wp_fail e).mpr trivial

@[simp] theorem repays_panicWithError (e : err) :
    Repays n p q (panicWithError e : Contract κ β ε err X α) := repays_fail _

@[simp] theorem repays_panicIf (c : Prop) [Decidable c] (e : err) :
    Repays n p p (panicIf c e : Contract κ β ε err X Unit) :=
  repays_of_reads fun _ _ => by simp

@[simp] theorem repays_unwrapOrPanic (o : Option α) (e : err) :
    Repays n p p (unwrapOrPanic o e : Contract κ β ε err X α) :=
  repays_of_reads fun _ _ => by simp

/-- Both branches have to repay. -/
theorem repays_ite {c : Prop} [Decidable c] {m m' : Contract κ β ε err X α}
    (hm : Repays n p q m) (hm' : Repays n p q m') : Repays n p q (if c then m else m') := by
  split
  · exact hm
  · exact hm'

/-- The branch must leave as much as it found, as the other does nothing. -/
theorem repays_onlyIf {c : Prop} [Decidable c] {m : Contract κ β ε err X Unit}
    (hm : Repays n p p m) : Repays n p p (onlyIf c m) := repays_ite hm (repays_pure ())

theorem repays_ifSome {o : Option γ} {f : γ → Contract κ β ε err X Unit}
    (hf : ∀ a, Repays n p p (f a)) : Repays n p p (ifSome o f) := by
  cases o with
  | none => exact repays_pure ()
  | some a => exact hf a

@[simp] theorem repays_ledgerSequence :
    Repays n p p (ledgerSequence : Contract κ β ε err X UInt32) :=
  repays_of_reads fun _ _ => by simp

@[simp] theorem repays_currentContractAddress :
    Repays n p p (currentContractAddress : Contract κ β ε err X Address) :=
  repays_of_reads fun _ _ => by simp

@[simp] theorem repays_requireAuth (a : Address) :
    Repays n p p (requireAuth a : Contract κ β ε err X Unit) :=
  repays_of_reads fun _ _ => by simp

@[simp] theorem repays_instanceGet (k : κ) :
    Repays n p p (instanceGet k : Contract κ β ε err X (Option (β k))) :=
  repays_of_reads fun _ _ => by simp

@[simp] theorem repays_instanceHas (k : κ) :
    Repays n p p (instanceHas k : Contract κ β ε err X Bool) :=
  repays_of_reads fun _ _ => by simp

@[simp] theorem repays_persistentGet (k : κ) :
    Repays n p p (persistentGet k : Contract κ β ε err X (Option (β k))) :=
  repays_of_reads fun _ _ => by simp

@[simp] theorem repays_persistentHas (k : κ) :
    Repays n p p (persistentHas k : Contract κ β ε err X Bool) :=
  repays_of_reads fun _ _ => by simp

@[simp] theorem repays_tokenTransfer (t : Transfer) :
    Repays n p p (tokenTransfer t : Contract κ β ε err X Unit) := by
  intro chain sequence auth env₀ env h
  rw [wp_tokenTransfer]
  intro x _
  exact h.of_same rfl rfl rfl fun _ => id

@[simp] theorem repays_publish (e : ε) :
    Repays n p p (publish e : Contract κ β ε err X Unit) := by
  intro chain sequence auth env₀ env h
  rw [wp_publish]
  exact h.of_same rfl rfl rfl fun _ => id

@[simp] theorem repays_updateCurrentContractWasm (hash : BytesN 32) :
    Repays n p p (updateCurrentContractWasm hash : Contract κ β ε err X Unit) := by
  intro chain sequence auth env₀ env h
  rw [wp_updateCurrentContractWasm]
  intro _
  exact h.of_same rfl rfl rfl fun _ => id

/-- Extending the instance pays every debt on an instance entry. -/
theorem repays_instanceExtendTtl {m : Nat} (hn : 0 < n) (hm : n ≤ m)
    (hq : ∀ k, Slot.pers k ∈ p → Slot.pers k ∈ q) :
    Repays n p q (instanceExtendTtl n m : Contract κ β ε err X Unit) := by
  intro chain sequence auth env₀ env h
  rw [wp_instanceExtendTtl]
  have hbumped : Owes n (chain.ctx sequence auth : Ctx κ β ε err X).sequence.toNat env₀
      (env.bumpInstance (chain.ctx sequence auth : Ctx κ β ε err X) n m) q :=
    Owes.bumpInstance (p := p) h hn hm hq
  exact hbumped

variable [DecidableEq κ]

/-- The operation as a program: a write leaves one more slot to repay. -/
theorem repays_instanceSet (k : κ) (v : β k) :
    Repays n p (.inst k :: p) (instanceSet k v : Contract κ β ε err X Unit) := by
  intro chain sequence auth env₀ env h
  rw [wp_instanceSet]
  exact h.setInstance k v

@[simp] theorem repays_instanceRemove (k : κ) :
    Repays n p p (instanceRemove k : Contract κ β ε err X Unit) := by
  intro chain sequence auth env₀ env h
  rw [wp_instanceRemove]
  refine h.of_same rfl rfl rfl fun slot hslot => ?_
  cases slot with
  | inst j =>
    by_cases hjk : j = k
    · subst hjk
      simp [Env.Present] at hslot
    · simpa [Env.Present, hjk] using hslot
  | pers j => exact hslot

/-- The same for a persistent entry. -/
theorem repays_persistentSet (k : κ) (v : β k) :
    Repays n p (.pers k :: p) (persistentSet k v : Contract κ β ε err X Unit) := by
  intro chain sequence auth env₀ env h
  rw [wp_persistentSet]
  intro _
  exact h.setPersistent k v

@[simp] theorem repays_persistentRemove (k : κ) :
    Repays n p p (persistentRemove k : Contract κ β ε err X Unit) := by
  intro chain sequence auth env₀ env h
  rw [wp_persistentRemove]
  intro _
  refine h.of_same rfl rfl rfl fun slot hslot => ?_
  cases slot with
  | inst j => exact hslot
  | pers j =>
    by_cases hjk : j = k
    · subst hjk
      simp [Env.Present] at hslot
    · simpa [Env.Present, hjk] using hslot

/-- Extending an entry pays the debt on it. -/
theorem repays_persistentExtendTtl {k : κ} {m : Nat} (hn : 0 < n) (hm : n ≤ m)
    (hq : ∀ slot ∈ p, slot ≠ .pers k → slot ∈ q) :
    Repays n p q (persistentExtendTtl k n m : Contract κ β ε err X Unit) := by
  intro chain sequence auth env₀ env h
  rw [wp_persistentExtendTtl]
  intro _ _
  have hbumped : Owes n (chain.ctx sequence auth : Ctx κ β ε err X).sequence.toNat env₀
      (env.bumpPersistent (chain.ctx sequence auth : Ctx κ β ε err X) k n m) q :=
    Owes.bumpPersistent (p := p) h hn hm hq
  exact hbumped

end Rules

end Contract

end Soroban
