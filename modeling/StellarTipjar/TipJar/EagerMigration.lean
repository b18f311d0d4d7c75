import StellarTipjar.Soroban.Relational
import StellarTipjar.TipJar.Ledger
import StellarTipjar.TipJar.Progress

/-!
# TipJar — the eager migration

The storage in which every v1 counter has been moved at once (`eagerStore`), and the relation
`EagerAt` between a storage that is migrated lazily and the one that was migrated eagerly: at
every key the eager one holds what `eagerGet` computes from the lazy one, and in the lazy one no
v1 counter exists beside its v2 counter. `EagerAt` carries the list of v2 counters whose v1
counter is known to be gone; the two storages agree on these and on every key that is no counter,
so a program that accesses no other key cannot tell them apart.

The two migrations are what makes counters join that list.
-/

namespace TipJar

open Lib Soroban Contract

/-! ## Counters in both layouts -/

/-- The counters of the v1 layout. -/
inductive Counter where
  | balance (creator : Address)
  | total (creator : Address)
  | fee
deriving DecidableEq, Repr

/-- What the counter holds in the v1 layout. -/
def Counter.v1 (s : Store DataKey DataKey.Val) : Counter → Option I128
  | .balance creator => s.get (.creatorBalance creator)
  | .total creator => s.get (.creatorTotal creator)
  | .fee => s.get .feeBalance

/-- What it holds in the v2 layout, under the legacy token. -/
def Counter.v2 (T₀ : Address) (s : Store DataKey DataKey.Val) : Counter → Option I128
  | .balance creator => s.get (.balance creator T₀)
  | .total creator => s.get (.total creator T₀)
  | .fee => s.get (.feeBalanceToken T₀)

/-- No v1 counter exists beside its v2 counter. -/
def Apart (T₀ : Address) (s : Store DataKey DataKey.Val) : Prop :=
  ∀ n : Counter, n.v1 s ≠ none → n.v2 T₀ s = none

/-- The entry of a key once every v1 counter is moved. -/
def eagerGet (T₀ : Address) (s : Store DataKey DataKey.Val) :
    (k : DataKey) → Option (DataKey.Val k)
  | .creatorBalance _ => none
  | .creatorTotal _ => none
  | .feeBalance => none
  | .balance creator token =>
    (if T₀ = token then s.get (.creatorBalance creator) else none)
      <|> s.get (.balance creator token)
  | .total creator token =>
    (if T₀ = token then s.get (.creatorTotal creator) else none) <|> s.get (.total creator token)
  | .feeBalanceToken token =>
    (if T₀ = token then s.get .feeBalance else none) <|> s.get (.feeBalanceToken token)
  | k => s.get k

/-- Where the entry of a key goes. -/
def movedTo (T₀ : Address) : DataKey → DataKey
  | .creatorBalance creator => .balance creator T₀
  | .creatorTotal creator => .total creator T₀
  | .feeBalance => .feeBalanceToken T₀
  | k => k

/-- An entry of the eager storage was there before or was moved there. -/
theorem eagerGet_isSome {T₀ : Address} {s : Store DataKey DataKey.Val} {k : DataKey}
    (h : (eagerGet T₀ s k).isSome) :
    (s.get k).isSome ∨ ∃ j, (s.get j).isSome ∧ movedTo T₀ j = k := by
  have hmerge : ∀ {o p : Option I128} {c : Prop} [Decidable c],
      ((if c then o else none) <|> p).isSome → p.isSome ∨ (c ∧ o.isSome) := by
    intro o p c _ hsome
    by_cases hc : c
    · cases o with
      | none => exact .inl (by simpa using hsome)
      | some x => exact .inr ⟨hc, rfl⟩
    · exact .inl (by simpa [hc] using hsome)
  cases k with
  | creatorBalance | creatorTotal | feeBalance => cases h
  | balance creator token =>
    rcases hmerge h with hkept | ⟨rfl, hmoved⟩
    · exact .inl hkept
    · exact .inr ⟨.creatorBalance creator, hmoved, rfl⟩
  | total creator token =>
    rcases hmerge h with hkept | ⟨rfl, hmoved⟩
    · exact .inl hkept
    · exact .inr ⟨.creatorTotal creator, hmoved, rfl⟩
  | feeBalanceToken token =>
    rcases hmerge h with hkept | ⟨rfl, hmoved⟩
    · exact .inl hkept
    · exact .inr ⟨.feeBalance, hmoved, rfl⟩
  | _ => exact .inl h

/-- The storage with every v1 counter moved. -/
def eagerStore (T₀ : Address) (s : Store DataKey DataKey.Val) : Store DataKey DataKey.Val where
  get := eagerGet T₀ s
  finite := by
    refine (s.finite.union (s.finite.image (movedTo T₀))).subset ?_
    intro k hk
    rcases eagerGet_isSome hk with hkept | ⟨j, hj, hmoved⟩
    · exact .inl hkept
    · exact .inr ⟨j, hj, hmoved⟩

/-- No v1 counter is left to be moved to `k`. -/
def Settled (T₀ : Address) (s : Store DataKey DataKey.Val) : DataKey → Prop
  | .creatorBalance _ | .creatorTotal _ | .feeBalance => False
  | .balance creator token => T₀ = token → s.get (.creatorBalance creator) = none
  | .total creator token => T₀ = token → s.get (.creatorTotal creator) = none
  | .feeBalanceToken token => T₀ = token → s.get .feeBalance = none
  | _ => True

/-- `t` is the eager form of `s`, and in `s` the counters of `S` are settled. -/
structure EagerAt (T₀ : Address) (S : List DataKey) (s t : Store DataKey DataKey.Val) : Prop where
  eager : ∀ k, t.get k = eagerGet T₀ s k
  apart : Apart T₀ s
  settled : ∀ k ∈ S, Settled T₀ s k

section Stores

variable {T₀ : Address} {S : List DataKey} {s t s' t' : Store DataKey DataKey.Val} {k : DataKey}

/-- Only counters are ever migrated. -/
theorem settled_of_not_isLedger (hk : k.isLedger = false) : Settled T₀ s k := by
  cases k <;> trivial

theorem isV1_of_settled (h : Settled T₀ s k) : k.isV1 = false := by
  cases k <;> first | rfl | exact h.elim

/-- A settled key reads the same in both states. -/
theorem eagerGet_of_settled (h : Settled T₀ s k) : eagerGet T₀ s k = s.get k := by
  cases k with
  | creatorBalance | creatorTotal | feeBalance => exact h.elim
  | balance creator token =>
    simp only [eagerGet]
    split
    · next hT => simp [h hT]
    · simp
  | total creator token =>
    simp only [eagerGet]
    split
    · next hT => simp [h hT]
    · simp
  | feeBalanceToken token =>
    simp only [eagerGet]
    split
    · next hT => simp [h hT]
    · simp
  | _ => rfl

/-- The eager entry only depends on the entry and on the v1 counters. -/
theorem eagerGet_congr (hv1 : ∀ j, j.isV1 = true → s'.get j = s.get j) (hk : s'.get k = s.get k) :
    eagerGet T₀ s' k = eagerGet T₀ s k := by
  cases k with
  | creatorBalance | creatorTotal | feeBalance => rfl
  | balance creator token => simp only [eagerGet, hk, hv1 (.creatorBalance creator) rfl]
  | total creator token => simp only [eagerGet, hk, hv1 (.creatorTotal creator) rfl]
  | feeBalanceToken token => simp only [eagerGet, hk, hv1 .feeBalance rfl]
  | _ => exact hk

/-- Whether a counter is settled depends on the v1 counters alone. -/
theorem settled_congr (hv1 : ∀ j, j.isV1 = true → s'.get j = s.get j) (h : Settled T₀ s k) :
    Settled T₀ s' k := by
  cases k with
  | creatorBalance | creatorTotal | feeBalance => exact h
  | balance creator token =>
    intro hT
    rw [hv1 _ rfl]
    exact h hT
  | total creator token =>
    intro hT
    rw [hv1 _ rfl]
    exact h hT
  | feeBalanceToken token =>
    intro hT
    rw [hv1 _ rfl]
    exact h hT
  | _ => trivial

/-- The v1 side of a counter is one of them. -/
theorem Counter.v1_congr (hv1 : ∀ j, j.isV1 = true → s'.get j = s.get j) (n : Counter) :
    n.v1 s' = n.v1 s := by
  cases n <;> exact hv1 _ rfl

/-- Writing one settled key on both sides keeps the relation. -/
theorem EagerAt.update (h : EagerAt T₀ S s t) (hk : Settled T₀ s k)
    (hs : ∀ j, j ≠ k → s'.get j = s.get j) (ht : ∀ j, j ≠ k → t'.get j = t.get j)
    (hst : t'.get k = s'.get k) : EagerAt T₀ S s' t' := by
  have hnotV1 := isV1_of_settled hk
  have hv1 : ∀ j, j.isV1 = true → s'.get j = s.get j := by
    intro j hj
    refine hs j ?_
    rintro rfl
    rw [hnotV1] at hj
    cases hj
  refine ⟨?_, ?_, fun j hj => settled_congr hv1 (h.settled j hj)⟩
  · intro j
    by_cases hjk : j = k
    · subst hjk
      rw [hst, eagerGet_of_settled (settled_congr hv1 hk)]
    · rw [ht j hjk, h.eager j, eagerGet_congr hv1 (hs j hjk)]
  · intro n hn
    rw [n.v1_congr hv1] at hn
    -- the v2 counter of a v1 counter that is still there is not settled, so it is not `k`
    cases n with
    | balance creator =>
      refine (hs _ ?_).trans (h.apart (.balance creator) hn)
      rintro rfl
      exact hn (hk rfl)
    | total creator =>
      refine (hs _ ?_).trans (h.apart (.total creator) hn)
      rintro rfl
      exact hn (hk rfl)
    | fee =>
      refine (hs _ ?_).trans (h.apart .fee hn)
      rintro rfl
      exact hn (hk rfl)

/-- The keys a program may access: no counter, or a settled one. -/
theorem EagerAt.settled_of (h : EagerAt T₀ S s t) (hk : k.isLedger = true → k ∈ S) :
    Settled T₀ s k := by
  cases hledger : k.isLedger with
  | false => exact settled_of_not_isLedger hledger
  | true => exact h.settled k (hk hledger)

/-- The two stores agree outside the counters, and at those that are named. -/
theorem EagerAt.get_eq (h : EagerAt T₀ S s t) (hk : k.isLedger = true → k ∈ S) :
    t.get k = s.get k := by
  rw [h.eager k, eagerGet_of_settled (h.settled_of hk)]

/-- The second store is the migrated first one. -/
theorem EagerAt.eq_eagerStore (h : EagerAt T₀ S s t) : t = eagerStore T₀ s := by
  ext k
  rw [h.eager k]
  rfl

/-- Less may be known of the counters. -/
theorem EagerAt.forget (h : EagerAt T₀ S s t) : EagerAt T₀ [] s t :=
  ⟨h.eager, h.apart, by simp⟩

end Stores

/-! ## Accesses -/

/-- The instance storage of an initialised contract with the legacy token `T₀`. -/
def LegacyToken (T₀ : Address) (s : Store DataKey DataKey.Val) : Prop :=
  s.get .token = some T₀ ∧ (s.get .admin).isSome

section Accesses

variable {X : Type} {T₀ : Address} {S : List DataKey} {k : DataKey}

/-- A key on which the stores agree is read alike. -/
theorem keeps_get (hk : k.isLedger = true → k ∈ S) :
    Keeps (LegacyToken T₀) (EagerAt T₀ S) (persistentGet k : M X (Option (DataKey.Val k))) :=
  keeps_persistentGet fun _ _ h => h.get_eq hk

@[simp] theorem keeps_has (hk : k.isLedger = true → k ∈ S) :
    Keeps (LegacyToken T₀) (EagerAt T₀ S) (persistentHas k : M X Bool) :=
  keeps_persistentHas fun _ _ h => h.get_eq hk

@[simp] theorem keeps_bumpPersistentTtl (hk : k.isLedger = true → k ∈ S) :
    Keeps (LegacyToken T₀) (EagerAt T₀ S) (bumpPersistentTtl k : M X Unit) :=
  keeps_persistentExtendTtl (fun _ _ h => h.get_eq hk) _ _

@[simp] theorem keeps_set {x : DataKey.Val k} (hk : k.isLedger = true → k ∈ S) :
    Keeps (LegacyToken T₀) (EagerAt T₀ S) (persistentSet k x : M X Unit) := by
  refine keeps_persistentSet fun s t h => h.update (h.settled_of hk) ?_ ?_ ?_
  · intro j hj
    exact Store.get_set_of_ne _ hj _
  · intro j hj
    exact Store.get_set_of_ne _ hj _
  · rw [Store.get_set_self, Store.get_set_self]

@[simp] theorem keeps_remove (hk : k.isLedger = true → k ∈ S) :
    Keeps (LegacyToken T₀) (EagerAt T₀ S) (persistentRemove k : M X Unit) := by
  refine keeps_persistentRemove fun s t h => h.update (h.settled_of hk) ?_ ?_ ?_
  · intro j hj
    exact Store.get_remove_of_ne _ hj
  · intro j hj
    exact Store.get_remove_of_ne _ hj
  · rw [Store.get_remove_self, Store.get_remove_self]

@[simp] theorem keeps_setInstance {P : Store DataKey DataKey.Val → Store DataKey DataKey.Val → Prop}
    {x : DataKey.Val k} (hk : k ≠ .token) :
    Keeps (LegacyToken T₀) P (instanceSet k x : M X Unit) := by
  refine keeps_instanceSet fun s hs => ⟨?_, ?_⟩
  · rw [Store.get_set_of_ne _ hk.symm]
    exact hs.1
  · by_cases hadmin : k = .admin
    · subst hadmin
      simp
    · rw [Store.get_set_of_ne _ (Ne.symm hadmin)]
      exact hs.2

@[simp] theorem keeps_removeInstance
    {P : Store DataKey DataKey.Val → Store DataKey DataKey.Val → Prop} (hk : k ≠ .token)
    (hadmin : k ≠ .admin) : Keeps (LegacyToken T₀) P (instanceRemove k : M X Unit) := by
  refine keeps_instanceRemove fun s hs => ⟨?_, ?_⟩
  · rw [Store.get_remove_of_ne _ hk.symm]
    exact hs.1
  · rw [Store.get_remove_of_ne _ hadmin.symm]
    exact hs.2

@[simp] theorem keeps_bumpInstanceTtl {I : Store DataKey DataKey.Val → Prop}
    {P : Store DataKey DataKey.Val → Store DataKey DataKey.Val → Prop} :
    Keeps I P (bumpInstanceTtl : M X Unit) :=
  keeps_instanceExtendTtl _ _

end Accesses

/-! ## The migrations -/

section Migrations

variable {X : Type} {T₀ : Address} {S : List DataKey} {w w' v e v' e' : World X}

/-- The migrated store holds what the contract would read. -/
theorem eagerGet_balance (hT : w.inst.get .token = some T₀) (c t : Address) :
    eagerGet T₀ w.pers (.balance c t) = balanceEntry w c t := by
  simp [eagerGet, balanceEntry, hT]

/-- For totals as well. -/
theorem eagerGet_total (hT : w.inst.get .token = some T₀) (c t : Address) :
    eagerGet T₀ w.pers (.total c t) = totalEntry w c t := by
  simp [eagerGet, totalEntry, hT]

/-- Where the legacy token is `T₀`, the two notions of separate layouts agree on creators. -/
theorem apart_iff (hT : w.inst.get .token = some T₀) :
    Apart T₀ w.pers ↔ Separate w ∧
      (w.pers.get .feeBalance ≠ none → w.pers.get (.feeBalanceToken T₀) = none) := by
  constructor
  · intro h
    refine ⟨?_, h .fee⟩
    intro T₁ hT₁ c
    obtain rfl : T₀ = T₁ := Option.some.inj (hT.symm.trans hT₁)
    exact ⟨h (.balance c), h (.total c)⟩
  · rintro ⟨hseparate, hfee⟩ n
    cases n with
    | balance c => exact (hseparate T₀ hT c).1
    | total c => exact (hseparate T₀ hT c).2
    | fee => exact hfee

/-- The creator migration changes no eager entry. -/
theorem MigratedCreator.eagerGet_eq {c t : Address} (h : MigratedCreator c t w w')
    (hT : w.inst.get .token = some T₀) (k : DataKey) :
    eagerGet T₀ w'.pers k = eagerGet T₀ w.pers k := by
  have hT' : w'.inst.get .token = some T₀ := by rw [h.inst, hT]
  cases k with
  | creatorBalance | creatorTotal | feeBalance => rfl
  | balance c' t' => rw [eagerGet_balance hT', eagerGet_balance hT, h.balanceEntry_eq]
  | total c' t' => rw [eagerGet_total hT', eagerGet_total hT, h.totalEntry_eq]
  | feeBalanceToken t' =>
    simp only [eagerGet]
    rw [h.frame _ (by simp) (by simp) (by simp) (by simp),
      h.frame _ (by simp) (by simp) (by simp) (by simp)]
  | _ => exact h.frame _ (by simp) (by simp) (by simp) (by simp)

/-- With nothing to move it changes nothing. -/
theorem MigratedCreator.pers_eq {c t : Address} (h : MigratedCreator c t w w')
    (hbalance : w.pers.get (.creatorBalance c) = none)
    (htotal : w.pers.get (.creatorTotal c) = none) (k : DataKey) :
    w'.pers.get k = w.pers.get k := by
  by_cases hk₁ : k = .balance c t
  · subst hk₁
    rw [h.balance, balanceEntry, hbalance]
    simp
  by_cases hk₂ : k = .total c t
  · subst hk₂
    rw [h.total, totalEntry, htotal]
    simp
  by_cases hk₃ : k = .creatorBalance c
  · subst hk₃
    rw [h.v1Balance, hbalance]
    simp
  by_cases hk₄ : k = .creatorTotal c
  · subst hk₄
    rw [h.v1Total, htotal]
    simp
  exact h.frame k hk₁ hk₂ hk₃ hk₄

/-- After the lazy migration of a creator the two states agree on its counters. -/
theorem twins_migratedCreator {c t : Address}
    (htwins : Twins (LegacyToken T₀) (EagerAt T₀ S) v e) (hv : MigratedCreator c t v v')
    (he : MigratedCreator c t e e') :
    Twins (LegacyToken T₀) (EagerAt T₀ [.balance c t, .total c t]) v' e' := by
  have hT : v.inst.get .token = some T₀ := htwins.invariant.1
  have hT' : v'.inst.get .token = some T₀ := by rw [hv.inst, hT]
  have heager := htwins.pers.eager
  have hsame := he.pers_eq (heager (.creatorBalance c)) (heager (.creatorTotal c))
  refine ⟨?_, ?_, ?_, ?_, ?_, ?_, ?_, ?_, ?_⟩
  · rw [he.inst, hv.inst, htwins.inst]
  · rw [he.events, hv.events, htwins.events]
  · rw [he.transfers, hv.transfers, htwins.transfers]
  · rw [he.wasm, hv.wasm, htwins.wasm]
  · rw [he.ext, hv.ext, htwins.ext]
  · rw [hv.inst]
    exact htwins.invariant
  · intro k
    rw [hsame k, heager k, hv.eagerGet_eq hT]
  · obtain ⟨hseparate, hfee⟩ := (apart_iff hT).mp htwins.pers.apart
    refine (apart_iff hT').mpr ⟨hv.separate hseparate, ?_⟩
    rw [hv.frame _ (by simp) (by simp) (by simp) (by simp),
      hv.frame _ (by simp) (by simp) (by simp) (by simp)]
    exact hfee
  · intro k hk
    have hhidden : T₀ = t → v'.pers.get (.creatorBalance c) = none ∧
        v'.pers.get (.creatorTotal c) = none := by
      rintro rfl
      exact hv.hidden hT'
    simp only [List.mem_cons, List.not_mem_nil, or_false] at hk
    rcases hk with rfl | rfl
    · exact fun hTt => (hhidden hTt).1
    · exact fun hTt => (hhidden hTt).2

/-- Right after the creator migration the counters of the pair are settled. -/
theorem maybeMigrateCreatorData_carries (c t : Address) :
    Carries (LegacyToken T₀) (EagerAt T₀ S) (EagerAt T₀ [.balance c t, .total c t])
      (maybeMigrateCreatorData c t : M X Unit) := by
  refine carries_of_twp ?_
  intro chain sequence auth v e harchival htwins
  refine twp_mono (maybeMigrateCreatorData_runs harchival c t) ?_
  intro _ v' hv
  refine twp_mono (maybeMigrateCreatorData_runs harchival c t) ?_
  intro _ e' he
  exact twins_migratedCreator htwins hv he

/-- So a call that begins with the migration goes on from there. -/
theorem keeps_migratedCreator {α : Type} {c t : Address} {f : Unit → M X α}
    (hf : Keeps (LegacyToken T₀) (EagerAt T₀ [.balance c t, .total c t]) (f ())) :
    Keeps (LegacyToken T₀) (EagerAt T₀ []) (maybeMigrateCreatorData c t >>= f) :=
  Carries.bind (maybeMigrateCreatorData_carries c t) fun _ => hf.weaken fun _ _ h => h.forget

/-- `w'` is `w` after the fee migration under `t`, where the layouts were apart. -/
structure MovedFee (T₀ t : Address) (w w' : World X) : Prop extends OnlyPersistent w w' where
  entry : w'.pers.get (.feeBalanceToken t) = eagerGet T₀ w.pers (.feeBalanceToken t)
  v1 : w'.pers.get .feeBalance = if T₀ = t then none else w.pers.get .feeBalance
  frame : ∀ k, k ≠ .feeBalanceToken t → k ≠ .feeBalance → w'.pers.get k = w.pers.get k

/-- There may be nothing to move. -/
theorem MovedFee.unchanged {t : Address} (h : T₀ = t → w.pers.get .feeBalance = none) :
    MovedFee T₀ t w w where
  toOnlyPersistent := .refl w
  entry := (eagerGet_of_settled (s := w.pers) (k := .feeBalanceToken t) h).symm
  v1 := by
    split
    · next hT => exact h hT
    · rfl
  frame := fun _ _ _ => rfl

/-- Where the layouts are apart the sum of the two fee counters is one of them, so the migration
cannot overflow. -/
theorem maybeMigrateFeeBalance_moves {ctx : Ctx DataKey DataKey.Val Event Error X}
    (harchival : ctx.archival = false) (hT : w.inst.get .token = some T₀)
    (hapart : w.pers.get .feeBalance ≠ none → w.pers.get (.feeBalanceToken T₀) = none)
    (t : Address) :
    twp (maybeMigrateFeeBalance t) ctx w fun _ w' => MovedFee T₀ t w w' := by
  have hlive := Env.not_archived harchival
  simp only [maybeMigrateFeeBalance, twp_bind, twp_persistentGet, twp_instanceGet, twp_ifSome,
    twp_onlyIf, twp_unwrapOrPanic, twp_persistentSet, twp_persistentRemove, twp_bumpPersistentTtl]
  refine ⟨hlive w _, fun hnone => .unchanged fun _ => hnone, ?_⟩
  intro legacy hlegacy
  refine ⟨fun hnone => ?_, ?_⟩
  · rw [hT] at hnone
    cases hnone
  · intro primary hprimary
    obtain rfl : T₀ = primary := Option.some.inj (hT.symm.trans hprimary)
    refine ⟨?_, fun hne => .unchanged fun h => absurd h.symm hne⟩
    rintro rfl
    have hv2 : w.pers.get (.feeBalanceToken t) = none := hapart (by rw [hlegacy]; simp)
    have hsum : ((w.pers.get (.feeBalanceToken t) : Option I128).getD 0).checkedAdd legacy
        = some legacy := by
      rw [I128.checkedAdd_eq_some, hv2]
      exact (Int.zero_add _).symm
    refine ⟨hlive w _, legacy, hsum, hlive _ _, hlive _ _, by simp, hlive _ _, ?_⟩
    refine ⟨⟨rfl, rfl, rfl, rfl, rfl⟩, ?_, ?_, fun k hk hk' => ?_⟩
    · simp [eagerGet, hlegacy]
    · simp
    · simp [hk, hk']

/-- The fee migration changes no eager entry. -/
theorem MovedFee.eagerGet_eq {t : Address} (h : MovedFee T₀ t w w') (k : DataKey) :
    eagerGet T₀ w'.pers k = eagerGet T₀ w.pers k := by
  cases k with
  | creatorBalance | creatorTotal | feeBalance => rfl
  | balance c' t' =>
    simp only [eagerGet]
    rw [h.frame _ (by simp) (by simp), h.frame _ (by simp) (by simp)]
  | total c' t' =>
    simp only [eagerGet]
    rw [h.frame _ (by simp) (by simp), h.frame _ (by simp) (by simp)]
  | feeBalanceToken t' =>
    by_cases ht : t' = t
    · subst ht
      rw [← h.entry]
      refine eagerGet_of_settled ?_
      intro hT
      rw [h.v1, if_pos hT]
    · have hentry := h.frame (.feeBalanceToken t') (by simp [ht]) (by simp)
      simp only [eagerGet]
      rw [hentry, h.v1]
      by_cases hT : T₀ = t'
      · have hne : T₀ ≠ t := fun hTt => ht (hT.symm.trans hTt)
        rw [if_neg hne]
      · rw [if_neg hT, if_neg hT]
  | _ => exact h.frame _ (by simp) (by simp)

/-- With nothing to move it changes nothing. -/
theorem MovedFee.pers_eq {t : Address} (h : MovedFee T₀ t w w')
    (hfee : w.pers.get .feeBalance = none) (k : DataKey) : w'.pers.get k = w.pers.get k := by
  by_cases hk₁ : k = .feeBalanceToken t
  · subst hk₁
    rw [h.entry]
    exact eagerGet_of_settled (k := .feeBalanceToken t) fun _ => hfee
  by_cases hk₂ : k = .feeBalance
  · subst hk₂
    rw [h.v1, hfee]
    simp
  exact h.frame k hk₁ hk₂

/-- The v1 counter is gone when the v2 counter holds its value. -/
theorem MovedFee.apart {t : Address} (h : MovedFee T₀ t w w') (hw : Apart T₀ w.pers) :
    Apart T₀ w'.pers := by
  intro n hn
  cases n with
  | balance c =>
    simp only [Counter.v1, Counter.v2] at hn ⊢
    rw [h.frame _ (by simp) (by simp)] at hn ⊢
    exact hw (.balance c) hn
  | total c =>
    simp only [Counter.v1, Counter.v2] at hn ⊢
    rw [h.frame _ (by simp) (by simp)] at hn ⊢
    exact hw (.total c) hn
  | fee =>
    simp only [Counter.v1, Counter.v2] at hn ⊢
    rw [h.v1] at hn
    by_cases hT : T₀ = t
    · rw [if_pos hT] at hn
      exact absurd rfl hn
    · rw [if_neg hT] at hn
      rw [h.frame _ (by simp [hT]) (by simp)]
      exact hw .fee hn

/-- The same for the fees. -/
theorem twins_movedFee {t : Address} (htwins : Twins (LegacyToken T₀) (EagerAt T₀ S) v e)
    (hv : MovedFee T₀ t v v') (he : MovedFee T₀ t e e') :
    Twins (LegacyToken T₀) (EagerAt T₀ [.feeBalanceToken t]) v' e' := by
  have heager := htwins.pers.eager
  refine ⟨?_, ?_, ?_, ?_, ?_, ?_, ?_, hv.apart htwins.pers.apart, ?_⟩
  · rw [he.inst, hv.inst, htwins.inst]
  · rw [he.events, hv.events, htwins.events]
  · rw [he.transfers, hv.transfers, htwins.transfers]
  · rw [he.wasm, hv.wasm, htwins.wasm]
  · rw [he.ext, hv.ext, htwins.ext]
  · rw [hv.inst]
    exact htwins.invariant
  · intro k
    rw [he.pers_eq (heager .feeBalance) k, heager k, hv.eagerGet_eq]
  · intro k hk
    rw [List.mem_singleton.mp hk]
    intro hT
    rw [hv.v1, if_pos hT]

/-- The migration of the fees, as a step of the twins. -/
theorem maybeMigrateFeeBalance_carries (t : Address) :
    Carries (LegacyToken T₀) (EagerAt T₀ S) (EagerAt T₀ [.feeBalanceToken t])
      (maybeMigrateFeeBalance t : M X Unit) := by
  refine carries_of_twp ?_
  intro chain sequence auth v e harchival htwins
  have hT : v.inst.get .token = some T₀ := htwins.invariant.1
  have hT' : e.inst.get .token = some T₀ := by rw [htwins.inst, hT]
  have hnone : e.pers.get .feeBalance = none := htwins.pers.eager .feeBalance
  refine twp_mono (maybeMigrateFeeBalance_moves harchival hT (htwins.pers.apart .fee) t) ?_
  intro _ v' hv
  refine twp_mono (maybeMigrateFeeBalance_moves harchival hT' (fun h => absurd hnone h) t) ?_
  intro _ e' he
  exact twins_movedFee htwins hv he

/-- And the call that begins with it. -/
theorem keeps_movedFee {α : Type} {t : Address} {f : Unit → M X α}
    (hf : Keeps (LegacyToken T₀) (EagerAt T₀ [.feeBalanceToken t]) (f ())) :
    Keeps (LegacyToken T₀) (EagerAt T₀ []) (maybeMigrateFeeBalance t >>= f) :=
  Carries.bind (maybeMigrateFeeBalance_carries t) fun _ => hf.weaken fun _ _ h => h.forget

end Migrations

end TipJar
