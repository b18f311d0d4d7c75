import Mathlib.Algebra.BigOperators.Finprod
import Mathlib.Data.Set.Finite.Basic

/-!
# Finite key-value stores

`Store κ β` is a key-value store with finitely many entries, whose value type depends on the
key. The finiteness is a field, so a store with infinitely many entries cannot be built and
sums over "all entries" are genuine finite sums.

* `set` / `remove` — the two updates, with their `get` laws tagged for `simp`;
* `setAll` — a run of updates; what it leaves under a key is the last value written (`lastWrite`),
  and any function that lists exactly the entries of the run gives that value
  (`lastWrite_eq_of_mem_iff`);
* `finite_support` — a quantity read off a family of entries has finite support;
* `finsum_update` — how a finite sum changes when its summand changes at one index. This is
  the arithmetic behind every "total over all accounts" argument.
-/

namespace Lib

/-- A key-value store with finitely many entries. -/
structure Store (κ : Type) (β : κ → Type) where
  get : (k : κ) → Option (β k)
  finite : {k | (get k).isSome}.Finite

namespace Store

variable {κ : Type} {β : κ → Type}

@[ext] theorem ext {s t : Store κ β} (h : ∀ k, s.get k = t.get k) : s = t := by
  obtain ⟨f, hf⟩ := s
  obtain ⟨g, hg⟩ := t
  obtain rfl : f = g := funext h
  rfl

/-- The store with no entry. -/
def empty : Store κ β where
  get := fun _ => none
  finite := by simp

@[simp] theorem get_empty (k : κ) : (empty : Store κ β).get k = none := rfl

/-- A quantity read off the entries of a family of keys, zero where there is no entry, is non-zero
at finitely many of them. -/
theorem finite_support (s : Store κ β) {ι : Type} (key : ι → κ) (hkey : Function.Injective key)
    (f : ∀ i, Option (β (key i)) → ℤ) (hf : ∀ i, f i none = 0) :
    (fun i => f i (s.get (key i))).support.Finite := by
  refine (s.finite.preimage hkey.injOn).subset ?_
  intro i hi
  cases hget : s.get (key i) with
  | none =>
    rw [Function.mem_support, hget, hf] at hi
    exact absurd rfl hi
  | some v => simp [hget]

variable [DecidableEq κ]

/-- Writes `v` under `k`, whether or not the key had a value. -/
def set (s : Store κ β) (k : κ) (v : β k) : Store κ β where
  get := Function.update s.get k (some v)
  finite := by
    refine (s.finite.insert k).subset fun j hj => ?_
    by_cases hjk : j = k
    · exact Or.inl hjk
    · right
      simpa [Function.update_of_ne hjk] using hj

/-- Drops the entry of `k`, if there is one. -/
def remove (s : Store κ β) (k : κ) : Store κ β where
  get := Function.update s.get k none
  finite := by
    refine s.finite.subset fun j hj => ?_
    by_cases hjk : j = k
    · subst hjk
      simp at hj
    · simpa [Function.update_of_ne hjk] using hj

@[simp] theorem get_set_self (s : Store κ β) (k : κ) (v : β k) :
    (s.set k v).get k = some v := by
  simp [set]

@[simp] theorem get_set_of_ne (s : Store κ β) {j k : κ} (h : j ≠ k) (v : β k) :
    (s.set k v).get j = s.get j := by
  simp [set, Function.update_of_ne h]

@[simp] theorem get_remove_self (s : Store κ β) (k : κ) : (s.remove k).get k = none := by
  simp [remove]

@[simp] theorem get_remove_of_ne (s : Store κ β) {j k : κ} (h : j ≠ k) :
    (s.remove k).get j = s.get j := by
  simp [remove, Function.update_of_ne h]

/-! ## Runs of updates -/

/-- Writes the entries one after the other. -/
def setAll (s : Store κ β) (entries : List ((k : κ) × β k)) : Store κ β :=
  entries.foldl (fun s e => s.set e.1 e.2) s

/-- The value a run of updates leaves under `k`, if it writes there at all. -/
def lastWrite : List ((k : κ) × β k) → (k : κ) → Option (β k)
  | [], _ => none
  | e :: rest, k => (lastWrite rest k).or (if h : e.1 = k then some (h ▸ e.2) else none)

theorem get_setAll (s : Store κ β) (entries : List ((k : κ) × β k)) (k : κ) :
    (s.setAll entries).get k = (lastWrite entries k).or (s.get k) := by
  induction entries generalizing s with
  | nil => rfl
  | cons e rest ih =>
    rw [setAll, List.foldl_cons, ← setAll, ih, lastWrite, Option.or_assoc]
    congr 1
    by_cases h : e.1 = k
    · subst h
      simp
    · rw [get_set_of_ne s (Ne.symm h), dif_neg h, Option.none_or]

theorem setAll_append (s : Store κ β) (a b : List ((k : κ) × β k)) :
    s.setAll (a ++ b) = (s.setAll a).setAll b := by
  rw [setAll, List.foldl_append]
  rfl

theorem mem_of_lastWrite {entries : List ((k : κ) × β k)} {k : κ} {v : β k}
    (h : lastWrite entries k = some v) : ⟨k, v⟩ ∈ entries := by
  induction entries with
  | nil => exact absurd h (by simp [lastWrite])
  | cons e rest ih =>
    rw [lastWrite, Option.or_eq_some_iff] at h
    obtain h | ⟨-, h⟩ := h
    · exact List.mem_cons_of_mem _ (ih h)
    · split at h
      · rename_i hk
        subst hk
        obtain rfl := Option.some.inj h
        exact List.mem_cons_self
      · cases h

theorem lastWrite_isSome {entries : List ((k : κ) × β k)} {k : κ} {v : β k}
    (h : ⟨k, v⟩ ∈ entries) : (lastWrite entries k).isSome := by
  induction entries with
  | nil => cases h
  | cons e rest ih =>
    rw [lastWrite, Option.isSome_or]
    obtain rfl | h := List.mem_cons.mp h
    · simp
    · simp [ih h]

theorem lastWrite_isSome_iff (entries : List ((k : κ) × β k)) (k : κ) :
    (lastWrite entries k).isSome ↔ k ∈ entries.map Sigma.fst := by
  rw [List.mem_map]
  constructor
  · intro h
    obtain ⟨v, hv⟩ := Option.isSome_iff_exists.mp h
    exact ⟨⟨k, v⟩, mem_of_lastWrite hv, rfl⟩
  · rintro ⟨⟨k, v⟩, hmem, rfl⟩
    exact lastWrite_isSome hmem

/-- A function whose values are exactly the entries of a run is what the run leaves, in whatever
order the entries stand. -/
theorem lastWrite_eq_of_mem_iff {entries : List ((k : κ) × β k)} {f : (k : κ) → Option (β k)}
    (h : ∀ k v, ⟨k, v⟩ ∈ entries ↔ f k = some v) (k : κ) : lastWrite entries k = f k := by
  cases hw : lastWrite entries k with
  | some v => exact ((h k v).mp (mem_of_lastWrite hw)).symm
  | none =>
    cases hf : f k with
    | none => rfl
    | some v =>
      have := lastWrite_isSome ((h k v).mpr hf)
      simp [hw] at this

end Store

/-- A summand changed at one index moves the finite sum by the difference there. -/
theorem finsum_update {ι : Type} {f g : ι → ℤ} (i : ι)
    (hf : f.support.Finite) (h : ∀ j, j ≠ i → g j = f j) :
    ∑ᶠ j, g j = ∑ᶠ j, f j + (g i - f i) := by
  classical
  have hsub : ∀ e : ι → ℤ, (∀ j, j ≠ i → e j = f j) →
      e.support ⊆ ↑(insert i hf.toFinset) := by
    intro e he j hj
    by_cases hji : j = i
    · simp [hji]
    · have : f j ≠ 0 := by rw [← he j hji]; exact hj
      simp [this]
  rw [finsum_eq_sum_of_support_subset g (hsub g h),
    finsum_eq_sum_of_support_subset f (hsub f fun _ _ => rfl)]
  have hi : i ∈ insert i hf.toFinset := Finset.mem_insert_self i _
  rw [← Finset.add_sum_erase _ g hi, ← Finset.add_sum_erase _ f hi]
  have hrest : ∑ j ∈ (insert i hf.toFinset).erase i, g j
      = ∑ j ∈ (insert i hf.toFinset).erase i, f j :=
    Finset.sum_congr rfl fun j hj => h j (Finset.ne_of_mem_erase hj)
  rw [hrest]
  omega

end Lib
