import StellarTipjar.Lib.Store
import Mathlib.Algebra.Order.BigOperators.Group.Finset

/-!
# Sums over the entries of a store

`Store.sum weight` adds up a weight of every entry. It is what a contract owes, when each entry
weighs what it promises: `sum_set` says how one write changes it, and `weight_le_sum` that no entry
weighs more than all of them.
-/

namespace Lib.Store

variable {κ : Type} {β : κ → Type} {s : Store κ β} {weight : (k : κ) → β k → ℤ} {k : κ} {v : β k}

noncomputable def sum (s : Store κ β) (weight : (k : κ) → β k → ℤ) : ℤ :=
  ∑ᶠ k, (s.get k).elim 0 (weight k)

theorem sum_support_finite (s : Store κ β) (weight : (k : κ) → β k → ℤ) :
    (fun k => (s.get k).elim 0 (weight k)).support.Finite :=
  s.finite_support id Function.injective_id (fun k x => x.elim 0 (weight k)) fun _ => rfl

@[simp] theorem sum_empty : (empty : Store κ β).sum weight = 0 := by
  unfold sum
  simp

/-- No entry weighs more than all of them. -/
theorem weight_le_sum (hweight : ∀ k, ∀ v ∈ s.get k, 0 ≤ weight k v) (hv : s.get k = some v) :
    weight k v ≤ s.sum weight := by
  have hle := single_le_finsum k (sum_support_finite s weight) fun j => by
    show 0 ≤ (s.get j).elim 0 (weight j)
    cases hj : s.get j with
    | none => exact le_rfl
    | some u => exact hweight j u hj
  rw [hv] at hle
  exact hle

variable [DecidableEq κ]

/-- A write changes the sum by the weights of the new and the old entry. -/
theorem sum_set (s : Store κ β) (weight : (k : κ) → β k → ℤ) (k : κ) (v : β k) :
    (s.set k v).sum weight = s.sum weight + (weight k v - (s.get k).elim 0 (weight k)) := by
  have hother : ∀ j, j ≠ k → ((s.set k v).get j).elim 0 (weight j) = (s.get j).elim 0 (weight j) := by
    intro j hj
    rw [get_set_of_ne s hj]
  have hsum := finsum_update k (sum_support_finite s weight) hother
  rw [get_set_self] at hsum
  exact hsum

/-- A key whose entries weigh nothing may be written freely. -/
theorem sum_set_of_weightless (hk : ∀ u, weight k u = 0) : (s.set k v).sum weight = s.sum weight := by
  rw [sum_set, hk]
  cases s.get k with
  | none => simp
  | some u => simp [hk]

end Lib.Store
