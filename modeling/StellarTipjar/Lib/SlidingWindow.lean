import Mathlib.Data.List.Induction
import Mathlib.Data.List.Basic

/-!
# Sliding windows over timestamps

Programs that count what happened lately keep a list of timestamps and drop the ones that have left
a window of fixed width before they count. Times are integers, of any unit.

* `live w t l` — the timestamps of `l` that have not left the window that ends at `t`;
* `live_live` — dropping early loses nothing that a later count would see;
* `inWindow w t l` — the timestamps inside the half-open interval `(t - w, t]`;
* `Admitted n w l` — every timestamp of `l` was let in while fewer than `n` were live;
* `Admitted.length_inWindow_le` — then no position of the window ever holds more than `n`.
-/

namespace Lib

def live (w t : Int) (l : List Int) : List Int := l.filter fun x => t - w < x

def inWindow (w t : Int) (l : List Int) : List Int := l.filter fun x => t - w < x ∧ x ≤ t

variable {w t t' : Int} {l : List Int}

theorem live_append (l₁ l₂ : List Int) : live w t (l₁ ++ l₂) = live w t l₁ ++ live w t l₂ :=
  List.filter_append ..

theorem inWindow_append (l₁ l₂ : List Int) :
    inWindow w t (l₁ ++ l₂) = inWindow w t l₁ ++ inWindow w t l₂ := List.filter_append ..

theorem live_live (h : t ≤ t') : live w t' (live w t l) = live w t' l := by
  unfold live
  rw [List.filter_filter]
  refine List.filter_congr fun x _ => ?_
  rw [← Bool.decide_and, decide_eq_decide]
  omega

/-- When nothing lies in the future the two counts are one. -/
theorem inWindow_eq_live (h : ∀ x ∈ l, x ≤ t) : inWindow w t l = live w t l := by
  refine List.filter_congr fun x hx => ?_
  rw [decide_eq_decide]
  exact and_iff_left (h x hx)

/-- Every timestamp came after the ones before it, while fewer than `n` of those were live. -/
inductive Admitted (n : Nat) (w : Int) : List Int → Prop where
  | nil : Admitted n w []
  | concat {l : List Int} {t : Int} (h : Admitted n w l) (hpast : ∀ x ∈ l, x ≤ t)
      (hroom : (live w t l).length < n) : Admitted n w (l ++ [t])

/-- The bound holds wherever the window stands, not only where it ends at a timestamp. -/
theorem Admitted.length_inWindow_le {n : Nat} (h : Admitted n w l) (t : Int) :
    (inWindow w t l).length ≤ n := by
  induction h with
  | nil => exact Nat.zero_le n
  | @concat l u h hpast hroom ih =>
    rw [inWindow_append, List.length_append]
    by_cases hu : t - w < u ∧ u ≤ t
    · -- what is in the window besides `u` was live when `u` was let in
      have hle : (inWindow w t l).length ≤ (live w u l).length := by
        refine (List.monotone_filter_right l fun x hx => ?_).length_le
        rw [decide_eq_true_iff] at hx ⊢
        omega
      have hlast : (inWindow w t [u]).length ≤ 1 := List.length_filter_le _ [u]
      omega
    · have hlast : inWindow w t [u] = [] := by simp [inWindow, hu]
      rw [hlast]
      exact ih

end Lib
