import Mathlib.Algebra.Ring.Int.Defs
import Mathlib.Data.Int.ModEq

/-!
# 128-bit signed machine integers

`I128` is an integer together with the proof that it fits 128 signed bits. Three families of
operations are used by compiled code:

* checked ones (`checkedAdd`, `checkedMul`, `checkedDiv`), which answer `none` when the exact
  result does not fit;
* the bare `+`, `-` and `*`, which wrap around in a build without overflow checks;
* comparisons, which are those of the underlying integers.

The lemmas reduce each operation to the underlying integer: a checked operation that answers is
exact (`checkedAdd_eq_some`, …), and a wrapping one is exact whenever the exact result fits
(`val_add`, `val_sub`).
-/

namespace Lib

/-- A signed 128-bit integer. -/
structure I128 where
  val : Int
  le_val : -2 ^ 127 ≤ val
  val_lt : val < 2 ^ 127
deriving DecidableEq, Repr

namespace I128

@[ext] theorem ext {a b : I128} (h : a.val = b.val) : a = b := by
  obtain ⟨x, _, _⟩ := a
  obtain ⟨y, _, _⟩ := b
  obtain rfl : x = y := h
  rfl

/-- The exact integer when it fits. -/
def ofInt? (x : Int) : Option I128 :=
  if h : -2 ^ 127 ≤ x ∧ x < 2 ^ 127 then some ⟨x, h.1, h.2⟩ else none

/-- Two's complement wrap-around of an exact integer. -/
def wrap (x : Int) : I128 where
  val := (x + 2 ^ 127) % 2 ^ 128 - 2 ^ 127
  le_val := by
    have := Int.emod_nonneg (x + 2 ^ 127) (show (2 : Int) ^ 128 ≠ 0 by decide)
    omega
  val_lt := by
    have := Int.emod_lt_of_pos (x + 2 ^ 127) (show (0 : Int) < 2 ^ 128 by decide)
    omega

instance (n : Nat) : OfNat I128 n := ⟨wrap n⟩

/-- `x as i128` for an unsigned 32-bit `x`. -/
def ofUInt32 (x : UInt32) : I128 where
  val := x.toNat
  le_val := by omega
  val_lt := by have := x.toNat_lt; omega

instance : LE I128 := ⟨fun a b => a.val ≤ b.val⟩
instance : LT I128 := ⟨fun a b => a.val < b.val⟩
instance (a b : I128) : Decidable (a ≤ b) := inferInstanceAs (Decidable (a.val ≤ b.val))
instance (a b : I128) : Decidable (a < b) := inferInstanceAs (Decidable (a.val < b.val))

/-- The unchecked difference: it wraps around. -/
instance : Sub I128 := ⟨fun a b => wrap (a.val - b.val)⟩

-- and so do the unchecked sum and product
instance : Add I128 := ⟨fun a b => wrap (a.val + b.val)⟩
instance : Mul I128 := ⟨fun a b => wrap (a.val * b.val)⟩

def checkedAdd (a b : I128) : Option I128 := ofInt? (a.val + b.val)

def checkedMul (a b : I128) : Option I128 := ofInt? (a.val * b.val)

/-- Division truncates towards zero, as the machine's does; `none` for a zero divisor. -/
def checkedDiv (a b : I128) : Option I128 :=
  if b.val = 0 then none else ofInt? (a.val.tdiv b.val)

/-! ## Reduction to the underlying integers -/

@[simp] theorem val_zero : (0 : I128).val = 0 := rfl

@[simp] theorem val_ofUInt32 (x : UInt32) : (ofUInt32 x).val = x.toNat := rfl

theorem ofInt?_eq_some {x : Int} {a : I128} : ofInt? x = some a ↔ a.val = x := by
  unfold ofInt?
  constructor
  · intro h
    split at h
    · cases h
      rfl
    · cases h
  · rintro rfl
    rw [dif_pos ⟨a.le_val, a.val_lt⟩]

theorem checkedAdd_eq_some {a b c : I128} : checkedAdd a b = some c ↔ c.val = a.val + b.val :=
  ofInt?_eq_some

theorem checkedMul_eq_some {a b c : I128} : checkedMul a b = some c ↔ c.val = a.val * b.val :=
  ofInt?_eq_some

theorem checkedDiv_eq_some {a b c : I128} :
    checkedDiv a b = some c ↔ b.val ≠ 0 ∧ c.val = a.val.tdiv b.val := by
  unfold checkedDiv
  split
  · simp [*]
  · simp [*, ofInt?_eq_some]

/-- Wrapping does nothing to an integer that fits. -/
theorem val_wrap {x : Int} (hlo : -2 ^ 127 ≤ x) (hhi : x < 2 ^ 127) : (wrap x).val = x := by
  show (x + 2 ^ 127) % 2 ^ 128 - 2 ^ 127 = x
  rw [Int.emod_eq_of_lt (by omega) (by omega)]
  omega

/-- Wrapping keeps the residue. -/
theorem wrap_modEq (x : Int) : (wrap x).val ≡ x [ZMOD 2 ^ 128] := by
  have h := (Int.mod_modEq (x + 2 ^ 127) (2 ^ 128)).sub_right (2 ^ 127)
  rwa [Int.add_sub_cancel] at h

/-- Wrapping takes the balanced residue. -/
theorem val_wrap_eq_bmod (x : Int) : (wrap x).val = x.bmod (2 ^ 128) := by
  show (x + 2 ^ 127) % 2 ^ 128 - 2 ^ 127 = x.bmod (2 ^ 128)
  rw [Int.bmod_eq_emod]
  split <;> omega

theorem add_modEq (a b : I128) : (a + b).val ≡ a.val + b.val [ZMOD 2 ^ 128] := wrap_modEq _

theorem sub_modEq (a b : I128) : (a - b).val ≡ a.val - b.val [ZMOD 2 ^ 128] := wrap_modEq _

/-- A number that is not negative does not get larger by wrapping. -/
theorem val_wrap_le {x : Int} (h : 0 ≤ x) : (wrap x).val ≤ x := by
  show (x + 2 ^ 127) % 2 ^ 128 - 2 ^ 127 ≤ x
  omega

/-- One that does not fit loses at least `2^128`. -/
theorem val_wrap_add_le {x : Int} (h : 2 ^ 127 ≤ x) : (wrap x).val + 2 ^ 128 ≤ x := by
  show (x + 2 ^ 127) % 2 ^ 128 - 2 ^ 127 + 2 ^ 128 ≤ x
  omega

/-- Dividing a negative number by a positive one gives no positive quotient. -/
theorem tdiv_nonpos_of_neg {x p : Int} (hx : x < 0) (hp : 0 < p) : x.tdiv p ≤ 0 := by
  have hnonneg : 0 ≤ (-x).tdiv p := Int.tdiv_nonneg (by omega) (by omega)
  rw [Int.neg_tdiv] at hnonneg
  omega

/-- A division by a positive number always answers. -/
theorem checkedDiv_of_pos (a : I128) {b : I128} (hb : 0 < b.val) :
    ∃ q, checkedDiv a b = some q ∧ q.val = a.val.tdiv b.val := by
  have hlo : -2 ^ 127 ≤ a.val.tdiv b.val := by
    rcases Int.lt_or_le a.val 0 with hneg | hpos
    · have hle := Int.tdiv_le_self b.val (show 0 ≤ -a.val by omega)
      rw [Int.neg_tdiv] at hle
      have := a.le_val
      omega
    · have := Int.tdiv_nonneg hpos hb.le
      omega
  have hhi : a.val.tdiv b.val < 2 ^ 127 := by
    rcases Int.lt_or_le a.val 0 with hneg | hpos
    · have := tdiv_nonpos_of_neg hneg hb
      omega
    · have := Int.tdiv_le_self b.val hpos
      have := a.val_lt
      omega
  exact ⟨⟨_, hlo, hhi⟩, checkedDiv_eq_some.mpr ⟨by omega, rfl⟩, rfl⟩

/-- A positive quotient has the bounds that floor division has, whatever the dividend. -/
theorem le_tdiv_iff {k x p : Int} (hk : 0 < k) (hp : 0 < p) : k ≤ x.tdiv p ↔ k * p ≤ x := by
  rcases Int.lt_or_le x 0 with hneg | hpos
  · have hquot := tdiv_nonpos_of_neg hneg hp
    have hprod : 0 < k * p := Int.mul_pos hk hp
    omega
  · rw [Int.tdiv_eq_ediv_of_nonneg hpos]
    exact Int.le_ediv_iff_mul_le hp

/-- The quotient of a number that does not fit gets smaller by wrapping: what wrapping takes away
is more than any divisor. -/
theorem wrap_tdiv_lt {x p : Int} (hx : 2 ^ 127 ≤ x) (hp : 0 < p) (hfits : p < 2 ^ 127) :
    (wrap x).val.tdiv p < x / p := by
  have hloss := val_wrap_add_le hx
  have hone : 1 ≤ x / p := (Int.le_ediv_iff_mul_le hp).mpr (by omega)
  rcases Int.lt_or_le (wrap x).val 0 with hneg | hpos
  · have := tdiv_nonpos_of_neg hneg hp
    omega
  · rw [Int.tdiv_eq_ediv_of_nonneg hpos]
    have hless : (wrap x).val / p ≤ (x - p) / p := Int.ediv_le_ediv hp (by omega)
    rw [Int.sub_ediv_of_dvd _ (Int.dvd_refl p), Int.ediv_self (by omega)] at hless
    omega

/-- The quotient of a wrapped number is the exact one just when the number fits. -/
theorem wrap_tdiv_eq_iff {x p : Int} (hx : 0 ≤ x) (hp : 0 < p) (hfits : p < 2 ^ 127) :
    (wrap x).val.tdiv p = x / p ↔ x < 2 ^ 127 := by
  constructor
  · intro h
    by_contra hlarge
    have hless := wrap_tdiv_lt (Int.not_lt.mp hlarge) hp hfits
    omega
  · intro h
    rw [val_wrap (by omega) h, Int.tdiv_eq_ediv_of_nonneg hx]

/-- The unchecked sum is exact when the exact sum fits. -/
theorem val_add {a b : I128} (hlo : -2 ^ 127 ≤ a.val + b.val) (hhi : a.val + b.val < 2 ^ 127) :
    (a + b).val = a.val + b.val :=
  val_wrap hlo hhi

/-- The unchecked difference is exact when the exact difference fits. -/
theorem val_sub {a b : I128} (hlo : -2 ^ 127 ≤ a.val - b.val) (hhi : a.val - b.val < 2 ^ 127) :
    (a - b).val = a.val - b.val :=
  val_wrap hlo hhi

/-- In particular when something non-negative is taken from a larger number. -/
theorem val_sub_of_le {a b : I128} (hb : 0 ≤ b.val) (hab : b.val ≤ a.val) :
    (a - b).val = a.val - b.val := by
  have := a.val_lt
  exact val_sub (by omega) (by omega)

/-- A positive number that is at most `balance` can be taken from it. -/
theorem val_take {balance paid : I128} (h : ¬(paid ≤ 0 ∨ balance < paid)) :
    0 < paid.val ∧ paid.val ≤ balance.val ∧ (balance - paid).val = balance.val - paid.val := by
  obtain ⟨hpos, hle⟩ := not_or.mp h
  have hpos : 0 < paid.val := Int.not_le.mp hpos
  have hle : paid.val ≤ balance.val := Int.not_lt.mp hle
  exact ⟨hpos, hle, val_sub_of_le (Int.le_of_lt hpos) hle⟩

end I128

end Lib
