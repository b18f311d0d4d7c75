import Mathlib.Tactic.Basic

/-!
# Bitmasks in a 32-bit word

`bit m i` reads one bit, and the operations of the word act bit by bit; an equation between masks
is an equation of all bits (`ext_bit`). `Within a b` says that every bit of `a` is one of `b`.
-/

namespace Lib.Mask

def bit (m : UInt32) (i : Fin 32) : Bool := m.toBitVec[i.val]

/-- Every bit of `a` is a bit of `b`. -/
def Within (a b : UInt32) : Prop := a &&& b = a

instance (a b : UInt32) : Decidable (Within a b) := inferInstanceAs (Decidable (_ = _))

theorem ext_bit {a b : UInt32} (h : ∀ i, bit a i = bit b i) : a = b := by
  apply UInt32.toBitVec_inj.mp
  apply BitVec.eq_of_getElem_eq
  intro i hi
  exact h ⟨i, hi⟩

theorem eq_iff_bit {a b : UInt32} : a = b ↔ ∀ i, bit a i = bit b i :=
  ⟨fun h i => by rw [h], ext_bit⟩

@[simp] theorem bit_zero (i : Fin 32) : bit 0 i = false := by
  simp [bit]

@[simp] theorem bit_or (a b : UInt32) (i : Fin 32) : bit (a ||| b) i = (bit a i || bit b i) := by
  simp [bit]

@[simp] theorem bit_and (a b : UInt32) (i : Fin 32) : bit (a &&& b) i = (bit a i && bit b i) := by
  simp [bit]

@[simp] theorem bit_not (a : UInt32) (i : Fin 32) : bit (~~~a) i = !bit a i := by
  simp [bit]

theorem within_iff {a b : UInt32} : Within a b ↔ ∀ i, bit a i = true → bit b i = true := by
  constructor
  · intro h i hi
    have hand : bit (a &&& b) i = bit a i := by rw [h]
    rw [bit_and, hi] at hand
    simpa using hand
  · intro h
    refine ext_bit fun i => ?_
    rw [bit_and]
    cases ha : bit a i with
    | false => rfl
    | true => rw [h i ha]; rfl

end Lib.Mask
