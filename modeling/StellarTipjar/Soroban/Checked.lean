import StellarTipjar.Soroban.Wp

/-!
# Arithmetic of a build with overflow checks

A contract compiled with overflow checks traps where a bare `+`, `-` or `*` leaves its type. Each
operation is a program, and its rules for `wp` and `twp` state the exact result, so that a later
proof meets no bound: a call that returned has stayed in range.

Which of the two a bare operation does is decided by Cargo's `Profile`: `dev` checks, `release`
wraps.
-/

namespace Lib

namespace I128

def checkedSub (a b : I128) : Option I128 := ofInt? (a.val - b.val)

theorem checkedSub_eq_some {a b c : I128} : checkedSub a b = some c ↔ c.val = a.val - b.val :=
  ofInt?_eq_some

/-- Where the checked difference is defined the wrapping one is the same. -/
theorem sub_eq_of_val {a b c : I128} (h : c.val = a.val - b.val) : a - b = c := by
  have hlo := c.le_val
  have hhi := c.val_lt
  apply I128.ext
  rw [val_sub (by omega) (by omega), h]

/-- `x as i128`. -/
def ofUInt64 (x : UInt64) : I128 where
  val := x.toNat
  le_val := by omega
  val_lt := by
    have := x.toNat_lt
    omega

@[simp] theorem val_ofUInt64 (x : UInt64) : (ofUInt64 x).val = x.toNat := rfl

/-- `min`. -/
def smaller (a b : I128) : I128 := if b < a then b else a

@[simp] theorem val_smaller (a b : I128) : (smaller a b).val = min a.val b.val := by
  unfold smaller
  split
  · next h =>
    have h : b.val < a.val := h
    omega
  · next h =>
    have h : ¬b.val < a.val := h
    omega

end I128

/-- `a.checked_add(b)` on `u64`. -/
def checkedAdd64 (a b : UInt64) : Option UInt64 :=
  if a.toNat + b.toNat < 2 ^ 64 then some (a + b) else none

def checkedSub64 (a b : UInt64) : Option UInt64 := if b ≤ a then some (a - b) else none

theorem checkedAdd64_eq_some {a b c : UInt64} :
    checkedAdd64 a b = some c ↔ c.toNat = a.toNat + b.toNat := by
  have hc := c.toNat_lt
  unfold checkedAdd64
  split
  · next h =>
    rw [Option.some.injEq, ← UInt64.toNat_inj, UInt64.toNat_add, Nat.mod_eq_of_lt h]
    exact eq_comm
  · next h =>
    constructor
    · intro heq
      cases heq
    · intro heq
      omega

theorem checkedSub64_eq_some {a b c : UInt64} :
    checkedSub64 a b = some c ↔ c.toNat + b.toNat = a.toNat := by
  unfold checkedSub64
  split
  · next h =>
    have hle : b.toNat ≤ a.toNat := UInt64.le_iff_toNat_le.mp h
    rw [Option.some.injEq, ← UInt64.toNat_inj, UInt64.toNat_sub_of_le _ _ h]
    omega
  · next h =>
    have hlt : ¬b.toNat ≤ a.toNat := fun hle => h (UInt64.le_iff_toNat_le.mpr hle)
    constructor
    · intro heq
      cases heq
    · intro heq
      omega

end Lib

namespace Soroban.Contract

open Lib

variable {κ : Type} {β : κ → Type} {ε err X α : Type}

/-! ## The programs

`unwrapOrTrap o` is `o.unwrap()` or `o.expect(..)`, and `assertOrTrap c` is `assert!(c, ..)`. -/

def unwrapOrTrap (o : Option α) : Contract κ β ε err X α :=
  match o with
  | some a => pure a
  | none => fail .trap

def assertOrTrap (c : Prop) [Decidable c] : Contract κ β ε err X Unit :=
  if c then pure () else fail .trap

def addOrTrap (a b : I128) : Contract κ β ε err X I128 := unwrapOrTrap (a.checkedAdd b)

def subOrTrap (a b : I128) : Contract κ β ε err X I128 := unwrapOrTrap (a.checkedSub b)

def mulOrTrap (a b : I128) : Contract κ β ε err X I128 := unwrapOrTrap (a.checkedMul b)

def addOrTrap64 (a b : UInt64) : Contract κ β ε err X UInt64 := unwrapOrTrap (checkedAdd64 a b)

def subOrTrap64 (a b : UInt64) : Contract κ β ε err X UInt64 := unwrapOrTrap (checkedSub64 a b)

end Soroban.Contract

/-! ### Bare operations -/

/-- The profile a crate is built in. -/
inductive Soroban.Profile where
  | dev
  | release
deriving DecidableEq, Repr

namespace Soroban.Profile

open Lib Contract

variable {κ : Type} {β : κ → Type} {ε err X : Type}

/-- `a + b` on `i128`. -/
def add : Profile → I128 → I128 → Contract κ β ε err X I128
  | dev, a, b => addOrTrap a b
  | release, a, b => pure (a + b)

/-- `a - b` on `i128`. -/
def sub : Profile → I128 → I128 → Contract κ β ε err X I128
  | dev, a, b => subOrTrap a b
  | release, a, b => pure (a - b)

/-- `a * b` on `i128`. -/
def mul : Profile → I128 → I128 → Contract κ β ε err X I128
  | dev, a, b => mulOrTrap a b
  | release, a, b => pure (a * b)

/-- `a + b` on `u64`. -/
def add64 : Profile → UInt64 → UInt64 → Contract κ β ε err X UInt64
  | dev, a, b => addOrTrap64 a b
  | release, a, b => pure (a + b)

/-- `a - b` on `u64`. -/
def sub64 : Profile → UInt64 → UInt64 → Contract κ β ε err X UInt64
  | dev, a, b => subOrTrap64 a b
  | release, a, b => pure (a - b)

/-- What `a + b` on `u64` is, where it returns. -/
def sum64 : Profile → UInt64 → UInt64 → Option UInt64
  | dev, a, b => checkedAdd64 a b
  | release, a, b => some (a + b)

end Soroban.Profile

namespace Soroban.Contract

open Lib

variable {κ : Type} {β : κ → Type} {ε err X α : Type}

/-! ## Their rules -/

section Rules

variable {ctx : Ctx κ β ε err X} {env : Env κ β ε X} {Q : α → Env κ β ε X → Prop}
  {R : Unit → Env κ β ε X → Prop}

@[simp] theorem wp_unwrapOrTrap (o : Option α) :
    wp (unwrapOrTrap o) ctx env Q ↔ ∀ a, o = some a → Q a env := by
  cases o <;> simp [unwrapOrTrap]

@[simp] theorem twp_unwrapOrTrap (o : Option α) :
    twp (unwrapOrTrap o) ctx env Q ↔ ∃ a, o = some a ∧ Q a env := by
  cases o <;> simp [unwrapOrTrap]

@[simp] theorem wp_assertOrTrap (c : Prop) [Decidable c] :
    wp (assertOrTrap c) ctx env R ↔ (c → R () env) := by
  by_cases hc : c <;> simp [assertOrTrap, hc]

@[simp] theorem twp_assertOrTrap (c : Prop) [Decidable c] :
    twp (assertOrTrap c) ctx env R ↔ c ∧ R () env := by
  by_cases hc : c <;> simp [assertOrTrap, hc]

variable {P : I128 → Env κ β ε X → Prop} {U : UInt64 → Env κ β ε X → Prop}

@[simp] theorem wp_addOrTrap (a b : I128) :
    wp (addOrTrap a b) ctx env P ↔ ∀ c : I128, c.val = a.val + b.val → P c env := by
  simp only [addOrTrap, wp_unwrapOrTrap, I128.checkedAdd_eq_some]

@[simp] theorem twp_addOrTrap (a b : I128) :
    twp (addOrTrap a b) ctx env P ↔ ∃ c : I128, c.val = a.val + b.val ∧ P c env := by
  simp only [addOrTrap, twp_unwrapOrTrap, I128.checkedAdd_eq_some]

@[simp] theorem wp_subOrTrap (a b : I128) :
    wp (subOrTrap a b) ctx env P ↔ ∀ c : I128, c.val = a.val - b.val → P c env := by
  simp only [subOrTrap, wp_unwrapOrTrap, I128.checkedSub_eq_some]

@[simp] theorem twp_subOrTrap (a b : I128) :
    twp (subOrTrap a b) ctx env P ↔ ∃ c : I128, c.val = a.val - b.val ∧ P c env := by
  simp only [subOrTrap, twp_unwrapOrTrap, I128.checkedSub_eq_some]

@[simp] theorem wp_mulOrTrap (a b : I128) :
    wp (mulOrTrap a b) ctx env P ↔ ∀ c : I128, c.val = a.val * b.val → P c env := by
  simp only [mulOrTrap, wp_unwrapOrTrap, I128.checkedMul_eq_some]

@[simp] theorem twp_mulOrTrap (a b : I128) :
    twp (mulOrTrap a b) ctx env P ↔ ∃ c : I128, c.val = a.val * b.val ∧ P c env := by
  simp only [mulOrTrap, twp_unwrapOrTrap, I128.checkedMul_eq_some]

@[simp] theorem wp_addOrTrap64 (a b : UInt64) :
    wp (addOrTrap64 a b) ctx env U ↔ ∀ c : UInt64, c.toNat = a.toNat + b.toNat → U c env := by
  simp only [addOrTrap64, wp_unwrapOrTrap, checkedAdd64_eq_some]

@[simp] theorem twp_addOrTrap64 (a b : UInt64) :
    twp (addOrTrap64 a b) ctx env U ↔ ∃ c : UInt64, c.toNat = a.toNat + b.toNat ∧ U c env := by
  simp only [addOrTrap64, twp_unwrapOrTrap, checkedAdd64_eq_some]

@[simp] theorem wp_subOrTrap64 (a b : UInt64) :
    wp (subOrTrap64 a b) ctx env U ↔ ∀ c : UInt64, c.toNat + b.toNat = a.toNat → U c env := by
  simp only [subOrTrap64, wp_unwrapOrTrap, checkedSub64_eq_some]

@[simp] theorem twp_subOrTrap64 (a b : UInt64) :
    twp (subOrTrap64 a b) ctx env U ↔ ∃ c : UInt64, c.toNat + b.toNat = a.toNat ∧ U c env := by
  simp only [subOrTrap64, twp_unwrapOrTrap, checkedSub64_eq_some]


/-! ### The rules of the profiles -/

@[simp] theorem wp_dev_add (a b : I128) :
    wp (Profile.dev.add a b) ctx env P ↔ ∀ c : I128, c.val = a.val + b.val → P c env :=
  wp_addOrTrap a b

@[simp] theorem twp_dev_add (a b : I128) :
    twp (Profile.dev.add a b) ctx env P ↔ ∃ c : I128, c.val = a.val + b.val ∧ P c env :=
  twp_addOrTrap a b

@[simp] theorem wp_dev_sub (a b : I128) :
    wp (Profile.dev.sub a b) ctx env P ↔ ∀ c : I128, c.val = a.val - b.val → P c env :=
  wp_subOrTrap a b

@[simp] theorem twp_dev_sub (a b : I128) :
    twp (Profile.dev.sub a b) ctx env P ↔ ∃ c : I128, c.val = a.val - b.val ∧ P c env :=
  twp_subOrTrap a b

@[simp] theorem wp_dev_mul (a b : I128) :
    wp (Profile.dev.mul a b) ctx env P ↔ ∀ c : I128, c.val = a.val * b.val → P c env :=
  wp_mulOrTrap a b

@[simp] theorem twp_dev_mul (a b : I128) :
    twp (Profile.dev.mul a b) ctx env P ↔ ∃ c : I128, c.val = a.val * b.val ∧ P c env :=
  twp_mulOrTrap a b

@[simp] theorem wp_dev_add64 (a b : UInt64) :
    wp (Profile.dev.add64 a b) ctx env U ↔ ∀ c : UInt64, c.toNat = a.toNat + b.toNat → U c env :=
  wp_addOrTrap64 a b

@[simp] theorem twp_dev_add64 (a b : UInt64) :
    twp (Profile.dev.add64 a b) ctx env U ↔ ∃ c : UInt64, c.toNat = a.toNat + b.toNat ∧ U c env :=
  twp_addOrTrap64 a b

@[simp] theorem wp_dev_sub64 (a b : UInt64) :
    wp (Profile.dev.sub64 a b) ctx env U ↔ ∀ c : UInt64, c.toNat + b.toNat = a.toNat → U c env :=
  wp_subOrTrap64 a b

@[simp] theorem twp_dev_sub64 (a b : UInt64) :
    twp (Profile.dev.sub64 a b) ctx env U ↔ ∃ c : UInt64, c.toNat + b.toNat = a.toNat ∧ U c env :=
  twp_subOrTrap64 a b

theorem twp_add64 (profile : Profile) (a b : UInt64) :
    twp (profile.add64 a b) ctx env U ↔ ∃ c, profile.sum64 a b = some c ∧ U c env := by
  cases profile with
  | dev => simp only [Profile.add64, addOrTrap64, twp_unwrapOrTrap, Profile.sum64]
  | release => simp [Profile.add64, Profile.sum64]

/-- Where the difference fits, the profile does not matter. -/
theorem twp_sub_of_val (profile : Profile) {a b : I128} (h : (a - b).val = a.val - b.val)
    (hP : P (a - b) env) : twp (profile.sub a b) ctx env P := by
  cases profile with
  | dev => exact (twp_dev_sub a b).mpr ⟨a - b, h, hP⟩
  | release =>
    simp only [Profile.sub, twp_pure]
    exact hP

end Rules

end Soroban.Contract
