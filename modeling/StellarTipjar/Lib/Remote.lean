import Mathlib.Logic.Function.Basic

/-!
# Computations against a remote party

`Remote σ ε α` is a program that talks to a party with state `σ`: it returns a value or throws, and
the party moves on either way. The answers that the program gets are part of the computation; a
party in a state where it would not answer so has no run (`none`).

* `Remote.Holds` — a property of every run, with the rules for the ways to compose programs;
* `Remote.retry` — runs a program again for as long as it throws, a bounded number of times.
-/

namespace Lib

def Remote (σ ε α : Type) := σ → Option (Except ε α × σ)

namespace Remote

variable {σ ε α β : Type}

def pure (a : α) : Remote σ ε α := fun s => some (.ok a, s)

def fail (e : ε) : Remote σ ε α := fun s => some (.error e, s)

def bind (m : Remote σ ε α) (f : α → Remote σ ε β) : Remote σ ε β := fun s =>
  match m s with
  | none => none
  | some (.error e, s) => some (.error e, s)
  | some (.ok a, s) => f a s

instance : Monad (Remote σ ε) where
  pure := Remote.pure
  bind := Remote.bind

theorem bind_of_ok {m : Remote σ ε α} {f : α → Remote σ ε β} {s s' : σ} {a : α}
    (h : m s = some (.ok a, s')) : (m >>= f) s = f a s' := by
  show bind m f s = f a s'
  simp only [bind, h]

theorem bind_of_error {m : Remote σ ε α} {f : α → Remote σ ε β} {s s' : σ} {e : ε}
    (h : m s = some (.error e, s')) : (m >>= f) s = some (.error e, s') := by
  show bind m f s = some (.error e, s')
  simp only [bind, h]

/-- What the first of two programs does. -/
theorem bind_eq_some {m : Remote σ ε α} {f : α → Remote σ ε β} {s s' : σ} {r : Except ε β}
    (h : (m >>= f) s = some (r, s')) :
    (∃ e, m s = some (.error e, s') ∧ r = .error e) ∨
      ∃ a s₁, m s = some (.ok a, s₁) ∧ f a s₁ = some (r, s') := by
  cases hm : m s with
  | none =>
    have hnone : (m >>= f) s = none := by
      show bind m f s = none
      simp only [bind, hm]
    rw [hnone] at h
    cases h
  | some p =>
    obtain ⟨r₁, s₁⟩ := p
    cases r₁ with
    | error e =>
      rw [bind_of_error hm] at h
      cases h
      exact .inl ⟨e, rfl, rfl⟩
    | ok a =>
      rw [bind_of_ok hm] at h
      exact .inr ⟨a, s₁, rfl, h⟩

/-! ## Properties of every run -/

/-- Every run from a state with `P` ends with `Q`. -/
def Holds (P : σ → Prop) (m : Remote σ ε α) (Q : Except ε α → σ → Prop) : Prop :=
  ∀ s r s', P s → m s = some (r, s') → Q r s'

/-- `Q` of what is returned, and `P` when something is thrown. -/
def Ends (P : σ → Prop) (Q : α → σ → Prop) : Except ε α → σ → Prop
  | .ok a, s => Q a s
  | .error _, s => P s

section Rules

variable {P : σ → Prop} {Q R : Except ε α → σ → Prop} {T : Except ε β → σ → Prop}

theorem Holds.pure {a : α} (h : ∀ s, P s → Q (.ok a) s) : Holds P (Pure.pure a) Q := by
  intro s r s' hs hrun
  cases hrun
  exact h s hs

theorem Holds.fail {e : ε} (h : ∀ s, P s → Q (.error e) s) : Holds P (Remote.fail e) Q := by
  intro s r s' hs hrun
  cases hrun
  exact h s hs

theorem Holds.bind {m : Remote σ ε α} {f : α → Remote σ ε β} (hm : Holds P m Q)
    (herror : ∀ e s, Q (.error e) s → T (.error e) s) (hok : ∀ a, Holds (Q (.ok a)) (f a) T) :
    Holds P (m >>= f) T := by
  intro s r s' hs hrun
  obtain ⟨e, hthrown, rfl⟩ | ⟨a, s₁, hfirst, hrest⟩ := bind_eq_some hrun
  · exact herror e s' (hm s _ s' hs hthrown)
  · exact hok a s₁ r s' (hm s _ s₁ hs hfirst) hrest

theorem Holds.mono {m : Remote σ ε α} (h : Holds P m Q) (hqr : ∀ r s, Q r s → R r s) :
    Holds P m R :=
  fun s r s' hs hrun => hqr r s' (h s r s' hs hrun)

/-- What is known before the program runs, and not about the state, is known for the whole of it. -/
theorem Holds.assume {known : Prop} {m : Remote σ ε α} (h : known → Holds P m Q) :
    Holds (fun s => P s ∧ known) m Q :=
  fun s r s' hs hrun => h hs.2 s r s' hs.1 hrun

end Rules

/-! ## Retries -/

/-- Runs `fn 0`, and when it throws `fn 1`, and so on, `retries` times again at most; `fn n` is the
program with the answers that it gets the `n`-th time. The last error is thrown on as `wrap` of it. -/
def retry (wrap : ε → ε) : Nat → (Nat → Remote σ ε α) → Remote σ ε α
  | retries, fn => fun s =>
    match fn 0 s with
    | none => none
    | some (.ok a, s) => some (.ok a, s)
    | some (.error e, s) =>
      match retries with
      | 0 => some (.error (wrap e), s)
      | retries + 1 => retry wrap retries (fun n => fn (n + 1)) s

section Retry

variable {wrap : ε → ε} {fn : Nat → Remote σ ε α} {retries : Nat} {s s' : σ}

theorem retry_of_ok {a : α} (h : fn 0 s = some (.ok a, s')) :
    retry wrap retries fn s = some (.ok a, s') := by
  unfold retry
  simp only [h]

theorem retry_zero_of_error {e : ε} (h : fn 0 s = some (.error e, s')) :
    retry wrap 0 fn s = some (.error (wrap e), s') := by
  unfold retry
  simp only [h]

theorem retry_succ_of_error {e : ε} (h : fn 0 s = some (.error e, s')) :
    retry wrap (retries + 1) fn s = retry wrap retries (fun n => fn (n + 1)) s' := by
  rw [retry]
  simp only [h]

/-- What the first run of the program does. -/
theorem retry_cases {r : Except ε α} (h : retry wrap retries fn s = some (r, s')) :
    (∃ a, fn 0 s = some (.ok a, s') ∧ r = .ok a) ∨
    ∃ e s₁, fn 0 s = some (.error e, s₁) ∧
      (retries = 0 ∧ r = .error (wrap e) ∧ s' = s₁ ∨
        ∃ left, retries = left + 1 ∧ retry wrap left (fun n => fn (n + 1)) s₁ = some (r, s')) := by
  cases hfn : fn 0 s with
  | none =>
    unfold retry at h
    simp only [hfn] at h
    cases h
  | some p =>
    obtain ⟨r₁, s₁⟩ := p
    cases r₁ with
    | ok a =>
      rw [retry_of_ok hfn] at h
      cases h
      exact .inl ⟨a, rfl, rfl⟩
    | error e =>
      refine .inr ⟨e, s₁, rfl, ?_⟩
      cases retries with
      | zero =>
        rw [retry_zero_of_error hfn] at h
        cases h
        exact .inl ⟨rfl, rfl, rfl⟩
      | succ left =>
        rw [retry_succ_of_error hfn] at h
        exact .inr ⟨left, rfl, h⟩

/-- An invariant that each run of the program keeps when it throws holds whenever it is run again.
Only the runs count that come after others which can throw. -/
theorem Holds.retry {P : σ → Prop} {Q : α → σ → Prop}
    (h : ∀ n ≤ retries, (∀ j < n, ∃ s e s', fn j s = some (.error e, s')) →
      Holds P (fn n) (Ends P Q)) :
    Holds P (Remote.retry wrap retries fn) (Ends P Q) := by
  induction retries generalizing fn with
  | zero =>
    intro s r s' hs hrun
    have hfirst := h 0 (Nat.le_refl 0) (fun j hj => absurd hj (Nat.not_lt_zero j))
    obtain ⟨a, hfn, rfl⟩ | ⟨e, s₁, hfn, ⟨-, rfl, rfl⟩ | ⟨left, hleft, -⟩⟩ := retry_cases hrun
    · exact hfirst s _ s' hs hfn
    · exact hfirst s (.error e) s' hs hfn
    · cases hleft
  | succ retries ih =>
    intro s r s' hs hrun
    have hfirst := h 0 (Nat.zero_le _) (fun j hj => absurd hj (Nat.not_lt_zero j))
    obtain ⟨a, hfn, rfl⟩ | ⟨e, s₁, hfn, ⟨hzero, -⟩ | ⟨left, hleft, hrest⟩⟩ := retry_cases hrun
    · exact hfirst s _ s' hs hfn
    · cases hzero
    · cases hleft
      refine ih (fun n hn hbefore => ?_) s₁ r s' (hfirst s _ s₁ hs hfn) hrest
      refine h (n + 1) (Nat.succ_le_succ hn) (fun j hj => ?_)
      cases j with
      | zero => exact ⟨s, e, s₁, hfn⟩
      | succ j => exact hbefore j (Nat.lt_of_succ_lt_succ hj)

end Retry

end Remote

end Lib
