import StellarTipjar.Soroban.Host

/-!
# A network of standard tokens

The reference instance of a `Chain`: every token keeps a table of non-negative balances and its
`transfer` moves exactly the requested amount or fails. It shows that the assumptions made about
tokens (`ExactToken`, `PayingToken`) are those of an ordinary token.
-/

namespace Soroban

open Lib

/-- What each holder has of each token. -/
abbrev Balances := Address → Address → Nat

/-- Moves `n` from `source` to `dest` in one token's table. -/
def moveAmount (table : Address → Nat) (source dest : Address) (n : Nat) (a : Address) : Nat :=
  table a + (if a = dest then n else 0) - (if a = source then n else 0)

/-- `transfer` of a standard token: it needs a non-negative amount that the source holds. -/
def standardTransfer (t : Transfer) (x : Balances) : Option Balances :=
  if 0 ≤ t.amount.val ∧ t.amount.val ≤ x t.token t.source then
    some fun token =>
      if token = t.token then moveAmount (x token) t.source t.dest t.amount.val.toNat else x token
  else none

/-- The network with the contract at `self`, where every WASM hash is uploaded and archived
entries are restored on access. -/
def standardChain (self : Address) : Chain Balances where
  self := self
  transfer := standardTransfer
  hasWasm _ _ := true
  timestamp _ := 0
  archival := false
  minLife := 4096

theorem standardChain_exactToken (self T : Address) :
    (standardChain self).ExactToken T fun x a => x T a where
  moves := by
    intro t x x' hT htransfer a
    subst hT
    have hdef : standardTransfer t x = some x' := htransfer
    unfold standardTransfer at hdef
    split at hdef
    · next hok =>
      cases hdef
      obtain ⟨hpos, hle⟩ := hok
      show ((if t.token = t.token then _ else _ : Address → Nat) a : Int) = _
      rw [if_pos rfl, moveAmount]
      by_cases hs : a = t.source
      · subst hs
        rw [if_pos rfl, if_pos rfl]
        by_cases hd : t.source = t.dest
        · rw [if_pos hd, if_pos hd]
          omega
        · rw [if_neg hd, if_neg hd]
          omega
      · rw [if_neg hs, if_neg hs]
        by_cases hd : a = t.dest
        · rw [if_pos hd, if_pos hd]
          omega
        · rw [if_neg hd, if_neg hd]
          omega
    · cases hdef
  spares := by
    intro t x x' hT htransfer
    have hdef : standardTransfer t x = some x' := htransfer
    unfold standardTransfer at hdef
    split at hdef
    · cases hdef
      show _ ≤ (if T = t.token then _ else x T : Address → Nat) self
      rw [if_neg (Ne.symm hT)]
      exact le_rfl
    · cases hdef

theorem standardChain_payingToken (self T : Address) :
    (standardChain self).PayingToken T fun x a => x T a where
  toExactToken := standardChain_exactToken self T
  pays := by
    intro t x hT hsource hpos hle
    subst hT
    have hself : t.source = self := hsource
    have hok : 0 ≤ t.amount.val ∧ t.amount.val ≤ x t.token t.source := by
      rw [hself]
      exact ⟨hpos.le, hle⟩
    exact ⟨_, if_pos hok⟩

/-! ## The same network with a clock -/

/-- The outside world with the close time of the current ledger. -/
structure Clocked (X : Type) where
  ext : X
  time : UInt64

/-- The chain with a clock, which the tokens do not touch. -/
def Chain.clocked {X : Type} (chain : Chain X) : Chain (Clocked X) where
  self := chain.self
  transfer t x := (chain.transfer t x.ext).map fun y => { x with ext := y }
  hasWasm hash x := chain.hasWasm hash x.ext
  timestamp x := x.time
  archival := chain.archival
  minLife := chain.minLife

theorem Chain.PayingToken.clocked {X : Type} {chain : Chain X} {T : Address}
    {holding : X → Address → Nat} (h : chain.PayingToken T holding) :
    chain.clocked.PayingToken T fun x a => holding x.ext a where
  moves := by
    intro t x x' hT htransfer a
    obtain ⟨y, hy, rfl⟩ := Option.map_eq_some_iff.mp htransfer
    exact h.moves t x.ext y hT hy a
  spares := by
    intro t x x' hT htransfer
    obtain ⟨y, hy, rfl⟩ := Option.map_eq_some_iff.mp htransfer
    exact h.spares t x.ext y hT hy
  pays := by
    intro t x hT hsource hpos hle
    obtain ⟨y, hy⟩ := h.pays t x.ext hT hsource hpos hle
    exact ⟨_, Option.map_eq_some_iff.mpr ⟨y, hy, rfl⟩⟩

end Soroban
