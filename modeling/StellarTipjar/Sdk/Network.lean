import StellarTipjar.Lib.Remote
import Mathlib.Data.List.Basic

/-!
# The network as the SDK meets it

The ledger keeps a sequence number for the account that signs. A submitted transaction with a fresh
number is accepted into the pool; from there it is included in a ledger, where it succeeds or fails
and uses up its number, or dropped. All of this goes on whatever the client gets to see: a request
may be lost on the way, and so may the answer (`Exchange`).

`Chain` records the transactions of one call of the SDK. Those of other clients of the account show
only in its sequence number.
-/

namespace Sdk

open Lib

/-! ## The ledger -/

/-- What a transaction asks of the contract. -/
inductive Operation where
  | tip (tipper creator : String) (amount : Int)
  | withdraw (caller creator to' : String) (amount : Option Int)
deriving DecidableEq

/-- A signed transaction; equal ones have the same hash, and different ones do not. -/
structure Tx where
  operation : Operation
  sequence : Nat
  maxTime : Nat
  /-- The resources that the simulation has found. -/
  resources : Nat
deriving DecidableEq

structure Chain where
  sequence : Nat
  pool : List Tx
  succeeded : List Tx
  failed : List Tx
deriving DecidableEq

/-- Before the call. -/
def Chain.start (sequence : Nat) : Chain :=
  { sequence, pool := [], succeeded := [], failed := [] }

inductive LedgerStep where
  /-- A ledger includes a transaction of the pool. -/
  | confirm (tx : Tx) (succeeds : Bool)
  /-- A transaction expires or is evicted. -/
  | drop (tx : Tx)
  /-- A transaction of another client of the account is included. -/
  | other

def Chain.step (chain : Chain) : LedgerStep → Chain
  | .confirm tx succeeds =>
    if tx ∈ chain.pool ∧ tx.sequence = chain.sequence + 1 then
      { sequence := tx.sequence
        pool := chain.pool.filter (· ≠ tx)
        succeeded := if succeeds then tx :: chain.succeeded else chain.succeeded
        failed := if succeeds then chain.failed else tx :: chain.failed }
    else chain
  | .drop tx => { chain with pool := chain.pool.filter (· ≠ tx) }
  | .other => { chain with sequence := chain.sequence + 1 }

/-- The ledgers that close between two requests. -/
def Chain.advance (chain : Chain) (steps : List LedgerStep) : Chain :=
  steps.foldl Chain.step chain

/-- The sequence number is fresh. -/
def Chain.Accepts (chain : Chain) (tx : Tx) : Prop := chain.sequence < tx.sequence

instance (chain : Chain) (tx : Tx) : Decidable (chain.Accepts tx) :=
  inferInstanceAs (Decidable (_ < _))

def Chain.submit (chain : Chain) (tx : Tx) : Chain :=
  if chain.Accepts tx then { chain with pool := chain.pool.insert tx } else chain

inductive GetTransactionStatus where
  | notFound
  | success
  | failed
deriving DecidableEq

def Chain.status (chain : Chain) (tx : Tx) : GetTransactionStatus :=
  if tx ∈ chain.succeeded then .success
  else if tx ∈ chain.failed then .failed
  else .notFound

/-! ## Requests -/

/-- What the SDK throws. -/
inductive SdkError where
  | invalidAmount
  | transactionFailed (message : String) (txHash : Option Tx)
  | contractNotInitialized (message : String)
  | network (message : String) (retries : Nat)
  /-- An exception of the RPC client. -/
  | rpc (message : String)

/-- The message of the error, as JavaScript shows it. -/
def SdkError.message : SdkError → String
  | .invalidAmount => "Amount must be a positive bigint"
  | .transactionFailed message _ => message
  | .contractNotInitialized message => message
  | .network message _ => message
  | .rpc message => message

/-- A computation of the SDK that talks to the network. -/
abbrev Rpc := Remote Chain SdkError

/-- What happens around one request: the ledgers that close before it arrives and before the answer
does, and whether a request without an answer arrived at all. -/
structure Exchange where
  before : List LedgerStep
  after : List LedgerStep
  arrives : Bool

/-- A request. It gets an answer that the network gives in its state (`serve`), or an exception; then
the network may have acted on it (`act`) all the same. -/
def request {α β : Type} (answer : Except String α) (exchange : Exchange)
    (serve : α → Chain → Option (β × Chain)) (act : Chain → Chain) : Rpc β := fun chain =>
  let chain := chain.advance exchange.before
  match answer with
  | .error message =>
    let chain := if exchange.arrives then act chain else chain
    some (.error (.rpc message), chain.advance exchange.after)
  | .ok answer =>
    match serve answer chain with
    | none => none
    | some (value, chain) => some (.ok value, chain.advance exchange.after)

inductive Simulation where
  | error (text : String)
  | success (resources : Nat)

inductive SendStatus where
  | pending
  | error (errorResult : String)

/-- The sequence number of the account. -/
def getAccount (answer : Except String Unit) (exchange : Exchange) : Rpc Nat :=
  request answer exchange (fun _ chain => some (chain.sequence, chain)) id

/-- Simulating leaves the chain as it is. -/
def simulateTransaction {α : Type} (answer : Except String α) (exchange : Exchange) : Rpc α :=
  request answer exchange (fun result chain => some (result, chain)) id

/-- The server puts the transaction into its pool, unless it refuses it. -/
def sendTransaction (answer : Except String SendStatus) (exchange : Exchange) (tx : Tx) :
    Rpc SendStatus :=
  request answer exchange
    (fun status chain =>
      match status with
      | .pending => if chain.Accepts tx then some (.pending, chain.submit tx) else none
      | .error errorResult => if chain.Accepts tx then none else some (.error errorResult, chain))
    (·.submit tx)

/-- The server answers what became of the transaction. -/
def getTransaction (answer : Except String GetTransactionStatus) (exchange : Exchange) (tx : Tx) :
    Rpc GetTransactionStatus :=
  request answer exchange
    (fun status chain => if chain.status tx = status then some (status, chain) else none) id

/-! ## Invariants of the ledger -/

section Invariants

/-- A property that every step of the ledger keeps is kept while time passes. -/
theorem Chain.advance_induction {P : Chain → Prop} (hstep : ∀ chain step, P chain → P (chain.step step))
    (steps : List LedgerStep) {chain : Chain} (h : P chain) : P (chain.advance steps) := by
  induction steps generalizing chain with
  | nil => exact h
  | cons step steps ih => exact ih (hstep chain step h)

/-- No transaction of the call is applied, and none can be. -/
structure Chain.Clean (chain : Chain) : Prop where
  pool : chain.pool = []
  succeeded : chain.succeeded = []
  failed : ∀ tx ∈ chain.failed, tx.sequence ≤ chain.sequence

/-- The transaction is the only one of the call that is applied or can be. -/
structure Chain.Owns (tx : Tx) (chain : Chain) : Prop where
  only : chain.pool ++ chain.succeeded = [] ∨ chain.pool ++ chain.succeeded = [tx]
  dead : tx ∈ chain.failed → chain.pool ++ chain.succeeded = []
  failed : ∀ tx ∈ chain.failed, tx.sequence ≤ chain.sequence

/-- The transaction is applied, and no other one can be. -/
structure Chain.Done (tx : Tx) (chain : Chain) : Prop where
  pool : chain.pool = []
  succeeded : chain.succeeded = [tx]

/-- Nothing has been submitted yet. -/
theorem Chain.clean_start (sequence : Nat) : (Chain.start sequence).Clean :=
  ⟨rfl, rfl, fun _ h => by cases h⟩

/-- Without a transaction in the pool, only the sequence number moves. -/
theorem Chain.step_of_pool_nil {chain : Chain} (hpool : chain.pool = []) (step : LedgerStep) :
    ∃ sequence ≥ chain.sequence, chain.step step = { chain with sequence } := by
  obtain ⟨sequence, pool, succeeded, failed⟩ := chain
  subst hpool
  cases step with
  | confirm tx succeeds => exact ⟨sequence, Nat.le_refl _, by simp [Chain.step]⟩
  | drop tx => exact ⟨sequence, Nat.le_refl _, rfl⟩
  | other => exact ⟨sequence + 1, Nat.le_succ _, rfl⟩

/-- Ledgers that close do not change that. -/
theorem Chain.Clean.advance {chain : Chain} (h : chain.Clean) (steps : List LedgerStep) :
    (chain.advance steps).Clean := by
  refine Chain.advance_induction (fun chain step h => ?_) steps h
  obtain ⟨sequence, hle, heq⟩ := Chain.step_of_pool_nil h.pool step
  rw [heq]
  exact ⟨h.pool, h.succeeded, fun tx htx => Nat.le_trans (h.failed tx htx) hle⟩

/-- What is executed stays executed. -/
theorem Chain.Done.advance {tx : Tx} {chain : Chain} (h : chain.Done tx)
    (steps : List LedgerStep) : (chain.advance steps).Done tx := by
  refine Chain.advance_induction (fun chain step h => ?_) steps h
  obtain ⟨sequence, -, heq⟩ := Chain.step_of_pool_nil h.pool step
  rw [heq]
  exact ⟨h.pool, h.succeeded⟩

/-- The transaction stays the only one. -/
theorem Chain.Owns.advance {tx : Tx} {chain : Chain} (h : chain.Owns tx)
    (steps : List LedgerStep) : (chain.advance steps).Owns tx := by
  refine Chain.advance_induction (fun chain step h => ?_) steps h
  obtain ⟨sequence, pool, succeeded, failed⟩ := chain
  obtain ⟨honly, hdead, hfailed⟩ := h
  simp only at honly hdead hfailed
  -- the transaction is on its way only in the second case, where a step can decide on it
  cases pool with
  | nil =>
    obtain ⟨sequence', hle, heq⟩ :=
      Chain.step_of_pool_nil (show (Chain.mk sequence [] succeeded failed).pool = [] from rfl) step
    rw [heq]
    exact ⟨honly, hdead, fun t ht => Nat.le_trans (hfailed t ht) hle⟩
  | cons t rest =>
    -- the pool holds the transaction, and nothing is applied yet
    obtain ⟨rfl, rfl, rfl⟩ : t = tx ∧ rest = [] ∧ succeeded = [] := by
      simpa using honly
    have hfresh : t ∉ failed := by
      intro hmem
      cases hdead hmem
    cases step with
    | confirm tx succeeds =>
      rw [Chain.step]
      split
      · rename_i hcan
        obtain ⟨hmem, hsequence⟩ := hcan
        obtain rfl : tx = t := by simpa using hmem
        cases succeeds with
        | true => exact ⟨.inr (by simp), fun hmem => absurd hmem hfresh,
            fun t ht => Nat.le_trans (hfailed t ht) (by simp only [hsequence]; omega)⟩
        | false =>
          refine ⟨.inl (by simp), fun _ => by simp, fun t ht => ?_⟩
          rcases List.mem_cons.mp ht with rfl | ht
          · exact Nat.le_refl _
          · exact Nat.le_trans (hfailed t ht) (by simp only [hsequence]; omega)
      · exact ⟨honly, hdead, hfailed⟩
    | drop tx =>
      by_cases htx : t = tx
      · subst htx
        exact ⟨.inl (by simp [Chain.step]), fun _ => by simp [Chain.step], hfailed⟩
      · have hsame : (Chain.mk sequence [t] [] failed).step (.drop tx) = ⟨sequence, [t], [], failed⟩ := by
          simp [Chain.step, htx]
        rw [hsame]
        exact ⟨honly, hdead, hfailed⟩
    | other => exact ⟨honly, hdead, fun t ht => Nat.le_succ_of_le (hfailed t ht)⟩

/-- An accepted transaction is the only one of the call, when none was there before. -/
theorem Chain.Clean.submit {chain : Chain} (h : chain.Clean) {tx : Tx} (haccepts : chain.Accepts tx) :
    (chain.submit tx).Owns tx := by
  rw [Chain.submit, if_pos haccepts]
  refine ⟨.inr (by simp [h.pool, h.succeeded]), fun hmem => ?_, h.failed⟩
  -- a failed transaction has used up its number
  have hle : tx.sequence ≤ chain.sequence := h.failed tx hmem
  have hlt : chain.sequence < tx.sequence := haccepts
  omega

/-- A transaction that is reported to have succeeded has been executed. -/
theorem Chain.Owns.done {tx : Tx} {chain : Chain} (h : chain.Owns tx)
    (hstatus : chain.status tx = .success) : chain.Done tx := by
  have hmem : tx ∈ chain.succeeded := by
    by_contra hnot
    rw [Chain.status, if_neg hnot] at hstatus
    split at hstatus
    · cases hstatus
    · cases hstatus
  -- only one transaction is left, and it is among those that succeeded, not in the pool
  rcases h.only with hnil | hone
  · rw [(List.append_eq_nil_iff.mp hnil).2] at hmem
    cases hmem
  · rcases List.append_eq_singleton_iff.mp hone with ⟨hpool, hsucceeded⟩ | ⟨-, hsucceeded⟩
    · exact ⟨hpool, hsucceeded⟩
    · rw [hsucceeded] at hmem
      cases hmem

/-- One that is reported to have failed never will be. -/
theorem Chain.Owns.clean {tx : Tx} {chain : Chain} (h : chain.Owns tx)
    (hstatus : chain.status tx = .failed) : chain.Clean := by
  have hmem : tx ∈ chain.failed := by
    by_contra hnot
    rw [Chain.status, if_neg hnot] at hstatus
    split at hstatus
    · cases hstatus
    · cases hstatus
  obtain ⟨hpool, hsucceeded⟩ := List.append_eq_nil_iff.mp (h.dead hmem)
  exact ⟨hpool, hsucceeded, h.failed⟩

end Invariants

/-! ## Rules for requests -/

section Requests

open Remote

/-- What holds at any time before a request, and after it whether it is answered or not. -/
theorem holds_request {α β : Type} {answer : Except String α} {exchange : Exchange}
    {serve : α → Chain → Option (β × Chain)} {act : Chain → Chain} {P : Chain → Prop}
    {Q : Except SdkError β → Chain → Prop}
    (hbefore : ∀ chain steps, P chain → P (chain.advance steps))
    (hafter : ∀ result chain steps, Q result chain → Q result (chain.advance steps))
    (hserve : ∀ a value chain chain', answer = .ok a → P chain →
      serve a chain = some (value, chain') → Q (.ok value) chain')
    (hthrow : ∀ message chain, answer = .error message → P chain →
      Q (.error (.rpc message)) chain ∧ Q (.error (.rpc message)) (act chain)) :
    Holds P (request answer exchange serve act) Q := by
  intro chain result chain' hP hrun
  have hP' := hbefore chain exchange.before hP
  -- a request that throws may have had its effect or not
  cases answer with
  | error message =>
    cases hrun
    obtain ⟨hlost, hacted⟩ := hthrow message _ rfl hP'
    refine hafter _ _ _ ?_
    split
    · exact hacted
    · exact hlost
  | ok a =>
    simp only [request] at hrun
    split at hrun
    · cases hrun
    · rename_i value chain₁ hserved
      cases hrun
      exact hafter _ _ _ (hserve a value _ chain₁ rfl hP' hserved)

/-- A request that is answered has been served. -/
theorem request_of_ok {α β : Type} {a : α} {exchange : Exchange}
    {serve : α → Chain → Option (β × Chain)} {act : Chain → Chain} {chain chain' : Chain} {value : β}
    (h : serve a (chain.advance exchange.before) = some (value, chain')) :
    request (.ok a) exchange serve act chain = some (.ok value, chain'.advance exchange.after) := by
  simp only [request, h]

/-- An answer is no error. -/
theorem request_ne_error {α β : Type} {a : α} {exchange : Exchange}
    {serve : α → Chain → Option (β × Chain)} {act : Chain → Chain} {chain chain' : Chain}
    {e : SdkError} : request (.ok a) exchange serve act chain ≠ some (.error e, chain') := by
  simp only [request]
  split
  · exact fun h => by cases h
  · exact fun h => by cases h

/-- A request that is answered by what the network says returns it. -/
theorem request_answer {α : Type} {a : α} {exchange : Exchange}
    {serve : α → Chain → Option (α × Chain)} {act : Chain → Chain}
    (hself : ∀ chain value chain', serve a chain = some (value, chain') → value = a) :
    Holds (fun _ => True) (request (.ok a) exchange serve act) fun result _ => result = .ok a := by
  refine holds_request (fun _ _ h => h) (fun _ _ _ h => h) (fun b value _ _ hanswer _ hserved => ?_)
    (fun _ _ hanswer => by cases hanswer)
  cases hanswer
  rw [hself _ _ _ hserved]

/-- The SDK sees the status the server has sent. -/
theorem sendTransaction_answer (status : SendStatus) (exchange : Exchange) (tx : Tx) :
    Holds (fun _ => True) (sendTransaction (.ok status) exchange tx) fun result _ =>
      result = .ok status := by
  refine request_answer fun chain value chain' hserved => ?_
  cases status with
  | pending =>
    simp only at hserved
    split at hserved
    · cases hserved
      rfl
    · cases hserved
  | error errorResult =>
    simp only at hserved
    split at hserved
    · cases hserved
    · cases hserved
      rfl

/-- The same for a poll. -/
theorem getTransaction_answer (status : GetTransactionStatus) (exchange : Exchange) (tx : Tx) :
    Holds (fun _ => True) (getTransaction (.ok status) exchange tx) fun result _ =>
      result = .ok status := by
  refine request_answer fun chain value chain' hserved => ?_
  split at hserved
  · cases hserved
    rfl
  · cases hserved

/-- Asking for the account submits nothing. -/
theorem getAccount_clean (answer : Except String Unit) (exchange : Exchange) :
    Holds Chain.Clean (getAccount answer exchange) fun result chain =>
      chain.Clean ∧ ∀ sequence, result = .ok sequence → answer = .ok () := by
  refine holds_request (fun _ steps h => h.advance steps)
    (fun _ _ steps h => ⟨h.1.advance steps, h.2⟩) (fun _ _ _ _ hanswer h hserved => ?_)
    (fun _ _ _ h => ⟨⟨h, fun _ hok => by cases hok⟩, h, fun _ hok => by cases hok⟩)
  cases hserved
  exact ⟨h, fun _ _ => hanswer⟩

/-- Nor does simulating. -/
theorem simulateTransaction_clean {α : Type} (answer : Except String α) (exchange : Exchange) :
    Holds Chain.Clean (simulateTransaction answer exchange) fun result chain =>
      chain.Clean ∧ ∀ a, result = .ok a → answer = .ok a := by
  refine holds_request (fun _ steps h => h.advance steps)
    (fun _ _ steps h => ⟨h.1.advance steps, h.2⟩) (fun a _ _ _ hanswer h hserved => ?_)
    (fun _ _ _ h => ⟨⟨h, fun _ hok => by cases hok⟩, h, fun _ hok => by cases hok⟩)
  cases hserved
  exact ⟨h, fun _ hok => by cases hok; exact hanswer⟩

/-- Nothing is known after an exception: the request may have arrived. -/
theorem sendTransaction_clean (answer : Except String SendStatus) (exchange : Exchange) (tx : Tx) :
    Holds Chain.Clean (sendTransaction answer exchange tx) fun result chain =>
      match result with
      | .ok .pending => chain.Owns tx ∧ answer = .ok .pending
      | .ok (.error _) => chain.Clean
      | .error _ => ∃ message, answer = .error message := by
  refine holds_request (fun _ steps h => h.advance steps) (fun result chain steps h => ?_)
    (fun status value chain chain' hanswer hclean hserved => ?_)
    (fun message _ hanswer _ => ⟨⟨message, hanswer⟩, message, hanswer⟩)
  · match result, h with
    | .ok .pending, h => exact ⟨h.1.advance steps, h.2⟩
    | .ok (.error _), h => exact h.advance steps
    | .error _, h => exact h
  · cases status with
    | pending =>
      simp only at hserved
      split at hserved
      · rename_i haccepts
        cases hserved
        exact ⟨hclean.submit haccepts, hanswer⟩
      · cases hserved
    | error errorResult =>
      simp only at hserved
      split at hserved
      · cases hserved
      · cases hserved
        exact hclean

/-- What an answer says about the transaction, while it is the only one. -/
theorem getTransaction_owns (answer : Except String GetTransactionStatus) (exchange : Exchange)
    (tx : Tx) :
    Holds (Chain.Owns tx) (getTransaction answer exchange tx) fun result chain =>
      match result with
      | .ok .notFound => chain.Owns tx ∧ answer = .ok .notFound
      | .ok .success => chain.Done tx
      | .ok .failed => chain.Clean
      | .error _ => ∃ message, answer = .error message := by
  refine holds_request (fun _ steps h => h.advance steps) (fun result chain steps h => ?_)
    (fun status value chain chain' hanswer howns hserved => ?_)
    (fun message _ hanswer _ => ⟨⟨message, hanswer⟩, message, hanswer⟩)
  · match result, h with
    | .ok .notFound, h => exact ⟨h.1.advance steps, h.2⟩
    | .ok .success, h => exact h.advance steps
    | .ok .failed, h => exact h.advance steps
    | .error _, h => exact h
  · split at hserved
    · rename_i hstatus
      cases hserved
      cases status with
      | notFound => exact ⟨howns, hanswer⟩
      | success => exact howns.done hstatus
      | failed => exact howns.clean hstatus
    · cases hserved

end Requests

end Sdk
