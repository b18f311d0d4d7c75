import StellarTipjar.Sdk.Network

/-!
# The TypeScript SDK

`sdk/typescript/src/TipJarContract.ts` and `withRetry` of `sdk/typescript/src/utils.ts`. A call that
writes builds a transaction, submits it and polls for its result; whatever is thrown on the way, all
of it is done again, with the sequence number that the account has by then.

So a tip is paid twice when an exception hides that it was paid, and a hash is returned for a tip that
was not paid when the polls run out. Nothing else goes wrong: a call whose answers settle each
transaction that it submits, by a refusal or by telling that it succeeded or failed, pays exactly what
it reports (`sendTip_safe`, `withdraw_safe`).

An operation is taken to be one that the SDK can encode; building one throws before any request.
-/

namespace Sdk

open Lib

/-! ## The client -/

/-- Runs `fn` up to `retries + 1` times, whatever it threw, and throws `NetworkError` in the end. -/
def withRetry {α : Type} (fn : Nat → Rpc α) (retries : Nat := 3) : Rpc α :=
  Remote.retry
    (fun err =>
      .network ("Operation failed after " ++ retries.repr ++ " retries: " ++ err.message) retries)
    retries fn

/-- The answers that one run of `buildAndSubmit` gets; `getTransaction n` is that of the `n`-th
poll. -/
structure SubmitAnswers where
  getAccount : Except String Unit
  simulateTransaction : Except String Simulation
  sendTransaction : Except String SendStatus
  getTransaction : Nat → Except String GetTransactionStatus

/-- What the network does around its requests, and the second at which it builds the transaction. -/
structure SubmitExchanges where
  getAccount : Exchange
  simulateTransaction : Exchange
  sendTransaction : Exchange
  getTransaction : Nat → Exchange
  now : Nat

def txTimeoutSec : Nat := 30

/-- Polls for confirmation, and `attempts` times again for as long as the transaction is not
found. -/
def poll (tx : Tx) : (attempts : Nat) → (answers : Nat → Except String GetTransactionStatus) →
    (exchanges : Nat → Exchange) → Rpc GetTransactionStatus
  | 0, answers, exchanges => getTransaction (answers 0) (exchanges 0) tx
  | attempts + 1, answers, exchanges => do
    let status ← getTransaction (answers 0) (exchanges 0) tx
    if status = .notFound then
      poll tx attempts (fun n => answers (n + 1)) (fun n => exchanges (n + 1))
    else pure status

/-- The rest of `buildAndSubmit`, once the transaction is signed. -/
def submitPrepared (answers : SubmitAnswers) (exchanges : SubmitExchanges) (preparedTx : Tx) :
    Rpc Tx := do
  match ← sendTransaction answers.sendTransaction exchanges.sendTransaction preparedTx with
  | .error errorResult =>
    Remote.fail (.transactionFailed ("Submit failed: " ++ errorResult) (some preparedTx))
  | .pending =>
    let status ← poll preparedTx 10 answers.getTransaction exchanges.getTransaction
    if status = .failed then
      Remote.fail (.transactionFailed "Transaction failed on-chain" (some preparedTx))
    else pure preparedTx

/-- `connected` says whether there is a keypair. -/
def buildAndSubmit (connected : Bool) (operation : Operation) (answers : SubmitAnswers)
    (exchanges : SubmitExchanges) : Rpc Tx :=
  if !connected then
    Remote.fail (.transactionFailed
      "Call connect() with a Keypair before submitting transactions" none)
  else do
    let sequence ← getAccount answers.getAccount exchanges.getAccount
    match ← simulateTransaction answers.simulateTransaction exchanges.simulateTransaction with
    | .error text => Remote.fail (.transactionFailed ("Simulation failed: " ++ text) none)
    | .success resources =>
      submitPrepared answers exchanges
        { operation, sequence := sequence + 1, maxTime := exchanges.now + txTimeoutSec, resources }

structure TipParams where
  creator : String
  amount : Int
  tipper : String

structure TipResult where
  txHash : Tx
  creator : String
  amount : Int

/-- The amount is checked first; then everything is inside the retries. -/
def sendTip (connected : Bool) (params : TipParams) (answers : Nat → SubmitAnswers)
    (exchanges : Nat → SubmitExchanges) : Rpc TipResult :=
  if params.amount ≤ 0 then Remote.fail .invalidAmount
  else do
    let op := .tip params.tipper params.creator params.amount
    let txHash ← withRetry fun n => buildAndSubmit connected op (answers n) (exchanges n)
    pure { txHash, creator := params.creator, amount := params.amount }

/-- The answers to the requests of one read, and what the network does around them. -/
structure ReadAnswers where
  getAccount : Except String Unit
  simulateTransaction : Except String (Except String Int)

structure ReadExchanges where
  getAccount : Exchange
  simulateTransaction : Exchange

/-- What `getBalance` retries: it simulates a withdrawal without submitting it. -/
def readBalance (answers : ReadAnswers) (exchanges : ReadExchanges) : Rpc Int := do
  let _ ← getAccount answers.getAccount exchanges.getAccount
  match ← simulateTransaction answers.simulateTransaction exchanges.simulateTransaction with
  | .error text => Remote.fail (.contractNotInitialized text)
  | .ok retval => pure retval

/-- A simulated call, with retries of its own. -/
def getBalance (answers : Nat → ReadAnswers) (exchanges : Nat → ReadExchanges) : Rpc Int :=
  withRetry fun n => readBalance (answers n) (exchanges n)

structure WithdrawResult where
  txHash : Tx
  creator : String
  amount : Int
  to' : String

/-- The balance is read first, with retries of its own; the result reports it where no amount is given. -/
def withdraw (connected : Bool) (caller creator to' : String) (amount : Option Int)
    (reads : Nat → ReadAnswers) (readExchanges : Nat → ReadExchanges)
    (answers : Nat → SubmitAnswers) (exchanges : Nat → SubmitExchanges) : Rpc WithdrawResult := do
  let balanceBefore ← getBalance reads readExchanges
  let op := .withdraw caller creator to' amount
  let txHash ← withRetry fun n => buildAndSubmit connected op (answers n) (exchanges n)
  pure { txHash, creator, amount := amount.getD balanceBefore, to' }

/-! ## What a call is to do -/

/-- At most one transaction of the call is ever applied; exactly one is when the call returns, and
none when it throws, then or later. -/
structure OnePerCall {α : Type} (outcome : Except SdkError α) (chain : Chain)
    (later : List LedgerStep) : Prop where
  atMostOne : (chain.advance later).succeeded.length ≤ 1
  resolved : outcome.isOk = true → chain.succeeded.length = 1
  rejected : outcome.isOk = false → (chain.advance later).succeeded = []

/-- In every run of the call against the network. -/
def Safe {α : Type} (call : Rpc α) : Prop :=
  ∀ sequence outcome chain, call (Chain.start sequence) = some (outcome, chain) →
    ∀ later, OnePerCall outcome chain later

/-! ## Answers that settle a transaction -/

/-- The polls tell what has become of the transaction: one of the first `attempts + 1` of them
answers that it succeeded or failed, after some that did not find it. -/
def PollSettles : Nat → (Nat → Except String GetTransactionStatus) → Prop
  | attempts, answers =>
    ∃ k ≤ attempts, (∀ j < k, answers j = .ok .notFound) ∧
      (answers k = .ok .success ∨ answers k = .ok .failed)

/-- The polls end in an answer other than that the transaction has failed. -/
def PollReturns (attempts : Nat) (answers : Nat → Except String GetTransactionStatus) : Prop :=
  (∃ k ≤ attempts, (∀ j < k, answers j = .ok .notFound) ∧ answers k = .ok .success) ∨
    ∀ j ≤ attempts, answers j = .ok .notFound

/-- Either the attempt fails before it submits a transaction, or the network answers that it refuses
it, or the polls tell what has become of it. -/
def SubmitAnswers.Settles (answers : SubmitAnswers) : Prop :=
  match answers.getAccount, answers.simulateTransaction, answers.sendTransaction with
  | .ok _, .ok (.success _), .ok .pending => PollSettles 10 answers.getTransaction
  | .ok _, .ok (.success _), .error _ => False
  | _, _, _ => True

/-- The attempt returns a hash. -/
def SubmitAnswers.Returns (answers : SubmitAnswers) : Prop :=
  match answers.getAccount, answers.simulateTransaction, answers.sendTransaction with
  | .ok _, .ok (.success _), .ok .pending => PollReturns 10 answers.getTransaction
  | _, _, _ => False

/-- Each of the attempts that a call makes settles its transaction. -/
def Settled (retries : Nat) (answers : Nat → SubmitAnswers) : Prop :=
  ∀ i ≤ retries, (∀ j < i, ¬ (answers j).Returns) → (answers i).Settles

/-- The read returns a balance. -/
def ReadAnswers.Returns (answers : ReadAnswers) : Prop :=
  answers.getAccount = .ok () ∧ ∃ balance, answers.simulateTransaction = .ok (.ok balance)

/-! ## Settled calls are safe -/

section Safety

open Remote

/-- The last poll has to bring an answer. -/
theorem pollSettles_zero {answers : Nat → Except String GetTransactionStatus} :
    PollSettles 0 answers ↔ answers 0 = .ok .success ∨ answers 0 = .ok .failed := by
  simp [PollSettles]

/-- One that finds nothing leaves it to the next. -/
theorem pollSettles_succ {attempts : Nat} {answers : Nat → Except String GetTransactionStatus} :
    PollSettles (attempts + 1) answers ↔
      (answers 0 = .ok .success ∨ answers 0 = .ok .failed) ∨
        answers 0 = .ok .notFound ∧ PollSettles attempts (fun n => answers (n + 1)) := by
  constructor
  · rintro ⟨k, hk, hbefore, hdecided⟩
    cases k with
    | zero => exact .inl hdecided
    | succ k =>
      refine .inr ⟨hbefore 0 (by omega), k, by omega, fun j hj => ?_, hdecided⟩
      exact hbefore (j + 1) (by omega)
  · rintro (hdecided | ⟨hfirst, k, hk, hbefore, hdecided⟩)
    · exact ⟨0, by omega, fun j hj => by omega, hdecided⟩
    · refine ⟨k + 1, by omega, fun j hj => ?_, hdecided⟩
      cases j with
      | zero => exact hfirst
      | succ j => exact hbefore j (by omega)

/-- Polls that settle the transaction neither throw nor give up. -/
theorem poll_settled {tx : Tx} {attempts : Nat}
    {answers : Nat → Except String GetTransactionStatus} (exchanges : Nat → Exchange)
    (hsettles : PollSettles attempts answers) :
    Holds (Chain.Owns tx) (poll tx attempts answers exchanges) fun result chain =>
      match result with
      | .ok .success => chain.Done tx
      | .ok .failed => chain.Clean
      | _ => False := by
  induction attempts generalizing answers exchanges with
  | zero =>
    refine (getTransaction_owns (answers 0) (exchanges 0) tx).mono fun result chain h => ?_
    match result, h with
    | .ok .success, h => exact h
    | .ok .failed, h => exact h
    | .ok .notFound, h =>
      rw [pollSettles_zero, h.2] at hsettles
      simp at hsettles
    | .error _, ⟨message, h⟩ =>
      rw [pollSettles_zero, h] at hsettles
      simp at hsettles
  | succ attempts ih =>
    refine (getTransaction_owns (answers 0) (exchanges 0) tx).bind ?_ fun status => ?_
    · rintro e chain ⟨message, h⟩
      rw [pollSettles_succ, h] at hsettles
      simp at hsettles
    · cases status with
      | notFound =>
        refine Holds.assume fun hfirst => ?_
        rw [pollSettles_succ, hfirst] at hsettles
        have hrest : PollSettles attempts fun n => answers (n + 1) := by simpa using hsettles
        exact ih (fun n => exchanges (n + 1)) hrest
      | success => exact Holds.pure fun _ h => h
      | failed => exact Holds.pure fun _ h => h

/-- A submission that settles leaves the chain done or clean. -/
theorem submitPrepared_settled {answers : SubmitAnswers} (exchanges : SubmitExchanges) (tx : Tx)
    (hsent : ∀ message, answers.sendTransaction ≠ .error message)
    (hsettles : answers.sendTransaction = .ok .pending → PollSettles 10 answers.getTransaction) :
    Holds Chain.Clean (submitPrepared answers exchanges tx) (Ends Chain.Clean Chain.Done) := by
  refine (sendTransaction_clean _ _ tx).bind ?_ fun sent => ?_
  · rintro e chain ⟨message, h⟩
    exact absurd h (hsent message)
  · cases sent with
    | error errorResult => exact Holds.fail fun _ h => h
    | pending =>
      refine Holds.assume fun hpending => ?_
      refine (poll_settled exchanges.getTransaction (hsettles hpending)).bind ?_ fun status => ?_
      · rintro e chain h
        exact h.elim
      · cases status with
        | notFound => exact fun _ _ _ h => h.elim
        | success => exact Holds.pure fun _ h => h
        | failed => exact Holds.fail fun _ h => h

/-- An attempt that settles its transaction returns it when it is applied, and throws only when
nothing is. -/
theorem buildAndSubmit_settled (operation : Operation) {answers : SubmitAnswers}
    (exchanges : SubmitExchanges) (hsettles : answers.Settles) :
    Holds Chain.Clean (buildAndSubmit true operation answers exchanges)
      (Ends Chain.Clean Chain.Done) := by
  refine (getAccount_clean _ _).bind (fun _ _ h => h.1) fun sequence => ?_
  refine Holds.assume fun haccount => ?_
  refine (simulateTransaction_clean _ _).bind (fun _ _ h => h.1) fun simulated => ?_
  cases simulated with
  | error text => exact Holds.fail fun _ h => h.1
  | success resources =>
    refine Holds.assume fun hsimulated => ?_
    refine submitPrepared_settled exchanges _ ?_ ?_
    · intro message hsent
      simp only [SubmitAnswers.Settles, haccount _ rfl, hsimulated _ rfl, hsent] at hsettles
    · intro hsent
      simpa only [SubmitAnswers.Settles, haccount _ rfl, hsimulated _ rfl, hsent] using hsettles

/-- When the polls run out the call returns nevertheless. -/
theorem pollReturns_zero {answers : Nat → Except String GetTransactionStatus} :
    PollReturns 0 answers ↔ answers 0 = .ok .success ∨ answers 0 = .ok .notFound := by
  simp [PollReturns]

/-- One that finds nothing leaves it to the next. -/
theorem pollReturns_succ {attempts : Nat} {answers : Nat → Except String GetTransactionStatus} :
    PollReturns (attempts + 1) answers ↔
      answers 0 = .ok .success ∨
        answers 0 = .ok .notFound ∧ PollReturns attempts (fun n => answers (n + 1)) := by
  constructor
  -- poll `k` is the first that finds the transaction; in the other case none does
  · rintro (⟨k, hk, hbefore, hsuccess⟩ | hnever)
    · cases k with
      | zero => exact .inl hsuccess
      | succ k =>
        refine .inr ⟨hbefore 0 (by omega), .inl ⟨k, by omega, fun j hj => ?_, hsuccess⟩⟩
        exact hbefore (j + 1) (by omega)
    · exact .inr ⟨hnever 0 (by omega), .inr fun j hj => hnever (j + 1) (by omega)⟩
  · rintro (hsuccess | ⟨hfirst, ⟨k, hk, hbefore, hsuccess⟩ | hnever⟩)
    · exact .inl ⟨0, by omega, fun j hj => by omega, hsuccess⟩
    · refine .inl ⟨k + 1, by omega, fun j hj => ?_, hsuccess⟩
      cases j with
      | zero => exact hfirst
      | succ j => exact hbefore j (by omega)
    · refine .inr fun j hj => ?_
      cases j with
      | zero => exact hfirst
      | succ j => exact hnever j (by omega)

/-- The loop returns when one of the answers lets it. -/
theorem poll_returns {tx : Tx} {attempts : Nat}
    {answers : Nat → Except String GetTransactionStatus} (exchanges : Nat → Exchange)
    (hreturns : PollReturns attempts answers) :
    Holds (fun _ => True) (poll tx attempts answers exchanges) fun result _ =>
      result = .ok .success ∨ result = .ok .notFound := by
  induction attempts generalizing answers exchanges with
  | zero =>
    rw [pollReturns_zero] at hreturns
    rw [poll]
    rcases hreturns with h | h
    · rw [h]
      exact (getTransaction_answer _ _ tx).mono fun _ _ h => .inl h
    · rw [h]
      exact (getTransaction_answer _ _ tx).mono fun _ _ h => .inr h
  | succ attempts ih =>
    rw [pollReturns_succ] at hreturns
    rw [poll]
    rcases hreturns with h | ⟨h, hrest⟩
    · rw [h]
      refine (getTransaction_answer _ _ tx).bind (fun _ _ h => by cases h) fun status => ?_
      rintro chain result chain' h hrun
      cases h
      cases hrun
      exact .inl rfl
    · rw [h]
      refine (getTransaction_answer _ _ tx).bind (fun _ _ h => by cases h) fun status => ?_
      rintro chain result chain' h hrun
      cases h
      exact ih _ hrest chain result chain' trivial hrun

/-- An attempt throws only when its answers say so. -/
theorem not_returns_of_error {operation : Operation} {answers : SubmitAnswers}
    {exchanges : SubmitExchanges} {chain chain' : Chain} {e : SdkError}
    (herror : buildAndSubmit true operation answers exchanges chain = some (.error e, chain')) :
    ¬ answers.Returns := by
  intro hreturns
  obtain ⟨account, simulation, send, polls⟩ := answers
  match account, simulation, send, hreturns with
  | .ok _, .ok (.success resources), .ok .pending, hpolls =>
    -- with these answers none of the requests can throw, and the last status is no failure
    obtain ⟨_, h, -⟩ | ⟨sequence, chain₁, -, hrest⟩ := bind_eq_some herror
    · cases h
    obtain ⟨_, h, -⟩ | ⟨simulated, chain₂, hsimulated, hrest⟩ := bind_eq_some hrest
    · cases h
    cases hsimulated
    obtain ⟨_, h, -⟩ | ⟨sent, chain₃, hsent, hrest⟩ := bind_eq_some hrest
    · exact request_ne_error h
    cases sendTransaction_answer _ _ _ _ _ _ trivial hsent
    obtain ⟨_, h, -⟩ | ⟨status, chain₄, hstatus, hrest⟩ := bind_eq_some hrest
    · obtain h | h := poll_returns _ hpolls _ _ _ trivial h
      · cases h
      · cases h
    obtain h | h := poll_returns _ hpolls _ _ _ trivial hstatus
    · cases h
      cases hrest
    · cases h
      cases hrest

/-- A call with an invariant for its attempts: it returns what is applied, or nothing is. -/
theorem withRetry_settled {connected : Bool} (operation : Operation)
    {answers : Nat → SubmitAnswers} (exchanges : Nat → SubmitExchanges) (retries : Nat)
    (hsettled : connected = true → Settled retries answers) :
    Holds Chain.Clean
      (withRetry (fun n => buildAndSubmit connected operation (answers n) (exchanges n)) retries)
      (Ends Chain.Clean Chain.Done) := by
  -- attempt `n` is made only if all before it threw, so they did not return
  refine Holds.retry fun n hn hbefore => ?_
  cases connected with
  | false => exact Holds.fail fun _ h => h
  | true =>
    refine buildAndSubmit_settled operation (exchanges n) (hsettled rfl n hn fun j hj => ?_)
    obtain ⟨chain, e, chain', herror⟩ := hbefore j hj
    exact not_returns_of_error herror

/-- A call that returns has executed its transaction once. -/
theorem onePerCall_of_done {α : Type} {outcome : Except SdkError α} {chain : Chain} {tx : Tx}
    (hok : outcome.isOk = true) (hdone : chain.Done tx) (later : List LedgerStep) :
    OnePerCall outcome chain later := by
  refine ⟨?_, fun _ => ?_, fun herror => ?_⟩
  · rw [(hdone.advance later).succeeded]
    exact Nat.le_refl 1
  · rw [hdone.succeeded]
    rfl
  · rw [hok] at herror
    cases herror

/-- A call that throws has executed none, and none will be. -/
theorem onePerCall_of_clean {α : Type} {outcome : Except SdkError α} {chain : Chain}
    (herror : outcome.isOk = false) (hclean : chain.Clean) (later : List LedgerStep) :
    OnePerCall outcome chain later := by
  have hnone := (hclean.advance later).succeeded
  refine ⟨?_, fun hok => ?_, fun _ => hnone⟩
  · rw [hnone]
    exact Nat.zero_le 1
  · rw [hok] at herror
    cases herror

/-- Both cases together. -/
theorem safe_of_holds {α : Type} {call : Rpc α} {Q : α → Chain → Prop}
    (h : Holds Chain.Clean call (Ends Chain.Clean Q))
    (hdone : ∀ a chain, Q a chain → ∃ tx, chain.Done tx) : Safe call := by
  intro sequence outcome chain hrun later
  have hends := h _ _ _ (Chain.clean_start sequence) hrun
  cases outcome with
  | ok a =>
    obtain ⟨tx, htx⟩ := hdone a chain hends
    exact onePerCall_of_done rfl htx later
  | error e => exact onePerCall_of_clean rfl hends later

/-- A tip is safe when every submission settles. -/
theorem sendTip_safe {connected : Bool} {params : TipParams} {answers : Nat → SubmitAnswers}
    (hsettled : connected = true → Settled 3 answers) (exchanges : Nat → SubmitExchanges) :
    Safe (sendTip connected params answers exchanges) := by
  refine safe_of_holds (Q := fun result => Chain.Done result.txHash) ?_ fun _ _ h => ⟨_, h⟩
  unfold sendTip
  split
  · exact Holds.fail fun _ h => h
  · exact (withRetry_settled _ exchanges 3 hsettled).bind (fun _ _ h => h)
      fun tx => Holds.pure fun _ h => h

/-- A read submits nothing, and returns only when its answers say so. -/
theorem getBalance_clean (reads : Nat → ReadAnswers) (exchanges : Nat → ReadExchanges) :
    Holds Chain.Clean (getBalance reads exchanges)
      (Ends Chain.Clean fun _ chain => chain.Clean ∧ ∃ i ≤ 3, (reads i).Returns) := by
  refine Holds.retry fun n hn _ => ?_
  refine (getAccount_clean _ _).bind (fun _ _ h => h.1) fun sequence => ?_
  refine Holds.assume fun haccount => ?_
  refine (simulateTransaction_clean _ _).bind (fun _ _ h => h.1) fun simulated => ?_
  cases simulated with
  | error text => exact Holds.fail fun _ h => h.1
  | ok retval =>
    exact Holds.pure fun _ h => ⟨h.1, n, hn, haccount sequence rfl, retval, h.2 _ rfl⟩

/-- A withdrawal too, once the balance has been read. -/
theorem withdraw_safe {connected : Bool} {caller creator to' : String} {amount : Option Int}
    {reads : Nat → ReadAnswers} {answers : Nat → SubmitAnswers}
    (hsettled : (∃ i ≤ 3, (reads i).Returns) → connected = true → Settled 3 answers)
    (readExchanges : Nat → ReadExchanges) (exchanges : Nat → SubmitExchanges) :
    Safe (withdraw connected caller creator to' amount reads readExchanges answers exchanges) := by
  refine safe_of_holds (Q := fun result => Chain.Done result.txHash) ?_ fun _ _ h => ⟨_, h⟩
  refine (getBalance_clean reads readExchanges).bind (fun _ _ h => h) fun balance => ?_
  refine Holds.assume fun hread => ?_
  exact (withRetry_settled _ exchanges 3 (hsettled hread)).bind (fun _ _ h => h)
    fun tx => Holds.pure fun _ h => h

end Safety

end Sdk
