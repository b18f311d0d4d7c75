import StellarTipjar.Sdk.TipJarContract

/-!
# One transaction per call

Against answers that leave open what has become of a transaction, the network may do the worst: it
applies each transaction whose result the client does not get to see, and none whose hash is returned
before the polls have found it. A call then pays twice, or something else than it reports
(`exists_violation`); so the calls that pay exactly what they report, whatever the network does, are
those whose answers settle each transaction (`one_per_call_iff`).
-/

namespace Sdk

open Lib Remote

/-! ## The ledger at its worst -/

section Ledger

/-- Nothing of the call is on its way, and what was included has used up its number. -/
structure Chain.Quiet (chain : Chain) : Prop where
  pool : chain.pool = []
  included : ∀ tx ∈ chain.succeeded ++ chain.failed, tx.sequence ≤ chain.sequence

/-- The transaction waits in the pool, and can be included next. -/
structure Chain.Waits (tx : Tx) (chain : Chain) : Prop where
  pool : chain.pool = [tx]
  next : tx.sequence = chain.sequence + 1
  included : ∀ tx ∈ chain.succeeded ++ chain.failed, tx.sequence ≤ chain.sequence

theorem Chain.Quiet.submit {chain : Chain} (h : chain.Quiet) {tx : Tx}
    (hnext : tx.sequence = chain.sequence + 1) :
    (chain.submit tx).Waits tx ∧ (chain.submit tx).succeeded = chain.succeeded := by
  have haccepts : chain.Accepts tx := by
    show chain.sequence < tx.sequence
    omega
  rw [Chain.submit, if_pos haccepts]
  exact ⟨⟨by simp [h.pool], hnext, h.included⟩, rfl⟩

theorem Chain.Waits.status {tx : Tx} {chain : Chain} (h : chain.Waits tx) :
    chain.status tx = .notFound := by
  have hfresh : tx ∉ chain.succeeded ++ chain.failed := by
    intro hmem
    have hle := h.included tx hmem
    have hnext := h.next
    omega
  rw [List.mem_append, not_or] at hfresh
  rw [Chain.status, if_neg hfresh.1, if_neg hfresh.2]

/-- What including the waiting transaction leaves. -/
theorem Chain.Waits.confirm {tx : Tx} {chain : Chain} (h : chain.Waits tx) (succeeds : Bool) :
    let chain' := chain.step (.confirm tx succeeds)
    chain'.Quiet ∧
    chain'.succeeded = (if succeeds then tx :: chain.succeeded else chain.succeeded) ∧
    chain'.status tx = if succeeds then .success else .failed := by
  obtain ⟨sequence, pool, succeeded, failed⟩ := chain
  obtain ⟨hpool, hnext, hincluded⟩ := h
  simp only at hpool hnext hincluded
  subst hpool
  -- nothing stands before the transaction, so the ledger can include it
  have hstep : (Chain.mk sequence [tx] succeeded failed).step (.confirm tx succeeds) =
      ⟨sequence + 1, [], if succeeds then tx :: succeeded else succeeded,
        if succeeds then failed else tx :: failed⟩ := by
    simp [Chain.step, hnext]
  have hfresh : tx ∉ succeeded := by
    intro hmem
    have hle := hincluded tx (List.mem_append_left _ hmem)
    omega
  have hused : ∀ t ∈ tx :: (succeeded ++ failed), t.sequence ≤ sequence + 1 := by
    intro t ht
    rcases List.mem_cons.mp ht with rfl | ht
    · omega
    · exact Nat.le_succ_of_le (hincluded t ht)
  rw [hstep]
  -- `status` asks for a success first, and the transaction is not among the earlier ones
  cases succeeds with
  | true => exact ⟨⟨rfl, hused⟩, rfl, by simp [Chain.status]⟩
  | false =>
    exact ⟨⟨rfl, fun t ht => hused t (List.perm_middle.mem_iff.mp ht)⟩, rfl,
      by simp [Chain.status, hfresh]⟩

end Ledger

/-! ## One attempt -/

section Attempt

/-- An exchange in which the ledger takes the steps before the request is served. -/
def Exchange.serving (before : List LedgerStep) : Exchange := ⟨before, [], true⟩

/-- What the ledger does before a poll with this answer. When the poll throws, the transaction
succeeds. -/
def worstSteps (tx : Tx) : Except String GetTransactionStatus → List LedgerStep
  | .ok .notFound => []
  | .ok .failed => [.confirm tx false]
  | .ok .success => [.confirm tx true]
  | .error _ => [.confirm tx true]

theorem getTransaction_worst {tx : Tx} {chain : Chain} (h : chain.Waits tx)
    (answer : Except String GetTransactionStatus) :
    getTransaction answer (.serving (worstSteps tx answer)) tx chain =
      some (answer.mapError .rpc, chain.advance (worstSteps tx answer)) := by
  cases answer with
  | error message => rfl
  | ok status =>
    refine request_of_ok (if_pos ?_)
    cases status with
    | notFound => exact h.status
    | success => exact (h.confirm true).2.2
    | failed => exact (h.confirm false).2.2

/-- How polling ends for a transaction that waits in the pool. -/
def PollEnds (tx : Tx) (chain : Chain) (attempts : Nat)
    (answers : Nat → Except String GetTransactionStatus) :
    Except SdkError GetTransactionStatus → Chain → Prop
  | .ok .success, chain' => PollSettles attempts answers ∧ PollReturns attempts answers ∧
      chain'.succeeded = tx :: chain.succeeded
  | .ok .failed, chain' => PollSettles attempts answers ∧ ¬ PollReturns attempts answers ∧
      chain'.Quiet ∧ chain'.succeeded = chain.succeeded
  | .ok .notFound, chain' => ¬ PollSettles attempts answers ∧ chain' = chain
  | .error _, chain' => ¬ PollSettles attempts answers ∧ chain'.Quiet ∧
      chain'.succeeded = tx :: chain.succeeded

/-- The first poll decides, unless it does not find the transaction. -/
theorem pollEnds_first {tx : Tx} {chain : Chain} (hwaits : chain.Waits tx) (attempts : Nat)
    {answers : Nat → Except String GetTransactionStatus} (hfound : answers 0 ≠ .ok .notFound) :
    PollEnds tx chain attempts answers ((answers 0).mapError .rpc)
      (chain.advance (worstSteps tx (answers 0))) := by
  -- no poll comes after one that finds the transaction or throws
  have hsettles : PollSettles attempts answers ↔
      answers 0 = .ok .success ∨ answers 0 = .ok .failed := by
    cases attempts with
    | zero => exact pollSettles_zero
    | succ attempts => simp [pollSettles_succ, hfound]
  have hreturns : PollReturns attempts answers ↔ answers 0 = .ok .success := by
    cases attempts with
    | zero => simp [pollReturns_zero, hfound]
    | succ attempts => simp [pollReturns_succ, hfound]
  cases hfirst : answers 0 with
  | error message =>
    refine ⟨?_, (hwaits.confirm true).1, (hwaits.confirm true).2.1⟩
    simp [hsettles, hfirst]
  | ok status =>
    cases status with
    | notFound => exact absurd hfirst hfound
    | success =>
      refine ⟨hsettles.mpr (.inl hfirst), hreturns.mpr hfirst, (hwaits.confirm true).2.1⟩
    | failed =>
      refine ⟨hsettles.mpr (.inr hfirst), ?_, (hwaits.confirm false).1,
        (hwaits.confirm false).2.1⟩
      simp [hreturns, hfirst]

theorem poll_worst {tx : Tx} {chain : Chain} (hwaits : chain.Waits tx) (attempts : Nat)
    (answers : Nat → Except String GetTransactionStatus) :
    ∃ result chain',
      poll tx attempts answers (fun n => .serving (worstSteps tx (answers n))) chain =
        some (result, chain') ∧ PollEnds tx chain attempts answers result chain' := by
  -- until a poll decides, the ledger stays as it was after the submission
  induction attempts generalizing answers with
  | zero =>
    refine ⟨_, _, getTransaction_worst hwaits (answers 0), ?_⟩
    by_cases hfound : answers 0 = .ok .notFound
    · rw [hfound]
      exact ⟨by simp [pollSettles_zero, hfound], rfl⟩
    · exact pollEnds_first hwaits 0 hfound
  | succ attempts ih =>
    have hpoll := getTransaction_worst hwaits (answers 0)
    by_cases hfound : answers 0 = .ok .notFound
    · obtain ⟨result, chain', hrest, hends⟩ := ih fun n => answers (n + 1)
      refine ⟨result, chain', ?_, ?_⟩
      · rw [hfound] at hpoll
        rw [poll, hfound, bind_of_ok hpoll]
        exact hrest
      · -- the rest of the polls decides
        have hsettles : PollSettles (attempts + 1) answers ↔
            PollSettles attempts fun n => answers (n + 1) := by
          simp [pollSettles_succ, hfound]
        have hreturns : PollReturns (attempts + 1) answers ↔
            PollReturns attempts fun n => answers (n + 1) := by
          simp [pollReturns_succ, hfound]
        cases result with
        | error e => exact ⟨mt hsettles.mp hends.1, hends.2⟩
        | ok status =>
          cases status with
          | notFound => exact ⟨mt hsettles.mp hends.1, hends.2⟩
          | success => exact ⟨hsettles.mpr hends.1, hreturns.mpr hends.2.1, hends.2.2⟩
          | failed => exact ⟨hsettles.mpr hends.1, mt hreturns.mp hends.2.1, hends.2.2⟩
    · refine ⟨_, _, ?_, pollEnds_first hwaits (attempts + 1) hfound⟩
      rw [poll]
      cases hfirst : answers 0 with
      | error message =>
        rw [hfirst] at hpoll
        exact bind_of_error hpoll
      | ok status =>
        rw [hfirst] at hpoll hfound
        rw [bind_of_ok hpoll, if_neg fun h => hfound (by rw [h])]
        rfl

/-- How an attempt can end, at worst. -/
inductive AttemptEnds (answers : SubmitAnswers) (chain : Chain) :
    Except SdkError Tx → Chain → Prop
  /-- It throws, and nothing is applied. -/
  | harmless {e : SdkError} {chain' : Chain} (hsettles : answers.Settles)
      (hthrows : ¬ answers.Returns) (hquiet : chain'.Quiet)
      (hsucceeded : chain'.succeeded = chain.succeeded) :
      AttemptEnds answers chain (.error e) chain'
  /-- It throws, but its transaction is applied. -/
  | hidden {e : SdkError} {tx : Tx} {chain' : Chain} (hopen : ¬ answers.Settles)
      (hquiet : chain'.Quiet) (hsucceeded : chain'.succeeded = tx :: chain.succeeded) :
      AttemptEnds answers chain (.error e) chain'
  /-- It returns, and its transaction is applied. -/
  | paid {tx : Tx} {chain' : Chain} (hsettles : answers.Settles) (hreturns : answers.Returns)
      (hsucceeded : chain'.succeeded = tx :: chain.succeeded) :
      AttemptEnds answers chain (.ok tx) chain'
  /-- It returns, but its transaction is still waiting. -/
  | unpaid {tx : Tx} {chain' : Chain} (hopen : ¬ answers.Settles) (hwaits : chain'.Waits tx)
      (hsucceeded : chain'.succeeded = chain.succeeded) :
      AttemptEnds answers chain (.ok tx) chain'

/-- The network at its worst towards a transaction: it refuses it only because another one has taken
its number, and applies it when the client cannot tell. -/
def worstExchanges (tx : Tx) (answers : SubmitAnswers) : SubmitExchanges where
  getAccount := .serving []
  simulateTransaction := .serving []
  sendTransaction :=
    match answers.sendTransaction with
    | .ok .pending => .serving []
    | .ok (.error _) => .serving [.other]
    | .error _ => ⟨[], [.confirm tx true], true⟩
  getTransaction := fun n => .serving (worstSteps tx (answers.getTransaction n))
  now := 0

/-- The part of an attempt after the simulation. -/
theorem submit_worst {chain : Chain} (hquiet : chain.Quiet) {tx : Tx}
    (hnext : tx.sequence = chain.sequence + 1) (answers : SubmitAnswers)
    (haccount : answers.getAccount = .ok ()) {resources : Nat}
    (hsimulated : answers.simulateTransaction = .ok (.success resources)) :
    ∃ result chain', submitPrepared answers (worstExchanges tx answers) tx chain =
        some (result, chain') ∧
        AttemptEnds answers chain result chain' := by
  obtain ⟨account, simulation, send, polls⟩ := answers
  simp only at haccount hsimulated
  subst haccount
  subst hsimulated
  obtain ⟨hwaits, hsame⟩ := hquiet.submit hnext
  have haccepts : chain.Accepts tx := by
    show chain.sequence < tx.sequence
    omega
  match send with
  -- the request has arrived, and only its answer is lost
  | .error message =>
    obtain ⟨hafter, hpaid, -⟩ := hwaits.confirm true
    rw [hsame] at hpaid
    exact ⟨_, _, bind_of_error rfl, .hidden (fun h => h) hafter hpaid⟩
  | .ok (.error errorResult) =>
    -- another transaction takes the number first
    have hstale : ¬ (chain.advance [.other]).Accepts tx := by
      show ¬ chain.sequence + 1 < tx.sequence
      omega
    have hsent : sendTransaction (.ok (.error errorResult)) (.serving [.other]) tx chain =
        some (.ok (.error errorResult), chain.advance [.other]) := request_of_ok (if_neg hstale)
    refine ⟨_, _, bind_of_ok hsent, .harmless trivial (fun h => h) ⟨hquiet.pool, fun t ht => ?_⟩ rfl⟩
    exact Nat.le_succ_of_le (hquiet.included t ht)
  | .ok .pending =>
    have hsent : sendTransaction (.ok .pending) (.serving []) tx chain =
        some (.ok .pending, chain.submit tx) := request_of_ok (if_pos haccepts)
    -- one poll before the loop and ten in it
    obtain ⟨result, chain', hpoll, hends⟩ := poll_worst hwaits 10 polls
    cases result with
    | error e =>
      obtain ⟨hopen, hafter, hpaid⟩ := hends
      rw [hsame] at hpaid
      exact ⟨_, _, (bind_of_ok hsent).trans (bind_of_error hpoll), .hidden hopen hafter hpaid⟩
    | ok status =>
      cases status with
      | notFound =>
        refine ⟨_, _, (bind_of_ok hsent).trans (bind_of_ok hpoll), ?_⟩
        obtain ⟨hopen, rfl⟩ := hends
        exact .unpaid hopen hwaits hsame
      | success =>
        refine ⟨_, _, (bind_of_ok hsent).trans (bind_of_ok hpoll), ?_⟩
        obtain ⟨hsettles, hreturns, hpaid⟩ := hends
        rw [hsame] at hpaid
        exact .paid hsettles hreturns hpaid
      | failed =>
        refine ⟨_, _, (bind_of_ok hsent).trans (bind_of_ok hpoll), ?_⟩
        obtain ⟨hsettles, hthrows, hafter, hnone⟩ := hends
        exact .harmless hsettles hthrows hafter (hnone.trans hsame)

theorem exists_attempt {chain : Chain} (hquiet : chain.Quiet) (operation : Operation)
    (answers : SubmitAnswers) :
    ∃ exchanges result chain',
      buildAndSubmit true operation answers exchanges chain = some (result, chain') ∧
        AttemptEnds answers chain result chain' := by
  let idle : SubmitExchanges :=
    ⟨.serving [], .serving [], .serving [], fun _ => .serving [], 0⟩
  obtain ⟨account, simulation, send, polls⟩ := answers
  match account, simulation with
  | .error message, _ =>
    exact ⟨idle, _, chain, rfl, .harmless trivial (fun h => h) hquiet rfl⟩
  | .ok _, .error message =>
    exact ⟨idle, _, chain, rfl, .harmless trivial (fun h => h) hquiet rfl⟩
  | .ok _, .ok (.error text) =>
    exact ⟨idle, _, chain, rfl, .harmless trivial (fun h => h) hquiet rfl⟩
  | .ok _, .ok (.success resources) =>
    let tx : Tx := ⟨operation, chain.sequence + 1, 0 + txTimeoutSec, resources⟩
    obtain ⟨result, chain', hrun, hends⟩ := submit_worst hquiet (show tx.sequence = _ from rfl)
      ⟨.ok (), .ok (.success resources), send, polls⟩ rfl rfl
    exact ⟨_, result, chain', hrun, hends⟩

end Attempt

/-! ## All attempts -/

section Attempts

variable {wrap : SdkError → SdkError}

/-- The attempts of a call. -/
def attempts (operation : Operation) (answers : Nat → SubmitAnswers)
    (exchanges : Nat → SubmitExchanges) (n : Nat) : Rpc Tx :=
  buildAndSubmit true operation (answers n) (exchanges n)

/-- The exchanges of the first attempt, and those of the rest. -/
def consExchanges (first : SubmitExchanges) (rest : Nat → SubmitExchanges) :
    Nat → SubmitExchanges
  | 0 => first
  | n + 1 => rest n

/-- An attempt that throws is followed by the others. -/
theorem retry_cons {operation : Operation} {answers : Nat → SubmitAnswers} {first : SubmitExchanges}
    {rest : Nat → SubmitExchanges} {retries : Nat} {chain chain' : Chain} {e : SdkError}
    {p : Except SdkError Tx × Chain}
    (hfirst : buildAndSubmit true operation (answers 0) first chain = some (.error e, chain'))
    (hrest : Remote.retry wrap retries (attempts operation (fun n => answers (n + 1)) rest) chain' =
      some p) :
    Remote.retry wrap (retries + 1) (attempts operation answers (consExchanges first rest)) chain =
      some p :=
  (retry_succ_of_error hfirst).trans hrest

/-- When something is already applied, an attempt that returns makes it two. -/
theorem AttemptEnds.second {answers : SubmitAnswers} {chain chain' : Chain} {tx : Tx}
    (h : AttemptEnds answers chain (.ok tx) chain') (hpaid : chain.succeeded ≠ []) :
    ∃ later, ¬ OnePerCall (.ok tx : Except SdkError Tx) chain' later := by
  have hone : 0 < chain.succeeded.length := List.length_pos_iff.mpr hpaid
  cases h with
  | paid _ _ hsucceeded =>
    refine ⟨[], fun h => ?_⟩
    have hmost := h.resolved rfl
    rw [hsucceeded, List.length_cons] at hmost
    omega
  | unpaid _ hwaits hsucceeded =>
    -- it is included after the call has returned
    refine ⟨[.confirm tx true], fun h => ?_⟩
    have hmost : (chain'.step (.confirm tx true)).succeeded.length ≤ 1 := h.atMostOne
    rw [(hwaits.confirm true).2.1, hsucceeded] at hmost
    simp only [if_true, List.length_cons] at hmost
    omega

theorem AttemptEnds.quiet {answers : SubmitAnswers} {chain chain' : Chain} {e : SdkError}
    (h : AttemptEnds answers chain (.error e) chain') :
    chain'.Quiet ∧ (chain.succeeded ≠ [] → chain'.succeeded ≠ []) := by
  cases h with
  | harmless _ _ hquiet hsucceeded => exact ⟨hquiet, by rw [hsucceeded]; exact id⟩
  | hidden _ hquiet hsucceeded => exact ⟨hquiet, fun _ => by rw [hsucceeded]; exact List.cons_ne_nil _ _⟩

theorem not_onePerCall_of_error {chain : Chain} (e : SdkError) (hpaid : chain.succeeded ≠ []) :
    ¬ OnePerCall (.error e : Except SdkError Tx) chain [] :=
  fun h => hpaid (h.rejected rfl)

/-- When something is already applied, further attempts cannot repair it. -/
theorem exists_second (operation : Operation) (retries : Nat) (answers : Nat → SubmitAnswers)
    {chain : Chain} (hquiet : chain.Quiet) (hpaid : chain.succeeded ≠ []) :
    ∃ exchanges result chain' later,
      Remote.retry wrap retries (attempts operation answers exchanges) chain =
        some (result, chain') ∧ ¬ OnePerCall result chain' later := by
  -- each attempt takes the next number, so what is applied stays, and another one may follow
  induction retries generalizing answers chain with
  | zero =>
    obtain ⟨first, result, chain', hrun, hends⟩ := exists_attempt hquiet operation (answers 0)
    refine ⟨fun _ => first, ?_⟩
    cases result with
    | ok tx =>
      obtain ⟨later, hviolated⟩ := hends.second hpaid
      exact ⟨_, chain', later, retry_of_ok hrun, hviolated⟩
    | error e =>
      exact ⟨_, chain', [], retry_zero_of_error hrun,
        not_onePerCall_of_error _ (hends.quiet.2 hpaid)⟩
  | succ retries ih =>
    obtain ⟨first, result, chain', hrun, hends⟩ := exists_attempt hquiet operation (answers 0)
    cases result with
    | ok tx =>
      obtain ⟨later, hviolated⟩ := hends.second hpaid
      exact ⟨fun _ => first, _, chain', later, retry_of_ok hrun, hviolated⟩
    | error e =>
      obtain ⟨rest, result, chain'', later, hrest, hviolated⟩ :=
        ih (fun n => answers (n + 1)) hends.quiet.1 (hends.quiet.2 hpaid)
      exact ⟨consExchanges first rest, result, chain'', later, retry_cons hrun hrest, hviolated⟩

/-- An attempt that does not settle its transaction pays without telling, or tells without paying. -/
theorem exists_violation_of_open (operation : Operation) (retries : Nat)
    (answers : Nat → SubmitAnswers) {chain : Chain} (hquiet : chain.Quiet)
    (hnone : chain.succeeded = []) (hopen : ¬ (answers 0).Settles) :
    ∃ exchanges result chain' later,
      Remote.retry wrap retries (attempts operation answers exchanges) chain =
        some (result, chain') ∧ ¬ OnePerCall result chain' later := by
  obtain ⟨first, result, chain', hrun, hends⟩ := exists_attempt hquiet operation (answers 0)
  cases hends with
  | harmless hsettles => exact absurd hsettles hopen
  | paid hsettles => exact absurd hsettles hopen
  -- a hash is returned, and nothing is applied when it is
  | unpaid _ _ hsucceeded =>
    refine ⟨fun _ => first, _, chain', [], retry_of_ok hrun, fun h => ?_⟩
    have hone := h.resolved rfl
    rw [hsucceeded, hnone] at hone
    cases hone
  | hidden _ hquiet' hsucceeded =>
    have hpaid : chain'.succeeded ≠ [] := by
      rw [hsucceeded]
      exact List.cons_ne_nil _ _
    -- paid although it throws: the last attempt rejects, any other one is repeated
    cases retries with
    | zero =>
      exact ⟨fun _ => first, _, chain', [], retry_zero_of_error hrun,
        not_onePerCall_of_error _ hpaid⟩
    | succ left =>
      obtain ⟨rest, result, chain'', later, hrest, hviolated⟩ :=
        exists_second operation left (fun n => answers (n + 1)) hquiet' hpaid
      exact ⟨consExchanges first rest, result, chain'', later, retry_cons hrun hrest, hviolated⟩

/-- The first attempt is open, or it throws and one of the others is. -/
theorem not_settled_cases {retries : Nat} {answers : Nat → SubmitAnswers}
    (h : ¬ Settled retries answers) :
    ¬ (answers 0).Settles ∨
      ¬ (answers 0).Returns ∧
        ∃ left, retries = left + 1 ∧ ¬ Settled left fun n => answers (n + 1) := by
  simp only [Settled, not_forall] at h
  obtain ⟨i, hi, hthrow, hopen⟩ := h
  cases i with
  | zero => exact .inl hopen
  | succ i =>
    refine .inr ⟨hthrow 0 (Nat.succ_pos i), retries - 1, by omega, fun hsettled => ?_⟩
    exact hopen (hsettled i (by omega) fun j hj => hthrow (j + 1) (by omega))

/-- A call whose answers do not settle its transactions can go wrong. -/
theorem exists_violation (operation : Operation) (retries : Nat) (answers : Nat → SubmitAnswers)
    {chain : Chain} (hquiet : chain.Quiet) (hnone : chain.succeeded = [])
    (hopen : ¬ Settled retries answers) :
    ∃ exchanges result chain' later,
      Remote.retry wrap retries (attempts operation answers exchanges) chain =
        some (result, chain') ∧ ¬ OnePerCall result chain' later := by
  -- attempts that settle and throw leave the ledger as it was, up to the first open one
  induction retries generalizing answers chain with
  | zero =>
    obtain hfirst | ⟨-, left, hleft, -⟩ := not_settled_cases hopen
    · exact exists_violation_of_open operation 0 answers hquiet hnone hfirst
    · cases hleft
  | succ retries ih =>
    by_cases hfirst : (answers 0).Settles
    · obtain hopen' | ⟨hthrows, left, hleft, hrest⟩ := not_settled_cases hopen
      · exact absurd hfirst hopen'
      cases hleft
      obtain ⟨first, result, chain', hrun, hends⟩ := exists_attempt hquiet operation (answers 0)
      cases hends with
      | hidden hopen' => exact absurd hfirst hopen'
      | unpaid hopen' => exact absurd hfirst hopen'
      | paid _ hreturns => exact absurd hreturns hthrows
      | harmless _ _ hquiet' hsucceeded =>
        obtain ⟨rest, result, chain'', later, hrun', hviolated⟩ :=
          ih (fun n => answers (n + 1)) hquiet' (hsucceeded.trans hnone) hrest
        exact ⟨consExchanges first rest, result, chain'', later, retry_cons hrun hrun', hviolated⟩
    · exact exists_violation_of_open operation (retries + 1) answers hquiet hnone hfirst

end Attempts

/-! ## Calls -/

section Calls

theorem Chain.quiet_start (sequence : Nat) : (Chain.start sequence).Quiet :=
  ⟨rfl, fun _ h => by cases h⟩

/-- A call whose transactions are not settled is not safe, against some network. -/
theorem exists_unsafe (operation : Operation) {answers : Nat → SubmitAnswers}
    (hopen : ¬ Settled 3 answers) :
    ∃ (exchanges : Nat → SubmitExchanges) (result : Except SdkError Tx) (chain : Chain)
        (later : List LedgerStep),
      withRetry (fun n => buildAndSubmit true operation (answers n) (exchanges n))
        3 (Chain.start 0) = some (result, chain) ∧ ¬ OnePerCall result chain later :=
  exists_violation operation 3 answers (Chain.quiet_start 0) rfl hopen

/-- The rest of a call only wraps the hash up. -/
theorem onePerCall_congr {α β : Type} {outcome : Except SdkError α} {outcome' : Except SdkError β}
    (hsame : outcome.isOk = outcome'.isOk) {chain : Chain} {later : List LedgerStep} :
    OnePerCall outcome chain later ↔ OnePerCall outcome' chain later := by
  constructor
  · exact fun h => ⟨h.atMostOne, hsame ▸ h.resolved, hsame ▸ h.rejected⟩
  · exact fun h => ⟨h.atMostOne, hsame.symm ▸ h.resolved, hsame.symm ▸ h.rejected⟩

theorem bind_pure_run {α β : Type} {m : Rpc α} (f : α → β) {chain chain' : Chain}
    {result : Except SdkError α} (h : m chain = some (result, chain')) :
    ∃ result' : Except SdkError β,
      (m >>= fun a => Pure.pure (f a)) chain = some (result', chain') ∧ result.isOk = result'.isOk := by
  cases result with
  | ok a => exact ⟨_, bind_of_ok h, rfl⟩
  | error e => exact ⟨_, bind_of_error h, rfl⟩

theorem sendTip_safe_iff (connected : Bool) (params : TipParams)
    (answers : Nat → SubmitAnswers) :
    (∀ exchanges, Safe (sendTip connected params answers exchanges)) ↔
      params.amount ≤ 0 ∨ connected = false ∨ Settled 3 answers := by
  constructor
  · intro hsafe
    by_contra hnot
    obtain ⟨hamount, hconnected, hopen⟩ :
        ¬ params.amount ≤ 0 ∧ connected = true ∧ ¬ Settled 3 answers := by
      simpa [not_or] using hnot
    obtain ⟨exchanges, result, chain, later, hrun, hviolated⟩ :=
      exists_unsafe (.tip params.tipper params.creator params.amount) hopen
    obtain ⟨result', hrun', hsame⟩ := bind_pure_run
      (fun txHash => TipResult.mk txHash params.creator params.amount) hrun
    have hcall : sendTip connected params answers exchanges (Chain.start 0) =
        some (result', chain) := by
      rw [sendTip, if_neg hamount, hconnected]
      exact hrun'
    exact hviolated ((onePerCall_congr hsame).mpr (hsafe exchanges 0 result' chain hcall later))
  · rintro (hamount | hconnected | hsettled) exchanges
    · refine safe_of_holds (Q := fun _ _ => False) ?_ fun _ _ h => h.elim
      rw [sendTip, if_pos hamount]
      exact Holds.fail fun _ h => h
    · exact sendTip_safe (fun h => by rw [hconnected] at h; cases h) exchanges
    · exact sendTip_safe (fun _ => hsettled) exchanges

/-- A read while nothing happens: it returns if its answers say so, and else throws. -/
theorem readBalance_idle (answers : ReadAnswers) (chain : Chain) :
    (∃ balance, readBalance answers ⟨.serving [], .serving []⟩ chain = some (.ok balance, chain)) ∨
      ¬ answers.Returns ∧
        ∃ e, readBalance answers ⟨.serving [], .serving []⟩ chain = some (.error e, chain) := by
  obtain ⟨account, simulation⟩ := answers
  match account, simulation with
  | .error message, _ => exact .inr ⟨fun h => (by cases h.1), _, rfl⟩
  | .ok _, .error message => exact .inr ⟨fun h => (by cases h.2.choose_spec), _, rfl⟩
  | .ok _, .ok (.error text) => exact .inr ⟨fun h => (by cases h.2.choose_spec), _, rfl⟩
  | .ok _, .ok (.ok retval) => exact .inl ⟨retval, rfl⟩

theorem exists_balance {wrap : SdkError → SdkError} {retries : Nat} {reads : Nat → ReadAnswers}
    (h : ∃ i ≤ retries, (reads i).Returns) (chain : Chain) :
    ∃ balance, Remote.retry wrap retries
        (fun n => readBalance (reads n) ⟨.serving [], .serving []⟩) chain =
      some (.ok balance, chain) := by
  induction retries generalizing reads with
  | zero =>
    obtain ⟨i, hi, hreturns⟩ := h
    obtain rfl : i = 0 := by omega
    obtain ⟨balance, hok⟩ | ⟨hnot, -⟩ := readBalance_idle (reads 0) chain
    · exact ⟨balance, retry_of_ok hok⟩
    · exact absurd hreturns hnot
  | succ retries ih =>
    obtain ⟨balance, hok⟩ | ⟨hnot, e, herror⟩ := readBalance_idle (reads 0) chain
    · exact ⟨balance, retry_of_ok hok⟩
    · obtain ⟨i, hi, hreturns⟩ := h
      cases i with
      | zero => exact absurd hreturns hnot
      | succ i =>
        have hlater : ∃ i ≤ retries, ((fun n => reads (n + 1)) i).Returns :=
          ⟨i, by omega, hreturns⟩
        obtain ⟨balance, hrest⟩ := ih hlater
        exact ⟨balance, (retry_succ_of_error herror).trans hrest⟩

theorem withdraw_safe_iff (connected : Bool) (caller creator to' : String) (amount : Option Int)
    (reads : Nat → ReadAnswers) (answers : Nat → SubmitAnswers) :
    (∀ readExchanges exchanges,
        Safe (withdraw connected caller creator to' amount reads readExchanges answers exchanges)) ↔
      (∀ i ≤ 3, ¬ (reads i).Returns) ∨ connected = false ∨ Settled 3 answers := by
  constructor
  · intro hsafe
    by_contra hnot
    obtain ⟨hread, hconnected, hopen⟩ :
        (∃ i ≤ 3, (reads i).Returns) ∧ connected = true ∧ ¬ Settled 3 answers := by
      simpa [not_or] using hnot
    obtain ⟨balance, hbalance⟩ := exists_balance hread (Chain.start 0)
    obtain ⟨exchanges, result, chain, later, hrun, hviolated⟩ :=
      exists_unsafe (.withdraw caller creator to' amount) hopen
    obtain ⟨result', hrun', hsame⟩ := bind_pure_run
      (fun txHash => WithdrawResult.mk txHash creator (amount.getD balance) to') hrun
    have hcall : withdraw connected caller creator to' amount reads
        (fun _ => ⟨.serving [], .serving []⟩) answers exchanges (Chain.start 0) =
          some (result', chain) := by
      rw [withdraw, hconnected]
      exact (bind_of_ok hbalance).trans hrun'
    exact hviolated ((onePerCall_congr hsame).mpr (hsafe _ exchanges 0 result' chain hcall later))
  · rintro (hreads | hconnected | hsettled) readExchanges exchanges
    · refine withdraw_safe (fun hread => ?_) readExchanges exchanges
      obtain ⟨i, hi, hreturns⟩ := hread
      exact absurd hreturns (hreads i hi)
    · exact withdraw_safe (fun _ h => by rw [hconnected] at h; cases h) readExchanges exchanges
    · exact withdraw_safe (fun _ _ => hsettled) readExchanges exchanges

/-- A call that tips or withdraws pays exactly what it reports, whatever the network does, if and only
if it submits nothing or the answers settle each transaction that it submits: each attempt ends before
it submits one, or is told that it is refused, or polls until it is told that it succeeded or failed. -/
theorem one_per_call_iff (connected : Bool) (answers : Nat → SubmitAnswers) :
    (∀ params : TipParams,
      (∀ exchanges, Safe (sendTip connected params answers exchanges)) ↔
        params.amount ≤ 0 ∨ connected = false ∨ Settled 3 answers) ∧
    ∀ (caller creator to' : String) (amount : Option Int) (reads : Nat → ReadAnswers),
      (∀ readExchanges exchanges,
          Safe (withdraw connected caller creator to' amount reads readExchanges answers
            exchanges)) ↔
        (∀ i ≤ 3, ¬ (reads i).Returns) ∨ connected = false ∨ Settled 3 answers :=
  ⟨fun params => sendTip_safe_iff connected params answers,
    fun caller creator to' amount reads =>
      withdraw_safe_iff connected caller creator to' amount reads answers⟩

end Calls

section Sample

def sampleTip : TipParams := { creator := "GB", amount := 100, tipper := "GA" }

def sampleTx (sequence : Nat) : Tx := ⟨.tip "GA" "GB" 100, sequence, 1700000030, 0⟩

/-- The answers of an attempt whose transaction is accepted, by how its polls go. -/
def accepted (poll : Except String GetTransactionStatus) : SubmitAnswers :=
  ⟨.ok (), .ok (.success 0), .ok .pending, fun _ => poll⟩

/-- The first poll of the first attempt times out, after the transaction has succeeded; the second
attempt is answered in full. -/
def timeoutAnswers : Nat → SubmitAnswers
  | 0 => accepted (.error "timeout of 10000ms exceeded")
  | _ => accepted (.ok .success)

def timeoutExchanges (n : Nat) : SubmitExchanges :=
  ⟨.serving [], .serving [], .serving [], fun _ => .serving [.confirm (sampleTx (8 + n)) true],
    1700000000⟩

/-- One call of `sendTip` that returns a hash, and two tips. -/
theorem tip_paid_twice :
    (∃ result chain,
      sendTip true sampleTip timeoutAnswers timeoutExchanges (Chain.start 7) =
        some (result, chain) ∧ result.isOk = true ∧ chain.succeeded = [sampleTx 9, sampleTx 8]) ∧
    ¬ Safe (sendTip true sampleTip timeoutAnswers timeoutExchanges) := by
  have hcall : (sendTip true sampleTip timeoutAnswers timeoutExchanges (Chain.start 7)).map
      (fun run => (run.1.isOk, run.2.succeeded)) = some (true, [sampleTx 9, sampleTx 8]) := by
    decide +kernel
  obtain ⟨⟨result, chain⟩, hrun, hends⟩ := Option.map_eq_some_iff.mp hcall
  obtain ⟨hok, hpaid⟩ := Prod.mk.inj hends
  refine ⟨⟨result, chain, hrun, hok, hpaid⟩, fun hsafe => ?_⟩
  have hone := (hsafe 7 result chain hrun []).resolved hok
  rw [hpaid] at hone
  cases hone

end Sample

end Sdk
