import StellarTipjar.TipJar.Accounting
import StellarTipjar.TipJar.Footprints

/-!
# TipJar — what the event log determines

An indexer sees only the published events. `Index` is its state: the counters it keeps, and the fee
of a `FeeCharged` event until the `Tip` it belongs to arrives. `books_indexed` says what the
indexer knows at the end of every run from `init`: every balance and every total exactly, and of
the fees what accrued per token; a `FeeWithdraw` event does not say which token it was paid in.

* `events_determine_ledger`: two runs with the same `Tip`, `FeeCharged` and `Withdraw` events end with
  the same balances and totals, and `index` reads these off the events.
* `events_determine_fees_iff`: and with the same fee balances just when the withdrawals of fees add
  up to the same per token.
-/

namespace TipJar

open Lib Soroban Contract

variable {X : Type}

/-! ## The books and the indexer -/

/-- The counters of the contract; `none` is an entry that does not exist. -/
structure Books where
  balance : Address → Address → Option Int
  total : Address → Address → Option Int
  fee : Address → Option Int

namespace Books

/-- Books are compared entry by entry. -/
theorem eq_of {a b : Books} (hbalance : ∀ c T, a.balance c T = b.balance c T)
    (htotal : ∀ c T, a.total c T = b.total c T) (hfee : ∀ T, a.fee T = b.fee T) : a = b := by
  obtain ⟨balance, total, fee⟩ := a
  obtain ⟨balance', total', fee'⟩ := b
  obtain rfl : balance = balance' := funext fun c => funext (hbalance c)
  obtain rfl : total = total' := funext fun c => funext (htotal c)
  obtain rfl : fee = fee' := funext hfee
  rfl

def empty : Books := ⟨fun _ _ => none, fun _ _ => none, fun _ => none⟩

/-- A tip; `charged` is the fee collected, `none` at a zero rate. -/
def tip (b : Books) (creator token : Address) (amount : Int) (charged : Option Int) : Books where
  balance c T :=
    if c = creator ∧ T = token then some ((b.balance c T).getD 0 + (amount - charged.getD 0))
    else b.balance c T
  total c T :=
    if c = creator ∧ T = token then some ((b.total c T).getD 0 + amount) else b.total c T
  fee T :=
    if T = token then charged.elim (b.fee T) fun f => some ((b.fee T).getD 0 + f) else b.fee T

def withdraw (b : Books) (creator token : Address) (amount : Int) : Books :=
  { b with
    balance := fun c T =>
      if c = creator ∧ T = token then some ((b.balance c T).getD 0 - amount) else b.balance c T }

/-- The books after a withdrawal of fees. -/
def withdrawFee (b : Books) (token : Address) (amount : Int) : Books :=
  { b with fee := fun T => if T = token then some ((b.fee T).getD 0 - amount) else b.fee T }

/-- Books that differ by `d` in a fee balance still do after a tip. A balance that does not exist
has nothing taken off it. -/
theorem tip_fee_sub {a b : Books} {T : Address} {d : Int}
    (h : a.fee T = (b.fee T).map fun accrued => accrued - d) (hzero : b.fee T = none → d = 0)
    (creator token : Address) (amount : Int) (charged : Option Int) :
    (a.tip creator token amount charged).fee T
      = ((b.tip creator token amount charged).fee T).map fun accrued => accrued - d := by
  simp only [tip]
  by_cases hT : T = token
  · rw [if_pos hT, if_pos hT]
    cases charged with
    | none => exact h
    | some fee =>
      cases haccrued : b.fee T with
      | none =>
        rw [haccrued] at h
        simp [h, hzero haccrued]
      | some accrued =>
        rw [haccrued] at h
        simp only [h, Option.map_some, Option.getD_some, Option.elim_some, Option.some.injEq]
        omega
  · rw [if_neg hT, if_neg hT]
    exact h

/-- A tip creates fee entries and removes none. -/
theorem fee_of_tip_none {b : Books} {T creator token : Address} {amount : Int}
    {charged : Option Int} (h : (b.tip creator token amount charged).fee T = none) :
    b.fee T = none := by
  simp only [tip] at h
  by_cases hT : T = token
  · rw [if_pos hT] at h
    cases charged with
    | none => exact h
    | some fee => cases h
  · rwa [if_neg hT] at h

end Books

structure Index where
  books : Books
  charged : Option Int

namespace Index

def empty : Index := ⟨.empty, none⟩

/-- One event. A charge comes just before its tip, so the indexer holds it until the tip tells it
the token. -/
def read (ix : Index) : Event → Index
  | .feeCharged _ _ fee _ => { ix with charged := some fee.val }
  | .tip creator token _ amount => ⟨ix.books.tip creator token amount.val ix.charged, none⟩
  | .withdraw creator token amount _ =>
    { ix with books := ix.books.withdraw creator token amount.val }
  | _ => ix

end Index

/-- What the indexer makes of a log. -/
def index (events : List Event) : Index := events.foldl Index.read .empty

/-- What the indexer sees: the `Tip`, `FeeCharged` and `Withdraw` events. -/
def Event.isLedger : Event → Bool
  | .tip .. | .feeCharged .. | .withdraw .. => true
  | _ => false

/-- The events of an indexer that knows nothing of fee schedules, payouts and roles. -/
def ledgerEvents (events : List Event) : List Event := events.filter Event.isLedger

/-- The indexer passes over the others. -/
theorem Index.read_of_not_isLedger (ix : Index) {e : Event} (h : e.isLedger = false) :
    ix.read e = ix := by
  cases e with
  | tip => cases h
  | withdraw => cases h
  | feeCharged => cases h
  | _ => rfl

/-- A selection that keeps what the indexer reads changes nothing. Induction on the log. -/
theorem foldl_read_filter {keep : Event → Bool} (hkeep : ∀ e, e.isLedger = true → keep e = true)
    (ix : Index) (events : List Event) :
    events.foldl Index.read ix = (events.filter keep).foldl Index.read ix := by
  induction events generalizing ix with
  | nil => rfl
  | cons e events ih =>
    cases he : keep e with
    | true =>
      rw [List.filter_cons_of_pos he, List.foldl_cons, List.foldl_cons]
      exact ih _
    | false =>
      have hskip : e.isLedger = false := by
        cases hledger : e.isLedger with
        | false => rfl
        | true => exact absurd (hkeep e hledger) (by rw [he]; exact Bool.false_ne_true)
      rw [List.filter_cons_of_neg (by rw [he]; exact Bool.false_ne_true), List.foldl_cons,
        ix.read_of_not_isLedger hskip]
      exact ih ix

/-- These are all events of money movements; the withdrawals of fees are the others. -/
theorem Event.isMoney_of_isLedger (e : Event) (h : e.isLedger = true) : e.isMoney = true := by
  cases e with
  | tip => rfl
  | withdraw => rfl
  | feeCharged => rfl
  | _ => cases h

/-- The indexer needs no other event. -/
theorem index_ledgerEvents (events : List Event) : index (ledgerEvents events) = index events :=
  (foldl_read_filter (fun _ h => h) .empty events).symm

/-- The counters in a storage. -/
def booksOf (s : Store DataKey DataKey.Val) : Books where
  balance c T := (s.get (.balance c T) : Option I128).map I128.val
  total c T := (s.get (.total c T) : Option I128).map I128.val
  fee T := (s.get (.feeBalanceToken T) : Option I128).map I128.val

/-- The counters as they are stored. -/
def books (w : World X) : Books := booksOf w.pers

section Writes

variable (s : Store DataKey DataKey.Val) (creator token : Address) (v : I128)

/-- What a write of one of the three counters does to the books. -/
theorem booksOf_set_balance :
    booksOf (s.set (.balance creator token) v) = { booksOf s with
      balance := fun c T =>
        if c = creator ∧ T = token then some v.val else (booksOf s).balance c T } := by
  refine Books.eq_of (fun c T => ?_) (fun c T => ?_) fun T => ?_
  · by_cases h : c = creator ∧ T = token
    · obtain ⟨rfl, rfl⟩ := h
      simp [booksOf]
    · have hne : DataKey.balance c T ≠ .balance creator token := by simpa using h
      simp only [booksOf, Store.get_set_of_ne _ hne, if_neg h]
  · simp [booksOf]
  · simp [booksOf]

theorem booksOf_set_total :
    booksOf (s.set (.total creator token) v) = { booksOf s with
      total := fun c T =>
        if c = creator ∧ T = token then some v.val else (booksOf s).total c T } := by
  refine Books.eq_of (fun c T => ?_) (fun c T => ?_) fun T => ?_
  · simp [booksOf]
  · by_cases h : c = creator ∧ T = token
    · obtain ⟨rfl, rfl⟩ := h
      simp [booksOf]
    · have hne : DataKey.total c T ≠ .total creator token := by simpa using h
      simp only [booksOf, Store.get_set_of_ne _ hne, if_neg h]
  · simp [booksOf]

theorem booksOf_set_fee :
    booksOf (s.set (.feeBalanceToken token) v) = { booksOf s with
      fee := fun T => if T = token then some v.val else (booksOf s).fee T } := by
  refine Books.eq_of (fun c T => ?_) (fun c T => ?_) fun T => ?_
  · simp [booksOf]
  · simp [booksOf]
  · by_cases h : T = token
    · subst h
      simp [booksOf]
    · have hne : DataKey.feeBalanceToken T ≠ .feeBalanceToken token := by simpa using h
      simp only [booksOf, Store.get_set_of_ne _ hne, if_neg h]

/-- No other entry is in the books. -/
theorem booksOf_congr {s t : Store DataKey DataKey.Val}
    (h : ∀ k, k.isLedger = true → t.get k = s.get k) : booksOf t = booksOf s := by
  refine Books.eq_of (fun c T => ?_) (fun c T => ?_) fun T => ?_
  · exact congrArg (Option.map I128.val) (h (.balance c T) rfl)
  · exact congrArg (Option.map I128.val) (h (.total c T) rfl)
  · exact congrArg (Option.map I128.val) (h (.feeBalanceToken T) rfl)

theorem getD_map_val (o : Option I128) : (o.map I128.val).getD 0 = (o.getD 0).val := by
  cases o <;> rfl

end Writes

/-! ## What a call reports -/

/-- The events a call adds, those about money among them. -/
def Publishes (w w' : World X) (money : List Event) : Prop :=
  ∃ new, w'.events = w.events ++ new ∧ new.filter Event.isMoney = money

/-- The events of a tip: at a zero rate there is no `FeeCharged`. -/
def tipEvents (sender creator token : Address) (amount : I128) (charged : Option I128) :
    List Event :=
  (charged.map fun fee => Event.feeCharged creator amount fee (amount - fee)).toList
    ++ [.tip creator token sender amount]

/-- What a call does to the books, and the events that report it. -/
inductive BooksStep (call : Call) (w w' : World X) : Prop where
  | tipped (sender creator token : Address) (amount : I128) (charged : Option I128)
      (entry : resolve w call.entry = .tip sender creator token amount)
      (events : Publishes w w' (tipEvents sender creator token amount charged))
      (books : books w' = (books w).tip creator token amount.val (charged.map I128.val))
  | withdrawn (caller creator token dest : Address) (amount : Option I128) (paid : I128)
      (entry : resolve w call.entry = .withdraw caller creator token dest amount)
      (events : Publishes w w' [.withdraw creator token paid dest])
      (books : books w' = (books w).withdraw creator token paid.val)
  | feesWithdrawn (caller token : Address) (amount : Option I128) (paid : I128)
      (entry : call.entry = .withdrawFees caller token amount)
      (events : Publishes w w' [.feeWithdraw caller paid])
      (present : ((books w).fee token).isSome)
      (books : books w' = (books w).withdrawFee token paid.val)
  | quiet (entry : (resolve w call.entry).movesMoney = false) (events : Publishes w w' [])
      (books : books w' = books w)

section Specs

variable {ctx : Ctx DataKey DataKey.Val Event Error X} {w : World X}

/-- The creator is credited the net amount, and the total counts the gross one. -/
theorem creditTip_books (creator token : Address) (amount fee : I128) :
    wp (creditTip creator token amount fee) ctx w fun _ w' =>
      ∃ b t : I128,
        b.val = ((w.pers.get (.balance creator token) : Option I128).getD 0).val
          + (amount - fee).val ∧
        t.val = ((w.pers.get (.total creator token) : Option I128).getD 0).val + amount.val ∧
        w'.pers = (w.pers.set (.balance creator token) b).set (.total creator token) t ∧
        w'.events = w.events ∧ w'.inst = w.inst := by
  simp only [creditTip, wp_bind, wp_persistentGet, wp_unwrapOrPanic, wp_persistentSet,
    wp_bumpPersistentTtl]
  intro _ _ newBalance hbalance newTotal htotal _ _ _ _ _ _
  rw [I128.checkedAdd_eq_some] at hbalance htotal
  exact ⟨newBalance, newTotal, hbalance, htotal, rfl, rfl, rfl⟩

/-- The fee goes to the pot of the token, and is reported without it. -/
theorem collectFee_books (hv1 : NoV1 w) (creator token : Address) (amount fee : I128) :
    wp (collectFee creator token amount fee) ctx w fun _ w' =>
      ∃ f : I128,
        f.val = ((w.pers.get (.feeBalanceToken token) : Option I128).getD 0).val + fee.val ∧
        w'.pers = w.pers.set (.feeBalanceToken token) f ∧
        w'.events = w.events ++ [.feeCharged creator amount fee (amount - fee)] := by
  simp only [collectFee, wp_bind]
  refine maybeMigrateFeeBalance_noV1 hv1 token ?_
  simp only [wp_persistentGet, wp_unwrapOrPanic, wp_persistentSet, wp_bumpPersistentTtl,
    wp_publish]
  intro _ newFee hnew _ _ _
  rw [I128.checkedAdd_eq_some] at hnew
  exact ⟨newFee, hnew, rfl, rfl⟩

end Specs

section Settling

variable {ctx : Ctx DataKey DataKey.Val Event Error X} {w : World X}

/-- A matured payout change is applied and reported on the way; neither is money. -/
theorem applyPendingPayout_books (creator : Address) :
    wp (applyPendingPayout creator) ctx w fun _ w' =>
      Publishes w w' [] ∧ booksOf w'.pers = booksOf w.pers := by
  simp only [applyPendingPayout, wp_bind, wp_persistentGet, wp_ifSome, wp_ledgerSequence,
    wp_onlyIf, wp_persistentSet, wp_bumpPersistentTtl, wp_persistentRemove, wp_publish]
  intro _
  refine ⟨fun _ => ⟨⟨[], by simp, rfl⟩, trivial⟩, fun pending _ => ⟨fun _ _ _ _ _ => ⟨?_, ?_⟩,
    fun _ => ⟨⟨[], by simp, rfl⟩, trivial⟩⟩⟩
  · exact ⟨[.payoutChangeApplied creator pending.1], rfl, rfl⟩
  · refine booksOf_congr fun k hk => ?_
    have hk₁ : k ≠ .payoutAddress creator := by rintro rfl; cases hk
    have hk₂ : k ≠ .pendingPayoutChange creator := by rintro rfl; cases hk
    simp [hk₁, hk₂]

/-- What a withdrawal does before it pays moves no counter and reports no money. -/
theorem settled_books (creator caller : Address) (paid : I128) :
    wp (onlyIf (caller ≠ creator) (spendAllowance creator caller paid)) ctx w fun _ w₁ =>
      wp (applyPendingPayout creator) ctx w₁ fun _ w₂ =>
        wp (currentPayoutAddress creator) ctx w₂ fun _ w' =>
          Publishes w w' [] ∧ booksOf w'.pers = booksOf w.pers := by
  refine wp_mono (onlyIf_spendAllowance_spec creator caller paid) ?_
  rintro _ w₁ ⟨honly, -, hframe⟩
  refine wp_mono (applyPendingPayout_books creator) ?_
  rintro _ w₂ ⟨⟨new, hevents, hmoney⟩, hbooks⟩
  refine wp_mono (currentPayoutAddress_spec creator) ?_
  rintro payout w₃ ⟨-, honly₃, hpers₃⟩
  refine ⟨⟨new, ?_, hmoney⟩, ?_⟩
  · rw [honly₃.events, hevents, honly.events]
  · rw [hpers₃, hbooks]
    refine booksOf_congr fun k hk => hframe k ?_
    rintro _ rfl
    cases hk

end Settling

section Steps

variable {chain : Chain X} {sequence : UInt32} {auth : List Address} {w w' : World X}

/-- The books after the writes of a tip without a fee. -/
theorem booksOf_credited {s : Store DataKey DataKey.Val} {creator token : Address} {b t : I128}
    {amount net : Int}
    (hb : b.val = ((s.get (.balance creator token) : Option I128).getD 0).val + net)
    (ht : t.val = ((s.get (.total creator token) : Option I128).getD 0).val + amount) :
    booksOf ((s.set (.balance creator token) b).set (.total creator token) t)
      = { booksOf s with
        balance := fun c T => if c = creator ∧ T = token
          then some (((booksOf s).balance c T).getD 0 + net) else (booksOf s).balance c T
        total := fun c T => if c = creator ∧ T = token
          then some (((booksOf s).total c T).getD 0 + amount) else (booksOf s).total c T } := by
  rw [booksOf_set_total, booksOf_set_balance]
  refine Books.eq_of (fun c T => ?_) (fun c T => ?_) fun T => ?_
  · by_cases h : c = creator ∧ T = token
    · obtain ⟨rfl, rfl⟩ := h
      simp [booksOf, hb, getD_map_val]
    · simp [h]
  · by_cases h : c = creator ∧ T = token
    · obtain ⟨rfl, rfl⟩ := h
      simp [booksOf, ht, getD_map_val]
    · simp [h]
  · rfl

/-- A successful tip reports the charge, when the rate is not zero, and then itself. -/
theorem tip_books (hv1 : NoV1 w) (sender creator token : Address) (amount : I128) :
    wp (tip sender creator token amount) (chain.ctx sequence auth) w fun _ w' =>
      ∃ charged : Option I128,
        Publishes w w' (tipEvents sender creator token amount charged) ∧
        books w' = (books w).tip creator token amount.val (charged.map I128.val) := by
  simp only [tip, wp_bind, wp_requireAuth, wp_checkNotPaused, wp_panicIf, wp_ensureInitialized,
    wp_ensureTokenAllowed]
  intro _ _ hamount _ _
  have hpos : 0 ≤ amount.val := (not_le.mp hamount : 0 < amount.val).le
  refine maybeMigrateCreatorData_noV1 hv1 creator token ?_
  simp only [wp_instanceGet, wp_feeFor, wp_currentContractAddress, wp_tokenTransfer, wp_onlyIf,
    wp_bumpInstanceTtl, wp_publish]
  intro fee hfee x _
  obtain ⟨-, hnet⟩ := feeOf_net hpos hfee
  refine wp_mono (creditTip_books creator token amount fee) ?_
  rintro _ w₁ ⟨b, t, hb, ht, hpers, hevents, -⟩
  rw [hnet] at hb
  have hbooks := booksOf_credited hb ht
  refine ⟨fun _ => ?_, fun hzero => ⟨none, ?_, ?_⟩⟩
  · -- the fee is charged after the tip was credited, to another counter
    have hv1' : NoV1 w₁ := by
      intro k hk
      have hk₁ : k ≠ .balance creator token := by rintro rfl; cases hk
      have hk₂ : k ≠ .total creator token := by rintro rfl; cases hk
      rw [hpers, Store.get_set_of_ne _ hk₂, Store.get_set_of_ne _ hk₁]
      exact hv1 k hk
    refine wp_mono (collectFee_books hv1' creator token amount fee) ?_
    rintro _ w₂ ⟨f, hf, hpers₂, hevents₂⟩
    refine ⟨some fee, ⟨[.feeCharged creator amount fee (amount - fee),
      .tip creator token sender amount], ?_, rfl⟩, ?_⟩
    · rw [Env.publish_events, Env.bumpInstance_events, hevents₂, hevents]
      simp
    · have hf' : f.val
          = ((w.pers.get (.feeBalanceToken token) : Option I128).getD 0).val + fee.val := by
        rw [hf, hpers]
        simp
      show booksOf w₂.pers = _
      rw [hpers₂, hpers, booksOf_set_fee, hbooks]
      refine Books.eq_of (fun c T => ?_) (fun c T => ?_) fun T => ?_
      · rfl
      · rfl
      · by_cases h : T = token
        · subst h
          simp [Books.tip, books, booksOf, hf', getD_map_val]
        · simp [Books.tip, books, h]
  · -- at a rate of zero there is no charge
    refine ⟨[.tip creator token sender amount], ?_, rfl⟩
    rw [Env.publish_events, Env.bumpInstance_events, hevents]
    rfl
  · show booksOf w₁.pers = _
    rw [hpers]
    refine hbooks.trans ?_
    rw [feeOf_zero_rate hzero hfee]
    refine Books.eq_of (fun c T => ?_) (fun c T => ?_) fun T => ?_
    · rfl
    · rfl
    · simp [Books.tip, books]

/-- A successful withdrawal reports what it has paid. -/
theorem withdraw_books (hv1 : NoV1 w) (caller creator token dest : Address)
    (amount : Option I128) :
    wp (withdraw caller creator token dest amount) (chain.ctx sequence auth) w fun _ w' =>
      ∃ paid : I128, Publishes w w' [.withdraw creator token paid dest] ∧
        books w' = (books w).withdraw creator token paid.val := by
  simp only [withdraw, wp_bind, wp_requireAuth, wp_checkNotPaused, wp_ensureInitialized]
  intro _ _ _
  refine maybeMigrateCreatorData_noV1 hv1 creator token ?_
  simp only [wp_persistentGet, wp_panicIf]
  intro _ _ hamount
  obtain ⟨balance, hbalance⟩ :
      ∃ balance, balance = (w.pers.get (.balance creator token) : Option I128).getD 0 := ⟨_, rfl⟩
  obtain ⟨paid, hpaid⟩ : ∃ paid, paid = amount.getD balance := ⟨_, rfl⟩
  rw [← hbalance, ← hpaid] at hamount ⊢
  obtain ⟨-, -, hsub⟩ := I128.val_take hamount
  -- the allowance and the payout address are settled before the payment
  refine wp_mono (settled_books creator caller paid) fun _ w₁ hsettle => ?_
  refine wp_mono hsettle fun _ w₂ hsettle => wp_mono hsettle fun payout w₃ hsettled => ?_
  obtain ⟨⟨new, hevents, hmoney⟩, hcounters⟩ := hsettled
  simp only [wp_currentContractAddress, wp_tokenTransfer, wp_persistentSet,
    wp_bumpPersistentTtl, wp_bumpInstanceTtl, wp_publish]
  intro hdest x _ _ _ _
  obtain rfl : dest = payout := not_not.mp hdest
  refine ⟨paid, ⟨new ++ [.withdraw creator token paid dest], ?_, ?_⟩, ?_⟩
  · rw [Env.publish_events, Env.bumpInstance_events, Env.bumpPersistent_events,
      Env.setPersistent_events, Env.transferred_events, hevents, List.append_assoc]
  · rw [List.filter_append, hmoney]
    rfl
  · show booksOf (w₃.pers.set (.balance creator token) (balance - paid)) = _
    rw [booksOf_set_balance, hcounters]
    refine Books.eq_of (fun c T => ?_) (fun c T => ?_) fun T => ?_
    · by_cases h : c = creator ∧ T = token
      · obtain ⟨rfl, rfl⟩ := h
        simp [Books.withdraw, books, booksOf, getD_map_val, ← hbalance, hsub]
      · simp [Books.withdraw, books, h]
    · rfl
    · rfl

/-- A withdrawal of fees reports its amount only; the pot it names is there. -/
theorem withdrawFees_books (hv1 : NoV1 w) (caller token : Address) (amount : Option I128) :
    wp (withdrawFees caller token amount) (chain.ctx sequence auth) w fun _ w' =>
      ∃ paid : I128, Publishes w w' [.feeWithdraw caller paid] ∧
        ((books w).fee token).isSome ∧ books w' = (books w).withdrawFee token paid.val := by
  simp only [withdrawFees, wp_bind, wp_requireAuth, wp_instanceGet, wp_unwrapOrPanic, wp_panicIf]
  intro _ collector _ hcaller
  obtain rfl : caller = collector := not_not.mp hcaller
  refine maybeMigrateFeeBalance_noV1 hv1 token ?_
  simp only [wp_persistentGet, wp_currentContractAddress, wp_tokenTransfer, wp_persistentSet,
    wp_bumpPersistentTtl, wp_bumpInstanceTtl, wp_publish]
  intro _ hnonzero hamount x _ _ _ _
  obtain ⟨balance, hbalance⟩ :
      ∃ balance, balance = (w.pers.get (.feeBalanceToken token) : Option I128).getD 0 := ⟨_, rfl⟩
  obtain ⟨paid, hpaid⟩ : ∃ paid, paid = amount.getD balance := ⟨_, rfl⟩
  rw [← hbalance] at hnonzero
  rw [← hbalance, ← hpaid] at hamount ⊢
  obtain ⟨-, -, hsub⟩ := I128.val_take hamount
  refine ⟨paid, ⟨[.feeWithdraw caller paid], rfl, rfl⟩, ?_, ?_⟩
  · cases hget : (w.pers.get (.feeBalanceToken token) : Option I128) with
    | none =>
      rw [hget] at hbalance
      exact absurd hbalance hnonzero
    | some v => simp [books, booksOf, hget]
  · show booksOf (w.pers.set (.feeBalanceToken token) (balance - paid)) = _
    rw [booksOf_set_fee]
    refine Books.eq_of (fun c T => ?_) (fun c T => ?_) fun T => ?_
    · rfl
    · rfl
    · by_cases h : T = token
      · subst h
        simp [Books.withdrawFee, books, booksOf, getD_map_val, ← hbalance, hsub]
      · simp [Books.withdrawFee, books, h]

/-- The v1 entrypoints are the others, of the first token on the list. -/
theorem tipLegacy_books (hv1 : NoV1 w) (sender creator : Address) (amount : I128) :
    wp (tipLegacy sender creator amount) (chain.ctx sequence auth) w fun _ w' =>
      ∀ token, (allowlist w).head? = some token → ∃ charged : Option I128,
        Publishes w w' (tipEvents sender creator token amount charged) ∧
        books w' = (books w).tip creator token amount.val (charged.map I128.val) := by
  simp only [tipLegacy, wp_bind, wp_getTokens, wp_unwrapOrPanic]
  intro _ token htoken
  refine wp_mono (tip_books hv1 sender creator token amount) ?_
  intro _ w' h token' htoken'
  obtain rfl : token = token' := Option.some.inj (htoken.symm.trans htoken')
  exact h

theorem withdrawLegacy_books (hv1 : NoV1 w) (caller creator dest : Address)
    (amount : Option I128) :
    wp (withdrawLegacy caller creator dest amount) (chain.ctx sequence auth) w fun _ w' =>
      ∀ token, (allowlist w).head? = some token → ∃ paid : I128,
        Publishes w w' [.withdraw creator token paid dest] ∧
        books w' = (books w).withdraw creator token paid.val := by
  simp only [withdrawLegacy, wp_bind, wp_getTokens, wp_unwrapOrPanic]
  intro _ token htoken
  refine wp_mono (withdraw_books hv1 caller creator token dest amount) ?_
  intro _ w' h token' htoken'
  obtain rfl : token = token' := Option.some.inj (htoken.symm.trans htoken')
  exact h

end Steps

/-! ## Every call

The effects of `Effects` say which entries a call writes. Here they are joined with what it reports:
every successful call is one of the three money movements, or quiet. -/

section Calls

variable {chain : Chain X} {call : Call} {w w' : World X} {r : Ret}

/-- What reports no money does so in sequence. -/
theorem Publishes.trans_nil {w₁ : World X} (h : Publishes w w₁ []) (h' : Publishes w₁ w' []) :
    Publishes w w' [] := by
  obtain ⟨new, hevents, hmoney⟩ := h
  obtain ⟨new', hevents', hmoney'⟩ := h'
  refine ⟨new ++ new', ?_, ?_⟩
  · rw [hevents', hevents, List.append_assoc]
  · rw [List.filter_append, hmoney, hmoney']
    rfl

/-- Nor does what reports nothing. -/
theorem publishes_of_eq (h : w'.events = w.events) : Publishes w w' [] :=
  ⟨[], by rw [h, List.append_nil], rfl⟩

/-- A call that cannot call a token reports no money. -/
theorem quiet_events (hcalls : call.entry.callsToken = false)
    (h : exec chain call w = .ok (r, w')) : Publishes w w' [] := by
  refine exec_post (Q := fun _ w' => Publishes w w' []) ?_ h
  refine (program_footprint call.entry).guarantee (R := fun w w' => Publishes w w' [])
    (fun _ => publishes_of_eq rfl) (fun _ _ _ h₁ h₂ => h₁.trans_nil h₂) ?_ ?_ w
  · intro _ _ hpart env
    cases hpart with
    | check f _ => exact (wp_checkNotPaused f.flag).mpr fun _ => publishes_of_eq rfl
  · -- only an operation that publishes can add to the log
    intro op env env' hallows hperforms
    cases op with
    | loadInstance => exact hallows.elim
    | readInstance k => exact publishes_of_eq (congrArg Env.events hperforms)
    | setInstance k =>
      obtain ⟨v, rfl⟩ := hperforms
      exact publishes_of_eq rfl
    | removeInstance k =>
      obtain rfl : env' = env.removeInstance k := hperforms
      exact publishes_of_eq rfl
    | bumpInstance =>
      obtain ⟨n, m, rfl⟩ := hperforms
      exact publishes_of_eq rfl
    | readPersistent k => exact publishes_of_eq (congrArg Env.events hperforms)
    | setPersistent k =>
      obtain ⟨v, rfl⟩ := hperforms
      exact publishes_of_eq rfl
    | removePersistent k =>
      obtain rfl : env' = env.removePersistent k := hperforms
      exact publishes_of_eq rfl
    | bumpPersistent k =>
      obtain ⟨n, m, rfl⟩ := hperforms
      exact publishes_of_eq rfl
    | transfer =>
      rw [allows_transfer, hcalls] at hallows
      cases hallows
    | publish e =>
      rw [allows_publish, hcalls] at hallows
      have hquiet : e.isMoney = false := hallows.resolve_left Bool.false_ne_true
      refine ⟨[e], congrArg Env.events hperforms, ?_⟩
      simp [hquiet]
    | updateWasm =>
      obtain ⟨hash, rfl⟩ := hperforms
      exact publishes_of_eq rfl

/-- The getters migrate nothing: there is no v1 entry. -/
theorem query_books (hv1 : NoV1 w) (hentry : call.entry.isQuery = true)
    (h : exec chain call w = .ok (r, w')) : books w' = books w := by
  refine exec_post (Q := fun _ w' => books w' = books w) ?_ h
  obtain ⟨sequence, auth, entry⟩ := call
  cases entry with
  | getTotalTips creator token =>
    simp only [program, getTotalTips, wp_bind]
    exact maybeMigrateCreatorData_noV1 hv1 creator token (by simp)
  | getBalance creator token =>
    simp only [program, getBalance, wp_bind]
    exact maybeMigrateCreatorData_noV1 hv1 creator token (by simp)
  | getFeeBalance token =>
    simp only [program, getFeeBalance, wp_bind]
    exact maybeMigrateFeeBalance_noV1 hv1 token (by simp)
  | getTotalTipsLegacy creator =>
    simp only [program, getTotalTipsLegacy, wp_bind, wp_getTokens]
    intro _
    cases (allowlist w).head? with
    | none => simp
    | some token =>
      simp only [getTotalTips, wp_bind]
      exact maybeMigrateCreatorData_noV1 hv1 creator token (by simp)
  | _ => cases hentry

/-- A write of an entry that is no counter leaves the books. -/
theorem WritesEntry.books_eq {k : DataKey} {v : Option (DataKey.Val k)}
    (h : WritesEntry k v w w') (hk : k.isLedger = false) : books w' = books w := by
  refine booksOf_congr fun j hj => h.frame j ?_
  rintro rfl
  rw [hk] at hj
  cases hj

/-- What a successful call does to the books and to the log. The form of the call is that of its
effect; the amounts and the events are read off the functions again, since the effect says nothing
of them. -/
theorem books_step (hv1 : NoV1 w) (h : exec chain call w = .ok (r, w')) : BooksStep call w w' := by
  have heffect := exec_effect h
  cases heffect with
  | tipped sender creator token amount fee entry _ =>
    rcases resolve_eq_tip entry with ht | ⟨ht, htoken⟩
    · obtain ⟨charged, hevents, hbooks⟩ :=
        exec_spec h (by rw [ht]; rfl) (tip_books hv1 sender creator token amount)
      exact .tipped sender creator token amount charged entry hevents hbooks
    · obtain ⟨charged, hevents, hbooks⟩ :=
        exec_spec h (by rw [ht]; rfl) (tipLegacy_books hv1 sender creator amount) token htoken
      exact .tipped sender creator token amount charged entry hevents hbooks
  | withdrawn caller creator token dest amount paid entry _ =>
    rcases resolve_eq_withdraw entry with hw | ⟨hw, htoken⟩
    · obtain ⟨paid, hevents, hbooks⟩ :=
        exec_spec h (by rw [hw]; rfl) (withdraw_books hv1 caller creator token dest amount)
      exact .withdrawn caller creator token dest amount paid entry hevents hbooks
    · obtain ⟨paid, hevents, hbooks⟩ :=
        exec_spec h (by rw [hw]; rfl) (withdrawLegacy_books hv1 caller creator dest amount)
          token htoken
      exact .withdrawn caller creator token dest amount paid entry hevents hbooks
  | feesWithdrawn caller token amount paid entry _ =>
    obtain ⟨paid, hevents, hpresent, hbooks⟩ :=
      exec_spec h (by rw [entry]; rfl) (withdrawFees_books hv1 caller token amount)
    exact .feesWithdrawn caller token amount paid entry hevents hpresent hbooks
  | queried entry _ =>
    have hcalls : call.entry.callsToken = false := by
      cases hentry : call.entry <;> rw [hentry] at entry <;> first | rfl | cases entry
    exact .quiet (movesMoney_of_isQuery entry) (quiet_events hcalls h) (query_books hv1 entry h)
  | payoutProposed _ _ entry _ hwrites =>
    exact .quiet (by rw [entry]; rfl) (quiet_events (by rw [entry]; rfl) h) (hwrites.books_eq rfl)
  | payoutCancelled _ entry _ _ hwrites =>
    exact .quiet (by rw [entry]; rfl) (quiet_events (by rw [entry]; rfl) h) (hwrites.books_eq rfl)
  | operatorSet _ _ _ _ entry _ hwrites =>
    exact .quiet (by rw [entry]; rfl) (quiet_events (by rw [entry]; rfl) h) (hwrites.books_eq rfl)
  | operatorRevoked _ _ entry _ hwrites =>
    exact .quiet (by rw [entry]; rfl) (quiet_events (by rw [entry]; rfl) h) (hwrites.books_eq rfl)
  | governed entry pers =>
    have hcalls : call.entry.callsToken = false := by
      cases hentry : call.entry <;> rw [hentry] at entry <;> first | rfl | cases entry
    exact .quiet (movesMoney_of_isGovernance entry) (quiet_events hcalls h)
      (congrArg booksOf pers)

end Calls

/-! ## What the indexer knows -/

/-- The token a `withdraw_fees` call names. -/
def Entrypoint.feeToken : Entrypoint → Option Address
  | .withdrawFees _ token _ => some token
  | _ => none

/-- The tokens that the successful `withdraw_fees` calls name, in order. -/
def feeTokens (chain : Chain X) (tr : List (Occ (World X) (Action X))) : List Address :=
  tr.filterMap fun o => (entryAt chain o).bind Entrypoint.feeToken

/-- The amount of a withdrawal of fees, all that its event tells. -/
def Event.feeWithdrawn : Event → Option Int
  | .feeWithdraw _ amount => some amount.val
  | _ => none

/-- The amounts of the `FeeWithdraw` events, in order. -/
def feeWithdrawals (events : List Event) : List Int := events.filterMap Event.feeWithdrawn

/-- What the withdrawals in `T` add up to, when the `i`-th amount was paid in the `i`-th token. -/
def drawn (tokens : List Address) (amounts : List Int) (T : Address) : Int :=
  ((tokens.zip amounts).map fun p => if p.1 = T then p.2 else 0).sum

/-- The indexer has the balances and the totals; of a fee balance it lacks what was withdrawn. -/
structure Indexed (chain : Chain X) (tr : List (Occ (World X) (Action X))) (w : World X) :
    Prop where
  charged : (index w.events).charged = none
  balance : (index w.events).books.balance = (books w).balance
  total : (index w.events).books.total = (books w).total
  length : (feeTokens chain tr).length = (feeWithdrawals w.events).length
  fee : ∀ T, (books w).fee T = ((index w.events).books.fee T).map fun accrued =>
    accrued - drawn (feeTokens chain tr) (feeWithdrawals w.events) T
  undrawn : ∀ T, (index w.events).books.fee T = none →
    drawn (feeTokens chain tr) (feeWithdrawals w.events) T = 0

section Log

variable {events new money : List Event}

/-- The indexer reads on where it stopped, and needs the events of money movements only. -/
theorem index_append (hmoney : new.filter Event.isMoney = money) :
    index (events ++ new) = money.foldl Index.read (index events) := by
  rw [index, List.foldl_append, foldl_read_filter Event.isMoney_of_isLedger, hmoney]
  rfl

theorem feeWithdrawals_filter (events : List Event) :
    feeWithdrawals (events.filter Event.isMoney) = feeWithdrawals events := by
  rw [feeWithdrawals, feeWithdrawals, List.filterMap_filter]
  refine List.filterMap_congr fun e _ => ?_
  cases e <;> rfl

/-- The withdrawals of fees of a longer log. -/
theorem feeWithdrawals_append (hmoney : new.filter Event.isMoney = money) :
    feeWithdrawals (events ++ new) = feeWithdrawals events ++ feeWithdrawals money := by
  rw [← hmoney, feeWithdrawals_filter]
  exact List.filterMap_append

/-- One more withdrawal counts for the token it names. -/
theorem drawn_append {tokens : List Address} {amounts : List Int}
    (h : tokens.length = amounts.length) (token : Address) (amount : Int) (T : Address) :
    drawn (tokens ++ [token]) (amounts ++ [amount]) T
      = drawn tokens amounts T + if token = T then amount else 0 := by
  simp [drawn, List.zip_append h]

/-- The events of a tip make of the indexer's books what the tip made of the contract's. -/
theorem foldl_tipEvents {ix : Index} (h : ix.charged = none) (sender creator token : Address)
    (amount : I128) (charged : Option I128) :
    (tipEvents sender creator token amount charged).foldl Index.read ix
      = ⟨ix.books.tip creator token amount.val (charged.map I128.val), none⟩ := by
  cases charged with
  | none => simp [tipEvents, Index.read, h]
  | some fee => simp [tipEvents, Index.read]

/-- A tip withdraws no fees. -/
theorem feeWithdrawals_tipEvents (sender creator token : Address) (amount : I128)
    (charged : Option I128) :
    feeWithdrawals (tipEvents sender creator token amount charged) = [] := by
  cases charged <;> rfl

end Log

section Run

variable {chain : Chain X} {tr : List (Occ (World X) (Action X))} {o : Occ (World X) (Action X)}

/-- The tokens of a longer run. -/
theorem feeTokens_concat :
    feeTokens chain (tr ++ [o]) = feeTokens chain tr ++ feeTokens chain [o] :=
  List.filterMap_append

theorem feeTokens_singleton :
    feeTokens chain [o] = ((entryAt chain o).bind Entrypoint.feeToken).toList := by
  simp only [feeTokens, List.filterMap_cons, List.filterMap_nil]
  cases (entryAt chain o).bind Entrypoint.feeToken <;> rfl

/-- An occurrence that withdraws no fees, and of which the indexer makes what it did. -/
theorem Indexed.extend (hix : Indexed chain tr o.before) {money : List Event}
    (hpublishes : Publishes o.before o.after money) (htokens : feeTokens chain [o] = [])
    (hnofee : feeWithdrawals money = [])
    (hcharged : (money.foldl Index.read (index o.before.events)).charged = none)
    (hbalance : (money.foldl Index.read (index o.before.events)).books.balance
      = (books o.after).balance)
    (htotal : (money.foldl Index.read (index o.before.events)).books.total
      = (books o.after).total)
    (hfee : ∀ T d, (books o.before).fee T
        = ((index o.before.events).books.fee T).map (fun accrued => accrued - d) →
      ((index o.before.events).books.fee T = none → d = 0) →
      (books o.after).fee T
        = ((money.foldl Index.read (index o.before.events)).books.fee T).map
          fun accrued => accrued - d)
    (hkeeps : ∀ T, (money.foldl Index.read (index o.before.events)).books.fee T = none →
      (index o.before.events).books.fee T = none) :
    Indexed chain (tr ++ [o]) o.after := by
  obtain ⟨new, hevents, hmoney⟩ := hpublishes
  have hindex : index o.after.events = money.foldl Index.read (index o.before.events) := by
    rw [hevents]
    exact index_append hmoney
  have htokens' : feeTokens chain (tr ++ [o]) = feeTokens chain tr := by
    rw [feeTokens_concat, htokens, List.append_nil]
  have hwithdrawals : feeWithdrawals o.after.events = feeWithdrawals o.before.events := by
    rw [hevents, feeWithdrawals_append hmoney, hnofee, List.append_nil]
  refine ⟨?_, ?_, ?_, ?_, fun T => ?_, fun T hT => ?_⟩
  · rw [hindex]
    exact hcharged
  · rw [hindex]
    exact hbalance
  · rw [hindex]
    exact htotal
  · rw [htokens', hwithdrawals]
    exact hix.length
  · rw [hindex, htokens', hwithdrawals]
    exact hfee T _ (hix.fee T) (hix.undrawn T)
  · rw [htokens', hwithdrawals]
    rw [hindex] at hT
    exact hix.undrawn T (hkeeps T hT)

/-- An occurrence without a money event that leaves the books alone. -/
theorem Indexed.quiet (hix : Indexed chain tr o.before)
    (hpublishes : Publishes o.before o.after []) (htokens : feeTokens chain [o] = [])
    (hbooks : books o.after = books o.before) : Indexed chain (tr ++ [o]) o.after := by
  refine hix.extend hpublishes htokens rfl hix.charged ?_ ?_ ?_ ?_
  · rw [hbooks]
    exact hix.balance
  · rw [hbooks]
    exact hix.total
  · intro T d hbefore _
    rw [hbooks]
    exact hbefore
  · exact fun T hT => hT

/-- A fee withdrawal: the indexer sees the amount and not the token. -/
theorem Indexed.feesWithdrawn (hix : Indexed chain tr o.before) {token collector : Address}
    {paid : I128} (hpublishes : Publishes o.before o.after [.feeWithdraw collector paid])
    (htokens : feeTokens chain [o] = [token])
    (hpresent : ((books o.before).fee token).isSome)
    (hbooks : books o.after = (books o.before).withdrawFee token paid.val) :
    Indexed chain (tr ++ [o]) o.after := by
  obtain ⟨new, hevents, hmoney⟩ := hpublishes
  have hindex : index o.after.events = index o.before.events := by
    rw [hevents]
    exact index_append hmoney
  have htokens' : feeTokens chain (tr ++ [o]) = feeTokens chain tr ++ [token] := by
    rw [feeTokens_concat, htokens]
  have hwithdrawals : feeWithdrawals o.after.events
      = feeWithdrawals o.before.events ++ [paid.val] := by
    rw [hevents, feeWithdrawals_append hmoney]
    rfl
  refine ⟨?_, ?_, ?_, ?_, fun T => ?_, fun T hT => ?_⟩
  · rw [hindex]
    exact hix.charged
  · rw [hindex, hbooks]
    exact hix.balance
  · rw [hindex, hbooks]
    exact hix.total
  · rw [htokens', hwithdrawals, List.length_append, List.length_append, hix.length]
    rfl
  · -- the pot of the named token is lower by what was paid, as the count of what was drawn is higher
    rw [hindex, htokens', hwithdrawals, drawn_append hix.length, hbooks]
    have hT := hix.fee T
    simp only [Books.withdrawFee]
    by_cases htoken : T = token
    · subst htoken
      cases haccrued : (index o.before.events).books.fee T with
      | none =>
        rw [hT, haccrued] at hpresent
        cases hpresent
      | some accrued =>
        rw [haccrued] at hT
        simp only [hT, if_true, Option.map_some, Option.getD_some, Option.some.injEq]
        omega
    · rw [if_neg htoken, if_neg (Ne.symm htoken), Int.add_zero]
      exact hT
  · -- a token that was never charged a fee has no pot to draw from
    rw [htokens', hwithdrawals, drawn_append hix.length]
    rw [hindex] at hT
    have hne : token ≠ T := by
      rintro rfl
      rw [hix.fee, hT] at hpresent
      cases hpresent
    rw [if_neg hne, Int.add_zero]
    exact hix.undrawn T hT

/-- One occurrence of a run keeps the indexer right. A call that fails reports nothing, as does what
happens outside. -/
theorem Indexed.step (hix : Indexed chain tr o.before) (hv1 : NoV1 o.before)
    (hstep : IsStep (step chain) o) : Indexed chain (tr ++ [o]) o.after := by
  by_cases hsuccess : ∃ call, Succeeds chain o call
  · obtain ⟨call, hcall⟩ := hsuccess
    have hentryAt := hcall.entryAt_eq
    obtain ⟨-, r, hexec⟩ := hcall
    cases books_step hv1 hexec with
    | tipped sender creator token amount charged entry events hbooks =>
      have hread := foldl_tipEvents hix.charged sender creator token amount charged
      refine hix.extend events ?_ (feeWithdrawals_tipEvents ..) ?_ ?_ ?_ ?_ ?_
      · rw [feeTokens_singleton, hentryAt, entry]
        rfl
      · rw [hread]
      · rw [hread, hbooks]
        simp only [Books.tip, hix.balance]
      · rw [hread, hbooks]
        simp only [Books.tip, hix.total]
      · intro T d hbefore hzero
        rw [hread, hbooks]
        exact Books.tip_fee_sub hbefore hzero creator token amount.val _
      · intro T hT
        rw [hread] at hT
        exact Books.fee_of_tip_none hT
    | withdrawn caller creator token dest amount paid entry events hbooks =>
      refine hix.extend events ?_ rfl ?_ ?_ ?_ ?_ ?_
      · rw [feeTokens_singleton, hentryAt, entry]
        rfl
      · exact hix.charged
      · rw [hbooks]
        simp [Index.read, Books.withdraw, hix.balance]
      · rw [hbooks]
        exact hix.total
      · intro T d hbefore _
        rw [hbooks]
        exact hbefore
      · exact fun T hT => hT
    | feesWithdrawn caller token amount paid entry events present hbooks =>
      refine hix.feesWithdrawn events ?_ present hbooks
      rw [feeTokens_singleton, hentryAt, entry]
      rfl
    | quiet entry events hbooks =>
      refine hix.quiet events ?_ hbooks
      rw [feeTokens_singleton, hentryAt]
      cases hresolve : resolve o.before call.entry with
      | withdrawFees =>
        rw [hresolve] at entry
        cases entry
      | _ => rfl
  · obtain ⟨x, hx⟩ := (succeeds_or_outside hstep).resolve_left hsuccess
    refine hix.quiet (publishes_of_eq (by rw [hx])) ?_ (by rw [hx]; rfl)
    rw [feeTokens_singleton, entryAt_eq_none hstep hsuccess]
    rfl

variable {token admin : Address} {D : UInt32} {w₀ : World X}

/-- `init` publishes nothing. -/
theorem AfterInit.events_nil (h₀ : AfterInit chain token admin D w₀) : w₀.events = [] := by
  obtain ⟨w, sequence, auth, r, hfresh, hexec⟩ := h₀
  have hspec : wp (init token admin D) (chain.ctx sequence auth) w fun _ w' =>
      w'.events = w.events := by
    simp [init]
  rw [exec_spec hexec rfl hspec]
  exact hfresh.events

/-- After `init` there are no events and no counters. -/
theorem AfterInit.indexed (h₀ : AfterInit chain token admin D w₀) : Indexed chain [] w₀ := by
  have hbooks : books w₀ = .empty := by
    refine Books.eq_of (fun c T => ?_) (fun c T => ?_) fun T => ?_
    · simp [books, booksOf, h₀.pers_get, Books.empty]
    · simp [books, booksOf, h₀.pers_get, Books.empty]
    · simp [books, booksOf, h₀.pers_get, Books.empty]
  refine ⟨?_, ?_, ?_, ?_, fun T => ?_, fun T _ => rfl⟩
  · rw [h₀.events_nil]
    rfl
  · rw [h₀.events_nil, hbooks]
    rfl
  · rw [h₀.events_nil, hbooks]
    rfl
  · rw [h₀.events_nil]
    rfl
  · rw [h₀.events_nil, hbooks]
    rfl

/-- The indexer is right at the end of every run from `init`. -/
theorem books_indexed (h₀ : AfterInit chain token admin D w₀) (acts : List (Action X)) :
    Indexed chain (trace (TipJar.step chain) w₀ acts) (run (TipJar.step chain) w₀ acts) := by
  induction acts using List.reverseRecOn with
  | nil => exact h₀.indexed
  | append_singleton acts a ih =>
    rw [trace_concat, run_concat]
    exact Indexed.step (o := ⟨_, a, _⟩) ih (h₀.run_fromInit acts).noV1 rfl

/-- The balances and totals, read off the events the indexer sees. -/
theorem Indexed.ledger {w : World X} (hix : Indexed chain tr w) (c T : Address) :
    (index (ledgerEvents w.events)).books.balance c T
        = (w.pers.get (.balance c T) : Option I128).map I128.val ∧
      (index (ledgerEvents w.events)).books.total c T
        = (w.pers.get (.total c T) : Option I128).map I128.val := by
  rw [index_ledgerEvents, hix.balance, hix.total]
  exact ⟨rfl, rfl⟩

end Run

/-! ## Two runs with the same events -/

section TwoRuns

variable {X' : Type} {chain : Chain X} {chain' : Chain X'} {token admin token' admin' : Address}
  {D D' : UInt32} {w₀ : World X} {w₀' : World X'}

/-- An entry is determined by its number. -/
theorem get_eq_of_map_val {o o' : Option I128} (h : o.map I128.val = o'.map I128.val) : o = o' :=
  Option.map_injective (fun _ _ h => I128.ext h) h

/-- An indexer that sees only the `Tip`, `FeeCharged` and `Withdraw` events reads every balance and
every total off them, whatever fees were configured; so two runs whose logs agree in these events
end with the same ones. -/
theorem events_determine_ledger (h₀ : AfterInit chain token admin D w₀)
    (h₀' : AfterInit chain' token' admin' D' w₀') (acts : List (Action X))
    (acts' : List (Action X'))
    (hevents : ledgerEvents (run (step chain) w₀ acts).events
      = ledgerEvents (run (step chain') w₀' acts').events)
    (c T : Address) :
    ((run (step chain) w₀ acts).pers.get (.balance c T)
        = (run (step chain') w₀' acts').pers.get (.balance c T) ∧
      (run (step chain) w₀ acts).pers.get (.total c T)
        = (run (step chain') w₀' acts').pers.get (.total c T)) ∧
    (index (ledgerEvents (run (step chain) w₀ acts).events)).books.balance c T
        = ((run (step chain) w₀ acts).pers.get (.balance c T) : Option I128).map I128.val ∧
      (index (ledgerEvents (run (step chain) w₀ acts).events)).books.total c T
        = ((run (step chain) w₀ acts).pers.get (.total c T) : Option I128).map I128.val := by
  have hread := (books_indexed h₀ acts).ledger c T
  have hread' := (books_indexed h₀' acts').ledger c T
  rw [← hevents] at hread'
  exact ⟨⟨get_eq_of_map_val (hread.1.symm.trans hread'.1),
    get_eq_of_map_val (hread.2.symm.trans hread'.2)⟩, hread⟩

/-- The fee balances agree just when the withdrawals of fees, whose amounts are in the log and
whose tokens are not, add up to the same in every token. -/
theorem events_determine_fees_iff (h₀ : AfterInit chain token admin D w₀)
    (h₀' : AfterInit chain' token' admin' D' w₀') (acts : List (Action X))
    (acts' : List (Action X'))
    (hevents : (run (step chain) w₀ acts).events = (run (step chain') w₀' acts').events) :
    (∀ T, (run (step chain) w₀ acts).pers.get (.feeBalanceToken T)
        = (run (step chain') w₀' acts').pers.get (.feeBalanceToken T)) ↔
      ∀ T, drawn (feeTokens chain (trace (step chain) w₀ acts))
          (feeWithdrawals (run (step chain) w₀ acts).events) T
        = drawn (feeTokens chain' (trace (step chain') w₀' acts'))
          (feeWithdrawals (run (step chain) w₀ acts).events) T := by
  have hix := books_indexed h₀ acts
  have hix' := books_indexed h₀' acts'
  refine forall_congr' fun T => ?_
  have hfee := hix.fee T
  have hfee' := hix'.fee T
  have hundrawn := hix.undrawn T
  have hundrawn' := hix'.undrawn T
  rw [← hevents] at hfee' hundrawn'
  constructor
  · intro hget
    have hbooks : (books (run (step chain) w₀ acts)).fee T
        = (books (run (step chain') w₀' acts')).fee T := congrArg (Option.map I128.val) hget
    rw [hfee, hfee'] at hbooks
    cases haccrued : (index (run (step chain) w₀ acts).events).books.fee T with
    | none => rw [hundrawn haccrued, hundrawn' haccrued]
    | some accrued =>
      rw [haccrued, Option.map_some, Option.map_some, Option.some.injEq] at hbooks
      omega
  · intro hdrawn
    refine get_eq_of_map_val ?_
    rw [hdrawn, ← hfee'] at hfee
    exact hfee

end TwoRuns

/-- The second run configures another fee first, and has a query and a failing tip besides the tip
and the withdrawal of the first: the whole logs differ, what the indexer sees does not. -/
theorem events_determine_ledger_sample :
    let acts : List (Action Balances) := [.call ⟨2, [⟨2⟩], .setFee ⟨2⟩ 100⟩,
      .call ⟨3, [⟨5⟩], .tip ⟨5⟩ ⟨3⟩ ⟨1⟩ 200⟩, .call ⟨4, [⟨3⟩], .withdraw ⟨3⟩ ⟨3⟩ ⟨1⟩ ⟨3⟩ (some 50)⟩]
    let acts' : List (Action Balances) := [.call ⟨2, [⟨2⟩], .setFee ⟨2⟩ 300⟩,
      .call ⟨2, [⟨2⟩], .setFee ⟨2⟩ 149⟩, .call ⟨3, [], .tip ⟨5⟩ ⟨3⟩ ⟨1⟩ 10⟩,
      .call ⟨2, [⟨2⟩], .setFee ⟨2⟩ 100⟩, .call ⟨3, [⟨5⟩], .tip ⟨5⟩ ⟨3⟩ ⟨1⟩ 200⟩,
      .call ⟨4, [], .getBalance ⟨3⟩ ⟨1⟩⟩, .call ⟨5, [⟨3⟩], .withdraw ⟨3⟩ ⟨3⟩ ⟨1⟩ ⟨3⟩ (some 50)⟩]
    (run (step sampleChain) (sampleWorld 50) acts).pers.get (.balance ⟨3⟩ ⟨1⟩) = some 148 ∧
      (run (step sampleChain) (sampleWorld 50) acts).events
        ≠ (run (step sampleChain) (sampleWorld 50) acts').events ∧
      ∀ c T, (run (step sampleChain) (sampleWorld 50) acts).pers.get (.balance c T)
        = (run (step sampleChain) (sampleWorld 50) acts').pers.get (.balance c T) := by
  intro acts acts'
  refine ⟨by decide +kernel, by decide +kernel, fun c T => ?_⟩
  exact (events_determine_ledger sampleWorld_afterInit sampleWorld_afterInit acts acts'
    (by decide +kernel) c T).1.1

/-- Fees of 10 accrue in token 1 and in token 8, and address 9 may collect them. -/
def feesInTwoTokens : List (Action Balances) :=
  [.call ⟨2, [⟨2⟩], .setFee ⟨2⟩ 1000⟩, .call ⟨2, [⟨2⟩], .addToken ⟨2⟩ ⟨8⟩⟩,
    .call ⟨2, [⟨2⟩], .proposeFeeCollector ⟨2⟩ ⟨9⟩⟩, .call ⟨2, [⟨9⟩], .acceptFeeCollector ⟨9⟩⟩,
    .call ⟨3, [⟨5⟩], .tip ⟨5⟩ ⟨3⟩ ⟨1⟩ 100⟩, .call ⟨3, [⟨5⟩], .tip ⟨5⟩ ⟨3⟩ ⟨8⟩ 100⟩]

/-- Two withdrawals of equal amounts, made in either order. -/
theorem events_determine_fees_iff_sample :
    let acts := feesInTwoTokens ++ [.call ⟨4, [⟨9⟩], .withdrawFees ⟨9⟩ ⟨1⟩ (some 5)⟩,
      .call ⟨4, [⟨9⟩], .withdrawFees ⟨9⟩ ⟨8⟩ (some 5)⟩]
    let acts' := feesInTwoTokens ++ [.call ⟨4, [⟨9⟩], .withdrawFees ⟨9⟩ ⟨8⟩ (some 5)⟩,
      .call ⟨4, [⟨9⟩], .withdrawFees ⟨9⟩ ⟨1⟩ (some 5)⟩]
    ∀ T, (run (step sampleChain) (sampleWorld 50) acts).pers.get (.feeBalanceToken T)
      = (run (step sampleChain) (sampleWorld 50) acts').pers.get (.feeBalanceToken T) := by
  intro acts acts'
  refine (events_determine_fees_iff sampleWorld_afterInit sampleWorld_afterInit acts acts'
    (by decide +kernel)).mpr fun T => ?_
  have htokens : feeTokens sampleChain (trace (step sampleChain) (sampleWorld 50) acts)
      = [⟨1⟩, ⟨8⟩] := by decide +kernel
  have htokens' : feeTokens sampleChain (trace (step sampleChain) (sampleWorld 50) acts')
      = [⟨8⟩, ⟨1⟩] := by decide +kernel
  have hamounts : feeWithdrawals (run (step sampleChain) (sampleWorld 50) acts).events = [5, 5] := by
    decide +kernel
  rw [htokens, htokens', hamounts]
  simp [drawn, Int.add_comm]

/-- The collector withdraws 5 in token 1 or in token 8: the events are the same, the fee balances
are not. -/
theorem fee_token_unpublished :
    let acts := feesInTwoTokens ++ [.call ⟨4, [⟨9⟩], .withdrawFees ⟨9⟩ ⟨1⟩ (some 5)⟩]
    let acts' := feesInTwoTokens ++ [.call ⟨4, [⟨9⟩], .withdrawFees ⟨9⟩ ⟨8⟩ (some 5)⟩]
    AfterInit sampleChain ⟨1⟩ ⟨2⟩ 50 (sampleWorld 50) ∧
      (run (step sampleChain) (sampleWorld 50) acts).events
        = (run (step sampleChain) (sampleWorld 50) acts').events ∧
      (run (step sampleChain) (sampleWorld 50) acts).pers.get (.feeBalanceToken ⟨1⟩) = some 5 ∧
      (run (step sampleChain) (sampleWorld 50) acts').pers.get (.feeBalanceToken ⟨1⟩)
        = some 10 := by
  intro acts acts'
  exact ⟨sampleWorld_afterInit, by decide +kernel, by decide +kernel, by decide +kernel⟩

end TipJar
