import StellarTipjar.TipJarLegacy.Streams
import StellarTipjar.Lib.StoreSum

/-!
# TipJarLegacy — the contract holds what it owes

Streams, payment channels, tip channels and the balances of the creators share one account per
token. `owed` is the sum of what all of them may still pay out. Every call changes it by no more
than it brings in (`Effect.owed_le`), with one exception: a meta-transaction in the name of the
contract itself moves no money but is credited like any other. `escrow_covered` is the resulting
solvency of the contract over a run, with the exact condition on those requests.
-/

namespace TipJarLegacy

open Lib Soroban Contract

variable {X : Type}

/-! ## What is owed -/

/-- What an entry of the storage promises in the token `T`. -/
def debt (T : Address) : (k : DataKey) → DataKey.Val k → Int
  | .stream (.record _), s => if s.token = T then s.remaining else 0
  | .paymentChannel _ _ T', ch => if T' = T then ch.view.locked else 0
  | .tipChannel _ _ T', ch => if T' = T then ch.view.locked else 0
  | .creatorBalance _ T', balance => if T' = T then balance.val else 0
  | _, _ => 0

noncomputable def owed (w : World X) (T : Address) : Int := w.pers.sum (debt T)

/-- What a call credits in `T` without a transfer: a request in the name of the contract. -/
def Entrypoint.unbacked (self T : Address) : Entrypoint → Int
  | .executeMetaTip _ req => if req.source = self ∧ req.token = T then req.amount.val else 0
  | _ => 0

theorem Entrypoint.unbacked_nonneg {e : Entrypoint} (self T : Address)
    (h : ∀ relayer req, e = .executeMetaTip relayer req → 0 ≤ req.amount.val) :
    0 ≤ e.unbacked self T := by
  cases e with
  | executeMetaTip relayer req =>
    have hamount := h relayer req rfl
    simp only [Entrypoint.unbacked]
    split
    · exact hamount
    · exact le_rfl
  | _ => exact le_rfl

variable {crypto : Crypto} {chain : Chain X} {call : Call} {w w' : World X} {auth : List Address}
  {T : Address}

theorem owed_congr (h : w'.pers = w.pers) : owed w' T = owed w T := by
  unfold owed
  rw [h]

/-! ## One call -/

/-- What a call about a stream brings in covers what it adds to the stream. -/
theorem Booked.flow_le {contract : Address} {before : Option TipStream} {s' : TipStream}
    {k : StreamCall} {ts : List Transfer} {rest : Int}
    (h : Booked contract before s' k ts (k.amounts (transferred ts) rest))
    (hsender : k = .create → s'.sender ≠ contract) :
    s'.remaining ≤ before.elim 0 TipStream.remaining + flow contract s'.token ts := by
  have hdivided := h.divided
  have hnonneg := h.nonneg
  cases k with
  | create =>
    have hin : flow contract s'.token ts = transferred ts := by
      refine flow_in fun t ht => ?_
      obtain ⟨htoken, hbetween⟩ := h.directed t ht
      obtain ⟨hsource, hdest⟩ := Prod.mk.inj (Option.some.inj hbetween)
      exact ⟨htoken, hsource ▸ hsender rfl, hdest.symm⟩
    simp only [StreamCall.amounts] at hdivided
    omega
  | start | stop =>
    have hnone : ts = [] := by
      refine List.eq_nil_iff_forall_not_mem.mpr fun t ht => ?_
      have hbetween := (h.directed t ht).2
      cases hbetween
    subst hnone
    simp only [StreamCall.amounts] at hdivided hnonneg
    rw [flow_nil]
    omega
  | withdraw | cancel =>
    have hout : -transferred ts ≤ flow contract s'.token ts := by
      refine flow_out fun t ht => ?_
      obtain ⟨htoken, hbetween⟩ := h.directed t ht
      obtain ⟨hsource, -⟩ := Prod.mk.inj (Option.some.inj hbetween)
      exact ⟨htoken, hsource.symm, h.amounts t ht⟩
    simp only [StreamCall.amounts] at hdivided hnonneg
    omega

/-- The same for the move of a channel in the token `T`. -/
theorem locked_le_flow {contract : Address} {before : Option (Channel ℕ)} {m : Channel.Move ℕ}
    {c' : Channel ℕ} {ts : List Transfer} (hstep : Channel.Step before m c')
    (hfund : m.funds = true →
      (∀ t ∈ ts, t.token = T ∧ t.source ≠ contract ∧ t.dest = contract) ∧
        transferred ts = c'.deposit)
    (hclose : m.closes = true →
      (∀ t ∈ ts, t.token = T ∧ t.source = contract ∧ 0 ≤ t.amount.val) ∧
        transferred ts = c'.deposit)
    (hquiet : m.funds = false → m.closes = false → ts = []) :
    c'.locked ≤ before.elim 0 Channel.locked + flow contract T ts := by
  have hlocked := hstep.locked_eq
  cases hfunds : m.funds with
  | true =>
    obtain ⟨hin, hsum⟩ := hfund hfunds
    have hflow := flow_in hin
    have hcloses : m.closes = false := by
      cases m with
      | fund => rfl
      | _ => cases hfunds
    rw [hfunds, hcloses, if_pos rfl] at hlocked
    simp only [Bool.false_eq_true, if_false] at hlocked
    omega
  | false =>
    cases hcloses : m.closes with
    | true =>
      obtain ⟨hout, hsum⟩ := hclose hcloses
      have hflow := flow_out hout
      rw [hfunds, hcloses] at hlocked
      simp only [Bool.false_eq_true, if_false, if_true] at hlocked
      omega
    | false =>
      rw [hquiet hfunds hcloses, flow_nil]
      rw [hfunds, hcloses] at hlocked
      simp only [Bool.false_eq_true, if_false] at hlocked
      omega

/-- A call about a stream writes one record that weighs anything. -/
theorem ActsOnStream.owed_eq {id : UInt64} {k : StreamCall} {s' : TipStream}
    (h : ActsOnStream chain auth id w w' k s') (T : Address) :
    owed w' T = owed w T + (debt T (.stream (.record id)) s'
      - (streamOf w id).elim 0 (debt T (.stream (.record id)))) := by
  unfold owed
  cases h with
  | create next h =>
    obtain ⟨senderIds, creatorIds, hpers⟩ := h.pers
    subst next
    rw [hpers, Store.sum_set_of_weightless fun _ => rfl, Store.sum_set_of_weightless fun _ => rfl,
      Store.sum_set]
    rfl
  | start h =>
    rw [h.pers, Store.sum_set]
    rfl
  | stop h =>
    rw [h.pers, Store.sum_set]
    rfl
  | withdraw h =>
    rw [h.pers, Store.sum_set]
    rfl
  | cancel h =>
    rw [h.pers, Store.sum_set]
    rfl

theorem ActsOnStream.sender_mem {id : UInt64} {s' : TipStream}
    (h : ActsOnStream chain auth id w w' .create s') : s'.sender ∈ auth := by
  cases h with
  | create next h =>
    rw [h.stream]
    exact h.authorised

theorem ActsOnStream.owed_le {id : UInt64} {k : StreamCall} {s' : TipStream}
    (h : ActsOnStream chain auth id w w' k s') (hs : StreamsSound chain w)
    (hself : chain.self ∉ auth) (T : Address) :
    ∃ ts, Sends chain ts w w' ∧ owed w' T ≤ owed w T + flow chain.self T ts := by
  obtain ⟨-, ts, hsends, hbooked⟩ := h.booked hs
  refine ⟨ts, hsends, ?_⟩
  have howed := h.owed_eq T
  have hflow := hbooked.flow_le fun hk hsender => by
    subst hk
    exact hself (hsender ▸ h.sender_mem)
  have hold : (streamOf w id).elim 0 (debt T (.stream (.record id)))
      = if s'.token = T then (streamOf w id).elim 0 TipStream.remaining else 0 := by
    cases hstored : streamOf w id with
    | none => simp
    | some s =>
      have htoken := (hbooked.terms s hstored).token
      show (if s.token = T then s.remaining else 0) = _
      rw [htoken]
      rfl
  have hnew : debt T (.stream (.record id)) s' = if s'.token = T then s'.remaining else 0 := rfl
  rw [hold, hnew] at howed
  by_cases hT : s'.token = T
  · rw [if_pos hT, if_pos hT] at howed
    rw [hT] at hflow
    omega
  · rw [if_neg hT, if_neg hT] at howed
    have hother : flow chain.self T ts = 0 := flow_other fun t ht => by
      rw [(hbooked.directed t ht).1]
      exact hT
    omega

section Channels

variable {a b t c T' : Address} {m : Channel.Move ℕ}

theorem PaymentChannel.rest_val {ch : PaymentChannel}
    (h : 0 ≤ ch.balanceA.val ∧ ch.balanceA.val ≤ ch.totalDeposit.val) :
    ch.rest.val = ch.totalDeposit.val - ch.balanceA.val := I128.val_sub_of_le h.1 h.2

theorem TipStateChannel.rest_val {ch : TipStateChannel}
    (h : 0 ≤ ch.tippedAmount.val ∧ ch.tippedAmount.val ≤ ch.deposit.val) :
    ch.rest.val = ch.deposit.val - ch.tippedAmount.val := I128.val_sub_of_le h.1 h.2

/-- Paying out the two shares of a channel. -/
theorem payOut_positive (self p q T : Address) {x y : I128} (hx : 0 ≤ x.val) (hy : 0 ≤ y.val) :
    (∀ u ∈ Transfer.positive ⟨T, self, p, x⟩ ++ Transfer.positive ⟨T, self, q, y⟩,
        u.token = T ∧ u.source = self ∧ 0 ≤ u.amount.val) ∧
      transferred (Transfer.positive ⟨T, self, p, x⟩ ++ Transfer.positive ⟨T, self, q, y⟩)
        = x.val + y.val := by
  refine ⟨fun u hu => ?_, ?_⟩
  · rcases List.mem_append.mp hu with hu | hu
    · rw [(Transfer.mem_positive hu).1]
      exact ⟨rfl, rfl, hx⟩
    · rw [(Transfer.mem_positive hu).1]
      exact ⟨rfl, rfl, hy⟩
  · rw [transferred_append, transferred_positive hx, transferred_positive hy]

theorem payOut_token {self p q : Address} {x y : I128} {u : Transfer}
    (hu : u ∈ Transfer.positive ⟨T, self, p, x⟩ ++ Transfer.positive ⟨T, self, q, y⟩) :
    u.token = T := by
  rcases List.mem_append.mp hu with hu | hu
  · rw [(Transfer.mem_positive hu).1]
  · rw [(Transfer.mem_positive hu).1]

/-- From the one token of a channel to all tokens. -/
theorem le_of_locked {contract : Address} {before after locked locked' : Int} {ts : List Transfer}
    (howed : after = before + ((if T' = T then locked' else 0) - if T' = T then locked else 0))
    (hlocked : locked' ≤ locked + flow contract T' ts) (htoken : ∀ u ∈ ts, u.token = T') :
    after ≤ before + flow contract T ts := by
  by_cases hT : T' = T
  · subst hT
    rw [if_pos rfl, if_pos rfl] at howed
    omega
  · rw [if_neg hT, if_neg hT] at howed
    have hother : flow contract T ts = 0 := flow_other fun u hu => by
      rw [htoken u hu]
      exact hT
    omega

/-- A move of a tip channel writes one entry that weighs anything. -/
theorem MovesTipChannel.owed_eq {ch : TipStateChannel}
    (h : MovesTipChannel chain auth t c T' m ch w w') (T : Address) :
    owed w' T = owed w T + ((if T' = T then ch.view.locked else 0)
      - if T' = T then
          ((tipChannelOf w t c T').map TipStateChannel.view).elim 0 Channel.locked
        else 0) := by
  have hold : (tipChannelOf w t c T').elim 0 (debt T (.tipChannel t c T'))
      = if T' = T then ((tipChannelOf w t c T').map TipStateChannel.view).elim 0 Channel.locked
        else 0 := by
    cases tipChannelOf w t c T' with
    | none => simp
    | some before => rfl
  rw [← hold]
  have hwrites := h.writes
  unfold owed
  cases m with
  | agree share nonce =>
    obtain ⟨before, -, hrecords⟩ := hwrites
    obtain ⟨amount, -, hpers⟩ := hrecords.entry
    rw [hpers, Store.sum_set, Store.sum_set_of_weightless fun _ => rfl,
      Store.get_set_of_ne _ (by simp)]
    rfl
  | _ =>
    rw [hwrites.2, Store.sum_set]
    rfl

theorem MovesChannel.owed_le {ch : PaymentChannel}
    (h : MovesChannel chain auth a b T' m ch w w') (hw : Filed w) (hself : chain.self ∉ auth)
    (T : Address) :
    ∃ ts, Sends chain ts w w' ∧ owed w' T ≤ owed w T + flow chain.self T ts := by
  refine ⟨_, h.sends, ?_⟩
  have hshares : 0 ≤ ch.balanceA.val ∧ ch.balanceA.val ≤ ch.totalDeposit.val :=
    h.step.share_bounds fun c hc => by
      obtain ⟨before, hbefore, rfl⟩ := Option.map_eq_some_iff.mp hc
      exact hw.shares a b T' before hbefore
  have hrest := PaymentChannel.rest_val hshares
  have hlocked : ch.view.locked ≤ ((channelOf w a b T').map PaymentChannel.view).elim 0 Channel.locked
      + flow chain.self T' (ch.payments chain.self a b T' m) := by
    refine locked_le_flow h.step (fun hfunds => ?_) (fun hcloses => ?_) fun hfunds hcloses => ?_
    · have hauth := h.authorised
      cases m with
      | fund =>
        obtain ⟨ha, hb⟩ : a ∈ auth ∧ b ∈ auth := hauth
        have hane : a ≠ chain.self := fun heq => hself (heq ▸ ha)
        have hbne : b ≠ chain.self := fun heq => hself (heq ▸ hb)
        refine ⟨?_, ?_⟩
        · simp [PaymentChannel.payments, hane, hbne]
        · show transferred [_, _] = ch.totalDeposit.val
          rw [transferred_cons, transferred_singleton]
          show ch.balanceA.val + ch.rest.val = ch.totalDeposit.val
          omega
      | _ => cases hfunds
    · obtain ⟨hout, hsum⟩ := payOut_positive chain.self a b T' hshares.1
        (y := ch.rest) (by omega)
      cases m with
      | settle | finalise =>
        refine ⟨hout, ?_⟩
        show transferred _ = ch.totalDeposit.val
        rw [PaymentChannel.payments, hsum]
        omega
      | _ => cases hcloses
    · cases m with
      | agree | claim => rfl
      | fund => cases hfunds
      | settle | finalise => cases hcloses
  have howed : owed w' T = owed w T + ((if T' = T then ch.view.locked else 0)
      - (channelOf w a b T').elim 0 (debt T (.paymentChannel a b T'))) := by
    unfold owed
    rw [h.pers, Store.sum_set]
    rfl
  have hold : (channelOf w a b T').elim 0 (debt T (.paymentChannel a b T'))
      = if T' = T then ((channelOf w a b T').map PaymentChannel.view).elim 0 Channel.locked
        else 0 := by
    cases channelOf w a b T' with
    | none => simp
    | some before => rfl
  rw [hold] at howed
  refine le_of_locked howed hlocked fun u hu => ?_
  cases m with
  | fund =>
    simp only [PaymentChannel.payments, List.mem_cons, List.not_mem_nil, or_false] at hu
    rcases hu with rfl | rfl
    · rfl
    · rfl
  | settle | finalise => exact payOut_token hu
  | agree | claim => cases hu

theorem MovesTipChannel.owed_le {ch : TipStateChannel}
    (h : MovesTipChannel chain auth t c T' m ch w w') (hw : Filed w)
    (hopener : m.funds = true → t ≠ chain.self) (T : Address) :
    ∃ ts, Sends chain ts w w' ∧ owed w' T ≤ owed w T + flow chain.self T ts := by
  refine ⟨_, h.sends, ?_⟩
  have hshares : 0 ≤ ch.tippedAmount.val ∧ ch.tippedAmount.val ≤ ch.deposit.val :=
    h.step.share_bounds fun c₀ hc₀ => by
      obtain ⟨before, hbefore, rfl⟩ := Option.map_eq_some_iff.mp hc₀
      exact hw.tipShares t c T' before hbefore
  have hrest := TipStateChannel.rest_val hshares
  have hlocked : ch.view.locked
      ≤ ((tipChannelOf w t c T').map TipStateChannel.view).elim 0 Channel.locked
        + flow chain.self T' (ch.payments chain.self t c T' m) := by
    refine locked_le_flow h.step (fun hfunds => ?_) (fun hcloses => ?_) fun hfunds hcloses => ?_
    · have htne := hopener hfunds
      cases m with
      | fund =>
        refine ⟨?_, ?_⟩
        · simp [TipStateChannel.payments, htne]
        · exact transferred_singleton _
      | _ => cases hfunds
    · obtain ⟨hout, hsum⟩ := payOut_positive chain.self c t T' hshares.1
        (y := ch.rest) (by omega)
      cases m with
      | settle | finalise =>
        refine ⟨hout, ?_⟩
        show transferred _ = ch.deposit.val
        rw [TipStateChannel.payments, hsum]
        omega
      | _ => cases hcloses
    · cases m with
      | agree | claim => rfl
      | fund => cases hfunds
      | settle | finalise => cases hcloses
  refine le_of_locked (h.owed_eq T) hlocked fun u hu => ?_
  cases m with
  | fund =>
    rw [List.mem_singleton.mp hu]
  | settle | finalise => exact payOut_token hu
  | agree | claim => cases hu

end Channels

/-! ## Meta-transactions -/

theorem Finalises.owed_eq {relayer : Address} {req : MetaTipRequest}
    (h : Finalises crypto relayer req w w') (T : Address) : owed w' T = owed w T := by
  obtain ⟨next, record, -, hpers⟩ := h.pers
  unfold owed
  rw [hpers, Store.sum_set_of_weightless fun _ => rfl, Store.sum_set_of_weightless fun _ => rfl,
    Store.sum_set_of_weightless fun _ => rfl]

theorem MetaTips.owed_eq {req : MetaTipRequest} (h : MetaTips chain req w w') (T : Address) :
    owed w' T = owed w T + if req.token = T then req.amount.val else 0 := by
  obtain ⟨balance, total, hbalance, hpers⟩ := h.pers
  have hnew : debt T (.creatorBalance req.dest req.token) balance
      = if req.token = T then balance.val else 0 := rfl
  have hold : (w.pers.get (.creatorBalance req.dest req.token)).elim 0
      (debt T (.creatorBalance req.dest req.token))
        = if req.token = T then (creditOf w req.dest req.token).val else 0 := by
    unfold creditOf
    cases w.pers.get (.creatorBalance req.dest req.token) with
    | none =>
      show (0 : Int) = if req.token = T then (0 : I128).val else 0
      simp
    | some b => rfl
  unfold owed
  rw [hpers, Store.sum_set_of_weightless fun _ => rfl, Store.sum_set, hnew, hold]
  split <;> omega

/-- What a meta-transaction does to the debts: nothing that its payment does not cover, unless it
is made in the name of the contract. -/
theorem MetaActs.owed_le {req : MetaTipRequest} (h : MetaActs chain auth req w w') (hw : Filed w)
    (hsource : req.source ≠ chain.self) (T : Address) :
    ∃ ts, Sends chain ts w w' ∧ owed w' T ≤ owed w T + flow chain.self T ts := by
  cases h with
  | tip h =>
    refine ⟨_, h.sends, ?_⟩
    have howed := h.owed_eq T
    by_cases hT : req.token = T
    · rw [if_pos hT] at howed
      rw [flow_in (by simp [hT, hsource]), transferred_singleton]
      exact howed.le
    · rw [if_neg hT] at howed
      rw [flow_other (by simp [hT])]
      exact howed.le
  | openChannel action ch h => exact h.owed_le hw (fun _ => hsource) T

/-- A request in the name of the contract is credited without a payment. -/
theorem MetaActs.unbacked {req : MetaTipRequest} (h : MetaActs chain auth req w w')
    (hsource : req.source = chain.self) :
    Sends chain [⟨req.token, chain.self, chain.self, req.amount⟩] w w' ∧
      ∀ T, owed w' T = owed w T + if req.token = T then req.amount.val else 0 := by
  cases h with
  | tip h =>
    have hsends := h.sends
    rw [hsource] at hsends
    exact ⟨hsends, h.owed_eq⟩
  | openChannel action ch h =>
    have hstep := h.step
    have hnone : (tipChannelOf w req.source req.dest req.token).map TipStateChannel.view = none :=
      hstep.funds_iff.mp rfl
    have hlocked := hstep.locked_eq
    have hdeposit := hstep.of_fund
    have hsends := h.sends
    have hamount : ch.deposit = req.amount := I128.ext hdeposit
    rw [TipStateChannel.payments, hsource, hamount] at hsends
    refine ⟨hsends, fun T => ?_⟩
    rw [h.owed_eq, hlocked, hnone, hdeposit]
    simp [Channel.Move.funds, Channel.Move.closes]

/-- What a call owes more afterwards it has brought in, the credits of a request in the contract's
own name apart. -/
theorem Effect.owed_le (h : Effect crypto chain call w w') (hw : Filed w) (hs : StreamsSound chain w)
    (hself : chain.self ∉ call.auth) (T : Address) :
    ∃ ts, Sends chain ts w w' ∧
      owed w' T ≤ owed w T + flow chain.self T ts + call.entry.unbacked chain.self T := by
  have hstream : ∀ {id : UInt64} {k : StreamCall} {s' : TipStream},
      ActsOnStream chain call.auth id w w' k s' →
      (∀ relayer req, call.entry ≠ .executeMetaTip relayer req) → ∃ ts, Sends chain ts w w' ∧
        owed w' T ≤ owed w T + flow chain.self T ts + call.entry.unbacked chain.self T := by
    intro id k s' hacts hentry
    obtain ⟨ts, hsends, hle⟩ := hacts.owed_le hs hself T
    have hnonneg := Entrypoint.unbacked_nonneg chain.self T fun relayer req heq =>
      absurd heq (hentry relayer req)
    exact ⟨ts, hsends, by omega⟩
  cases h with
  | streamCreated sender creator token rate duration total s entry h =>
    exact hstream (.create rfl h) (by rw [entry]; simp)
  | streamStarted id s s' entry h => exact hstream (.start h) (by rw [entry]; simp)
  | streamStopped id s streamed entry h => exact hstream (.stop h) (by rw [entry]; simp)
  | streamWithdrawn id s streamed available entry h =>
    exact hstream (.withdraw h) (by rw [entry]; simp)
  | streamCancelled id s streamed remaining entry h =>
    exact hstream (.cancel h) (by rw [entry]; simp)
  | channelMoved a b T' m ch entry h =>
    obtain ⟨ts, hsends, hle⟩ := h.owed_le hw hself T
    have hnonneg := Entrypoint.unbacked_nonneg (e := call.entry) chain.self T
      fun relayer req heq => by
      rw [heq] at entry
      cases entry
    exact ⟨ts, hsends, by omega⟩
  | tipChannelMoved t c T' m ch entry direct opener h =>
    obtain ⟨ts, hsends, hle⟩ := h.owed_le hw (fun hfunds heq => hself (heq ▸ opener hfunds)) T
    have hnonneg := Entrypoint.unbacked_nonneg chain.self T fun relayer req heq =>
      absurd heq (direct relayer req)
    exact ⟨ts, hsends, by omega⟩
  | metaExecuted relayer req w₁ entry verified acts h =>
    have hfinal : owed w' T = owed w₁ T := h.owed_eq T
    rw [entry, Entrypoint.unbacked, hfinal]
    by_cases hsource : req.source = chain.self
    · obtain ⟨hsends, howed⟩ := acts.unbacked hsource
      refine ⟨_, ⟨h.ext ▸ hsends.ext, h.transfers ▸ hsends.transfers⟩, ?_⟩
      have hzero : flow chain.self T [⟨req.token, chain.self, chain.self, req.amount⟩] = 0 := by
        simp [flow, Transfer.flow]
      rw [howed, hzero]
      simp [hsource]
    · obtain ⟨ts, hsends, hle⟩ := acts.owed_le hw hsource T
      refine ⟨ts, ⟨h.ext ▸ hsends.ext, h.transfers ▸ hsends.transfers⟩, ?_⟩
      rw [if_neg fun hboth => hsource hboth.1]
      omega
  | silent entry h =>
    have hnonneg := Entrypoint.unbacked_nonneg (e := call.entry) chain.self T
      fun relayer req heq => by
      rw [heq] at entry
      cases entry
    refine ⟨[], .none h.ext h.transfers, ?_⟩
    rw [flow_nil, owed_congr h.pers]
    omega

/-! ## Runs -/

section Runs

variable {holding : X → Address → Nat} {w₀ : World X} {o : Occ (World X) (Action X)}

/-- The contract holds what it owes in `T`. -/
def Covers (chain : Chain X) (T : Address) (holding : X → Address → Nat) (w : World X) : Prop :=
  owed w T ≤ holding w.ext chain.self

/-- The step executes the request `req`, made in the name of the contract, in `T`. -/
def SelfRequested (crypto : Crypto) (chain : Chain X) (T : Address) (req : MetaTipRequest)
    (o : Occ (World X) (Action X)) : Prop :=
  (∃ relayer, Machine.accepted (program crypto) chain o = some (.executeMetaTip relayer req)) ∧
    req.source = chain.self ∧ req.token = T

/-- The function is a request that acts as the contract in `T`. -/
def Entrypoint.actsAs (self T : Address) : Entrypoint → Bool
  | .executeMetaTip _ req => decide (req.source = self ∧ req.token = T)
  | _ => false

/-- Whether a step executes such a request is read off the call it makes. -/
theorem not_selfRequested_iff :
    (∀ req, ¬SelfRequested crypto chain T req o) ↔
      ∀ e ∈ Machine.accepted (program crypto) chain o, e.actsAs chain.self T = false := by
  constructor
  · intro h e he
    cases e with
    | executeMetaTip relayer req =>
      exact decide_eq_false fun hboth => h req ⟨⟨relayer, he⟩, hboth⟩
    | _ => rfl
  · rintro h req ⟨⟨relayer, he⟩, hboth⟩
    exact of_decide_eq_false (h _ he) hboth

instance : Decidable (∀ req, ¬SelfRequested crypto chain T req o) :=
  decidable_of_iff _ not_selfRequested_iff.symm

/-- The debts grow by the amount of such a request, and the money of the contract stays. -/
theorem SelfRequested.grows {req : MetaTipRequest} (h : SelfRequested crypto chain T req o)
    (htoken : chain.ExactToken T holding) (hstep : IsStep (TipJarLegacy.step crypto chain) o)
    (hperm : Machine.Permitted chain holding o) (hw : Filed o.before) :
    owed o.after T = owed o.before T + req.amount.val ∧
      holding o.after.ext chain.self = holding o.before.ext chain.self := by
  obtain ⟨⟨relayer, haccepted⟩, hsource, rfl⟩ := h
  obtain ⟨c, hc, hentry⟩ := Machine.succeeds_of_accepted hstep haccepted
  have hself := hperm.self_not_mem hc
  obtain ⟨r, hexec⟩ := hc.2
  -- only the effect of a meta-transaction has this entry
  have hmeta : ∃ w₁, MetaActs chain c.auth req o.before w₁ ∧
      Finalises crypto relayer req w₁ o.after := by
    cases exec_effect hw hexec with
    | metaExecuted relayer' req' w₁ entry verified acts h =>
      rw [hentry] at entry
      cases entry
      exact ⟨w₁, acts, h⟩
    | tipChannelMoved t c' T' m ch entry direct opener h => exact absurd hentry (direct relayer req)
    | channelMoved a b T' m ch entry h =>
      rw [hentry] at entry
      cases entry
    | silent entry h =>
      rw [hentry] at entry
      cases entry
    | _ =>
      next entry _ =>
      rw [hentry] at entry
      cases entry
  obtain ⟨w₁, hacts, hfinal⟩ := hmeta
  obtain ⟨hsends, howed⟩ := hacts.unbacked hsource
  refine ⟨?_, ?_⟩
  · rw [hfinal.owed_eq, howed, if_pos rfl]
  · have hext := Chain.transferAll_singleton.mp hsends.ext
    have hmoves := htoken.moves _ _ _ rfl hext chain.self
    rw [hfinal.ext]
    simp only [if_true] at hmoves
    omega

/-- A step keeps the debts covered when the requests in the contract's own name are. -/
theorem Covers.step (htoken : chain.ExactToken T holding)
    (hstep : IsStep (TipJarLegacy.step crypto chain) o) (hperm : Machine.Permitted chain holding o)
    (hw : Filed o.before) (hs : StreamsSound chain o.before)
    (hrequest : ∀ req, SelfRequested crypto chain T req o →
      owed o.before T + req.amount.val ≤ holding o.before.ext chain.self)
    (h : Covers chain T holding o.before) : Covers chain T holding o.after := by
  unfold Covers at h ⊢
  rcases Machine.isStep_cases hstep with ⟨c, hc⟩ | hsame | ⟨x, hact, hx⟩
  · obtain ⟨r, hexec⟩ := hc.2
    obtain ⟨ts, hsends, hle⟩ := (exec_effect hw hexec).owed_le hw hs (hperm.self_not_mem hc) T
    have hholding := htoken.holding_add_flow hsends.ext
    have hunbacked : owed o.before T + c.entry.unbacked chain.self T
        ≤ holding o.before.ext chain.self := by
      cases hentry : c.entry with
      | executeMetaTip relayer req =>
        simp only [Entrypoint.unbacked]
        split
        · next hboth =>
          refine hrequest req ⟨⟨relayer, ?_⟩, hboth⟩
          rw [Machine.accepted_of_succeeds hc, hentry]
        · omega
      | _ =>
        simp only [Entrypoint.unbacked]
        omega
    omega
  · rw [hsame]
    exact h
  · have hgrows := hperm.outside hact
    rw [hx]
    show owed o.before T ≤ holding x chain.self
    omega

theorem covers_fresh (h : Machine.Fresh w₀) : Covers chain T holding w₀ := by
  have hzero : owed w₀ T = 0 := by
    unfold owed
    rw [h.pers, Store.sum_empty]
  unfold Covers
  omega

/-- Over any permitted run in which time does not go back the contract holds, in every token that
moves exactly, all that its streams, its channels and its creators can still claim, just when every
request in the contract's own name was covered by money nobody had a claim on. -/
theorem escrow_covered (h₀ : Machine.Fresh w₀) (acts : List (Action X))
    (htoken : chain.ExactToken T holding)
    (hperm : ∀ o ∈ trace (step crypto chain) w₀ acts, Machine.Permitted chain holding o)
    (hclock : ∀ o ∈ trace (step crypto chain) w₀ acts, TimePasses chain o) :
    (∀ o ∈ trace (step crypto chain) w₀ acts, Covers chain T holding o.after) ↔
      ∀ o ∈ trace (step crypto chain) w₀ acts, ∀ req, SelfRequested crypto chain T req o →
        owed o.before T + req.amount.val ≤ holding o.before.ext chain.self := by
  constructor
  · intro hcovers o ho req hreq
    obtain ⟨howed, hholding⟩ :=
      hreq.grows htoken (isStep_of_mem _ ho) (hperm o ho) (filed_before h₀ ho)
    have hafter := hcovers o ho
    unfold Covers at hafter
    omega
  · intro hrequests o ho
    have hkept : ∀ q ∈ trace (step crypto chain) w₀ acts, Covers chain T holding q.before →
        Covers chain T holding q.after := fun q hq =>
      Covers.step htoken (isStep_of_mem _ hq) (hperm q hq) (filed_before h₀ hq)
        (streamsSound_before h₀ hclock hq) (hrequests q hq)
    exact hkept o ho (trace_invariant_of_trace _ (covers_fresh h₀) hkept ho)

end Runs

/-- A channel and a stream next to each other. -/
def sampleEscrow : List (Action (Clocked Balances)) :=
  setUp ++ [.call ⟨2, [⟨4⟩, ⟨5⟩], .openChannel ⟨4⟩ ⟨5⟩ ⟨2⟩ 300 200 60⟩,
    .call ⟨3, [⟨4⟩], .createStream ⟨4⟩ ⟨5⟩ ⟨2⟩ 5 100⟩,
    .outside ⟨fun _ a => if a = ⟨0⟩ then 1000 else 200, 140⟩,
    .call ⟨4, [⟨5⟩], .withdrawStreamed ⟨5⟩ 0⟩]

/-- After the withdrawal of 200 the contract holds 800, which is enough for both. -/
theorem escrow_covered_sample :
    owed (run (step sampleCrypto sampleChain) sampleWorld sampleEscrow) ⟨2⟩ ≤ 800 := by
  have hperm : ∀ o ∈ trace (step sampleCrypto sampleChain) sampleWorld sampleEscrow,
      Machine.Permitted sampleChain (fun x a => x.ext ⟨2⟩ a) o := by decide +kernel
  have hclock : ∀ o ∈ trace (step sampleCrypto sampleChain) sampleWorld sampleEscrow,
      TimePasses sampleChain o := by decide +kernel
  have hrequests : ∀ o ∈ trace (step sampleCrypto sampleChain) sampleWorld sampleEscrow,
      ∀ req, ¬SelfRequested sampleCrypto sampleChain ⟨2⟩ req o := by decide +kernel
  have hcovers := (@escrow_covered _ sampleCrypto sampleChain ⟨2⟩ (fun x a => x.ext ⟨2⟩ a)
    sampleWorld (Machine.freshEnv_fresh _) sampleEscrow
    (standardChain_payingToken ⟨0⟩ ⟨2⟩).clocked.toExactToken hperm hclock).mpr
      fun o ho req hreq => absurd hreq (hrequests o ho req)
  have hlast : sampleEscrow = sampleEscrow.dropLast ++ [.call ⟨4, [⟨5⟩], .withdrawStreamed ⟨5⟩ 0⟩] :=
    rfl
  rw [hlast, trace_concat] at hcovers
  exact hcovers _ (List.mem_append_right _ (List.mem_singleton_self _))

end TipJarLegacy
