import StellarTipjar.TipJarLegacy.Effects

/-!
# TipJarLegacy — the entrypoints have their effects

One specification per function, in the order of the contract, and `exec_effect`, which puts every
successful call into one of the forms of `Effects`, in a world whose channels are filed under their
own parties. Later proofs unfold no entrypoint.
-/

namespace TipJarLegacy

open Lib Soroban Contract

variable {X : Type}

section Specs

variable {chain : Chain X} {sequence : UInt32} {auth : List Address} {w w' : World X}

/-- The instance entries other than the three of the pause agree. -/
def SameSettings (i i' : Store DataKey DataKey.Val) : Prop :=
  ∀ k, k ≠ .paused → k ≠ .pauseReason → k ≠ .pauseUntil → i'.get k = i.get k

/-- The check of the pause may end the pause, and writes nothing else. -/
theorem requireNotPaused_spec {Q : Unit → World X → Prop}
    (h : ∀ inst writes, SameSettings w.inst inst → Q () { w with inst, writes }) :
    wp requireNotPaused (chain.ctx sequence auth) w Q := by
  simp only [requireNotPaused, checkIsPaused, wp_bind, wp_instanceGet, wp_ite, wp_pure,
    wp_ledgerTimestamp, wp_instanceSet, wp_instanceRemove, wp_panicIf]
  refine ⟨fun _ _ => h w.inst w.writes fun k _ _ _ => rfl, fun _ => ⟨fun _ _ => ?_, ?_⟩⟩
  · refine h (((w.inst.set .paused false).remove .pauseReason).remove .pauseUntil) _ ?_
    intro k hpaused hreason huntil
    rw [Store.get_remove_of_ne _ huntil, Store.get_remove_of_ne _ hreason,
      Store.get_set_of_ne _ hpaused]
  · intro _ hpaused
    exact absurd trivial hpaused

/-- The gate of the admin's functions: the caller has authorised and is the admin that is stored. -/
theorem requireStoredAdmin_spec {admin : Address} {Q : Unit → World X → Prop}
    (h : admin ∈ auth → w.inst.get .admin = some admin → Q () w) :
    wp (requireStoredAdmin admin) (chain.ctx sequence auth) w Q := by
  simp only [requireStoredAdmin, wp_bind, wp_requireAuth, wp_instanceGet, wp_unwrapOrTrap,
    wp_panicIf, Chain.ctx_auth]
  intro hauth stored hstored hadmin
  refine h hauth ?_
  rw [hstored, not_not.mp hadmin]

/-- No later proof asks which tokens are on the list, so only that nothing is written is said. -/
theorem requireWhitelisted_spec {token : Address} {e : Error} {Q : Unit → World X → Prop}
    (h : Q () w) : wp (requireWhitelisted token e) (chain.ctx sequence auth) w Q := by
  simp only [requireWhitelisted, isWhitelisted, wp_bind, wp_instanceGet, wp_pure, wp_panicIf]
  intro _
  exact h

/-- The two payments at the end of a channel. -/
theorem payOut_spec {token first second : Address} {toFirst toSecond : I128}
    {Q : Unit → World X → Prop}
    (h : ∀ x, chain.transferAll (Transfer.positive ⟨token, chain.self, first, toFirst⟩
        ++ Transfer.positive ⟨token, chain.self, second, toSecond⟩) w.ext = some x →
      Q () { w with
        ext := x
        transfers := w.transfers ++ (Transfer.positive ⟨token, chain.self, first, toFirst⟩
          ++ Transfer.positive ⟨token, chain.self, second, toSecond⟩) }) :
    wp (payOut token first second toFirst toSecond) (chain.ctx sequence auth) w Q := by
  simp only [payOut, wp_bind, wp_currentContractAddress, wp_onlyIf, wp_tokenTransfer,
    Chain.ctx_self, Env.transferred_ext]
  -- either payment is left out when it is not positive
  refine ⟨fun hfirst x hx => ⟨fun hsecond y hy => ?_, fun hsecond => ?_⟩,
    fun hfirst => ⟨fun hsecond y hy => ?_, fun hsecond => ?_⟩⟩
  · rw [Transfer.positive, Transfer.positive, if_pos hfirst, if_pos hsecond] at h
    have hall := h y (Chain.transferAll_cons.mpr ⟨x, hx, Chain.transferAll_singleton.mpr hy⟩)
    simpa only [Env.transferred, List.append_assoc] using hall
  · rw [Transfer.positive, Transfer.positive, if_pos hfirst, if_neg hsecond] at h
    exact h x (Chain.transferAll_singleton.mpr hx)
  · rw [Transfer.positive, Transfer.positive, if_neg hfirst, if_pos hsecond] at h
    exact h y (Chain.transferAll_singleton.mpr hy)
  · rw [Transfer.positive, Transfer.positive, if_neg hfirst, if_neg hsecond] at h
    have hall := h w.ext rfl
    simpa only [List.append_nil] using hall

/-- A function that loads a stream goes on with the one that is stored under the id, or panics. -/
theorem loadStream_spec {id : UInt64} {Q : TipStream → World X → Prop}
    (h : ∀ s, streamOf w id = some s → Q s w) :
    wp (loadStream id) (chain.ctx sequence auth) w Q := by
  simp only [loadStream, wp_bind, wp_persistentGet, wp_unwrapOrPanic]
  intro _ s hs
  exact h s hs

/-- The amount that `calculate_streamed_amount` computes, in a build with overflow checks: none of
its products and differences has wrapped. -/
theorem calculateStreamedAmount_spec {s : TipStream} {Q : I128 → World X → Prop}
    (h : ∀ amount, s.Streamed (chain.timestamp w.ext) amount → Q amount w) :
    wp (calculateStreamedAmount s) (chain.ctx sequence auth) w Q := by
  simp only [calculateStreamedAmount, wp_bind, wp_ledgerTimestamp, wp_ite, wp_pure,
    wp_dev_sub64, wp_dev_mul, Chain.ctx_timestamp]
  refine ⟨fun hstatus => h _ ⟨fun _ _ => rfl, fun hrunning => ?_⟩, fun hstatus => ?_⟩
  · rcases hrunning with hactive | hpaused
    · exact absurd hactive hstatus.1
    · exact absurd hpaused hstatus.2
  · -- the three ways of computing the seconds end in the same products
    have hfinish : ∀ elapsed : UInt64, elapsed.toNat = s.elapsed (chain.timestamp w.ext) →
        ∀ streamed : I128, streamed.val = s.amountPerSecond.val * (I128.ofUInt64 elapsed).val →
        ∀ length : UInt64, length.toNat + s.startTime.toNat = s.endTime.toNat →
        ∀ total : I128, total.val = s.amountPerSecond.val * (I128.ofUInt64 length).val →
        Q (streamed.smaller total) w := by
      intro elapsed helapsed streamed hstreamed length hlength total htotal
      refine h _ ⟨fun hactive hpaused => absurd ⟨hactive, hpaused⟩ hstatus, fun _ => ⟨by omega, ?_⟩⟩
      have hlen : s.length = length.toNat := by
        unfold TipStream.length
        omega
      rw [I128.val_smaller, hstreamed, htotal, I128.val_ofUInt64, I128.val_ofUInt64, helapsed, hlen]
    refine ⟨fun hbefore => ?_, fun hbefore => ⟨fun hafter => ?_, fun hafter => ?_⟩⟩
    · refine hfinish 0 ?_
      rw [TipStream.elapsed, if_pos hbefore]
      rfl
    · intro elapsed helapsed
      refine hfinish elapsed ?_
      rw [TipStream.elapsed, if_neg hbefore, if_pos hafter]
      omega
    · intro elapsed helapsed
      refine hfinish elapsed ?_
      rw [TipStream.elapsed, if_neg hbefore, if_neg hafter]
      omega

/-! ### The streams

Each function checks the pause, the authorisation and the stored stream before it computes. The
specification says what those checks have established and which one entry is written; that the two
counters stay is carried along, since the pause may have been lifted on the way. -/

/-- The whole of rate times duration moves to the contract, and the next id is taken. -/
theorem createStream_spec (sender creator token : Address) (rate : I128) (duration : UInt64) :
    wp (createStream sender creator token rate duration) (chain.ctx sequence auth) w
      fun _ w' => ∃ total s,
        CreatesStream chain auth sender creator token rate duration total s w w' := by
  simp only [createStream, wp_bind]
  refine requireNotPaused_spec fun inst writes hinst => ?_
  simp only [wp_requireAuth, wp_panicIf, Chain.ctx_auth]
  intro hauth hpos hle hduration
  refine requireWhitelisted_spec ?_
  simp only [wp_instanceGet, wp_ledgerTimestamp, wp_dev_mul, wp_dev_add64, wp_persistentSet,
    wp_instanceSet, wp_persistentGet, wp_currentContractAddress, wp_tokenTransfer, wp_publish,
    wp_pure, Chain.ctx_timestamp, Chain.ctx_self]
  intro total htotal endTime hendTime _ next hnext _ _ _ _ x hx
  have hctr : inst.get (.stream .ctr) = w.inst.get (.stream .ctr) :=
    hinst _ (by decide) (by decide) (by decide)
  -- the counter is read after the check of the pause
  rw [hctr] at hnext hx ⊢
  refine ⟨total, _, hauth, not_le.mp hpos, not_lt.mp hle, ?_, htotal, hendTime, rfl, ⟨_, _, rfl⟩, ?_,
    ⟨Chain.transferAll_singleton.mpr hx, rfl⟩, ?_⟩
  · exact Nat.pos_of_ne_zero fun hzero => hduration (UInt64.toNat_inj.mp hzero)
  · simpa [nextStreamId] using hnext
  · simp [nextMetaId, hinst .metaTxCounter (by decide) (by decide) (by decide)]

/-- The two counters are not among the entries of the pause. -/
theorem SameSettings.nextStreamId (h : SameSettings w.inst w'.inst) :
    TipJarLegacy.nextStreamId w' = TipJarLegacy.nextStreamId w := by
  unfold TipJarLegacy.nextStreamId
  rw [h _ (by decide) (by decide) (by decide)]

theorem SameSettings.nextMetaId (h : SameSettings w.inst w'.inst) :
    TipJarLegacy.nextMetaId w' = TipJarLegacy.nextMetaId w := by
  unfold TipJarLegacy.nextMetaId
  rw [h _ (by decide) (by decide) (by decide)]

/-- `start_stream` and `cancel_stream` refuse two of the four states; these two are left. -/
theorem running_of_not_ended {status : StreamStatus} (hcancelled : ¬status = .cancelled)
    (hcompleted : ¬status = .completed) : status = .active ∨ status = .paused := by
  cases status with
  | active => exact .inl rfl
  | paused => exact .inr rfl
  | cancelled => exact absurd rfl hcancelled
  | completed => exact absurd rfl hcompleted

/-- A stopped stream is shifted by the time since its last update; one that runs is only stamped. -/
theorem startStream_spec (sender : Address) (id : UInt64) :
    wp (startStream sender id) (chain.ctx sequence auth) w
      fun _ w' => ∃ s s', s.sender = sender ∧ StartsStream chain auth id s s' w w' := by
  simp only [startStream, wp_bind]
  refine requireNotPaused_spec fun inst writes hinst => ?_
  simp only [wp_requireAuth, Chain.ctx_auth]
  refine fun hauth => loadStream_spec fun s hs => ?_
  simp only [wp_panicIf, wp_ledgerTimestamp, wp_ite, wp_bind, wp_dev_sub64, wp_dev_add64,
    wp_pure, wp_persistentSet, wp_publish, Chain.ctx_timestamp]
  intro hsender hcancelled hcompleted
  obtain rfl : s.sender = sender := not_not.mp hsender
  have hstatus := running_of_not_ended hcancelled hcompleted
  refine ⟨fun hpaused pause hpause startTime hstart endTime hend _ => ?_, fun hrunning _ => ?_⟩
  · refine ⟨s, _, rfl, ⟨hs, rfl, .none rfl rfl, hinst.nextStreamId, hinst.nextMetaId⟩, hauth,
      hstatus, ⟨fun _ => ⟨pause.toNat, hpause, hstart, hend⟩, fun h => absurd hpaused h, rfl⟩⟩
  · refine ⟨s, _, rfl, ⟨hs, rfl, .none rfl rfl, hinst.nextStreamId, hinst.nextMetaId⟩, hauth,
      hstatus, ⟨fun h => absurd h hrunning, fun _ => ⟨rfl, rfl⟩, rfl⟩⟩

/-- What the clock has counted is written to `withdrawn`, and nobody is paid. -/
theorem stopStream_spec (sender : Address) (id : UInt64) :
    wp (stopStream sender id) (chain.ctx sequence auth) w
      fun _ w' => ∃ s streamed, s.sender = sender ∧
        StopsStream chain auth id s streamed w w' := by
  simp only [stopStream, wp_bind]
  refine requireNotPaused_spec fun inst writes hinst => ?_
  simp only [wp_requireAuth, Chain.ctx_auth]
  refine fun hauth => loadStream_spec fun s hs => ?_
  simp only [wp_panicIf]
  intro hsender hactive _
  obtain rfl : s.sender = sender := not_not.mp hsender
  refine calculateStreamedAmount_spec fun streamed hstreamed => ?_
  simp only [wp_ledgerTimestamp, wp_persistentSet, wp_publish, Chain.ctx_timestamp]
  intro _
  exact ⟨s, streamed, rfl, ⟨hs, rfl, .none rfl rfl, hinst.nextStreamId, hinst.nextMetaId⟩, hauth,
    not_not.mp hactive, hstreamed⟩

/-- The creator is paid what the clock has counted beyond `withdrawn`. The total that the source
computes first is not used, but its computation can trap. -/
theorem withdrawStreamed_spec (creator : Address) (id : UInt64) :
    wp (withdrawStreamed creator id) (chain.ctx sequence auth) w
      fun _ w' => ∃ s streamed available, s.creator = creator ∧
        WithdrawsStream chain auth id s streamed available w w' := by
  simp only [withdrawStreamed, wp_bind]
  refine requireNotPaused_spec fun inst writes hinst => ?_
  simp only [wp_requireAuth, Chain.ctx_auth]
  refine fun hauth => loadStream_spec fun s hs => ?_
  simp only [wp_panicIf, wp_ledgerTimestamp, wp_dev_sub64, wp_dev_mul,
    Chain.ctx_timestamp]
  intro hcreator hcancelled hstarted length _ _ _
  obtain rfl : s.creator = creator := not_not.mp hcreator
  refine calculateStreamedAmount_spec fun streamed hstreamed => ?_
  simp only [wp_dev_sub, wp_persistentSet, wp_currentContractAddress, wp_tokenTransfer,
    wp_publish, Chain.ctx_self]
  intro available havailable hpositive _ x hx
  exact ⟨s, streamed, available, rfl,
    ⟨hs, rfl, ⟨Chain.transferAll_singleton.mpr hx, rfl⟩, hinst.nextStreamId, hinst.nextMetaId⟩,
    hauth, hcancelled, Nat.le_of_not_lt hstarted, hstreamed, havailable,
    not_le.mp hpositive⟩

/-- The sender gets back what the clock has not counted; a transfer of zero is left out. -/
theorem cancelStream_spec (sender : Address) (id : UInt64) :
    wp (cancelStream sender id) (chain.ctx sequence auth) w
      fun _ w' => ∃ s streamed remaining, s.sender = sender ∧
        CancelsStream chain auth id s streamed remaining w w' := by
  simp only [cancelStream, wp_bind]
  refine requireNotPaused_spec fun inst writes hinst => ?_
  simp only [wp_requireAuth, Chain.ctx_auth]
  refine fun hauth => loadStream_spec fun s hs => ?_
  simp only [wp_panicIf, wp_ledgerTimestamp]
  intro hsender hcancelled hcompleted
  obtain rfl : s.sender = sender := not_not.mp hsender
  refine calculateStreamedAmount_spec fun streamed hstreamed => ?_
  simp only [wp_dev_sub64, wp_dev_mul, wp_dev_sub, wp_persistentSet,
    wp_currentContractAddress, wp_onlyIf, wp_tokenTransfer, wp_publish, Chain.ctx_self,
    Chain.ctx_timestamp]
  intro length hlength total htotal remaining hremaining _
  -- the total of the stream is computed anew, from its rate and its two times
  have hremaining : remaining.val = s.amountPerSecond.val * s.length - streamed.val := by
    have hlen : s.length = length.toNat := by
      unfold TipStream.length
      omega
    rw [hremaining, htotal, hlen, I128.val_ofUInt64]
  have hstatus := running_of_not_ended hcancelled hcompleted
  refine ⟨fun hpos x hx => ?_, fun hpos => ?_⟩
  · refine ⟨s, streamed, remaining, rfl, ⟨hs, rfl, ?_, hinst.nextStreamId, hinst.nextMetaId⟩, hauth,
      hstatus, hstreamed, hremaining⟩
    rw [Transfer.positive, if_pos hpos]
    exact ⟨Chain.transferAll_singleton.mpr hx, rfl⟩
  · refine ⟨s, streamed, remaining, rfl, ⟨hs, rfl, ?_, hinst.nextStreamId, hinst.nextMetaId⟩, hauth,
      hstatus, hstreamed, hremaining⟩
    rw [Transfer.positive, if_neg hpos]
    exact .none rfl rfl

/-! ### The payment channels

Every function makes one move of `Channel.Step`, of the parties' own channel, and pays what the move
pays. The end of the dispute window is computed by the contract, so where it is, it fits. -/

/-- The phase in which the abstract channel sees an open one. -/
theorem PaymentChannel.phase_opened {ch : PaymentChannel} (h : ch.status = .opened) :
    ch.view.phase = .opened := by
  simp only [PaymentChannel.view, h]

/-- The phase in which the abstract channel sees a disputed one, with the time of the first claim.
-/
theorem PaymentChannel.phase_disputed {ch : PaymentChannel} (h : ch.status = .disputed) :
    ch.view.phase = .disputed ch.disputeStartedAt.toNat := by
  simp only [PaymentChannel.view, h]

/-- Where there is no channel no window has to fit. -/
theorem DisputeFits.fresh {x : Option (Channel ℕ)} (h : x = none) : DisputeFits x := by
  rw [h]
  intro c hc
  cases hc

/-- Nor does one while the channel is open. -/
theorem DisputeFits.opened {x : Option (Channel ℕ)} {c : Channel ℕ} (hx : x = some c)
    (hphase : c.phase = .opened) : DisputeFits x := by
  rw [hx]
  intro c' hc' since hdisputed
  obtain rfl := Option.some.inj hc'
  rw [hphase] at hdisputed
  cases hdisputed

/-- The contract has computed the end. -/
theorem DisputeFits.ends {x : Option (Channel ℕ)} {c : Channel ℕ} {since : Nat} {windowEnd : UInt64}
    (hx : x = some c) (hphase : c.phase = .disputed since)
    (hend : windowEnd.toNat = since + c.window) : DisputeFits x := by
  rw [hx]
  intro c' hc' since' hdisputed
  obtain rfl := Option.some.inj hc'
  rw [hphase] at hdisputed
  cases hdisputed
  rw [← hend]
  exact windowEnd.toNat_lt

/-- A function that loads a payment channel goes on with the one that is stored, or panics. -/
theorem loadChannel_spec {a b T : Address} {Q : PaymentChannel → World X → Prop}
    (h : ∀ ch, channelOf w a b T = some ch → Q ch w) :
    wp (loadChannel a b T) (chain.ctx sequence auth) w Q := by
  simp only [loadChannel, wp_bind, wp_persistentGet, wp_unwrapOrPanic]
  intro _ ch hch
  exact h ch hch

/-- Both parties authorise and pay; a channel that is there, closed or not, is not replaced. -/
theorem openChannel_spec (a b T : Address) (depositA depositB : I128) (window : UInt64) :
    wp (openChannel a b T depositA depositB window) (chain.ctx sequence auth) w
      fun _ w' => ∃ ch, MovesChannel chain auth a b T
        (.fund (depositA.val + depositB.val) window.toNat depositA.val 0) ch w w' := by
  simp only [openChannel, wp_bind]
  refine requireNotPaused_spec fun inst writes hinst => ?_
  simp only [wp_requireAuth, wp_panicIf, Chain.ctx_auth]
  intro ha hb hdeposits _
  refine requireWhitelisted_spec ?_
  simp only [PaymentChannel.openWith, wp_persistentHas, wp_bind, wp_dev_add,
    wp_ledgerTimestamp, wp_pure, wp_persistentSet, wp_currentContractAddress, wp_tokenTransfer,
    wp_publish, Chain.ctx_self, Chain.ctx_timestamp]
  intro _ hpresent total htotal _ x hx y hy _ _
  have hnone : channelOf w a b T = none := by
    cases hch : channelOf w a b T with
    | none => rfl
    | some ch =>
      have hsome : (w.pers.get (.paymentChannel a b T)).isSome = true := by
        rw [show w.pers.get (.paymentChannel a b T) = some ch from hch]
        rfl
      exact absurd hsome hpresent
  have hposA : 0 < depositA.val := not_le.mp fun h => hdeposits (.inl h)
  have hposB : 0 < depositB.val := not_le.mp fun h => hdeposits (.inr h)
  -- the second party's share is not stored, it is what is left of the total
  have hrest : total - depositA = depositB := I128.sub_eq_of_val (by omega)
  refine ⟨_, ?_, ⟨rfl, rfl, rfl⟩, rfl, ⟨?_, ?_⟩, ⟨ha, hb⟩, by simp [Channel.Move.time],
    hinst.nextStreamId, hinst.nextMetaId,
    .fresh (by rw [hnone]; rfl)⟩
  · rw [hnone, ← htotal]
    exact .fund hposA.le (by omega)
  · simp only [PaymentChannel.payments, PaymentChannel.rest, hrest]
    exact Chain.transferAll_cons.mpr ⟨x, hx, Chain.transferAll_singleton.mpr hy⟩
  · simp only [PaymentChannel.payments, PaymentChannel.rest, hrest, Env.publish_transfers,
      Env.transferred_transfers, Env.setPersistent_transfers, List.append_assoc]
    rfl

/-- An agreed state: signed by both, with a higher nonce, within the deposit. -/
theorem updateChannelState_spec (hw : Filed w) (a b T : Address) (balance : I128)
    (nonce : UInt64) :
    wp (updateChannelState a b T balance nonce) (chain.ctx sequence auth) w
      fun _ w' => ∃ ch, MovesChannel chain auth a b T (.agree balance.val nonce.toNat) ch w w' := by
  simp only [updateChannelState, wp_bind]
  refine requireNotPaused_spec fun inst writes hinst => ?_
  simp only [wp_requireAuth, Chain.ctx_auth]
  refine fun ha hb => loadChannel_spec fun ch hch => ?_
  have hch : channelOf w a b T = some ch := hch
  simp only [wp_panicIf, wp_persistentSet, wp_publish]
  intro hstatus hnonce hbounds _
  have hbetween := hw.channels a b T ch hch
  refine ⟨{ ch with balanceA := balance, nonce }, ?_,
    ⟨hbetween.partyA, hbetween.partyB, hbetween.token⟩, rfl, .none rfl rfl, ⟨ha, hb⟩,
    by simp [Channel.Move.time], hinst.nextStreamId, hinst.nextMetaId,
    .opened (by rw [hch]; rfl) (PaymentChannel.phase_opened (not_not.mp hstatus))⟩
  rw [hch]
  exact .agree (PaymentChannel.phase_opened (not_not.mp hstatus))
    (UInt64.lt_iff_toNat_lt.mp (UInt64.not_le.mp hnonce)) (not_lt.mp fun h => hbounds (.inl h))
    (not_lt.mp fun h => hbounds (.inr h))

/-- Both parties authorise, and the stored split is paid out. -/
theorem cooperativeClose_spec (hw : Filed w) (a b T : Address) :
    wp (cooperativeClose a b T) (chain.ctx sequence auth) w
      fun _ w' => ∃ ch, MovesChannel chain auth a b T .settle ch w w' := by
  simp only [cooperativeClose, wp_bind]
  refine requireNotPaused_spec fun inst writes hinst => ?_
  simp only [wp_requireAuth, Chain.ctx_auth]
  refine fun ha hb => loadChannel_spec fun ch hch => ?_
  have hch : channelOf w a b T = some ch := hch
  simp only [PaymentChannel.balanceB, wp_panicIf, wp_dev_sub, wp_persistentSet]
  intro hstatus balB hbalB _
  refine payOut_spec fun x hx => ?_
  simp only [wp_publish]
  have hbetween := hw.channels a b T ch hch
  have hrest : ch.totalDeposit - ch.balanceA = balB := I128.sub_eq_of_val hbalB
  refine ⟨{ ch with status := .closed }, ?_, ⟨hbetween.partyA, hbetween.partyB, hbetween.token⟩,
    rfl, ⟨?_, ?_⟩, ⟨ha, hb⟩, by simp [Channel.Move.time], hinst.nextStreamId, hinst.nextMetaId,
    .opened (by rw [hch]; rfl) (PaymentChannel.phase_opened (not_not.mp hstatus))⟩
  · rw [hch]
    exact .settle (PaymentChannel.phase_opened (not_not.mp hstatus))
  · simp only [PaymentChannel.payments, PaymentChannel.rest, hrest]
    exact hx
  · simp only [PaymentChannel.payments, PaymentChannel.rest, hrest]
    rfl

/-- A caller that is one of the parties authorises for it. -/
theorem party_authorises {caller p q : Address} (hcaller : caller ∈ auth)
    (hparty : ¬(caller ≠ p ∧ caller ≠ q)) : p ∈ auth ∨ q ∈ auth := by
  by_cases hp : caller = p
  · rw [hp] at hcaller
    exact .inl hcaller
  · by_cases hq : caller = q
    · rw [hq] at hcaller
      exact .inr hcaller
    · exact absurd ⟨hp, hq⟩ hparty

/-- The contract compares the clock with the end of the window that it has computed. -/
theorem lt_windowEnd_iff {now started window windowEnd : UInt64}
    (hend : windowEnd.toNat = started.toNat + window.toNat) :
    now < windowEnd ↔ ¬started.toNat + window.toNat ≤ now.toNat := by
  rw [UInt64.lt_iff_toNat_lt, hend]
  exact not_le.symm

/-- What `dispute_close` does is decided by the stored channel and the time: the first claim, an
answer within the window, or the payment after it. `channelMove` names the move, and the case that
is taken makes it. -/
theorem disputeClose_spec (hw : Filed w) (caller a b T : Address) (balance : I128)
    (nonce : UInt64) :
    wp (disputeClose caller a b T balance nonce) (chain.ctx sequence auth) w
      fun _ w' => ∃ m ch, (Entrypoint.disputeClose caller a b T balance nonce).channelMove w
          (chain.timestamp w.ext) = some (a, b, T, m) ∧
        MovesChannel chain auth a b T m ch w w' := by
  simp only [disputeClose, wp_bind]
  refine requireNotPaused_spec fun inst writes hinst => ?_
  simp only [wp_requireAuth, Chain.ctx_auth]
  refine fun hcaller => loadChannel_spec fun ch hch => ?_
  have hch : channelOf w a b T = some ch := hch
  have hbetween := hw.channels a b T ch hch
  have hparty : ¬(caller ≠ ch.partyA ∧ caller ≠ ch.partyB) → a ∈ auth ∨ b ∈ auth := by
    rw [hbetween.partyA, hbetween.partyB]
    exact party_authorises hcaller
  have hmove : (Entrypoint.disputeClose caller a b T balance nonce).channelMove w
      (chain.timestamp w.ext) = some (a, b, T, disputeMove ch.view (chain.timestamp w.ext).toNat
        balance.val nonce.toNat) := by
    simp only [Entrypoint.channelMove, hch, Option.map_some]
  cases hstatus : ch.status with
  | opened =>
    have hphase := PaymentChannel.phase_opened hstatus
    rw [disputeMove, hphase] at hmove
    simp only [wp_panicIf, wp_ledgerTimestamp, wp_bind, wp_persistentSet, wp_publish]
    intro hcallerIs hbounds hnonce _
    refine ⟨_, { ch with
        status := .disputed
        disputeStartedAt := chain.timestamp w.ext
        disputer := some caller
        balanceA := balance
        nonce }, hmove, ?_, ⟨hbetween.partyA, hbetween.partyB, hbetween.token⟩, rfl,
      .none rfl rfl, hparty hcallerIs, by simp [Channel.Move.time], hinst.nextStreamId,
      hinst.nextMetaId,
      .opened (by rw [hch]; rfl) hphase⟩
    rw [hch]
    exact .challenge hphase (UInt64.le_iff_toNat_le.mp (UInt64.not_lt.mp hnonce))
      (not_lt.mp fun h => hbounds (.inl h)) (not_lt.mp fun h => hbounds (.inr h))
  | disputed =>
    have hphase := PaymentChannel.phase_disputed hstatus
    rw [disputeMove, hphase] at hmove
    simp only [wp_panicIf, wp_ledgerTimestamp, wp_bind, wp_dev_add64, wp_ite, wp_persistentSet,
      wp_publish]
    intro hcallerIs windowEnd hend
    refine ⟨fun hearly => ?_, fun hlate => ?_⟩
    · -- within the window the claim is answered, with a higher nonce
      intro hnonce hbounds _
      have hearly : ¬ch.disputeStartedAt.toNat + ch.view.window ≤ (chain.timestamp w.ext).toNat :=
        (lt_windowEnd_iff hend).mp hearly
      simp only [if_neg hearly] at hmove
      refine ⟨_, { ch with status := .disputed, balanceA := balance, nonce }, hmove, ?_,
        ⟨hbetween.partyA, hbetween.partyB, hbetween.token⟩, rfl, .none rfl rfl, hparty hcallerIs,
        by simp [Channel.Move.time], hinst.nextStreamId, hinst.nextMetaId,
        .ends (by rw [hch]; rfl) hphase hend⟩
      have hstep := Channel.Step.counter hphase (not_le.mp hearly)
        (UInt64.lt_iff_toNat_lt.mp (UInt64.not_le.mp hnonce))
        (not_lt.mp fun h => hbounds (.inl h)) (not_lt.mp fun h => hbounds (.inr h))
      rw [hphase] at hstep
      rw [hch]
      exact hstep
    · -- after it the last claim is paid out, whatever the call proposes
      have hlate : ch.disputeStartedAt.toNat + ch.view.window ≤ (chain.timestamp w.ext).toNat :=
        not_not.mp (mt (lt_windowEnd_iff hend).mpr hlate)
      simp only [if_pos hlate] at hmove
      simp only [PaymentChannel.balanceB, wp_dev_sub]
      intro balB hbalB _
      refine payOut_spec fun x hx => ?_
      have hrest : ch.totalDeposit - ch.balanceA = balB := I128.sub_eq_of_val hbalB
      refine ⟨_, { ch with status := .closed }, hmove, ?_,
        ⟨hbetween.partyA, hbetween.partyB, hbetween.token⟩, rfl, ⟨?_, ?_⟩, hparty hcallerIs,
        by simp [Channel.Move.time], hinst.nextStreamId, hinst.nextMetaId,
        .ends (by rw [hch]; rfl) hphase hend⟩
      · rw [hch]
        exact .finalise hphase hlate
      · simp only [PaymentChannel.payments, PaymentChannel.rest, hrest]
        exact hx
      · simp only [PaymentChannel.payments, PaymentChannel.rest, hrest]
        rfl
  | closed => simp

/-! ### The tip channels

The library saves a channel under the parties it holds, not under those of the call. They are the
same in a world whose channels are filed under their own parties, which is where `Filed` is used. -/

/-- The phase in which the abstract channel sees an open tip channel. -/
theorem TipStateChannel.phase_opened {ch : TipStateChannel} (h : ch.status = .opened) :
    ch.view.phase = .opened := by
  simp only [TipStateChannel.view, h]

/-- The phase in which the abstract channel sees a disputed tip channel. -/
theorem TipStateChannel.phase_disputed {ch : TipStateChannel} (h : ch.status = .disputed) :
    ch.view.phase = .disputed ch.disputeStartedAt.toNat := by
  simp only [TipStateChannel.view, h]

/-- `load` of the library traps where no channel is stored. -/
theorem load_spec {t c T : Address} {Q : TipStateChannel → World X → Prop}
    (h : ∀ ch, tipChannelOf w t c T = some ch → Q ch w) :
    wp (StateChannel.load t c T) (chain.ctx sequence auth) w Q := by
  simp only [StateChannel.load, wp_bind, wp_persistentGet, wp_unwrapOrTrap]
  intro _ ch hch
  exact h ch hch

/-- The entrypoints ask first whether there is a channel, with an error of their own. -/
theorem loadTipChannel_spec {t c T : Address} {Q : TipStateChannel → World X → Prop}
    (h : ∀ ch, tipChannelOf w t c T = some ch → Q ch w) :
    wp (loadTipChannel t c T) (chain.ctx sequence auth) w Q := by
  simp only [loadTipChannel, wp_bind, wp_persistentHas, wp_panicIf]
  intro _ _
  exact load_spec h

/-- The check of `has` before a channel is opened. -/
theorem tipChannelOf_eq_none {t c T : Address}
    (h : ¬(w.pers.get (.tipChannel t c T)).isSome = true) : tipChannelOf w t c T = none := by
  cases hch : tipChannelOf w t c T with
  | none => rfl
  | some ch =>
    have hsome : (w.pers.get (.tipChannel t c T)).isSome = true := by
      rw [show w.pers.get (.tipChannel t c T) = some ch from hch]
      rfl
    exact absurd hsome h

/-- The check of the pause before it does not change what a move does. -/
theorem MovesTipChannel.of_settings {t c T : Address} {m : Channel.Move ℕ} {ch : TipStateChannel}
    {inst : Store DataKey DataKey.Val} {writes : List (Slot DataKey)}
    (h : MovesTipChannel chain auth t c T m ch { w with inst, writes } w')
    (hinst : SameSettings w.inst inst) : MovesTipChannel chain auth t c T m ch w w' := by
  have hwrites : WritesTipChannel t c T (chain.timestamp w.ext) m ch w w' := by
    cases m with
    | agree share nonce =>
      obtain ⟨before, hbefore, hrecords⟩ := h.writes
      exact ⟨before, hbefore, hrecords.count, hrecords.entry, hrecords.monotone⟩
    | _ => exact h.writes
  exact ⟨h.step, h.between, hwrites, ⟨h.sends.ext, h.sends.transfers⟩, h.authorised, h.timed,
    h.streams.trans hinst.nextStreamId, h.records.trans hinst.nextMetaId,
    h.fits⟩

/-- The part that `open_tip_channel` and a meta-transaction share: the tipper's deposit moves in,
and the channel starts with nothing tipped. -/
theorem openWith_spec {t c T : Address} {deposit : I128} {window : UInt64}
    (hnone : tipChannelOf w t c T = none) (hdeposit : 0 < deposit.val) :
    wp (StateChannel.openWith t c T deposit window) (chain.ctx sequence auth) w
      fun _ w' => ∃ ch,
        MovesTipChannel chain auth t c T (.fund deposit.val window.toNat 0 0) ch w w' := by
  simp only [StateChannel.openWith, StateChannel.save, wp_bind, wp_ledgerTimestamp,
    wp_persistentSet, wp_currentContractAddress, wp_tokenTransfer, wp_publish, Chain.ctx_self]
  intro _ x hx
  refine ⟨_, ?_, ⟨rfl, rfl, rfl⟩, ⟨⟨rfl, rfl⟩, rfl⟩, ⟨Chain.transferAll_singleton.mpr hx, rfl⟩,
    fun h => absurd h (by simp [Channel.Move.funds]), by simp [Channel.Move.time], rfl, rfl,
    .fresh (by rw [hnone]; rfl)⟩
  rw [hnone]
  exact .fund le_rfl hdeposit.le

/-- Only the tipper has to authorise. -/
theorem openTipChannel_spec (t c T : Address) (deposit : I128) (window : UInt64) :
    wp (openTipChannel t c T deposit window) (chain.ctx sequence auth) w
      fun _ w' => t ∈ auth ∧ ∃ ch,
        MovesTipChannel chain auth t c T (.fund deposit.val window.toNat 0 0) ch w w' := by
  simp only [openTipChannel, wp_bind]
  refine requireNotPaused_spec fun inst writes hinst => ?_
  simp only [wp_requireAuth, wp_panicIf, Chain.ctx_auth]
  intro hauth hdeposit _
  refine requireWhitelisted_spec ?_
  simp only [wp_persistentHas]
  intro _ hpresent
  refine wp_mono (openWith_spec (tipChannelOf_eq_none hpresent) (not_le.mp hdeposit)) ?_
  intro _ w' hex
  obtain ⟨ch, hmoves⟩ := hex
  exact ⟨hauth, ch, hmoves.of_settings hinst⟩

/-- The new total of the tips is agreed by both parties and never below the old one; the difference
is listed as a tip of its own. -/
theorem recordChannelTip_spec (hw : Filed w) (t c T : Address) (amount : I128) (nonce : UInt64) :
    wp (recordChannelTip t c T amount nonce) (chain.ctx sequence auth) w
      fun _ w' => ∃ ch,
        MovesTipChannel chain auth t c T (.agree amount.val nonce.toNat) ch w w' := by
  simp only [recordChannelTip, wp_bind]
  refine requireNotPaused_spec fun inst writes hinst => ?_
  simp only [wp_requireAuth, Chain.ctx_auth]
  refine fun ht hc => loadTipChannel_spec fun ch hch => ?_
  have hch : tipChannelOf w t c T = some ch := hch
  simp only [wp_panicIf, StateChannel.recordTip, wp_bind]
  intro hstatus hnonce hmono hdeposit
  refine load_spec fun ch' hch' => ?_
  obtain rfl : ch = ch' := Option.some.inj (hch.symm.trans hch')
  simp only [StateChannel.save, wp_assertOrTrap, wp_dev_sub, wp_dev_add64, wp_ledgerTimestamp,
    wp_persistentSet, wp_publish]
  intro _ _ _ _ tipAmount htipAmount tipCount htipCount _ _
  -- it is saved under the key of its own parties
  obtain ⟨rfl, rfl, rfl⟩ := hw.tipChannels t c T ch hch
  refine ⟨{ ch with tippedAmount := amount, nonce, tipCount }, ?_,
    ⟨rfl, rfl, rfl⟩,
    ⟨ch, hch, htipCount, ⟨tipAmount, htipAmount, rfl⟩, not_lt.mp hmono⟩, .none rfl rfl,
    fun _ => ⟨ht, hc⟩, by simp [Channel.Move.time], hinst.nextStreamId, hinst.nextMetaId,
    .opened (by rw [hch]; rfl) (TipStateChannel.phase_opened (not_not.mp hstatus))⟩
  have hnonneg := (hw.tipShares _ _ _ ch hch).1
  have hle : ch.tippedAmount.val ≤ amount.val := not_lt.mp hmono
  rw [hch]
  exact .agree (TipStateChannel.phase_opened (not_not.mp hstatus))
    (UInt64.lt_iff_toNat_lt.mp (UInt64.not_le.mp hnonce)) (hnonneg.trans hle) (not_lt.mp hdeposit)

/-- Both parties authorise, and the agreed total is paid to the creator, the rest to the tipper. -/
theorem settleTipChannel_spec (hw : Filed w) (t c T : Address) :
    wp (settleTipChannel t c T) (chain.ctx sequence auth) w
      fun _ w' => ∃ ch, MovesTipChannel chain auth t c T .settle ch w w' := by
  simp only [settleTipChannel, wp_bind]
  refine requireNotPaused_spec fun inst writes hinst => ?_
  simp only [wp_requireAuth, Chain.ctx_auth]
  refine fun ht hc => loadTipChannel_spec fun ch hch => ?_
  have hch : tipChannelOf w t c T = some ch := hch
  simp only [wp_panicIf, StateChannel.settle, wp_bind]
  intro hstatus
  refine load_spec fun ch' hch' => ?_
  obtain rfl : ch = ch' := Option.some.inj (hch.symm.trans hch')
  simp only [StateChannel.save, wp_assertOrTrap, wp_dev_sub, wp_persistentSet]
  intro hopened toTipper htoTipper _
  refine payOut_spec fun x hx => ?_
  simp only [wp_publish]
  -- it is saved under the key of its own parties
  obtain ⟨rfl, rfl, rfl⟩ := hw.tipChannels t c T ch hch
  have hrest : ch.deposit - ch.tippedAmount = toTipper := I128.sub_eq_of_val htoTipper
  refine ⟨{ ch with status := .settled }, ?_, ⟨rfl, rfl, rfl⟩,
    ⟨⟨ch, hch, rfl⟩, rfl⟩, ⟨?_, ?_⟩, fun _ => ⟨ht, hc⟩, by simp [Channel.Move.time],
    hinst.nextStreamId, hinst.nextMetaId,
    .opened (by rw [hch]; rfl) (TipStateChannel.phase_opened (not_not.mp hstatus))⟩
  · rw [hch]
    exact .settle (TipStateChannel.phase_opened hopened)
  · simp only [TipStateChannel.payments, TipStateChannel.rest, hrest]
    exact hx
  · simp only [TipStateChannel.payments, TipStateChannel.rest, hrest]
    rfl

/-- The three moves of `dispute_close`, for a tip channel; the amount is checked against the deposit
in each of them, also where it is not used. -/
theorem disputeTipChannel_spec (hw : Filed w) (caller t c T : Address) (amount : I128)
    (nonce : UInt64) :
    wp (disputeTipChannel caller t c T amount nonce) (chain.ctx sequence auth) w
      fun _ w' => ∃ m ch, (Entrypoint.disputeTipChannel caller t c T amount nonce).tipChannelMove w
          (chain.timestamp w.ext) = some (t, c, T, m) ∧
        MovesTipChannel chain auth t c T m ch w w' := by
  simp only [disputeTipChannel, wp_bind]
  refine requireNotPaused_spec fun inst writes hinst => ?_
  simp only [wp_requireAuth, Chain.ctx_auth]
  refine fun hcaller => loadTipChannel_spec fun ch hch => ?_
  have hch : tipChannelOf w t c T = some ch := hch
  obtain ⟨rfl, rfl, rfl⟩ := hw.tipChannels t c T ch hch
  have hmove : (Entrypoint.disputeTipChannel caller ch.tipper ch.creator ch.token amount
      nonce).tipChannelMove w (chain.timestamp w.ext) = some (ch.tipper, ch.creator, ch.token,
        disputeMove ch.view (chain.timestamp w.ext).toNat amount.val nonce.toNat) := by
    simp only [Entrypoint.tipChannelMove, hch, Option.map_some]
  simp only [wp_panicIf, StateChannel.dispute, wp_bind]
  intro hcallerIs _ hbounds
  have hlo : 0 ≤ amount.val := not_lt.mp fun h => hbounds (.inl h)
  have hhi : amount.val ≤ ch.deposit.val := not_lt.mp fun h => hbounds (.inr h)
  refine load_spec fun ch' hch' => ?_
  obtain rfl : ch = ch' := Option.some.inj (hch.symm.trans hch')
  cases hstatus : ch.status with
  | opened =>
    have hphase := TipStateChannel.phase_opened hstatus
    rw [disputeMove, hphase] at hmove
    simp only [StateChannel.save, wp_assertOrTrap, wp_ledgerTimestamp, wp_bind, wp_persistentSet,
      wp_publish]
    intro _ _ _ hnonce _
    refine ⟨_, { ch with
        status := .disputed
        disputeStartedAt := chain.timestamp w.ext
        disputer := some caller
        tippedAmount := amount
        nonce }, hmove, ?_, ⟨rfl, rfl, rfl⟩,
      ⟨⟨ch, hch, rfl⟩, rfl⟩, .none rfl rfl, fun _ => party_authorises hcaller hcallerIs,
      by simp [Channel.Move.time],
      hinst.nextStreamId, hinst.nextMetaId,
      .opened (by rw [hch]; rfl) hphase⟩
    rw [hch]
    exact .challenge hphase (UInt64.le_iff_toNat_le.mp hnonce) hlo hhi
  | disputed =>
    have hphase := TipStateChannel.phase_disputed hstatus
    rw [disputeMove, hphase] at hmove
    simp only [StateChannel.save, wp_assertOrTrap, wp_ledgerTimestamp, wp_bind, wp_dev_add64,
      wp_ite, wp_dev_sub, wp_persistentSet, wp_publish]
    intro _ windowEnd hend
    refine ⟨fun hearly => ?_, fun hlate => ?_⟩
    · -- within the window the claim is answered, with a higher nonce
      intro hnonce _ _ _
      have hearly : ¬ch.disputeStartedAt.toNat + ch.view.window ≤ (chain.timestamp w.ext).toNat :=
        (lt_windowEnd_iff hend).mp hearly
      simp only [if_neg hearly] at hmove
      refine ⟨_, { ch with status := .disputed, tippedAmount := amount, nonce }, hmove, ?_,
        ⟨rfl, rfl, rfl⟩, ⟨⟨ch, hch, rfl⟩, rfl⟩, .none rfl rfl,
        fun _ => party_authorises hcaller hcallerIs, by simp [Channel.Move.time], hinst.nextStreamId,
        hinst.nextMetaId,
        .ends (by rw [hch]; rfl) hphase hend⟩
      have hstep := Channel.Step.counter hphase (not_le.mp hearly)
        (UInt64.lt_iff_toNat_lt.mp hnonce) hlo hhi
      rw [hphase] at hstep
      rw [hch]
      exact hstep
    · -- after it the last claim is paid out
      have hlate : ch.disputeStartedAt.toNat + ch.view.window ≤ (chain.timestamp w.ext).toNat :=
        not_not.mp (mt (lt_windowEnd_iff hend).mpr hlate)
      simp only [if_pos hlate] at hmove
      intro toTipper htoTipper _
      refine payOut_spec fun x hx => ?_
      have hrest : ch.deposit - ch.tippedAmount = toTipper := I128.sub_eq_of_val htoTipper
      refine ⟨_, { ch with status := .settled }, hmove, ?_,
        ⟨rfl, rfl, rfl⟩, ⟨⟨ch, hch, rfl⟩, rfl⟩, ⟨?_, ?_⟩,
        fun _ => party_authorises hcaller hcallerIs, by simp [Channel.Move.time], hinst.nextStreamId,
        hinst.nextMetaId,
        .ends (by rw [hch]; rfl) hphase hend⟩
      · rw [hch]
        exact .finalise hphase hlate
      · simp only [TipStateChannel.payments, TipStateChannel.rest, hrest]
        exact hx
      · simp only [TipStateChannel.payments, TipStateChannel.rest, hrest]
        rfl
  | settled => simp

/-- The loop of `get_channel_tips` only reads, and collects what is stored under the indices. -/
theorem collectTips_spec (t c T : Address) (is : List UInt64) (tips : List ChannelTip) :
    wp (StateChannel.collectTips t c T tips is) (chain.ctx sequence auth) w
      fun result w' => result = tips ++ is.filterMap (tipEntryOf w t c T) ∧ w' = w := by
  induction is generalizing tips with
  | nil => simp [StateChannel.collectTips]
  | cons i is ih =>
    simp only [StateChannel.collectTips, wp_bind, wp_persistentGet, List.filterMap_cons]
    intro _
    cases hentry : w.pers.get (.tipChannelEntry t c T i) with
    | none =>
      rw [show tipEntryOf w t c T i = none from hentry]
      simpa using ih tips
    | some entry =>
      rw [show tipEntryOf w t c T i = some entry from hentry]
      simpa using ih (tips ++ [entry])

/-- What `get_tip_channel_tips` returns. -/
def tipsOf (w : World X) (t c T : Address) (ch : TipStateChannel) : List ChannelTip :=
  (StateChannel.indices ch.tipCount).filterMap (tipEntryOf w t c T)

/-- The query answers the listed tips of the stored channel. -/
theorem getTipChannelTips_spec (t c T : Address) :
    wp (getTipChannelTips t c T) (chain.ctx sequence auth) w
      fun tips w' => (∃ ch, tipChannelOf w t c T = some ch ∧ tips = tipsOf w t c T ch) ∧ w' = w := by
  simp only [getTipChannelTips, StateChannel.getChannelTips, wp_bind]
  refine load_spec fun ch hch => ?_
  refine wp_mono (collectTips_spec t c T _ []) ?_
  rintro tips w' ⟨rfl, rfl⟩
  exact ⟨⟨ch, hch, rfl⟩, rfl⟩

/-! ### The meta-transactions

`execute_meta_tip` verifies, acts and records. The three parts have a specification each, since the
action runs in the world that the verification has read. -/

/-- A request that passes `verify` has met the checks it makes, and nothing has been written. -/
theorem verify_spec {crypto : Crypto} {relayer : Address} {req : MetaTipRequest}
    {Q : BytesN 32 → World X → Prop} (hamount : 0 < req.amount.val)
    (h : Verified crypto (chain.timestamp w.ext) relayer req w →
      Q (MetaTx.canonicalHash crypto req) w) :
    wp (MetaTx.verify crypto relayer req) (chain.ctx sequence auth) w Q := by
  simp only [MetaTx.verify, MetaTx.isTrustedRelayer, MetaTx.getNonce, MetaTx.isConsumed, wp_bind,
    wp_instanceGet, wp_pure, wp_assertOrTrap, wp_ledgerTimestamp, wp_persistentGet,
    Chain.ctx_timestamp]
  intro htrusted hvalid _ hnonce _ hfresh hsigned
  exact h ⟨hamount, htrusted, hvalid, hnonce, hfresh, hsigned⟩

/-- One of the two actions of a request: a tip to the creator's balance, or a new tip channel. -/
theorem executeMetaAction_spec (req : MetaTipRequest)
    (hamount : 0 < req.amount.val) :
    wp (executeMetaAction req) (chain.ctx sequence auth) w
      fun _ w' => MetaActs chain auth req w w' := by
  unfold executeMetaAction
  cases haction : req.action with
  | tip =>
    simp only [wp_bind, wp_currentContractAddress, wp_tokenTransfer, wp_persistentGet,
      wp_dev_add, wp_persistentSet, wp_persistentExtendTtl, wp_publish, Chain.ctx_self]
    intro x hx _ balance hbalance _ _ _ _ total _ _ _ _
    exact .tip ⟨haction, hamount, ⟨_, _, hbalance, rfl⟩,
      ⟨Chain.transferAll_singleton.mpr hx, rfl⟩, rfl, rfl⟩
  | openChannel =>
    simp only [wp_bind, wp_persistentHas, wp_panicIf]
    intro _ hpresent
    refine wp_mono (openWith_spec (tipChannelOf_eq_none hpresent) hamount) ?_
    intro _ w' hex
    obtain ⟨ch, hmoves⟩ := hex
    exact .openChannel haction ch hmoves

/-- The nonce goes up by one, the hash is spent and the request is recorded under the next id. -/
theorem finalize_spec (crypto : Crypto) (relayer : Address) (req : MetaTipRequest) :
    wp (MetaTx.finalize relayer req (MetaTx.canonicalHash crypto req)) (chain.ctx sequence auth) w
      fun _ w' => Finalises crypto relayer req w w' := by
  simp only [MetaTx.finalize, MetaTx.bumpNonce, MetaTx.getNonce, MetaTx.nextRecordId, wp_bind,
    wp_persistentSet, wp_persistentGet, wp_instanceGet, wp_instanceSet, wp_dev_add64,
    wp_ledgerTimestamp, wp_publish, wp_pure]
  intro _ _ next hnext _ nextId hnextId _
  refine ⟨⟨next, _, ?_, rfl⟩, rfl, rfl, ?_, ?_⟩
  · simpa [metaNonce] using hnext
  · simp [nextStreamId]
  · simpa [nextMetaId] using hnextId

/-- The checks are made against the state before the call, and the action is done before the nonce,
the hash and the record are written. -/
theorem executeMetaTip_spec (crypto : Crypto) (relayer : Address) (req : MetaTipRequest) :
    wp (executeMetaTip crypto relayer req) (chain.ctx sequence auth) w
      fun _ w' => ∃ w₁, Verified crypto (chain.timestamp w.ext) relayer req w ∧
        MetaActs chain auth req w w₁ ∧ Finalises crypto relayer req w₁ w' := by
  simp only [executeMetaTip, wp_bind]
  refine requireNotPaused_spec fun inst writes hinst => ?_
  simp only [wp_requireAuth, wp_panicIf, Chain.ctx_auth]
  intro _ hamount
  have hamount : 0 < req.amount.val := not_le.mp hamount
  refine requireWhitelisted_spec (verify_spec hamount fun hverified => ?_)
  refine wp_mono (executeMetaAction_spec req hamount) fun _ w₁ hacts => ?_
  refine wp_mono (finalize_spec crypto relayer req) fun _ w' hfinal => ?_
  refine ⟨w₁, ?_, ?_, hfinal⟩
  · -- the list of relayers is not touched by the check of the pause
    have htrusted := hverified.trusted
    simp only [hinst (.metaTxRelayer relayer) (by simp) (by simp) (by simp)] at htrusted
    exact ⟨hamount, htrusted, hverified.valid, hverified.nonce, hverified.fresh, hverified.signed⟩
  · cases hacts with
    | tip h =>
      exact .tip ⟨h.action, hamount, h.pers, ⟨h.sends.ext, h.sends.transfers⟩,
        h.streams.trans hinst.nextStreamId, h.records.trans hinst.nextMetaId⟩
    | openChannel haction ch h => exact .openChannel haction ch (h.of_settings hinst)

/-! ### The other functions

The settings are written by the admin alone, and nothing that a stream or a channel is made of is
among them. -/

/-- The first admin. -/
theorem init_spec (admin : Address) :
    wp (init admin) (chain.ctx sequence auth) w fun _ w' => Silent w w' := by
  simp only [init, wp_bind, wp_instanceHas, wp_panicIf, wp_instanceSet, wp_instanceExtendTtl]
  intro _
  exact ⟨rfl, rfl, rfl, by simp [nextStreamId], by simp [nextMetaId]⟩

theorem addToken_spec (admin token : Address) :
    wp (addToken admin token) (chain.ctx sequence auth) w fun _ w' => Silent w w' := by
  simp only [addToken, wp_bind]
  refine requireStoredAdmin_spec fun _ _ => ?_
  simp only [wp_instanceSet]
  exact ⟨rfl, rfl, rfl, by simp [nextStreamId], by simp [nextMetaId]⟩

theorem removeToken_spec (admin token : Address) :
    wp (removeToken admin token) (chain.ctx sequence auth) w fun _ w' => Silent w w' := by
  simp only [removeToken, wp_bind]
  refine requireStoredAdmin_spec fun _ _ => ?_
  simp only [wp_instanceSet]
  exact ⟨rfl, rfl, rfl, by simp [nextStreamId], by simp [nextMetaId]⟩

theorem pause_spec (admin : Address) (reason : String) :
    wp (pause admin reason) (chain.ctx sequence auth) w fun _ w' => Silent w w' := by
  simp only [pause, wp_bind]
  refine requireStoredAdmin_spec fun _ _ => ?_
  simp only [wp_instanceSet, wp_publish]
  exact ⟨rfl, rfl, rfl, by simp [nextStreamId], by simp [nextMetaId]⟩

theorem unpause_spec (admin : Address) :
    wp (unpause admin) (chain.ctx sequence auth) w fun _ w' => Silent w w' := by
  simp only [unpause, wp_bind]
  refine requireStoredAdmin_spec fun _ _ => ?_
  simp only [wp_instanceSet, wp_instanceRemove, wp_publish]
  exact ⟨rfl, rfl, rfl, by simp [nextStreamId], by simp [nextMetaId]⟩

theorem registerMetaRelayer_spec (admin relayer : Address) :
    wp (registerMetaRelayer admin relayer) (chain.ctx sequence auth) w fun _ w' => Silent w w' := by
  simp only [registerMetaRelayer, wp_bind]
  refine requireStoredAdmin_spec fun _ _ => ?_
  simp only [MetaTx.isTrustedRelayer, wp_bind, wp_instanceGet, wp_pure, wp_panicIf, wp_instanceSet,
    wp_publish]
  intro _
  exact ⟨rfl, rfl, rfl, by simp [nextStreamId], by simp [nextMetaId]⟩

theorem removeMetaRelayer_spec (admin relayer : Address) :
    wp (removeMetaRelayer admin relayer) (chain.ctx sequence auth) w fun _ w' => Silent w w' := by
  simp only [removeMetaRelayer, wp_bind]
  refine requireStoredAdmin_spec fun _ _ => ?_
  simp only [MetaTx.isTrustedRelayer, wp_bind, wp_instanceGet, wp_pure, wp_panicIf, wp_instanceSet,
    wp_publish]
  intro _
  exact ⟨rfl, rfl, rfl, by simp [nextStreamId], by simp [nextMetaId]⟩

/-- A query leaves the world as it is. -/
theorem Silent.refl (w : World X) : Silent w w := ⟨rfl, rfl, rfl, rfl, rfl⟩

/-- The two queries compute and may trap, and write nothing. -/
theorem getStreamedAmount_spec (id : UInt64) :
    wp (getStreamedAmount id) (chain.ctx sequence auth) w fun _ w' => w' = w := by
  simp only [getStreamedAmount, wp_bind]
  exact loadStream_spec fun s _ => calculateStreamedAmount_spec fun _ _ => rfl

theorem getAvailableToWithdraw_spec (id : UInt64) :
    wp (getAvailableToWithdraw id) (chain.ctx sequence auth) w fun _ w' => w' = w := by
  simp only [getAvailableToWithdraw, wp_bind]
  refine loadStream_spec fun s _ => ?_
  simp only [wp_ite, wp_pure, wp_bind, wp_ledgerTimestamp]
  refine ⟨fun _ => trivial, fun _ => ⟨fun _ => trivial, fun _ => ?_⟩⟩
  refine calculateStreamedAmount_spec fun amount _ => ?_
  simp only [wp_dev_sub]
  exact fun _ _ => trivial

/-! ### One call

The successful calls of the machine, sorted by what they do. -/

variable {crypto : Crypto} {call : Call} {r : Ret}

/-- Every entrypoint of the machine, by its specification above. -/
theorem program_spec (hw : Filed w) (crypto : Crypto) (call : Call) :
    wp (program crypto call.entry) (chain.ctx call.sequence call.auth) w
      fun _ w' => Effect crypto chain call w w' := by
  cases hentry : call.entry with
  | init admin =>
    simp only [program, programIn, wp_bind, wp_pure]
    exact wp_mono (init_spec admin) fun _ _ h => .silent (by rw [hentry]; rfl) h
  | addToken admin token =>
    simp only [program, programIn, wp_bind, wp_pure]
    exact wp_mono (addToken_spec admin token) fun _ _ h => .silent (by rw [hentry]; rfl) h
  | removeToken admin token =>
    simp only [program, programIn, wp_bind, wp_pure]
    exact wp_mono (removeToken_spec admin token) fun _ _ h => .silent (by rw [hentry]; rfl) h
  | isWhitelisted token =>
    simp only [program, programIn, isWhitelisted, wp_bind, wp_instanceGet, wp_pure]
    exact .silent (by rw [hentry]; rfl) (.refl w)
  | pause admin reason =>
    simp only [program, programIn, wp_bind, wp_pure]
    exact wp_mono (pause_spec admin reason) fun _ _ h => .silent (by rw [hentry]; rfl) h
  | unpause admin =>
    simp only [program, programIn, wp_bind, wp_pure]
    exact wp_mono (unpause_spec admin) fun _ _ h => .silent (by rw [hentry]; rfl) h
  | createStream sender creator token rate duration =>
    simp only [program, programIn, wp_bind, wp_pure]
    refine wp_mono (createStream_spec sender creator token rate duration) fun _ w' hex => ?_
    obtain ⟨total, s, h⟩ := hex
    exact .streamCreated _ _ _ _ _ total s hentry h
  | startStream sender id =>
    simp only [program, programIn, wp_bind, wp_pure]
    refine wp_mono (startStream_spec sender id) fun _ w' hex => ?_
    obtain ⟨s, s', rfl, h⟩ := hex
    exact .streamStarted id s s' hentry h
  | stopStream sender id =>
    simp only [program, programIn, wp_bind, wp_pure]
    refine wp_mono (stopStream_spec sender id) fun _ w' hex => ?_
    obtain ⟨s, streamed, rfl, h⟩ := hex
    exact .streamStopped id s streamed hentry h
  | withdrawStreamed creator id =>
    simp only [program, programIn, wp_bind, wp_pure]
    refine wp_mono (withdrawStreamed_spec creator id) fun _ w' hex => ?_
    obtain ⟨s, streamed, available, rfl, h⟩ := hex
    exact .streamWithdrawn id s streamed available hentry h
  | cancelStream sender id =>
    simp only [program, programIn, wp_bind, wp_pure]
    refine wp_mono (cancelStream_spec sender id) fun _ w' hex => ?_
    obtain ⟨s, streamed, remaining, rfl, h⟩ := hex
    exact .streamCancelled id s streamed remaining hentry h
  | getStream id =>
    simp only [program, programIn, getStream, wp_bind, wp_persistentGet, wp_pure]
    exact fun _ => .silent (by rw [hentry]; rfl) (.refl w)
  | getStreamsByCreator creator =>
    simp only [program, programIn, getStreamsByCreator, wp_bind, wp_persistentGet, wp_pure]
    exact fun _ => .silent (by rw [hentry]; rfl) (.refl w)
  | getStreamsBySender sender =>
    simp only [program, programIn, getStreamsBySender, wp_bind, wp_persistentGet, wp_pure]
    exact fun _ => .silent (by rw [hentry]; rfl) (.refl w)
  | getStreamedAmount id =>
    simp only [program, programIn, wp_bind, wp_pure]
    refine wp_mono (getStreamedAmount_spec id) fun _ w' h => ?_
    rw [h]
    exact .silent (by rw [hentry]; rfl) (.refl w)
  | getAvailableToWithdraw id =>
    simp only [program, programIn, wp_bind, wp_pure]
    refine wp_mono (getAvailableToWithdraw_spec id) fun _ w' h => ?_
    rw [h]
    exact .silent (by rw [hentry]; rfl) (.refl w)
  | openChannel a b T depositA depositB window =>
    simp only [program, programIn, wp_bind, wp_pure]
    refine wp_mono (openChannel_spec a b T depositA depositB window) fun _ w' hex => ?_
    obtain ⟨ch, h⟩ := hex
    exact .channelMoved a b T _ ch (by rw [hentry]; rfl) h
  | updateChannelState a b T balance nonce =>
    simp only [program, programIn, wp_bind, wp_pure]
    refine wp_mono (updateChannelState_spec hw a b T balance nonce) fun _ w' hex => ?_
    obtain ⟨ch, h⟩ := hex
    exact .channelMoved a b T _ ch (by rw [hentry]; rfl) h
  | cooperativeClose a b T =>
    simp only [program, programIn, wp_bind, wp_pure]
    refine wp_mono (cooperativeClose_spec hw a b T) fun _ w' hex => ?_
    obtain ⟨ch, h⟩ := hex
    exact .channelMoved a b T _ ch (by rw [hentry]; rfl) h
  | disputeClose caller a b T balance nonce =>
    simp only [program, programIn, wp_bind, wp_pure]
    refine wp_mono (disputeClose_spec hw caller a b T balance nonce) fun _ w' hex => ?_
    obtain ⟨m, ch, hmove, h⟩ := hex
    exact .channelMoved a b T m ch (by rw [hentry]; exact hmove) h
  | getChannel a b T =>
    simp only [program, programIn, getChannel, wp_bind, wp_persistentGet, wp_pure]
    exact fun _ => .silent (by rw [hentry]; rfl) (.refl w)
  | openTipChannel t c T deposit window =>
    simp only [program, programIn, wp_bind, wp_pure]
    refine wp_mono (openTipChannel_spec t c T deposit window) fun _ w' hex => ?_
    obtain ⟨hauth, ch, h⟩ := hex
    exact .tipChannelMoved t c T _ ch (by rw [hentry]; rfl) (by simp [hentry]) (fun _ => hauth) h
  | recordChannelTip t c T amount nonce =>
    simp only [program, programIn, wp_bind, wp_pure]
    refine wp_mono (recordChannelTip_spec hw t c T amount nonce) fun _ w' hex => ?_
    obtain ⟨ch, h⟩ := hex
    exact .tipChannelMoved t c T _ ch (by rw [hentry]; rfl) (by simp [hentry])
      (by simp [Channel.Move.funds]) h
  | settleTipChannel t c T =>
    simp only [program, programIn, wp_bind, wp_pure]
    refine wp_mono (settleTipChannel_spec hw t c T) fun _ w' hex => ?_
    obtain ⟨ch, h⟩ := hex
    exact .tipChannelMoved t c T _ ch (by rw [hentry]; rfl) (by simp [hentry])
      (by simp [Channel.Move.funds]) h
  | disputeTipChannel caller t c T amount nonce =>
    simp only [program, programIn, wp_bind, wp_pure]
    refine wp_mono (disputeTipChannel_spec hw caller t c T amount nonce) fun _ w' hex => ?_
    obtain ⟨m, ch, hmove, h⟩ := hex
    have hfunds : m.funds = false := by
      obtain ⟨before, -, heq⟩ := Option.map_eq_some_iff.mp hmove
      cases heq
      exact disputeMove_funds _ _ _ _
    exact .tipChannelMoved t c T m ch (by rw [hentry]; exact hmove) (by simp [hentry])
      (by simp [hfunds]) h
  | getTipChannel t c T =>
    simp only [program, programIn, getTipChannel, wp_bind, wp_persistentGet, wp_pure]
    exact fun _ => .silent (by rw [hentry]; rfl) (.refl w)
  | getTipChannelTips t c T =>
    simp only [program, programIn, wp_bind, wp_pure]
    refine wp_mono (getTipChannelTips_spec t c T) fun _ w' h => ?_
    rw [h.2]
    exact .silent (by rw [hentry]; rfl) (.refl w)
  | registerMetaRelayer admin relayer =>
    simp only [program, programIn, wp_bind, wp_pure]
    exact wp_mono (registerMetaRelayer_spec admin relayer) fun _ _ h =>
      .silent (by rw [hentry]; rfl) h
  | removeMetaRelayer admin relayer =>
    simp only [program, programIn, wp_bind, wp_pure]
    exact wp_mono (removeMetaRelayer_spec admin relayer) fun _ _ h =>
      .silent (by rw [hentry]; rfl) h
  | executeMetaTip relayer request =>
    simp only [program, programIn, wp_bind, wp_pure]
    refine wp_mono (executeMetaTip_spec crypto relayer request) fun _ w' hex => ?_
    obtain ⟨w₁, hverified, hacts, hfinal⟩ := hex
    exact .metaExecuted relayer request w₁ hentry hverified hacts hfinal
  | getMetaNonce sender =>
    simp only [program, programIn, MetaTx.getNonce, wp_bind, wp_persistentGet, wp_pure]
    exact fun _ => .silent (by rw [hentry]; rfl) (.refl w)
  | isMetaRelayer relayer =>
    simp only [program, programIn, MetaTx.isTrustedRelayer, wp_bind, wp_instanceGet, wp_pure]
    exact .silent (by rw [hentry]; rfl) (.refl w)
  | getMetaRecord id =>
    simp only [program, programIn, getMetaRecord, wp_bind, wp_persistentGet, wp_pure]
    exact fun _ => .silent (by rw [hentry]; rfl) (.refl w)

/-- What a successful call of the machine does: it is one of the forms of `Effect`. -/
theorem exec_effect (hw : Filed w) (h : exec crypto chain call w = .ok (r, w')) :
    Effect crypto chain call w w' :=
  Machine.exec_post (Q := fun _ w' => Effect crypto chain call w w')
    (program_spec hw crypto call) h

end Specs

end TipJarLegacy
