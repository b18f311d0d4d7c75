import StellarTipjar.TipJarLegacy.Channels

/-!
# TipJarLegacy — the record of a tip channel

`record_channel_tip` leaves an entry for each tip, and `get_tip_channel_tips` collects them. Over a
run the entries of a channel are numbered without a gap, and they add up to the last amount both
parties agreed on (`tip_channel_settles`), which is what the creator has been tipped as long as nobody
disputes it; a claim made in a dispute changes what is paid out and leaves the record as it is.
-/

namespace TipJarLegacy

open Lib Soroban Contract

variable {X : Type} {crypto : Crypto} {chain : Chain X} {w₀ w w' : World X}
  {o : Occ (World X) (Action X)} {t c T : Address}

/-! ## What the parties agreed on -/

/-- The share both parties agreed on in a move. -/
def agreedIn : Channel.Move ℕ → Option Int
  | .agree share _ => some share
  | _ => none

/-- The last share both agreed on; none was agreed at the start. -/
def lastAgreed (ms : List (Channel.Move ℕ)) : Int := ((ms.filterMap agreedIn).getLast?).getD 0

theorem lastAgreed_agree (ms : List (Channel.Move ℕ)) (share : Int) (nonce : ℕ) :
    lastAgreed (ms ++ [.agree share nonce]) = share := by
  simp [lastAgreed, agreedIn]

theorem lastAgreed_other {ms : List (Channel.Move ℕ)} {m : Channel.Move ℕ}
    (hm : agreedIn m = none) : lastAgreed (ms ++ [m]) = lastAgreed ms := by
  simp [lastAgreed, hm]

/-! ## The entries -/

/-- The tips recorded add up. -/
def tipSum (tips : List ChannelTip) : Int := (tips.map fun e => e.amount.val).sum

/-- The record of a channel after the moves `ms`. -/
structure Recorded (w : World X) (t c T : Address) (ch : TipStateChannel)
    (ms : List (Channel.Move ℕ)) : Prop where
  numbered : (tipsOf w t c T ch).map (fun e => e.index.toNat) = List.range ch.tipCount.toNat
  nonneg : ∀ e ∈ tipsOf w t c T ch, 0 ≤ e.amount.val
  adds : tipSum (tipsOf w t c T ch) = lastAgreed ms
  opened : ch.status = .opened → ch.tippedAmount.val = lastAgreed ms

theorem tipsOf_congr {ch ch' : TipStateChannel} (hcount : ch'.tipCount = ch.tipCount)
    (hentries : ∀ i, tipEntryOf w' t c T i = tipEntryOf w t c T i) :
    tipsOf w' t c T ch' = tipsOf w t c T ch := by
  unfold tipsOf
  rw [hcount]
  exact List.filterMap_congr fun i _ => hentries i

theorem indices_succ {n m : UInt64} (h : m.toNat = n.toNat + 1) :
    StateChannel.indices m = StateChannel.indices n ++ [n] := by
  unfold StateChannel.indices
  rw [h, List.range_succ, List.map_append, List.map_cons, List.map_nil, UInt64.ofNat_toNat]

/-- The indices before the next one. -/
theorem ne_of_mem_indices {n i : UInt64} (hi : i ∈ StateChannel.indices n) : i ≠ n := by
  obtain ⟨k, hk, rfl⟩ := List.mem_map.mp hi
  have hlt : k < n.toNat := List.mem_range.mp hk
  have hn := n.toNat_lt
  intro heq
  have hnat := congrArg UInt64.toNat heq
  rw [UInt64.toNat_ofNat_of_lt' (by omega : k < 2 ^ 64)] at hnat
  omega

namespace Recorded

variable {auth : List Address} {ms : List (Channel.Move ℕ)} {m : Channel.Move ℕ}
  {ch ch' : TipStateChannel}

/-- A tip gets the next number, and the difference to what was tipped before. -/
theorem tipped (h : Recorded w t c T ch ms) {share : Int} {nonce : ℕ}
    (hopened : ch.status = .opened) {now : UInt64} (hshare : ch'.tippedAmount.val = share)
    (hrecords : RecordsTip t c T now ch ch' w w') :
    Recorded w' t c T ch' (ms ++ [.agree share nonce]) := by
  obtain ⟨amount, hamount, hpers⟩ := hrecords.entry
  have hmono := hrecords.monotone
  have hentry : tipEntryOf w' t c T ch.tipCount = some ⟨ch.tipCount, amount, now⟩ := by
    unfold tipEntryOf
    rw [hpers, Store.get_set_of_ne _ (by simp), Store.get_set_self]
  have hothers : ∀ i, i ≠ ch.tipCount → tipEntryOf w' t c T i = tipEntryOf w t c T i := by
    intro i hi
    unfold tipEntryOf
    rw [hpers, Store.get_set_of_ne _ (by simp), Store.get_set_of_ne _ (by simpa using hi)]
  have htips : tipsOf w' t c T ch' = tipsOf w t c T ch ++ [⟨ch.tipCount, amount, now⟩] := by
    unfold tipsOf
    rw [indices_succ hrecords.count, List.filterMap_append, List.filterMap_cons, hentry,
      List.filterMap_nil]
    congr 1
    exact List.filterMap_congr fun i hi => hothers i (ne_of_mem_indices hi)
  refine ⟨?_, fun e he => ?_, ?_, fun _ => ?_⟩
  · rw [htips, List.map_append, h.numbered, hrecords.count, List.range_succ]
    rfl
  · rw [htips] at he
    rcases List.mem_append.mp he with he | he
    · exact h.nonneg e he
    · obtain rfl := List.mem_singleton.mp he
      show 0 ≤ amount.val
      omega
  · have hsum : tipSum (tipsOf w' t c T ch') = tipSum (tipsOf w t c T ch) + amount.val := by
      simp [tipSum, htips]
    have hbefore := h.opened hopened
    rw [hsum, h.adds, lastAgreed_agree]
    omega
  · rw [lastAgreed_agree]
    exact hshare

/-- A move that is no agreement leaves the record as it is. -/
theorem kept (h : Recorded w t c T ch ms) (hcount : ch'.tipCount = ch.tipCount)
    (hentries : ∀ i, tipEntryOf w' t c T i = tipEntryOf w t c T i) (hm : agreedIn m = none)
    (hopened : ch'.status ≠ .opened) : Recorded w' t c T ch' (ms ++ [m]) := by
  have htips := tipsOf_congr hcount hentries
  refine ⟨?_, ?_, ?_, fun hstatus => absurd hstatus hopened⟩
  · rw [htips, h.numbered, hcount]
  · rw [htips]
    exact h.nonneg
  · rw [htips, h.adds, lastAgreed_other hm]

/-- A channel begins without tips. -/
theorem start (hcount : ch.tipCount = 0) (htipped : ch.tippedAmount.val = 0) {deposit : Int}
    {window nonce : ℕ} {share : Int} :
    Recorded w t c T ch ([] ++ [.fund deposit window share nonce]) := by
  have htips : tipsOf w t c T ch = [] := by
    unfold tipsOf
    rw [hcount]
    rfl
  refine ⟨?_, fun e he => ?_, ?_, fun _ => htipped⟩
  · rw [htips, hcount]
    rfl
  · rw [htips] at he
    cases he
  · rw [htips]
    rfl

theorem congr (h : Recorded w t c T ch ms)
    (hentries : ∀ i, tipEntryOf w' t c T i = tipEntryOf w t c T i) : Recorded w' t c T ch ms := by
  have htips : tipsOf w' t c T ch = tipsOf w t c T ch := tipsOf_congr rfl hentries
  refine ⟨?_, ?_, ?_, h.opened⟩
  · rw [htips, h.numbered]
  · rw [htips]
    exact h.nonneg
  · rw [htips, h.adds]

end Recorded

theorem TipStateChannel.phase_opened_iff (ch : TipStateChannel) :
    ch.view.phase = .opened ↔ ch.status = .opened := by
  cases hstatus : ch.status <;> simp [TipStateChannel.view, hstatus]

/-- The record of every channel of a run. -/
theorem recorded_run (h₀ : Machine.Fresh w₀) (acts : List (Action X)) {ch : TipStateChannel}
    (hch : tipChannelOf (run (step crypto chain) w₀ acts) t c T = some ch) :
    Recorded (run (step crypto chain) w₀ acts) t c T ch
      ((trace (step crypto chain) w₀ acts).filterMap (tipChannelMoveOf crypto chain t c T)) := by
  induction acts using List.reverseRecOn generalizing ch with
  | nil =>
    rw [run_nil, tipChannelOf_fresh h₀] at hch
    cases hch
  | append_singleton acts a ih =>
    have hfiled : Filed (run (step crypto chain) w₀ acts) :=
      run_invariant _ (Filed.step crypto chain) (.of_fresh h₀) acts
    have hlaws : Channel.Laws (step crypto chain) _ _ w₀ acts := tipChannel_laws h₀ acts t c T
    have hhistory := hlaws.history
    rw [run_concat] at hch ⊢
    rw [trace_concat, List.filterMap_append, List.filterMap_cons, List.filterMap_nil]
    generalize hw : run (step crypto chain) w₀ acts = w at *
    rcases tipChannel_step (o := ⟨w, a, step crypto chain w a⟩) rfl hfiled t c T with
      ⟨call, m, ch', w₁, -, hlabel, hmoves, hfollows⟩ | ⟨hlabel, hsame, hentries⟩
    · rw [hlabel]
      obtain rfl : ch' = ch := by
        rw [hmoves.stored_after hfollows] at hch
        exact Option.some.inj hch
      refine Recorded.congr ?_ (hfollows.tipEntryOf_eq t c T)
      have hwrites := hmoves.writes
      cases m with
      | fund deposit window share nonce =>
        have hnone : (tipChannelOf w t c T).map TipStateChannel.view = none :=
          hmoves.step.funds_iff.mp rfl
        rw [hnone] at hhistory
        rw [hhistory.eq_nil]
        exact .start hwrites.1.1 (by rw [hwrites.1.2]; rfl)
      | agree share nonce =>
        obtain ⟨before, hbefore, hrecords⟩ := hwrites
        obtain ⟨c₀, hc₀, hphase, hshare⟩ := hmoves.step.of_agree
        rw [show tipChannelOf w t c T = some before from hbefore] at hc₀
        obtain rfl := Option.some.inj hc₀
        exact (ih hbefore).tipped ((TipStateChannel.phase_opened_iff _).mp hphase) hshare hrecords
      | settle | claim | finalise =>
        obtain ⟨⟨before, hbefore, hcount⟩, hpers⟩ := hwrites
        refine (ih hbefore).kept hcount (fun i => ?_) rfl fun hopened => ?_
        · unfold tipEntryOf
          rw [hpers, Store.get_set_of_ne _ (by simp)]
        · rcases hmoves.step.of_opened ((TipStateChannel.phase_opened_iff _).mpr hopened) with
            hfunds | ⟨share, nonce, hm⟩
          · cases hfunds
          · cases hm
    · rw [hlabel, List.append_nil]
      have hch : tipChannelOf w t c T = some ch := hsame ▸ hch
      exact (ih hch).congr hentries

/-! ## Who is paid what -/

/-- What `get_tip_channel_tips` answers. -/
theorem exec_getTipChannelTips {call : Call} {r : Ret}
    (hentry : call.entry = .getTipChannelTips t c T)
    (h : exec crypto chain call w = .ok (r, w')) :
    ∃ ch, tipChannelOf w t c T = some ch ∧ r = .tips (tipsOf w t c T ch) := by
  refine Machine.exec_post
    (Q := fun r _ => ∃ ch, tipChannelOf w t c T = some ch ∧ r = .tips (tipsOf w t c T ch)) ?_ h
  rw [hentry]
  simp only [program, programIn, wp_bind, wp_pure]
  refine wp_mono (getTipChannelTips_spec t c T) fun tips w' hspec => ?_
  obtain ⟨⟨ch, hch, rfl⟩, -⟩ := hspec
  exact ⟨ch, hch, rfl⟩

/-- The tips that `get_tip_channel_tips` returns are numbered from zero without a gap, and add up to
the last amount both parties agreed on. -/
def RecordShown (crypto : Crypto) (chain : Chain X) (t c T : Address) (ch : TipStateChannel)
    (agreed : Int) (w : World X) : Prop :=
  ∀ (call : Call) (r : Ret) (w' : World X), call.entry = .getTipChannelTips t c T →
    exec crypto chain call w = .ok (r, w') → ∃ tips, r = .tips tips ∧
      tips.map (fun e => e.index.toNat) = List.range ch.tipCount.toNat ∧
      (∀ e ∈ tips, 0 ≤ e.amount.val) ∧ tipSum tips = agreed

/-- The part of `tip_channel_settles` that is about the payments. -/
theorem tipChannel_settlement (h₀ : Machine.Fresh w₀) (acts : List (Action X))
    {ch : TipStateChannel}
    (hch : tipChannelOf (run (step crypto chain) w₀ acts) t c T = some ch) :
    Settlement (tipChannelMoveOf crypto chain t c T)
      (Transfer.positive ⟨T, chain.self, c, ch.tippedAmount⟩
        ++ Transfer.positive ⟨T, chain.self, t, ch.rest⟩)
      (ch.status = .settled) ch.nonce.toNat ch.tippedAmount.val
      (trace (step crypto chain) w₀ acts) := by
  have hlaws : Channel.Laws (step crypto chain) _ _ w₀ acts := tipChannel_laws h₀ acts t c T
  have hget : (tipChannelOf (run (step crypto chain) w₀ acts) t c T).map TipStateChannel.view
      = some ch.view := by
    rw [hch]
    rfl
  have hstep : ∀ o ∈ trace (step crypto chain) w₀ acts, ∀ m,
      tipChannelMoveOf crypto chain t c T o = some m → ∃ ch',
        tipChannelOf o.after t c T = some ch' ∧ paymentsOf o = ch'.payments chain.self t c T m := by
    intro o ho m hm
    rcases tipChannel_step (isStep_of_mem _ ho) (filed_before h₀ ho) t c T with
      ⟨call, n, ch', w₁, -, hlabel, hmoves, hfollows⟩ | ⟨hlabel, -⟩
    · obtain rfl : n = m := Option.some.inj (hlabel.symm.trans hm)
      refine ⟨ch', ?_, ?_⟩
      · exact hmoves.stored_after hfollows
      · rw [paymentsOf, hfollows.transfers]
        exact hmoves.sends.drop_transfers
    · rw [hlabel] at hm
      cases hm
  have hpaid : ∀ o ∈ trace (step crypto chain) w₀ acts, ∀ m,
      tipChannelMoveOf crypto chain t c T o = some m → m.closes = true →
      (tipChannelOf o.after t c T).map TipStateChannel.view = some ch.view →
      paymentsOf o = ch.payments chain.self t c T .settle := by
    intro o ho m hm hcloses hafter
    obtain ⟨ch', hch', hpayments⟩ := hstep o ho m hm
    -- the call left the channel with the same split
    have hview : ch'.view = ch.view := by
      rw [hch'] at hafter
      exact Option.some.inj hafter
    have htipped : ch'.tippedAmount = ch.tippedAmount := I128.ext (congrArg Channel.share hview)
    have hdeposit : ch'.deposit = ch.deposit := I128.ext (congrArg Channel.deposit hview)
    rw [hpayments]
    cases m with
    | settle | finalise =>
      simp only [TipStateChannel.payments, TipStateChannel.rest, htipped, hdeposit]
    | _ => cases hcloses
  have hfree : ∀ o ∈ trace (step crypto chain) w₀ acts, ∀ m,
      tipChannelMoveOf crypto chain t c T o = some m → m.closes = false → m.funds = false →
      paymentsOf o = [] := by
    intro o ho m hm hcloses hfunds
    obtain ⟨ch', -, hpayments⟩ := hstep o ho m hm
    rw [hpayments]
    cases m with
    | agree | claim => rfl
    | fund => cases hfunds
    | settle | finalise => cases hcloses
  have hsettles := Settlement.of_laws hlaws hget hpaid hfree
  rw [TipStateChannel.phase_closed_iff] at hsettles
  exact hsettles

/-- In every run, whatever else is called in between: a tip channel stands at the last state that was
agreed or claimed, and when it is settled one call has paid out exactly that split of the deposit,
`tipped_amount` to the creator and the rest back to the tipper. Its record adds up to what was agreed
last, and that is what the creator has been tipped as long as the channel is open. -/
theorem tip_channel_settles (h₀ : Machine.Fresh w₀) (acts : List (Action X)) {t c T : Address}
    {ch : TipStateChannel}
    (hch : tipChannelOf (run (step crypto chain) w₀ acts) t c T = some ch) :
    Settlement (tipChannelMoveOf crypto chain t c T)
        (Transfer.positive ⟨T, chain.self, c, ch.tippedAmount⟩
          ++ Transfer.positive ⟨T, chain.self, t, ch.rest⟩)
        (ch.status = .settled) ch.nonce.toNat ch.tippedAmount.val
        (trace (step crypto chain) w₀ acts) ∧
      (0 ≤ ch.tippedAmount.val ∧ 0 ≤ ch.rest.val ∧
        ch.tippedAmount.val + ch.rest.val = ch.deposit.val) ∧
      ∃ agreed, RecordShown crypto chain t c T ch agreed (run (step crypto chain) w₀ acts) ∧
        agreed = lastAgreed ((trace (step crypto chain) w₀ acts).filterMap
          (tipChannelMoveOf crypto chain t c T)) ∧
        (ch.status = .opened → agreed = ch.tippedAmount.val) := by
  have hfiled : Filed (run (step crypto chain) w₀ acts) :=
    run_invariant _ (Filed.step crypto chain) (.of_fresh h₀) acts
  obtain ⟨hlo, hhi⟩ := hfiled.tipShares t c T ch hch
  have hrest : ch.rest.val = ch.deposit.val - ch.tippedAmount.val := I128.val_sub_of_le hlo hhi
  have hrecorded := recorded_run h₀ acts hch
  refine ⟨tipChannel_settlement h₀ acts hch, ⟨hlo, by omega, by omega⟩, _, ?_, rfl,
    fun hopened => (hrecorded.opened hopened).symm⟩
  intro call r w' hentry hexec
  obtain ⟨ch', hch', rfl⟩ := exec_getTipChannelTips hentry hexec
  obtain rfl : ch' = ch := Option.some.inj (hch'.symm.trans hch)
  exact ⟨_, rfl, hrecorded.numbered, hrecorded.nonneg, hrecorded.adds⟩

/-- Two tips through a channel, which is then settled. -/
def settledTips : List (Action (Clocked Balances)) :=
  setUp ++ [.call ⟨2, [⟨4⟩], .openTipChannel ⟨4⟩ ⟨5⟩ ⟨2⟩ 500 60⟩,
    .call ⟨3, [⟨4⟩, ⟨5⟩], .recordChannelTip ⟨4⟩ ⟨5⟩ ⟨2⟩ 100 1⟩,
    .call ⟨4, [⟨4⟩, ⟨5⟩], .recordChannelTip ⟨4⟩ ⟨5⟩ ⟨2⟩ 350 2⟩,
    .call ⟨5, [⟨4⟩, ⟨5⟩], .settleTipChannel ⟨4⟩ ⟨5⟩ ⟨2⟩⟩]

/-- The creator is paid 350, which is what the two recorded tips add up to. -/
theorem tip_channel_settles_sample :
    (∃ o ∈ trace (step sampleCrypto sampleChain) sampleWorld settledTips,
      paymentsOf o = [⟨⟨2⟩, ⟨0⟩, ⟨5⟩, 350⟩, ⟨⟨2⟩, ⟨0⟩, ⟨4⟩, 150⟩]) ∧
    ∃ tips w', exec sampleCrypto sampleChain ⟨6, [], .getTipChannelTips ⟨4⟩ ⟨5⟩ ⟨2⟩⟩
        (run (step sampleCrypto sampleChain) sampleWorld settledTips) = .ok (.tips tips, w') ∧
      tips.map (fun e => e.index.toNat) = [0, 1] ∧ tipSum tips = 350 := by
  obtain ⟨hsettles, -, agreed, hshown, hagreed, -⟩ := @tip_channel_settles _ sampleCrypto
    sampleChain sampleWorld (Machine.freshEnv_fresh _) settledTips ⟨4⟩ ⟨5⟩ ⟨2⟩ _ rfl
  refine ⟨?_, ?_⟩
  · obtain ⟨tr₁, o, tr₂, m, htr, -, -, hpaid, -⟩ := hsettles.paidOut rfl
    refine ⟨o, ?_, hpaid⟩
    rw [htr]
    simp
  · obtain ⟨tips, htips, hnumbered, -, hsum⟩ := hshown ⟨6, [], .getTipChannelTips ⟨4⟩ ⟨5⟩ ⟨2⟩⟩ _ _
      rfl rfl
    cases htips
    exact ⟨_, _, rfl, hnumbered, hsum.trans hagreed⟩

end TipJarLegacy
