import StellarTipjar.TipJarLegacy.Specs

/-!
# TipJarLegacy — channels over a run

Payment channels and tip channels are channels in the sense of `Lib.Channel`, whatever other calls
come in between: `channel_laws` and `tipChannel_laws` read one off the state and label each step with
the move it makes there. From this the library gives, for every run of the contract, who is paid what
(`channel_settles`, and `tip_channel_settles` in `Tips`) and what a dispute takes (`disputes_fair`).
-/

namespace TipJarLegacy

open Lib Soroban Contract

variable {X : Type} {crypto : Crypto} {chain : Chain X} {call : Call} {w w' : World X}

/-! ## What the other calls leave alone -/

/-- The keys of the book-keeping of meta-transactions. -/
def DataKey.isMeta : DataKey → Prop
  | .metaTxNonce _ | .metaTxNullifier _ | .metaTxRecord _ => True
  | _ => False

/-- The keys of the channels and of their entries. -/
def DataKey.isChannel : DataKey → Prop
  | .paymentChannel _ _ _ | .tipChannel _ _ _ | .tipChannelEntry _ _ _ _ => True
  | _ => False

theorem DataKey.isChannel.not_isMeta {k : DataKey} (h : k.isChannel) : ¬k.isMeta := by
  cases k with
  | paymentChannel | tipChannel | tipChannelEntry => exact id
  | _ => cases h

/-- Nothing happened from `w` to `w'` but the book-keeping of a meta-transaction. -/
structure Follows (w w' : World X) : Prop where
  pers : ∀ k : DataKey, ¬k.isMeta → w'.pers.get k = w.pers.get k
  ext : w'.ext = w.ext
  transfers : w'.transfers = w.transfers
  streams : nextStreamId w' = nextStreamId w

theorem Follows.refl (w : World X) : Follows w w := ⟨fun _ _ => rfl, rfl, rfl, rfl⟩

/-- What follows a move leaves the tip channels. -/
theorem Follows.tipChannelOf_eq (h : Follows w w') (t c T : Address) :
    tipChannelOf w' t c T = tipChannelOf w t c T := h.pers _ (by simp [DataKey.isMeta])

/-- And the recorded tips. -/
theorem Follows.tipEntryOf_eq (h : Follows w w') (t c T : Address) (i : UInt64) :
    tipEntryOf w' t c T i = tipEntryOf w t c T i := h.pers _ (by simp [DataKey.isMeta])

/-- Finalising a request only writes entries of the meta-transactions. -/
theorem Finalises.follows {relayer : Address} {req : MetaTipRequest}
    (h : Finalises crypto relayer req w w') : Follows w w' := by
  refine ⟨fun k hk => ?_, h.ext, h.transfers, h.streams⟩
  obtain ⟨next, record, -, hpers⟩ := h.pers
  rw [hpers, Store.get_set_of_ne _ (by rintro rfl; exact hk trivial),
    Store.get_set_of_ne _ (by rintro rfl; exact hk trivial),
    Store.get_set_of_ne _ (by rintro rfl; exact hk trivial)]

namespace MovesTipChannel

variable {auth : List Address} {t c T : Address} {m : Channel.Move ℕ} {ch : TipStateChannel}

/-- A move writes its channel and the tips of that channel. -/
theorem get_of_ne (h : MovesTipChannel chain auth t c T m ch w w') {k : DataKey}
    (hk : k ≠ .tipChannel t c T) (hentry : ∀ i, k ≠ .tipChannelEntry t c T i) :
    w'.pers.get k = w.pers.get k := by
  have hwrites := h.writes
  cases m with
  | agree share nonce =>
    obtain ⟨before, -, hrecords⟩ := hwrites
    obtain ⟨amount, -, hpers⟩ := hrecords.entry
    rw [hpers, Store.get_set_of_ne _ hk, Store.get_set_of_ne _ (hentry _)]
  | _ => rw [hwrites.2, Store.get_set_of_ne _ hk]

/-- The channel after the move. -/
theorem stored (h : MovesTipChannel chain auth t c T m ch w w') :
    tipChannelOf w' t c T = some ch := by
  have hwrites := h.writes
  unfold tipChannelOf
  cases m with
  | agree share nonce =>
    obtain ⟨before, -, hrecords⟩ := hwrites
    obtain ⟨amount, -, hpers⟩ := hrecords.entry
    rw [hpers, Store.get_set_self]
  | _ => rw [hwrites.2, Store.get_set_self]

/-- It is still there when the request has been finalised. -/
theorem stored_after {w₁ : World X} (h : MovesTipChannel chain auth t c T m ch w w₁)
    (hfollows : Follows w₁ w') : tipChannelOf w' t c T = some ch :=
  (hfollows.tipChannelOf_eq t c T).trans h.stored

/-- A move of another tip channel. -/
theorem get_of_other {t' c' T' : Address} (h : MovesTipChannel chain auth t' c' T' m ch w w')
    (hne : ¬(t, c, T) = (t', c', T')) :
    tipChannelOf w' t c T = tipChannelOf w t c T ∧
      ∀ i, tipEntryOf w' t c T i = tipEntryOf w t c T i := by
  refine ⟨h.get_of_ne (fun heq => ?_) (by simp), fun i => h.get_of_ne (by simp) fun j heq => ?_⟩
  · cases heq
    exact hne rfl
  · cases heq
    exact hne rfl

end MovesTipChannel

/-- A stream moves no channel. -/
theorem MovesStream.get_of_isChannel {id : UInt64} {s s' : TipStream} {ts : List Transfer}
    (h : MovesStream chain id s s' ts w w') {k : DataKey} (hk : k.isChannel) :
    w'.pers.get k = w.pers.get k := by
  rw [h.pers, Store.get_set_of_ne _ (by rintro rfl; exact hk)]

/-- The channel after the move. -/
theorem MovesChannel.stored {auth : List Address} {a b T : Address} {m : Channel.Move ℕ}
    {ch : PaymentChannel} (h : MovesChannel chain auth a b T m ch w w') :
    channelOf w' a b T = some ch := by
  unfold channelOf
  rw [h.pers, Store.get_set_self]

namespace Entrypoint

/-- The calls that touch no channel make no move. -/
theorem channelMove_of_quiet {e : Entrypoint} (h : e.quiet = true) (now : UInt64) :
    e.channelMove w now = none := by
  cases e with
  | openChannel | updateChannelState | cooperativeClose | disputeClose => cases h
  | _ => rfl

theorem tipChannelMove_of_quiet {e : Entrypoint} (h : e.quiet = true) (now : UInt64) :
    e.tipChannelMove w now = none := by
  cases e with
  | openTipChannel | recordChannelTip | settleTipChannel | disputeTipChannel | executeMetaTip =>
    cases h
  | _ => rfl

/-- A call about a payment channel is not about a tip channel. -/
theorem tipChannelMove_of_channelMove {e : Entrypoint} {now : UInt64}
    {x : Address × Address × Address × Channel.Move ℕ} (h : e.channelMove w now = some x) :
    e.tipChannelMove w now = none := by
  cases e with
  | openTipChannel | recordChannelTip | settleTipChannel | disputeTipChannel | executeMetaTip =>
    cases h
  | _ => rfl

end Entrypoint

/-! ## One call -/

/-- A call makes a move of a payment channel, makes one of a tip channel, or leaves all channels
alone. -/
theorem Effect.channel_moves (h : Effect crypto chain call w w') :
    (∃ a b T m ch, call.entry.channelMove w (chain.timestamp w.ext) = some (a, b, T, m) ∧
        MovesChannel chain call.auth a b T m ch w w') ∨
      (∃ t c T m ch w₁, call.entry.tipChannelMove w (chain.timestamp w.ext) = some (t, c, T, m) ∧
        MovesTipChannel chain call.auth t c T m ch w w₁ ∧ Follows w₁ w') ∨
      call.entry.channelMove w (chain.timestamp w.ext) = none ∧
        call.entry.tipChannelMove w (chain.timestamp w.ext) = none ∧
        ∀ k : DataKey, k.isChannel → w'.pers.get k = w.pers.get k := by
  cases h with
  | streamCreated sender creator token rate duration total s entry h =>
    obtain ⟨senderIds, creatorIds, hpers⟩ := h.pers
    refine .inr (.inr ⟨by rw [entry]; rfl, by rw [entry]; rfl, fun k hk => ?_⟩)
    rw [hpers, Store.get_set_of_ne _ (by rintro rfl; exact hk),
      Store.get_set_of_ne _ (by rintro rfl; exact hk),
      Store.get_set_of_ne _ (by rintro rfl; exact hk)]
  | streamStarted id s s' entry h =>
    exact .inr (.inr ⟨by rw [entry]; rfl, by rw [entry]; rfl, fun k => h.get_of_isChannel⟩)
  | streamStopped id s streamed entry h =>
    exact .inr (.inr ⟨by rw [entry]; rfl, by rw [entry]; rfl, fun k => h.get_of_isChannel⟩)
  | streamWithdrawn id s streamed available entry h =>
    exact .inr (.inr ⟨by rw [entry]; rfl, by rw [entry]; rfl, fun k => h.get_of_isChannel⟩)
  | streamCancelled id s streamed remaining entry h =>
    exact .inr (.inr ⟨by rw [entry]; rfl, by rw [entry]; rfl, fun k => h.get_of_isChannel⟩)
  | channelMoved a b T m ch entry h => exact .inl ⟨a, b, T, m, ch, entry, h⟩
  | tipChannelMoved t c T m ch entry direct opener h =>
    exact .inr (.inl ⟨t, c, T, m, ch, w', entry, h, .refl w'⟩)
  | metaExecuted relayer req w₁ entry verified acts h =>
    have hfollows := h.follows
    cases acts with
    | tip h =>
      obtain ⟨balance, total, -, hpers⟩ := h.pers
      refine .inr (.inr ⟨by rw [entry]; rfl, ?_, fun k hk => ?_⟩)
      · rw [entry]
        simp [Entrypoint.tipChannelMove, h.action]
      · rw [hfollows.pers k hk.not_isMeta, hpers, Store.get_set_of_ne _ (by rintro rfl; exact hk),
          Store.get_set_of_ne _ (by rintro rfl; exact hk)]
    | openChannel action ch h =>
      refine .inr (.inl ⟨req.source, req.dest, req.token, _, ch, w₁, ?_, h, hfollows⟩)
      rw [entry]
      simp [Entrypoint.tipChannelMove, action]
  | silent entry h =>
    refine .inr (.inr ⟨Entrypoint.channelMove_of_quiet entry _,
      Entrypoint.tipChannelMove_of_quiet entry _, fun k _ => ?_⟩)
    rw [h.pers]

/-- A call makes a move of the payment channel of `a` and `b` in `T`, or does not touch it. -/
theorem Effect.channel_cases (h : Effect crypto chain call w w') (a b T : Address) :
    (∃ m ch, call.entry.channelMove w (chain.timestamp w.ext) = some (a, b, T, m) ∧
        MovesChannel chain call.auth a b T m ch w w') ∨
      (∀ m, call.entry.channelMove w (chain.timestamp w.ext) ≠ some (a, b, T, m)) ∧
        channelOf w' a b T = channelOf w a b T := by
  obtain ⟨a', b', T', m, ch, hmove, hmoves⟩ | ⟨t, c, T', m, ch, w₁, hmove, hmoves, hfollows⟩ |
    ⟨hmove, -, hframe⟩ := h.channel_moves
  · by_cases hsame : (a, b, T) = (a', b', T')
    · cases hsame
      exact .inl ⟨m, ch, hmove, hmoves⟩
    · refine .inr ⟨fun n hn => hsame ?_, ?_⟩
      · rw [hmove] at hn
        cases hn
        rfl
      · have hne : DataKey.paymentChannel a b T ≠ .paymentChannel a' b' T' := by
          intro heq
          cases heq
          exact hsame rfl
        unfold channelOf
        rw [hmoves.pers, Store.get_set_of_ne _ hne]
  · refine .inr ⟨fun n hn => ?_, ?_⟩
    · rw [Entrypoint.tipChannelMove_of_channelMove hn] at hmove
      cases hmove
    · unfold channelOf
      rw [hfollows.pers _ (by simp [DataKey.isMeta]), hmoves.get_of_ne (by simp) (by simp)]
  · refine .inr ⟨fun n hn => ?_, hframe _ trivial⟩
    rw [hmove] at hn
    cases hn

/-- The same for the tip channel of `t` and `c` in `T`. -/
theorem Effect.tipChannel_cases (h : Effect crypto chain call w w') (t c T : Address) :
    (∃ m ch w₁, call.entry.tipChannelMove w (chain.timestamp w.ext) = some (t, c, T, m) ∧
        MovesTipChannel chain call.auth t c T m ch w w₁ ∧ Follows w₁ w') ∨
      (∀ m, call.entry.tipChannelMove w (chain.timestamp w.ext) ≠ some (t, c, T, m)) ∧
        tipChannelOf w' t c T = tipChannelOf w t c T ∧
        ∀ i, tipEntryOf w' t c T i = tipEntryOf w t c T i := by
  obtain ⟨a, b, T', m, ch, hmove, hmoves⟩ | ⟨t', c', T', m, ch, w₁, hmove, hmoves, hfollows⟩ |
    ⟨-, hmove, hframe⟩ := h.channel_moves
  · refine .inr ⟨fun n hn => ?_, by simp [tipChannelOf, tipEntryOf, hmoves.pers]⟩
    rw [Entrypoint.tipChannelMove_of_channelMove hmove] at hn
    cases hn
  · by_cases hsame : (t, c, T) = (t', c', T')
    · cases hsame
      exact .inl ⟨m, ch, w₁, hmove, hmoves, hfollows⟩
    · obtain ⟨hchannel, hentries⟩ := hmoves.get_of_other hsame
      refine .inr ⟨fun n hn => hsame ?_, (hfollows.tipChannelOf_eq t c T).trans hchannel,
        fun i => (hfollows.tipEntryOf_eq t c T i).trans (hentries i)⟩
      rw [hmove] at hn
      cases hn
      rfl
  · refine .inr ⟨fun n hn => ?_, hframe _ trivial, fun i => hframe _ trivial⟩
    rw [hmove] at hn
    cases hn

/-- Every call keeps the channels filed. -/
theorem Effect.filed (h : Effect crypto chain call w w') (hw : Filed w) : Filed w' := by
  refine ⟨fun a b T ch hch => ?_, fun t c T ch hch => ?_, fun a b T ch hch => ?_,
    fun t c T ch hch => ?_⟩
  · rcases h.channel_cases a b T with ⟨m, ch', -, hmoves⟩ | ⟨-, hsame⟩
    · obtain rfl : ch' = ch := Option.some.inj (hmoves.stored.symm.trans hch)
      exact hmoves.between
    · exact hw.channels a b T ch (hsame ▸ hch)
  · rcases h.tipChannel_cases t c T with ⟨m, ch', w₁, -, hmoves, hfollows⟩ | ⟨-, hsame, -⟩
    · obtain rfl : ch' = ch := Option.some.inj ((hmoves.stored_after hfollows).symm.trans hch)
      exact hmoves.between
    · exact hw.tipChannels t c T ch (hsame ▸ hch)
  · rcases h.channel_cases a b T with ⟨m, ch', -, hmoves⟩ | ⟨-, hsame⟩
    · obtain rfl : ch' = ch := Option.some.inj (hmoves.stored.symm.trans hch)
      refine hmoves.step.share_bounds fun c hc => ?_
      obtain ⟨before, hbefore, rfl⟩ := Option.map_eq_some_iff.mp hc
      exact hw.shares a b T before hbefore
    · exact hw.shares a b T ch (hsame ▸ hch)
  · rcases h.tipChannel_cases t c T with ⟨m, ch', w₁, -, hmoves, hfollows⟩ | ⟨-, hsame, -⟩
    · obtain rfl : ch' = ch := Option.some.inj ((hmoves.stored_after hfollows).symm.trans hch)
      refine hmoves.step.share_bounds fun c₀ hc₀ => ?_
      obtain ⟨before, hbefore, rfl⟩ := Option.map_eq_some_iff.mp hc₀
      exact hw.tipShares t c T before hbefore
    · exact hw.tipShares t c T ch (hsame ▸ hch)

/-- Every channel stays under the key that names its parties. -/
theorem Filed.step (crypto : Crypto) (chain : Chain X) (w : World X) (act : Action X)
    (hw : Filed w) : Filed (TipJarLegacy.step crypto chain w act) := by
  cases act with
  | outside x => exact ⟨hw.channels, hw.tipChannels, hw.shares, hw.tipShares⟩
  | call c =>
    cases hexec : exec crypto chain c w with
    | error e =>
      have hsame : TipJarLegacy.step crypto chain w (.call c) = w := by
        simp only [TipJarLegacy.step, Machine.step]
        rw [show Machine.exec (program crypto) chain c w = .error e from hexec]
      rw [hsame]
      exact hw
    | ok p =>
      have hstep : TipJarLegacy.step crypto chain w (.call c) = p.2 := Machine.step_call_ok hexec
      rw [hstep]
      exact (exec_effect hw hexec).filed hw

/-- A fresh contract has no channels. -/
theorem channelOf_fresh (h : Machine.Fresh w) (a b T : Address) : channelOf w a b T = none := by
  unfold channelOf
  rw [h.pers]
  rfl

/-- Of either kind. -/
theorem tipChannelOf_fresh (h : Machine.Fresh w) (t c T : Address) :
    tipChannelOf w t c T = none := by
  unfold tipChannelOf
  rw [h.pers]
  rfl

/-- So nothing is misfiled. -/
theorem Filed.of_fresh (h : Machine.Fresh w) : Filed w := by
  refine ⟨fun a b T ch hch => ?_, fun t c T ch hch => ?_, fun a b T ch hch => ?_,
    fun t c T ch hch => ?_⟩
  · rw [channelOf_fresh h] at hch
    cases hch
  · rw [tipChannelOf_fresh h] at hch
    cases hch
  · rw [channelOf_fresh h] at hch
    cases hch
  · rw [tipChannelOf_fresh h] at hch
    cases hch

/-! ## The moves of a run -/

/-- The move, if it is one of the channel of `p` and `q` in `T`. -/
def moveAt (p q T : Address) (x : Option (Address × Address × Address × Channel.Move ℕ)) :
    Option (Channel.Move ℕ) :=
  x.bind fun y => if y.1 = p ∧ y.2.1 = q ∧ y.2.2.1 = T then some y.2.2.2 else none

/-- The move concerns exactly these parties and this token. -/
theorem moveAt_eq_some {p q T : Address} {m : Channel.Move ℕ}
    {x : Option (Address × Address × Address × Channel.Move ℕ)} :
    moveAt p q T x = some m ↔ x = some (p, q, T, m) := by
  cases x with
  | none => simp [moveAt]
  | some y =>
    obtain ⟨p', q', T', n⟩ := y
    simp only [moveAt, Option.bind_some, Option.some.injEq, Prod.mk.injEq]
    constructor
    · intro h
      split at h
      · next hkey => exact ⟨hkey.1, hkey.2.1, hkey.2.2, Option.some.inj h⟩
      · cases h
    · rintro ⟨rfl, rfl, rfl, rfl⟩
      rw [if_pos ⟨rfl, rfl, rfl⟩]

/-- The move of the payment channel of `a` and `b` in `T` that a successful call makes. -/
def channelMoveOf (crypto : Crypto) (chain : Chain X) (a b T : Address)
    (o : Occ (World X) (Action X)) : Option (Channel.Move ℕ) :=
  (Machine.accepted (program crypto) chain o).bind fun e =>
    moveAt a b T (e.channelMove o.before (chain.timestamp o.before.ext))

/-- The move of the tip channel of `t` and `c` in `T` that a successful call makes. -/
def tipChannelMoveOf (crypto : Crypto) (chain : Chain X) (t c T : Address)
    (o : Occ (World X) (Action X)) : Option (Channel.Move ℕ) :=
  (Machine.accepted (program crypto) chain o).bind fun e =>
    moveAt t c T (e.tipChannelMove o.before (chain.timestamp o.before.ext))

/-- The transfers a step made. -/
def paymentsOf (o : Occ (World X) (Action X)) : List Transfer :=
  o.after.transfers.drop o.before.transfers.length

variable {w₀ : World X} {o : Occ (World X) (Action X)}

/-- A step makes the move of the channel that its label says, or does not touch the channel. -/
theorem channel_step (hstep : IsStep (TipJarLegacy.step crypto chain) o) (hw : Filed o.before)
    (a b T : Address) :
    (∃ c m ch, Succeeds crypto chain o c ∧ channelMoveOf crypto chain a b T o = some m ∧
        MovesChannel chain c.auth a b T m ch o.before o.after) ∨
      channelMoveOf crypto chain a b T o = none ∧
        channelOf o.after a b T = channelOf o.before a b T := by
  by_cases hcall : ∃ c, Succeeds crypto chain o c
  · obtain ⟨c, hc⟩ := hcall
    obtain ⟨r, hexec⟩ := hc.2
    have haccepted := Machine.accepted_of_succeeds hc
    rcases (exec_effect hw hexec).channel_cases a b T with ⟨m, ch, hmove, h⟩ | ⟨hno, hsame⟩
    · refine .inl ⟨c, m, ch, hc, ?_, h⟩
      rw [channelMoveOf, haccepted, Option.bind_some, moveAt_eq_some]
      exact hmove
    · refine .inr ⟨?_, hsame⟩
      rw [channelMoveOf, haccepted, Option.bind_some, Option.eq_none_iff_forall_ne_some]
      intro m hm
      exact hno m (moveAt_eq_some.mp hm)
  · have hno : ∀ c, ¬Succeeds crypto chain o c := fun c hc => hcall ⟨c, hc⟩
    refine .inr ⟨?_, ?_⟩
    · rw [channelMoveOf, Machine.accepted_of_not_succeeds hstep hno]
      rfl
    · rcases Machine.succeeds_or_outside hstep with hcall' | ⟨x, hx⟩
      · exact absurd hcall' hcall
      · rw [hx]
        rfl

/-- A step moves the tip channel, or leaves it and its tips. -/
theorem tipChannel_step (hstep : IsStep (TipJarLegacy.step crypto chain) o) (hw : Filed o.before)
    (t c T : Address) :
    (∃ call m ch w₁, Succeeds crypto chain o call ∧
        tipChannelMoveOf crypto chain t c T o = some m ∧
        MovesTipChannel chain call.auth t c T m ch o.before w₁ ∧ Follows w₁ o.after) ∨
      tipChannelMoveOf crypto chain t c T o = none ∧
        tipChannelOf o.after t c T = tipChannelOf o.before t c T ∧
        ∀ i, tipEntryOf o.after t c T i = tipEntryOf o.before t c T i := by
  by_cases hcall : ∃ c, Succeeds crypto chain o c
  · obtain ⟨call, hc⟩ := hcall
    obtain ⟨r, hexec⟩ := hc.2
    have haccepted := Machine.accepted_of_succeeds hc
    rcases (exec_effect hw hexec).tipChannel_cases t c T with
      ⟨m, ch, w₁, hmove, h, hfollows⟩ | ⟨hno, hsame⟩
    · refine .inl ⟨call, m, ch, w₁, hc, ?_, h, hfollows⟩
      rw [tipChannelMoveOf, haccepted, Option.bind_some, moveAt_eq_some]
      exact hmove
    · refine .inr ⟨?_, hsame⟩
      rw [tipChannelMoveOf, haccepted, Option.bind_some, Option.eq_none_iff_forall_ne_some]
      intro m hm
      exact hno m (moveAt_eq_some.mp hm)
  · have hno : ∀ c, ¬Succeeds crypto chain o c := fun c hc => hcall ⟨c, hc⟩
    refine .inr ⟨?_, ?_⟩
    · rw [tipChannelMoveOf, Machine.accepted_of_not_succeeds hstep hno]
      rfl
    · rcases Machine.succeeds_or_outside hstep with hcall' | ⟨x, hx⟩
      · exact absurd hcall' hcall
      · rw [hx]
        exact ⟨rfl, fun _ => rfl⟩

/-- By induction over the run. -/
theorem filed_before (h₀ : Machine.Fresh w₀) {acts : List (Action X)}
    (ho : o ∈ trace (TipJarLegacy.step crypto chain) w₀ acts) : Filed o.before :=
  trace_invariant _ (Filed.step crypto chain) (.of_fresh h₀) ho

/-- A payment channel is an abstract channel. -/
theorem channel_laws (h₀ : Machine.Fresh w₀) (acts : List (Action X)) (a b T : Address) :
    Channel.Laws (TipJarLegacy.step crypto chain)
      (fun w => (channelOf w a b T).map PaymentChannel.view)
      (channelMoveOf crypto chain a b T) w₀ acts := by
  refine ⟨?_, fun o ho => ?_⟩
  · show ((channelOf w₀ a b T).map PaymentChannel.view) = none
    rw [channelOf_fresh h₀]
    rfl
  · rcases channel_step (isStep_of_mem _ ho) (filed_before h₀ ho) a b T with
      ⟨c, m, ch, -, hlabel, hmoves⟩ | ⟨hlabel, hsame⟩
    · refine .inl ⟨m, ch.view, hlabel, hmoves.step, ?_⟩
      rw [hmoves.stored]
      rfl
    · refine .inr ⟨hlabel, ?_⟩
      rw [hsame]

/-- And so is a tip channel. -/
theorem tipChannel_laws (h₀ : Machine.Fresh w₀) (acts : List (Action X)) (t c T : Address) :
    Channel.Laws (TipJarLegacy.step crypto chain)
      (fun w => (tipChannelOf w t c T).map TipStateChannel.view)
      (tipChannelMoveOf crypto chain t c T) w₀ acts := by
  refine ⟨?_, fun o ho => ?_⟩
  · show ((tipChannelOf w₀ t c T).map TipStateChannel.view) = none
    rw [tipChannelOf_fresh h₀]
    rfl
  · rcases tipChannel_step (isStep_of_mem _ ho) (filed_before h₀ ho) t c T with
      ⟨call, m, ch, w₁, -, hlabel, hmoves, hfollows⟩ | ⟨hlabel, hsame, -⟩
    · refine .inl ⟨m, ch.view, hlabel, hmoves.step, ?_⟩
      rw [hmoves.stored_after hfollows]
      rfl
    · refine .inr ⟨hlabel, ?_⟩
      rw [hsame]

/-! ## Who is paid what -/

/-- No call of `tr` that moved the channel paid anything, the one that funded it apart. -/
def PaysNothing (label : Occ (World X) (Action X) → Option (Channel.Move ℕ))
    (tr : List (Occ (World X) (Action X))) : Prop :=
  ∀ q ∈ tr, ∀ m, label q = some m → m.funds = false → paymentsOf q = []

/-- How a channel at the state `(nonce, share)` has been settled by the run `tr`: its state is the
last one that was agreed or claimed, under the highest nonce there was; if it is closed exactly one
call has paid it out, and no call came after it; otherwise nothing was paid. -/
structure Settlement (label : Occ (World X) (Action X) → Option (Channel.Move ℕ))
    (payout : List Transfer) (closed : Prop) (nonce : ℕ) (share : Int)
    (tr : List (Occ (World X) (Action X))) : Prop where
  last : (Channel.states (tr.filterMap label)).getLast? = some (nonce, share)
  newest : ∀ p ∈ Channel.states (tr.filterMap label), p.1 ≤ nonce
  paidOut : closed → ∃ tr₁ o tr₂ m, tr = tr₁ ++ o :: tr₂ ∧ label o = some m ∧ m.closes = true ∧
    paymentsOf o = payout ∧ (∀ q ∈ tr₂, label q = none) ∧ PaysNothing label tr₁
  running : ¬closed → PaysNothing label tr

/-- What the laws of a channel say of a machine whose closing moves pay out `payout`. -/
theorem Settlement.of_laws {get : World X → Option (Channel ℕ)}
    {label : Occ (World X) (Action X) → Option (Channel.Move ℕ)} {acts : List (Action X)}
    (h : Channel.Laws (TipJarLegacy.step crypto chain) get label w₀ acts) {c : Channel ℕ}
    (hget : get (run (TipJarLegacy.step crypto chain) w₀ acts) = some c) {payout : List Transfer}
    (hpaid : ∀ o ∈ trace (TipJarLegacy.step crypto chain) w₀ acts, ∀ m, label o = some m →
      m.closes = true → get o.after = some c → paymentsOf o = payout)
    (hfree : ∀ o ∈ trace (TipJarLegacy.step crypto chain) w₀ acts, ∀ m, label o = some m →
      m.closes = false → m.funds = false → paymentsOf o = []) :
    Settlement label payout (c.phase = .closed) c.nonce c.share
      (trace (TipJarLegacy.step crypto chain) w₀ acts) := by
  have hhistory := h.history
  rw [hget] at hhistory
  refine ⟨hhistory.last_state, hhistory.nonce_mono.2 c rfl, fun hclosed => ?_, fun hclosed => ?_⟩
  · obtain ⟨tr₁, o, tr₂, m, htr, hlabel, hcloses, hafter, hquiet, hbefore⟩ :=
      h.closed_once hget hclosed
    have ho : o ∈ trace (TipJarLegacy.step crypto chain) w₀ acts := by
      rw [htr]
      simp
    refine ⟨tr₁, o, tr₂, m, htr, hlabel, hcloses, hpaid o ho m hlabel hcloses hafter, hquiet, ?_⟩
    intro q hq n hn hfunds
    refine hfree q ?_ n hn (hbefore q hq n hn) hfunds
    rw [htr]
    exact List.mem_append_left _ hq
  · intro q hq m hm hfunds
    exact hfree q hq m hm (h.not_closes hget hclosed q hq m hm) hfunds

/-- The phase of the abstract channel is the stored status. -/
theorem PaymentChannel.phase_closed_iff (ch : PaymentChannel) :
    ch.view.phase = .closed ↔ ch.status = .closed := by
  cases hstatus : ch.status <;> simp [PaymentChannel.view, hstatus]

/-- The same for a tip channel. -/
theorem TipStateChannel.phase_closed_iff (ch : TipStateChannel) :
    ch.view.phase = .closed ↔ ch.status = .settled := by
  cases hstatus : ch.status <;> simp [TipStateChannel.view, hstatus]

theorem PaymentChannel.phase_disputed_iff (ch : PaymentChannel) {since : Nat} :
    ch.view.phase = .disputed since ↔
      ch.status = .disputed ∧ ch.disputeStartedAt.toNat = since := by
  cases hstatus : ch.status <;> simp [PaymentChannel.view, hstatus]

theorem TipStateChannel.phase_disputed_iff (ch : TipStateChannel) {since : Nat} :
    ch.view.phase = .disputed since ↔
      ch.status = .disputed ∧ ch.disputeStartedAt.toNat = since := by
  cases hstatus : ch.status <;> simp [TipStateChannel.view, hstatus]

/-- In every run, whatever else is called in between: a payment channel stands at the last state that
was agreed or claimed, and when it is closed one call has paid out exactly that split of the two
deposits, `balance_a` to the first party and the rest to the second. -/
theorem channel_settles (h₀ : Machine.Fresh w₀) (acts : List (Action X)) {a b T : Address}
    {ch : PaymentChannel}
    (hch : channelOf (run (step crypto chain) w₀ acts) a b T = some ch) :
    Settlement (channelMoveOf crypto chain a b T)
        (Transfer.positive ⟨T, chain.self, a, ch.balanceA⟩
          ++ Transfer.positive ⟨T, chain.self, b, ch.rest⟩)
        (ch.status = .closed) ch.nonce.toNat ch.balanceA.val
        (trace (step crypto chain) w₀ acts) ∧
      0 ≤ ch.balanceA.val ∧ 0 ≤ ch.rest.val ∧
      ch.balanceA.val + ch.rest.val = ch.totalDeposit.val := by
  have hlaws : Channel.Laws (step crypto chain) _ _ w₀ acts := channel_laws h₀ acts a b T
  have hget : (channelOf (run (step crypto chain) w₀ acts) a b T).map PaymentChannel.view
      = some ch.view := by
    rw [hch]
    rfl
  have hfiled : Filed (run (step crypto chain) w₀ acts) :=
    run_invariant _ (Filed.step crypto chain) (.of_fresh h₀) acts
  obtain ⟨hlo, hhi⟩ := hfiled.shares a b T ch hch
  have hrest : ch.rest.val = ch.totalDeposit.val - ch.balanceA.val := I128.val_sub_of_le hlo hhi
  have hstep : ∀ o ∈ trace (step crypto chain) w₀ acts, ∀ m,
      channelMoveOf crypto chain a b T o = some m → ∃ ch',
        channelOf o.after a b T = some ch' ∧ paymentsOf o = ch'.payments chain.self a b T m := by
    intro o ho m hm
    rcases channel_step (isStep_of_mem _ ho) (filed_before h₀ ho) a b T with
      ⟨c, n, ch', -, hlabel, hmoves⟩ | ⟨hlabel, -⟩
    · obtain rfl : n = m := Option.some.inj (hlabel.symm.trans hm)
      exact ⟨ch', hmoves.stored, hmoves.sends.drop_transfers⟩
    · rw [hlabel] at hm
      cases hm
  have hpaid : ∀ o ∈ trace (step crypto chain) w₀ acts, ∀ m,
      channelMoveOf crypto chain a b T o = some m → m.closes = true →
      (channelOf o.after a b T).map PaymentChannel.view = some ch.view →
      paymentsOf o = ch.payments chain.self a b T .settle := by
    intro o ho m hm hcloses hafter
    obtain ⟨ch', hch', hpayments⟩ := hstep o ho m hm
    -- the call left the channel with the same split
    have hview : ch'.view = ch.view := by
      rw [hch'] at hafter
      exact Option.some.inj hafter
    have hbalance : ch'.balanceA = ch.balanceA := I128.ext (congrArg Channel.share hview)
    have htotal : ch'.totalDeposit = ch.totalDeposit := I128.ext (congrArg Channel.deposit hview)
    rw [hpayments]
    cases m with
    | settle | finalise =>
      simp only [PaymentChannel.payments, PaymentChannel.rest, hbalance, htotal]
    | _ => cases hcloses
  have hfree : ∀ o ∈ trace (step crypto chain) w₀ acts, ∀ m,
      channelMoveOf crypto chain a b T o = some m → m.closes = false → m.funds = false →
      paymentsOf o = [] := by
    intro o ho m hm hcloses hfunds
    obtain ⟨ch', -, hpayments⟩ := hstep o ho m hm
    rw [hpayments]
    cases m with
    | agree | claim => rfl
    | fund => cases hfunds
    | settle | finalise => cases hcloses
  have hsettles := Settlement.of_laws hlaws hget hpaid hfree
  rw [PaymentChannel.phase_closed_iff] at hsettles
  exact ⟨hsettles, hlo, by omega, by omega⟩

/-! ### A sample network -/

/-- The XDR of the contract address `a`. -/
def sampleXdr (a : Address) : List UInt8 :=
  [0, 0, 0, 18, 0, 0, 0, 1] ++ MetaTx.beBytes 32 a.idx

/-- A request by `⟨4⟩` to tip `⟨5⟩` 300 of the token `⟨2⟩`: what is signed, its hash, the key and the
signature. -/
def sampleMessage : List UInt8 :=
  MetaTx.domain ++ sampleXdr ⟨4⟩ ++ sampleXdr ⟨5⟩ ++ sampleXdr ⟨2⟩ ++ MetaTx.beBytes 16 300
    ++ MetaTx.beBytes 8 0 ++ MetaTx.beBytes 8 1000

def sampleHash : BytesN 32 :=
  #v[
    0x60, 0x30, 0x6f, 0x90, 0x4a, 0x83, 0xcc, 0x7e, 0xd2, 0xea, 0x52, 0xef, 0x6a, 0xe3, 0xaf, 0xa2,
    0x6f, 0xf3, 0x65, 0x19, 0xcf, 0xc3, 0x94, 0x59, 0xc2, 0x58, 0x3d, 0x04, 0x61, 0xec, 0x67, 0x04]

def sampleKey : BytesN 32 :=
  #v[
    0xd7, 0x5a, 0x98, 0x01, 0x82, 0xb1, 0x0a, 0xb7, 0xd5, 0x4b, 0xfe, 0xd3, 0xc9, 0x64, 0x07, 0x3a,
    0x0e, 0xe1, 0x72, 0xf3, 0xda, 0xa6, 0x23, 0x25, 0xaf, 0x02, 0x1a, 0x68, 0xf7, 0x07, 0x51, 0x1a]

def sampleSignature : BytesN 64 :=
  #v[
    0x71, 0x8e, 0xcb, 0x2c, 0xeb, 0xfc, 0xaa, 0x33, 0xe9, 0xe0, 0x64, 0xe5, 0x0c, 0xd5, 0xe5, 0xbe,
    0xbd, 0x61, 0x42, 0xb2, 0x79, 0x8c, 0xe5, 0xc2, 0x88, 0x91, 0x19, 0xd8, 0xa1, 0x76, 0x98, 0xcf,
    0x6c, 0x38, 0xf2, 0x5b, 0x51, 0xfa, 0x07, 0x1c, 0xcb, 0x59, 0x87, 0x95, 0x71, 0x18, 0x27, 0x3e,
    0xe8, 0xcc, 0x61, 0x4e, 0xe4, 0x91, 0x18, 0x6a, 0xaa, 0xb4, 0x40, 0x90, 0x2c, 0x93, 0x69, 0x08]

/-- The host functions, as far as that request needs them. -/
def sampleCrypto : Crypto where
  sha256 bytes := if bytes = sampleMessage then sampleHash else .replicate 32 0
  ed25519Verify key hash signature :=
    key = sampleKey ∧ hash = sampleHash ∧ signature = sampleSignature
  toXdr := sampleXdr

def sampleChain : Chain (Clocked Balances) := (standardChain ⟨0⟩).clocked

/-- Everybody but the contract has 1000 of everything. -/
def sampleWorld : World (Clocked Balances) :=
  Machine.freshEnv ⟨fun _ a => if a = ⟨0⟩ then 0 else 1000, 100⟩

/-- The contract is set up for the token `⟨2⟩`. -/
def setUp : List (Action (Clocked Balances)) :=
  [.call ⟨1, [⟨9⟩], .init ⟨9⟩⟩, .call ⟨1, [⟨9⟩], .addToken ⟨9⟩ ⟨2⟩⟩]

/-- A channel between `⟨4⟩` and `⟨5⟩`. -/
def openedChannel : List (Action (Clocked Balances)) :=
  setUp ++ [.call ⟨2, [⟨4⟩, ⟨5⟩], .openChannel ⟨4⟩ ⟨5⟩ ⟨2⟩ 300 200 60⟩,
    .call ⟨3, [⟨4⟩, ⟨5⟩], .updateChannelState ⟨4⟩ ⟨5⟩ ⟨2⟩ 350 1⟩]

/-- The channel is closed by both. -/
def closedChannel : List (Action (Clocked Balances)) :=
  openedChannel ++ [.call ⟨4, [⟨4⟩, ⟨5⟩], .cooperativeClose ⟨4⟩ ⟨5⟩ ⟨2⟩⟩]

/-- The two agreed on 350 and 150, and that is what closing the channel pays. -/
theorem channel_settles_sample :
    ∃ o ∈ trace (step sampleCrypto sampleChain) sampleWorld closedChannel,
      paymentsOf o = [⟨⟨2⟩, ⟨0⟩, ⟨4⟩, 350⟩, ⟨⟨2⟩, ⟨0⟩, ⟨5⟩, 150⟩] := by
  obtain ⟨hsettles, -⟩ := @channel_settles _ sampleCrypto sampleChain sampleWorld
    (Machine.freshEnv_fresh _) closedChannel ⟨4⟩ ⟨5⟩ ⟨2⟩ _ rfl
  obtain ⟨tr₁, o, tr₂, m, htr, -, -, hpaid, -⟩ := hsettles.paidOut rfl
  refine ⟨o, ?_, hpaid⟩
  rw [htr]
  simp

/-! ## How a dispute ends -/

/-- What protects each party of a channel: while it is open its state changes, and it is settled,
with the authorisation of both. What one of them does alone is a claim or the end of a dispute, at
the time of the ledger. A dispute that was finalised had been started a whole window before, and all
that happened since are claims made within that window. -/
structure Fair (crypto : Crypto) (chain : Chain X) (p q : Address)
    (label : Occ (World X) (Action X) → Option (Channel.Move ℕ)) (window : World X → Option ℕ)
    (tr : List (Occ (World X) (Action X))) : Prop where
  authorised : ∀ o ∈ tr, ∀ m, label o = some m → m.funds = false →
    ∃ call, Succeeds crypto chain o call ∧ Authorises call.auth p q m ∧
      ∀ t ∈ m.time, t = (chain.timestamp o.before.ext).toNat
  waits : ∀ tr₁ o tr₂ now, tr = tr₁ ++ o :: tr₂ → label o = some (.finalise now) →
    ∃ length, window o.after = some length ∧ ∃ first since share nonce before rest,
      tr₁ = before ++ first :: rest ∧ label first = some (.claim since share nonce) ∧
      since + length ≤ now ∧
      ∀ r ∈ rest, ∀ m, label r = some m → ∃ t s n, m = .claim t s n ∧ t < since + length

/-- In every run, for both kinds of channel: who authorised a move, and how long a dispute waited. That
the other party could answer in the meantime is not said: a claim with the highest nonce cannot be
answered, nor can any while the contract is paused. -/
theorem disputes_fair (h₀ : Machine.Fresh w₀) (acts : List (Action X)) (p q T : Address) :
    Fair crypto chain p q (channelMoveOf crypto chain p q T)
        (fun w => (channelOf w p q T).map fun ch => ch.disputeWindow.toNat)
        (trace (step crypto chain) w₀ acts) ∧
      Fair crypto chain p q (tipChannelMoveOf crypto chain p q T)
        (fun w => (tipChannelOf w p q T).map fun ch => ch.disputeWindow.toNat)
        (trace (step crypto chain) w₀ acts) := by
  refine ⟨⟨fun o ho m hm _ => ?_, ?_⟩, fun o ho m hm hfunds => ?_, ?_⟩
  · rcases channel_step (isStep_of_mem _ ho) (filed_before h₀ ho) p q T with
      ⟨call, n, ch, hcall, hlabel, hmoves⟩ | ⟨hlabel, -⟩
    · obtain rfl : n = m := Option.some.inj (hlabel.symm.trans hm)
      exact ⟨call, hcall, hmoves.authorised, hmoves.timed⟩
    · rw [hlabel] at hm
      cases hm
  · intro tr₁ o tr₂ now htr hlabel
    obtain ⟨c, hc, hwaited⟩ := (channel_laws h₀ acts p q T).waited htr hlabel
    obtain ⟨ch, hch, rfl⟩ := Option.map_eq_some_iff.mp hc
    refine ⟨ch.disputeWindow.toNat, ?_, hwaited⟩
    rw [hch]
    rfl
  · rcases tipChannel_step (isStep_of_mem _ ho) (filed_before h₀ ho) p q T with
      ⟨call, n, ch, w₁, hcall, hlabel, hmoves, -⟩ | ⟨hlabel, -⟩
    · obtain rfl : n = m := Option.some.inj (hlabel.symm.trans hm)
      exact ⟨call, hcall, hmoves.authorised hfunds, hmoves.timed⟩
    · rw [hlabel] at hm
      cases hm
  · intro tr₁ o tr₂ now htr hlabel
    obtain ⟨c, hc, hwaited⟩ := (tipChannel_laws h₀ acts p q T).waited htr hlabel
    obtain ⟨ch, hch, rfl⟩ := Option.map_eq_some_iff.mp hc
    refine ⟨ch.disputeWindow.toNat, ?_, hwaited⟩
    rw [hch]
    rfl

/-- `⟨4⟩` claims 450, `⟨5⟩` answers with a newer state, and the window passes. -/
def disputedChannel : List (Action (Clocked Balances)) :=
  openedChannel ++ [.call ⟨4, [⟨4⟩], .disputeClose ⟨4⟩ ⟨4⟩ ⟨5⟩ ⟨2⟩ 450 5⟩,
    .call ⟨5, [⟨5⟩], .disputeClose ⟨5⟩ ⟨4⟩ ⟨5⟩ ⟨2⟩ 350 7⟩,
    .outside ⟨fun _ a => if a = ⟨0⟩ then 500 else 1000, 200⟩]

/-- The dispute that ends at 200 was started a window of 60 before. -/
theorem disputes_fair_sample :
    ∃ first ∈ trace (step sampleCrypto sampleChain) sampleWorld disputedChannel,
      ∃ since share nonce, since + 60 ≤ 200 ∧
        channelMoveOf sampleCrypto sampleChain ⟨4⟩ ⟨5⟩ ⟨2⟩ first
          = some (.claim since share nonce) := by
  obtain ⟨⟨-, hwaits⟩, -⟩ := @disputes_fair _ sampleCrypto sampleChain sampleWorld
    (Machine.freshEnv_fresh _)
    (disputedChannel ++ [.call ⟨7, [⟨4⟩], .disputeClose ⟨4⟩ ⟨4⟩ ⟨5⟩ ⟨2⟩ 0 0⟩]) ⟨4⟩ ⟨5⟩ ⟨2⟩
  obtain ⟨length, hlength, first, since, share, nonce, before, rest, htr, hclaim, hlate, -⟩ :=
    hwaits _ _ [] 200 (trace_concat _ _ _ _) rfl
  obtain rfl : 60 = length := Option.some.inj hlength
  refine ⟨first, ?_, since, share, nonce, hlate, hclaim⟩
  rw [htr]
  simp

end TipJarLegacy
