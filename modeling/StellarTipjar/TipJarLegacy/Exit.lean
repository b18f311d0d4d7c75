import StellarTipjar.TipJarLegacy.Escrow

/-!
# TipJarLegacy — how the money gets out again

A party of a channel needs nobody to close it: it claims a state, waits for the window and finalises
(`channel_exits`, `tip_channel_exits`), while the contract is not paused. Two things limit this. The
claim is not signed by the other party, so with the highest nonce there is it is the last word,
whatever it says (`last_word_stands`). And a dispute whose end does not fit into a `u64` never ends
with overflow checks, and ends at once without (`dispute_stuck`). A stream pays out whenever the
contract is not paused (`stream_exits`).
-/

namespace TipJarLegacy

open Lib Soroban Contract

variable {X : Type} {crypto : Crypto} {chain : Chain X} {w w' w₀ : World X} {auth : List Address}
  {a b t c T : Address} {sequence : UInt32}

/-! ## The last word -/

/-- The highest nonce. -/
def lastNonce : Nat := 2 ^ 64 - 1

theorem toNat_le_lastNonce (n : UInt64) : n.toNat ≤ lastNonce := Nat.le_sub_one_of_lt n.toNat_lt

theorem toNat_lastNonce : (UInt64.ofNat lastNonce).toNat = lastNonce := by decide

theorem le_lastNonce (n : UInt64) : n ≤ .ofNat lastNonce := by
  rw [UInt64.le_iff_toNat_le, toNat_lastNonce]
  exact toNat_le_lastNonce n

/-- After a claim with the highest nonce the channel stays at the claimed share, and nothing moves it
but the end of the dispute. -/
def LastWord (label : Occ (World X) (Action X) → Option (Channel.Move ℕ)) (at_ : Option (Channel ℕ))
    (tr : List (Occ (World X) (Action X))) : Prop :=
  ∀ tr₁ o tr₂ now share, tr = tr₁ ++ o :: tr₂ → label o = some (.claim now share lastNonce) →
    (∃ ch, at_ = some ch ∧ ch.share = share ∧ ch.nonce = lastNonce ∧ ch.phase ≠ .opened) ∧
      ∀ r ∈ tr₂, ∀ m, label r = some m → ∃ t, m = .finalise t

theorem LastWord.of_laws {get : World X → Option (Channel ℕ)}
    {label : Occ (World X) (Action X) → Option (Channel.Move ℕ)} {acts : List (Action X)}
    (h : Channel.Laws (step crypto chain) get label w₀ acts)
    (hmax : ∀ ch ∈ get (run (step crypto chain) w₀ acts), ch.nonce ≤ lastNonce) :
    LastWord label (get (run (step crypto chain) w₀ acts)) (trace (step crypto chain) w₀ acts) := by
  intro tr₁ o tr₂ now share htr hlabel
  have hhistory := h.history
  have hmoves : (trace (step crypto chain) w₀ acts).filterMap label
      = tr₁.filterMap label ++ .claim now share lastNonce :: tr₂.filterMap label := by
    rw [htr, List.filterMap_append, List.filterMap_cons, hlabel]
  have hbound : ∀ p ∈ Channel.states ((trace (step crypto chain) w₀ acts).filterMap label),
      p.1 ≤ lastNonce := by
    intro p hp
    cases hget : get (run (step crypto chain) w₀ acts) with
    | none =>
      rw [hget] at hhistory
      rw [hhistory.eq_nil] at hp
      cases hp
    | some ch => exact (hhistory.nonce_mono.2 ch hget p hp).trans (hmax ch hget)
  obtain ⟨hend, hafter⟩ := hhistory.last_word hbound hmoves
  refine ⟨hend, fun r hr m hm => hafter m ?_⟩
  exact List.mem_filterMap.mpr ⟨r, hr, hm⟩

/-- In every run, for both kinds of channel: a claim with the highest nonce is the last word. The
other party has not signed it and nobody can answer it; it is paid out when the dispute ends, as
`channel_settles` and `tip_channel_settles` say. -/
theorem last_word_stands (h₀ : Machine.Fresh w₀) (acts : List (Action X)) (p q T : Address) :
    LastWord (channelMoveOf crypto chain p q T)
        ((channelOf (run (step crypto chain) w₀ acts) p q T).map PaymentChannel.view)
        (trace (step crypto chain) w₀ acts) ∧
      LastWord (tipChannelMoveOf crypto chain p q T)
        ((tipChannelOf (run (step crypto chain) w₀ acts) p q T).map TipStateChannel.view)
        (trace (step crypto chain) w₀ acts) := by
  refine ⟨.of_laws (channel_laws h₀ acts p q T) fun ch hch => ?_,
    .of_laws (tipChannel_laws h₀ acts p q T) fun ch hch => ?_⟩
  · obtain ⟨ch', -, rfl⟩ := Option.map_eq_some_iff.mp hch
    exact toNat_le_lastNonce ch'.nonce
  · obtain ⟨ch', -, rfl⟩ := Option.map_eq_some_iff.mp hch
    exact toNat_le_lastNonce ch'.nonce

/-- `⟨4⟩` claims the 500 of the channel for itself. -/
def grabbedChannel : List (Action (Clocked Balances)) :=
  openedChannel ++ [.call ⟨4, [⟨4⟩], .disputeClose ⟨4⟩ ⟨4⟩ ⟨5⟩ ⟨2⟩ 500 (.ofNat lastNonce)⟩]

/-- The state both had agreed on can no longer be brought up. -/
theorem last_word_stands_sample :
    ∃ ch, channelOf (run (step sampleCrypto sampleChain) sampleWorld
        (grabbedChannel ++ [.call ⟨5, [⟨5⟩], .disputeClose ⟨5⟩ ⟨4⟩ ⟨5⟩ ⟨2⟩ 350 7⟩])) ⟨4⟩ ⟨5⟩ ⟨2⟩
      = some ch ∧ ch.balanceA.val = 500 := by
  obtain ⟨hword, -⟩ := @last_word_stands _ sampleCrypto sampleChain sampleWorld
    (Machine.freshEnv_fresh _)
    (grabbedChannel ++ [.call ⟨5, [⟨5⟩], .disputeClose ⟨5⟩ ⟨4⟩ ⟨5⟩ ⟨2⟩ 350 7⟩]) ⟨4⟩ ⟨5⟩ ⟨2⟩
  have hclaim := trace_append (step sampleCrypto sampleChain) sampleWorld openedChannel
    [.call ⟨4, [⟨4⟩], .disputeClose ⟨4⟩ ⟨4⟩ ⟨5⟩ ⟨2⟩ 500 (.ofNat lastNonce)⟩,
      .call ⟨5, [⟨5⟩], .disputeClose ⟨5⟩ ⟨4⟩ ⟨5⟩ ⟨2⟩ 350 7⟩]
  obtain ⟨⟨c, hc, hshare, -⟩, -⟩ := hword _ _ _ 100 500 hclaim rfl
  obtain ⟨ch, hch, rfl⟩ := Option.map_eq_some_iff.mp hc
  exact ⟨ch, hch, hshare⟩

/-! ## Everything owed can be paid -/

/-- The states in which the contract can pay: it holds what it owes, and owes nobody less than
nothing. -/
structure Solid (chain : Chain X) (T : Address) (holding : X → Address → Nat) (w : World X) :
    Prop where
  filed : Filed w
  streams : StreamsSound chain w
  credits : ∀ creator T, 0 ≤ (creditOf w creator T).val
  covers : Covers chain T holding w

theorem creditOf_congr (h : ∀ creator T, w'.pers.get (.creatorBalance creator T)
    = w.pers.get (.creatorBalance creator T)) (creator T : Address) :
    creditOf w' creator T = creditOf w creator T := by
  unfold creditOf
  rw [h]

theorem MovesStream.credits {id : UInt64} {s s' : TipStream} {ts : List Transfer}
    (h : MovesStream chain id s s' ts w w') (creator T : Address) :
    creditOf w' creator T = creditOf w creator T := by
  refine creditOf_congr (fun creator T => ?_) creator T
  rw [h.pers, Store.get_set_of_ne _ (by simp)]

/-- A call leaves what a creator has been credited, or adds to it. -/
theorem Effect.credit_le {call : Call} (h : Effect crypto chain call w w') (creator T : Address) :
    (creditOf w creator T).val ≤ (creditOf w' creator T).val := by
  cases h with
  | streamCreated sender creator' token rate duration total s entry h =>
    obtain ⟨senderIds, creatorIds, hpers⟩ := h.pers
    rw [creditOf_congr fun creator T => by
      rw [hpers, Store.get_set_of_ne _ (by simp), Store.get_set_of_ne _ (by simp),
        Store.get_set_of_ne _ (by simp)]]
  | streamStarted id s s' entry h => rw [h.credits]
  | streamStopped id s streamed entry h => rw [h.credits]
  | streamWithdrawn id s streamed available entry h => rw [h.credits]
  | streamCancelled id s streamed remaining entry h => rw [h.credits]
  | channelMoved a b T' m ch entry h =>
    rw [creditOf_congr fun creator T => by rw [h.pers, Store.get_set_of_ne _ (by simp)]]
  | tipChannelMoved t c T' m ch entry direct opener h =>
    rw [creditOf_congr fun creator T => h.get_of_ne (by simp) (by simp)]
  | metaExecuted relayer req w₁ entry verified acts h =>
    rw [creditOf_congr fun creator T => h.follows.pers _ (by simp [DataKey.isMeta])]
    cases acts with
    | tip h =>
      obtain ⟨balance, total, hbalance, hpers⟩ := h.pers
      have hpos := h.amount_pos
      by_cases hkey : DataKey.creatorBalance creator T = .creatorBalance req.dest req.token
      · cases hkey
        have hread : creditOf w₁ req.dest req.token = balance := by
          unfold creditOf
          rw [hpers, Store.get_set_of_ne _ (by simp), Store.get_set_self]
          rfl
        rw [hread]
        omega
      · have hread : creditOf w₁ creator T = creditOf w creator T := by
          unfold creditOf
          rw [hpers, Store.get_set_of_ne _ (by simp), Store.get_set_of_ne _ hkey]
        rw [hread]
    | openChannel action ch h =>
      rw [creditOf_congr fun creator T => h.get_of_ne (by simp) (by simp)]
  | silent entry h => rw [creditOf_congr fun creator T => by rw [h.pers]]

section Paying

variable {holding : X → Address → Nat} {o : Occ (World X) (Action X)}

/-- One occurrence of such a run. -/
structure OrdinaryStep (crypto : Crypto) (chain : Chain X) (T : Address)
    (holding : X → Address → Nat) (o : Occ (World X) (Action X)) : Prop where
  permitted : Machine.Permitted chain holding o
  time : TimePasses chain o
  requests : ∀ req, ¬SelfRequested crypto chain T req o

/-- A run in which nobody acts as the contract, its account is not debited from outside, and time
does not go back. -/
def Ordinary (crypto : Crypto) (chain : Chain X) (T : Address)
    (holding : X → Address → Nat) (w₀ : World X) (acts : List (Action X)) : Prop :=
  ∀ o ∈ trace (step crypto chain) w₀ acts, OrdinaryStep crypto chain T holding o

instance : Decidable (OrdinaryStep crypto chain T holding o) :=
  decidable_of_iff (Machine.Permitted chain holding o ∧ TimePasses chain o ∧
      ∀ req, ¬SelfRequested crypto chain T req o)
    ⟨fun h => ⟨h.1, h.2.1, h.2.2⟩, fun h => ⟨h.permitted, h.time, h.requests⟩⟩

instance (w₀ : World X) (acts : List (Action X)) :
    Decidable (Ordinary crypto chain T holding w₀ acts) :=
  inferInstanceAs (Decidable (∀ o ∈ trace (step crypto chain) w₀ acts,
    OrdinaryStep crypto chain T holding o))

/-- Such runs stay solid. -/
theorem solid_run (h₀ : Machine.Fresh w₀) {acts : List (Action X)}
    (htoken : chain.ExactToken T holding) (hrun : Ordinary crypto chain T holding w₀ acts) :
    Solid chain T holding (run (step crypto chain) w₀ acts) := by
  refine ⟨run_invariant _ (Filed.step crypto chain) (.of_fresh h₀) acts,
    streamsSound_run h₀ acts fun o ho => (hrun o ho).time, ?_, ?_⟩
  · refine run_invariant_of_trace (P := fun w => ∀ creator T, 0 ≤ (creditOf w creator T).val) _ ?_
      fun o ho hcredits creator T' => ?_
    · intro creator T'
      unfold creditOf
      rw [h₀.pers]
      exact le_rfl
    · rcases Machine.succeeds_or_outside (isStep_of_mem _ ho) with ⟨call, hc⟩ | ⟨x, hx⟩
      · obtain ⟨r, hexec⟩ := hc.2
        have hle := (exec_effect (filed_before h₀ ho) hexec).credit_le creator T'
        exact (hcredits creator T').trans hle
      · rw [hx]
        exact hcredits creator T'
  · refine run_invariant_of_trace _ (covers_fresh h₀) fun o ho => ?_
    exact Covers.step htoken (isStep_of_mem _ ho) (hrun o ho).permitted (filed_before h₀ ho)
      (streamsSound_before h₀ (fun q hq => (hrun q hq).time) ho)
      fun req hreq => absurd hreq ((hrun o ho).requests req)

namespace Solid

theorem debt_nonneg (h : Solid chain T holding w) (T' : Address) (k : DataKey) :
    ∀ v ∈ w.pers.get k, 0 ≤ debt T' k v := by
  intro v hv
  have hlocked : ∀ {c : Channel ℕ}, 0 ≤ c.deposit → 0 ≤ c.locked := by
    intro c hc
    unfold Channel.locked
    split
    · exact le_rfl
    · exact hc
  cases k with
  | stream key =>
    cases key with
    | record id =>
      show 0 ≤ if v.token = T' then v.remaining else 0
      split
      · exact (h.streams.sound id v hv).remaining_nonneg
      · exact le_rfl
    | _ => exact le_rfl
  | paymentChannel a b T'' =>
    show 0 ≤ if T'' = T' then v.view.locked else 0
    split
    · obtain ⟨hlo, hhi⟩ := h.filed.shares a b T'' v hv
      exact hlocked (hlo.trans hhi)
    · exact le_rfl
  | tipChannel t c T'' =>
    show 0 ≤ if T'' = T' then v.view.locked else 0
    split
    · obtain ⟨hlo, hhi⟩ := h.filed.tipShares t c T'' v hv
      exact hlocked (hlo.trans hhi)
    · exact le_rfl
  | creatorBalance creator T'' =>
    show 0 ≤ if T'' = T' then v.val else 0
    split
    · have hcredit := h.credits creator T''
      unfold creditOf at hcredit
      rw [show w.pers.get (.creatorBalance creator T'') = some v from hv] at hcredit
      exact hcredit
    · exact le_rfl
  | _ => exact le_rfl

/-- The contract holds what one entry promises. -/
theorem debt_le (h : Solid chain T holding w) {k : DataKey} {v : DataKey.Val k}
    (hv : w.pers.get k = some v) : debt T k v ≤ holding w.ext chain.self :=
  (Store.weight_le_sum (h.debt_nonneg T) hv).trans h.covers

end Solid

/-- Two shares the contract holds can be paid out. -/
theorem pays_shares {p q : Address} {x y : I128} (htoken : chain.PayingToken T holding)
    (hx : 0 ≤ x.val) (hy : 0 ≤ y.val) (hholds : x.val + y.val ≤ holding w.ext chain.self) :
    ∃ e, chain.transferAll (Transfer.positive ⟨T, chain.self, p, x⟩
      ++ Transfer.positive ⟨T, chain.self, q, y⟩) w.ext = some e := by
  obtain ⟨-, hsum⟩ := payOut_positive chain.self p q T hx hy
  refine htoken.pays_all (fun u hu => ?_) (by rw [hsum]; exact hholds)
  rcases List.mem_append.mp hu with hu | hu
  · obtain ⟨rfl, hpos⟩ := Transfer.mem_positive hu
    exact ⟨rfl, rfl, hpos⟩
  · obtain ⟨rfl, hpos⟩ := Transfer.mem_positive hu
    exact ⟨rfl, rfl, hpos⟩

end Paying

/-! ## The calls that pay out -/

/-- The contract is not paused. -/
def Unpaused (w : World X) : Prop := (w.inst.get .paused : Option Bool).getD false = false

/-- The host can load the contract and the entry under `k`. -/
def Loads (chain : Chain X) (sequence : UInt32) (auth : List Address) (k : DataKey) (w : World X) :
    Prop :=
  let ctx : Ctx DataKey DataKey.Val Event Error X := chain.ctx sequence auth
  InstanceLive ctx w ∧ ¬w.Archived ctx k

theorem requireNotPaused_twp {Q : Unit → World X → Prop} (hpause : Unpaused w) (hQ : Q () w) :
    twp requireNotPaused (chain.ctx sequence auth) w Q := by
  unfold Unpaused at hpause
  simp only [requireNotPaused, checkIsPaused, twp_bind, twp_instanceGet, hpause, if_true, twp_pure,
    twp_panicIf]
  exact ⟨by decide, hQ⟩

theorem payOut_twp {first second : Address} {toFirst toSecond : I128} {Q : Unit → World X → Prop}
    {x : X} (hx : chain.transferAll (Transfer.positive ⟨T, chain.self, first, toFirst⟩
      ++ Transfer.positive ⟨T, chain.self, second, toSecond⟩) w.ext = some x)
    (hQ : Q () { w with
      ext := x
      transfers := w.transfers ++ (Transfer.positive ⟨T, chain.self, first, toFirst⟩
        ++ Transfer.positive ⟨T, chain.self, second, toSecond⟩) }) :
    twp (payOut T first second toFirst toSecond) (chain.ctx sequence auth) w Q := by
  simp only [payOut, twp_bind, twp_currentContractAddress, twp_onlyIf, twp_tokenTransfer,
    Chain.ctx_self, Env.transferred_ext]
  by_cases hfirst : 0 < toFirst
  · by_cases hsecond : 0 < toSecond
    · rw [Transfer.positive, Transfer.positive, if_pos hfirst, if_pos hsecond] at hx hQ
      obtain ⟨y, hy, hrest⟩ := Chain.transferAll_cons.mp hx
      refine ⟨fun _ => ⟨y, hy, fun _ => ⟨x, Chain.transferAll_singleton.mp hrest, ?_⟩,
        fun h => absurd hsecond h⟩, fun h => absurd hfirst h⟩
      simpa only [Env.transferred, List.append_assoc] using hQ
    · rw [Transfer.positive, Transfer.positive, if_pos hfirst, if_neg hsecond] at hx hQ
      refine ⟨fun _ => ⟨x, Chain.transferAll_singleton.mp hx, fun h => absurd h hsecond,
        fun _ => hQ⟩, fun h => absurd hfirst h⟩
  · by_cases hsecond : 0 < toSecond
    · rw [Transfer.positive, Transfer.positive, if_neg hfirst, if_pos hsecond] at hx hQ
      exact ⟨fun h => absurd h hfirst, fun _ =>
        ⟨fun _ => ⟨x, Chain.transferAll_singleton.mp hx, hQ⟩, fun h => absurd hsecond h⟩⟩
    · rw [Transfer.positive, Transfer.positive, if_neg hfirst, if_neg hsecond] at hx hQ
      obtain rfl := Option.some.inj hx
      refine ⟨fun h => absurd h hfirst, fun _ => ⟨fun h => absurd h hsecond, fun _ => ?_⟩⟩
      simpa only [List.append_nil] using hQ

section Channels

variable {holding : X → Address → Nat}

/-- A party passes the check of the caller. -/
theorem PaymentChannel.Between.party {ch : PaymentChannel} (h : ch.Between a b T) {p : Address}
    (hparty : p = a ∨ p = b) : ¬(p ≠ ch.partyA ∧ p ≠ ch.partyB) := by
  rw [h.partyA, h.partyB]
  exact fun hother => hparty.elim hother.1 hother.2

/-- A party of a channel claims the split `balance` under `nonce`. -/
theorem disputeClose_claims (crypto : Crypto) {ch : PaymentChannel} (hw : Filed w)
    (hch : channelOf w a b T = some ch) (hstatus : ch.status = .opened) {p : Address}
    (hparty : p = a ∨ p = b) (hauth : p ∈ auth) {balance : I128} {nonce : UInt64}
    (hlo : 0 ≤ balance.val) (hhi : balance.val ≤ ch.totalDeposit.val) (hnonce : ch.nonce ≤ nonce)
    (hpause : Unpaused w) (hloads : Loads chain sequence auth (.paymentChannel a b T) w) :
    ∃ r w', exec crypto chain ⟨sequence, auth, .disputeClose p a b T balance nonce⟩ w = .ok (r, w') ∧
      channelOf w' a b T = some { ch with
        status := .disputed
        disputeStartedAt := chain.timestamp w.ext
        disputer := some p
        balanceA := balance
        nonce } ∧ w'.ext = w.ext ∧ w'.transfers = w.transfers := by
  have hcaller := (hw.channels a b T ch hch).party hparty
  refine Machine.exec_of_twp _ hloads.1 ?_
  simp only [program, programIn, disputeClose, loadChannel, twp_bind]
  refine requireNotPaused_twp hpause ?_
  simp only [twp_requireAuth, Chain.ctx_auth, twp_persistentGet, twp_unwrapOrPanic]
  refine ⟨hauth, hloads.2, ch, hch, ?_⟩
  simp only [twp_panicIf, twp_ledgerTimestamp, hstatus, twp_bind, twp_persistentSet, twp_publish,
    twp_pure]
  refine ⟨hcaller, ?_, UInt64.not_lt.mpr hnonce, hloads.2, ?_, rfl, rfl⟩
  · exact fun h => h.elim (not_lt.mpr hlo) (not_lt.mpr hhi)
  · unfold channelOf
    exact Store.get_set_self _ _ _

/-- A window whose end has come has one that fits. -/
theorem sum64_of_over {started window now : UInt64}
    (hover : started.toNat + window.toNat ≤ now.toNat) :
    ∃ windowEnd, Profile.dev.sum64 started window = some windowEnd ∧ windowEnd ≤ now := by
  have hend : (UInt64.ofNat (started.toNat + window.toNat)).toNat = started.toNat + window.toNat :=
    UInt64.toNat_ofNat_of_lt' (hover.trans_lt now.toNat_lt)
  refine ⟨.ofNat (started.toNat + window.toNat), checkedAdd64_eq_some.mpr hend, ?_⟩
  rw [UInt64.le_iff_toNat_le, hend]
  exact hover

/-- Once the end of the window that a build computes has come, a dispute call of a party closes the
channel and pays it out. -/
theorem disputeClose_closes (crypto : Crypto) (profile : Profile) {ch : PaymentChannel}
    (hw : Filed w) (hch : channelOf w a b T = some ch) (hstatus : ch.status = .disputed)
    {windowEnd : UInt64}
    (hend : profile.sum64 ch.disputeStartedAt ch.disputeWindow = some windowEnd)
    (hover : windowEnd ≤ chain.timestamp w.ext) {p : Address} (hparty : p = a ∨ p = b)
    (hauth : p ∈ auth) (balance : I128) (nonce : UInt64) (hpause : Unpaused w)
    (hloads : Loads chain sequence auth (.paymentChannel a b T) w) {x : X}
    (hx : chain.transferAll (ch.payments chain.self a b T .settle) w.ext = some x) :
    ∃ r w', Machine.exec (programIn profile crypto) chain
        ⟨sequence, auth, .disputeClose p a b T balance nonce⟩ w = .ok (r, w') ∧
      channelOf w' a b T = some { ch with status := .closed } ∧
      w'.transfers = w.transfers ++ ch.payments chain.self a b T .settle := by
  have hcaller := (hw.channels a b T ch hch).party hparty
  refine Machine.exec_of_twp _ hloads.1 ?_
  simp only [programIn, disputeClose, loadChannel, twp_bind]
  refine requireNotPaused_twp hpause ?_
  simp only [twp_requireAuth, Chain.ctx_auth, twp_persistentGet, twp_unwrapOrPanic]
  refine ⟨hauth, hloads.2, ch, hch, ?_⟩
  simp only [twp_panicIf, twp_ledgerTimestamp, hstatus, twp_bind, twp_add64, twp_ite,
    PaymentChannel.balanceB, twp_persistentSet]
  refine ⟨hcaller, windowEnd, hend, fun hearly => absurd hover (UInt64.not_le.mpr hearly), fun _ => ?_⟩
  refine twp_sub_of_val profile (PaymentChannel.rest_val (hw.shares a b T ch hch)) ?_
  refine ⟨hloads.2, payOut_twp hx ?_⟩
  simp only [twp_publish, twp_pure]
  refine ⟨?_, rfl⟩
  unfold channelOf
  exact Store.get_set_self _ _ _

/-- Once the window is over a party finalises the dispute, and the channel is paid out. -/
theorem disputeClose_finalises (crypto : Crypto) {ch : PaymentChannel} (h : Solid chain T holding w)
    (htoken : chain.PayingToken T holding) (hch : channelOf w a b T = some ch)
    (hstatus : ch.status = .disputed)
    (hover : ch.disputeStartedAt.toNat + ch.disputeWindow.toNat ≤ (chain.timestamp w.ext).toNat)
    {p : Address} (hparty : p = a ∨ p = b) (hauth : p ∈ auth) (balance : I128) (nonce : UInt64)
    (hpause : Unpaused w) (hloads : Loads chain sequence auth (.paymentChannel a b T) w) :
    ∃ r w', exec crypto chain ⟨sequence, auth, .disputeClose p a b T balance nonce⟩ w = .ok (r, w') ∧
      channelOf w' a b T = some { ch with status := .closed } ∧
      w'.transfers = w.transfers ++ (Transfer.positive ⟨T, chain.self, a, ch.balanceA⟩
        ++ Transfer.positive ⟨T, chain.self, b, ch.rest⟩) := by
  have hshares := h.filed.shares a b T ch hch
  have hrest := PaymentChannel.rest_val hshares
  -- the contract holds the deposit
  have hkept : debt T (.paymentChannel a b T) ch = ch.totalDeposit.val := by
    show (if T = T then ch.view.locked else 0) = _
    rw [if_pos rfl, Channel.locked, PaymentChannel.phase_disputed hstatus, if_neg (by simp)]
    rfl
  have hholds : ch.totalDeposit.val ≤ holding w.ext chain.self := hkept ▸ h.debt_le hch
  obtain ⟨x, hx⟩ := pays_shares (w := w) (p := a) (q := b) htoken hshares.1 (y := ch.rest)
    (by omega) (by omega)
  obtain ⟨windowEnd, hend, hreached⟩ := sum64_of_over hover
  exact disputeClose_closes crypto .dev h.filed hch hstatus hend hreached hparty hauth balance nonce
    hpause hloads hx

/-- A call of a party about a channel that is not settled passes the checks of the entrypoint, in
either build, and is put to the library. -/
theorem disputeTipChannel_twp {profile : Profile} {ch : TipStateChannel} (hw : Filed w)
    (hch : tipChannelOf w t c T = some ch) (hstatus : ¬ch.status = .settled) {p : Address}
    (hparty : p = t ∨ p = c) (hauth : p ∈ auth) {amount : I128} {nonce : UInt64}
    (hlo : 0 ≤ amount.val) (hhi : amount.val ≤ ch.deposit.val) (hpause : Unpaused w)
    (hloads : Loads chain sequence auth (.tipChannel t c T) w) {Q : Unit → World X → Prop}
    (hdispute : twp (StateChannel.dispute p t c T amount nonce profile) (chain.ctx sequence auth) w
      Q) :
    twp (disputeTipChannel p t c T amount nonce profile) (chain.ctx sequence auth) w Q := by
  obtain ⟨rfl, rfl, rfl⟩ := hw.tipChannels t c T ch hch
  have hpresent : (w.pers.get (.tipChannel ch.tipper ch.creator ch.token)).isSome = true := by
    rw [show w.pers.get (.tipChannel ch.tipper ch.creator ch.token) = some ch from hch]
    rfl
  simp only [disputeTipChannel, loadTipChannel, StateChannel.load, twp_bind]
  refine requireNotPaused_twp hpause ?_
  simp only [twp_requireAuth, Chain.ctx_auth, twp_persistentHas, twp_persistentGet, twp_panicIf,
    twp_unwrapOrTrap, hpresent]
  exact ⟨hauth, hloads.2, by decide, hloads.2, ch, hch, fun h => hparty.elim h.1 h.2, hstatus,
    fun h => h.elim (not_lt.mpr hlo) (not_lt.mpr hhi), hdispute⟩

/-- The same two for a tip channel. -/
theorem disputeTipChannel_claims (crypto : Crypto) {ch : TipStateChannel} (hw : Filed w)
    (hch : tipChannelOf w t c T = some ch) (hstatus : ch.status = .opened) {p : Address}
    (hparty : p = t ∨ p = c) (hauth : p ∈ auth) {amount : I128} {nonce : UInt64}
    (hlo : 0 ≤ amount.val) (hhi : amount.val ≤ ch.deposit.val) (hnonce : ch.nonce ≤ nonce)
    (hpause : Unpaused w) (hloads : Loads chain sequence auth (.tipChannel t c T) w) :
    ∃ r w', exec crypto chain ⟨sequence, auth, .disputeTipChannel p t c T amount nonce⟩ w
        = .ok (r, w') ∧
      tipChannelOf w' t c T = some { ch with
        status := .disputed
        disputeStartedAt := chain.timestamp w.ext
        disputer := some p
        tippedAmount := amount
        nonce } ∧ w'.ext = w.ext ∧ w'.transfers = w.transfers := by
  refine Machine.exec_of_twp _ hloads.1 ?_
  simp only [program, programIn, twp_bind]
  refine disputeTipChannel_twp hw hch (by rw [hstatus]; decide) hparty hauth hlo hhi hpause hloads ?_
  obtain ⟨rfl, rfl, rfl⟩ := hw.tipChannels t c T ch hch
  simp only [StateChannel.dispute, StateChannel.load, StateChannel.save, twp_bind,
    twp_persistentGet, twp_unwrapOrTrap, twp_assertOrTrap, twp_ledgerTimestamp]
  refine ⟨hloads.2, ch, hch, hparty, ?_⟩
  simp only [hstatus, twp_bind, twp_assertOrTrap, twp_persistentSet, twp_publish, twp_pure]
  refine ⟨hlo, hhi, hnonce, hloads.2, ?_, rfl, rfl⟩
  unfold tipChannelOf
  exact Store.get_set_self _ _ _

/-- Once the end of the window has come, such a call settles a tip channel. It still names an amount
that the deposit covers. -/
theorem disputeTipChannel_closes (crypto : Crypto) (profile : Profile) {ch : TipStateChannel}
    (hw : Filed w) (hch : tipChannelOf w t c T = some ch) (hstatus : ch.status = .disputed)
    {windowEnd : UInt64}
    (hend : profile.sum64 ch.disputeStartedAt ch.disputeWindow = some windowEnd)
    (hover : windowEnd ≤ chain.timestamp w.ext) {p : Address} (hparty : p = t ∨ p = c)
    (hauth : p ∈ auth) {amount : I128} (nonce : UInt64) (hlo : 0 ≤ amount.val)
    (hhi : amount.val ≤ ch.deposit.val) (hpause : Unpaused w)
    (hloads : Loads chain sequence auth (.tipChannel t c T) w) {x : X}
    (hx : chain.transferAll (ch.payments chain.self t c T .settle) w.ext = some x) :
    ∃ r w', Machine.exec (programIn profile crypto) chain
        ⟨sequence, auth, .disputeTipChannel p t c T amount nonce⟩ w = .ok (r, w') ∧
      tipChannelOf w' t c T = some { ch with status := .settled } ∧
      w'.transfers = w.transfers ++ ch.payments chain.self t c T .settle := by
  have hshares := hw.tipShares t c T ch hch
  refine Machine.exec_of_twp _ hloads.1 ?_
  simp only [programIn, twp_bind]
  refine disputeTipChannel_twp hw hch (by rw [hstatus]; decide) hparty hauth hlo hhi hpause hloads ?_
  obtain ⟨rfl, rfl, rfl⟩ := hw.tipChannels t c T ch hch
  simp only [StateChannel.dispute, StateChannel.load, StateChannel.save, twp_bind,
    twp_persistentGet, twp_unwrapOrTrap, twp_assertOrTrap, twp_ledgerTimestamp]
  refine ⟨hloads.2, ch, hch, hparty, ?_⟩
  simp only [hstatus, twp_bind, twp_add64, twp_ite, twp_persistentSet]
  refine ⟨windowEnd, hend, fun hearly => absurd hover (UInt64.not_le.mpr hearly), fun _ => ?_⟩
  refine twp_sub_of_val profile (TipStateChannel.rest_val hshares) ?_
  refine ⟨hloads.2, payOut_twp hx ?_⟩
  simp only [twp_publish, twp_pure]
  refine ⟨?_, rfl⟩
  unfold tipChannelOf
  exact Store.get_set_self _ _ _

theorem disputeTipChannel_finalises (crypto : Crypto) {ch : TipStateChannel}
    (h : Solid chain T holding w)
    (htoken : chain.PayingToken T holding) (hch : tipChannelOf w t c T = some ch)
    (hstatus : ch.status = .disputed)
    (hover : ch.disputeStartedAt.toNat + ch.disputeWindow.toNat ≤ (chain.timestamp w.ext).toNat)
    {p : Address} (hparty : p = t ∨ p = c) (hauth : p ∈ auth) {amount : I128} (nonce : UInt64)
    (hlo : 0 ≤ amount.val) (hhi : amount.val ≤ ch.deposit.val)
    (hpause : Unpaused w) (hloads : Loads chain sequence auth (.tipChannel t c T) w) :
    ∃ r w', exec crypto chain ⟨sequence, auth, .disputeTipChannel p t c T amount nonce⟩ w
        = .ok (r, w') ∧
      tipChannelOf w' t c T = some { ch with status := .settled } ∧
      w'.transfers = w.transfers ++ (Transfer.positive ⟨T, chain.self, c, ch.tippedAmount⟩
        ++ Transfer.positive ⟨T, chain.self, t, ch.rest⟩) := by
  have hshares := h.filed.tipShares t c T ch hch
  have hrest := TipStateChannel.rest_val hshares
  -- the contract holds the deposit
  have hkept : debt T (.tipChannel t c T) ch = ch.deposit.val := by
    show (if T = T then ch.view.locked else 0) = _
    rw [if_pos rfl, Channel.locked, TipStateChannel.phase_disputed hstatus, if_neg (by simp)]
    rfl
  have hholds : ch.deposit.val ≤ holding w.ext chain.self := hkept ▸ h.debt_le hch
  obtain ⟨x, hx⟩ := pays_shares (w := w) (p := c) (q := t) htoken hshares.1 (y := ch.rest)
    (by omega) (by omega)
  obtain ⟨windowEnd, hend, hreached⟩ := sum64_of_over hover
  exact disputeTipChannel_closes crypto .dev h.filed hch hstatus hend hreached hparty hauth nonce hlo
    hhi hpause hloads hx

end Channels

/-! ## A dispute without an end -/

/-- A dispute whose end does not fit into a `u64`. -/
def Endless (x : Option (Channel ℕ)) : Prop :=
  ∃ ch since, x = some ch ∧ ch.phase = .disputed since ∧ 2 ^ 64 ≤ since + ch.window

theorem Endless.not_fits {x : Option (Channel ℕ)} (h : Endless x) : ¬DisputeFits x := by
  obtain ⟨ch, since, hx, hphase, hlarge⟩ := h
  intro hfits
  have hlt := hfits ch hx since hphase
  omega

/-- The contract can serve a call of `p` about the entry `k` that makes the transfers `ts`. -/
structure Serves (chain : Chain X) (sequence : UInt32) (auth : List Address) (k : DataKey)
    (ts : List Transfer) (p : Address) (w : World X) : Prop where
  authorised : p ∈ auth
  unpaused : Unpaused w
  loads : Loads chain sequence auth k w
  pays : ∃ x, chain.transferAll ts w.ext = some x

/-- Without overflow checks the end wraps to a time before the start of the dispute. -/
theorem wrapped_end_le {started window now : UInt64}
    (hlarge : 2 ^ 64 ≤ started.toNat + window.toNat) (hnow : started ≤ now) :
    started + window ≤ now := by
  have hstarted := started.toNat_lt
  have hwindow := window.toNat_lt
  have hnow : started.toNat ≤ now.toNat := UInt64.le_iff_toNat_le.mp hnow
  rw [UInt64.le_iff_toNat_le, UInt64.toNat_add]
  omega

/-- The release build lets a party close such a payment channel from the dispute's first instant on:
whatever state the call names, it pays out the one claimed last. -/
def ClosesAtOnce (crypto : Crypto) (chain : Chain X) (p q T : Address) : Prop :=
  ∀ (w : World X) (ch : PaymentChannel) (sequence : UInt32) (auth : List Address) (x : Address)
    (balance : I128) (nonce : UInt64),
    Filed w → channelOf w p q T = some ch → Endless (some ch.view) →
    ch.disputeStartedAt ≤ chain.timestamp w.ext → x = p ∨ x = q →
    Serves chain sequence auth (.paymentChannel p q T) (ch.payments chain.self p q T .settle) x w →
    ∃ r w', Machine.exec (programIn .release crypto) chain
        ⟨sequence, auth, .disputeClose x p q T balance nonce⟩ w = .ok (r, w') ∧
      channelOf w' p q T = some { ch with status := .closed } ∧
      w'.transfers = w.transfers ++ ch.payments chain.self p q T .settle

/-- The same for a tip channel; the call has to name an amount that the deposit covers. -/
def SettlesAtOnce (crypto : Crypto) (chain : Chain X) (t c T : Address) : Prop :=
  ∀ (w : World X) (ch : TipStateChannel) (sequence : UInt32) (auth : List Address) (x : Address)
    (amount : I128) (nonce : UInt64),
    Filed w → tipChannelOf w t c T = some ch → Endless (some ch.view) →
    ch.disputeStartedAt ≤ chain.timestamp w.ext → x = t ∨ x = c →
    0 ≤ amount.val → amount.val ≤ ch.deposit.val →
    Serves chain sequence auth (.tipChannel t c T) (ch.payments chain.self t c T .settle) x w →
    ∃ r w', Machine.exec (programIn .release crypto) chain
        ⟨sequence, auth, .disputeTipChannel x t c T amount nonce⟩ w = .ok (r, w') ∧
      tipChannelOf w' t c T = some { ch with status := .settled } ∧
      w'.transfers = w.transfers ++ ch.payments chain.self t c T .settle

theorem closesAtOnce (crypto : Crypto) (chain : Chain X) (p q T : Address) :
    ClosesAtOnce crypto chain p q T := by
  intro w ch sequence auth x balance nonce hw hch hendless hnow hparty hserves
  obtain ⟨c, since, hc, hphase, hlarge⟩ := hendless
  obtain rfl := Option.some.inj hc
  obtain ⟨hstatus, rfl⟩ := ch.phase_disputed_iff.mp hphase
  obtain ⟨e, hpays⟩ := hserves.pays
  exact disputeClose_closes crypto .release hw hch hstatus rfl (wrapped_end_le hlarge hnow) hparty
    hserves.authorised balance nonce hserves.unpaused hserves.loads hpays

theorem settlesAtOnce (crypto : Crypto) (chain : Chain X) (t c T : Address) :
    SettlesAtOnce crypto chain t c T := by
  intro w ch sequence auth x amount nonce hw hch hendless hnow hparty hlo hhi hserves
  obtain ⟨ch', since, hc, hphase, hlarge⟩ := hendless
  obtain rfl := Option.some.inj hc
  obtain ⟨hstatus, rfl⟩ := ch.phase_disputed_iff.mp hphase
  obtain ⟨e, hpays⟩ := hserves.pays
  exact disputeTipChannel_closes crypto .release hw hch hstatus rfl (wrapped_end_le hlarge hnow)
    hparty hserves.authorised nonce hlo hhi hserves.unpaused hserves.loads hpays

/-- What no single step from a filed world changes, no run changes. -/
theorem run_keeps {α : Type} (get : World X → α) {w : World X} (hw : Filed w)
    (hstep : ∀ v act, Filed v → get v = get w → get (step crypto chain v act) = get v)
    (acts : List (Action X)) : get (run (step crypto chain) w acts) = get w := by
  have hkept : Filed (run (step crypto chain) w acts) ∧
      get (run (step crypto chain) w acts) = get w :=
    run_invariant (P := fun v => Filed v ∧ get v = get w) _
      (fun v act hv => ⟨hv.1.step crypto chain v act, (hstep v act hv.1 hv.2).trans hv.2⟩)
      ⟨hw, rfl⟩ acts
  exact hkept.2

/-- With overflow checks no call ever moves such a channel: both parties have lost their money.
Without them the window is over as soon as it begins. -/
theorem dispute_stuck (h₀ : Machine.Fresh w₀) (acts acts' : List (Action X)) (p q T : Address) :
    ((Endless ((channelOf (run (step crypto chain) w₀ acts) p q T).map PaymentChannel.view) →
      channelOf (run (step crypto chain) w₀ (acts ++ acts')) p q T
        = channelOf (run (step crypto chain) w₀ acts) p q T) ∧
    (Endless ((tipChannelOf (run (step crypto chain) w₀ acts) p q T).map TipStateChannel.view) →
      tipChannelOf (run (step crypto chain) w₀ (acts ++ acts')) p q T
        = tipChannelOf (run (step crypto chain) w₀ acts) p q T)) ∧
    ClosesAtOnce crypto chain p q T ∧ SettlesAtOnce crypto chain p q T := by
  refine ⟨?_, closesAtOnce crypto chain p q T, settlesAtOnce crypto chain p q T⟩
  have hfiled : Filed (run (step crypto chain) w₀ acts) :=
    run_invariant _ (Filed.step crypto chain) (.of_fresh h₀) acts
  rw [run_append]
  generalize run (step crypto chain) w₀ acts = w at *
  refine ⟨fun hendless => run_keeps (channelOf · p q T) hfiled (fun v act hv hsame => ?_) acts',
    fun hendless => run_keeps (tipChannelOf · p q T) hfiled (fun v act hv hsame => ?_) acts'⟩
  · rcases channel_step (o := ⟨v, act, step crypto chain v act⟩) rfl hv p q T with
      ⟨call, m, ch, -, -, hmoves⟩ | ⟨-, hkept⟩
    · -- a move computes the end of the window
      have hfits := hmoves.fits
      rw [hsame] at hfits
      exact absurd hfits hendless.not_fits
    · exact hkept
  · rcases tipChannel_step (o := ⟨v, act, step crypto chain v act⟩) rfl hv p q T with
      ⟨call, m, ch, w₁, -, -, hmoves, -⟩ | ⟨-, hkept, -⟩
    · have hfits := hmoves.fits
      rw [hsame] at hfits
      exact absurd hfits hendless.not_fits
    · exact hkept

/-- A channel whose window is the longest there is, and a dispute over it. -/
def endlessDispute : List (Action (Clocked Balances)) :=
  setUp ++ [.call ⟨2, [⟨4⟩, ⟨5⟩],
      .openChannel ⟨4⟩ ⟨5⟩ ⟨2⟩ 300 200 (.ofNat (2 ^ 64 - 1))⟩,
    .call ⟨3, [⟨4⟩], .disputeClose ⟨4⟩ ⟨4⟩ ⟨5⟩ ⟨2⟩ 300 0⟩]

/-- Also at the end of time it cannot be finalised; without overflow checks the claim is paid out at
the time it is made. -/
theorem dispute_stuck_sample :
    channelOf (run (step sampleCrypto sampleChain) sampleWorld (endlessDispute ++
        [.outside ⟨fun _ a => if a = ⟨0⟩ then 500 else 1000, .ofNat (2 ^ 64 - 1)⟩,
          .call ⟨4, [⟨4⟩], .disputeClose ⟨4⟩ ⟨4⟩ ⟨5⟩ ⟨2⟩ 300 1⟩])) ⟨4⟩ ⟨5⟩ ⟨2⟩
      = channelOf (run (step sampleCrypto sampleChain) sampleWorld endlessDispute) ⟨4⟩ ⟨5⟩ ⟨2⟩ ∧
    ∃ r w', Machine.exec (programIn .release sampleCrypto) sampleChain
        ⟨3, [⟨4⟩], .disputeClose ⟨4⟩ ⟨4⟩ ⟨5⟩ ⟨2⟩ 0 0⟩
        (run (step sampleCrypto sampleChain) sampleWorld endlessDispute) = .ok (r, w') ∧
      w'.transfers = (run (step sampleCrypto sampleChain) sampleWorld endlessDispute).transfers
        ++ [⟨⟨2⟩, ⟨0⟩, ⟨4⟩, 300⟩, ⟨⟨2⟩, ⟨0⟩, ⟨5⟩, 200⟩] := by
  obtain ⟨⟨hstuck, -⟩, hcloses, -⟩ := @dispute_stuck _ sampleCrypto sampleChain sampleWorld
    (Machine.freshEnv_fresh _) endlessDispute
    [.outside ⟨fun _ a => if a = ⟨0⟩ then 500 else 1000, .ofNat (2 ^ 64 - 1)⟩,
      .call ⟨4, [⟨4⟩], .disputeClose ⟨4⟩ ⟨4⟩ ⟨5⟩ ⟨2⟩ 300 1⟩] ⟨4⟩ ⟨5⟩ ⟨2⟩
  refine ⟨hstuck ⟨_, 100, rfl, rfl, by decide⟩, ?_⟩
  have hfiled := run_invariant _ (Filed.step sampleCrypto sampleChain)
    (.of_fresh (Machine.freshEnv_fresh _) : Filed sampleWorld) endlessDispute
  obtain ⟨r, w', hexec, -, htransfers⟩ := hcloses _ _ 3 [⟨4⟩] ⟨4⟩ 0 0 hfiled rfl
    ⟨_, 100, rfl, rfl, by decide⟩ (by decide) (.inl rfl)
    ⟨by simp, rfl, ⟨fun h => absurd h.1 Bool.false_ne_true, Env.not_archived rfl _ _⟩, ⟨_, rfl⟩⟩
  exact ⟨r, w', hexec, htransfers⟩

/-! ## Streams -/

section Streams

variable {holding : X → Address → Nat} {id : UInt64} {s : TipStream}

theorem exists_sub {x y : UInt64} (h : y.toNat ≤ x.toNat) :
    ∃ z : UInt64, z.toNat + y.toNat = x.toNat := by
  have hlt := x.toNat_lt
  refine ⟨UInt64.ofNat (x.toNat - y.toNat), ?_⟩
  rw [UInt64.toNat_ofNat_of_lt' (by rw [UInt64.size]; omega)]
  omega

/-- The products of the rate and a time do not overflow. -/
theorem TipStream.Sound.product {clock : Nat} (h : s.Sound clock) (n : UInt64) :
    ∃ x : I128, x.val = s.amountPerSecond.val * (I128.ofUInt64 n).val := by
  have hlo : 0 ≤ s.amountPerSecond.val * n.toNat :=
    mul_nonneg h.rate_pos.le (Int.natCast_nonneg _)
  have hn : (n.toNat : Int) < 2 ^ 64 := by exact_mod_cast n.toNat_lt
  have hhi : s.amountPerSecond.val * n.toNat ≤ 1000 * 2 ^ 64 :=
    mul_le_mul h.rate_le hn.le (Int.natCast_nonneg _) (by decide)
  exact ⟨⟨s.amountPerSecond.val * n.toNat, by omega, by omega⟩, rfl⟩

theorem TipStream.Sound.products {clock : Nat} (h : s.Sound clock) :
    ∃ length : UInt64, length.toNat + s.startTime.toNat = s.endTime.toNat ∧
      ∃ total : I128, total.val = s.amountPerSecond.val * (I128.ofUInt64 length).val := by
  obtain ⟨length, hlength⟩ := exists_sub h.ordered
  exact ⟨length, hlength, h.product length⟩

/-- What the clock of a stream has counted can be computed. -/
theorem calculateStreamedAmount_twp {Q : I128 → World X → Prop}
    (hs : s.Sound (chain.timestamp w.ext).toNat) (hrunning : s.Running)
    (hQ : ∀ amount, amount.val = s.accrued (chain.timestamp w.ext).toNat → Q amount w) :
    twp (calculateStreamedAmount s) (chain.ctx sequence auth) w Q := by
  have hstart : s.startTime.toNat ≤ (chain.timestamp w.ext).toNat := hs.started.trans hs.updated
  have hordered := hs.ordered
  have hpos := hs.rate_pos
  have hnotBefore : ¬chain.timestamp w.ext < s.startTime := by
    rw [UInt64.lt_iff_toNat_lt]
    omega
  have hstatus : ¬(s.status ≠ .active ∧ s.status ≠ .paused) := fun h => hrunning.elim h.1 h.2
  obtain ⟨length, hlength, total, htotal⟩ := hs.products
  -- both ways of computing the seconds give what the clock has counted
  have hfinish : ∀ elapsed : UInt64,
      elapsed.toNat = min ((chain.timestamp w.ext).toNat - s.startTime.toNat) s.length →
      ∃ streamed : I128, streamed.val = s.amountPerSecond.val * (I128.ofUInt64 elapsed).val ∧
        Q (streamed.smaller total) w := by
    intro elapsed helapsed
    obtain ⟨streamed, hstreamed⟩ := hs.product elapsed
    refine ⟨streamed, hstreamed, hQ _ ?_⟩
    rw [I128.val_smaller, hstreamed, htotal, TipStream.accrued, I128.val_ofUInt64,
      I128.val_ofUInt64, helapsed]
    refine min_eq_left (mul_le_mul_of_nonneg_left ?_ hpos.le)
    have hlen : s.length = length.toNat := by
      unfold TipStream.length
      omega
    have hmin : min ((chain.timestamp w.ext).toNat - s.startTime.toNat) s.length
        ≤ length.toNat := by omega
    exact_mod_cast hmin
  simp only [calculateStreamedAmount, twp_bind, twp_ledgerTimestamp, twp_ite, twp_pure,
    twp_dev_sub64, twp_dev_mul, Chain.ctx_timestamp]
  refine ⟨fun h => absurd h hstatus, fun _ => ⟨fun h => absurd h hnotBefore, fun _ =>
    ⟨fun hafter => ?_, fun hafter => ?_⟩⟩⟩
  · rw [UInt64.lt_iff_toNat_lt] at hafter
    obtain ⟨streamed, hstreamed, hresult⟩ := hfinish length (by unfold TipStream.length; omega)
    exact ⟨length, hlength, streamed, hstreamed, length, hlength, total, htotal, hresult⟩
  · rw [UInt64.lt_iff_toNat_lt] at hafter
    obtain ⟨elapsed, helapsed⟩ := exists_sub hstart
    obtain ⟨streamed, hstreamed, hresult⟩ := hfinish elapsed (by unfold TipStream.length; omega)
    exact ⟨elapsed, helapsed, streamed, hstreamed, length, hlength, total, htotal, hresult⟩

/-- The creator of an active or stopped stream can withdraw what the clock has counted beyond its
credit. -/
theorem withdrawStreamed_pays (h : Solid chain s.token holding w)
    (htoken : chain.PayingToken s.token holding) (hs : streamOf w id = some s)
    (hrunning : s.Running) (hauth : s.creator ∈ auth)
    (hdue : s.withdrawn.val < s.accrued (chain.timestamp w.ext).toNat) (hpause : Unpaused w)
    (hloads : Loads chain sequence auth (.stream (.record id)) w) :
    ∃ r w' amount, exec crypto chain ⟨sequence, auth, .withdrawStreamed s.creator id⟩ w
        = .ok (r, w') ∧
      amount.val = s.accrued (chain.timestamp w.ext).toNat - s.withdrawn.val ∧
      w'.transfers = w.transfers ++ [⟨s.token, chain.self, s.creator, amount⟩] := by
  have hsound := h.streams.sound id s hs
  have hstart : s.startTime.toNat ≤ (chain.timestamp w.ext).toNat :=
    hsound.started.trans hsound.updated
  have hordered := hsound.ordered
  have hnonneg := hsound.withdrawn_nonneg
  have hle := hsound.accrued_le_total (chain.timestamp w.ext).toNat
  have hkept : debt s.token (.stream (.record id)) s = s.total - s.withdrawn.val := by
    show (if s.token = s.token then s.remaining else 0) = _
    rw [if_pos rfl, TipStream.remaining, if_pos hrunning]
  have hholds := h.debt_le (k := .stream (.record id)) hs
  have hstatus : s.status ≠ .cancelled := by
    rcases hrunning with hactive | hpaused
    · rw [hactive]
      decide
    · rw [hpaused]
      decide
  have hcalls : twp (withdrawStreamed s.creator id) (chain.ctx sequence auth) w fun _ w' =>
      ∃ amount : I128, amount.val = s.accrued (chain.timestamp w.ext).toNat - s.withdrawn.val ∧
        w'.transfers = w.transfers ++ [⟨s.token, chain.self, s.creator, amount⟩] := by
    simp only [withdrawStreamed, loadStream, twp_bind]
    refine requireNotPaused_twp hpause ?_
    simp only [twp_requireAuth, Chain.ctx_auth, twp_persistentGet, twp_unwrapOrPanic]
    refine ⟨hauth, hloads.2, s, hs, ?_⟩
    simp only [twp_panicIf, twp_ledgerTimestamp, twp_dev_sub64, twp_dev_mul]
    obtain ⟨length, hlength, total, htotal⟩ := hsound.products
    refine ⟨by simp, hstatus, ?_, length, hlength, total, htotal, ?_⟩
    · rw [UInt64.lt_iff_toNat_lt]
      exact not_lt.mpr hstart
    refine calculateStreamedAmount_twp hsound hrunning fun streamed hstreamed => ?_
    have hsub : (streamed - s.withdrawn).val = streamed.val - s.withdrawn.val :=
      I128.val_sub_of_le hnonneg (by omega)
    obtain ⟨x, hx⟩ := htoken.pays ⟨s.token, chain.self, s.creator, streamed - s.withdrawn⟩ w.ext
      rfl rfl (by show 0 < (streamed - s.withdrawn).val; omega)
      (by show (streamed - s.withdrawn).val ≤ _; omega)
    simp only [twp_dev_sub, twp_persistentSet, twp_currentContractAddress, twp_tokenTransfer,
      twp_publish, Chain.ctx_self]
    refine ⟨streamed - s.withdrawn, hsub, ?_, hloads.2, x, hx, streamed - s.withdrawn, ?_, rfl⟩
    · show ¬(streamed - s.withdrawn).val ≤ 0
      omega
    · omega
  have hexec : ∃ r w', exec crypto chain ⟨sequence, auth, .withdrawStreamed s.creator id⟩ w
        = .ok (r, w') ∧ ∃ amount : I128,
      amount.val = s.accrued (chain.timestamp w.ext).toNat - s.withdrawn.val ∧
        w'.transfers = w.transfers ++ [⟨s.token, chain.self, s.creator, amount⟩] := by
    refine Machine.exec_of_twp _ hloads.1 ?_
    simp only [program, programIn, twp_bind, twp_pure]
    exact hcalls
  obtain ⟨r, w', hrun, amount, hamount, htransfers⟩ := hexec
  exact ⟨r, w', amount, hrun, hamount, htransfers⟩

/-- The sender of a running stream can cancel it, and gets back what has not run. -/
theorem cancelStream_pays (h : Solid chain s.token holding w)
    (htoken : chain.PayingToken s.token holding) (hs : streamOf w id = some s)
    (hrunning : s.Running) (hauth : s.sender ∈ auth) (hpause : Unpaused w)
    (hloads : Loads chain sequence auth (.stream (.record id)) w) :
    ∃ r w' amount, exec crypto chain ⟨sequence, auth, .cancelStream s.sender id⟩ w = .ok (r, w') ∧
      amount.val = s.total - s.accrued (chain.timestamp w.ext).toNat ∧
      w'.transfers = w.transfers ++ Transfer.positive ⟨s.token, chain.self, s.sender, amount⟩ := by
  have hsound := h.streams.sound id s hs
  have hordered := hsound.ordered
  have hearned := hsound.earned.trans (hsound.accrued_mono hsound.updated)
  have hnonneg := hsound.withdrawn_nonneg
  have hle := hsound.accrued_le_total (chain.timestamp w.ext).toNat
  have hkept : debt s.token (.stream (.record id)) s = s.total - s.withdrawn.val := by
    show (if s.token = s.token then s.remaining else 0) = _
    rw [if_pos rfl, TipStream.remaining, if_pos hrunning]
  have hholds := h.debt_le (k := .stream (.record id)) hs
  have hstatus : s.status ≠ .cancelled ∧ s.status ≠ .completed := by
    rcases hrunning with hactive | hpaused
    · rw [hactive]
      decide
    · rw [hpaused]
      decide
  have hcalls : twp (cancelStream s.sender id) (chain.ctx sequence auth) w fun _ w' =>
      ∃ amount : I128, amount.val = s.total - s.accrued (chain.timestamp w.ext).toNat ∧
        w'.transfers = w.transfers
          ++ Transfer.positive ⟨s.token, chain.self, s.sender, amount⟩ := by
    simp only [cancelStream, loadStream, twp_bind]
    refine requireNotPaused_twp hpause ?_
    simp only [twp_requireAuth, Chain.ctx_auth, twp_persistentGet, twp_unwrapOrPanic]
    refine ⟨hauth, hloads.2, s, hs, ?_⟩
    simp only [twp_panicIf, twp_ledgerTimestamp]
    refine ⟨by simp, hstatus.1, hstatus.2, ?_⟩
    refine calculateStreamedAmount_twp hsound hrunning fun streamed hstreamed => ?_
    obtain ⟨length, hlength, total, htotal⟩ := hsound.products
    have htotal' : total.val = s.total := by
      rw [htotal, TipStream.total, TipStream.length, ← hlength]
      simp
    have hsub : (total - streamed).val = total.val - streamed.val :=
      I128.val_sub_of_le (by omega) (by omega)
    simp only [twp_dev_sub64, twp_dev_mul, twp_dev_sub, twp_persistentSet,
      twp_currentContractAddress, twp_onlyIf, twp_tokenTransfer, twp_publish, Chain.ctx_self]
    refine ⟨length, hlength, total, htotal, total - streamed, hsub, hloads.2, fun hpos => ?_,
      fun hzero => ?_⟩
    · obtain ⟨x, hx⟩ := htoken.pays ⟨s.token, chain.self, s.sender, total - streamed⟩ w.ext
        rfl rfl hpos (by show (total - streamed).val ≤ _; omega)
      refine ⟨x, hx, total - streamed, by omega, ?_⟩
      rw [Transfer.positive, if_pos hpos]
      rfl
    · refine ⟨total - streamed, by omega, ?_⟩
      rw [Transfer.positive, if_neg hzero, List.append_nil]
      rfl
  have hexec : ∃ r w', exec crypto chain ⟨sequence, auth, .cancelStream s.sender id⟩ w = .ok (r, w') ∧
      ∃ amount : I128, amount.val = s.total - s.accrued (chain.timestamp w.ext).toNat ∧
        w'.transfers = w.transfers
          ++ Transfer.positive ⟨s.token, chain.self, s.sender, amount⟩ := by
    refine Machine.exec_of_twp _ hloads.1 ?_
    simp only [program, programIn, twp_bind, twp_pure]
    exact hcalls
  obtain ⟨r, w', hrun, amount, hamount, htransfers⟩ := hexec
  exact ⟨r, w', amount, hrun, hamount, htransfers⟩

/-- In every ordinary run an active or stopped stream pays whenever the contract is not paused and the
host can load the entries: the creator what the clock has counted beyond `withdrawn`, by withdrawing,
and the sender what it has not counted, by cancelling. -/
theorem stream_exits (h₀ : Machine.Fresh w₀) {acts : List (Action X)}
    (htoken : chain.PayingToken s.token holding)
    (hrun : Ordinary crypto chain s.token holding w₀ acts)
    (hs : streamOf (run (step crypto chain) w₀ acts) id = some s) (hrunning : s.Running)
    (hpause : Unpaused (run (step crypto chain) w₀ acts))
    (hloads : Loads chain sequence auth (.stream (.record id)) (run (step crypto chain) w₀ acts)) :
    let w := run (step crypto chain) w₀ acts
    let run := s.accrued (chain.timestamp w.ext).toNat
    (s.creator ∈ auth → s.withdrawn.val < run → ∃ r w' amount,
      exec crypto chain ⟨sequence, auth, .withdrawStreamed s.creator id⟩ w = .ok (r, w') ∧
        amount.val = run - s.withdrawn.val ∧
        w'.transfers = w.transfers ++ [⟨s.token, chain.self, s.creator, amount⟩]) ∧
    (s.sender ∈ auth → ∃ r w' amount,
      exec crypto chain ⟨sequence, auth, .cancelStream s.sender id⟩ w = .ok (r, w') ∧
        amount.val = s.total - run ∧
        w'.transfers
          = w.transfers ++ Transfer.positive ⟨s.token, chain.self, s.sender, amount⟩) := by
  have hsolid := solid_run h₀ htoken.toExactToken hrun
  exact ⟨fun hauth hdue => withdrawStreamed_pays hsolid htoken hs hrunning hauth hdue hpause hloads,
    fun hauth => cancelStream_pays hsolid htoken hs hrunning hauth hpause hloads⟩

end Streams

/-- A stream of 5 a second for 100 seconds, 40 seconds after it was created. -/
def runningStream : List (Action (Clocked Balances)) :=
  setUp ++ [.call ⟨2, [⟨4⟩], .createStream ⟨4⟩ ⟨5⟩ ⟨2⟩ 5 100⟩,
    .outside ⟨fun _ a => if a = ⟨0⟩ then 500 else 1000, 140⟩]

/-- The creator can withdraw 200, and the sender gets 300 back by cancelling. -/
theorem stream_exits_sample :
    let w := run (step sampleCrypto sampleChain) sampleWorld runningStream
    (∃ r w' amount, exec sampleCrypto sampleChain ⟨3, [⟨5⟩], .withdrawStreamed ⟨5⟩ 0⟩ w = .ok (r, w') ∧
      amount.val = 200 ∧ w'.transfers = w.transfers ++ [⟨⟨2⟩, ⟨0⟩, ⟨5⟩, amount⟩]) ∧
    ∃ r w' amount, exec sampleCrypto sampleChain ⟨3, [⟨4⟩], .cancelStream ⟨4⟩ 0⟩ w = .ok (r, w') ∧
      amount.val = 300 ∧
      w'.transfers = w.transfers ++ Transfer.positive ⟨⟨2⟩, ⟨0⟩, ⟨4⟩, amount⟩ := by
  intro w
  have hrun : Ordinary sampleCrypto sampleChain ⟨2⟩ (fun x a => x.ext ⟨2⟩ a) sampleWorld
      runningStream := by decide +kernel
  let s : TipStream := ⟨0, ⟨4⟩, ⟨5⟩, ⟨2⟩, 5, 100, 200, 0, .active, 100, 100⟩
  have hs : streamOf w 0 = some s := rfl
  have hexits := fun auth => @stream_exits _ sampleCrypto sampleChain sampleWorld auth 3
    (fun x a => x.ext ⟨2⟩ a) 0 s (Machine.freshEnv_fresh _) runningStream
    (standardChain_payingToken ⟨0⟩ ⟨2⟩).clocked hrun hs (.inl rfl) rfl
    ⟨fun h => absurd h.1 Bool.false_ne_true, Env.not_archived rfl w (.stream (.record 0))⟩
  have hran : s.accrued (sampleChain.timestamp
      (run (step sampleCrypto sampleChain) sampleWorld runningStream).ext).toNat = 200 := rfl
  have hwithdraws := (hexits [⟨5⟩]).1 (by decide)
  have hcancels := (hexits [⟨4⟩]).2 (by decide)
  have hwithdrawn : s.withdrawn.val = 0 := rfl
  have htotal : s.total = 500 := rfl
  rw [hran, hwithdrawn, Int.sub_zero] at hwithdraws
  rw [hran, htotal, show (500 : Int) - 200 = 300 by decide] at hcancels
  exact ⟨hwithdraws (by decide), hcancels⟩

/-! ## Leaving a channel alone -/

section Leaving

variable {holding : X → Address → Nat}

/-- Nothing but the end of the dispute touches a channel at a claim with the highest nonce. -/
theorem claim_kept (crypto : Crypto) (chain : Chain X) {get : World X → Option (Channel ℕ)}
    (hstep : ∀ v act, Filed v →
      (∃ m c', Channel.Step (get v) m c' ∧ get (step crypto chain v act) = some c' ∧
        c'.nonce ≤ lastNonce) ∨ get (step crypto chain v act) = get v)
    {claimed : Channel ℕ} {since : Nat} (hphase : claimed.phase = .disputed since)
    (hnonce : claimed.nonce = lastNonce) (hw : Filed w) (hget : get w = some claimed)
    (acts : List (Action X)) :
    get (run (step crypto chain) w acts) = some claimed ∨
      get (run (step crypto chain) w acts) = some { claimed with phase := .closed } := by
  have hkept : Filed (run (step crypto chain) w acts) ∧
      (get (run (step crypto chain) w acts) = some claimed ∨
        get (run (step crypto chain) w acts) = some { claimed with phase := .closed }) := by
    refine run_invariant (P := fun v => Filed v ∧
      (get v = some claimed ∨ get v = some { claimed with phase := .closed })) _
      (fun v act hv => ⟨hv.1.step crypto chain v act, ?_⟩) ⟨hw, .inl hget⟩ acts
    rcases hstep v act hv.1 with ⟨m, c', hmove, hafter, hmax⟩ | hsame
    · rcases hv.2 with hdisputed | hclosed
      · rw [hdisputed] at hmove
        rw [hafter, hmove.of_last hphase (by rw [hnonce]; exact hmax)]
        exact .inr rfl
      · rw [hclosed] at hmove
        exact absurd rfl hmove.not_closed
    · rw [hsame]
      exact hv.2
  exact hkept.2

theorem channel_kept (crypto : Crypto) (chain : Chain X) (v : World X) (act : Action X)
    (hv : Filed v) (a b T : Address) :
    (∃ m c', Channel.Step ((channelOf v a b T).map PaymentChannel.view) m c' ∧
        (channelOf (step crypto chain v act) a b T).map PaymentChannel.view = some c' ∧
        c'.nonce ≤ lastNonce) ∨
      (channelOf (step crypto chain v act) a b T).map PaymentChannel.view
        = (channelOf v a b T).map PaymentChannel.view := by
  rcases channel_step (o := ⟨v, act, step crypto chain v act⟩) rfl hv a b T with
    ⟨call, m, ch, -, -, hmoves⟩ | ⟨-, hsame⟩
  · refine .inl ⟨m, ch.view, hmoves.step, ?_, toNat_le_lastNonce ch.nonce⟩
    rw [hmoves.stored]
    rfl
  · exact .inr (congrArg (Option.map PaymentChannel.view) hsame)

theorem tipChannel_kept (crypto : Crypto) (chain : Chain X) (v : World X) (act : Action X)
    (hv : Filed v) (t c T : Address) :
    (∃ m c', Channel.Step ((tipChannelOf v t c T).map TipStateChannel.view) m c' ∧
        (tipChannelOf (step crypto chain v act) t c T).map TipStateChannel.view = some c' ∧
        c'.nonce ≤ lastNonce) ∨
      (tipChannelOf (step crypto chain v act) t c T).map TipStateChannel.view
        = (tipChannelOf v t c T).map TipStateChannel.view := by
  rcases tipChannel_step (o := ⟨v, act, step crypto chain v act⟩) rfl hv t c T with
    ⟨call, m, ch, w₁, -, -, hmoves, hfollows⟩ | ⟨-, hsame, -⟩
  · refine .inl ⟨m, ch.view, hmoves.step, ?_, toNat_le_lastNonce ch.nonce⟩
    rw [hmoves.stored_after hfollows]
    rfl
  · exact .inr (congrArg (Option.map TipStateChannel.view) hsame)

theorem PaymentChannel.split_of_view {ch ch' : PaymentChannel} {share : I128} {c : Channel ℕ}
    (hlo : 0 ≤ share.val) (hhi : share.val ≤ ch.totalDeposit.val) (h : ch'.view = c)
    (hshare : c.share = share.val) (hdeposit : c.deposit = ch.totalDeposit.val) :
    ch'.balanceA = share ∧ ch'.rest.val = ch.totalDeposit.val - share.val := by
  subst h
  have hbalance : ch'.balanceA = share := I128.ext hshare
  have htotal : ch'.totalDeposit = ch.totalDeposit := I128.ext hdeposit
  refine ⟨hbalance, ?_⟩
  rw [PaymentChannel.rest, hbalance, htotal]
  exact I128.val_sub_of_le hlo hhi

theorem TipStateChannel.split_of_view {ch ch' : TipStateChannel} {share : I128} {c : Channel ℕ}
    (hlo : 0 ≤ share.val) (hhi : share.val ≤ ch.deposit.val) (h : ch'.view = c)
    (hshare : c.share = share.val) (hdeposit : c.deposit = ch.deposit.val) :
    ch'.tippedAmount = share ∧ ch'.rest.val = ch.deposit.val - share.val := by
  subst h
  have htipped : ch'.tippedAmount = share := I128.ext hshare
  have hdeposited : ch'.deposit = ch.deposit := I128.ext hdeposit
  refine ⟨htipped, ?_⟩
  rw [TipStateChannel.rest, htipped, hdeposited]
  exact I128.val_sub_of_le hlo hhi

/-- A party of an open payment channel needs nobody to leave it, and may take any split: it claims it
with the highest nonce, and whatever is called afterwards, once the window is over it is paid out
exactly that split. The contract must not be paused at either call. -/
theorem channel_exits (h₀ : Machine.Fresh w₀) {acts acts' : List (Action X)} {ch : PaymentChannel}
    {p : Address} {share : I128} (htoken : chain.PayingToken T holding)
    (hch : channelOf (run (step crypto chain) w₀ acts) a b T = some ch)
    (hopened : ch.status = .opened) (hparty : p = a ∨ p = b) (hauth : p ∈ auth)
    (hlo : 0 ≤ share.val) (hhi : share.val ≤ ch.totalDeposit.val)
    (hpause : Unpaused (run (step crypto chain) w₀ acts))
    (hloads : Loads chain sequence auth (.paymentChannel a b T) (run (step crypto chain) w₀ acts)) :
    let claim : Call := ⟨sequence, auth, .disputeClose p a b T share (.ofNat lastNonce)⟩
    let started := (chain.timestamp (run (step crypto chain) w₀ acts).ext).toNat
    let w := run (step crypto chain) w₀ (acts ++ .call claim :: acts')
    (∃ r w', exec crypto chain claim (run (step crypto chain) w₀ acts) = .ok (r, w')) ∧
      (Ordinary crypto chain T holding w₀ (acts ++ .call claim :: acts') →
        ∃ ch', channelOf w a b T = some ch' ∧ ch'.balanceA = share ∧
          ch'.rest.val = ch.totalDeposit.val - share.val ∧
          (ch'.status = .closed ∨ ch'.status = .disputed ∧
            (started + ch.disputeWindow.toNat ≤ (chain.timestamp w.ext).toNat →
              ∀ sequence auth balance nonce, p ∈ auth → Unpaused w →
              Loads chain sequence auth (.paymentChannel a b T) w →
              ∃ r w', exec crypto chain ⟨sequence, auth, .disputeClose p a b T balance nonce⟩ w
                  = .ok (r, w') ∧
                w'.transfers = w.transfers ++ (Transfer.positive ⟨T, chain.self, a, share⟩
                  ++ Transfer.positive ⟨T, chain.self, b, ch'.rest⟩)))) := by
  intro claim started w
  have hfiled : Filed (run (step crypto chain) w₀ acts) :=
    run_invariant _ (Filed.step crypto chain) (.of_fresh h₀) acts
  obtain ⟨r, w₁, hexec, hclaimed, -⟩ := disputeClose_claims crypto hfiled hch hopened hparty
    hauth hlo hhi (le_lastNonce ch.nonce) hpause hloads
  refine ⟨⟨r, w₁, hexec⟩, fun hrun => ?_⟩
  have hw : w = run (step crypto chain) w₁ acts' := Machine.run_call_ok hexec acts'
  have hfiled₁ : Filed w₁ := (exec_effect hfiled hexec).filed hfiled
  have hview : (channelOf w₁ a b T).map PaymentChannel.view
      = some ⟨ch.totalDeposit.val, ch.disputeWindow.toNat, share.val, lastNonce,
        .disputed started⟩ := by
    rw [hclaimed, ← toNat_lastNonce]
    rfl
  have hsolid : Solid chain T holding w := solid_run h₀ htoken.toExactToken hrun
  have hkept := claim_kept crypto chain
    (fun v act hv => channel_kept crypto chain v act hv a b T) rfl rfl hfiled₁ hview acts'
  rw [← hw] at hkept
  rcases hkept with hkept | hkept
  · obtain ⟨ch', hch', hsame⟩ := Option.map_eq_some_iff.mp hkept
    obtain ⟨hbalance, hrest⟩ := PaymentChannel.split_of_view hlo hhi hsame rfl rfl
    have hwindow : ch'.disputeWindow.toNat = ch.disputeWindow.toNat :=
      congrArg Channel.window hsame
    have hdisputed := ch'.phase_disputed_iff.mp (congrArg Channel.phase hsame)
    refine ⟨ch', hch', hbalance, hrest, .inr ⟨hdisputed.1, ?_⟩⟩
    intro hover sequence' auth' balance nonce hauth' hpause' hloads'
    obtain ⟨r', w', hexec', -, htransfers⟩ := disputeClose_finalises crypto hsolid htoken
      hch' hdisputed.1 (by rw [hdisputed.2, hwindow]; exact hover) hparty hauth' balance nonce
      hpause' hloads'
    rw [hbalance] at htransfers
    exact ⟨r', w', hexec', htransfers⟩
  · obtain ⟨ch', hch', hsame⟩ := Option.map_eq_some_iff.mp hkept
    obtain ⟨hbalance, hrest⟩ := PaymentChannel.split_of_view hlo hhi hsame rfl rfl
    refine ⟨ch', hch', hbalance, hrest, .inl ?_⟩
    exact (PaymentChannel.phase_closed_iff ch').mp (by rw [hsame])

/-- The same for the tipper and the creator of a tip channel. -/
theorem tip_channel_exits (h₀ : Machine.Fresh w₀) {acts acts' : List (Action X)} {ch : TipStateChannel}
    {p : Address} {share : I128} (htoken : chain.PayingToken T holding)
    (hch : tipChannelOf (run (step crypto chain) w₀ acts) t c T = some ch)
    (hopened : ch.status = .opened) (hparty : p = t ∨ p = c) (hauth : p ∈ auth)
    (hlo : 0 ≤ share.val) (hhi : share.val ≤ ch.deposit.val)
    (hpause : Unpaused (run (step crypto chain) w₀ acts))
    (hloads : Loads chain sequence auth (.tipChannel t c T) (run (step crypto chain) w₀ acts)) :
    let claim : Call := ⟨sequence, auth, .disputeTipChannel p t c T share (.ofNat lastNonce)⟩
    let started := (chain.timestamp (run (step crypto chain) w₀ acts).ext).toNat
    let w := run (step crypto chain) w₀ (acts ++ .call claim :: acts')
    (∃ r w', exec crypto chain claim (run (step crypto chain) w₀ acts) = .ok (r, w')) ∧
      (Ordinary crypto chain T holding w₀ (acts ++ .call claim :: acts') →
        ∃ ch', tipChannelOf w t c T = some ch' ∧ ch'.tippedAmount = share ∧
          ch'.rest.val = ch.deposit.val - share.val ∧
          (ch'.status = .settled ∨ ch'.status = .disputed ∧
            (started + ch.disputeWindow.toNat ≤ (chain.timestamp w.ext).toNat →
              ∀ sequence auth amount nonce, p ∈ auth → 0 ≤ amount.val → amount.val ≤ ch.deposit.val →
              Unpaused w →
              Loads chain sequence auth (.tipChannel t c T) w →
              ∃ r w', exec crypto chain ⟨sequence, auth, .disputeTipChannel p t c T amount nonce⟩ w
                  = .ok (r, w') ∧
                w'.transfers = w.transfers ++ (Transfer.positive ⟨T, chain.self, c, share⟩
                  ++ Transfer.positive ⟨T, chain.self, t, ch'.rest⟩)))) := by
  intro claim started w
  have hfiled : Filed (run (step crypto chain) w₀ acts) :=
    run_invariant _ (Filed.step crypto chain) (.of_fresh h₀) acts
  obtain ⟨r, w₁, hexec, hclaimed, -⟩ := disputeTipChannel_claims crypto hfiled hch hopened hparty
    hauth hlo hhi (le_lastNonce ch.nonce) hpause hloads
  refine ⟨⟨r, w₁, hexec⟩, fun hrun => ?_⟩
  have hw : w = run (step crypto chain) w₁ acts' := Machine.run_call_ok hexec acts'
  have hfiled₁ : Filed w₁ := (exec_effect hfiled hexec).filed hfiled
  have hview : (tipChannelOf w₁ t c T).map TipStateChannel.view
      = some ⟨ch.deposit.val, ch.disputeWindow.toNat, share.val, lastNonce,
        .disputed started⟩ := by
    rw [hclaimed, ← toNat_lastNonce]
    rfl
  have hsolid : Solid chain T holding w := solid_run h₀ htoken.toExactToken hrun
  have hkept := claim_kept crypto chain
    (fun v act hv => tipChannel_kept crypto chain v act hv t c T) rfl rfl hfiled₁ hview acts'
  rw [← hw] at hkept
  rcases hkept with hkept | hkept
  · obtain ⟨ch', hch', hsame⟩ := Option.map_eq_some_iff.mp hkept
    obtain ⟨htipped, hrest⟩ := TipStateChannel.split_of_view hlo hhi hsame rfl rfl
    have hdeposited' : ch'.deposit.val = ch.deposit.val := congrArg Channel.deposit hsame
    have hwindow : ch'.disputeWindow.toNat = ch.disputeWindow.toNat :=
      congrArg Channel.window hsame
    have hdisputed := ch'.phase_disputed_iff.mp (congrArg Channel.phase hsame)
    refine ⟨ch', hch', htipped, hrest, .inr ⟨hdisputed.1, ?_⟩⟩
    intro hover sequence' auth' amount nonce hauth' hlo' hhi' hpause' hloads'
    obtain ⟨r', w', hexec', -, htransfers⟩ := disputeTipChannel_finalises crypto hsolid htoken
      hch' hdisputed.1 (by rw [hdisputed.2, hwindow]; exact hover) hparty hauth' nonce
      hlo' (by rw [hdeposited']; exact hhi') hpause' hloads'
    rw [htipped] at htransfers
    exact ⟨r', w', hexec', htransfers⟩
  · obtain ⟨ch', hch', hsame⟩ := Option.map_eq_some_iff.mp hkept
    obtain ⟨htipped, hrest⟩ := TipStateChannel.split_of_view hlo hhi hsame rfl rfl
    refine ⟨ch', hch', htipped, hrest, .inl ?_⟩
    exact (TipStateChannel.phase_closed_iff ch').mp (by rw [hsame])

end Leaving

/-- The window after a claim has passed. -/
def windowPassed : List (Action (Clocked Balances)) :=
  [.outside ⟨fun _ a => if a = ⟨0⟩ then 500 else 1000, 200⟩]

/-- In the channel where 350 and 150 were agreed `⟨4⟩` takes all 500 for itself. -/
theorem channel_exits_sample :
    let claim : Call := ⟨4, [⟨4⟩], .disputeClose ⟨4⟩ ⟨4⟩ ⟨5⟩ ⟨2⟩ 500 (.ofNat lastNonce)⟩
    let w := run (step sampleCrypto sampleChain) sampleWorld
      (openedChannel ++ .call claim :: windowPassed)
    ∃ r w', exec sampleCrypto sampleChain ⟨5, [⟨4⟩], .disputeClose ⟨4⟩ ⟨4⟩ ⟨5⟩ ⟨2⟩ 0 0⟩ w
        = .ok (r, w') ∧ w'.transfers = w.transfers ++ [⟨⟨2⟩, ⟨0⟩, ⟨4⟩, 500⟩] := by
  intro claim w
  have hrun : Ordinary sampleCrypto sampleChain ⟨2⟩ (fun x a => x.ext ⟨2⟩ a) sampleWorld
      (openedChannel ++ .call claim :: windowPassed) := by decide +kernel
  obtain ⟨-, hends⟩ := @channel_exits _ sampleCrypto sampleChain sampleWorld [⟨4⟩] ⟨4⟩ ⟨5⟩ ⟨2⟩ 4
    (fun x a => x.ext ⟨2⟩ a) (Machine.freshEnv_fresh _) openedChannel windowPassed
    ⟨⟨4⟩, ⟨5⟩, ⟨2⟩, 500, 350, 1, .opened, 100, 0, 60, none⟩ ⟨4⟩ 500
    (standardChain_payingToken ⟨0⟩ ⟨2⟩).clocked rfl rfl (.inl rfl) (by decide) (by decide)
    (by decide) rfl
    ⟨fun h => absurd h.1 Bool.false_ne_true, Env.not_archived rfl _ _⟩
  obtain ⟨ch', hch', -, hrest, hstatus⟩ := hends hrun
  have hdisputed : (channelOf w ⟨4⟩ ⟨5⟩ ⟨2⟩).map PaymentChannel.status = some .disputed := rfl
  have hpays := (hstatus.resolve_left fun hclosed => by
    rw [hch', Option.map_some, hclosed] at hdisputed
    cases hdisputed).2 (by decide) 5 [⟨4⟩] 0 0 (by decide) rfl
      ⟨fun h => absurd h.1 Bool.false_ne_true, Env.not_archived rfl _ _⟩
  obtain ⟨r, w', hexec, htransfers⟩ := hpays
  refine ⟨r, w', hexec, htransfers.trans ?_⟩
  -- nothing is left for the other party
  have hnothing : Transfer.positive ⟨⟨2⟩, sampleChain.self, ⟨5⟩, ch'.rest⟩ = [] := by
    refine if_neg ?_
    show ¬0 < ch'.rest.val
    rw [hrest]
    decide
  rw [hnothing]
  rfl

/-- A tip channel with one tip of 100. -/
def tippedChannel : List (Action (Clocked Balances)) :=
  setUp ++ [.call ⟨2, [⟨4⟩], .openTipChannel ⟨4⟩ ⟨5⟩ ⟨2⟩ 500 60⟩,
    .call ⟨3, [⟨4⟩, ⟨5⟩], .recordChannelTip ⟨4⟩ ⟨5⟩ ⟨2⟩ 100 1⟩]

/-- The creator takes the whole deposit. -/
theorem tip_channel_exits_sample :
    let claim : Call := ⟨4, [⟨5⟩], .disputeTipChannel ⟨5⟩ ⟨4⟩ ⟨5⟩ ⟨2⟩ 500 (.ofNat lastNonce)⟩
    let w := run (step sampleCrypto sampleChain) sampleWorld
      (tippedChannel ++ .call claim :: windowPassed)
    ∃ r w', exec sampleCrypto sampleChain ⟨5, [⟨5⟩], .disputeTipChannel ⟨5⟩ ⟨4⟩ ⟨5⟩ ⟨2⟩ 0 0⟩ w
        = .ok (r, w') ∧ w'.transfers = w.transfers ++ [⟨⟨2⟩, ⟨0⟩, ⟨5⟩, 500⟩] := by
  intro claim w
  have hrun : Ordinary sampleCrypto sampleChain ⟨2⟩ (fun x a => x.ext ⟨2⟩ a) sampleWorld
      (tippedChannel ++ .call claim :: windowPassed) := by decide +kernel
  obtain ⟨-, hends⟩ := @tip_channel_exits _ sampleCrypto sampleChain sampleWorld [⟨5⟩] ⟨4⟩ ⟨5⟩ ⟨2⟩ 4
    (fun x a => x.ext ⟨2⟩ a) (Machine.freshEnv_fresh _) tippedChannel windowPassed
    ⟨⟨4⟩, ⟨5⟩, ⟨2⟩, 500, 100, 1, 1, .opened, 100, 0, 60, none⟩ ⟨5⟩ 500
    (standardChain_payingToken ⟨0⟩ ⟨2⟩).clocked rfl rfl (.inr rfl) (by decide) (by decide)
    (by decide) rfl
    ⟨fun h => absurd h.1 Bool.false_ne_true, Env.not_archived rfl _ _⟩
  obtain ⟨ch', hch', -, hrest, hstatus⟩ := hends hrun
  have hdisputed : (tipChannelOf w ⟨4⟩ ⟨5⟩ ⟨2⟩).map TipStateChannel.status = some .disputed := rfl
  have hpays := (hstatus.resolve_left fun hclosed => by
    rw [hch', Option.map_some, hclosed] at hdisputed
    cases hdisputed).2 (by decide) 5 [⟨5⟩] 0 0 (by decide) (by decide) (by decide) rfl
      ⟨fun h => absurd h.1 Bool.false_ne_true, Env.not_archived rfl _ _⟩
  obtain ⟨r, w', hexec, htransfers⟩ := hpays
  refine ⟨r, w', hexec, htransfers.trans ?_⟩
  -- nothing is left for the other party
  have hnothing : Transfer.positive ⟨⟨2⟩, sampleChain.self, ⟨4⟩, ch'.rest⟩ = [] := by
    refine if_neg ?_
    show ¬0 < ch'.rest.val
    rw [hrest]
    decide
  rw [hnothing]
  rfl

end TipJarLegacy
