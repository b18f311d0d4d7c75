import StellarTipjar.TipJarLegacy.Contract
import StellarTipjar.Soroban.Payments
import StellarTipjar.Lib.Channel

/-!
# TipJarLegacy — what a successful call does

The calls about a channel are moves of the abstract channel of `Lib.Channel`, the same for payment
channels and tip channels: `MovesChannel` and `MovesTipChannel` say which move it is, what it writes
and which token calls it makes. The calls about a stream have one structure each. `Effect` lists
what a successful call can be; that it is one of these is proved in `Specs`.
-/

namespace TipJarLegacy

open Lib Soroban Contract

variable {X : Type}

/-! ## Reading the state -/

def streamOf (w : World X) (id : UInt64) : Option TipStream := w.pers.get (.stream (.record id))

def channelOf (w : World X) (a b T : Address) : Option PaymentChannel :=
  w.pers.get (.paymentChannel a b T)

def tipChannelOf (w : World X) (t c T : Address) : Option TipStateChannel :=
  w.pers.get (.tipChannel t c T)

def tipEntryOf (w : World X) (t c T : Address) (i : UInt64) : Option ChannelTip :=
  w.pers.get (.tipChannelEntry t c T i)

/-- What a creator has been credited. -/
def creditOf (w : World X) (creator T : Address) : I128 :=
  (w.pers.get (.creatorBalance creator T) : Option I128).getD 0

/-- The id of the next stream. -/
def nextStreamId (w : World X) : UInt64 := (w.inst.get (.stream .ctr) : Option UInt64).getD 0

/-- The nonce the next meta-transaction of a sender must have. -/
def metaNonce (w : World X) (sender : Address) : UInt64 :=
  (w.pers.get (.metaTxNonce sender) : Option UInt64).getD 0

/-- The id of the next record of a meta-transaction. -/
def nextMetaId (w : World X) : UInt64 := (w.inst.get .metaTxCounter : Option UInt64).getD 0

/-! ## Channels -/

/-- What a payment channel is: the first party is `party_a`. -/
def PaymentChannel.view (ch : PaymentChannel) : Channel ℕ where
  deposit := ch.totalDeposit.val
  window := ch.disputeWindow.toNat
  share := ch.balanceA.val
  nonce := ch.nonce.toNat
  phase :=
    match ch.status with
    | .opened => .opened
    | .disputed => .disputed ch.disputeStartedAt.toNat
    | .closed => .closed

/-- What a tip channel is: the first party is the creator. -/
def TipStateChannel.view (ch : TipStateChannel) : Channel ℕ where
  deposit := ch.deposit.val
  window := ch.disputeWindow.toNat
  share := ch.tippedAmount.val
  nonce := ch.nonce.toNat
  phase :=
    match ch.status with
    | .opened => .opened
    | .disputed => .disputed ch.disputeStartedAt.toNat
    | .settled => .closed

/-- The parties' part of the deposit that is not the first one's. -/
def PaymentChannel.rest (ch : PaymentChannel) : I128 := ch.totalDeposit - ch.balanceA

def TipStateChannel.rest (ch : TipStateChannel) : I128 := ch.deposit - ch.tippedAmount

/-- The token calls of a move of a payment channel. -/
def PaymentChannel.payments (self a b T : Address) (ch : PaymentChannel) :
    Channel.Move ℕ → List Transfer
  | .fund _ _ _ _ => [⟨T, a, self, ch.balanceA⟩, ⟨T, b, self, ch.rest⟩]
  | .settle | .finalise _ =>
    Transfer.positive ⟨T, self, a, ch.balanceA⟩ ++ Transfer.positive ⟨T, self, b, ch.rest⟩
  | _ => []

/-- The token calls of a move of a tip channel. -/
def TipStateChannel.payments (self t c T : Address) (ch : TipStateChannel) :
    Channel.Move ℕ → List Transfer
  | .fund _ _ _ _ => [⟨T, t, self, ch.deposit⟩]
  | .settle | .finalise _ =>
    Transfer.positive ⟨T, self, c, ch.tippedAmount⟩ ++ Transfer.positive ⟨T, self, t, ch.rest⟩
  | _ => []

/-- The channel is the one of these parties. -/
structure PaymentChannel.Between (ch : PaymentChannel) (a b T : Address) : Prop where
  partyA : ch.partyA = a
  partyB : ch.partyB = b
  token : ch.token = T

structure TipStateChannel.Between (ch : TipStateChannel) (t c T : Address) : Prop where
  tipper : ch.tipper = t
  creator : ch.creator = c
  token : ch.token = T

/-- Every channel is stored under the key of its own parties, and splits its deposit. -/
structure Filed (w : World X) : Prop where
  channels : ∀ a b T, ∀ ch ∈ channelOf w a b T, ch.Between a b T
  tipChannels : ∀ t c T, ∀ ch ∈ tipChannelOf w t c T, ch.Between t c T
  shares : ∀ a b T, ∀ ch ∈ channelOf w a b T,
    0 ≤ ch.balanceA.val ∧ ch.balanceA.val ≤ ch.totalDeposit.val
  tipShares : ∀ t c T, ∀ ch ∈ tipChannelOf w t c T,
    0 ≤ ch.tippedAmount.val ∧ ch.tippedAmount.val ≤ ch.deposit.val

/-- Who has to authorise a move: both parties, or one of them for a move it makes alone. -/
def Authorises (auth : List Address) (p q : Address) : Channel.Move ℕ → Prop
  | .claim _ _ _ | .finalise _ => p ∈ auth ∨ q ∈ auth
  | _ => p ∈ auth ∧ q ∈ auth

/-- The end of the dispute, if there is one, is a time the contract can compute. -/
def DisputeFits (x : Option (Channel ℕ)) : Prop :=
  ∀ c ∈ x, ∀ since, c.phase = .disputed since → since + c.window < 2 ^ 64

section Channels

variable (chain : Chain X)

/-- The move `m` of the payment channel of `a` and `b` in `T`, which leaves it at `ch`. -/
structure MovesChannel (auth : List Address) (a b T : Address) (m : Channel.Move ℕ)
    (ch : PaymentChannel) (w w' : World X) : Prop where
  step : Channel.Step ((channelOf w a b T).map PaymentChannel.view) m ch.view
  between : ch.Between a b T
  pers : w'.pers = w.pers.set (.paymentChannel a b T) ch
  sends : Sends chain (ch.payments chain.self a b T m) w w'
  authorised : Authorises auth a b m
  timed : ∀ t ∈ m.time, t = (chain.timestamp w.ext).toNat
  streams : nextStreamId w' = nextStreamId w
  records : nextMetaId w' = nextMetaId w
  fits : DisputeFits ((channelOf w a b T).map PaymentChannel.view)

/-- The entry a recorded tip leaves behind. -/
structure RecordsTip (t c T : Address) (now : UInt64) (before ch : TipStateChannel) (w w' : World X) :
    Prop where
  count : ch.tipCount.toNat = before.tipCount.toNat + 1
  entry : ∃ amount : I128, amount.val = ch.tippedAmount.val - before.tippedAmount.val ∧ w'.pers =
    (w.pers.set (.tipChannelEntry t c T before.tipCount) ⟨before.tipCount, amount, now⟩).set
      (.tipChannel t c T) ch
  monotone : before.tippedAmount.val ≤ ch.tippedAmount.val

/-- What a move of a tip channel writes: an agreement is a tip, and gets an entry. -/
def WritesTipChannel (t c T : Address) (now : UInt64) (m : Channel.Move ℕ) (ch : TipStateChannel)
    (w w' : World X) : Prop :=
  match m with
  | .agree _ _ => ∃ before ∈ tipChannelOf w t c T, RecordsTip t c T now before ch w w'
  | .fund _ _ _ _ => (ch.tipCount = 0 ∧ ch.tippedAmount = 0) ∧
    w'.pers = w.pers.set (.tipChannel t c T) ch
  | _ => (∃ before ∈ tipChannelOf w t c T, ch.tipCount = before.tipCount) ∧
    w'.pers = w.pers.set (.tipChannel t c T) ch

/-- The move `m` of the tip channel of `t` and `c` in `T`, which leaves it at `ch`. A relayer may fund
it for the tipper. -/
structure MovesTipChannel (auth : List Address) (t c T : Address) (m : Channel.Move ℕ)
    (ch : TipStateChannel) (w w' : World X) : Prop where
  step : Channel.Step ((tipChannelOf w t c T).map TipStateChannel.view) m ch.view
  between : ch.Between t c T
  writes : WritesTipChannel t c T (chain.timestamp w.ext) m ch w w'
  sends : Sends chain (ch.payments chain.self t c T m) w w'
  authorised : m.funds = false → Authorises auth t c m
  timed : ∀ s ∈ m.time, s = (chain.timestamp w.ext).toNat
  streams : nextStreamId w' = nextStreamId w
  records : nextMetaId w' = nextMetaId w
  fits : DisputeFits ((tipChannelOf w t c T).map TipStateChannel.view)

end Channels

/-! ### Which move a call makes -/

/-- A dispute call claims a state, except where the window of a dispute is over. -/
def disputeMove (c : Channel ℕ) (now : Nat) (share : Int) (nonce : Nat) : Channel.Move ℕ :=
  match c.phase with
  | .disputed since =>
    if since + c.window ≤ now then .finalise now else .claim now share nonce
  | _ => .claim now share nonce

theorem disputeMove_funds (c : Channel ℕ) (now : Nat) (share : Int) (nonce : Nat) :
    (disputeMove c now share nonce).funds = false := by
  unfold disputeMove
  split
  · split
    · rfl
    · rfl
  · rfl

/-- The payment channel a call is about, and the move it makes there at `now`. -/
def Entrypoint.channelMove (w : World X) (now : UInt64) :
    Entrypoint → Option (Address × Address × Address × Channel.Move ℕ)
  | .openChannel a b T depositA depositB window =>
    some (a, b, T, .fund (depositA.val + depositB.val) window.toNat depositA.val 0)
  | .updateChannelState a b T balance nonce => some (a, b, T, .agree balance.val nonce.toNat)
  | .cooperativeClose a b T => some (a, b, T, .settle)
  | .disputeClose _ a b T balance nonce => (channelOf w a b T).map fun ch =>
    (a, b, T, disputeMove ch.view now.toNat balance.val nonce.toNat)
  | _ => none

/-- The functions that write nothing but settings. -/
def Entrypoint.quiet : Entrypoint → Bool
  | .createStream _ _ _ _ _ | .startStream _ _ | .stopStream _ _ | .withdrawStreamed _ _
  | .cancelStream _ _ | .openChannel _ _ _ _ _ _ | .updateChannelState _ _ _ _ _
  | .cooperativeClose _ _ _ | .disputeClose _ _ _ _ _ _ | .openTipChannel _ _ _ _ _
  | .recordChannelTip _ _ _ _ _ | .settleTipChannel _ _ _ | .disputeTipChannel _ _ _ _ _ _
  | .executeMetaTip _ _ => false
  | _ => true

/-- The tip channel a call is about, and the move it makes there at `now`. -/
def Entrypoint.tipChannelMove (w : World X) (now : UInt64) :
    Entrypoint → Option (Address × Address × Address × Channel.Move ℕ)
  | .openTipChannel t c T deposit window =>
    some (t, c, T, .fund deposit.val window.toNat 0 0)
  | .recordChannelTip t c T amount nonce => some (t, c, T, .agree amount.val nonce.toNat)
  | .settleTipChannel t c T => some (t, c, T, .settle)
  | .disputeTipChannel _ t c T amount nonce => (tipChannelOf w t c T).map fun ch =>
    (t, c, T, disputeMove ch.view now.toNat amount.val nonce.toNat)
  | .executeMetaTip _ req =>
    if req.action = .openChannel then
      -- the default window of one hour
      some (req.source, req.dest, req.token, .fund req.amount.val 3600 0 0)
    else none
  | _ => none

/-! ## Streams -/

namespace TipStream

/-- The seconds the clock of a stream has counted at `now`, and the most it can count. -/
def elapsed (s : TipStream) (now : UInt64) : Nat :=
  if now < s.startTime then 0
  else if s.endTime < now then s.endTime.toNat - s.startTime.toNat
  else now.toNat - s.startTime.toNat

def length (s : TipStream) : Nat := s.endTime.toNat - s.startTime.toNat

/-- What `calculate_streamed_amount` computes. -/
structure Streamed (s : TipStream) (now : UInt64) (amount : I128) : Prop where
  ended : s.status ≠ .active → s.status ≠ .paused → amount = s.withdrawn
  running : s.status = .active ∨ s.status = .paused → s.startTime.toNat ≤ s.endTime.toNat ∧
    amount.val = min (s.amountPerSecond.val * s.elapsed now) (s.amountPerSecond.val * s.length)

/-- What a restart makes of a stream: the time since it was paused does not count. -/
structure Resumes (s : TipStream) (now : UInt64) (s' : TipStream) : Prop where
  paused : s.status = .paused → ∃ pause, pause + s.updatedAt.toNat = now.toNat ∧
    s'.startTime.toNat = s.startTime.toNat + pause ∧ s'.endTime.toNat = s.endTime.toNat + pause
  running : s.status ≠ .paused → s'.startTime = s.startTime ∧ s'.endTime = s.endTime
  same : s' = { s with
    startTime := s'.startTime
    endTime := s'.endTime
    status := .active
    updatedAt := now }

end TipStream

section Streams

variable (chain : Chain X)

structure CreatesStream (auth : List Address) (sender creator token : Address) (rate : I128)
    (duration : UInt64) (total : I128) (s : TipStream) (w w' : World X) : Prop where
  authorised : sender ∈ auth
  rate_pos : 0 < rate.val
  rate_le : rate.val ≤ 1000
  duration_pos : 0 < duration.toNat
  total_eq : total.val = rate.val * duration.toNat
  endTime : s.endTime.toNat = (chain.timestamp w.ext).toNat + duration.toNat
  stream : s =
    { streamId := nextStreamId w, sender, creator, token, amountPerSecond := rate,
      startTime := chain.timestamp w.ext, endTime := s.endTime, withdrawn := 0,
      status := .active, createdAt := chain.timestamp w.ext, updatedAt := chain.timestamp w.ext }
  pers : ∃ senderIds creatorIds, w'.pers =
    ((w.pers.set (.stream (.record (nextStreamId w))) s).set (.stream (.senderStreams sender))
      senderIds).set (.stream (.creatorStreams creator)) creatorIds
  counter : (nextStreamId w').toNat = (nextStreamId w).toNat + 1
  sends : Sends chain [⟨token, sender, chain.self, total⟩] w w'
  records : nextMetaId w' = nextMetaId w

/-- A stream is written again, and `ts` is paid. -/
structure MovesStream (id : UInt64) (s s' : TipStream) (ts : List Transfer) (w w' : World X) :
    Prop where
  stored : streamOf w id = some s
  pers : w'.pers = w.pers.set (.stream (.record id)) s'
  sends : Sends chain ts w w'
  streams : nextStreamId w' = nextStreamId w
  records : nextMetaId w' = nextMetaId w

structure StartsStream (auth : List Address) (id : UInt64) (s s' : TipStream) (w w' : World X) : Prop
    extends MovesStream chain id s s' [] w w' where
  authorised : s.sender ∈ auth
  status : s.status = .active ∨ s.status = .paused
  resumes : s.Resumes (chain.timestamp w.ext) s'

structure StopsStream (auth : List Address) (id : UInt64) (s : TipStream) (streamed : I128)
    (w w' : World X) : Prop
    extends MovesStream chain id s
      { s with status := .paused, withdrawn := streamed, updatedAt := chain.timestamp w.ext } [] w w'
    where
  authorised : s.sender ∈ auth
  status : s.status = .active
  computed : s.Streamed (chain.timestamp w.ext) streamed

structure WithdrawsStream (auth : List Address) (id : UInt64) (s : TipStream)
    (streamed available : I128) (w w' : World X) : Prop
    extends MovesStream chain id s
      { s with
        withdrawn := streamed
        status := if s.endTime ≤ chain.timestamp w.ext then .completed else s.status
        updatedAt := chain.timestamp w.ext }
      [⟨s.token, chain.self, s.creator, available⟩] w w' where
  authorised : s.creator ∈ auth
  status : s.status ≠ .cancelled
  started : s.startTime.toNat ≤ (chain.timestamp w.ext).toNat
  computed : s.Streamed (chain.timestamp w.ext) streamed
  available_eq : available.val = streamed.val - s.withdrawn.val
  positive : 0 < available.val

structure CancelsStream (auth : List Address) (id : UInt64) (s : TipStream)
    (streamed remaining : I128) (w w' : World X) : Prop
    extends MovesStream chain id s
      { s with status := .cancelled, updatedAt := chain.timestamp w.ext }
      (Transfer.positive ⟨s.token, chain.self, s.sender, remaining⟩) w w' where
  authorised : s.sender ∈ auth
  status : s.status = .active ∨ s.status = .paused
  computed : s.Streamed (chain.timestamp w.ext) streamed
  remaining_eq : remaining.val = s.amountPerSecond.val * s.length - streamed.val

end Streams

/-! ## Meta-transactions and the rest -/

/-- The signed request passed every check of `execute_meta_tip`. -/
structure Verified (crypto : Crypto) (now : UInt64) (relayer : Address) (req : MetaTipRequest)
    (w : World X) : Prop where
  amount_pos : 0 < req.amount.val
  trusted : (w.inst.get (.metaTxRelayer relayer) : Option Bool).getD false = true
  valid : now ≤ req.validUntil
  nonce : req.nonce = metaNonce w req.source
  fresh : (w.pers.get (.metaTxNullifier (MetaTx.canonicalHash crypto req)) : Option Bool).getD false
    = false
  signed : crypto.ed25519Verify req.publicKey (MetaTx.canonicalHash crypto req) req.signature = true

/-- A tip of a meta-transaction is credited to the creator. -/
structure MetaTips (chain : Chain X) (req : MetaTipRequest) (w w' : World X) : Prop where
  action : req.action = .tip
  amount_pos : 0 < req.amount.val
  pers : ∃ balance total : I128,
    balance.val = (creditOf w req.dest req.token).val + req.amount.val ∧ w'.pers =
      (w.pers.set (.creatorBalance req.dest req.token) balance).set
        (.creatorTotal req.dest req.token) total
  sends : Sends chain [⟨req.token, req.source, chain.self, req.amount⟩] w w'
  streams : nextStreamId w' = nextStreamId w
  records : nextMetaId w' = nextMetaId w

/-- What a meta-transaction does for the user. -/
inductive MetaActs (chain : Chain X) (auth : List Address) (req : MetaTipRequest) (w w' : World X) :
    Prop where
  | tip (h : MetaTips chain req w w')
  | openChannel (action : req.action = .openChannel) (ch : TipStateChannel)
      (h : MovesTipChannel chain auth req.source req.dest req.token
        (.fund req.amount.val 3600 0 0) ch w w')

/-- The book-keeping at the end of a meta-transaction. -/
structure Finalises (crypto : Crypto) (relayer : Address) (req : MetaTipRequest) (w w' : World X) :
    Prop where
  pers : ∃ next record, next.toNat = (metaNonce w req.source).toNat + 1 ∧ w'.pers =
    ((w.pers.set (.metaTxNullifier (MetaTx.canonicalHash crypto req)) true).set
      (.metaTxNonce req.source) next).set (.metaTxRecord (nextMetaId w))
      { id := nextMetaId w, source := req.source, relayer, dest := req.dest, token := req.token,
        amount := req.amount, nonce := req.nonce, executedAt := record, action := req.action }
  ext : w'.ext = w.ext
  transfers : w'.transfers = w.transfers
  streams : nextStreamId w' = nextStreamId w
  counter : (nextMetaId w').toNat = (nextMetaId w).toNat + 1

/-- Nothing but settings in the instance storage is written. -/
structure Silent (w w' : World X) : Prop where
  pers : w'.pers = w.pers
  ext : w'.ext = w.ext
  transfers : w'.transfers = w.transfers
  streams : nextStreamId w' = nextStreamId w
  records : nextMetaId w' = nextMetaId w

/-- What a successful call of the contract does. -/
inductive Effect (crypto : Crypto) (chain : Chain X) (call : Call) (w w' : World X) : Prop where
  | streamCreated (sender creator token : Address) (rate : I128) (duration : UInt64) (total : I128)
      (s : TipStream) (entry : call.entry = .createStream sender creator token rate duration)
      (h : CreatesStream chain call.auth sender creator token rate duration total s w w')
  | streamStarted (id : UInt64) (s s' : TipStream) (entry : call.entry = .startStream s.sender id)
      (h : StartsStream chain call.auth id s s' w w')
  | streamStopped (id : UInt64) (s : TipStream) (streamed : I128)
      (entry : call.entry = .stopStream s.sender id)
      (h : StopsStream chain call.auth id s streamed w w')
  | streamWithdrawn (id : UInt64) (s : TipStream) (streamed available : I128)
      (entry : call.entry = .withdrawStreamed s.creator id)
      (h : WithdrawsStream chain call.auth id s streamed available w w')
  | streamCancelled (id : UInt64) (s : TipStream) (streamed remaining : I128)
      (entry : call.entry = .cancelStream s.sender id)
      (h : CancelsStream chain call.auth id s streamed remaining w w')
  | channelMoved (a b T : Address) (m : Channel.Move ℕ) (ch : PaymentChannel)
      (entry : call.entry.channelMove w (chain.timestamp w.ext) = some (a, b, T, m))
      (h : MovesChannel chain call.auth a b T m ch w w')
  | tipChannelMoved (t c T : Address) (m : Channel.Move ℕ) (ch : TipStateChannel)
      (entry : call.entry.tipChannelMove w (chain.timestamp w.ext) = some (t, c, T, m))
      (direct : ∀ relayer req, call.entry ≠ .executeMetaTip relayer req)
      (opener : m.funds = true → t ∈ call.auth)
      (h : MovesTipChannel chain call.auth t c T m ch w w')
  | metaExecuted (relayer : Address) (req : MetaTipRequest) (w₁ : World X)
      (entry : call.entry = .executeMetaTip relayer req)
      (verified : Verified crypto (chain.timestamp w.ext) relayer req w)
      (acts : MetaActs chain call.auth req w w₁) (h : Finalises crypto relayer req w₁ w')
  | silent (entry : call.entry.quiet = true) (h : Silent w w')

end TipJarLegacy
