import StellarTipjar.TipJarLegacy.Types

/-!
# TipJarLegacy — the contract

The entrypoints of `contracts/tipjar-legacy/src` over the data model of `Types`, in the order of
`lib.rs`, with the functions of `payment_channel.rs`, `state_channel/mod.rs` and `meta_tx/mod.rs`
that they call. A failed `assert!`, `unwrap` or `expect` is a trap. The crate is built in both of
Cargo's profiles, in `dev` by the checks of the repository and in `release` by
`scripts/start-simulator.sh`; the functions with bare arithmetic take the profile. Without one they
are those of `dev`, where a bare `+`, `-` or `*` that leaves its type panics; in `release` it wraps.

`upgrade` is not among the calls: it replaces the code, and a run of this contract ends there.
-/

namespace TipJarLegacy

open Lib Soroban Contract

variable {X : Type}

/-! ## Administration (`lib.rs`) -/

def ledgerThreshold : Nat := 100000

def ledgerBump : Nat := 120960

/-- Stores the admin, once. -/
def init (admin : Address) : M X Unit := do
  let present ← instanceHas DataKey.admin
  panicIf (present = true) (.tipJar .alreadyInitialized)
  instanceSet DataKey.admin admin
  instanceExtendTtl ledgerThreshold ledgerBump

-- the check every admin function begins with
def requireStoredAdmin (admin : Address) : M X Unit := do
  requireAuth admin
  let stored : Option Address ← instanceGet DataKey.admin
  let storedAdmin ← unwrapOrTrap stored
  panicIf (admin ≠ storedAdmin) (.tipJar .unauthorized)

/-- Whitelists a token. -/
def addToken (admin token : Address) : M X Unit := do
  requireStoredAdmin admin
  instanceSet (DataKey.tokenWhitelist token) true

/-- Takes a token off the whitelist. What is escrowed in it is paid out all the same. -/
def removeToken (admin token : Address) : M X Unit := do
  requireStoredAdmin admin
  instanceSet (DataKey.tokenWhitelist token) false

/-- Pauses every function that begins with `requireNotPaused`, until the admin unpauses. -/
def pause (admin : Address) (reason : String) : M X Unit := do
  requireStoredAdmin admin
  instanceSet DataKey.paused true
  instanceSet DataKey.pauseReason reason
  publish (.paused admin reason)

/-- Ends a pause. -/
def unpause (admin : Address) : M X Unit := do
  requireStoredAdmin admin
  instanceSet DataKey.paused false
  instanceRemove DataKey.pauseReason
  publish (.unpaused admin)

/-- The pause ends by itself at the time under `PauseUntil`, if there is one. -/
def checkIsPaused : M X Bool := do
  let paused : Option Bool ← instanceGet DataKey.paused
  if paused.getD false = false then pure false
  else
    let unpauseTime : Option UInt64 ← instanceGet DataKey.pauseUntil
    let now ← ledgerTimestamp
    if (∃ t ∈ unpauseTime, t ≤ now) then
      instanceSet DataKey.paused false
      instanceRemove DataKey.pauseReason
      instanceRemove DataKey.pauseUntil
      pure false
    else pure true

def requireNotPaused : M X Unit := do
  let paused ← checkIsPaused
  panicIf (paused = true) (.tipJar .contractPaused)

def isWhitelisted (token : Address) : M X Bool := do
  let stored : Option Bool ← instanceGet (DataKey.tokenWhitelist token)
  pure (stored.getD false)

-- the check every function begins with that takes a deposit
def requireWhitelisted (token : Address) (e : Error) : M X Unit := do
  let whitelisted ← isWhitelisted token
  panicIf (whitelisted = false) e

/-! ## Streams (`lib.rs`) -/

/-- Opens a stream and escrows the rate times the duration. The record is stored before the
token is called; the counter gives the next identifier. -/
def createStream (sender creator token : Address) (amountPerSecond : I128) (duration : UInt64)
    (profile : Profile := .dev) : M X UInt64 := do
  requireNotPaused
  requireAuth sender
  panicIf (amountPerSecond ≤ 0) (.insurance .invalidStreamRate)
  panicIf (1000 < amountPerSecond) (.auction .strmRateMax)
  panicIf (duration = 0) (.tipJar .invalidAmount)
  requireWhitelisted token (.tipJar .tokenNotWhitelisted)
  let ctr : Option UInt64 ← instanceGet (DataKey.stream .ctr)
  let streamId := ctr.getD 0
  let now ← ledgerTimestamp
  let totalAmount ← profile.mul amountPerSecond (.ofUInt64 duration)
  let endTime ← profile.add64 now duration
  persistentSet (DataKey.stream (.record streamId))
    { streamId, sender, creator, token, amountPerSecond, startTime := now, endTime,
      withdrawn := 0, status := .active, createdAt := now, updatedAt := now }
  let nextId ← profile.add64 streamId 1
  instanceSet (DataKey.stream .ctr) nextId
  let senderStreams : Option (List UInt64) ←
    persistentGet (DataKey.stream (.senderStreams sender))
  persistentSet (DataKey.stream (.senderStreams sender)) (senderStreams.getD [] ++ [streamId])
  let creatorStreams : Option (List UInt64) ←
    persistentGet (DataKey.stream (.creatorStreams creator))
  persistentSet (DataKey.stream (.creatorStreams creator)) (creatorStreams.getD [] ++ [streamId])
  -- the whole amount goes into escrow
  let contractAddress ← currentContractAddress
  tokenTransfer ⟨token, sender, contractAddress, totalAmount⟩
  publish (.streamCreated streamId sender creator amountPerSecond duration)
  pure streamId

/-- The rate times the time since the start, capped at the whole amount. The time a stream is
paused for counts here; only `startStream` takes it off again. A cancelled or completed stream
reads what was withdrawn. -/
def calculateStreamedAmount (stream : TipStream) (profile : Profile := .dev) : M X I128 := do
  let currentTime ← ledgerTimestamp
  if stream.status ≠ .active ∧ stream.status ≠ .paused then pure stream.withdrawn
  else
    let elapsed ←
      if currentTime < stream.startTime then pure 0
      else if stream.endTime < currentTime then profile.sub64 stream.endTime stream.startTime
      else profile.sub64 currentTime stream.startTime
    let streamed ← profile.mul stream.amountPerSecond (.ofUInt64 elapsed)
    let length ← profile.sub64 stream.endTime stream.startTime
    let total ← profile.mul stream.amountPerSecond (.ofUInt64 length)
    pure (streamed.smaller total)

def loadStream (streamId : UInt64) : M X TipStream := do
  let stored : Option TipStream ← persistentGet (DataKey.stream (.record streamId))
  unwrapOrPanic stored (.insurance .streamNotFound)

/-- Resumes a paused stream: start and end move by the time it was paused for. On an active stream
only `updatedAt` changes. -/
def startStream (sender : Address) (streamId : UInt64) (profile : Profile := .dev) :
    M X Unit := do
  requireNotPaused
  requireAuth sender
  let stream ← loadStream streamId
  panicIf (stream.sender ≠ sender) (.tipJar .unauthorized)
  panicIf (stream.status = .cancelled) (.insurance .streamAlreadyCancelled)
  panicIf (stream.status = .completed) (.insurance .streamAlreadyCompleted)
  let now ← ledgerTimestamp
  -- a paused stream is resumed: the time it was paused for does not count
  let resumed ←
    if stream.status = .paused then do
      let pauseDuration ← profile.sub64 now stream.updatedAt
      let startTime ← profile.add64 stream.startTime pauseDuration
      let endTime ← profile.add64 stream.endTime pauseDuration
      pure { stream with startTime, endTime }
    else pure stream
  persistentSet (DataKey.stream (.record streamId))
    { resumed with status := .active, updatedAt := now }
  publish (.streamStarted streamId)

/-- Pauses a stream. What has streamed so far is stored as withdrawn, and nobody is paid it. -/
def stopStream (sender : Address) (streamId : UInt64) (profile : Profile := .dev) :
    M X Unit := do
  requireNotPaused
  requireAuth sender
  let stream ← loadStream streamId
  panicIf (stream.sender ≠ sender) (.tipJar .unauthorized)
  panicIf (stream.status ≠ .active) (.insurance .streamNotStarted)
  panicIf (stream.status = .cancelled) (.insurance .streamAlreadyCancelled)
  let streamedAmount ← calculateStreamedAmount stream profile
  let now ← ledgerTimestamp
  persistentSet (DataKey.stream (.record streamId))
    { stream with status := .paused, withdrawn := streamedAmount, updatedAt := now }
  publish (.streamStopped streamId streamedAmount)

/-- Pays the creator what has streamed and is not stored as withdrawn. The end of the stream
completes it. -/
def withdrawStreamed (creator : Address) (streamId : UInt64) (profile : Profile := .dev) :
    M X Unit := do
  requireNotPaused
  requireAuth creator
  let stream ← loadStream streamId
  panicIf (stream.creator ≠ creator) (.tipJar .unauthorized)
  panicIf (stream.status = .cancelled) (.insurance .streamAlreadyCancelled)
  let currentTime ← ledgerTimestamp
  panicIf (currentTime < stream.startTime) (.insurance .streamNotStarted)
  -- `_total_streamable` is not used, but it is computed
  let length ← profile.sub64 stream.endTime stream.startTime
  let _ ← profile.mul stream.amountPerSecond (.ofUInt64 length)
  let streamedAmount ← calculateStreamedAmount stream profile
  let availableToWithdraw ← profile.sub streamedAmount stream.withdrawn
  panicIf (availableToWithdraw ≤ 0) (.auction .noStreamedAmount)
  persistentSet (DataKey.stream (.record streamId))
    { stream with
      withdrawn := streamedAmount
      status := if stream.endTime ≤ currentTime then .completed else stream.status
      updatedAt := currentTime }
  let contractAddress ← currentContractAddress
  tokenTransfer ⟨stream.token, contractAddress, creator, availableToWithdraw⟩
  publish (.streamWithdrawn streamId availableToWithdraw creator)

/-- Cancels the stream and returns what has not streamed. What has streamed and was not withdrawn
stays in the contract. -/
def cancelStream (sender : Address) (streamId : UInt64) (profile : Profile := .dev) :
    M X Unit := do
  requireNotPaused
  requireAuth sender
  let stream ← loadStream streamId
  panicIf (stream.sender ≠ sender) (.tipJar .unauthorized)
  panicIf (stream.status = .cancelled) (.insurance .streamAlreadyCancelled)
  panicIf (stream.status = .completed) (.insurance .streamAlreadyCompleted)
  let currentTime ← ledgerTimestamp
  let streamedAmount ← calculateStreamedAmount stream profile
  let length ← profile.sub64 stream.endTime stream.startTime
  let totalAmount ← profile.mul stream.amountPerSecond (.ofUInt64 length)
  let remainingAmount ← profile.sub totalAmount streamedAmount
  persistentSet (DataKey.stream (.record streamId))
    { stream with status := .cancelled, updatedAt := currentTime }
  let contractAddress ← currentContractAddress
  onlyIf (0 < remainingAmount)
    (tokenTransfer ⟨stream.token, contractAddress, sender, remainingAmount⟩)
  publish (.streamCancelled streamId remainingAmount)

def getStream (streamId : UInt64) : M X (Option TipStream) :=
  persistentGet (DataKey.stream (.record streamId))

def getStreamsByCreator (creator : Address) : M X (List UInt64) := do
  let stored : Option (List UInt64) ← persistentGet (DataKey.stream (.creatorStreams creator))
  pure (stored.getD [])

def getStreamsBySender (sender : Address) : M X (List UInt64) := do
  let stored : Option (List UInt64) ← persistentGet (DataKey.stream (.senderStreams sender))
  pure (stored.getD [])

def getStreamedAmount (streamId : UInt64) (profile : Profile := .dev) : M X I128 := do
  let stream ← loadStream streamId
  calculateStreamedAmount stream profile

/-- What `withdrawStreamed` would pay now. -/
def getAvailableToWithdraw (streamId : UInt64) (profile : Profile := .dev) : M X I128 := do
  let stream ← loadStream streamId
  if stream.status = .cancelled ∨ stream.status = .completed then pure 0
  else
    let currentTime ← ledgerTimestamp
    if currentTime < stream.startTime then pure 0
    else
      let streamedAmount ← calculateStreamedAmount stream profile
      profile.sub streamedAmount stream.withdrawn

/-! ## Paying out an escrow

Both kinds of channel end with the same two transfers, each made only when it moves something. -/

def payOut (token first second : Address) (toFirst toSecond : I128) : M X Unit := do
  let contractAddress ← currentContractAddress
  onlyIf (0 < toFirst) (tokenTransfer ⟨token, contractAddress, first, toFirst⟩)
  onlyIf (0 < toSecond) (tokenTransfer ⟨token, contractAddress, second, toSecond⟩)

/-! ## Payment channels (`payment_channel.rs`, `lib.rs`) -/

namespace PaymentChannel

/-- `payment_channel::open` -/
def openWith (partyA partyB token : Address) (depositA depositB : I128) (disputeWindow : UInt64)
    (profile : Profile := .dev) : M X PaymentChannel := do
  let total ← profile.add depositA depositB
  let now ← ledgerTimestamp
  pure
    { partyA, partyB, token, totalDeposit := total, balanceA := depositA, nonce := 0,
      status := .opened, openedAt := now, disputeStartedAt := 0, disputeWindow, disputer := none }

/-- The rest of the deposits. -/
def balanceB (channel : PaymentChannel) (profile : Profile := .dev) : M X I128 :=
  profile.sub channel.totalDeposit channel.balanceA

end PaymentChannel

/-- Both parties sign, and both deposits go into escrow. One channel for a pair of parties and a
token, also after it is closed. -/
def openChannel (partyA partyB token : Address) (depositA depositB : I128)
    (disputeWindow : UInt64) (profile : Profile := .dev) : M X Unit := do
  requireNotPaused
  requireAuth partyA
  requireAuth partyB
  panicIf (depositA ≤ 0 ∨ depositB ≤ 0) (.channel .invalidDeposit)
  panicIf (disputeWindow = 0) (.channel .invalidDisputeWindow)
  requireWhitelisted token (.tipJar .tokenNotWhitelisted)
  let present ← persistentHas (DataKey.paymentChannel partyA partyB token)
  panicIf (present = true) (.channel .channelNotOpen)
  let channel ← PaymentChannel.openWith partyA partyB token depositA depositB disputeWindow profile
  persistentSet (DataKey.paymentChannel partyA partyB token) channel
  let contractAddress ← currentContractAddress
  tokenTransfer ⟨token, partyA, contractAddress, depositA⟩
  tokenTransfer ⟨token, partyB, contractAddress, depositB⟩
  let total ← profile.add depositA depositB
  publish (.channelOpened partyA partyB token total)

def loadChannel (partyA partyB token : Address) : M X PaymentChannel := do
  let stored : Option PaymentChannel ← persistentGet (DataKey.paymentChannel partyA partyB token)
  unwrapOrPanic stored (.channel .channelNotFound)

/-- A new split under a higher nonce, signed by both parties. -/
def updateChannelState (partyA partyB token : Address) (newBalanceA : I128) (nonce : UInt64) :
    M X Unit := do
  requireNotPaused
  requireAuth partyA
  requireAuth partyB
  let channel ← loadChannel partyA partyB token
  panicIf (channel.status ≠ .opened) (.channel .channelNotOpen)
  panicIf (nonce ≤ channel.nonce) (.channel .staleNonce)
  panicIf (newBalanceA < 0 ∨ channel.totalDeposit < newBalanceA) (.channel .invalidChannelBalance)
  persistentSet (DataKey.paymentChannel partyA partyB token)
    { channel with balanceA := newBalanceA, nonce }
  publish (.channelUpdated partyA partyB token newBalanceA nonce)

/-- Both parties sign, and the current split is paid. -/
def cooperativeClose (partyA partyB token : Address) (profile : Profile := .dev) :
    M X Unit := do
  requireNotPaused
  requireAuth partyA
  requireAuth partyB
  let channel ← loadChannel partyA partyB token
  panicIf (channel.status ≠ .opened) (.channel .channelNotOpen)
  let balB ← channel.balanceB profile
  persistentSet (DataKey.paymentChannel partyA partyB token) { channel with status := .closed }
  payOut token partyA partyB channel.balanceA balB
  publish (.channelClosed partyA partyB token channel.balanceA balB)

/-- One party closes alone. The first call starts the window with its claim, a later one within
the window answers with a higher nonce, and one after the window pays the last split. A claim is
checked against the nonce and the deposits; no signature of the other party is asked for. -/
def disputeClose (caller partyA partyB token : Address) (claimedBalanceA : I128) (nonce : UInt64)
    (profile : Profile := .dev) : M X Unit := do
  requireNotPaused
  requireAuth caller
  let channel ← loadChannel partyA partyB token
  panicIf (caller ≠ channel.partyA ∧ caller ≠ channel.partyB) (.channel .notChannelParty)
  let now ← ledgerTimestamp
  match channel.status with
  | .opened =>
    panicIf (claimedBalanceA < 0 ∨ channel.totalDeposit < claimedBalanceA)
      (.channel .invalidChannelBalance)
    panicIf (nonce < channel.nonce) (.channel .staleNonce)
    persistentSet (DataKey.paymentChannel partyA partyB token)
      { channel with
        status := .disputed
        disputeStartedAt := now
        disputer := some caller
        balanceA := claimedBalanceA
        nonce }
    publish (.channelDisputed caller partyA partyB token claimedBalanceA nonce)
  | .disputed =>
    let windowEnd ← profile.add64 channel.disputeStartedAt channel.disputeWindow
    if now < windowEnd then
      -- a newer state
      panicIf (nonce ≤ channel.nonce) (.channel .staleNonce)
      panicIf (claimedBalanceA < 0 ∨ channel.totalDeposit < claimedBalanceA)
        (.channel .invalidChannelBalance)
      persistentSet (DataKey.paymentChannel partyA partyB token)
        { channel with balanceA := claimedBalanceA, nonce }
      publish (.channelDisputed caller partyA partyB token claimedBalanceA nonce)
    else
      -- the window is over
      let balB ← channel.balanceB profile
      persistentSet (DataKey.paymentChannel partyA partyB token) { channel with status := .closed }
      payOut token partyA partyB channel.balanceA balB
      publish (.channelFinalised partyA partyB token channel.balanceA balB)
  | .closed => panicWithError (.channel .channelNotOpen)

def getChannel (partyA partyB token : Address) : M X (Option PaymentChannel) :=
  persistentGet (DataKey.paymentChannel partyA partyB token)

/-! ## Tip channels (`state_channel/mod.rs`, `lib.rs`) -/

namespace StateChannel

/-- A missing channel traps here; the entrypoints look before they load. -/
def load (tipper creator token : Address) : M X TipStateChannel := do
  let stored : Option TipStateChannel ← persistentGet (DataKey.tipChannel tipper creator token)
  unwrapOrTrap stored

def save (channel : TipStateChannel) : M X Unit :=
  persistentSet (DataKey.tipChannel channel.tipper channel.creator channel.token) channel

/-- `state_channel::open` -/
def openWith (tipper creator token : Address) (deposit : I128) (disputeWindow : UInt64) :
    M X Unit := do
  let now ← ledgerTimestamp
  save
    { tipper, creator, token, deposit, tippedAmount := 0, nonce := 0, tipCount := 0,
      status := .opened, openedAt := now, disputeStartedAt := 0, disputeWindow, disputer := none }
  let contractAddress ← currentContractAddress
  tokenTransfer ⟨token, tipper, contractAddress, deposit⟩
  publish (.tipChannelOpened tipper creator token deposit)

/-- The cumulative amount and the nonce move, and the difference is stored as one tip. -/
def recordTip (tipper creator token : Address) (newTippedAmount : I128) (nonce : UInt64)
    (profile : Profile := .dev) : M X Unit := do
  let channel ← load tipper creator token
  assertOrTrap (channel.status = .opened)
  assertOrTrap (channel.nonce < nonce)
  assertOrTrap (channel.tippedAmount ≤ newTippedAmount)
  assertOrTrap (newTippedAmount ≤ channel.deposit)
  let tipIndex := channel.tipCount
  let tipAmount ← profile.sub newTippedAmount channel.tippedAmount
  let tipCount ← profile.add64 channel.tipCount 1
  let now ← ledgerTimestamp
  persistentSet (DataKey.tipChannelEntry tipper creator token tipIndex)
    ({ index := tipIndex, amount := tipAmount, recordedAt := now } : ChannelTip)
  save { channel with tippedAmount := newTippedAmount, nonce, tipCount }
  publish (.channelTipped tipper creator token tipAmount nonce)

/-- The creator is paid what was tipped, the tipper the rest. -/
def settle (tipper creator token : Address) (profile : Profile := .dev) : M X Unit := do
  let channel ← load tipper creator token
  assertOrTrap (channel.status = .opened)
  let toTipper ← profile.sub channel.deposit channel.tippedAmount
  save { channel with status := .settled }
  payOut token creator tipper channel.tippedAmount toTipper
  publish (.tipChannelSettled tipper creator token channel.tippedAmount toTipper)

/-- The three cases of `disputeClose`, for the tipped amount. -/
def dispute (caller tipper creator token : Address) (claimedTippedAmount : I128)
    (nonce : UInt64) (profile : Profile := .dev) : M X Unit := do
  let channel ← load tipper creator token
  assertOrTrap (caller = channel.tipper ∨ caller = channel.creator)
  let now ← ledgerTimestamp
  match channel.status with
  | .opened =>
    assertOrTrap (0 ≤ claimedTippedAmount)
    assertOrTrap (claimedTippedAmount ≤ channel.deposit)
    assertOrTrap (channel.nonce ≤ nonce)
    save
      { channel with
        status := .disputed
        disputeStartedAt := now
        disputer := some caller
        tippedAmount := claimedTippedAmount
        nonce }
    publish (.tipChannelDisputed caller tipper creator token claimedTippedAmount nonce)
  | .disputed =>
    let windowEnd ← profile.add64 channel.disputeStartedAt channel.disputeWindow
    if now < windowEnd then
      -- a newer state
      assertOrTrap (channel.nonce < nonce)
      assertOrTrap (0 ≤ claimedTippedAmount)
      assertOrTrap (claimedTippedAmount ≤ channel.deposit)
      save { channel with tippedAmount := claimedTippedAmount, nonce }
      publish (.tipChannelDisputed caller tipper creator token claimedTippedAmount nonce)
    else
      -- the window is over
      let toTipper ← profile.sub channel.deposit channel.tippedAmount
      save { channel with status := .settled }
      payOut token creator tipper channel.tippedAmount toTipper
      publish (.tipChannelFinalised tipper creator token channel.tippedAmount toTipper)
  | .settled => fail .trap

-- the loop of `get_channel_tips`, over the indices still to come
def collectTips (tipper creator token : Address) (tips : List ChannelTip) :
    List UInt64 → M X (List ChannelTip)
  | [] => pure tips
  | i :: is => do
    let entry : Option ChannelTip ← persistentGet (DataKey.tipChannelEntry tipper creator token i)
    collectTips tipper creator token (tips ++ entry.toList) is

/-- `0..count` -/
def indices (count : UInt64) : List UInt64 := (List.range count.toNat).map UInt64.ofNat

/-- The stored tips in the order they were recorded. -/
def getChannelTips (tipper creator token : Address) : M X (List ChannelTip) := do
  let channel ← load tipper creator token
  collectTips tipper creator token [] (indices channel.tipCount)

end StateChannel

/-- The tipper signs and deposits. One channel for a tipper, a creator and a token. -/
def openTipChannel (tipper creator token : Address) (deposit : I128) (disputeWindow : UInt64) :
    M X Unit := do
  requireNotPaused
  requireAuth tipper
  panicIf (deposit ≤ 0) (.tipChannel .invalidDeposit)
  panicIf (disputeWindow = 0) (.tipChannel .invalidDisputeWindow)
  requireWhitelisted token (.tipJar .tokenNotWhitelisted)
  let present ← persistentHas (DataKey.tipChannel tipper creator token)
  panicIf (present = true) (.tipChannel .channelNotOpen)
  StateChannel.openWith tipper creator token deposit disputeWindow

-- the look-up every later function of a tip channel begins with
def loadTipChannel (tipper creator token : Address) : M X TipStateChannel := do
  let present ← persistentHas (DataKey.tipChannel tipper creator token)
  panicIf (present = false) (.tipChannel .channelNotFound)
  StateChannel.load tipper creator token

/-- A new cumulative amount, signed by both. The checks are those of `recordTip`, made first with
the errors the caller sees. -/
def recordChannelTip (tipper creator token : Address) (newTippedAmount : I128) (nonce : UInt64)
    (profile : Profile := .dev) : M X Unit := do
  requireNotPaused
  requireAuth tipper
  requireAuth creator
  let channel ← loadTipChannel tipper creator token
  panicIf (channel.status ≠ .opened) (.tipChannel .channelNotOpen)
  panicIf (nonce ≤ channel.nonce) (.tipChannel .staleNonce)
  panicIf (newTippedAmount < channel.tippedAmount) (.tipChannel .tippedAmountDecreased)
  panicIf (channel.deposit < newTippedAmount) (.tipChannel .exceedsDeposit)
  StateChannel.recordTip tipper creator token newTippedAmount nonce profile

/-- Both sign, and the channel is paid out. -/
def settleTipChannel (tipper creator token : Address) (profile : Profile := .dev) :
    M X Unit := do
  requireNotPaused
  requireAuth tipper
  requireAuth creator
  let channel ← loadTipChannel tipper creator token
  panicIf (channel.status ≠ .opened) (.tipChannel .channelNotOpen)
  StateChannel.settle tipper creator token profile

/-- One of the two closes alone, as in `disputeClose`. -/
def disputeTipChannel (caller tipper creator token : Address) (claimedTippedAmount : I128)
    (nonce : UInt64) (profile : Profile := .dev) : M X Unit := do
  requireNotPaused
  requireAuth caller
  let channel ← loadTipChannel tipper creator token
  panicIf (caller ≠ channel.tipper ∧ caller ≠ channel.creator) (.tipChannel .notChannelParty)
  panicIf (channel.status = .settled) (.tipChannel .alreadySettled)
  panicIf (claimedTippedAmount < 0 ∨ channel.deposit < claimedTippedAmount)
    (.tipChannel .exceedsDeposit)
  StateChannel.dispute caller tipper creator token claimedTippedAmount nonce profile

def getTipChannel (tipper creator token : Address) : M X (Option TipStateChannel) :=
  persistentGet (DataKey.tipChannel tipper creator token)

def getTipChannelTips (tipper creator token : Address) : M X (List ChannelTip) :=
  StateChannel.getChannelTips tipper creator token

/-! ## Meta-transactions (`meta_tx/mod.rs`, `lib.rs`) -/

namespace MetaTx

/-- The nonce the next request of the sender must carry. -/
def getNonce (sender : Address) : M X UInt64 := do
  let stored : Option UInt64 ← persistentGet (DataKey.metaTxNonce sender)
  pure (stored.getD 0)

def isTrustedRelayer (relayer : Address) : M X Bool := do
  let stored : Option Bool ← instanceGet (DataKey.metaTxRelayer relayer)
  pure (stored.getD false)

def isConsumed (nullifier : BytesN 32) : M X Bool := do
  let stored : Option Bool ← persistentGet (DataKey.metaTxNullifier nullifier)
  pure (stored.getD false)

/-- The nonce moves by one. -/
def bumpNonce (sender : Address) (profile : Profile := .dev) : M X Unit := do
  let current ← getNonce sender
  let next ← profile.add64 current 1
  persistentSet (DataKey.metaTxNonce sender) next

/-- The counter before the call names the record. -/
def nextRecordId (profile : Profile := .dev) : M X UInt64 := do
  let ctr : Option UInt64 ← instanceGet DataKey.metaTxCounter
  let next ← profile.add64 (ctr.getD 0) 1
  instanceSet DataKey.metaTxCounter next
  pure (ctr.getD 0)

/-- The last `count` bytes of a number, the highest first. -/
def beBytes (count n : Nat) : List UInt8 :=
  (List.range count).map fun i => UInt8.ofNat (n / 256 ^ (count - 1 - i))

/-- The domain separator `METATIP`. -/
def domain : List UInt8 := [0x4d, 0x45, 0x54, 0x41, 0x54, 0x49, 0x50]

/-- What the sender signs. The nullifier is this hash too; the action is not part of it. -/
def canonicalHash (crypto : Crypto) (req : MetaTipRequest) : BytesN 32 :=
  crypto.sha256 (domain ++ crypto.toXdr req.source ++ crypto.toXdr req.dest
    ++ crypto.toXdr req.token ++ beBytes 16 (req.amount.val % 2 ^ 128).toNat
    ++ beBytes 8 req.nonce.toNat ++ beBytes 8 req.validUntil.toNat)

/-- The checks on a request: the relayer, the deadline, the nonce, the nullifier and the
signature, in this order. -/
def verify (crypto : Crypto) (relayer : Address) (req : MetaTipRequest) : M X (BytesN 32) := do
  let trusted ← isTrustedRelayer relayer
  assertOrTrap (trusted = true)
  let now ← ledgerTimestamp
  assertOrTrap (now ≤ req.validUntil)
  let storedNonce ← getNonce req.source
  assertOrTrap (req.nonce = storedNonce)
  let hash := canonicalHash crypto req
  let consumed ← isConsumed hash
  assertOrTrap (consumed = false)
  assertOrTrap (crypto.ed25519Verify req.publicKey hash req.signature = true)
  pure hash

/-- Everything a request leaves behind: its nullifier, the next nonce and its record. -/
def finalize (relayer : Address) (req : MetaTipRequest) (hash : BytesN 32)
    (profile : Profile := .dev) : M X UInt64 := do
  persistentSet (DataKey.metaTxNullifier hash) true
  bumpNonce req.source profile
  let id ← nextRecordId profile
  let now ← ledgerTimestamp
  persistentSet (DataKey.metaTxRecord id)
    ({ id, source := req.source, relayer, dest := req.dest, token := req.token,
       amount := req.amount, nonce := req.nonce, executedAt := now, action := req.action } :
      MetaTxRecord)
  publish (.metaExecuted id req.source relayer req.dest req.amount req.nonce)
  pure id

end MetaTx

/-- Trusts a relayer. -/
def registerMetaRelayer (admin relayer : Address) : M X Unit := do
  requireStoredAdmin admin
  let trusted ← MetaTx.isTrustedRelayer relayer
  panicIf (trusted = true) (.metaTx .relayerAlreadyRegistered)
  instanceSet (DataKey.metaTxRelayer relayer) true
  publish (.relayerRegistered relayer)

/-- Stops trusting a relayer. -/
def removeMetaRelayer (admin relayer : Address) : M X Unit := do
  requireStoredAdmin admin
  let trusted ← MetaTx.isTrustedRelayer relayer
  panicIf (trusted = false) (.metaTx .relayerNotFound)
  instanceSet (DataKey.metaTxRelayer relayer) false
  publish (.relayerRemoved relayer)

/-- A tip from the sender to the credit of the creator, or a tip channel opened with the amount. -/
def executeMetaAction (req : MetaTipRequest) (profile : Profile := .dev) : M X Unit :=
  match req.action with
  | .tip => do
    let contractAddress ← currentContractAddress
    tokenTransfer ⟨req.token, req.source, contractAddress, req.amount⟩
    let current : Option I128 ← persistentGet (DataKey.creatorBalance req.dest req.token)
    let balance ← profile.add (current.getD 0) req.amount
    persistentSet (DataKey.creatorBalance req.dest req.token) balance
    persistentExtendTtl (DataKey.creatorBalance req.dest req.token) ledgerThreshold ledgerBump
    let total : Option I128 ← persistentGet (DataKey.creatorTotal req.dest req.token)
    let newTotal ← profile.add (total.getD 0) req.amount
    persistentSet (DataKey.creatorTotal req.dest req.token) newTotal
    persistentExtendTtl (DataKey.creatorTotal req.dest req.token) ledgerThreshold ledgerBump
    publish (.tipped req.source req.dest req.token req.amount)
  | .openChannel => do
    let present ← persistentHas (DataKey.tipChannel req.source req.dest req.token)
    panicIf (present = true) (.tipChannel .channelNotOpen)
    -- the default dispute window is one hour
    StateChannel.openWith req.source req.dest req.token req.amount 3600

/-- Verifies, acts and finalises. A failure of any of the three undoes all of them. -/
def executeMetaTip (crypto : Crypto) (relayer : Address) (request : MetaTipRequest)
    (profile : Profile := .dev) : M X UInt64 := do
  requireNotPaused
  requireAuth relayer
  panicIf (request.amount ≤ 0) (.metaTx .invalidAmount)
  requireWhitelisted request.token (.metaTx .tokenNotWhitelisted)
  let hash ← MetaTx.verify crypto relayer request
  executeMetaAction request profile
  MetaTx.finalize relayer request hash profile

def getMetaRecord (recordId : UInt64) : M X (Option MetaTxRecord) :=
  persistentGet (DataKey.metaTxRecord recordId)

/-! ## The machine -/

/-- The public functions, with their arguments. -/
inductive Entrypoint where
  | init (admin : Address)
  | addToken (admin token : Address)
  | removeToken (admin token : Address)
  | isWhitelisted (token : Address)
  | pause (admin : Address) (reason : String)
  | unpause (admin : Address)
  | createStream (sender creator token : Address) (amountPerSecond : I128) (duration : UInt64)
  | startStream (sender : Address) (streamId : UInt64)
  | stopStream (sender : Address) (streamId : UInt64)
  | withdrawStreamed (creator : Address) (streamId : UInt64)
  | cancelStream (sender : Address) (streamId : UInt64)
  | getStream (streamId : UInt64)
  | getStreamsByCreator (creator : Address)
  | getStreamsBySender (sender : Address)
  | getStreamedAmount (streamId : UInt64)
  | getAvailableToWithdraw (streamId : UInt64)
  | openChannel (partyA partyB token : Address) (depositA depositB : I128)
      (disputeWindow : UInt64)
  | updateChannelState (partyA partyB token : Address) (newBalanceA : I128) (nonce : UInt64)
  | cooperativeClose (partyA partyB token : Address)
  | disputeClose (caller partyA partyB token : Address) (claimedBalanceA : I128) (nonce : UInt64)
  | getChannel (partyA partyB token : Address)
  | openTipChannel (tipper creator token : Address) (deposit : I128) (disputeWindow : UInt64)
  | recordChannelTip (tipper creator token : Address) (newTippedAmount : I128) (nonce : UInt64)
  | settleTipChannel (tipper creator token : Address)
  | disputeTipChannel (caller tipper creator token : Address) (claimedTippedAmount : I128)
      (nonce : UInt64)
  | getTipChannel (tipper creator token : Address)
  | getTipChannelTips (tipper creator token : Address)
  | registerMetaRelayer (admin relayer : Address)
  | removeMetaRelayer (admin relayer : Address)
  | executeMetaTip (relayer : Address) (request : MetaTipRequest)
  | getMetaNonce (sender : Address)
  | isMetaRelayer (relayer : Address)
  | getMetaRecord (recordId : UInt64)
deriving DecidableEq, Repr

/-- What a call returns. -/
inductive Ret where
  | unit
  | bool (x : Bool)
  | u64 (x : UInt64)
  | i128 (x : I128)
  | stream (s : Option TipStream)
  | ids (ids : List UInt64)
  | channel (c : Option PaymentChannel)
  | tipChannel (c : Option TipStateChannel)
  | tips (tips : List ChannelTip)
  | metaRecord (r : Option MetaTxRecord)
deriving DecidableEq, Repr

/-- The contract, built in the profile. -/
def programIn (profile : Profile) (crypto : Crypto) : Entrypoint → M X Ret
  | .init admin => do init admin; pure .unit
  | .addToken admin token => do addToken admin token; pure .unit
  | .removeToken admin token => do removeToken admin token; pure .unit
  | .isWhitelisted token => do let b ← isWhitelisted token; pure (.bool b)
  | .pause admin reason => do pause admin reason; pure .unit
  | .unpause admin => do unpause admin; pure .unit
  | .createStream sender creator token amountPerSecond duration => do
    let id ← createStream sender creator token amountPerSecond duration profile; pure (.u64 id)
  | .startStream sender id => do startStream sender id profile; pure .unit
  | .stopStream sender id => do stopStream sender id profile; pure .unit
  | .withdrawStreamed creator id => do withdrawStreamed creator id profile; pure .unit
  | .cancelStream sender id => do cancelStream sender id profile; pure .unit
  | .getStream id => do let s ← getStream id; pure (.stream s)
  | .getStreamsByCreator creator => do let ids ← getStreamsByCreator creator; pure (.ids ids)
  | .getStreamsBySender sender => do let ids ← getStreamsBySender sender; pure (.ids ids)
  | .getStreamedAmount id => do let a ← getStreamedAmount id profile; pure (.i128 a)
  | .getAvailableToWithdraw id => do let a ← getAvailableToWithdraw id profile; pure (.i128 a)
  | .openChannel a b token depositA depositB window => do
    openChannel a b token depositA depositB window profile; pure .unit
  | .updateChannelState a b token balance nonce => do
    updateChannelState a b token balance nonce; pure .unit
  | .cooperativeClose a b token => do cooperativeClose a b token profile; pure .unit
  | .disputeClose caller a b token balance nonce => do
    disputeClose caller a b token balance nonce profile; pure .unit
  | .getChannel a b token => do let c ← getChannel a b token; pure (.channel c)
  | .openTipChannel tipper creator token deposit window => do
    openTipChannel tipper creator token deposit window; pure .unit
  | .recordChannelTip tipper creator token amount nonce => do
    recordChannelTip tipper creator token amount nonce profile; pure .unit
  | .settleTipChannel tipper creator token => do
    settleTipChannel tipper creator token profile; pure .unit
  | .disputeTipChannel caller tipper creator token amount nonce => do
    disputeTipChannel caller tipper creator token amount nonce profile; pure .unit
  | .getTipChannel tipper creator token => do
    let c ← getTipChannel tipper creator token; pure (.tipChannel c)
  | .getTipChannelTips tipper creator token => do
    let tips ← getTipChannelTips tipper creator token; pure (.tips tips)
  | .registerMetaRelayer admin relayer => do registerMetaRelayer admin relayer; pure .unit
  | .removeMetaRelayer admin relayer => do removeMetaRelayer admin relayer; pure .unit
  | .executeMetaTip relayer request => do
    let id ← executeMetaTip crypto relayer request profile; pure (.u64 id)
  | .getMetaNonce sender => do let n ← MetaTx.getNonce sender; pure (.u64 n)
  | .isMetaRelayer relayer => do let b ← MetaTx.isTrustedRelayer relayer; pure (.bool b)
  | .getMetaRecord id => do let r ← getMetaRecord id; pure (.metaRecord r)

/-- The contract with overflow checks. -/
abbrev program (crypto : Crypto) : Entrypoint → M X Ret := programIn .dev crypto

abbrev Call := Machine.Invocation Entrypoint

abbrev Action (X : Type) := Machine.Action Entrypoint X

abbrev exec (crypto : Crypto) (chain : Chain X) :
    Call → World X → Except (Failure Error) (Ret × World X) :=
  Machine.exec (program crypto) chain

abbrev step (crypto : Crypto) (chain : Chain X) : World X → Action X → World X :=
  Machine.step (program crypto) chain

/-- The occurrence `o` is a successful call `c`. -/
abbrev Succeeds (crypto : Crypto) (chain : Chain X) (o : Occ (World X) (Action X)) (c : Call) :
    Prop :=
  Machine.Succeeds (program crypto) chain o c

end TipJarLegacy
