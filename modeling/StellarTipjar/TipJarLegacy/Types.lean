import StellarTipjar.Soroban.Machine
import StellarTipjar.Soroban.Checked

/-!
# TipJarLegacy — the data model

The part of `contracts/tipjar-legacy/src` that keeps tokens for two parties at a time: the tip
streams (`lib.rs`), the payment channels (`payment_channel.rs`), the tip channels
(`state_channel/mod.rs`) and the meta-transactions (`meta_tx/mod.rs`), with the admin functions and
the pause they depend on. The contract has many more functions. Those that take tips or pay them out
write the creator balances as well; none of them touches a stream, a channel or a record of the
meta-transactions, and none of them is a call of this model.
-/

namespace TipJarLegacy

open Lib Soroban

/-! ## Streams -/

/-- Cancelled and completed streams stay so. -/
inductive StreamStatus where
  | active
  | paused
  | cancelled
  | completed
deriving DecidableEq, Repr

/-- A stream pays `amountPerSecond` from `startTime` to `endTime`; the whole amount is escrowed when
it is created. -/
structure TipStream where
  streamId : UInt64
  sender : Address
  creator : Address
  token : Address
  amountPerSecond : I128
  startTime : UInt64
  endTime : UInt64
  withdrawn : I128
  status : StreamStatus
  createdAt : UInt64
  updatedAt : UInt64
deriving DecidableEq, Repr

/-! ## Payment channels -/

inductive ChannelStatus where
  | opened
  | disputed
  | closed
deriving DecidableEq, Repr

/-- Two deposits and their current split: `balanceA` is the share of party A, the rest is that of
party B. -/
structure PaymentChannel where
  partyA : Address
  partyB : Address
  token : Address
  totalDeposit : I128
  balanceA : I128
  nonce : UInt64
  status : ChannelStatus
  openedAt : UInt64
  disputeStartedAt : UInt64
  disputeWindow : UInt64
  disputer : Option Address
deriving DecidableEq, Repr

/-! ## Tip channels -/

inductive TipChannelStatus where
  | opened
  | disputed
  | settled
deriving DecidableEq, Repr

/-- One recorded tip. The amount is the difference to the cumulative amount before it. -/
structure ChannelTip where
  index : UInt64
  amount : I128
  recordedAt : UInt64
deriving DecidableEq, Repr

/-- A deposit of the tipper, and how much of it is tipped to the creator so far. -/
structure TipStateChannel where
  tipper : Address
  creator : Address
  token : Address
  deposit : I128
  tippedAmount : I128
  nonce : UInt64
  tipCount : UInt64
  status : TipChannelStatus
  openedAt : UInt64
  disputeStartedAt : UInt64
  disputeWindow : UInt64
  disputer : Option Address
deriving DecidableEq, Repr

/-! ## Meta-transactions -/

inductive MetaTipAction where
  | tip
  | openChannel
deriving DecidableEq, Repr

/-- What the sender signs and a relayer submits. `source` and `dest` are `from` and `to`. -/
structure MetaTipRequest where
  source : Address
  dest : Address
  token : Address
  amount : I128
  nonce : UInt64
  validUntil : UInt64
  message : String
  action : MetaTipAction
  signature : BytesN 64
  publicKey : BytesN 32
deriving DecidableEq, Repr

/-- What is kept of an executed request. -/
structure MetaTxRecord where
  id : UInt64
  source : Address
  relayer : Address
  dest : Address
  token : Address
  amount : I128
  nonce : UInt64
  executedAt : UInt64
  action : MetaTipAction
deriving DecidableEq, Repr

/-- What the host computes for the contract: `sha256`, `ed25519_verify` and the XDR bytes of an
address. -/
structure Crypto where
  sha256 : List UInt8 → BytesN 32
  ed25519Verify : BytesN 32 → BytesN 32 → BytesN 64 → Bool
  toXdr : Address → List UInt8

/-! ## Storage -/

/-- The keys under `DataKey.stream`: the records, the lists of both parties, and the counter. -/
inductive StreamKey where
  | record (id : UInt64)
  | creatorStreams (creator : Address)
  | senderStreams (sender : Address)
  | ctr
deriving DecidableEq, Repr

/-- The keys of the modelled functions. -/
inductive DataKey where
  | admin
  | tokenWhitelist (token : Address)
  | paused
  | pauseReason
  | pauseUntil
  | creatorBalance (creator token : Address)
  | creatorTotal (creator token : Address)
  | stream (key : StreamKey)
  | paymentChannel (partyA partyB token : Address)
  | tipChannel (tipper creator token : Address)
  | tipChannelEntry (tipper creator token : Address) (index : UInt64)
  | metaTxNonce (sender : Address)
  | metaTxRelayer (relayer : Address)
  | metaTxNullifier (hash : BytesN 32)
  | metaTxCounter
  | metaTxRecord (id : UInt64)
deriving DecidableEq, Repr

/-- What is stored under each key. -/
abbrev DataKey.Val : DataKey → Type
  | .admin => Address
  | .tokenWhitelist _ => Bool
  | .paused => Bool
  | .pauseReason => String
  | .pauseUntil => UInt64
  | .creatorBalance _ _ => I128
  | .creatorTotal _ _ => I128
  | .stream (.record _) => TipStream
  | .stream (.creatorStreams _) => List UInt64
  | .stream (.senderStreams _) => List UInt64
  | .stream .ctr => UInt64
  | .paymentChannel _ _ _ => PaymentChannel
  | .tipChannel _ _ _ => TipStateChannel
  | .tipChannelEntry _ _ _ _ => ChannelTip
  | .metaTxNonce _ => UInt64
  | .metaTxRelayer _ => Bool
  | .metaTxNullifier _ => Bool
  | .metaTxCounter => UInt64
  | .metaTxRecord _ => MetaTxRecord

/-! ## Events and errors -/

/-- The events, each under the topic in its comment. -/
inductive Event where
  /-- `paused` -/
  | paused (admin : Address) (reason : String)
  /-- `unpaused` -/
  | unpaused (admin : Address)
  /-- `strm_cre` -/
  | streamCreated (id : UInt64) (sender creator : Address) (amountPerSecond : I128)
      (duration : UInt64)
  /-- `strm_sta` -/
  | streamStarted (id : UInt64)
  /-- `strm_sto` -/
  | streamStopped (id : UInt64) (streamedAmount : I128)
  /-- `strm_wit` -/
  | streamWithdrawn (id : UInt64) (amount : I128) (creator : Address)
  /-- `strm_can` -/
  | streamCancelled (id : UInt64) (refundedAmount : I128)
  /-- `ch_open` -/
  | channelOpened (partyA partyB token : Address) (totalDeposit : I128)
  /-- `ch_upd` -/
  | channelUpdated (partyA partyB token : Address) (newBalanceA : I128) (nonce : UInt64)
  /-- `ch_coop` -/
  | channelClosed (partyA partyB token : Address) (balanceA balanceB : I128)
  /-- `ch_disp` -/
  | channelDisputed (caller partyA partyB token : Address) (claimedBalanceA : I128)
      (nonce : UInt64)
  /-- `ch_fin` -/
  | channelFinalised (partyA partyB token : Address) (balanceA balanceB : I128)
  /-- `tch_open` -/
  | tipChannelOpened (tipper creator token : Address) (deposit : I128)
  /-- `tch_tip` -/
  | channelTipped (tipper creator token : Address) (tipAmount : I128) (nonce : UInt64)
  /-- `tch_setl` -/
  | tipChannelSettled (tipper creator token : Address) (toCreator toTipper : I128)
  /-- `tch_disp` -/
  | tipChannelDisputed (caller tipper creator token : Address) (claimedTippedAmount : I128)
      (nonce : UInt64)
  /-- `tch_fin` -/
  | tipChannelFinalised (tipper creator token : Address) (toCreator toTipper : I128)
  /-- `mtx_reg` -/
  | relayerRegistered (relayer : Address)
  /-- `mtx_rem` -/
  | relayerRemoved (relayer : Address)
  /-- `tip` -/
  | tipped (sender creator token : Address) (amount : I128)
  /-- `mtx_exec` -/
  | metaExecuted (id : UInt64) (sender relayer creator : Address) (amount : I128)
      (nonce : UInt64)
deriving DecidableEq, Repr

inductive TipJarError where
  | alreadyInitialized
  | tokenNotWhitelisted
  | invalidAmount
  | unauthorized
  | contractPaused
deriving DecidableEq, Repr

inductive InsuranceError where
  | invalidStreamRate
  | streamAlreadyCancelled
  | streamAlreadyCompleted
  | streamNotFound
  | streamNotStarted
deriving DecidableEq, Repr

inductive AuctionError where
  | noStreamedAmount
  | strmRateMax
deriving DecidableEq, Repr

inductive ChannelError where
  | channelNotFound
  | channelNotOpen
  | staleNonce
  | notChannelParty
  | invalidChannelBalance
  | invalidDeposit
  | invalidDisputeWindow
deriving DecidableEq, Repr

inductive TipChannelError where
  | channelNotFound
  | channelNotOpen
  | staleNonce
  | notChannelParty
  | invalidDeposit
  | invalidDisputeWindow
  | exceedsDeposit
  | tippedAmountDecreased
  | alreadySettled
deriving DecidableEq, Repr

inductive MetaTxError where
  | invalidAmount
  | tokenNotWhitelisted
  | relayerAlreadyRegistered
  | relayerNotFound
deriving DecidableEq, Repr

/-- An error of any of the contract's error types. -/
inductive Error where
  | tipJar (e : TipJarError)
  | insurance (e : InsuranceError)
  | auction (e : AuctionError)
  | channel (e : ChannelError)
  | tipChannel (e : TipChannelError)
  | metaTx (e : MetaTxError)
deriving DecidableEq, Repr

/-- The state a call of the contract works on. -/
abbrev World (X : Type) := Env DataKey DataKey.Val Event X

/-- A program of the contract. -/
abbrev M (X : Type) := Contract DataKey DataKey.Val Event Error X

end TipJarLegacy
