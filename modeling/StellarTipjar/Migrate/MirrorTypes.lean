import StellarTipjar.Lib.Serde
import StellarTipjar.Migrate.Checksum

/-!
# Migration toolkit — the mirror types

The records of the contract are declared twice: in `contracts/tipjar-legacy/src/lib.rs`, and as
mirror types in `scripts/migrate/types.rs`. The readers and writers of `rpc_client.rs` go through
the mirror types, so a field that only the contract declares is dropped without an error.
`carried_iff` says which records are copied whole.
-/

namespace Migrate

open Lib Serde

/-! ## The records of the contract

Addresses are texts. How an enumeration is printed is up to the tool that prints it. -/

namespace OnChain

structure TipMetadata where
  sender : String
  amount : I128
  message : Option String
  timestamp : UInt64
deriving DecidableEq

structure LeaderboardEntry where
  address : String
  totalAmount : I128
  tipCount : UInt32
deriving DecidableEq

inductive SubscriptionTier where
  | none
  | bronze
  | silver
  | gold
deriving DecidableEq

structure Subscription where
  subscriber : String
  creator : String
  token : String
  amount : I128
  intervalSeconds : UInt64
  lastPayment : UInt64
  nextPayment : UInt64
  status : SubscriptionStatus
  tier : SubscriptionTier
  pendingTier : SubscriptionTier
deriving DecidableEq

structure TimeLock where
  sender : String
  creator : String
  token : String
  amount : I128
  unlockTime : UInt64
  createdAt : UInt64
  expiresAt : UInt64
  cancelled : Bool
deriving DecidableEq

structure MatchingProgram where
  id : UInt64
  sponsor : String
  creator : String
  token : String
  matchRatio : UInt32
  maxMatchAmount : I128
  currentMatched : I128
  active : Bool
deriving DecidableEq

structure TipRecord where
  id : UInt64
  sender : String
  creator : String
  token : String
  amount : I128
  timestamp : UInt64
  refunded : Bool
  refundRequested : Bool
  refundApproved : Bool
deriving DecidableEq

structure LockedTip where
  sender : String
  creator : String
  token : String
  amount : I128
  unlockTimestamp : UInt64
deriving DecidableEq

end OnChain

/-- A record of the contract. The two that do not hold their id come with the one they are read
under. -/
inductive Record where
  | tipMetadata (r : OnChain.TipMetadata)
  | leaderboardEntry (r : OnChain.LeaderboardEntry)
  | subscription (r : OnChain.Subscription)
  | timeLock (lockId : UInt64) (r : OnChain.TimeLock)
  | matchingProgram (r : OnChain.MatchingProgram)
  | tipRecord (r : OnChain.TipRecord)
  | lockedTip (tipId : UInt64) (r : OnChain.LockedTip)
deriving DecidableEq

/-- The tool's way to print the enumerations of the contract. -/
structure EnumDocs where
  status : SubscriptionStatus → Doc
  tier : OnChain.SubscriptionTier → Doc

/-- One member per declared field. -/
def Record.members (docs : EnumDocs) : Record → List (String × Doc)
  | .tipMetadata r =>
    [("sender", .string r.sender), ("amount", i128Doc r.amount),
      ("message", optionDoc .string r.message), ("timestamp", u64Doc r.timestamp)]
  | .leaderboardEntry r =>
    [("address", .string r.address), ("total_amount", i128Doc r.totalAmount),
      ("tip_count", u32Doc r.tipCount)]
  | .subscription r =>
    [("subscriber", .string r.subscriber), ("creator", .string r.creator),
      ("token", .string r.token), ("amount", i128Doc r.amount),
      ("interval_seconds", u64Doc r.intervalSeconds), ("last_payment", u64Doc r.lastPayment),
      ("next_payment", u64Doc r.nextPayment), ("status", docs.status r.status),
      ("tier", docs.tier r.tier), ("pending_tier", docs.tier r.pendingTier)]
  | .timeLock _ r =>
    [("sender", .string r.sender), ("creator", .string r.creator), ("token", .string r.token),
      ("amount", i128Doc r.amount), ("unlock_time", u64Doc r.unlockTime),
      ("created_at", u64Doc r.createdAt), ("expires_at", u64Doc r.expiresAt),
      ("cancelled", .bool r.cancelled)]
  | .matchingProgram r =>
    [("id", u64Doc r.id), ("sponsor", .string r.sponsor), ("creator", .string r.creator),
      ("token", .string r.token), ("match_ratio", u32Doc r.matchRatio),
      ("max_match_amount", i128Doc r.maxMatchAmount),
      ("current_matched", i128Doc r.currentMatched), ("active", .bool r.active)]
  | .tipRecord r =>
    [("id", u64Doc r.id), ("sender", .string r.sender), ("creator", .string r.creator),
      ("token", .string r.token), ("amount", i128Doc r.amount), ("timestamp", u64Doc r.timestamp),
      ("refunded", .bool r.refunded), ("refund_requested", .bool r.refundRequested),
      ("refund_approved", .bool r.refundApproved)]
  | .lockedTip _ r =>
    [("sender", .string r.sender), ("creator", .string r.creator), ("token", .string r.token),
      ("amount", i128Doc r.amount), ("unlock_timestamp", u64Doc r.unlockTimestamp)]

/-! ## The mirror types, read -/

/-- One line per declared field, with the reader of its type; `serde` ignores the other members. -/
def TipMetadata.read (members : Members) : Option TipMetadata := do
  let sender ← field "sender" readString members
  let amount ← field "amount" readI128 members
  let message ← optionField "message" readString members
  let timestamp ← field "timestamp" readU64 members
  pure { sender, amount, message, timestamp }

def LeaderboardEntry.read (members : Members) : Option LeaderboardEntry := do
  let address ← field "address" readString members
  let totalAmount ← field "total_amount" readI128 members
  let tipCount ← field "tip_count" readU32 members
  pure { address, totalAmount, tipCount }

/-- The variants are renamed to snake case. -/
def readStatus : Scalar → Option SubscriptionStatus
  | .string s =>
    if s = "active" then some .active
    else if s = "paused" then some .paused
    else if s = "cancelled" then some .cancelled
    else none
  | _ => none

/-- The mirror lacks the two tiers. -/
def Subscription.read (members : Members) : Option Subscription := do
  let subscriber ← field "subscriber" readString members
  let creator ← field "creator" readString members
  let token ← field "token" readString members
  let amount ← field "amount" readI128 members
  let intervalSeconds ← field "interval_seconds" readU64 members
  let lastPayment ← field "last_payment" readU64 members
  let nextPayment ← field "next_payment" readU64 members
  let status ← field "status" readStatus members
  pure { subscriber, creator, token, amount, intervalSeconds, lastPayment, nextPayment, status }

/-- The mirror has `lock_id` besides the fields of the contract, and lacks `created_at` and
`expires_at`. -/
def TimeLock.read (members : Members) : Option TimeLock := do
  let lockId ← field "lock_id" readU64 members
  let sender ← field "sender" readString members
  let creator ← field "creator" readString members
  let token ← field "token" readString members
  let amount ← field "amount" readI128 members
  let unlockTime ← field "unlock_time" readU64 members
  let cancelled ← field "cancelled" readBool members
  pure { lockId, sender, creator, token, amount, unlockTime, cancelled }

/-- A mirror with every field of the contract. -/
def MatchingProgram.read (members : Members) : Option MatchingProgram := do
  let id ← field "id" readU64 members
  let sponsor ← field "sponsor" readString members
  let creator ← field "creator" readString members
  let token ← field "token" readString members
  let matchRatio ← field "match_ratio" readU32 members
  let maxMatchAmount ← field "max_match_amount" readI128 members
  let currentMatched ← field "current_matched" readI128 members
  let active ← field "active" readBool members
  pure { id, sponsor, creator, token, matchRatio, maxMatchAmount, currentMatched, active }

/-- A mirror with every field of the contract. -/
def TipRecord.read (members : Members) : Option TipRecord := do
  let id ← field "id" readU64 members
  let sender ← field "sender" readString members
  let creator ← field "creator" readString members
  let token ← field "token" readString members
  let amount ← field "amount" readI128 members
  let timestamp ← field "timestamp" readU64 members
  let refunded ← field "refunded" readBool members
  let refundRequested ← field "refund_requested" readBool members
  let refundApproved ← field "refund_approved" readBool members
  pure { id, sender, creator, token, amount, timestamp, refunded, refundRequested, refundApproved }

/-- The mirror has `tip_id` besides the fields of the contract. -/
def LockedTip.read (members : Members) : Option LockedTip := do
  let tipId ← field "tip_id" readU64 members
  let sender ← field "sender" readString members
  let creator ← field "creator" readString members
  let token ← field "token" readString members
  let amount ← field "amount" readI128 members
  let unlockTimestamp ← field "unlock_timestamp" readU64 members
  pure { tipId, sender, creator, token, amount, unlockTimestamp }

@[simp] theorem scalar_i128Doc (n : I128) : (i128Doc n).scalar = .int n.val := rfl

@[simp] theorem scalar_u64Doc (n : UInt64) : (u64Doc n).scalar = .int n.toNat := rfl

@[simp] theorem scalar_u32Doc (n : UInt32) : (u32Doc n).scalar = .int n.toNat := rfl

@[simp] theorem readStatus_toDoc (status : SubscriptionStatus) :
    readStatus status.toDoc.scalar = some status := by
  cases status <;> rfl

/-! ### A mirror type reads what it writes

Whatever other members there are, and in any order. -/

/-- An optional text is read back, also where it is printed as `null`. -/
theorem optionField_text {members : Members} {name : String} {o : Option String}
    (hnodup : (members.map Prod.fst).Nodup) (h : (name, (optionDoc .string o).scalar) ∈ members) :
    optionField name readString members = some o := by
  rw [optionField_eq hnodup h]
  cases o <;> rfl

theorem TipMetadata.readsAs (t : TipMetadata) : ReadsAs TipMetadata.read t t.toDoc.entries := by
  intro members hnodup h
  simp only [TipMetadata.toDoc, Doc.entries, List.forall_mem_cons, scalarMember] at h
  obtain ⟨hsender, hamount, hmessage, htimestamp, -⟩ := h
  simp [TipMetadata.read, field_eq hnodup hsender, field_eq hnodup hamount,
    optionField_text hnodup hmessage, field_eq hnodup htimestamp]

theorem LeaderboardEntry.readsAs (t : LeaderboardEntry) : ReadsAs LeaderboardEntry.read t t.toDoc.entries := by
  intro members hnodup h
  simp only [LeaderboardEntry.toDoc, Doc.entries, List.forall_mem_cons, scalarMember] at h
  obtain ⟨haddress, htotal, hcount, -⟩ := h
  simp [LeaderboardEntry.read, field_eq hnodup haddress, field_eq hnodup htotal,
    field_eq hnodup hcount]

theorem Subscription.readsAs (t : Subscription) : ReadsAs Subscription.read t t.toDoc.entries := by
  intro members hnodup h
  simp only [Subscription.toDoc, Doc.entries, List.forall_mem_cons, scalarMember] at h
  obtain ⟨hsubscriber, hcreator, htoken, hamount, hinterval, hlast, hnext, hstatus, -⟩ := h
  simp [Subscription.read, field_eq hnodup hsubscriber, field_eq hnodup hcreator,
    field_eq hnodup htoken, field_eq hnodup hamount, field_eq hnodup hinterval,
    field_eq hnodup hlast, field_eq hnodup hnext, field_eq hnodup hstatus]

theorem MatchingProgram.readsAs (t : MatchingProgram) : ReadsAs MatchingProgram.read t t.toDoc.entries := by
  intro members hnodup h
  simp only [MatchingProgram.toDoc, Doc.entries, List.forall_mem_cons, scalarMember] at h
  obtain ⟨hid, hsponsor, hcreator, htoken, hratio, hmax, hcurrent, hactive, -⟩ := h
  simp [MatchingProgram.read, field_eq hnodup hid, field_eq hnodup hsponsor,
    field_eq hnodup hcreator, field_eq hnodup htoken, field_eq hnodup hratio, field_eq hnodup hmax,
    field_eq hnodup hcurrent, field_eq hnodup hactive]

theorem TipRecord.readsAs (t : TipRecord) : ReadsAs TipRecord.read t t.toDoc.entries := by
  intro members hnodup h
  simp only [TipRecord.toDoc, Doc.entries, List.forall_mem_cons, scalarMember] at h
  obtain ⟨hid, hsender, hcreator, htoken, hamount, htimestamp, hrefunded, hrequested, happroved, -⟩ := h
  simp [TipRecord.read, field_eq hnodup hid, field_eq hnodup hsender, field_eq hnodup hcreator,
    field_eq hnodup htoken, field_eq hnodup hamount, field_eq hnodup htimestamp,
    field_eq hnodup hrefunded, field_eq hnodup hrequested, field_eq hnodup happroved]

theorem LockedTip.readsAs (t : LockedTip) : ReadsAs LockedTip.read t t.toDoc.entries := by
  intro members hnodup h
  simp only [LockedTip.toDoc, Doc.entries, List.forall_mem_cons, scalarMember] at h
  obtain ⟨hid, hsender, hcreator, htoken, hamount, hunlock, -⟩ := h
  simp [LockedTip.read, field_eq hnodup hid, field_eq hnodup hsender, field_eq hnodup hcreator,
    field_eq hnodup htoken, field_eq hnodup hamount, field_eq hnodup hunlock]

/-! ## The readers -/

section Readers

variable {α : Type}

/-- What a reader makes of the answer of `get_storage_json`. A call that fails and an answer that is
empty or null are no record; an error has this text before the one of the deserializer. -/
def readStored (error : String) (read : Doc → Option α) : Option Doc → Except String (Option α)
  | none => .ok none
  | some .null => .ok none
  | some doc =>
    match read doc with
    | some a => .ok (some a)
    | none => .error error

/-- `serde_json::from_str` into the record. -/
def fromStr (read : Members → Option α) (doc : Doc) : Option α := doc.members.bind read

/-- `serde_json::from_str` into a value, which gets the id as a member, and `from_value`. -/
def fromValueWith (name : String) (id : UInt64) (read : Members → Option α) (doc : Doc) :
    Option α :=
  doc.members.bind fun members => read (members.asMap.insert name (.int id.toNat))

end Readers

def getPersistentTipMetadata (key : String) : Option Doc → Except String (Option TipMetadata) :=
  readStored ("TipMetadata parse error for key " ++ key ++ ": ") (fromStr TipMetadata.read)

def getPersistentLeaderboardEntry (key : String) :
    Option Doc → Except String (Option LeaderboardEntry) :=
  readStored ("LeaderboardEntry parse error for key " ++ key ++ ": ") (fromStr LeaderboardEntry.read)

def getPersistentSubscription (key : String) : Option Doc → Except String (Option Subscription) :=
  readStored ("Subscription parse error for key " ++ key ++ ": ") (fromStr Subscription.read)

-- the contract does not store the id with the lock
def getPersistentTimeLock (lockId : UInt64) : Option Doc → Except String (Option TimeLock) :=
  readStored "TimeLock deserialise error: " (fromValueWith "lock_id" lockId TimeLock.read)

def getPersistentMatchingProgram (key : String) :
    Option Doc → Except String (Option MatchingProgram) :=
  readStored ("MatchingProgram parse error for key " ++ key ++ ": ") (fromStr MatchingProgram.read)

def getPersistentTipRecord (key : String) : Option Doc → Except String (Option TipRecord) :=
  readStored ("TipRecord parse error for key " ++ key ++ ": ") (fromStr TipRecord.read)

def getPersistentLockedTip (tipId : UInt64) : Option Doc → Except String (Option LockedTip) :=
  readStored "LockedTip deserialise error: " (fromValueWith "tip_id" tipId LockedTip.read)

/-! ## A copy -/

/-- What a reader has to be told of a record. -/
inductive Kind where
  | tipMetadata
  | leaderboardEntry
  | subscription
  | timeLock (lockId : UInt64)
  | matchingProgram
  | tipRecord
  | lockedTip (tipId : UInt64)
deriving DecidableEq

/-- The reader that is used for the record. -/
def Record.kind : Record → Kind
  | .tipMetadata _ => .tipMetadata
  | .leaderboardEntry _ => .leaderboardEntry
  | .subscription _ => .subscription
  | .timeLock lockId _ => .timeLock lockId
  | .matchingProgram _ => .matchingProgram
  | .tipRecord _ => .tipRecord
  | .lockedTip tipId _ => .lockedTip tipId

/-- The member a reader adds. -/
def Kind.injected : Kind → List (String × Doc)
  | .timeLock lockId => [("lock_id", u64Doc lockId)]
  | .lockedTip tipId => [("tip_id", u64Doc tipId)]
  | _ => []

section Copy

variable {α : Type}

/-- A record is read, written to the snapshot file, read from it and sent by its writer. -/
def through (stored : Except String (Option α)) (read : Members → Option α) (write : α → Doc) :
    Except String (Option Doc) :=
  match stored with
  | .error e => .error e
  | .ok none => .ok none
  | .ok (some a) =>
    match fromStr read (write a) with
    | some b => .ok (some (write b))
    | none => .error "Snapshot parse error: "

/-- What the writer of a kind sends for the object that is stored under a key. -/
def Kind.copy (key : String) (doc : Doc) : Kind → Except String (Option Doc)
  | .tipMetadata =>
    through (getPersistentTipMetadata key (some doc)) TipMetadata.read TipMetadata.toDoc
  | .leaderboardEntry =>
    through (getPersistentLeaderboardEntry key (some doc)) LeaderboardEntry.read
      LeaderboardEntry.toDoc
  | .subscription =>
    through (getPersistentSubscription key (some doc)) Subscription.read Subscription.toDoc
  | .timeLock lockId => through (getPersistentTimeLock lockId (some doc)) TimeLock.read TimeLock.toDoc
  | .matchingProgram =>
    through (getPersistentMatchingProgram key (some doc)) MatchingProgram.read MatchingProgram.toDoc
  | .tipRecord => through (getPersistentTipRecord key (some doc)) TipRecord.read TipRecord.toDoc
  | .lockedTip tipId =>
    through (getPersistentLockedTip tipId (some doc)) LockedTip.read LockedTip.toDoc

/-- What is sent has been written by the mirror type. -/
theorem through_ok {stored : Except String (Option α)} {read : Members → Option α}
    {write : α → Doc} {sent : Doc} (h : through stored read write = .ok (some sent)) :
    ∃ a, sent = write a := by
  unfold through at h
  split at h
  · cases h
  · cases h
  · split at h
    · rename_i b _
      cases h
      exact ⟨b, rfl⟩
    · cases h

variable {read : Members → Option α} {t : α} {own entries : List (String × Doc)}

/-- An object that has all members of `t` is read as `t`. -/
theorem fromStr_eq (hread : ReadsAs read t own) (hnodup : (entries.map Prod.fst).Nodup)
    (hsub : ∀ e ∈ own, e ∈ entries) :
    fromStr read (.object entries) = some t := by
  refine hread (entries.map scalarMember) ?_ fun e he => List.mem_map_of_mem (hsub e he)
  rw [List.map_map]
  exact hnodup

/-- The members of the value, with the id at their end. -/
theorem value_members {name : String} (hnodup : (entries.map Prod.fst).Nodup)
    (hname : name ∉ entries.map Prod.fst) (v : Scalar) :
    (Members.asMap (entries.map scalarMember)).insert name v
      = entries.map (fun e => (e.1, e.2.scalar.asValue)) ++ [(name, v)] := by
  have hkeys : ((entries.map scalarMember).map Prod.fst).Nodup := by
    rw [List.map_map]
    exact hnodup
  have hmap : Members.asMap (entries.map scalarMember)
      = entries.map fun e => (e.1, e.2.scalar.asValue) := by
    rw [Members.asMap_eq hkeys, List.map_map]
    rfl
  rw [hmap, Members.insert_of_not_mem]
  rw [List.map_map]
  exact hname

/-- The member the reader adds does not collide with one that is there. -/
theorem value_members_nodup {name : String} (hnodup : (entries.map Prod.fst).Nodup)
    (hname : name ∉ entries.map Prod.fst) (v : Scalar) :
    ((entries.map (fun e => (e.1, e.2.scalar.asValue)) ++ [(name, v)]).map Prod.fst).Nodup := by
  rw [List.map_append, List.map_map]
  refine List.nodup_append.mpr ⟨hnodup, List.nodup_singleton _, ?_⟩
  intro a ha b hb hsame
  obtain rfl : b = name := List.mem_singleton.mp hb
  exact hname (hsame ▸ ha)

/-- On the way through a value an integer must not leave 64 bits. -/
theorem fromValueWith_eq {name : String} {id : UInt64} (hread : ReadsAs read t own)
    (hnodup : (entries.map Prod.fst).Nodup) (hname : name ∉ entries.map Prod.fst)
    (hsub : ∀ e ∈ own, e = (name, u64Doc id) ∨
      e ∈ entries ∧ e.2.scalar.asValue = e.2.scalar) :
    fromValueWith name id read (.object entries) = some t := by
  show read ((Members.asMap (entries.map scalarMember)).insert name (.int id.toNat)) = some t
  rw [value_members hnodup hname]
  refine hread _ (value_members_nodup hnodup hname _) ?_
  intro e he
  rcases hsub e he with rfl | ⟨hmem, hkept⟩
  · exact List.mem_append_right _ (List.mem_singleton_self _)
  · refine List.mem_append_left _ (List.mem_map.mpr ⟨e, hmem, ?_⟩)
    rw [hkept]
    rfl

variable {write : α → Doc}

/-- A record that is read as `t` comes back from the snapshot file as `t`. -/
theorem through_eq {stored : Except String (Option α)} (hstored : stored = .ok (some t))
    (hobject : write t = .object (write t).entries) (hread : ReadsAs read t (write t).entries)
    (hown : ((write t).entries.map Prod.fst).Nodup) :
    through stored read write = .ok (some (write t)) := by
  have hfile : fromStr read (write t) = some t := by
    rw [hobject]
    exact fromStr_eq hread hown fun e he => he
  rw [hstored]
  simp only [through, hfile]

/-- A record that is read at once. -/
theorem copy_direct {error : String} (hobject : write t = .object (write t).entries)
    (hread : ReadsAs read t (write t).entries) (hown : ((write t).entries.map Prod.fst).Nodup)
    (hperm : entries.Perm (write t).entries) :
    through (readStored error (fromStr read) (some (.object entries))) read write
      = .ok (some (write t)) := by
  refine through_eq ?_ hobject hread hown
  have hentries : fromStr read (.object entries) = some t :=
    fromStr_eq hread ((hperm.map Prod.fst).nodup_iff.mpr hown) fun e he => hperm.mem_iff.mpr he
  simp only [readStored, hentries]

/-- A record that is read by way of a value. -/
theorem copy_value {error name : String} {id : UInt64}
    (hobject : write t = .object (write t).entries) (hread : ReadsAs read t (write t).entries)
    (hown : ((write t).entries.map Prod.fst).Nodup) (hnodup : (entries.map Prod.fst).Nodup)
    (hname : name ∉ entries.map Prod.fst)
    (hsub : ∀ e ∈ (write t).entries, e = (name, u64Doc id) ∨
      e ∈ entries ∧ e.2.scalar.asValue = e.2.scalar) :
    through (readStored error (fromValueWith name id read) (some (.object entries))) read write
      = .ok (some (write t)) := by
  refine through_eq ?_ hobject hread hown
  have hentries : fromValueWith name id read (.object entries) = some t :=
    fromValueWith_eq hread hnodup hname hsub
  simp only [readStored, hentries]

end Copy

/-! ## Which records are carried -/

/-- In whatever order the object of the record lists its members: it is read, and what is sent has
all of them, and no others but the injected one. -/
def Carried (docs : EnumDocs) (key : String) (r : Record) : Prop :=
  ∀ entries, entries.Perm (r.members docs) →
    ∃ sent, r.kind.copy key (.object entries) = .ok (some (.object sent)) ∧
      (∀ e ∈ r.members docs, e ∈ sent) ∧ ∀ e ∈ sent, e ∈ r.members docs ∨ e ∈ r.kind.injected

/-- The mirror type declares all fields of the record, and, where a value is in between, its amount
has 64 bits. -/
def Record.Mirrored : Record → Prop
  | .subscription _ => False
  | .timeLock _ _ => False
  | .lockedTip _ r => -2 ^ 63 ≤ r.amount.val ∧ r.amount.val < 2 ^ 64
  | _ => True

section Carried

variable {docs : EnumDocs} {key : String} {entries : List (String × Doc)}

theorem keys_nodup (docs : EnumDocs) (r : Record) : ((r.members docs).map Prod.fst).Nodup := by
  cases r <;> simp [Record.members]

/-- However the tool orders the members, no name comes twice. -/
theorem entries_nodup {r : Record} (hperm : entries.Perm (r.members docs)) :
    (entries.map Prod.fst).Nodup :=
  (hperm.map Prod.fst).nodup_iff.mpr (keys_nodup docs r)

/-- An integer of 64 bits is kept by a value. -/
theorem asValue_int {n : Int} (hlo : -2 ^ 63 ≤ n) (hhi : n < 2 ^ 64) :
    (Scalar.int n).asValue = .int n := by
  rw [Scalar.asValue, if_pos ⟨hlo, hhi⟩]

theorem asValue_u64 (n : UInt64) : (u64Doc n).scalar.asValue = (u64Doc n).scalar := by
  have hlt := n.toNat_lt
  exact asValue_int (by omega) (by omega)

section LockedTips

variable {tipId : UInt64} {r : OnChain.LockedTip}
  (hperm : entries.Perm ((Record.lockedTip tipId r).members docs))
include hperm

/-- The contract does not store the id in the record. -/
theorem lockedTip_tipId : "tip_id" ∉ entries.map Prod.fst := by
  rw [(hperm.map Prod.fst).mem_iff]
  simp [Record.members]

/-- A locked tip is copied whole when a JSON value can hold its amount. -/
theorem copy_lockedTip (hlo : -2 ^ 63 ≤ r.amount.val) (hhi : r.amount.val < 2 ^ 64) :
    Kind.copy key (.object entries) (.lockedTip tipId)
      = .ok (some (.object (("tip_id", u64Doc tipId) :: (Record.lockedTip tipId r).members docs))) := by
  let t : LockedTip := ⟨tipId, r.sender, r.creator, r.token, r.amount, r.unlockTimestamp⟩
  have hsub : ∀ e ∈ t.toDoc.entries, e = ("tip_id", u64Doc tipId) ∨
      e ∈ entries ∧ e.2.scalar.asValue = e.2.scalar := by
    intro e he
    rcases List.mem_cons.mp he with rfl | he
    · exact .inl rfl
    · refine .inr ⟨hperm.mem_iff.mpr he, ?_⟩
      -- the texts stay, the amount is in range and the time has 64 bits
      simp only [List.mem_cons, List.not_mem_nil, or_false] at he
      rcases he with rfl | rfl | rfl | rfl | rfl
      · rfl
      · rfl
      · rfl
      · exact asValue_int hlo hhi
      · exact asValue_u64 r.unlockTimestamp
  have hown : (t.toDoc.entries.map Prod.fst).Nodup := by simp [LockedTip.toDoc, Doc.entries]
  show through (getPersistentLockedTip tipId _) LockedTip.read LockedTip.toDoc = .ok (some t.toDoc)
  exact copy_value rfl t.readsAs hown (entries_nodup hperm) (lockedTip_tipId hperm) hsub

/-- A larger amount becomes a float, which is no amount. -/
theorem copy_lockedTip_error (hlarge : ¬(-2 ^ 63 ≤ r.amount.val ∧ r.amount.val < 2 ^ 64)) :
    Kind.copy key (.object entries) (.lockedTip tipId) = .error "LockedTip deserialise error: " := by
  have hnone : fromValueWith "tip_id" tipId LockedTip.read (.object entries) = none := by
    show LockedTip.read ((Members.asMap (entries.map scalarMember)).insert "tip_id" _) = none
    rw [value_members (entries_nodup hperm) (lockedTip_tipId hperm)]
    have hamount : ("amount", Scalar.float) ∈ entries.map (fun e => (e.1, e.2.scalar.asValue))
        ++ [("tip_id", Scalar.int tipId.toNat)] := by
      refine List.mem_append_left _ (List.mem_map.mpr ⟨("amount", i128Doc r.amount), ?_, ?_⟩)
      · rw [hperm.mem_iff]
        simp [Record.members]
      · rw [scalar_i128Doc, Scalar.asValue, if_neg hlarge]
    have hfield : field "amount" readI128 (entries.map (fun e => (e.1, e.2.scalar.asValue))
        ++ [("tip_id", Scalar.int tipId.toNat)]) = none :=
      field_eq (value_members_nodup (entries_nodup hperm) (lockedTip_tipId hperm) _) hamount
    simp [LockedTip.read, hfield]
  simp only [Kind.copy, getPersistentLockedTip, readStored, hnone, through]

end LockedTips

/-- A record that is mirrored is sent as it is, with the injected member in front. -/
theorem copy_of_mirrored {r : Record} (h : r.Mirrored) (hperm : entries.Perm (r.members docs)) :
    r.kind.copy key (.object entries)
      = .ok (some (.object (r.kind.injected ++ r.members docs))) := by
  cases r with
  | tipMetadata r =>
    let t : TipMetadata := ⟨r.sender, r.amount, r.message, r.timestamp⟩
    show through (getPersistentTipMetadata key _) TipMetadata.read TipMetadata.toDoc
      = .ok (some t.toDoc)
    exact copy_direct rfl t.readsAs (keys_nodup docs (.tipMetadata r)) hperm
  | leaderboardEntry r =>
    let t : LeaderboardEntry := ⟨r.address, r.totalAmount, r.tipCount⟩
    show through (getPersistentLeaderboardEntry key _) LeaderboardEntry.read LeaderboardEntry.toDoc
      = .ok (some t.toDoc)
    exact copy_direct rfl t.readsAs (keys_nodup docs (.leaderboardEntry r)) hperm
  | subscription r => cases h
  | timeLock lockId r => cases h
  | matchingProgram r =>
    let t : MatchingProgram := ⟨r.id, r.sponsor, r.creator, r.token, r.matchRatio, r.maxMatchAmount,
      r.currentMatched, r.active⟩
    show through (getPersistentMatchingProgram key _) MatchingProgram.read MatchingProgram.toDoc
      = .ok (some t.toDoc)
    exact copy_direct rfl t.readsAs (keys_nodup docs (.matchingProgram r)) hperm
  | tipRecord r =>
    let t : TipRecord := ⟨r.id, r.sender, r.creator, r.token, r.amount, r.timestamp, r.refunded,
      r.refundRequested, r.refundApproved⟩
    show through (getPersistentTipRecord key _) TipRecord.read TipRecord.toDoc = .ok (some t.toDoc)
    exact copy_direct rfl t.readsAs (keys_nodup docs (.tipRecord r)) hperm
  | lockedTip tipId r => exact copy_lockedTip hperm h.1 h.2

/-- What has a mirror for every field is carried. -/
theorem Carried.of_mirrored {r : Record} (h : r.Mirrored) : Carried docs key r := by
  intro entries hperm
  refine ⟨_, copy_of_mirrored h hperm, fun e he => List.mem_append_right _ he, fun e he => ?_⟩
  exact (List.mem_append.mp he).symm

/-- Whatever is sent for a subscription is a mirror record. -/
theorem copy_subscription_ok {doc sent : Doc}
    (h : Kind.copy key doc .subscription = .ok (some sent)) : ∃ t : Subscription, sent = t.toDoc := by
  simp only [Kind.copy] at h
  exact through_ok h

theorem copy_timeLock_ok {doc sent : Doc} {lockId : UInt64}
    (h : Kind.copy key doc (.timeLock lockId) = .ok (some sent)) : ∃ t : TimeLock, sent = t.toDoc := by
  simp only [Kind.copy] at h
  exact through_ok h

/-- A field that the mirror type does not declare is not sent. -/
theorem Carried.mirrored {r : Record} (h : Carried docs key r) : r.Mirrored := by
  obtain ⟨sent, hcopy, hall, -⟩ := h (r.members docs) (List.Perm.refl _)
  cases r with
  | tipMetadata r => trivial
  | leaderboardEntry r => trivial
  | matchingProgram r => trivial
  | tipRecord r => trivial
  | subscription r =>
    rw [show (Record.subscription r).kind = .subscription from rfl] at hcopy
    obtain ⟨t, ht⟩ := copy_subscription_ok hcopy
    have hsent : sent = t.toDoc.entries := congrArg Doc.entries ht
    have htier := hall ("tier", docs.tier r.tier) (by simp [Record.members])
    rw [hsent] at htier
    simp [Subscription.toDoc, Doc.entries] at htier
  | timeLock lockId r =>
    rw [show (Record.timeLock lockId r).kind = .timeLock lockId from rfl] at hcopy
    obtain ⟨t, ht⟩ := copy_timeLock_ok hcopy
    have hsent : sent = t.toDoc.entries := congrArg Doc.entries ht
    have hcreated := hall ("created_at", u64Doc r.createdAt) (by simp [Record.members])
    rw [hsent] at hcreated
    simp [TimeLock.toDoc, Doc.entries] at hcreated
  | lockedTip tipId r =>
    by_contra hlarge
    rw [show (Record.lockedTip tipId r).kind = .lockedTip tipId from rfl,
      copy_lockedTip_error (List.Perm.refl _) hlarge] at hcopy
    cases hcopy

/-- The members of a record that is mirrored are its fields. -/
theorem members_inj {r₁ r₂ : Record} (hkind : r₁.kind = r₂.kind) (h : r₁.Mirrored)
    (hmembers : r₁.members docs = r₂.members docs) : r₁ = r₂ := by
  cases r₁ with
  | tipMetadata a =>
    cases r₂ with
    | tipMetadata b =>
      obtain ⟨_, _, _, _⟩ := a
      obtain ⟨_, _, _, _⟩ := b
      simpa [Record.members, optionText_inj] using hmembers
    | _ => cases hkind
  | leaderboardEntry a =>
    cases r₂ with
    | leaderboardEntry b =>
      obtain ⟨_, _, _⟩ := a
      obtain ⟨_, _, _⟩ := b
      simpa [Record.members] using hmembers
    | _ => cases hkind
  | subscription a => cases h
  | timeLock lockId a => cases h
  | matchingProgram a =>
    cases r₂ with
    | matchingProgram b =>
      obtain ⟨_, _, _, _, _, _, _, _⟩ := a
      obtain ⟨_, _, _, _, _, _, _, _⟩ := b
      simpa [Record.members] using hmembers
    | _ => cases hkind
  | tipRecord a =>
    cases r₂ with
    | tipRecord b =>
      obtain ⟨_, _, _, _, _, _, _, _, _⟩ := a
      obtain ⟨_, _, _, _, _, _, _, _, _⟩ := b
      simpa [Record.members] using hmembers
    | _ => cases hkind
  | lockedTip tipId a =>
    cases r₂ with
    | lockedTip tipId' b =>
      obtain rfl := Kind.lockedTip.inj hkind
      obtain ⟨_, _, _, _, _⟩ := a
      obtain ⟨_, _, _, _, _⟩ := b
      simpa [Record.members] using hmembers
    | _ => cases hkind

/-- A subscription is read when its status is printed as the mirror type expects it, and loses its
tiers. -/
theorem copy_subscription {r : OnChain.Subscription} (hstatus : docs.status = SubscriptionStatus.toDoc)
    (hperm : entries.Perm ((Record.subscription r).members docs)) :
    Kind.copy key (.object entries) .subscription
      = .ok (some (Subscription.toDoc ⟨r.subscriber, r.creator, r.token, r.amount,
          r.intervalSeconds, r.lastPayment, r.nextPayment, r.status⟩)) := by
  let t : Subscription := ⟨r.subscriber, r.creator, r.token, r.amount, r.intervalSeconds,
    r.lastPayment, r.nextPayment, r.status⟩
  have hsub : ∀ e ∈ t.toDoc.entries, e ∈ entries := by
    intro e he
    rw [hperm.mem_iff]
    simp only [Record.members, hstatus]
    exact List.mem_append_left
      [("tier", docs.tier r.tier), ("pending_tier", docs.tier r.pendingTier)] he
  have hread := fromStr_eq t.readsAs (entries_nodup hperm) hsub
  show through (getPersistentSubscription key _) Subscription.read Subscription.toDoc
    = .ok (some t.toDoc)
  refine through_eq ?_ rfl t.readsAs (by simp [Subscription.toDoc, Doc.entries])
  simp only [getPersistentSubscription, readStored, hread]

end Carried

/-- A record is copied whole just when the mirror type declares all its fields and, where a value is
in between, its amount has 64 bits. What differs from such a record has another copy. -/
theorem carried_iff (docs : EnumDocs) (key : String) :
    (∀ r : Record, Carried docs key r ↔ r.Mirrored) ∧
      ∀ r₁ r₂ : Record, r₁.kind = r₂.kind → Carried docs key r₁ → r₁ ≠ r₂ →
        ∀ entries₁ entries₂, entries₁.Perm (r₁.members docs) → entries₂.Perm (r₂.members docs) →
          r₁.kind.copy key (.object entries₁) ≠ r₂.kind.copy key (.object entries₂) := by
  refine ⟨fun r => ⟨Carried.mirrored, Carried.of_mirrored⟩, ?_⟩
  intro r₁ r₂ hkind hcarried hne entries₁ entries₂ hperm₁ hperm₂ hsame
  have hmirrored := hcarried.mirrored
  rw [copy_of_mirrored hmirrored hperm₁] at hsame
  by_cases hother : r₂.Mirrored
  · rw [copy_of_mirrored hother hperm₂, hkind] at hsame
    have hobject := Doc.object.inj (Option.some.inj (Except.ok.inj hsame))
    exact hne (members_inj hkind hmirrored (List.append_cancel_left hobject))
  · -- a record of the same kind that is not mirrored is a locked tip that cannot be read
    cases r₂ with
    | lockedTip tipId r =>
      rw [show (Record.lockedTip tipId r).kind = .lockedTip tipId from rfl,
        copy_lockedTip_error hperm₂ hother] at hsame
      cases hsame
    | subscription r =>
      cases r₁ with
      | subscription r => exact hmirrored
      | _ => cases hkind
    | timeLock lockId r =>
      cases r₁ with
      | timeLock lockId r => exact hmirrored
      | _ => cases hkind
    | _ => exact hother trivial

/-- Enumerations printed by name, the status as the mirror type expects it. -/
def plainDocs : EnumDocs where
  status := SubscriptionStatus.toDoc
  tier
    | .none => .string "None"
    | .bronze => .string "Bronze"
    | .silver => .string "Silver"
    | .gold => .string "Gold"

/-- A subscription of the given tier. -/
def tieredSubscription (tier : OnChain.SubscriptionTier) : Record :=
  .subscription ⟨"GSUB", "GCREATOR", "GTOKEN", 100, 86400, 0, 86400, .active, tier, .none⟩

/-- A locked tip over the given amount. -/
def lockedTipOver (amount : I128) : Record :=
  .lockedTip 7 ⟨"GSENDER", "GCREATOR", "GTOKEN", amount, 3000000000⟩

/-- Locked tips over 10 and 20 are carried, and stay different. -/
theorem carried_iff_sample :
    Carried plainDocs "LockedTip" (lockedTipOver 10) ∧
      Kind.copy "LockedTip" (.object ((lockedTipOver 10).members plainDocs)) (.lockedTip 7)
        ≠ Kind.copy "LockedTip" (.object ((lockedTipOver 20).members plainDocs)) (.lockedTip 7) := by
  have hmirrored : (lockedTipOver 10).Mirrored := by
    show -2 ^ 63 ≤ (10 : I128).val ∧ (10 : I128).val < 2 ^ 64
    decide
  have hcarried := ((carried_iff plainDocs "LockedTip").1 _).mpr hmirrored
  refine ⟨hcarried, ?_⟩
  exact (carried_iff plainDocs "LockedTip").2 (lockedTipOver 10) (lockedTipOver 20) rfl hcarried
    (by decide) _ _ (List.Perm.refl _) (List.Perm.refl _)

/-- A gold and a silver subscription have the same copy, a time lock loses the time it was made, and
a locked tip over 2^64 is not read. -/
theorem copy_drops_fields :
    (¬Carried plainDocs "Subscription" (tieredSubscription .gold) ∧
      tieredSubscription .gold ≠ tieredSubscription .silver ∧
      Kind.copy "Subscription" (.object ((tieredSubscription .gold).members plainDocs)) .subscription
        = Kind.copy "Subscription" (.object ((tieredSubscription .silver).members plainDocs))
          .subscription) ∧
    ¬Carried plainDocs "TimeLock"
      (.timeLock 3 ⟨"GSENDER", "GCREATOR", "GTOKEN", 100, 3000000000, 5, 9, false⟩) ∧
    Kind.copy "LockedTip" (.object ((lockedTipOver 18446744073709551616).members plainDocs))
      (.lockedTip 7) = .error "LockedTip deserialise error: " := by
  refine ⟨⟨fun h => h.mirrored, by decide, ?_⟩, fun h => h.mirrored, ?_⟩
  · unfold tieredSubscription
    rw [copy_subscription rfl (List.Perm.refl _), copy_subscription rfl (List.Perm.refl _)]
  · unfold lockedTipOver
    exact copy_lockedTip_error (List.Perm.refl _) (by decide)

end Migrate
