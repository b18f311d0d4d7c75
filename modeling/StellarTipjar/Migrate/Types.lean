import StellarTipjar.Lib.Store
import StellarTipjar.Lib.HashMap
import StellarTipjar.Lib.Int128
import StellarTipjar.Lib.Json

/-!
# Migration toolkit — records, snapshots and the target contract

`scripts/migrate/types.rs`, and the contract at the other end of the RPC calls as a store of
entries. The records of the toolkit are kept field by field; a contract entry is named by a `Key`
and holds a value of the type the key asks for, so that a record can only stand under the names and
the id it carries itself.
-/

namespace Migrate

open Lib

/-! ## Addresses and composite keys -/

/-- An address as text. No address has a colon, which is what the composite keys of a snapshot rely
on. -/
structure Address where
  text : String
  noColon : ':' ∉ text.toList
deriving DecidableEq

@[ext] theorem Address.ext {a b : Address} (h : a.text = b.text) : a = b := by
  obtain ⟨s, _⟩ := a
  obtain ⟨t, _⟩ := b
  obtain rfl : s = t := h
  rfl

/-- What the contract makes of an address argument; `none` rejects the call. -/
def Address.parse (s : String) : Option Address :=
  if h : ':' ∉ s.toList then some ⟨s, h⟩ else none

@[simp] theorem Address.parse_text (a : Address) : Address.parse a.text = some a := by
  rw [Address.parse, dif_pos a.noColon]

/-- `key.splitn(2, ':')`: the part before the first colon, and the rest when there is a colon. -/
def splitKey (key : String) : Address × Option String :=
  let first : Address :=
    ⟨String.ofList (key.toList.takeWhile (· != ':')), by
      intro h
      rw [String.toList_ofList] at h
      simpa using List.all_eq_true.mp List.all_takeWhile _ h⟩
  match key.toList.dropWhile (· != ':') with
  | [] => (first, none)
  | _ :: rest => (first, some (String.ofList rest))

/-- `format!("{}:{}", first, rest)`. -/
def joinKey (first : Address) (rest : String) : String := first.text ++ ":" ++ rest

/-- Splitting undoes joining. -/
@[simp] theorem splitKey_joinKey (first : Address) (rest : String) :
    splitKey (joinKey first rest) = (first, some rest) := by
  have hlist : (joinKey first rest).toList = first.text.toList ++ ':' :: rest.toList := by
    simp [joinKey]
  have hall : ∀ c ∈ first.text.toList, (c != ':') = true := by
    intro c hc
    have hne : c ≠ ':' := fun h => first.noColon (h ▸ hc)
    simpa using hne
  have htake : (joinKey first rest).toList.takeWhile (· != ':') = first.text.toList := by
    rw [hlist, List.takeWhile_append_of_pos hall]
    simp
  have hdrop : (joinKey first rest).toList.dropWhile (· != ':') = ':' :: rest.toList := by
    rw [hlist, List.dropWhile_append_of_pos hall]
    simp
  simp only [splitKey, htake, hdrop, String.ofList_toList]

/-- `str::parse::<u32>`. -/
def parseU32 (s : String) : Option UInt32 :=
  let digits := match s.toList with
    | '+' :: digits => digits
    | digits => digits
  (parseDigits digits).bind fun n => if n < 4294967296 then some (UInt32.ofNat n) else none

/-- `0..n`. -/
def upTo (n : UInt64) : List UInt64 := (List.range n.toNat).map UInt64.ofNat

@[simp] theorem mem_upTo {n id : UInt64} : id ∈ upTo n ↔ id < n := by
  rw [upTo, List.mem_map, UInt64.lt_iff_toNat_lt]
  constructor
  · rintro ⟨i, hi, rfl⟩
    have hlt : i < UInt64.size := (List.mem_range.mp hi).trans n.toNat_lt_size
    rw [UInt64.toNat_ofNat_of_lt' hlt]
    exact List.mem_range.mp hi
  · intro h
    exact ⟨id.toNat, List.mem_range.mpr h, UInt64.ofNat_toNat⟩

/-! ## Records -/

structure TipMetadata where
  sender : String
  amount : I128
  message : Option String
  timestamp : UInt64
deriving DecidableEq

structure LeaderboardEntry where
  address : String
  totalAmount : I128
  tipCount : UInt32
deriving DecidableEq

inductive SubscriptionStatus where
  | active
  | paused
  | cancelled
deriving DecidableEq

structure Subscription where
  subscriber : String
  creator : String
  token : String
  amount : I128
  intervalSeconds : UInt64
  lastPayment : UInt64
  nextPayment : UInt64
  status : SubscriptionStatus
deriving DecidableEq

structure TimeLock where
  lockId : UInt64
  sender : String
  creator : String
  token : String
  amount : I128
  unlockTime : UInt64
  cancelled : Bool
deriving DecidableEq

structure Milestone where
  id : UInt64
  creator : String
  goalAmount : I128
  currentAmount : I128
  description : String
  deadline : Option UInt64
  completed : Bool
deriving DecidableEq

structure MatchingProgram where
  id : UInt64
  sponsor : String
  creator : String
  token : String
  matchRatio : UInt32
  maxMatchAmount : I128
  currentMatched : I128
  active : Bool
deriving DecidableEq

structure TipRecord where
  id : UInt64
  sender : String
  creator : String
  token : String
  amount : I128
  timestamp : UInt64
  refunded : Bool
  refundRequested : Bool
  refundApproved : Bool
deriving DecidableEq

structure LockedTip where
  tipId : UInt64
  sender : String
  creator : String
  token : String
  amount : I128
  unlockTimestamp : UInt64
deriving DecidableEq

/-! ## Snapshots -/

/-- The exported state of one contract. -/
structure StateSnapshot where
  contractId : String
  schemaVersion : UInt32
  exportedAt : UInt64
  ledgerSequence : UInt32
  checksum : String
  admin : String
  feeBasisPoints : UInt32
  refundWindowSeconds : UInt64
  paused : Bool
  pauseReason : Option String
  tipCounter : UInt64
  matchingCounter : UInt64
  currentFeeBps : UInt32
  whitelistedTokens : List String
  creatorBalances : HashMap String I128
  creatorTotals : HashMap String I128
  tipHistory : HashMap String (List TipMetadata)
  tipperAggregates : HashMap String LeaderboardEntry
  creatorAggregates : HashMap String LeaderboardEntry
  subscriptions : HashMap String Subscription
  timeLocks : List TimeLock
  milestones : HashMap String Milestone
  matchingPrograms : List MatchingProgram
  tipRecords : List TipRecord
  lockedTips : List LockedTip
  userRoles : HashMap String String
deriving DecidableEq

/-! ## The target contract -/

/-- The entries the toolkit reads or writes. The lock counter stands in both storages of the
contract: time locks are exported up to the persistent `NextLockId`, and an import sets the one in
instance storage. -/
inductive Key where
  | admin
  | feeBasisPoints
  | refundWindow
  | tipCounter
  | matchingCounter
  | currentFeeBps
  | contractVersion
  | instanceNextLockId
  | tokenWhitelist (token : Address)
  | creatorBalance (creator token : Address)
  | creatorTotal (creator token : Address)
  | tipCount (creator : Address)
  | tipHistory (creator : Address) (index : UInt64)
  | tipperParticipants (bucket : UInt32)
  | tipperAggregate (address : Address) (bucket : UInt32)
  | creatorParticipants (bucket : UInt32)
  | creatorAggregate (address : Address) (bucket : UInt32)
  | subscription (subscriber creator : Address)
  | nextLockId
  | timeLock (id : UInt64)
  | milestoneCounter (creator : Address)
  | milestone (creator : Address) (id : UInt64)
  | matchingProgram (id : UInt64)
  | tipRecord (id : UInt64)
  | lockedTipCounter (creator : Address)
  | lockedTip (creator : Address) (id : UInt64)
  | userRole (address : Address)
deriving DecidableEq

/-- What stands under a key. -/
@[reducible] def Key.Val : Key → Type
  | .admin => String
  | .feeBasisPoints => UInt32
  | .refundWindow => UInt64
  | .tipCounter => UInt64
  | .matchingCounter => UInt64
  | .currentFeeBps => UInt32
  | .contractVersion => UInt32
  | .instanceNextLockId => UInt64
  | .tokenWhitelist _ => Bool
  | .creatorBalance _ _ => I128
  | .creatorTotal _ _ => I128
  | .tipCount _ => UInt64
  | .tipHistory _ _ => TipMetadata
  | .tipperParticipants _ => List Address
  | .tipperAggregate _ _ => LeaderboardEntry
  | .creatorParticipants _ => List Address
  | .creatorAggregate _ _ => LeaderboardEntry
  | .subscription subscriber creator =>
    { sub : Subscription // sub.subscriber = subscriber.text ∧ sub.creator = creator.text }
  | .nextLockId => UInt64
  | .timeLock id => { lock : TimeLock // lock.lockId = id }
  | .milestoneCounter _ => UInt64
  | .milestone _ id => { ms : Milestone // ms.id = id }
  | .matchingProgram id => { prog : MatchingProgram // prog.id = id }
  | .tipRecord id => { rec : TipRecord // rec.id = id }
  | .lockedTipCounter _ => UInt64
  | .lockedTip creator id => { lt : LockedTip // lt.creator = creator.text ∧ lt.tipId = id }
  | .userRole _ => String

/-- One entry of the contract. -/
abbrev Entry := (k : Key) × k.Val

/-- The contract as the toolkit sees it. Pausing keeps its reason beside the flag. -/
@[ext] structure Target where
  paused : Bool
  pauseReason : Option String
  entries : Store Key Key.Val

namespace Target

def get (t : Target) (k : Key) : Option k.Val := t.entries.get k

/-- The contract's `pause`. -/
def pause (t : Target) (reason : String) : Target :=
  { t with paused := true, pauseReason := some reason }

/-- The contract's `unpause`. -/
def unpause (t : Target) : Target := { t with paused := false, pauseReason := none }

def write (t : Target) (e : Entry) : Target := { t with entries := t.entries.set e.1 e.2 }

def writeAll (t : Target) (entries : List Entry) : Target :=
  { t with entries := t.entries.setAll entries }

@[simp] theorem get_pause (t : Target) (reason : String) (k : Key) :
    (t.pause reason).get k = t.get k := rfl

@[simp] theorem get_unpause (t : Target) (k : Key) : t.unpause.get k = t.get k := rfl

@[simp] theorem paused_writeAll (t : Target) (entries : List Entry) :
    (t.writeAll entries).paused = t.paused := rfl

theorem get_writeAll (t : Target) (entries : List Entry) (k : Key) :
    (t.writeAll entries).get k = (Store.lastWrite entries k).or (t.get k) :=
  t.entries.get_setAll entries k

end Target

end Migrate
