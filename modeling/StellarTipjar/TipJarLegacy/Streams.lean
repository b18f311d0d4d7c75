import StellarTipjar.TipJarLegacy.Channels

/-!
# TipJarLegacy — the accounts of a stream

A stream pays out by the second. Its clock counts the seconds since its start, up to its end; a stop
does not hold the clock, and a withdrawal from a stopped stream is paid by it, but a restart takes the
pause out again by shifting both ends. What the creator has been credited never runs ahead of the
clock (`TipStream.Sound`). Along a run the deposit of a stream is divided exactly (`stream_accounts`):
it was withdrawn by the creator, refunded to the sender, or it is still in the stream; the rest was
dropped by `stop_stream` and `cancel_stream`, which take what the clock has counted since the last
withdrawal off the stream and pay it to nobody.
-/

namespace TipJarLegacy

open Lib Soroban Contract

variable {X : Type}

namespace TipStream

/-- The whole deposit. -/
def total (s : TipStream) : Int := s.amountPerSecond.val * s.length

/-- What the clock of the stream has counted by the time `t`, whatever its status: the seconds of a stop
count until a restart. -/
def accrued (s : TipStream) (t : Nat) : Int :=
  s.amountPerSecond.val * (min (t - s.startTime.toNat) s.length : Nat)

/-- Neither cancelled nor completed. -/
def Running (s : TipStream) : Prop := s.status = .active ∨ s.status = .paused

instance (s : TipStream) : Decidable s.Running := inferInstanceAs (Decidable (_ ∨ _))

/-- What is still in the stream for the two parties. -/
def remaining (s : TipStream) : Int := if s.Running then s.total - s.withdrawn.val else 0

/-- What holds of a stored stream when the ledger time is `clock`. -/
structure Sound (s : TipStream) (clock : Nat) : Prop where
  rate_pos : 0 < s.amountPerSecond.val
  rate_le : s.amountPerSecond.val ≤ 1000
  ordered : s.startTime.toNat ≤ s.endTime.toNat
  started : s.startTime.toNat ≤ s.updatedAt.toNat
  updated : s.updatedAt.toNat ≤ clock
  withdrawn_nonneg : 0 ≤ s.withdrawn.val
  earned : s.withdrawn.val ≤ s.accrued s.updatedAt.toNat

namespace Sound

variable {s s' : TipStream} {clock clock' : Nat} {now : UInt64} {amount : I128}

/-- A sound stream stays sound as time passes. -/
theorem mono (h : s.Sound clock) (hle : clock ≤ clock') : s.Sound clock' :=
  ⟨h.rate_pos, h.rate_le, h.ordered, h.started, h.updated.trans hle, h.withdrawn_nonneg, h.earned⟩

/-- The accrued amount grows with time. -/
theorem accrued_mono (h : s.Sound clock) {t t' : Nat} (hle : t ≤ t') :
    s.accrued t ≤ s.accrued t' := by
  have hpos := h.rate_pos
  unfold accrued
  have hmin : min (t - s.startTime.toNat) s.length ≤ min (t' - s.startTime.toNat) s.length := by
    omega
  exact mul_le_mul_of_nonneg_left (by exact_mod_cast hmin) hpos.le

/-- Up to the whole amount. -/
theorem accrued_le_total (h : s.Sound clock) (t : Nat) : s.accrued t ≤ s.total := by
  have hpos := h.rate_pos
  unfold accrued total
  have hmin : min (t - s.startTime.toNat) s.length ≤ s.length := by omega
  exact mul_le_mul_of_nonneg_left (by exact_mod_cast hmin) hpos.le

/-- Once the end is reached everything is counted. -/
theorem accrued_end (h : s.Sound clock) {t : Nat} (hend : s.endTime.toNat ≤ t) :
    s.accrued t = s.total := by
  have hordered := h.ordered
  unfold accrued total length
  congr 2
  omega

/-- What the contract computes is what the clock has counted. -/
theorem streamed_eq (h : s.Sound now.toNat) (hrunning : s.Running)
    (hstreamed : s.Streamed now amount) : amount.val = s.accrued now.toNat := by
  obtain ⟨hordered, hamount⟩ := hstreamed.running hrunning
  have hpos := h.rate_pos
  have hstart : s.startTime.toNat ≤ now.toNat := h.started.trans h.updated
  have helapsed : s.elapsed now = min (now.toNat - s.startTime.toNat) s.length := by
    unfold elapsed length
    rw [if_neg (by rw [UInt64.lt_iff_toNat_lt]; omega)]
    split
    · next hafter =>
      rw [UInt64.lt_iff_toNat_lt] at hafter
      omega
    · next hafter =>
      rw [UInt64.lt_iff_toNat_lt] at hafter
      omega
  rw [hamount, helapsed, accrued]
  refine min_eq_left (mul_le_mul_of_nonneg_left ?_ hpos.le)
  have hmin : min (now.toNat - s.startTime.toNat) s.length ≤ s.length := by omega
  exact_mod_cast hmin

/-- It is never less than what was withdrawn. -/
theorem withdrawn_le (h : s.Sound now.toNat) (hrunning : s.Running)
    (hstreamed : s.Streamed now amount) : s.withdrawn.val ≤ amount.val := by
  rw [h.streamed_eq hrunning hstreamed]
  exact h.earned.trans (h.accrued_mono h.updated)

/-- What the code computes is never more than the whole amount. -/
theorem streamed_le (h : s.Sound now.toNat) (hrunning : s.Running)
    (hstreamed : s.Streamed now amount) : amount.val ≤ s.total := by
  rw [h.streamed_eq hrunning hstreamed]
  exact h.accrued_le_total _

/-- So what remains is not negative. -/
theorem remaining_nonneg (h : s.Sound clock) : 0 ≤ s.remaining := by
  unfold remaining
  have hle := h.earned.trans (h.accrued_le_total _)
  split
  · omega
  · exact le_rfl

/-- A restart gives the stream the time back for which it was paused. -/
theorem resumed (h : s.Sound now.toNat) (hrunning : s.Running) (hresumes : s.Resumes now s') :
    s'.Sound now.toNat ∧ s'.length = s.length ∧ s'.withdrawn = s.withdrawn ∧
      s'.amountPerSecond = s.amountPerSecond ∧ s'.status = .active := by
  have hupdated : s'.updatedAt = now := by rw [hresumes.same]
  have hwithdrawn : s'.withdrawn = s.withdrawn := by rw [hresumes.same]
  have hrate : s'.amountPerSecond = s.amountPerSecond := by rw [hresumes.same]
  have hstatus : s'.status = .active := by rw [hresumes.same]
  have hordered := h.ordered
  have hstarted := h.started
  have hclock := h.updated
  -- both ends are shifted by the same time, which is none for an active stream
  have hshift : ∃ pause, s'.startTime.toNat = s.startTime.toNat + pause ∧
      s'.endTime.toNat = s.endTime.toNat + pause ∧ pause + s.updatedAt.toNat ≤ now.toNat := by
    rcases hrunning with hactive | hpaused
    · obtain ⟨hstart, hend⟩ := hresumes.running (by rw [hactive]; decide)
      refine ⟨0, ?_, ?_, by omega⟩
      · rw [hstart, Nat.add_zero]
      · rw [hend, Nat.add_zero]
    · obtain ⟨pause, hpause, hstart, hend⟩ := hresumes.paused hpaused
      exact ⟨pause, hstart, hend, hpause.le⟩
  obtain ⟨pause, hstart, hend, hpause⟩ := hshift
  have hlength : s'.length = s.length := by
    unfold length
    omega
  refine ⟨⟨?_, ?_, by omega, ?_, ?_, ?_, ?_⟩, hlength, hwithdrawn, hrate, hstatus⟩
  · rw [hrate]
    exact h.rate_pos
  · rw [hrate]
    exact h.rate_le
  · rw [hupdated]
    omega
  · rw [hupdated]
  · rw [hwithdrawn]
    exact h.withdrawn_nonneg
  · -- the time between the start and the last change has not become shorter
    have hearned := h.earned
    have hpos := h.rate_pos
    rw [hwithdrawn, hupdated]
    refine hearned.trans ?_
    unfold accrued
    rw [hrate, hlength]
    have hmin : min (s.updatedAt.toNat - s.startTime.toNat) s.length
        ≤ min (now.toNat - s'.startTime.toNat) s.length := by omega
    exact mul_le_mul_of_nonneg_left (by exact_mod_cast hmin) hpos.le

end Sound

end TipStream

/-! ## The calls about one stream -/

/-- What a call does with a stream. -/
inductive StreamCall where
  | create
  | start
  | stop
  | withdraw
  | cancel
deriving DecidableEq, Repr

/-- What a call does with the stream `id`. -/
def Entrypoint.streamCall (w : World X) (id : UInt64) : Entrypoint → Option StreamCall
  | .createStream _ _ _ _ _ => if nextStreamId w = id then some .create else none
  | .startStream _ i => if i = id then some .start else none
  | .stopStream _ i => if i = id then some .stop else none
  | .withdrawStreamed _ i => if i = id then some .withdraw else none
  | .cancelStream _ i => if i = id then some .cancel else none
  | _ => none

/-- From whom to whom such a call pays. -/
def StreamCall.between (self : Address) (s : TipStream) : StreamCall → Option (Address × Address)
  | .create => some (s.sender, self)
  | .withdraw => some (self, s.creator)
  | .cancel => some (self, s.sender)
  | .start | .stop => none

/-- The amounts of a call about a stream. -/
structure Amounts where
  deposited : Int
  paid : Int
  refunded : Int
  dropped : Int
deriving DecidableEq, Repr

/-- What a call that transfers `moved` does to the accounts of the stream, of which `unclaimed` has
run and not been withdrawn. -/
def StreamCall.amounts (moved unclaimed : Int) : StreamCall → Amounts
  | .create => ⟨moved, 0, 0, 0⟩
  | .start => ⟨0, 0, 0, 0⟩
  | .stop => ⟨0, 0, 0, unclaimed⟩
  | .withdraw => ⟨0, moved, 0, 0⟩
  | .cancel => ⟨0, 0, moved, unclaimed⟩

/-- What the clock has counted and the creator was not credited. The credit `withdrawn` takes in what a
stop dropped. -/
def unclaimed (chain : Chain X) (w : World X) (id : UInt64) : Int :=
  match streamOf w id with
  | some s => s.accrued (chain.timestamp w.ext).toNat - s.withdrawn.val
  | none => 0

/-- A call about the stream `id`, which leaves it at the given record. -/
inductive ActsOnStream (chain : Chain X) (auth : List Address) (id : UInt64) (w w' : World X) :
    StreamCall → TipStream → Prop where
  | create {sender creator token : Address} {rate : I128} {duration : UInt64} {total : I128}
      {s : TipStream} (next : nextStreamId w = id)
      (h : CreatesStream chain auth sender creator token rate duration total s w w') :
      ActsOnStream chain auth id w w' .create s
  | start {s s' : TipStream} (h : StartsStream chain auth id s s' w w') :
      ActsOnStream chain auth id w w' .start s'
  | stop {s : TipStream} {streamed : I128} (h : StopsStream chain auth id s streamed w w') :
      ActsOnStream chain auth id w w' .stop
        { s with status := .paused, withdrawn := streamed, updatedAt := chain.timestamp w.ext }
  | withdraw {s : TipStream} {streamed available : I128}
      (h : WithdrawsStream chain auth id s streamed available w w') :
      ActsOnStream chain auth id w w' .withdraw
        { s with
          withdrawn := streamed
          status := if s.endTime ≤ chain.timestamp w.ext then .completed else s.status
          updatedAt := chain.timestamp w.ext }
  | cancel {s : TipStream} {streamed remaining : I128}
      (h : CancelsStream chain auth id s streamed remaining w w') :
      ActsOnStream chain auth id w w' .cancel
        { s with status := .cancelled, updatedAt := chain.timestamp w.ext }

section Calls

variable {crypto : Crypto} {chain : Chain X} {call : Call} {w w' : World X} {auth : List Address}
  {id : UInt64} {k : StreamCall} {s' : TipStream}

/-- A call on a stream leaves the others. -/
theorem MovesStream.get_of_ne {i : UInt64} {s s' : TipStream} {ts : List Transfer}
    (h : MovesStream chain i s s' ts w w') (hne : i ≠ id) : streamOf w' id = streamOf w id := by
  have hkey : DataKey.stream (.record id) ≠ .stream (.record i) := by
    intro heq
    cases heq
    exact hne rfl
  unfold streamOf
  rw [h.pers, Store.get_set_of_ne _ hkey]

/-- The stream after the call. -/
theorem MovesStream.get_self {s s' : TipStream} {ts : List Transfer}
    (h : MovesStream chain id s s' ts w w') : streamOf w' id = some s' := by
  unfold streamOf
  rw [h.pers, Store.get_set_self]

/-- The stream after the call. -/
theorem ActsOnStream.stored (h : ActsOnStream chain auth id w w' k s') :
    streamOf w' id = some s' := by
  cases h with
  | create next h =>
    obtain ⟨senderIds, creatorIds, hpers⟩ := h.pers
    subst next
    unfold streamOf
    rw [hpers, Store.get_set_of_ne _ (by simp), Store.get_set_of_ne _ (by simp),
      Store.get_set_self]
  | start h => exact h.get_self
  | stop h => exact h.get_self
  | withdraw h => exact h.get_self
  | cancel h => exact h.get_self

/-- The calls that touch no stream. -/
theorem Entrypoint.streamCall_of_quiet {e : Entrypoint} (h : e.quiet = true) :
    e.streamCall w id = none := by
  cases e with
  | createStream | startStream | stopStream | withdrawStreamed | cancelStream => cases h
  | _ => rfl

theorem Entrypoint.streamCall_of_channelMove {e : Entrypoint} {now : UInt64}
    {x : Address × Address × Address × Channel.Move ℕ} (h : e.channelMove w now = some x) :
    e.streamCall w id = none := by
  cases e with
  | createStream | startStream | stopStream | withdrawStreamed | cancelStream => cases h
  | _ => rfl

theorem Entrypoint.streamCall_of_tipChannelMove {e : Entrypoint} {now : UInt64}
    {x : Address × Address × Address × Channel.Move ℕ} (h : e.tipChannelMove w now = some x) :
    e.streamCall w id = none := by
  cases e with
  | createStream | startStream | stopStream | withdrawStreamed | cancelStream => cases h
  | _ => rfl

/-- A call acts on the stream `id`, or does not touch it. -/
theorem Effect.stream_cases (h : Effect crypto chain call w w') (id : UInt64) :
    (∃ k s', call.entry.streamCall w id = some k ∧ ActsOnStream chain call.auth id w w' k s') ∨
      call.entry.streamCall w id = none ∧ streamOf w' id = streamOf w id := by
  cases h with
  | streamCreated sender creator token rate duration total s entry h =>
    by_cases hid : nextStreamId w = id
    · exact .inl ⟨.create, s, by rw [entry]; exact if_pos hid, .create hid h⟩
    · refine .inr ⟨by rw [entry]; exact if_neg hid, ?_⟩
      obtain ⟨senderIds, creatorIds, hpers⟩ := h.pers
      have hkey : DataKey.stream (.record id) ≠ .stream (.record (nextStreamId w)) := by
        intro heq
        cases heq
        exact hid rfl
      unfold streamOf
      rw [hpers, Store.get_set_of_ne _ (by simp), Store.get_set_of_ne _ (by simp),
        Store.get_set_of_ne _ hkey]
  | streamStarted i s s' entry h =>
    by_cases hid : i = id
    · subst hid
      exact .inl ⟨.start, s', by rw [entry]; exact if_pos rfl, .start h⟩
    · exact .inr ⟨by rw [entry]; exact if_neg hid, h.get_of_ne hid⟩
  | streamStopped i s streamed entry h =>
    by_cases hid : i = id
    · subst hid
      exact .inl ⟨.stop, _, by rw [entry]; exact if_pos rfl, .stop h⟩
    · exact .inr ⟨by rw [entry]; exact if_neg hid, h.get_of_ne hid⟩
  | streamWithdrawn i s streamed available entry h =>
    by_cases hid : i = id
    · subst hid
      exact .inl ⟨.withdraw, _, by rw [entry]; exact if_pos rfl, .withdraw h⟩
    · exact .inr ⟨by rw [entry]; exact if_neg hid, h.get_of_ne hid⟩
  | streamCancelled i s streamed remaining entry h =>
    by_cases hid : i = id
    · subst hid
      exact .inl ⟨.cancel, _, by rw [entry]; exact if_pos rfl, .cancel h⟩
    · exact .inr ⟨by rw [entry]; exact if_neg hid, h.get_of_ne hid⟩
  | channelMoved a b T m ch entry h =>
    refine .inr ⟨Entrypoint.streamCall_of_channelMove entry, ?_⟩
    unfold streamOf
    rw [h.pers, Store.get_set_of_ne _ (by simp)]
  | tipChannelMoved t c T m ch entry direct opener h =>
    refine .inr ⟨Entrypoint.streamCall_of_tipChannelMove entry, ?_⟩
    unfold streamOf
    rw [h.get_of_ne (by simp) (by simp)]
  | metaExecuted relayer req w₁ entry verified acts h =>
    refine .inr ⟨by rw [entry]; rfl, ?_⟩
    unfold streamOf
    rw [h.follows.pers _ (by simp [DataKey.isMeta])]
    cases acts with
    | tip h =>
      obtain ⟨balance, total, -, hpers⟩ := h.pers
      rw [hpers, Store.get_set_of_ne _ (by simp), Store.get_set_of_ne _ (by simp)]
    | openChannel action ch h => rw [h.get_of_ne (by simp) (by simp)]
  | silent entry h =>
    refine .inr ⟨Entrypoint.streamCall_of_quiet entry, ?_⟩
    unfold streamOf
    rw [h.pers]

/-- Ids are given out upwards. -/
theorem Effect.nextStreamId_le (h : Effect crypto chain call w w') :
    (nextStreamId w).toNat ≤ (nextStreamId w').toNat := by
  cases h with
  | streamCreated sender creator token rate duration total s entry h =>
    exact h.counter ▸ Nat.le_succ _
  | streamStarted i s s' entry h => rw [h.streams]
  | streamStopped i s streamed entry h => rw [h.streams]
  | streamWithdrawn i s streamed available entry h => rw [h.streams]
  | streamCancelled i s streamed remaining entry h => rw [h.streams]
  | channelMoved a b T m ch entry h => rw [h.streams]
  | tipChannelMoved t c T m ch entry direct opener h => rw [h.streams]
  | metaExecuted relayer req w₁ entry verified acts h =>
    rw [h.streams]
    cases acts with
    | tip h => rw [h.streams]
    | openChannel action ch h => rw [h.streams]
  | silent entry h => rw [h.streams]

/-! ## The accounts after a call -/

/-- The stored streams are sound, and have ids that were given out. -/
structure StreamsSound (chain : Chain X) (w : World X) : Prop where
  sound : ∀ id, ∀ s ∈ streamOf w id, s.Sound (chain.timestamp w.ext).toNat
  below : ∀ id, ∀ s ∈ streamOf w id, id.toNat < (nextStreamId w).toNat

/-- What never changes of a stream. -/
structure TipStream.SameTerms (s s' : TipStream) : Prop where
  sender : s'.sender = s.sender
  creator : s'.creator = s.creator
  token : s'.token = s.token
  total : s'.total = s.total

/-- The amounts `x` of a call `k` with the transfers `ts` account for the change from `before` to
`s'`. -/
structure Booked (contract : Address) (before : Option TipStream) (s' : TipStream) (k : StreamCall)
    (ts : List Transfer) (x : Amounts) : Prop where
  opens : before = none ↔ k = .create
  terms : ∀ s ∈ before, s.SameTerms s'
  deposited : x.deposited = if before = none then s'.total else 0
  divided : s'.remaining + x.paid + x.refunded + x.dropped
    = before.elim 0 TipStream.remaining + x.deposited
  earned : before.elim 0 (fun s => s.withdrawn.val) + x.paid ≤ s'.withdrawn.val
  nonneg : 0 ≤ x.paid ∧ 0 ≤ x.refunded ∧ 0 ≤ x.dropped
  directed : ∀ t ∈ ts, t.token = s'.token ∧ k.between contract s' = some (t.source, t.dest)
  amounts : ∀ t ∈ ts, 0 ≤ t.amount.val

section Accounting

variable {now : UInt64}

/-- The whole amount comes in, and nothing has streamed. -/
theorem CreatesStream.booked {sender creator token : Address} {rate : I128} {duration : UInt64}
    {total : I128} {s : TipStream} (pause : Int)
    (h : CreatesStream chain auth sender creator token rate duration total s w w') :
    s.Sound (chain.timestamp w.ext).toNat ∧ Booked chain.self none s .create
      [⟨token, sender, chain.self, total⟩]
      (StreamCall.create.amounts (transferred [⟨token, sender, chain.self, total⟩]) pause) := by
  have hstream := h.stream
  have hrate : s.amountPerSecond = rate := by rw [hstream]
  have hstart : s.startTime = chain.timestamp w.ext := by rw [hstream]
  have hupdated : s.updatedAt = chain.timestamp w.ext := by rw [hstream]
  have hwithdrawn : s.withdrawn = 0 := by rw [hstream]
  have hrunning : s.Running := .inl (by rw [hstream])
  have hend := h.endTime
  have hzero : s.withdrawn.val = 0 := by rw [hwithdrawn]; rfl
  have hlength : s.length = duration.toNat := by
    unfold TipStream.length
    rw [hstart]
    omega
  have htotal : s.total = total.val := by
    unfold TipStream.total
    rw [hrate, hlength, h.total_eq]
  have hpos : 0 < s.amountPerSecond.val := by rw [hrate]; exact h.rate_pos
  refine ⟨⟨hpos, by rw [hrate]; exact h.rate_le, ?_, ?_, ?_, hzero.ge, ?_⟩,
    ⟨?_, ?_, ?_, ?_, ?_, ?_, ?_, ?_⟩⟩
  · rw [hstart]
    omega
  · rw [hstart, hupdated]
  · rw [hupdated]
  · rw [hzero]
    exact mul_nonneg hpos.le (Int.natCast_nonneg _)
  · simp
  · simp
  · show transferred _ = _
    simp [transferred, htotal]
  · show s.remaining + 0 + 0 + 0 = 0 + transferred _
    rw [TipStream.remaining, if_pos hrunning, hzero, htotal]
    simp [transferred]
  · show 0 + 0 ≤ s.withdrawn.val
    omega
  · exact ⟨le_rfl, le_rfl, le_rfl⟩
  · intro t ht
    rw [List.mem_singleton.mp ht, hstream]
    exact ⟨rfl, rfl⟩
  · intro t ht
    rw [List.mem_singleton.mp ht]
    show 0 ≤ total.val
    rw [h.total_eq]
    exact mul_nonneg h.rate_pos.le (Int.natCast_nonneg _)

/-- Nothing is moved; the end of a resumed stream is later by its pause. -/
theorem StartsStream.booked {s s' : TipStream} (moved pause : Int)
    (h : StartsStream chain auth id s s' w w') (hs : s.Sound (chain.timestamp w.ext).toNat) :
    s'.Sound (chain.timestamp w.ext).toNat ∧
      Booked chain.self (some s) s' .start [] (StreamCall.start.amounts moved pause) := by
  obtain ⟨hsound, hlength, hwithdrawn, hrate, hstatus⟩ := hs.resumed h.status h.resumes
  have hsame := h.resumes.same
  have htotal : s'.total = s.total := by
    unfold TipStream.total
    rw [hrate, hlength]
  have hrunning : s.Running := h.status
  have hrunning' : s'.Running := .inl hstatus
  refine ⟨hsound, ⟨?_, ?_, ?_, ?_, ?_, ?_, ?_, ?_⟩⟩
  · simp
  · intro r hr
    obtain rfl := Option.some.inj hr
    exact ⟨by rw [hsame], by rw [hsame], by rw [hsame], htotal⟩
  · simp [StreamCall.amounts]
  · show s'.remaining + 0 + 0 + 0 = s.remaining + 0
    rw [TipStream.remaining, TipStream.remaining, if_pos hrunning, if_pos hrunning', htotal,
      hwithdrawn]
    omega
  · show s.withdrawn.val + 0 ≤ s'.withdrawn.val
    rw [hwithdrawn]
    omega
  · exact ⟨le_rfl, le_rfl, le_rfl⟩
  · intro t ht
    cases ht
  · intro t ht
    cases ht

/-- Nothing is moved; what has streamed counts as withdrawn. -/
theorem StopsStream.booked {s : TipStream} {streamed : I128} (moved : Int)
    (h : StopsStream chain auth id s streamed w w') (hs : s.Sound (chain.timestamp w.ext).toNat) :
    let s' := { s with
      status := .paused, withdrawn := streamed, updatedAt := chain.timestamp w.ext }
    s'.Sound (chain.timestamp w.ext).toNat ∧ Booked chain.self (some s) s' .stop []
      (StreamCall.stop.amounts moved (unclaimed chain w id)) := by
  intro s'
  have hrunning : s.Running := .inl h.status
  have hrunning' : s'.Running := .inr rfl
  have hstreamed := hs.streamed_eq hrunning h.computed
  have hle := hs.withdrawn_le hrunning h.computed
  have hstart := hs.started
  have hclock := hs.updated
  have hunclaimed : unclaimed chain w id = streamed.val - s.withdrawn.val := by
    rw [unclaimed, h.stored, hstreamed]
  have hnonneg := hs.withdrawn_nonneg
  refine ⟨⟨hs.rate_pos, hs.rate_le, hs.ordered, hstart.trans hclock, le_rfl, ?_, hstreamed.le⟩,
    ⟨?_, ?_, ?_, ?_, ?_, ?_, ?_, ?_⟩⟩
  · exact hnonneg.trans hle
  · simp
  · intro r hr
    obtain rfl := Option.some.inj hr
    exact ⟨rfl, rfl, rfl, rfl⟩
  · simp [StreamCall.amounts]
  · show s'.remaining + 0 + 0 + unclaimed chain w id = s.remaining + 0
    have htotal : s'.total = s.total := rfl
    have hwithdrawn : s'.withdrawn.val = streamed.val := rfl
    rw [TipStream.remaining, TipStream.remaining, if_pos hrunning, if_pos hrunning', hunclaimed,
      htotal, hwithdrawn]
    omega
  · show s.withdrawn.val + 0 ≤ streamed.val
    omega
  · refine ⟨le_rfl, le_rfl, ?_⟩
    show 0 ≤ unclaimed chain w id
    omega
  · intro t ht
    cases ht
  · intro t ht
    cases ht

/-- A finished or cancelled stream has nothing left to withdraw. -/
theorem WithdrawsStream.running {s : TipStream} {streamed available : I128}
    (h : WithdrawsStream chain auth id s streamed available w w') : s.Running := by
  by_contra hrunning
  have hstatus := not_or.mp hrunning
  have hzero := h.computed.ended hstatus.1 hstatus.2
  have havailable := h.available_eq
  have hpos := h.positive
  rw [hzero] at havailable
  omega

/-- The creator is paid what was not yet withdrawn. -/
theorem WithdrawsStream.booked {s : TipStream} {streamed available : I128} (pause : Int)
    (h : WithdrawsStream chain auth id s streamed available w w')
    (hs : s.Sound (chain.timestamp w.ext).toNat) :
    let s' := { s with
      withdrawn := streamed
      status := if s.endTime ≤ chain.timestamp w.ext then .completed else s.status
      updatedAt := chain.timestamp w.ext }
    s'.Sound (chain.timestamp w.ext).toNat ∧ Booked chain.self (some s) s' .withdraw
      [⟨s.token, chain.self, s.creator, available⟩]
      (StreamCall.withdraw.amounts
        (transferred [⟨s.token, chain.self, s.creator, available⟩]) pause) := by
  intro s'
  have hrunning := h.running
  have hstreamed := hs.streamed_eq hrunning h.computed
  have hle := hs.withdrawn_le hrunning h.computed
  have havailable := h.available_eq
  have hpos := h.positive
  have hnonneg := hs.withdrawn_nonneg
  have hmoved : transferred [⟨s.token, chain.self, s.creator, available⟩] = available.val := by
    simp [transferred]
  -- at the end of the stream nothing is left of it
  have hremaining : s'.remaining = s.total - streamed.val := by
    have htotal : s'.total = s.total := rfl
    have hwithdrawn : s'.withdrawn.val = streamed.val := rfl
    by_cases hend : s.endTime ≤ chain.timestamp w.ext
    · have hstatus : s'.status = .completed := if_pos hend
      have hdone : ¬s'.Running := by
        unfold TipStream.Running
        rw [hstatus]
        decide
      rw [TipStream.remaining, if_neg hdone, hstreamed,
        hs.accrued_end (UInt64.le_iff_toNat_le.mp hend)]
      omega
    · have hstatus : s'.status = s.status := if_neg hend
      have hrunning' : s'.Running := by
        unfold TipStream.Running
        rw [hstatus]
        exact hrunning
      rw [TipStream.remaining, if_pos hrunning', htotal, hwithdrawn]
  refine ⟨⟨hs.rate_pos, hs.rate_le, hs.ordered, h.started, le_rfl, hnonneg.trans hle, hstreamed.le⟩,
    ⟨?_, ?_, ?_, ?_, ?_, ?_, ?_, ?_⟩⟩
  · simp
  · intro r hr
    obtain rfl := Option.some.inj hr
    exact ⟨rfl, rfl, rfl, rfl⟩
  · simp [StreamCall.amounts]
  · show s'.remaining + transferred _ + 0 + 0 = s.remaining + 0
    rw [hremaining, hmoved, TipStream.remaining, if_pos hrunning]
    omega
  · show s.withdrawn.val + transferred _ ≤ streamed.val
    rw [hmoved]
    omega
  · refine ⟨?_, le_rfl, le_rfl⟩
    show 0 ≤ transferred _
    rw [hmoved]
    exact hpos.le
  · intro t ht
    rw [List.mem_singleton.mp ht]
    exact ⟨rfl, rfl⟩
  · intro t ht
    rw [List.mem_singleton.mp ht]
    exact hpos.le

/-- The sender is paid what has not streamed. -/
theorem CancelsStream.booked {s : TipStream} {streamed remaining : I128}
    (h : CancelsStream chain auth id s streamed remaining w w')
    (hs : s.Sound (chain.timestamp w.ext).toNat) :
    let s' := { s with status := .cancelled, updatedAt := chain.timestamp w.ext }
    let ts := Transfer.positive ⟨s.token, chain.self, s.sender, remaining⟩
    s'.Sound (chain.timestamp w.ext).toNat ∧ Booked chain.self (some s) s' .cancel ts
      (StreamCall.cancel.amounts (transferred ts) (unclaimed chain w id)) := by
  intro s' ts
  have hrunning : s.Running := h.status
  have hstreamed := hs.streamed_eq hrunning h.computed
  have hle := hs.withdrawn_le hrunning h.computed
  have hbound := hs.streamed_le hrunning h.computed
  have hremaining : remaining.val = s.total - streamed.val := h.remaining_eq
  have hmoved : transferred ts = remaining.val :=
    transferred_positive (by show 0 ≤ remaining.val; omega)
  have hunclaimed : unclaimed chain w id = streamed.val - s.withdrawn.val := by
    rw [unclaimed, h.stored, hstreamed]
  have hstatus : s'.status = .cancelled := rfl
  have hdone : ¬s'.Running := by
    unfold TipStream.Running
    rw [hstatus]
    decide
  refine ⟨⟨hs.rate_pos, hs.rate_le, hs.ordered, hs.started.trans hs.updated, le_rfl,
      hs.withdrawn_nonneg, ?_⟩,
    ⟨?_, ?_, ?_, ?_, ?_, ?_, ?_, ?_⟩⟩
  · show s.withdrawn.val ≤ s.accrued (chain.timestamp w.ext).toNat
    omega
  · simp
  · intro r hr
    obtain rfl := Option.some.inj hr
    exact ⟨rfl, rfl, rfl, rfl⟩
  · simp [StreamCall.amounts]
  · show s'.remaining + 0 + transferred ts + unclaimed chain w id = s.remaining + 0
    rw [hmoved, hunclaimed, TipStream.remaining, TipStream.remaining, if_pos hrunning,
      if_neg hdone]
    omega
  · show s.withdrawn.val + 0 ≤ s.withdrawn.val
    omega
  · refine ⟨le_rfl, ?_, ?_⟩
    · show 0 ≤ transferred ts
      omega
    · show 0 ≤ unclaimed chain w id
      omega
  · intro t ht
    rw [(Transfer.mem_positive ht).1]
    exact ⟨rfl, rfl⟩
  · intro t ht
    rw [(Transfer.mem_positive ht).1]
    show 0 ≤ remaining.val
    omega

end Accounting

/-- Every call about a stream keeps its book. -/
theorem ActsOnStream.booked (h : ActsOnStream chain auth id w w' k s')
    (hs : StreamsSound chain w) :
    s'.Sound (chain.timestamp w.ext).toNat ∧ ∃ ts, Sends chain ts w w' ∧
      Booked chain.self (streamOf w id) s' k ts
        (k.amounts (transferred ts) (unclaimed chain w id)) := by
  cases h with
  | create next h =>
    have hnone : streamOf w id = none := by
      rw [Option.eq_none_iff_forall_not_mem]
      intro s hs'
      have hbelow := hs.below id s hs'
      rw [next] at hbelow
      omega
    rw [hnone]
    exact ⟨(h.booked 0).1, _, h.sends, (h.booked _).2⟩
  | start h =>
    have hsound := hs.sound id _ h.stored
    rw [h.stored]
    exact ⟨(h.booked 0 0 hsound).1, [], h.sends, (h.booked _ _ hsound).2⟩
  | stop h =>
    have hsound := hs.sound id _ h.stored
    rw [h.stored]
    exact ⟨(h.booked 0 hsound).1, [], h.sends, (h.booked _ hsound).2⟩
  | withdraw h =>
    have hsound := hs.sound id _ h.stored
    rw [h.stored]
    exact ⟨(h.booked 0 hsound).1, _, h.sends, (h.booked _ hsound).2⟩
  | cancel h =>
    have hsound := hs.sound id _ h.stored
    rw [h.stored]
    exact ⟨(h.booked hsound).1, _, h.sends, (h.booked hsound).2⟩

/-- Every call keeps the streams sound. -/
theorem Effect.streamsSound (h : Effect crypto chain call w w') (hs : StreamsSound chain w)
    (hclock : chain.timestamp w.ext ≤ chain.timestamp w'.ext) : StreamsSound chain w' := by
  have hle : (chain.timestamp w.ext).toNat ≤ (chain.timestamp w'.ext).toNat :=
    UInt64.le_iff_toNat_le.mp hclock
  have hnext := h.nextStreamId_le
  refine ⟨fun i s hi => ?_, fun i s hi => ?_⟩
  · rcases h.stream_cases i with ⟨k, s', -, hacts⟩ | ⟨-, hsame⟩
    · obtain rfl : s' = s := Option.some.inj (hacts.stored.symm.trans hi)
      exact (hacts.booked hs).1.mono hle
    · exact (hs.sound i s (hsame ▸ hi)).mono hle
  · rcases h.stream_cases i with ⟨k, s', -, hacts⟩ | ⟨-, hsame⟩
    · cases hacts with
      | create next h =>
        have hcounter := h.counter
        rw [next] at hcounter
        omega
      | start h => exact (hs.below i _ h.stored).trans_le hnext
      | stop h => exact (hs.below i _ h.stored).trans_le hnext
      | withdraw h => exact (hs.below i _ h.stored).trans_le hnext
      | cancel h => exact (hs.below i _ h.stored).trans_le hnext
    · exact (hs.below i s (hsame ▸ hi)).trans_le hnext

end Calls

/-! ## The accounts of a run -/

section Runs

variable {crypto : Crypto} {chain : Chain X} {w₀ : World X} {o : Occ (World X) (Action X)}
  {id : UInt64} {s s' : TipStream} {tr : List (Occ (World X) (Action X))}

/-- What a step does with the stream `id`. -/
def streamCallOf (crypto : Crypto) (chain : Chain X) (id : UInt64)
    (o : Occ (World X) (Action X)) : Option StreamCall :=
  (Machine.accepted (program crypto) chain o).bind (Entrypoint.streamCall o.before id)

/-- The amounts of a step. -/
def amountsOf (crypto : Crypto) (chain : Chain X) (id : UInt64) (o : Occ (World X) (Action X)) :
    Amounts :=
  match streamCallOf crypto chain id o with
  | some k => k.amounts (transferred (paymentsOf o)) (unclaimed chain o.before id)
  | none => ⟨0, 0, 0, 0⟩

/-- The ledger time does not go back in a step. -/
def TimePasses (chain : Chain X) (o : Occ (World X) (Action X)) : Prop :=
  chain.timestamp o.before.ext ≤ chain.timestamp o.after.ext

instance (chain : Chain X) (o : Occ (World X) (Action X)) : Decidable (TimePasses chain o) :=
  inferInstanceAs (Decidable (chain.timestamp o.before.ext ≤ chain.timestamp o.after.ext))

/-- The accounts of the stream `id`, at `s` after the run `tr`. Its deposit was taken in once, and
what was not withdrawn, refunded or dropped is still in the stream. -/
structure Accounts (crypto : Crypto) (chain : Chain X) (id : UInt64) (s : TipStream)
    (tr : List (Occ (World X) (Action X))) : Prop where
  deposited : (tr.map fun o => (amountsOf crypto chain id o).deposited).sum = s.total
  divided : s.remaining + (tr.map fun o => (amountsOf crypto chain id o).paid).sum
    + (tr.map fun o => (amountsOf crypto chain id o).refunded).sum
    + (tr.map fun o => (amountsOf crypto chain id o).dropped).sum = s.total
  earned : (tr.map fun o => (amountsOf crypto chain id o).paid).sum ≤ s.withdrawn.val
  nonneg : ∀ o ∈ tr, 0 ≤ (amountsOf crypto chain id o).paid ∧
    0 ≤ (amountsOf crypto chain id o).refunded ∧ 0 ≤ (amountsOf crypto chain id o).dropped
  directed : ∀ o ∈ tr, ∀ k ∈ streamCallOf crypto chain id o, ∀ t ∈ paymentsOf o,
    t.token = s.token ∧ k.between chain.self s = some (t.source, t.dest)

/-- A step that is no call on the stream moves nothing for it. -/
theorem amountsOf_none (h : streamCallOf crypto chain id o = none) :
    amountsOf crypto chain id o = ⟨0, 0, 0, 0⟩ := by
  unfold amountsOf
  rw [h]

/-- A step acts on the stream as its label says, or does not touch it. -/
theorem stream_step (hstep : IsStep (TipJarLegacy.step crypto chain) o) (hw : Filed o.before)
    (id : UInt64) :
    (∃ c k s', Succeeds crypto chain o c ∧ streamCallOf crypto chain id o = some k ∧
        ActsOnStream chain c.auth id o.before o.after k s') ∨
      streamCallOf crypto chain id o = none ∧ streamOf o.after id = streamOf o.before id := by
  by_cases hcall : ∃ c, Succeeds crypto chain o c
  · obtain ⟨c, hc⟩ := hcall
    obtain ⟨r, hexec⟩ := hc.2
    have haccepted := Machine.accepted_of_succeeds hc
    rcases (exec_effect hw hexec).stream_cases id with ⟨k, s', hk, hacts⟩ | ⟨hno, hsame⟩
    · refine .inl ⟨c, k, s', hc, ?_, hacts⟩
      rw [streamCallOf, haccepted, Option.bind_some]
      exact hk
    · refine .inr ⟨?_, hsame⟩
      rw [streamCallOf, haccepted, Option.bind_some]
      exact hno
  · have hno : ∀ c, ¬Succeeds crypto chain o c := fun c hc => hcall ⟨c, hc⟩
    refine .inr ⟨?_, ?_⟩
    · rw [streamCallOf, Machine.accepted_of_not_succeeds hstep hno]
      rfl
    · rcases Machine.succeeds_or_outside hstep with hcall' | ⟨x, hx⟩
      · exact absurd hcall' hcall
      · rw [hx]
        rfl

/-- So does every step, as the clock does not go back. -/
theorem streamsSound_step (hstep : IsStep (TipJarLegacy.step crypto chain) o) (hw : Filed o.before)
    (hclock : TimePasses chain o) (hs : StreamsSound chain o.before) :
    StreamsSound chain o.after := by
  rcases Machine.succeeds_or_outside hstep with ⟨c, hc⟩ | ⟨x, hx⟩
  · obtain ⟨r, hexec⟩ := hc.2
    exact (exec_effect hw hexec).streamsSound hs hclock
  · have hle : (chain.timestamp o.before.ext).toNat ≤ (chain.timestamp o.after.ext).toNat :=
      UInt64.le_iff_toNat_le.mp hclock
    have hread : ∀ i, streamOf o.after i = streamOf o.before i := fun i => by rw [hx]; rfl
    have hnext : nextStreamId o.after = nextStreamId o.before := by rw [hx]; rfl
    refine ⟨fun i s hi => ?_, fun i s hi => ?_⟩
    · exact (hs.sound i s (hread i ▸ hi)).mono hle
    · rw [hnext]
      exact hs.below i s (hread i ▸ hi)

/-- A fresh contract has no streams. -/
theorem streamOf_fresh (h : Machine.Fresh w₀) (id : UInt64) : streamOf w₀ id = none := by
  unfold streamOf
  rw [h.pers]
  rfl

/-- So they are all sound. -/
theorem streamsSound_fresh (h : Machine.Fresh w₀) : StreamsSound chain w₀ := by
  refine ⟨fun i s hi => ?_, fun i s hi => ?_⟩
  · rw [streamOf_fresh h] at hi
    cases hi
  · rw [streamOf_fresh h] at hi
    cases hi

/-- By induction over the run. -/
theorem streamsSound_run (h₀ : Machine.Fresh w₀) (acts : List (Action X))
    (hclock : ∀ o ∈ trace (step crypto chain) w₀ acts, TimePasses chain o) :
    StreamsSound chain (run (step crypto chain) w₀ acts) :=
  run_invariant_of_trace _ (streamsSound_fresh h₀) fun _o ho hs =>
    streamsSound_step (isStep_of_mem _ ho) (filed_before h₀ ho) (hclock _ ho) hs

/-- In particular before each of its steps. -/
theorem streamsSound_before (h₀ : Machine.Fresh w₀) {acts : List (Action X)}
    (hclock : ∀ o ∈ trace (step crypto chain) w₀ acts, TimePasses chain o)
    (ho : o ∈ trace (step crypto chain) w₀ acts) : StreamsSound chain o.before :=
  trace_invariant_of_trace _ (streamsSound_fresh h₀)
    (fun _q hq hs => streamsSound_step (isStep_of_mem _ hq) (filed_before h₀ hq) (hclock _ hq) hs) ho

namespace Accounts

/-- A call that touches another stream. -/
theorem untouched (h : Accounts crypto chain id s tr) (ho : streamCallOf crypto chain id o = none) :
    Accounts crypto chain id s (tr ++ [o]) := by
  have hzero := amountsOf_none ho
  refine ⟨?_, ?_, ?_, fun q hq => ?_, fun q hq k hk => ?_⟩
  · simp [hzero, h.deposited]
  · simp [hzero, h.divided]
  · simpa [hzero] using h.earned
  · rcases List.mem_append.mp hq with hq | hq
    · exact h.nonneg q hq
    · rw [List.mem_singleton.mp hq, hzero]
      exact ⟨le_rfl, le_rfl, le_rfl⟩
  · rcases List.mem_append.mp hq with hq | hq
    · exact h.directed q hq k hk
    · rw [List.mem_singleton.mp hq, ho] at hk
      cases hk

/-- The call that creates the stream. -/
theorem created {k : StreamCall} (hquiet : ∀ q ∈ tr, streamCallOf crypto chain id q = none)
    (hk : streamCallOf crypto chain id o = some k)
    (h : Booked chain.self none s k (paymentsOf o) (amountsOf crypto chain id o)) :
    Accounts crypto chain id s (tr ++ [o]) := by
  have hsum : ∀ f : Amounts → Int, f ⟨0, 0, 0, 0⟩ = 0 →
      (tr.map fun q => f (amountsOf crypto chain id q)).sum = 0 := by
    intro f hf
    refine List.sum_eq_zero fun n hn => ?_
    obtain ⟨q, hq, rfl⟩ := List.mem_map.mp hn
    rw [amountsOf_none (hquiet q hq), hf]
  have hdivided : s.remaining + _ + _ + _ = 0 + (amountsOf crypto chain id o).deposited :=
    h.divided
  have hearned : 0 + (amountsOf crypto chain id o).paid ≤ s.withdrawn.val := h.earned
  have hdeposited : (amountsOf crypto chain id o).deposited = s.total := by
    rw [h.deposited, if_pos rfl]
  refine ⟨?_, ?_, ?_, fun q hq => ?_, fun q hq k' hk' => ?_⟩
  · rw [List.map_append, List.sum_append, hsum Amounts.deposited rfl]
    simpa using hdeposited
  · simp only [List.map_append, List.sum_append, hsum Amounts.paid rfl, hsum Amounts.refunded rfl,
      hsum Amounts.dropped rfl, List.map_cons, List.map_nil, List.sum_cons, List.sum_nil]
    omega
  · simp only [List.map_append, List.sum_append, hsum Amounts.paid rfl, List.map_cons,
      List.map_nil, List.sum_cons, List.sum_nil]
    omega
  · rcases List.mem_append.mp hq with hq | hq
    · rw [amountsOf_none (hquiet q hq)]
      exact ⟨le_rfl, le_rfl, le_rfl⟩
    · rw [List.mem_singleton.mp hq]
      exact h.nonneg
  · rcases List.mem_append.mp hq with hq | hq
    · rw [hquiet q hq] at hk'
      cases hk'
    · rw [List.mem_singleton.mp hq] at hk' ⊢
      obtain rfl : k = k' := Option.some.inj (hk.symm.trans hk')
      exact h.directed

/-- Every later call about the stream. -/
theorem booked {k : StreamCall} (h : Accounts crypto chain id s tr)
    (hk : streamCallOf crypto chain id o = some k)
    (hbooked : Booked chain.self (some s) s' k (paymentsOf o) (amountsOf crypto chain id o)) :
    Accounts crypto chain id s' (tr ++ [o]) := by
  have hterms := hbooked.terms s rfl
  have hdivided : s'.remaining + _ + _ + _
      = s.remaining + (amountsOf crypto chain id o).deposited := hbooked.divided
  have hearned : s.withdrawn.val + (amountsOf crypto chain id o).paid ≤ s'.withdrawn.val :=
    hbooked.earned
  have hdeposited : (amountsOf crypto chain id o).deposited = 0 := by
    rw [hbooked.deposited, if_neg (by simp)]
  have hbetween : ∀ k : StreamCall, k.between chain.self s' = k.between chain.self s := by
    intro k
    cases k <;> simp [StreamCall.between, hterms.sender, hterms.creator]
  have hsofar := h.divided
  have hpaid := h.earned
  have htotal := hterms.total
  refine ⟨?_, ?_, ?_, fun q hq => ?_, fun q hq k' hk' => ?_⟩
  · rw [List.map_append, List.sum_append, h.deposited]
    simp [hdeposited, htotal]
  · simp only [List.map_append, List.sum_append, List.map_cons, List.map_nil, List.sum_cons,
      List.sum_nil]
    omega
  · simp only [List.map_append, List.sum_append, List.map_cons, List.map_nil, List.sum_cons,
      List.sum_nil]
    omega
  · rcases List.mem_append.mp hq with hq | hq
    · exact h.nonneg q hq
    · rw [List.mem_singleton.mp hq]
      exact hbooked.nonneg
  · rcases List.mem_append.mp hq with hq | hq
    · rw [hterms.token, hbetween]
      exact h.directed q hq k' hk'
    · rw [List.mem_singleton.mp hq] at hk' ⊢
      obtain rfl : k = k' := Option.some.inj (hk.symm.trans hk')
      exact hbooked.directed

end Accounts

/-- By induction along the run: before a stream is created no call touches it. -/
theorem accounts_run (h₀ : Machine.Fresh w₀) (acts : List (Action X))
    (hclock : ∀ o ∈ trace (step crypto chain) w₀ acts, TimePasses chain o) (id : UInt64) :
    (streamOf (run (step crypto chain) w₀ acts) id = none →
        ∀ o ∈ trace (step crypto chain) w₀ acts, streamCallOf crypto chain id o = none) ∧
      ∀ s ∈ streamOf (run (step crypto chain) w₀ acts) id,
        Accounts crypto chain id s (trace (step crypto chain) w₀ acts) := by
  induction acts using List.reverseRecOn with
  | nil =>
    refine ⟨fun _ o ho => ?_, fun s hs => ?_⟩
    · cases ho
    · rw [run_nil, streamOf_fresh h₀] at hs
      cases hs
  | append_singleton acts a ih =>
    rw [trace_concat] at hclock ⊢
    rw [run_concat]
    have hbefore : ∀ o ∈ trace (step crypto chain) w₀ acts, TimePasses chain o :=
      fun o ho => hclock o (List.mem_append_left _ ho)
    obtain ⟨hnone, hsome⟩ := ih hbefore
    have hsound := streamsSound_run h₀ acts hbefore
    have hfiled : Filed (run (step crypto chain) w₀ acts) :=
      run_invariant _ (Filed.step crypto chain) (.of_fresh h₀) acts
    generalize run (step crypto chain) w₀ acts = w at *
    rcases stream_step (o := ⟨w, a, step crypto chain w a⟩) rfl hfiled id with
      ⟨c, k, s', -, hk, hacts⟩ | ⟨hk, hsame⟩
    · have hstored : streamOf (step crypto chain w a) id = some s' := hacts.stored
      obtain ⟨-, ts, hsends, hbooked⟩ := hacts.booked hsound
      have hts : paymentsOf ⟨w, a, step crypto chain w a⟩ = ts := hsends.drop_transfers
      have hamounts : amountsOf crypto chain id ⟨w, a, step crypto chain w a⟩
          = k.amounts (transferred ts) (unclaimed chain w id) := by
        unfold amountsOf
        rw [hk, hts]
      refine ⟨fun hno => ?_, fun s hs => ?_⟩
      · rw [hstored] at hno
        cases hno
      · obtain rfl : s' = s := Option.some.inj (hstored.symm.trans hs)
        rw [← hts] at hbooked
        cases hstream : streamOf w id with
        | none =>
          rw [hstream] at hbooked
          exact .created (hnone hstream) hk (by rw [hamounts, ← hts]; exact hbooked)
        | some before =>
          rw [hstream] at hbooked
          exact (hsome before hstream).booked hk (by rw [hamounts, ← hts]; exact hbooked)
    · have hsame : streamOf (step crypto chain w a) id = streamOf w id := hsame
      rw [hsame]
      refine ⟨fun hno o ho => ?_, fun s hs => (hsome s hs).untouched hk⟩
      rcases List.mem_append.mp ho with ho | ho
      · exact hnone hno o ho
      · rw [List.mem_singleton.mp ho]
        exact hk

/-- In every run in which time does not go back, the deposit of a stream is accounted for to the last
unit: it was taken from the sender once, and what is not in the stream any more was paid to the
creator, refunded to the sender, or dropped by a stop or a cancellation. The creator was never paid
more than the clock of the stream had counted, which is more than the time it was active when it was
stopped and not restarted. -/
theorem stream_accounts (h₀ : Machine.Fresh w₀) (acts : List (Action X))
    (hclock : ∀ o ∈ trace (step crypto chain) w₀ acts, TimePasses chain o) {id : UInt64}
    {s : TipStream} (hs : streamOf (run (step crypto chain) w₀ acts) id = some s) :
    Accounts crypto chain id s (trace (step crypto chain) w₀ acts) ∧ 0 ≤ s.remaining ∧
      ((trace (step crypto chain) w₀ acts).map fun o => (amountsOf crypto chain id o).paid).sum
        ≤ s.accrued (chain.timestamp (run (step crypto chain) w₀ acts).ext).toNat := by
  have haccounts := (accounts_run h₀ acts hclock id).2 s hs
  have hsound := (streamsSound_run h₀ acts hclock).sound id s hs
  refine ⟨haccounts, hsound.remaining_nonneg, ?_⟩
  exact haccounts.earned.trans (hsound.earned.trans (hsound.accrued_mono hsound.updated))

end Runs

/-- A stream of 5 a second for 100 seconds, cancelled after 60. -/
def sampleStream : List (Action (Clocked Balances)) :=
  setUp ++ [.call ⟨2, [⟨4⟩], .createStream ⟨4⟩ ⟨5⟩ ⟨2⟩ 5 100⟩,
    .outside ⟨fun _ a => if a = ⟨0⟩ then 500 else 1000, 140⟩,
    .call ⟨3, [⟨5⟩], .withdrawStreamed ⟨5⟩ 0⟩,
    .outside ⟨fun _ a => if a = ⟨0⟩ then 300 else 1000, 160⟩,
    .call ⟨4, [⟨4⟩], .cancelStream ⟨4⟩ 0⟩]

/-- Of the 500 the creator got 200 and the sender 200 back; the rest was dropped. -/
theorem stream_accounts_sample :
    let tr := trace (step sampleCrypto sampleChain) sampleWorld sampleStream
    (tr.map fun o => (amountsOf sampleCrypto sampleChain 0 o).paid).sum
      + (tr.map fun o => (amountsOf sampleCrypto sampleChain 0 o).refunded).sum
      + (tr.map fun o => (amountsOf sampleCrypto sampleChain 0 o).dropped).sum = 500 := by
  intro tr
  have hclock : ∀ o ∈ trace (step sampleCrypto sampleChain) sampleWorld sampleStream,
      TimePasses sampleChain o := by
    intro o ho
    simp only [sampleStream, setUp, List.cons_append, List.nil_append, trace, List.mem_cons,
      List.not_mem_nil, or_false] at ho
    rcases ho with rfl | rfl | rfl | rfl | rfl | rfl | rfl
    · show (100 : UInt64) ≤ 100
      decide
    · show (100 : UInt64) ≤ 100
      decide
    · show (100 : UInt64) ≤ 100
      decide
    · show (100 : UInt64) ≤ 140
      decide
    · show (140 : UInt64) ≤ 140
      decide
    · show (140 : UInt64) ≤ 160
      decide
    · show (160 : UInt64) ≤ 160
      decide
  obtain ⟨haccounts, -⟩ := @stream_accounts _ sampleCrypto sampleChain sampleWorld
    (Machine.freshEnv_fresh _) sampleStream hclock 0 _ rfl
  have hdivided := haccounts.divided
  rw [show TipStream.remaining _ = 0 from rfl, Int.zero_add] at hdivided
  exact hdivided.trans rfl

end TipJarLegacy
