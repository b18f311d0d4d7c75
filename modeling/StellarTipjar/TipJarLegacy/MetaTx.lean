import StellarTipjar.TipJarLegacy.Channels

/-!
# TipJarLegacy — meta-transactions are executed once

A relayer submits what a user has signed. The nonces of a sender are used up one by one and the
hash of an executed request is never accepted again (`MetaLog`), so over a run every signed request
takes effect at most once, in the order of its nonces, whoever submits it and whatever is called in
between; the stored records are exactly the executed requests.
-/

namespace TipJarLegacy

open Lib Soroban Contract

variable {X : Type} {crypto : Crypto} {chain : Chain X} {call : Call} {w w' : World X}
  {auth : List Address}

/-! ## Reading the state -/

def consumed (w : World X) (hash : BytesN 32) : Bool :=
  (w.pers.get (.metaTxNullifier hash) : Option Bool).getD false

def metaRecordOf (w : World X) (id : UInt64) : Option MetaTxRecord := w.pers.get (.metaTxRecord id)

/-- The record of a request that `relayer` submitted. -/
def MetaTipRequest.record (req : MetaTipRequest) (relayer : Address) (id executedAt : UInt64) :
    MetaTxRecord where
  id := id
  source := req.source
  relayer := relayer
  dest := req.dest
  token := req.token
  amount := req.amount
  nonce := req.nonce
  executedAt := executedAt
  action := req.action

/-! ## One call -/

/-- Everything but the execution of a meta-transaction leaves their book-keeping alone. -/
structure KeepsMeta (w w' : World X) : Prop where
  pers : ∀ k : DataKey, k.isMeta → w'.pers.get k = w.pers.get k
  records : nextMetaId w' = nextMetaId w

theorem MovesTipChannel.keepsMeta {t c T : Address} {m : Channel.Move ℕ} {ch : TipStateChannel}
    (h : MovesTipChannel chain auth t c T m ch w w') : KeepsMeta w w' := by
  refine ⟨fun k hk => h.get_of_ne ?_ fun i => ?_, h.records⟩
  · rintro rfl
    exact hk
  · rintro rfl
    exact hk

theorem MetaActs.keepsMeta {req : MetaTipRequest} (h : MetaActs chain auth req w w') :
    KeepsMeta w w' := by
  cases h with
  | tip h =>
    obtain ⟨balance, total, -, hpers⟩ := h.pers
    refine ⟨fun k hk => ?_, h.records⟩
    rw [hpers, Store.get_set_of_ne _ (by rintro rfl; exact hk),
      Store.get_set_of_ne _ (by rintro rfl; exact hk)]
  | openChannel action ch h => exact h.keepsMeta

/-- What the user pays by a meta-transaction. -/
theorem MetaActs.sends {req : MetaTipRequest} (h : MetaActs chain auth req w w') :
    Sends chain [⟨req.token, req.source, chain.self, req.amount⟩] w w' := by
  cases h with
  | tip h => exact h.sends
  | openChannel action ch h =>
    have hamount : ch.deposit = req.amount := I128.ext h.step.of_fund
    have hsends := h.sends
    rw [TipStateChannel.payments, hamount] at hsends
    exact hsends

theorem MovesStream.keepsMeta {id : UInt64} {s s' : TipStream} {ts : List Transfer}
    (h : MovesStream chain id s s' ts w w') : KeepsMeta w w' := by
  refine ⟨fun k hk => ?_, h.records⟩
  rw [h.pers, Store.get_set_of_ne _ (by rintro rfl; exact hk)]

/-- A call executes a meta-transaction or does not touch their book-keeping. -/
theorem Effect.meta_cases (h : Effect crypto chain call w w') :
    (∃ relayer req w₁, call.entry = .executeMetaTip relayer req ∧
        Verified crypto (chain.timestamp w.ext) relayer req w ∧
        MetaActs chain call.auth req w w₁ ∧ Finalises crypto relayer req w₁ w') ∨
      (∀ relayer req, call.entry ≠ .executeMetaTip relayer req) ∧ KeepsMeta w w' := by
  cases h with
  | streamCreated sender creator token rate duration total s entry h =>
    obtain ⟨senderIds, creatorIds, hpers⟩ := h.pers
    refine .inr ⟨by simp [entry], fun k hk => ?_, h.records⟩
    rw [hpers, Store.get_set_of_ne _ (by rintro rfl; exact hk),
      Store.get_set_of_ne _ (by rintro rfl; exact hk),
      Store.get_set_of_ne _ (by rintro rfl; exact hk)]
  | streamStarted id s s' entry h => exact .inr ⟨by simp [entry], h.keepsMeta⟩
  | streamStopped id s streamed entry h => exact .inr ⟨by simp [entry], h.keepsMeta⟩
  | streamWithdrawn id s streamed available entry h => exact .inr ⟨by simp [entry], h.keepsMeta⟩
  | streamCancelled id s streamed remaining entry h => exact .inr ⟨by simp [entry], h.keepsMeta⟩
  | channelMoved a b T m ch entry h =>
    refine .inr ⟨fun relayer req heq => ?_, fun k hk => ?_, h.records⟩
    · rw [heq] at entry
      cases entry
    · rw [h.pers, Store.get_set_of_ne _ (by rintro rfl; exact hk)]
  | tipChannelMoved t c T m ch entry direct opener h => exact .inr ⟨direct, h.keepsMeta⟩
  | metaExecuted relayer req w₁ entry verified acts h =>
    exact .inl ⟨relayer, req, w₁, entry, verified, acts, h⟩
  | silent entry h =>
    refine .inr ⟨fun relayer req heq => ?_, fun k _ => by rw [h.pers], h.records⟩
    rw [heq] at entry
    cases entry

/-! ## Runs -/

variable {w₀ : World X} {o : Occ (World X) (Action X)} {tr : List (Occ (World X) (Action X))}

/-- The request a step executes, with the relayer who submitted it. -/
def executedOf (crypto : Crypto) (chain : Chain X) (o : Occ (World X) (Action X)) :
    Option (Address × MetaTipRequest) :=
  (Machine.accepted (program crypto) chain o).bind fun
    | .executeMetaTip relayer req => some (relayer, req)
    | _ => none

/-- The requests of a run, in the order of their execution. -/
def executed (crypto : Crypto) (chain : Chain X) (tr : List (Occ (World X) (Action X))) :
    List (Address × MetaTipRequest) := tr.filterMap (executedOf crypto chain)

/-- The nonces the sender has used. -/
def noncesOf (sender : Address) (reqs : List (Address × MetaTipRequest)) : List Nat :=
  (reqs.filter fun p => p.2.source = sender).map fun p => p.2.nonce.toNat

/-- The book of the meta-transactions after a run that executed `reqs`. -/
structure MetaLog (crypto : Crypto) (w : World X) (reqs : List (Address × MetaTipRequest)) :
    Prop where
  nonces : ∀ sender, noncesOf sender reqs = List.range (metaNonce w sender).toNat
  spent : ∀ p ∈ reqs, consumed w (MetaTx.canonicalHash crypto p.2) = true
  once : (reqs.map fun p => MetaTx.canonicalHash crypto p.2).Nodup
  count : (nextMetaId w).toNat = reqs.length
  records : ∀ i : UInt64, ∀ p ∈ reqs[i.toNat]?, ∃ executedAt,
    metaRecordOf w i = some (p.2.record p.1 i executedAt)

theorem MetaLog.kept {reqs : List (Address × MetaTipRequest)} (h : MetaLog crypto w reqs)
    (hkept : KeepsMeta w w') : MetaLog crypto w' reqs := by
  have hnonce : ∀ sender, metaNonce w' sender = metaNonce w sender := by
    intro sender
    unfold metaNonce
    rw [hkept.pers (.metaTxNonce sender) trivial]
  refine ⟨fun sender => ?_, fun p hp => ?_, h.once, ?_, fun i p hp => ?_⟩
  · rw [hnonce]
    exact h.nonces sender
  · unfold consumed
    rw [hkept.pers (.metaTxNullifier (MetaTx.canonicalHash crypto p.2)) trivial]
    exact h.spent p hp
  · rw [hkept.records]
    exact h.count
  · unfold metaRecordOf
    rw [hkept.pers (.metaTxRecord i) trivial]
    exact h.records i p hp

/-- The execution of one request. -/
theorem MetaLog.executes {reqs : List (Address × MetaTipRequest)} {relayer : Address}
    {req : MetaTipRequest} (h : MetaLog crypto w reqs)
    (hfresh : consumed w (MetaTx.canonicalHash crypto req) = false)
    (hnonce : req.nonce = metaNonce w req.source) (hfinal : Finalises crypto relayer req w w') :
    MetaLog crypto w' (reqs ++ [(relayer, req)]) := by
  obtain ⟨next, executedAt, hnext, hpers⟩ := hfinal.pers
  have hcounter := hfinal.counter
  refine ⟨fun sender => ?_, fun p hp => ?_, ?_, ?_, fun i p hp => ?_⟩
  · have hold := h.nonces sender
    by_cases hsender : req.source = sender
    · subst hsender
      have hread : metaNonce w' req.source = next := by
        unfold metaNonce
        rw [hpers, Store.get_set_of_ne _ (by simp), Store.get_set_self]
        rfl
      rw [hread, hnext, List.range_succ, ← hold]
      simp [noncesOf, hnonce]
    · have hread : metaNonce w' sender = metaNonce w sender := by
        unfold metaNonce
        rw [hpers, Store.get_set_of_ne _ (by simp),
          Store.get_set_of_ne _ (by simpa using Ne.symm hsender), Store.get_set_of_ne _ (by simp)]
      rw [hread, ← hold]
      simp [noncesOf, hsender]
  · have hread : ∀ hash, consumed w hash = true ∨ hash = MetaTx.canonicalHash crypto req →
        consumed w' hash = true := by
      intro hash hhash
      unfold consumed
      rw [hpers, Store.get_set_of_ne _ (by simp), Store.get_set_of_ne _ (by simp)]
      by_cases hsame : hash = MetaTx.canonicalHash crypto req
      · subst hsame
        rw [Store.get_set_self]
        rfl
      · rw [Store.get_set_of_ne _ (by simpa using hsame)]
        exact hhash.resolve_right hsame
    rcases List.mem_append.mp hp with hp | hp
    · exact hread _ (.inl (h.spent p hp))
    · rw [List.mem_singleton.mp hp]
      exact hread _ (.inr rfl)
  · rw [List.map_append, List.nodup_append]
    refine ⟨h.once, by simp, ?_⟩
    intro hash hhash hash' hhash' heq
    obtain ⟨p, hp, rfl⟩ := List.mem_map.mp hhash
    rw [List.map_singleton, List.mem_singleton] at hhash'
    have hspent := h.spent p hp
    rw [heq, hhash', hfresh] at hspent
    cases hspent
  · rw [hcounter, h.count]
    simp
  · have hlength := h.count
    by_cases hnew : i = nextMetaId w
    · subst hnew
      rw [hlength, List.getElem?_concat_length] at hp
      obtain rfl := Option.some.inj hp
      refine ⟨executedAt, ?_⟩
      unfold metaRecordOf
      rw [hpers, Store.get_set_self]
      rfl
    · have hi : i.toNat < reqs.length := by
        have hlt := (List.getElem?_eq_some_iff.mp hp).1
        rw [List.length_append, List.length_singleton] at hlt
        have hne : i.toNat ≠ (nextMetaId w).toNat := fun heq => hnew (UInt64.toNat_inj.mp heq)
        omega
      rw [List.getElem?_append_left hi] at hp
      obtain ⟨at_, hrecord⟩ := h.records i p hp
      refine ⟨at_, ?_⟩
      unfold metaRecordOf
      rw [hpers, Store.get_set_of_ne _ (by simpa using hnew), Store.get_set_of_ne _ (by simp),
        Store.get_set_of_ne _ (by simp)]
      exact hrecord

/-- A step executes the request its label says, or leaves the book-keeping alone. -/
theorem meta_step (hstep : IsStep (TipJarLegacy.step crypto chain) o) (hw : Filed o.before) :
    (∃ (c : Call) (relayer : Address) (req : MetaTipRequest) (w₁ : World X),
        executedOf crypto chain o = some (relayer, req) ∧
        Verified crypto (chain.timestamp o.before.ext) relayer req o.before ∧
        MetaActs chain c.auth req o.before w₁ ∧ Finalises crypto relayer req w₁ o.after) ∨
      executedOf crypto chain o = none ∧ KeepsMeta o.before o.after := by
  by_cases hcall : ∃ c, Succeeds crypto chain o c
  · obtain ⟨c, hc⟩ := hcall
    obtain ⟨r, hexec⟩ := hc.2
    have haccepted := Machine.accepted_of_succeeds hc
    rcases (exec_effect hw hexec).meta_cases with
      ⟨relayer, req, w₁, hentry, hverified, hacts, hfinal⟩ | ⟨hno, hkept⟩
    · refine .inl ⟨c, relayer, req, w₁, ?_, hverified, hacts, hfinal⟩
      rw [executedOf, haccepted, hentry]
      rfl
    · refine .inr ⟨?_, hkept⟩
      rw [executedOf, haccepted, Option.bind_some]
      cases hentry : c.entry with
      | executeMetaTip relayer req => exact absurd hentry (hno relayer req)
      | _ => rfl
  · have hno : ∀ c, ¬Succeeds crypto chain o c := fun c hc => hcall ⟨c, hc⟩
    refine .inr ⟨?_, ?_⟩
    · rw [executedOf, Machine.accepted_of_not_succeeds hstep hno]
      rfl
    · rcases Machine.succeeds_or_outside hstep with hcall' | ⟨x, hx⟩
      · exact absurd hcall' hcall
      · rw [hx]
        exact ⟨fun _ _ => rfl, rfl⟩

theorem MetaLog.fresh (h : Machine.Fresh w₀) : MetaLog crypto w₀ [] := by
  refine ⟨fun sender => ?_, fun p hp => ?_, List.nodup_nil, ?_, fun i p hp => ?_⟩
  · have hzero : metaNonce w₀ sender = 0 := by
      unfold metaNonce
      rw [h.pers]
      rfl
    rw [hzero]
    rfl
  · cases hp
  · unfold nextMetaId
    rw [h.inst]
    rfl
  · rw [List.getElem?_nil] at hp
    cases hp

theorem metaLog_run (h₀ : Machine.Fresh w₀) (acts : List (Action X)) :
    MetaLog crypto (run (step crypto chain) w₀ acts)
      (executed crypto chain (trace (step crypto chain) w₀ acts)) := by
  induction acts using List.reverseRecOn with
  | nil => exact .fresh h₀
  | append_singleton acts a ih =>
    have hfiled : Filed (run (step crypto chain) w₀ acts) :=
      run_invariant _ (Filed.step crypto chain) (.of_fresh h₀) acts
    unfold executed at ih ⊢
    rw [run_concat, trace_concat, List.filterMap_append, List.filterMap_cons, List.filterMap_nil]
    generalize run (step crypto chain) w₀ acts = w at *
    rcases meta_step (o := ⟨w, a, step crypto chain w a⟩) rfl hfiled with
      ⟨c, relayer, req, w₁, hlabel, hverified, hacts, hfinal⟩ | ⟨hlabel, hkept⟩
    · rw [hlabel]
      have hkept := hacts.keepsMeta
      have hfresh : consumed w₁ (MetaTx.canonicalHash crypto req) = false := by
        unfold consumed
        rw [hkept.pers (.metaTxNullifier (MetaTx.canonicalHash crypto req)) trivial]
        exact hverified.fresh
      have hnonce : req.nonce = metaNonce w₁ req.source := by
        unfold metaNonce
        rw [hkept.pers (.metaTxNonce req.source) trivial]
        exact hverified.nonce
      exact (ih.kept hkept).executes hfresh hnonce hfinal
    · rw [hlabel, List.append_nil]
      exact ih.kept hkept

/-- In every run, whoever relays and whatever is called in between: the requests executed for a
sender have the nonces `0, 1, 2, …` without a gap, no signed request is executed twice, the stored
records are the executed requests in their order, and each passed the checks and moved exactly its
amount from the sender to the contract. -/
theorem meta_exactly_once (h₀ : Machine.Fresh w₀) (acts : List (Action X)) :
    MetaLog crypto (run (step crypto chain) w₀ acts)
        (executed crypto chain (trace (step crypto chain) w₀ acts)) ∧
      ∀ o ∈ trace (step crypto chain) w₀ acts, ∀ p ∈ executedOf crypto chain o,
        Verified crypto (chain.timestamp o.before.ext) p.1 p.2 o.before ∧
          paymentsOf o = [⟨p.2.token, p.2.source, chain.self, p.2.amount⟩] := by
  refine ⟨metaLog_run h₀ acts, fun o ho p hp => ?_⟩
  rcases meta_step (isStep_of_mem _ ho) (filed_before h₀ ho) with
    ⟨c, relayer, req, w₁, hlabel, hverified, hacts, hfinal⟩ | ⟨hlabel, -⟩
  · obtain rfl : (relayer, req) = p := Option.some.inj (hlabel.symm.trans hp)
    refine ⟨hverified, ?_⟩
    rw [paymentsOf, hfinal.transfers]
    exact hacts.sends.drop_transfers
  · rw [hlabel] at hp
    cases hp

/-- A trusted relayer submits the request of `⟨4⟩`, and then tries it again. -/
def relayedTwice : List (Action (Clocked Balances)) :=
  let req : MetaTipRequest :=
    ⟨⟨4⟩, ⟨5⟩, ⟨2⟩, 300, 0, 1000, "", .tip, sampleSignature, sampleKey⟩
  setUp ++ [.call ⟨2, [⟨9⟩], .registerMetaRelayer ⟨9⟩ ⟨7⟩⟩,
    .call ⟨3, [⟨7⟩], .executeMetaTip ⟨7⟩ req⟩, .call ⟨4, [⟨7⟩], .executeMetaTip ⟨7⟩ req⟩]

/-- It was executed once. -/
theorem meta_exactly_once_sample :
    noncesOf ⟨4⟩ (executed sampleCrypto sampleChain
      (trace (step sampleCrypto sampleChain) sampleWorld relayedTwice)) = [0] := by
  have hlog := (@meta_exactly_once _ sampleCrypto sampleChain sampleWorld
    (Machine.freshEnv_fresh _) relayedTwice).1
  have hnonce : metaNonce (run (step sampleCrypto sampleChain) sampleWorld relayedTwice) ⟨4⟩ = 1 := by
    decide +kernel
  rw [hlog.nonces, hnonce]
  rfl

end TipJarLegacy
