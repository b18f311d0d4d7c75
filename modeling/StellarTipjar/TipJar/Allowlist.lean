import StellarTipjar.TipJar.Accounting
import StellarTipjar.TipJar.V1Interface

/-!
# TipJar — the token allowlist

`AllowedTokens` is a stored list that `init` starts, `add_token` appends to and `remove_token`
copies without one token. `allowlist_step` says what a call can do to it; from it the list at the
end of a run is described by the history alone: the tokens on it are those whose last naming call
added them, in the order of those calls (`allowlist_laws`).
-/

namespace TipJar

open Lib Soroban Contract

variable {X : Type}

/-! ## The loop of `remove_token` -/

theorem removeLoop_foldl (token : Address) (l : List Address) (found : Bool) (kept : List Address) :
    l.foldl (fun acc existing =>
        if existing ≠ token then (acc.1, acc.2 ++ [existing]) else (true, acc.2)) (found, kept)
      = (found || decide (token ∈ l), kept ++ l.filter (· ≠ token)) := by
  induction l generalizing found kept with
  | nil => simp
  | cons existing l ih =>
    rw [List.foldl_cons]
    by_cases hne : existing = token
    · rw [if_neg (not_not.mpr hne), ih]
      simp [hne]
    · rw [if_pos hne, ih]
      simp [hne, Ne.symm hne]

theorem removeLoop_eq (token : Address) (l : List Address) :
    removeLoop token l = (decide (token ∈ l), l.filter (· ≠ token)) := by
  rw [removeLoop, removeLoop_foldl]
  simp

/-! ## What a call does to the list -/

/-- The token a call puts on the list. -/
def Entrypoint.adds : Entrypoint → Option Address
  | .init token _ _ => some token
  | .addToken _ token => some token
  | _ => none

/-- The token a call takes off the list. -/
def Entrypoint.removes : Entrypoint → Option Address
  | .removeToken _ token => some token
  | _ => none

inductive AllowlistStep (call : Call) (w w' : World X) : Prop where
  | added (token : Address) (entry : call.entry.adds = some token)
      (room : (allowlist w).length < maxAllowedTokens) (absent : token ∉ allowlist w)
      (after : allowlist w' = allowlist w ++ [token])
  | removed (token : Address) (entry : call.entry.removes = some token)
      (after : allowlist w' = (allowlist w).filter (· ≠ token))
  | kept (adds : call.entry.adds = none) (removes : call.entry.removes = none)
      (after : allowlist w' = allowlist w)

section Step

variable {chain : Chain X} {call : Call} {w w' : World X} {r : Ret}

theorem allowlist_set {tokens : List Address} (h : w'.inst = w.inst.set .allowedTokens tokens) :
    allowlist w' = tokens := by
  rw [allowlist, h]
  simp

theorem allowlist_frame (h : Governs call w w') (hk : .allowedTokens ∉ call.entry.instanceWrites) :
    allowlist w' = allowlist w := by
  rw [allowlist, allowlist, h.frame hk]

/-- `init` cannot succeed again, so the list only changes by `add_token` and `remove_token`. -/
theorem allowlist_step (h : Governs call w w') (hadmin : (w.inst.get .admin).isSome) :
    AllowlistStep call w w' := by
  have hkept := allowlist_frame h
  obtain ⟨sequence, auth, entry⟩ := call
  cases entry with
  | init token admin ledgers =>
    rw [h.1] at hadmin
    cases hadmin
  | addToken admin token =>
    obtain ⟨-, hroom, habsent, hinst⟩ := h
    exact .added token rfl hroom habsent (allowlist_set hinst)
  | removeToken admin token =>
    obtain ⟨-, -, hinst⟩ := h
    refine .removed token rfl ?_
    rw [allowlist_set hinst, removeLoop_eq]
  | _ => exact .kept rfl rfl (hkept (by simp [Entrypoint.instanceWrites]))

end Step

/-! ## When the calls fail -/

section Failure

variable {chain : Chain X} {sequence : UInt32} {auth : List Address} {w : World X}

/-- An entrypoint of a contract that the host can load fails exactly when its body does. -/
theorem fails_iff {entry : Entrypoint} {P : Prop}
    (hlive : InstanceLive (chain.ctx sequence auth : Ctx DataKey DataKey.Val Event Error X) w)
    (h : twp (program entry) (chain.ctx sequence auth) w (fun _ _ => True) ↔ P) :
    Fails chain ⟨sequence, auth, entry⟩ w ↔ ¬P := by
  have hruns : (∃ r w', exec chain ⟨sequence, auth, entry⟩ w = .ok (r, w')) ↔ P := by
    rw [← h]
    have hinvoke : twp (invoke entry) (chain.ctx sequence auth) w (fun _ _ => True) ↔
        twp (program entry) (chain.ctx sequence auth) w (fun _ _ => True) := by
      simp only [invoke, twp_bind, twp_loadInstance]
      exact and_iff_right hlive
    rw [← hinvoke]
    constructor
    · rintro ⟨r, w', hexec⟩
      exact ⟨r, w', hexec, trivial⟩
    · rintro ⟨r, w', hexec, -⟩
      exact ⟨r, w', hexec⟩
  rw [← hruns, Fails]
  simp only [not_exists, ne_eq]

theorem addToken_fails_iff (admin token : Address)
    (hlive : InstanceLive (chain.ctx sequence auth : Ctx DataKey DataKey.Val Event Error X) w) :
    Fails chain ⟨sequence, auth, .addToken admin token⟩ w ↔
      ¬ByAdmin admin auth w ∨ maxAllowedTokens ≤ (allowlist w).length ∨ token ∈ allowlist w := by
  rw [fails_iff hlive (P := ByAdmin admin auth w ∧ (allowlist w).length < maxAllowedTokens ∧
    token ∉ allowlist w)]
  · rw [not_and_or, not_and_or, not_lt, not_not]
  · simp only [program, addToken, twp_bind, twp_requireAuth, twp_requireAdmin, twp_instanceGet,
      twp_panicIf, twp_instanceSet, twp_bumpInstanceTtl, twp_pure, not_le, and_true]
    exact and_assoc.symm

theorem removeToken_fails_iff (admin token : Address)
    (hlive : InstanceLive (chain.ctx sequence auth : Ctx DataKey DataKey.Val Event Error X) w) :
    Fails chain ⟨sequence, auth, .removeToken admin token⟩ w ↔
      ¬ByAdmin admin auth w ∨ token ∉ allowlist w := by
  rw [fails_iff hlive (P := ByAdmin admin auth w ∧ token ∈ allowlist w)]
  · rw [not_and_or]
  · simp only [program, removeToken, twp_bind, twp_requireAuth, twp_requireAdmin, twp_instanceGet,
      twp_panicIf, twp_instanceSet, twp_bumpInstanceTtl, twp_pure, removeLoop_eq,
      decide_eq_false_iff_not, not_not, and_true]
    exact and_assoc.symm

/-- Only a token on the list can be tipped in. -/
theorem tip_allowed {sender creator token : Address} {amount : I128} {r : Ret} {w' : World X}
    (h : exec chain ⟨sequence, auth, .tip sender creator token amount⟩ w = .ok (r, w')) :
    token ∈ allowlist w := by
  obtain ⟨fee, htipped⟩ := exec_spec h rfl (tip_spec sender creator token amount)
  exact htipped.allowed

end Failure

/-! ## The list and the history -/

/-- `o` is a successful call that puts `T` on the list. -/
def AddsToken (chain : Chain X) (o : Occ (World X) (Action X)) (T : Address) : Prop :=
  ∃ call, Succeeds chain o call ∧ call.entry.adds = some T

/-- `o` is a successful call that takes `T` off the list. -/
def RemovesToken (chain : Chain X) (o : Occ (World X) (Action X)) (T : Address) : Prop :=
  ∃ call, Succeeds chain o call ∧ call.entry.removes = some T

/-- The last successful call that names `T`, in a history that starts with `init(token, ..)`, is
the `n`-th one and puts it on the list; `init` itself counts as number 0. -/
def InsertedAt (chain : Chain X) (token : Address) (tr : List (Occ (World X) (Action X)))
    (T : Address) (n : ℕ) : Prop :=
  (match n with
    | 0 => T = token
    | n + 1 => ∃ o, tr[n]? = some o ∧ AddsToken chain o T) ∧
  ∀ q ∈ tr.drop n, ¬AddsToken chain q T ∧ ¬RemovesToken chain q T

section History

variable {chain : Chain X} {token T : Address} {tr : List (Occ (World X) (Action X))}
  {o : Occ (World X) (Action X)} {n : ℕ}

theorem InsertedAt.le (h : InsertedAt chain token tr T n) : n ≤ tr.length := by
  cases n with
  | zero => exact Nat.zero_le _
  | succ n =>
    obtain ⟨⟨o, ho, -⟩, -⟩ := h
    exact (List.getElem?_eq_some_iff.mp ho).1

/-- One more call: it is the last one to name `T`, or the last one was before it. -/
theorem insertedAt_concat :
    InsertedAt chain token (tr ++ [o]) T n ↔
      (InsertedAt chain token tr T n ∧ ¬AddsToken chain o T ∧ ¬RemovesToken chain o T) ∨
        (n = tr.length + 1 ∧ AddsToken chain o T) := by
  constructor
  · intro h
    have hle := h.le
    rw [List.length_append, List.length_singleton] at hle
    rcases Nat.lt_or_ge tr.length n with hlast | hearlier
    · obtain rfl : n = tr.length + 1 := by omega
      obtain ⟨⟨q, hq, hadds⟩, -⟩ := h
      rw [List.getElem?_concat_length] at hq
      cases hq
      exact .inr ⟨rfl, hadds⟩
    · obtain ⟨hput, hquiet⟩ := h
      rw [List.drop_append_of_le_length hearlier] at hquiet
      refine .inl ⟨⟨?_, fun q hq => hquiet q (by simp [hq])⟩, hquiet o (by simp)⟩
      cases n with
      | zero => exact hput
      | succ n =>
        obtain ⟨q, hq, hadds⟩ := hput
        rw [List.getElem?_append_left hearlier] at hq
        exact ⟨q, hq, hadds⟩
  · rintro (⟨h, hnone⟩ | ⟨rfl, hadds⟩)
    · have hle := h.le
      obtain ⟨hput, hquiet⟩ := h
      refine ⟨?_, fun q hq => ?_⟩
      · cases n with
        | zero => exact hput
        | succ n =>
          obtain ⟨q, hq, hadds⟩ := hput
          refine ⟨q, ?_, hadds⟩
          rw [List.getElem?_append_left hle]
          exact hq
      · rw [List.drop_append_of_le_length hle, List.mem_append, List.mem_singleton] at hq
        rcases hq with hq | rfl
        · exact hquiet q hq
        · exact hnone
    · refine ⟨⟨o, List.getElem?_concat_length, hadds⟩, fun q hq => ?_⟩
      rw [List.drop_of_length_le (by simp)] at hq
      cases hq

/-- `l` is the list that the history leaves: bounded, without repetitions, its tokens those that
were added last, in the order in which they were. -/
structure Inserted (chain : Chain X) (token : Address) (tr : List (Occ (World X) (Action X)))
    (l : List Address) : Prop where
  bounded : l.length ≤ maxAllowedTokens
  mem_iff : ∀ T, T ∈ l ↔ ∃ n, InsertedAt chain token tr T n
  ordered : l.Pairwise fun T U =>
    ∀ m n, InsertedAt chain token tr T m → InsertedAt chain token tr U n → m < n

/-- Two equal tokens would have been inserted before themselves. -/
theorem Inserted.nodup {l : List Address} (h : Inserted chain token tr l) : l.Nodup := by
  refine List.Pairwise.imp_of_mem ?_ h.ordered
  rintro T U hT - hbefore rfl
  obtain ⟨n, hn⟩ := (h.mem_iff T).mp hT
  exact Nat.lt_irrefl n (hbefore n n hn hn)

variable {l : List Address}

theorem Inserted.start : Inserted chain token [] [token] where
  bounded := Nat.le_of_ble_eq_true rfl
  mem_iff T := by
    rw [List.mem_singleton]
    constructor
    · intro hT
      exact ⟨0, hT, by simp⟩
    · rintro ⟨n, hn⟩
      obtain rfl : n = 0 := Nat.le_zero.mp hn.le
      exact hn.1
  ordered := List.pairwise_singleton _ _

theorem Inserted.kept (h : Inserted chain token tr l)
    (hquiet : ∀ T, ¬AddsToken chain o T ∧ ¬RemovesToken chain o T) :
    Inserted chain token (tr ++ [o]) l := by
  have hsame : ∀ T n, InsertedAt chain token (tr ++ [o]) T n ↔ InsertedAt chain token tr T n := by
    intro T n
    rw [insertedAt_concat]
    simp [hquiet T]
  exact ⟨h.bounded, by simpa only [hsame] using h.mem_iff, by simpa only [hsame] using h.ordered⟩

theorem Inserted.added (h : Inserted chain token tr l) {U : Address}
    (hadds : ∀ T, AddsToken chain o T ↔ T = U) (hremoves : ∀ T, ¬RemovesToken chain o T)
    (hroom : l.length < maxAllowedTokens) (habsent : U ∉ l) :
    Inserted chain token (tr ++ [o]) (l ++ [U]) := by
  have hinserted : ∀ T n, InsertedAt chain token (tr ++ [o]) T n ↔
      (InsertedAt chain token tr T n ∧ T ≠ U) ∨ (n = tr.length + 1 ∧ T = U) := by
    intro T n
    rw [insertedAt_concat, hadds]
    simp [hremoves T]
  refine ⟨?_, fun T => ?_, ?_⟩
  · rw [List.length_append, List.length_singleton]
    exact hroom
  · rw [List.mem_append, List.mem_singleton, h.mem_iff]
    simp only [hinserted]
    constructor
    · rintro (⟨n, hn⟩ | rfl)
      · refine ⟨n, .inl ⟨hn, ?_⟩⟩
        rintro rfl
        exact habsent ((h.mem_iff T).mpr ⟨n, hn⟩)
      · exact ⟨_, .inr ⟨rfl, rfl⟩⟩
    · rintro ⟨n, ⟨hn, -⟩ | ⟨-, rfl⟩⟩
      · exact .inl ⟨n, hn⟩
      · exact .inr rfl
  · rw [List.pairwise_append]
    refine ⟨?_, List.pairwise_singleton _ _, ?_⟩
    · refine List.Pairwise.imp_of_mem ?_ h.ordered
      intro T V hT hV hbefore m n hm hn
      have hne : ∀ S ∈ l, S ≠ U := by
        rintro S hS rfl
        exact habsent hS
      rw [hinserted] at hm hn
      rcases hm with ⟨hm, -⟩ | ⟨-, hTU⟩
      · rcases hn with ⟨hn, -⟩ | ⟨-, hVU⟩
        · exact hbefore m n hm hn
        · exact absurd hVU (hne V hV)
      · exact absurd hTU (hne T hT)
    · -- the new token comes after everything that was on the list
      intro T hT V hV m n hm hn
      obtain rfl := List.mem_singleton.mp hV
      have hne : T ≠ V := by
        rintro rfl
        exact habsent hT
      rw [hinserted] at hm hn
      rcases hm with ⟨hm, -⟩ | ⟨-, hTV⟩
      · rcases hn with ⟨-, hVV⟩ | ⟨rfl, -⟩
        · exact absurd rfl hVV
        · exact Nat.lt_succ_of_le hm.le
      · exact absurd hTV hne

theorem Inserted.removed (h : Inserted chain token tr l) {U : Address}
    (hadds : ∀ T, ¬AddsToken chain o T) (hremoves : ∀ T, RemovesToken chain o T ↔ T = U) :
    Inserted chain token (tr ++ [o]) (l.filter (· ≠ U)) := by
  have hinserted : ∀ T n, InsertedAt chain token (tr ++ [o]) T n ↔
      InsertedAt chain token tr T n ∧ T ≠ U := by
    intro T n
    rw [insertedAt_concat, hremoves]
    simp [hadds T]
  refine ⟨(List.length_filter_le _ _).trans h.bounded, fun T => ?_, ?_⟩
  · simp only [hinserted, List.mem_filter, decide_eq_true_eq, h.mem_iff]
    constructor
    · rintro ⟨⟨n, hn⟩, hne⟩
      exact ⟨n, hn, hne⟩
    · rintro ⟨n, hn, hne⟩
      exact ⟨⟨n, hn⟩, hne⟩
  · -- a removal leaves the others in their order
    refine List.Pairwise.imp ?_ (h.ordered.sublist List.filter_sublist)
    intro T V hbefore m n hm hn
    exact hbefore m n ((hinserted T m).mp hm).1 ((hinserted V n).mp hn).1

/-- What one step of the machine does to the list that the history leaves. -/
theorem Inserted.step (h : Inserted chain token tr (allowlist o.before))
    (hstep : IsStep (step chain) o) (hadmin : (o.before.inst.get .admin).isSome) :
    Inserted chain token (tr ++ [o]) (allowlist o.after) := by
  by_cases hcalls : ∃ call, Succeeds chain o call
  · obtain ⟨call, hcall⟩ := hcalls
    have hadds : ∀ T, AddsToken chain o T ↔ call.entry.adds = some T :=
      fun T => hcall.exists_iff (P := fun call => call.entry.adds = some T)
    have hremoves : ∀ T, RemovesToken chain o T ↔ call.entry.removes = some T :=
      fun T => hcall.exists_iff (P := fun call => call.entry.removes = some T)
    cases allowlist_step hcall.governs hadmin with
    | added U entry room absent after =>
      rw [after]
      refine h.added (fun T => ?_) (fun T hT => ?_) room absent
      · rw [hadds, entry, Option.some.injEq, eq_comm]
      · rw [hremoves] at hT
        cases hcase : call.entry <;> rw [hcase] at entry hT <;> cases hT
        cases entry
    | removed U entry after =>
      rw [after]
      refine h.removed (fun T hT => ?_) fun T => ?_
      · rw [hadds] at hT
        cases hcase : call.entry <;> rw [hcase] at entry hT <;> cases entry
        cases hT
      · rw [hremoves, entry, Option.some.injEq, eq_comm]
    | kept adds removes after =>
      rw [after]
      refine h.kept fun T => ?_
      rw [hadds, hremoves, adds, removes]
      simp
  · -- a failed call or an event outside names no token
    obtain ⟨x, hx⟩ := (succeeds_or_outside hstep).resolve_left hcalls
    rw [hx]
    refine h.kept fun T => ⟨?_, ?_⟩
    · exact fun ⟨call, hcall, _⟩ => hcalls ⟨call, hcall⟩
    · exact fun ⟨call, hcall, _⟩ => hcalls ⟨call, hcall⟩

end History

/-! ## Whole runs -/

/-- The laws of the allowlist in the state `w` that the history `tr` after `init(token, ..)` leads
to.

* `nodup`, `bounded`, `mem_iff`, `ordered`: what is on the list, and in which order.
* `removal`: a successful removal leaves the other tokens as they stood.
* `tips`: only tokens on the list are accepted.
* `addToken`, `removeToken`: when the host can load the contract, the calls fail for the documented
  reasons only, and then change nothing. -/
structure AllowlistLaws (chain : Chain X) (token : Address)
    (tr : List (Occ (World X) (Action X))) (w : World X) : Prop where
  nodup : (allowlist w).Nodup
  bounded : (allowlist w).length ≤ maxAllowedTokens
  mem_iff : ∀ T, T ∈ allowlist w ↔ ∃ n, InsertedAt chain token tr T n
  ordered : (allowlist w).Pairwise fun T U =>
    ∀ m n, InsertedAt chain token tr T m → InsertedAt chain token tr U n → m < n
  removal : ∀ sequence auth admin T r w',
    exec chain ⟨sequence, auth, .removeToken admin T⟩ w = .ok (r, w') →
    allowlist w' = (allowlist w).filter (· ≠ T)
  tips : ∀ sequence auth sender creator T amount r w',
    exec chain ⟨sequence, auth, .tip sender creator T amount⟩ w = .ok (r, w') → T ∈ allowlist w
  addToken : ∀ sequence auth admin T,
    InstanceLive (chain.ctx sequence auth : Ctx DataKey DataKey.Val Event Error X) w →
    (Fails chain ⟨sequence, auth, .addToken admin T⟩ w ↔
      ¬ByAdmin admin auth w ∨ maxAllowedTokens ≤ (allowlist w).length ∨ T ∈ allowlist w) ∧
    (Fails chain ⟨sequence, auth, .addToken admin T⟩ w →
      step chain w (.call ⟨sequence, auth, .addToken admin T⟩) = w)
  removeToken : ∀ sequence auth admin T,
    InstanceLive (chain.ctx sequence auth : Ctx DataKey DataKey.Val Event Error X) w →
    (Fails chain ⟨sequence, auth, .removeToken admin T⟩ w ↔
      ¬ByAdmin admin auth w ∨ T ∉ allowlist w) ∧
    (Fails chain ⟨sequence, auth, .removeToken admin T⟩ w →
      step chain w (.call ⟨sequence, auth, .removeToken admin T⟩) = w)

section Run

variable {chain : Chain X} {token admin : Address} {D : UInt32} {w₀ : World X}

theorem AfterInit.allowlist_eq (h₀ : AfterInit chain token admin D w₀) : allowlist w₀ = [token] := by
  obtain ⟨-, hinst, -⟩ := h₀.state
  rw [allowlist, hinst]
  simp

/-- The list is the one the history leaves. Induction from the end of the run. -/
theorem inserted_run (h₀ : AfterInit chain token admin D w₀) (acts : List (Action X)) :
    Inserted chain token (trace (step chain) w₀ acts) (allowlist (run (step chain) w₀ acts)) := by
  induction acts using List.reverseRecOn with
  | nil =>
    rw [trace_nil, run_nil, h₀.allowlist_eq]
    exact .start
  | append_singleton acts a ih =>
    rw [trace_concat, run_concat]
    exact Inserted.step (o := ⟨run (step chain) w₀ acts, a, step chain (run (step chain) w₀ acts) a⟩)
      ih rfl (h₀.run_fromInit acts).admin

theorem Fails.unchanged {call : Call} {w : World X} (h : Fails chain call w) :
    step chain w (.call call) = w := by
  cases hexec : exec chain call w with
  | ok p => exact absurd hexec (h p.1 p.2)
  | error e => exact step_call_error hexec

/-- In every state reachable from `init`, the allowlist has no repetitions and at most 50 entries;
a token is on it when the last successful call that names it put it there, in the order of those
calls; only tokens on it can be tipped in; and adding or removing fails, without effect, exactly
for callers who are not the admin, a full list or a token that is there, respectively not there. -/
theorem allowlist_laws (h₀ : AfterInit chain token admin D w₀) (acts : List (Action X)) :
    AllowlistLaws chain token (trace (step chain) w₀ acts) (run (step chain) w₀ acts) where
  nodup := (inserted_run h₀ acts).nodup
  bounded := (inserted_run h₀ acts).bounded
  mem_iff := (inserted_run h₀ acts).mem_iff
  ordered := (inserted_run h₀ acts).ordered
  removal := by
    intro sequence auth caller T r w' hexec
    obtain ⟨-, -, hinst⟩ := exec_governs hexec
    rw [allowlist_set hinst, removeLoop_eq]
  tips := fun _ _ _ _ _ _ _ _ hexec => tip_allowed hexec
  addToken := fun _ _ caller T hlive => ⟨addToken_fails_iff caller T hlive, Fails.unchanged⟩
  removeToken := fun _ _ caller T hlive => ⟨removeToken_fails_iff caller T hlive, Fails.unchanged⟩

end Run

/-- Tokens 7 and 8 are added after token 1 of `init`, then 1 is removed and added again: it is the
last one now. -/
theorem allowlist_laws_sample :
    let acts : List (Action Balances) := [.call ⟨2, [⟨2⟩], .addToken ⟨2⟩ ⟨7⟩⟩,
      .call ⟨3, [⟨2⟩], .addToken ⟨2⟩ ⟨8⟩⟩, .call ⟨4, [⟨2⟩], .removeToken ⟨2⟩ ⟨1⟩⟩,
      .call ⟨5, [⟨2⟩], .addToken ⟨2⟩ ⟨1⟩⟩]
    AllowlistLaws sampleChain ⟨1⟩ (trace (step sampleChain) (sampleWorld 50) acts)
        (run (step sampleChain) (sampleWorld 50) acts) ∧
      allowlist (run (step sampleChain) (sampleWorld 50) acts) = [⟨7⟩, ⟨8⟩, ⟨1⟩] := by
  intro acts
  exact ⟨allowlist_laws sampleWorld_afterInit acts, by decide⟩

end TipJar
