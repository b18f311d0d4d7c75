import StellarTipjar.Migrate.Transform

/-!
# Migration toolkit — which rules a transformation applies

`StateTransformer::transform` over an arbitrary table of rules. Its documentation says that the
rules whose range of versions overlaps the path `[source, target)` are applied; the test it makes is
another one, and the version is counted up by one whatever the target is. `transforms_right_iff`
says for which tables and paths the two come to the same.
-/

namespace Migrate

open Lib

/-! ## The transformation of an arbitrary table -/

/-- The loop over the rules, with the rules it called, in the order of the calls. -/
def StateTransformer.applyTable (self : StateTransformer) :
    List TransformRule → StateSnapshot × List TransformationLog →
      (StateSnapshot × List TransformationLog) × List TransformRule
  | [], state => (state, [])
  | rule :: rules, state =>
    if self.covers rule then
      let rest := self.applyTable rules (rule.apply state.1 state.2)
      (rest.1, rule :: rest.2)
    else self.applyTable rules state

/-- `StateTransformer::transform` with the table as a parameter. -/
def StateTransformer.transformWith (digest : StateSnapshot → String) (rules : List TransformRule)
    (self : StateTransformer) (snapshot : StateSnapshot) :
    Except String (StateSnapshot × List TransformationLog) :=
  if snapshot.schemaVersion ≠ self.sourceVersion then
    .error ("Snapshot schema version " ++ toString snapshot.schemaVersion ++
      " does not match expected source version " ++ toString self.sourceVersion)
  else
    let applied := (self.applyTable rules (snapshot, [])).1
    .ok ({ applied.1 with checksum := computeChecksum digest applied.1 }, applied.2)

theorem applyTable_fst (self : StateTransformer) (rules : List TransformRule)
    (state : StateSnapshot × List TransformationLog) :
    (self.applyTable rules state).1
      = rules.foldl (fun state rule => if self.covers rule then rule.apply state.1 state.2 else state)
          state := by
  induction rules generalizing state with
  | nil => rfl
  | cons rule rules ih =>
    rw [StateTransformer.applyTable, List.foldl_cons]
    by_cases hcovers : self.covers rule
    · rw [if_pos hcovers, if_pos hcovers, ← ih]
    · rw [if_neg hcovers, if_neg hcovers, ih]

theorem applyTable_snd (self : StateTransformer) (rules : List TransformRule)
    (state : StateSnapshot × List TransformationLog) :
    (self.applyTable rules state).2 = rules.filter self.covers := by
  induction rules generalizing state with
  | nil => rfl
  | cons rule rules ih =>
    rw [StateTransformer.applyTable]
    by_cases hcovers : self.covers rule
    · rw [if_pos hcovers, List.filter_cons_of_pos hcovers, ← ih]
    · rw [if_neg hcovers, List.filter_cons_of_neg hcovers, ih]

/-- What a list of rules makes of a snapshot. -/
def applyAll (rules : List TransformRule) (state : StateSnapshot × List TransformationLog) :
    StateSnapshot × List TransformationLog :=
  rules.foldl (fun state rule => rule.apply state.1 state.2) state

/-- The loop is the rules it called, one after the other. -/
theorem applyTable_eq_applyAll (self : StateTransformer) (rules : List TransformRule)
    (state : StateSnapshot × List TransformationLog) :
    (self.applyTable rules state).1 = applyAll (self.applyTable rules state).2 state := by
  rw [applyTable_snd, applyTable_fst, applyAll, List.foldl_filter]

/-- The transformation of the repository's own table. -/
theorem transform_eq_transformWith (digest : StateSnapshot → String) (self : StateTransformer)
    (s : StateSnapshot) :
    self.transform digest s = self.transformWith digest transformRules s := by
  unfold StateTransformer.transform StateTransformer.transformWith StateTransformer.applyRules
  rw [applyTable_fst]

/-! ## What the documentation says -/

/-- The range of the rule and the path `[source, target)` have a version in common. -/
def StateTransformer.Overlaps (self : StateTransformer) (rule : TransformRule) : Prop :=
  ∃ version, rule.fromVersion ≤ version ∧ version ≤ rule.toVersion ∧
    self.sourceVersion ≤ version ∧ version < self.targetVersion

/-- It is the larger of the two starts that they have in common. -/
theorem overlaps_iff {self : StateTransformer} (hlt : self.sourceVersion < self.targetVersion)
    (rule : TransformRule) :
    self.Overlaps rule ↔ rule.fromVersion ≤ rule.toVersion ∧ rule.fromVersion < self.targetVersion ∧
      self.sourceVersion ≤ rule.toVersion := by
  constructor
  · rintro ⟨version, hfrom, hto, hsource, htarget⟩
    exact ⟨UInt32.le_trans hfrom hto, UInt32.lt_of_le_of_lt hfrom htarget,
      UInt32.le_trans hsource hto⟩
  · rintro ⟨hrange, htarget, hsource⟩
    rcases UInt32.le_total rule.fromVersion self.sourceVersion with hle | hle
    · exact ⟨self.sourceVersion, hle, hsource, UInt32.le_refl _, hlt⟩
    · exact ⟨rule.fromVersion, UInt32.le_refl _, hrange, hle, htarget⟩

instance (self : StateTransformer) (rule : TransformRule) : Decidable (self.Overlaps rule) :=
  if hlt : self.sourceVersion < self.targetVersion then
    decidable_of_iff _ (overlaps_iff hlt rule).symm
  else isFalse fun ⟨_, _, _, hsource, htarget⟩ => hlt (UInt32.lt_of_le_of_lt hsource htarget)

/-- The transformation of `s` by the table does what is said of it: the rules it calls are the ones
that overlap the path, in the order of the table, none for version 1 alone is among them when the
snapshot is of a later version, and the snapshot it answers is of the target version. -/
structure TransformsRight (digest : StateSnapshot → String) (rules : List TransformRule)
    (tr : StateTransformer) (s : StateSnapshot) : Prop where
  overlapping : (tr.applyTable rules (s, [])).2 = rules.filter fun rule => tr.Overlaps rule
  noneOfV1 : 2 ≤ s.schemaVersion → ∀ rule ∈ (tr.applyTable rules (s, [])).2,
    ¬(rule.fromVersion = 1 ∧ rule.toVersion = 1)
  target : ∀ t logs, tr.transformWith digest rules s = .ok (t, logs) →
    t.schemaVersion = tr.targetVersion

/-- For a rule that starts by the source version: it ends on the path. For one that starts later:
it starts past the path, or has no version at all. -/
def StateTransformer.FitsPath (self : StateTransformer) (rule : TransformRule) : Prop :=
  (rule.fromVersion ≤ self.sourceVersion →
    self.sourceVersion ≤ rule.toVersion ∧ rule.toVersion < self.targetVersion) ∧
  (self.sourceVersion < rule.fromVersion →
    self.targetVersion ≤ rule.fromVersion ∨ rule.toVersion < rule.fromVersion)

/-! ## Where the code does it -/

/-- The test of the loop and the overlap come to the same for the rules that fit the path, and for
no other. -/
theorem covers_eq_overlaps_iff {self : StateTransformer}
    (hlt : self.sourceVersion < self.targetVersion) (rule : TransformRule) :
    self.covers rule = decide (self.Overlaps rule) ↔ self.FitsPath rule := by
  rw [Bool.eq_iff_iff, decide_eq_true_iff, overlaps_iff hlt]
  unfold StateTransformer.covers StateTransformer.FitsPath
  rw [Bool.and_eq_true, decide_eq_true_iff, decide_eq_true_iff]
  simp only [UInt32.le_iff_toNat_le, UInt32.lt_iff_toNat_lt] at hlt ⊢
  generalize rule.fromVersion.toNat = a at *
  generalize rule.toVersion.toNat = b at *
  omega

theorem filter_eq_filter_iff {α : Type} {p q : α → Bool} (l : List α) :
    l.filter p = l.filter q ↔ ∀ a ∈ l, p a = q a := by
  constructor
  · intro h a ha
    rw [Bool.eq_iff_iff]
    constructor
    · intro hp
      have hmem : a ∈ l.filter q := h ▸ List.mem_filter.mpr ⟨ha, hp⟩
      exact (List.mem_filter.mp hmem).2
    · intro hq
      have hmem : a ∈ l.filter p := h ▸ List.mem_filter.mpr ⟨ha, hq⟩
      exact (List.mem_filter.mp hmem).2
  · exact List.filter_congr

/-- The version the overlapping rules of the table take `s` to. -/
def StateTransformer.versionReached (self : StateTransformer) (rules : List TransformRule)
    (s : StateSnapshot) : UInt32 :=
  (applyAll (rules.filter fun rule => self.Overlaps rule) (s, [])).1.schemaVersion

theorem transformWith_ok (digest : StateSnapshot → String) (rules : List TransformRule)
    {self : StateTransformer} {s : StateSnapshot} (hversion : s.schemaVersion = self.sourceVersion) :
    ∃ t logs, self.transformWith digest rules s = .ok (t, logs) ∧
      t.schemaVersion = (applyAll (self.applyTable rules (s, [])).2 (s, [])).1.schemaVersion := by
  rw [← applyTable_eq_applyAll]
  unfold StateTransformer.transformWith
  rw [if_neg (not_not.mpr hversion)]
  exact ⟨_, _, rfl, rfl⟩

theorem transformsRight_iff_fits (digest : StateSnapshot → String) (rules : List TransformRule)
    {self : StateTransformer} (hlt : self.sourceVersion < self.targetVersion) {s : StateSnapshot}
    (hversion : s.schemaVersion = self.sourceVersion) :
    TransformsRight digest rules self s ↔
      (∀ rule ∈ rules, self.FitsPath rule) ∧ self.versionReached rules s = self.targetVersion := by
  have hfits : (self.applyTable rules (s, [])).2 = rules.filter (fun rule => self.Overlaps rule) ↔
      ∀ rule ∈ rules, self.FitsPath rule := by
    rw [applyTable_snd, filter_eq_filter_iff]
    exact forall₂_congr fun rule _ => covers_eq_overlaps_iff hlt rule
  obtain ⟨t, logs, hok, hreached⟩ := transformWith_ok digest rules hversion
  constructor
  · intro h
    refine ⟨hfits.mp h.overlapping, ?_⟩
    rw [StateTransformer.versionReached, ← h.overlapping, ← hreached]
    exact h.target t logs hok
  · rintro ⟨hpath, htarget⟩
    have hoverlapping := hfits.mpr hpath
    refine ⟨hoverlapping, ?_, ?_⟩
    · -- a rule for version 1 alone does not reach a later source
      intro hlate rule hmem hv1
      rw [hoverlapping, List.mem_filter, decide_eq_true_iff, overlaps_iff hlt, ← hversion,
        hv1.2] at hmem
      have hle := UInt32.le_trans hlate hmem.2.2.2
      exact absurd hle (by decide)
    · intro t' logs' hok'
      rw [hok] at hok'
      cases hok'
      rw [hreached, hoverlapping]
      exact htarget

/-- All rules of the repository's table are for version 1 alone. -/
theorem transformRules_v1 : ∀ rule ∈ transformRules, rule.fromVersion = 1 ∧ rule.toVersion = 1 := by
  simp only [transformRules, List.forall_mem_cons]
  decide

theorem fitsPath_of_v1 {self : StateTransformer} (hlt : self.sourceVersion < self.targetVersion)
    {rule : TransformRule} (hv1 : rule.fromVersion = 1 ∧ rule.toVersion = 1) :
    self.FitsPath rule ↔ self.sourceVersion = 1 ∨ self.targetVersion = 1 := by
  unfold StateTransformer.FitsPath
  rw [hv1.1, hv1.2]
  simp only [UInt32.le_iff_toNat_le, UInt32.lt_iff_toNat_lt, ← UInt32.toNat_inj] at hlt ⊢
  rw [show (1 : UInt32).toNat = 1 from rfl]
  omega

/-- From version 1 all of them are on the path, and take the snapshot to version 2. -/
theorem versionReached_of_one {self : StateTransformer}
    (hlt : self.sourceVersion < self.targetVersion) (hone : self.sourceVersion = 1)
    {s : StateSnapshot} (hversion : s.schemaVersion = 1) :
    self.versionReached transformRules s = 2 := by
  have hall : transformRules.filter (fun rule => self.Overlaps rule) = transformRules := by
    rw [List.filter_eq_self]
    intro rule hmem
    obtain ⟨hfrom, hto⟩ := transformRules_v1 rule hmem
    rw [decide_eq_true_iff, overlaps_iff hlt, hfrom, hto, hone]
    exact ⟨UInt32.le_refl 1, hone ▸ hlt, UInt32.le_refl 1⟩
  have happlied := applyRules_eq s []
  rw [applyRules_one_two] at happlied
  rw [StateTransformer.versionReached, hall, applyAll, happlied]
  show s.schemaVersion + 1 = 2
  rw [hversion]
  rfl

/-- On a path that ends at version 1 there is none of them. -/
theorem versionReached_to_one {self : StateTransformer}
    (hlt : self.sourceVersion < self.targetVersion) (hone : self.targetVersion = 1)
    (s : StateSnapshot) : self.versionReached transformRules s = s.schemaVersion := by
  have hnone : transformRules.filter (fun rule => self.Overlaps rule) = [] := by
    rw [List.filter_eq_nil_iff]
    intro rule hmem
    obtain ⟨hfrom, -⟩ := transformRules_v1 rule hmem
    rw [decide_eq_true_iff, overlaps_iff hlt, hfrom, hone]
    exact fun h => UInt32.lt_irrefl 1 h.2.1
  rw [StateTransformer.versionReached, hnone]
  rfl

/-- The repository's own table is right for one path. -/
theorem ownTable_iff {self : StateTransformer} (hlt : self.sourceVersion < self.targetVersion)
    {s : StateSnapshot} (hversion : s.schemaVersion = self.sourceVersion) :
    ((∀ rule ∈ transformRules, self.FitsPath rule) ∧
      self.versionReached transformRules s = self.targetVersion) ↔
      self.sourceVersion = 1 ∧ self.targetVersion = 2 := by
  have hfits : (∀ rule ∈ transformRules, self.FitsPath rule) ↔
      self.sourceVersion = 1 ∨ self.targetVersion = 1 := by
    constructor
    · intro h
      have hhead : (⟨1, 1, "v1_to_v2_normalise_balances", ruleRemoveZeroBalances⟩ : TransformRule)
          ∈ transformRules := List.mem_cons_self
      exact (fitsPath_of_v1 hlt ⟨rfl, rfl⟩).mp (h _ hhead)
    · intro h rule hmem
      exact (fitsPath_of_v1 hlt (transformRules_v1 rule hmem)).mpr h
  rw [hfits]
  constructor
  · rintro ⟨hone | hone, hreached⟩
    · rw [versionReached_of_one hlt hone (hversion.trans hone)] at hreached
      exact ⟨hone, hreached.symm⟩
    · rw [versionReached_to_one hlt hone, hversion] at hreached
      exact absurd (hreached ▸ hlt) (UInt32.lt_irrefl _)
  · rintro ⟨hone, htwo⟩
    refine ⟨.inl hone, ?_⟩
    rw [versionReached_of_one hlt hone (hversion.trans hone), htwo]

/-- For every table, every path and every snapshot of its source version: the transformation does
what is said of it just when every rule of the table fits the path and the rules that overlap it
take the snapshot to the target version. The code's own function is that of the repository's table,
and this one is right on the path from version 1 to version 2, and no other. -/
theorem transforms_right_iff (digest : StateSnapshot → String) (rules : List TransformRule)
    {self : StateTransformer} (hlt : self.sourceVersion < self.targetVersion) {s : StateSnapshot}
    (hversion : s.schemaVersion = self.sourceVersion) :
    (TransformsRight digest rules self s ↔
      (∀ rule ∈ rules, self.FitsPath rule) ∧
        self.versionReached rules s = self.targetVersion) ∧
    self.transform digest s = self.transformWith digest transformRules s ∧
    (TransformsRight digest transformRules self s ↔
      self.sourceVersion = 1 ∧ self.targetVersion = 2) := by
  refine ⟨transformsRight_iff_fits digest rules hlt hversion,
    transform_eq_transformWith digest self s, ?_⟩
  rw [transformsRight_iff_fits digest transformRules hlt hversion]
  exact ownTable_iff hlt hversion

/-- A rule for the versions 1 and 2 overlaps the path from 1 to 2, and is left out. Without it the
table is right there. -/
theorem transforms_right_iff_sample :
    ¬TransformsRight (fun _ => "digest") (⟨1, 2, "v1_to_v3", ruleDedupSubscriptions⟩ :: transformRules)
        ⟨1, 2⟩ maturedSnapshot ∧
      TransformsRight (fun _ => "digest") transformRules ⟨1, 2⟩ maturedSnapshot := by
  obtain ⟨hiff, -, hown⟩ := transforms_right_iff (fun _ => "digest")
    (⟨1, 2, "v1_to_v3", ruleDedupSubscriptions⟩ :: transformRules)
    (show (⟨1, 2⟩ : StateTransformer).sourceVersion < (⟨1, 2⟩ : StateTransformer).targetVersion
      by decide)
    (show maturedSnapshot.schemaVersion = 1 from rfl)
  refine ⟨fun h => ?_, hown.mpr ⟨rfl, rfl⟩⟩
  have hends := ((hiff.mp h).1 _ List.mem_cons_self).1 (by decide)
  exact absurd hends.2 (by decide)

/-- A snapshot of version 2 on its way to version 3: every rule for version 1 is applied to it. And
one of version 1 on its way to version 3 is left at version 2. -/
theorem v1_rules_applied_to_v2 :
    ¬TransformsRight (fun _ => "digest") transformRules ⟨2, 3⟩
        { maturedSnapshot with schemaVersion := 2 } ∧
      (StateTransformer.applyTable ⟨2, 3⟩ transformRules
        ({ maturedSnapshot with schemaVersion := 2 }, [])).2.length = 8 ∧
      ¬TransformsRight (fun _ => "digest") transformRules ⟨1, 3⟩ maturedSnapshot ∧
      ∃ t logs, StateTransformer.transform (fun _ => "digest") ⟨1, 3⟩ maturedSnapshot
        = .ok (t, logs) ∧ t.schemaVersion = 2 := by
  refine ⟨fun h => ?_, by decide, fun h => ?_, _, _, rfl, rfl⟩
  · refine h.noneOfV1 (by decide) ⟨1, 1, "v1_to_v2_normalise_balances", ruleRemoveZeroBalances⟩ ?_
      ⟨rfl, rfl⟩
    exact List.mem_cons_self
  · have htwo := h.target _ _ rfl
    exact absurd htwo (by decide)

end Migrate
