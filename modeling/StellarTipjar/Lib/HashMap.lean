import Mathlib.Data.List.AList
import Mathlib.Data.List.Induction

/-!
# Hash maps

A hash map is a finite map together with the order in which it iterates over its entries, which two
maps with the same entries need not share. `AList` is that: a list of entries without two of one
key.

* `HashMap.collect` — the map that inserting the entries of a list leaves;
* `HashMap.mem_collect` — when the entries of one key agree, they are exactly its entries;
* `HashMap.perm_of_mem_iff` — two maps with the same entries differ in their order only;
* `HashMap.extend` — inserting all entries of another map, which win over those that are there;
* `HashMap.retain` and `HashMap.mapValues` — dropping entries and changing values in place.
-/

namespace Lib

abbrev HashMap (κ α : Type) := AList fun _ : κ => α

namespace HashMap

variable {κ α : Type} [DecidableEq κ]

/-- Inserts the entries one after the other. -/
def collect (entries : List (κ × α)) : HashMap κ α :=
  entries.foldl (fun map e => map.insert e.1 e.2) ∅

theorem collect_concat (entries : List (κ × α)) (e : κ × α) :
    collect (entries ++ [e]) = (collect entries).insert e.1 e.2 := by
  rw [collect, List.foldl_append]
  rfl

theorem mem_entries_iff (map : HashMap κ α) (k : κ) (v : α) :
    ⟨k, v⟩ ∈ map.entries ↔ map.lookup k = some v :=
  AList.mem_lookup_iff.symm

omit [DecidableEq κ] in
/-- No entry stands twice, so maps with the same entries list them in some order each. -/
theorem perm_of_mem_iff {a b : HashMap κ α}
    (h : ∀ k v, ⟨k, v⟩ ∈ a.entries ↔ ⟨k, v⟩ ∈ b.entries) : a.entries.Perm b.entries :=
  (List.perm_ext_iff_of_nodup a.nodupKeys.nodup b.nodupKeys.nodup).mpr fun e => h e.1 e.2

/-- Entries that agree wherever they share a key all end up in the map, and nothing else does. -/
theorem mem_collect {entries : List (κ × α)}
    (h : ∀ a ∈ entries, ∀ b ∈ entries, a.1 = b.1 → a.2 = b.2) (k : κ) (v : α) :
    ⟨k, v⟩ ∈ (collect entries).entries ↔ (k, v) ∈ entries := by
  induction entries using List.reverseRecOn with
  | nil => simp [collect]
  | append_singleton entries e ih =>
    have ih := ih fun a ha b hb => h a (List.mem_append_left _ ha) b (List.mem_append_left _ hb)
    rw [mem_entries_iff] at ih ⊢
    rw [collect_concat, List.mem_append, List.mem_singleton]
    by_cases hk : k = e.1
    · subst hk
      rw [AList.lookup_insert]
      constructor
      · intro hv
        exact .inr (Prod.ext rfl (Option.some.inj hv).symm)
      · intro hv
        have hmem : (e.1, v) ∈ entries ++ [e] := by simpa using hv
        exact congrArg some (h e (by simp) (e.1, v) hmem rfl)
    · rw [AList.lookup_insert_ne hk, ih]
      constructor
      · exact .inl
      · rintro (hv | hv)
        · exact hv
        · exact absurd (congrArg Prod.fst hv) hk

/-- Inserts the entries of another map. -/
def extend (map other : HashMap κ α) : HashMap κ α :=
  other.entries.foldl (fun map e => map.insert e.1 e.2) map

@[simp] theorem lookup_extend (map other : HashMap κ α) (k : κ) :
    (map.extend other).lookup k = (other.lookup k).or (map.lookup k) := by
  -- the entries of `other` have distinct keys, so at most one of the insertions is at `k`
  have hrun : ∀ (entries : List ((_ : κ) × α)), entries.NodupKeys → ∀ map : HashMap κ α,
      (entries.foldl (fun map e => map.insert e.1 e.2) map).lookup k =
        (entries.dlookup k).or (map.lookup k) := by
    intro entries hnodup
    induction entries with
    | nil => intro map; rfl
    | cons e rest ih =>
      intro map
      obtain ⟨hfresh, hrest⟩ := List.nodupKeys_cons.mp hnodup
      rw [List.foldl_cons, ih hrest]
      by_cases hk : k = e.1
      · subst hk
        have hnone : rest.dlookup e.1 = none := List.dlookup_eq_none.mpr hfresh
        rw [hnone, Option.none_or, AList.lookup_insert, List.dlookup_cons_eq, Option.some_or]
      · rw [AList.lookup_insert_ne hk, List.dlookup_cons_ne _ _ hk]
  exact hrun other.entries other.nodupKeys map

/-- Keeps the entries that pass the test. -/
def retain (map : HashMap κ α) (keep : κ → α → Bool) : HashMap κ α where
  entries := map.entries.filter fun e => keep e.1 e.2
  nodupKeys := map.nodupKeys.sublist List.filter_sublist

theorem lookup_retain_eq_some {map : HashMap κ α} {keep : κ → α → Bool} {k : κ} {v : α} :
    (map.retain keep).lookup k = some v ↔ map.lookup k = some v ∧ keep k v = true := by
  rw [← mem_entries_iff, ← mem_entries_iff]
  exact List.mem_filter

omit [DecidableEq κ] in
theorem retain_retain (map : HashMap κ α) (keep : κ → α → Bool) :
    (map.retain keep).retain keep = map.retain keep := by
  apply AList.ext
  show (map.entries.filter _).filter _ = _
  rw [List.filter_filter]
  simp only [Bool.and_self]
  rfl

/-- A map looked up with a default does not change by dropping entries of that value. -/
theorem lookup_retain_getD {map : HashMap κ α} {keep : κ → α → Bool} {d : α}
    (h : ∀ k v, keep k v = false → v = d) (k : κ) :
    ((map.retain keep).lookup k).getD d = (map.lookup k).getD d := by
  cases hold : map.lookup k with
  | none =>
    cases hnew : (map.retain keep).lookup k with
    | none => rfl
    | some v =>
      rw [lookup_retain_eq_some, hold] at hnew
      cases hnew.1
  | some v =>
    cases hkeep : keep k v with
    | true =>
      rw [lookup_retain_eq_some.mpr ⟨hold, hkeep⟩]
    | false =>
      have hnone : (map.retain keep).lookup k = none := by
        rw [Option.eq_none_iff_forall_ne_some]
        intro v' hv'
        obtain ⟨hsame, hkept⟩ := lookup_retain_eq_some.mp hv'
        obtain rfl : v = v' := Option.some.inj (hold.symm.trans hsame)
        rw [hkeep] at hkept
        cases hkept
      rw [hnone, h k v hkeep]
      rfl

/-- Changes every value in its place. -/
def mapValues (map : HashMap κ α) (f : α → α) : HashMap κ α where
  entries := map.entries.map fun e => ⟨e.1, f e.2⟩
  nodupKeys := by
    have hkeys : (map.entries.map fun e => (⟨e.1, f e.2⟩ : (_ : κ) × α)).keys = map.entries.keys := by
      simp [List.keys, Function.comp_def]
    unfold List.NodupKeys
    rw [hkeys]
    exact map.nodupKeys

theorem lookup_mapValues (map : HashMap κ α) (f : α → α) (k : κ) :
    (map.mapValues f).lookup k = (map.lookup k).map f := by
  apply Option.ext
  intro v
  rw [← mem_entries_iff]
  show (⟨k, v⟩ : (_ : κ) × α) ∈ map.entries.map (fun e => ⟨e.1, f e.2⟩) ↔ _
  rw [List.mem_map, Option.map_eq_some_iff]
  constructor
  · rintro ⟨⟨k', u⟩, hmem, heq⟩
    cases heq
    exact ⟨u, (mem_entries_iff _ _ _).mp hmem, rfl⟩
  · rintro ⟨u, hlookup, rfl⟩
    exact ⟨⟨k, u⟩, (mem_entries_iff _ _ _).mpr hlookup, rfl⟩

omit [DecidableEq κ] in
/-- Changing the values twice is the same as once when that holds of each value. -/
theorem mapValues_mapValues (map : HashMap κ α) {f : α → α} (h : ∀ v, f (f v) = f v) :
    (map.mapValues f).mapValues f = map.mapValues f := by
  apply AList.ext
  show (map.entries.map _).map _ = _
  rw [List.map_map]
  refine List.map_congr_left fun e _ => ?_
  simp only [Function.comp_apply, h]

end HashMap

end Lib
