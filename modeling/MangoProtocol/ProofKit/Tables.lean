import Mathlib.Data.List.AList
import Mathlib.Tactic

/-! Finite maps with values of one type: lookups after an update, sizes, and one map that is an
index of another. -/

namespace ProofKit.Tables

variable {κ α : Type} [DecidableEq κ] {table : AList fun _ : κ => α} {key other : κ} {value : α}

theorem lookup_insert_eq :
    (table.insert key value).lookup other =
      if other = key then some value else table.lookup other := by
  by_cases h : other = key
  · subst h
    simp
  · rw [if_neg h, AList.lookup_insert_ne h]

theorem lookup_erase_eq :
    (table.erase key).lookup other = if other = key then none else table.lookup other := by
  by_cases h : other = key
  · subst h
    simp
  · rw [if_neg h, AList.lookup_erase_ne h]

theorem erase_insert (h : key ∉ table) : (table.insert key value).erase key = table := by
  refine AList.ext ?_
  change List.kerase key (table.insert key value).entries = table.entries
  rw [AList.entries_insert_of_notMem h]
  exact List.kerase_cons_eq rfl

theorem lookup_of_erase (h : (table.erase key).lookup other = some value) :
    table.lookup other = some value := by
  rw [lookup_erase_eq] at h
  split at h
  · cases h
  · exact h

theorem mem_of_lookup (h : table.lookup key = some value) : key ∈ table :=
  AList.lookup_isSome.mp (by rw [h]; rfl)

omit [DecidableEq κ] in
theorem size_keys (table : AList fun _ : κ => α) : table.entries.length = table.keys.length :=
  (List.length_map _).symm

theorem size_insert (h : key ∉ table) :
    (table.insert key value).entries.length = table.entries.length + 1 := by
  rw [AList.entries_insert_of_notMem h, List.length_cons]

theorem size_erase (h : key ∈ table) :
    (table.erase key).entries.length = table.entries.length - 1 := by
  rw [size_keys, size_keys, AList.keys_erase, List.length_erase_of_mem (AList.mem_keys.mp h)]

theorem size_erase_le : (table.erase key).entries.length ≤ table.entries.length := by
  rw [size_keys, size_keys, AList.keys_erase]
  exact List.length_erase_le

omit [DecidableEq κ] in
theorem size_pos (h : key ∈ table) : 0 < table.entries.length := by
  rw [size_keys]
  exact List.length_pos_of_mem (AList.mem_keys.mp h)

theorem size_replace : (table.replace key value).entries.length = table.entries.length := by
  rw [size_keys, size_keys, AList.keys_replace]

/-! ### Keys and values -/

def values (table : AList fun _ : κ => α) : List α := table.entries.map Sigma.snd

theorem mem_values : value ∈ values table ↔ ∃ key, table.lookup key = some value := by
  constructor
  · intro h
    obtain ⟨⟨key, found⟩, he, rfl⟩ := List.mem_map.mp h
    exact ⟨key, AList.mem_lookup_iff.mpr he⟩
  · rintro ⟨key, hl⟩
    exact List.mem_map.mpr ⟨⟨key, value⟩, AList.mem_lookup_iff.mp hl, rfl⟩

omit [DecidableEq κ] in
theorem keys_perm {β : Type} {second : AList fun _ : κ => β}
    (h : ∀ key, key ∈ table ↔ key ∈ second) : table.keys.Perm second.keys :=
  (List.perm_ext_iff_of_nodup table.keys_nodup second.keys_nodup).mpr h

/-! ### Indexes -/

structure Indexes {ν : Type} (index : AList fun _ : κ => ν) (table : AList fun _ : ν => α) :
    Prop where
  mem : ∀ name, name ∈ table ↔ ∃ key, index.lookup key = some name
  unique : ∀ key other name, index.lookup key = some name → index.lookup other = some name →
    key = other

namespace Indexes

section Values

variable {ν : Type} {index : AList fun _ : κ => ν} {names : AList fun _ : ν => α}

theorem values_nodup (h : Indexes index names) : (values index).Nodup := by
  refine List.Nodup.map_on ?_ (List.NodupKeys.nodup index.nodupKeys)
  rintro ⟨key, name⟩ he ⟨other, _⟩ ho rfl
  cases h.unique key other _ (AList.mem_lookup_iff.mpr he) (AList.mem_lookup_iff.mpr ho)
  rfl

theorem values_perm (h : Indexes index names) : (values index).Perm names.keys :=
  (List.perm_ext_iff_of_nodup h.values_nodup names.keys_nodup).mpr fun name =>
    mem_values.trans (h.mem name).symm

end Values

variable {ν : Type} [DecidableEq ν] {index : AList fun _ : κ => ν} {names : AList fun _ : ν => α}
  {name : ν}

theorem insert (h : Indexes index names) (hk : index.lookup key = none) (hn : name ∉ names) :
    Indexes (index.insert key name) (names.insert name value) := by
  have hne {other : κ} : index.lookup other ≠ some name := by
    intro ho
    exact hn ((h.mem name).mpr ⟨other, ho⟩)
  constructor
  case mem =>
    intro other
    simp only [AList.mem_insert, h.mem, lookup_insert_eq]
    constructor
    · grind
    · grind
  case unique =>
    intro first second other hf hs
    simp only [lookup_insert_eq] at hf hs
    split at hf
    · grind
    · split at hs
      · cases hs
        exact absurd hf hne
      · exact h.unique first second other hf hs

theorem erase (h : Indexes index names) (hk : index.lookup key = some name) :
    Indexes (index.erase key) (names.erase name) := by
  constructor
  case mem =>
    intro other
    simp only [AList.mem_erase, h.mem, lookup_erase_eq]
    constructor
    · grind
    · rintro ⟨found, hf⟩
      split at hf
      · cases hf
      · rename_i hne
        refine ⟨?_, found, hf⟩
        rintro rfl
        exact hne (h.unique found key _ hf hk)
  case unique =>
    intro first second other hfi hs
    exact h.unique first second other (lookup_of_erase hfi) (lookup_of_erase hs)

end Indexes

end ProofKit.Tables
