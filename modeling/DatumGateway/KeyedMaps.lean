import Mathlib.Data.Finset.Card
import Mathlib.Data.List.AList

namespace DatumGateway.KeyedMaps

abbrev KeyMap (κ ν : Type*) := AList fun _ : κ => ν

variable {κ ν : Type*}

def mapValues (f : ν → ν) (m : KeyMap κ ν) : KeyMap κ ν where
  entries := m.entries.map fun e => ⟨e.1, f e.2⟩
  nodupKeys := by
    have hkeys : (m.entries.map fun e => (⟨e.1, f e.2⟩ : Sigma fun _ : κ => ν)).keys =
        m.entries.keys := by
      simp [List.keys]
    rw [List.NodupKeys, hkeys]
    exact m.nodupKeys

theorem keys_mapValues (f : ν → ν) (m : KeyMap κ ν) : (mapValues f m).keys = m.keys := by
  simp [AList.keys, mapValues, List.keys]

variable [DecidableEq κ]

theorem toFinset_keys_insert (m : KeyMap κ ν) (key : κ) (v : ν) :
    (m.insert key v).keys.toFinset = insert key m.keys.toFinset := by
  ext key'
  rw [List.mem_toFinset, ← AList.mem_keys, AList.mem_insert, Finset.mem_insert, List.mem_toFinset,
    ← AList.mem_keys]

theorem toFinset_keys_erase (m : KeyMap κ ν) (key : κ) :
    (m.erase key).keys.toFinset = m.keys.toFinset.erase key := by
  ext key'
  rw [List.mem_toFinset, ← AList.mem_keys, AList.mem_erase, Finset.mem_erase, List.mem_toFinset,
    ← AList.mem_keys]

theorem lookup_insert_eq_some_iff {m : KeyMap κ ν} {key key' : κ} {v w : ν} :
    (m.insert key v).lookup key' = some w ↔
      key' = key ∧ v = w ∨ key' ≠ key ∧ m.lookup key' = some w := by
  by_cases hkey : key' = key
  · subst hkey
    simp
  · simp [AList.lookup_insert_ne hkey, hkey]

theorem lookup_erase_eq_some_iff {m : KeyMap κ ν} {key key' : κ} {w : ν} :
    (m.erase key).lookup key' = some w ↔ key' ≠ key ∧ m.lookup key' = some w := by
  by_cases hkey : key' = key
  · subst hkey
    simp
  · simp [AList.lookup_erase_ne hkey, hkey]

theorem lookup_mapValues (f : ν → ν) (m : KeyMap κ ν) (key : κ) :
    (mapValues f m).lookup key = (m.lookup key).map f := by
  have hentries : ∀ entries : List (Sigma fun _ : κ => ν),
      List.dlookup key (entries.map fun e => (⟨e.1, f e.2⟩ : Sigma fun _ : κ => ν)) =
        (List.dlookup key entries).map f := by
    intro entries
    induction entries with
    | nil => rfl
    | cons e entries ih =>
        rcases e with ⟨k, v⟩
        by_cases hk : key = k
        · subst hk
          simp
        · simp [List.dlookup_cons_ne, hk, ih]
  exact hentries m.entries

def adjust (m : KeyMap κ ν) (key : κ) (f : ν → ν) : KeyMap κ ν :=
  match m.lookup key with
  | some v => m.insert key (f v)
  | none => m

theorem lookup_adjust (m : KeyMap κ ν) (key key' : κ) (f : ν → ν) :
    (adjust m key f).lookup key' =
      if key' = key then (m.lookup key).map f else m.lookup key' := by
  unfold adjust
  split
  · rename_i v hv
    split_ifs with hkey
    · subst hkey
      rw [AList.lookup_insert, hv, Option.map_some]
    · exact AList.lookup_insert_ne hkey
  · rename_i hnone
    split_ifs with hkey
    · subst hkey
      rw [hnone, Option.map_none]
    · rfl

end DatumGateway.KeyedMaps
