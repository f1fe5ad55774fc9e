import DatumGateway.FifoCaches

namespace DatumGateway.RecencyCaches

open DatumGateway.FifoCaches

variable {κ : Type*}

theorem exists_last {key : κ} {history : List κ} (hkey : key ∈ history) :
    ∃ before after, history = before ++ key :: after ∧ key ∉ after := by
  obtain ⟨after, before, hhistory, hafter⟩ :=
    List.eq_append_cons_of_mem (List.mem_reverse.mpr hkey)
  refine ⟨before.reverse, after.reverse, ?_, fun h => hafter (List.mem_reverse.mp h)⟩
  rw [← List.reverse_reverse history, hhistory]
  simp

variable [DecidableEq κ]

/-- One use of a key; `keys` lists the least recent one first. -/
def touch (capacity : ℕ) (keys : List κ) (key : κ) : List κ :=
  if key ∈ keys then keys.erase key ++ [key]
  else (if keys.length < capacity then keys else keys.tail) ++ [key]

/-- The last keys of a history, each once. -/
def recent (capacity : ℕ) (history : List κ) : List κ :=
  history.dedup.rtake capacity

theorem length_recent_le (capacity : ℕ) (history : List κ) :
    (recent capacity history).length ≤ capacity :=
  length_rtake_le capacity history.dedup

theorem recent_concat {capacity : ℕ} (hpos : 0 < capacity) (history : List κ) (key : κ) :
    recent capacity (history ++ [key]) = touch capacity (recent capacity history) key := by
  obtain ⟨n, rfl⟩ := Nat.exists_eq_succ_of_ne_zero hpos.ne'
  obtain ⟨older, hdedup, holder⟩ := exists_older (n + 1) history.dedup
  have hlength := length_recent_le (n + 1) history
  have hnodup := List.nodup_dedup history
  rw [recent, dedup_concat, List.rtake_concat_succ, touch]
  rw [← recent] at hdedup holder
  rw [hdedup] at hnodup ⊢
  generalize recent (n + 1) history = keys at holder hlength hnodup ⊢
  by_cases hkey : key ∈ keys
  · have hold : key ∉ older := fun h => List.disjoint_of_nodup_append hnodup h hkey
    have herase := List.length_erase_of_mem hkey
    rw [if_pos hkey, List.erase_append_right keys hold, rtake_append (by omega)]
    intro hne
    rw [herase, holder hne, Nat.add_sub_cancel]
  · have herase : (older ++ keys).erase key = older.erase key ++ keys := by
      by_cases hold : key ∈ older
      · exact List.erase_append_left keys hold
      · rw [List.erase_append_right keys hold, List.erase_of_not_mem hkey,
          List.erase_of_not_mem hold]
    rw [if_neg hkey, herase, rtake_append_of_room hlength]
    intro hne
    apply holder
    rintro rfl
    exact hne (List.erase_nil key)

theorem mem_recent_append_cons_iff {capacity : ℕ} {before after : List κ} {key : κ}
    (hafter : key ∉ after) :
    key ∈ recent capacity (before ++ key :: after) ↔ after.toFinset.card < capacity := by
  have hsuffix : (key :: after).dedup <:+ before ∪ (key :: after).dedup :=
    List.suffix_union_right _ _
  obtain ⟨older, hdedup⟩ := hsuffix
  rw [← List.dedup_append, List.dedup_cons_of_notMem hafter] at hdedup
  have hnodup : (older ++ key :: after.dedup).Nodup := hdedup ▸ List.nodup_dedup _
  have hcard : after.toFinset.card = after.dedup.length := List.card_toFinset after
  rw [recent, ← hdedup, List.rtake, hcard, List.length_append, List.length_cons]
  by_cases hkept : older.length + (after.dedup.length + 1) - capacity ≤ older.length
  · rw [List.drop_append_of_le_length hkept]
    exact iff_of_true (List.mem_append_right _ List.mem_cons_self) (by omega)
  · refine iff_of_false ?_ (by omega)
    obtain ⟨m, hm⟩ := Nat.exists_eq_add_of_lt (Nat.lt_of_not_le hkept)
    rw [hm, Nat.add_assoc, ← List.drop_drop, List.drop_left, List.drop_succ_cons]
    intro hmem
    exact hafter (List.mem_dedup.mp (List.mem_of_mem_drop hmem))

theorem mem_recent_iff (capacity : ℕ) (history : List κ) (key : κ) :
    key ∈ recent capacity history ↔ ∃ before after, history = before ++ key :: after ∧
      key ∉ after ∧ after.toFinset.card < capacity := by
  constructor
  · intro hmem
    have hkey : key ∈ history := List.mem_dedup.mp (List.mem_of_mem_drop hmem)
    obtain ⟨before, after, rfl, hafter⟩ := exists_last hkey
    exact ⟨before, after, rfl, hafter, (mem_recent_append_cons_iff hafter).mp hmem⟩
  · rintro ⟨before, after, rfl, hafter, hcard⟩
    exact (mem_recent_append_cons_iff hafter).mpr hcard

end DatumGateway.RecencyCaches
