import Mathlib.Data.List.DropRight
import Mathlib.Data.Finset.Card

/-!
Sets of bounded size that evict the key queued first, where an insertion makes
room and queues its key without looking at whether the key is new.
-/

namespace DatumGateway.FifoCaches

variable {κ : Type*}

theorem nodup_concat_iff {keys : List κ} {key : κ} :
    (keys ++ [key]).Nodup ↔ keys.Nodup ∧ key ∉ keys := by
  rw [← List.concat_eq_append, List.nodup_concat, and_comm]

theorem rtake_append {older keys : List κ} {n : ℕ} (hlength : keys.length ≤ n)
    (holder : older ≠ [] → keys.length = n) : (older ++ keys).rtake n = keys := by
  rw [List.rtake]
  by_cases hnone : older = []
  · subst hnone
    rw [List.nil_append, Nat.sub_eq_zero_of_le hlength, List.drop_zero]
  · rw [List.length_append, holder hnone, Nat.add_sub_cancel, List.drop_left]

theorem exists_older (n : ℕ) (keys : List κ) :
    ∃ older, keys = older ++ keys.rtake n ∧ (older ≠ [] → (keys.rtake n).length = n) := by
  refine ⟨keys.take (keys.length - n), ?_, ?_⟩
  · rw [List.rtake, List.take_append_drop]
  · intro hne
    have hpos := List.length_pos_of_ne_nil hne
    rw [List.length_take] at hpos
    rw [List.rtake, List.length_drop]
    omega

theorem length_rtake_le (n : ℕ) (keys : List κ) : (keys.rtake n).length ≤ n := by
  rw [List.rtake, List.length_drop]
  omega

theorem rtake_append_of_room {older keys : List κ} {n : ℕ} (hlength : keys.length ≤ n + 1)
    (holder : older ≠ [] → keys.length = n + 1) :
    (older ++ keys).rtake n = if keys.length < n + 1 then keys else keys.tail := by
  split_ifs with hroom
  · have hnone : older = [] := by
      by_contra hne
      have := holder hne
      omega
    rw [hnone, rtake_append (by omega) fun h => absurd rfl h]
  · cases keys with
    | nil => simp at hroom
    | cons oldest keys =>
        rw [List.length_cons] at hlength hroom
        rw [List.append_cons, rtake_append (by omega) fun _ => by omega, List.tail_cons]

variable [DecidableEq κ]

structure Cache (κ : Type*) where
  queue : List κ
  live : Finset κ

namespace Cache

def empty : Cache κ where
  queue := []
  live := ∅

def evict (capacity : ℕ) (c : Cache κ) : Cache κ :=
  if capacity ≤ c.live.card then
    match c.queue with
    | oldest :: queue => ⟨queue, c.live.erase oldest⟩
    | [] => c
  else c

def insert (capacity : ℕ) (c : Cache κ) (key : κ) : Cache κ where
  queue := (c.evict capacity).queue ++ [key]
  live := Insert.insert key (c.evict capacity).live

end Cache

/-- The queue lists the live keys, each once, and is within the capacity. -/
structure InStep (capacity : ℕ) (c : Cache κ) : Prop where
  nodup : c.queue.Nodup
  live_eq : c.live = c.queue.toFinset
  bounded : c.queue.length ≤ capacity

/-- The key is new, or it is the one that its own insertion evicts. -/
def Renewable (capacity : ℕ) (c : Cache κ) (key : κ) : Prop :=
  key ∉ c.live ∨ capacity ≤ c.live.card ∧ c.queue.head? = some key

variable {capacity : ℕ} {c : Cache κ} {key : κ}

theorem InStep.card_live (hstep : InStep capacity c) : c.live.card = c.queue.length := by
  rw [hstep.live_eq, List.toFinset_card_of_nodup hstep.nodup]

theorem evict_of_lt (hroom : c.live.card < capacity) : c.evict capacity = c :=
  if_neg (Nat.not_le.mpr hroom)

theorem evict_of_queue_cons (hfull : capacity ≤ c.live.card) {oldest : κ} {queue : List κ}
    (hqueue : c.queue = oldest :: queue) :
    c.evict capacity = ⟨queue, c.live.erase oldest⟩ := by
  rw [Cache.evict, if_pos hfull, hqueue]

theorem evict_cases (hpos : 0 < capacity) (hqueued : c.live ⊆ c.queue.toFinset) :
    c.live.card < capacity ∧ c.evict capacity = c ∨
      ∃ oldest queue, capacity ≤ c.live.card ∧ c.queue = oldest :: queue ∧
        c.evict capacity = ⟨queue, c.live.erase oldest⟩ := by
  rcases Nat.lt_or_ge c.live.card capacity with hroom | hfull
  · exact Or.inl ⟨hroom, evict_of_lt hroom⟩
  · cases hqueue : c.queue with
    | nil =>
        rw [hqueue, List.toFinset_nil, Finset.subset_empty] at hqueued
        rw [hqueued, Finset.card_empty] at hfull
        omega
    | cons oldest queue =>
        exact Or.inr ⟨oldest, queue, hfull, rfl, evict_of_queue_cons hfull hqueue⟩

theorem live_insert_subset (hqueued : c.live ⊆ c.queue.toFinset) (key : κ) :
    (c.insert capacity key).live ⊆ (c.insert capacity key).queue.toFinset := by
  have hevict : (c.evict capacity).live ⊆ (c.evict capacity).queue.toFinset := by
    unfold Cache.evict
    split_ifs
    · split
      · rename_i oldest queue hqueue
        rw [hqueue, List.toFinset_cons] at hqueued
        intro k hk
        obtain ⟨hne, hlive⟩ := Finset.mem_erase.mp hk
        exact Finset.mem_of_mem_insert_of_ne (hqueued hlive) hne
      · exact hqueued
    · exact hqueued
  intro k hk
  simp only [Cache.insert, List.toFinset_append, List.toFinset_cons, List.toFinset_nil,
    Finset.mem_union] at hk ⊢
  rcases Finset.mem_insert.mp hk with rfl | hk
  · exact Or.inr (Finset.mem_insert_self _ _)
  · exact Or.inl (hevict hk)

theorem InStep.of_insert (hpos : 0 < capacity) (hqueued : c.live ⊆ c.queue.toFinset)
    (hstep : InStep capacity (c.insert capacity key)) : InStep capacity c := by
  have hbounded := hstep.bounded
  rcases evict_cases hpos hqueued with ⟨hroom, hevict⟩ | ⟨oldest, queue, hfull, hqueue, -⟩
  · have hnodup := hstep.nodup
    have hlive := hstep.live_eq
    simp only [Cache.insert, hevict] at hnodup hlive hbounded
    rw [List.length_append] at hbounded
    obtain ⟨hqueue, hnew⟩ := nodup_concat_iff.mp hnodup
    refine ⟨hqueue, hqueued.antisymm ?_, by omega⟩
    intro k hk
    have hmem : k ∈ Insert.insert key c.live := by
      rw [hlive, List.toFinset_append]
      exact Finset.mem_union_left _ hk
    rcases Finset.mem_insert.mp hmem with rfl | hmem
    · exact absurd (List.mem_toFinset.mp hk) hnew
    · exact hmem
  · -- the insertion kept the length, which the live keys alone already reach
    have hlength : c.queue.length ≤ capacity := by
      simpa [Cache.insert, evict_of_queue_cons hfull hqueue, hqueue] using hbounded
    have hcard := List.toFinset_card_le c.queue
    have heq : c.live = c.queue.toFinset :=
      Finset.eq_of_subset_of_card_le hqueued (by omega)
    refine ⟨?_, heq, hlength⟩
    refine Multiset.coe_nodup.mp (Multiset.toFinset_card_eq_card_iff_nodup.mp ?_)
    change c.queue.toFinset.card = c.queue.length
    rw [heq] at hfull
    omega

theorem InStep.insert_of_renewable (hpos : 0 < capacity) (hstep : InStep capacity c)
    (hkey : Renewable capacity c key) : InStep capacity (c.insert capacity key) := by
  have hqueued : c.live ⊆ c.queue.toFinset := hstep.live_eq.subset
  have hbounded := hstep.bounded
  have hcard := hstep.card_live
  rcases evict_cases hpos hqueued with ⟨hroom, hevict⟩ | ⟨oldest, queue, hfull, hqueue, hevict⟩
  · have hnew : key ∉ c.queue := by
      rcases hkey with hnew | ⟨hfull, -⟩
      · rwa [hstep.live_eq, List.mem_toFinset] at hnew
      · omega
    constructor
    · rw [Cache.insert, hevict]
      exact nodup_concat_iff.mpr ⟨hstep.nodup, hnew⟩
    · simp [Cache.insert, hevict, hstep.live_eq]
    · simp only [Cache.insert, hevict, List.length_append, List.length_singleton]
      omega
  · have hnodup := hstep.nodup
    rw [hqueue, List.nodup_cons] at hnodup
    have hlive : c.live.erase oldest = queue.toFinset := by
      rw [hstep.live_eq, hqueue, List.toFinset_cons]
      exact Finset.erase_insert fun h => hnodup.1 (List.mem_toFinset.mp h)
    have hnew : key ∉ queue := by
      rcases hkey with hnew | ⟨-, hhead⟩
      · rw [hstep.live_eq, List.mem_toFinset, hqueue] at hnew
        exact fun h => hnew (List.mem_cons_of_mem oldest h)
      · rw [hqueue, List.head?_cons] at hhead
        rw [← Option.some.inj hhead]
        exact hnodup.1
    constructor
    · rw [Cache.insert, hevict]
      exact nodup_concat_iff.mpr ⟨hnodup.2, hnew⟩
    · simp [Cache.insert, hevict, hlive]
    · rw [hqueue, List.length_cons] at hbounded
      simpa [Cache.insert, hevict] using hbounded

theorem queue_insert {inserted : List κ} (hpos : 0 < capacity) (hstep : InStep capacity c)
    (hqueue : c.queue = inserted.rtake capacity) :
    (c.insert capacity key).queue = (inserted ++ [key]).rtake capacity := by
  obtain ⟨n, rfl⟩ := Nat.exists_eq_succ_of_ne_zero hpos.ne'
  obtain ⟨older, hinserted, holder⟩ := exists_older (n + 1) inserted
  rw [← hqueue] at hinserted holder
  rw [List.rtake_concat_succ, hinserted, rtake_append_of_room hstep.bounded holder, Cache.insert]
  rcases evict_cases hpos hstep.live_eq.subset with ⟨hroom, hevict⟩ |
    ⟨oldest, queue, hfull, hcons, hevict⟩
  · rw [hstep.card_live] at hroom
    rw [hevict, if_pos hroom]
  · rw [hstep.card_live] at hfull
    rw [hevict, if_neg (Nat.not_lt.mpr hfull), hcons, List.tail_cons]

theorem renewable_of_insert (hpos : 0 < capacity) (hstep : InStep capacity c)
    (hinsert : InStep capacity (c.insert capacity key)) : Renewable capacity c key := by
  by_cases hnew : key ∈ c.live
  · have hqueued : c.live ⊆ c.queue.toFinset := hstep.live_eq.subset
    have hkey : key ∈ c.queue := List.mem_toFinset.mp (hqueued hnew)
    have hnodup := hinsert.nodup
    rcases evict_cases hpos hqueued with ⟨-, hevict⟩ | ⟨oldest, queue, hfull, hqueue, hevict⟩
    · rw [Cache.insert, hevict] at hnodup
      exact absurd hkey (nodup_concat_iff.mp hnodup).2
    · rw [Cache.insert, hevict] at hnodup
      have hgone := (nodup_concat_iff.mp hnodup).2
      rw [hqueue] at hkey
      rcases List.mem_cons.mp hkey with rfl | hkey
      · exact Or.inr ⟨hfull, by rw [hqueue, List.head?_cons]⟩
      · exact absurd hkey hgone
  · exact Or.inl hnew

theorem inStep_insert_iff (hpos : 0 < capacity) (hstep : InStep capacity c) :
    InStep capacity (c.insert capacity key) ↔ Renewable capacity c key :=
  ⟨renewable_of_insert hpos hstep, hstep.insert_of_renewable hpos⟩

/-- The distinct keys of a history, by their last insertions, end with those in the queue; the
older ones went when the queue was full. -/
structure ListsRecent (capacity : ℕ) (inserted : List κ) (c : Cache κ) : Prop where
  inStep : InStep capacity c
  recent : ∃ older, inserted.dedup = older ++ c.queue ∧
    (older ≠ [] → c.queue.length = capacity)

theorem dedup_concat (inserted : List κ) (key : κ) :
    (inserted ++ [key]).dedup = inserted.dedup.erase key ++ [key] := by
  induction inserted with
  | nil => simp
  | cons k inserted ih =>
      rw [List.cons_append, List.dedup_cons, List.dedup_cons, ih]
      by_cases hmem : k ∈ inserted
      · rw [if_pos hmem, if_pos (List.mem_append_left [key] hmem)]
      · rw [if_neg hmem]
        by_cases hkey : k = key
        · subst hkey
          simp [List.erase_of_not_mem, hmem]
        · rw [if_neg (by simp [hmem, hkey]), List.erase_cons_tail (by simp [hkey]),
            List.cons_append]

theorem ListsRecent.insert (hpos : 0 < capacity) {inserted : List κ}
    (hlists : ListsRecent capacity inserted c) (hkey : Renewable capacity c key) :
    ListsRecent capacity (inserted ++ [key]) (c.insert capacity key) := by
  have hstep := hlists.inStep
  have hqueued : c.live ⊆ c.queue.toFinset := hstep.live_eq.subset
  have hcard := hstep.card_live
  have hbounded := hstep.bounded
  refine ⟨hstep.insert_of_renewable hpos hkey, ?_⟩
  obtain ⟨older, hdedup, holder⟩ := hlists.recent
  rw [dedup_concat, hdedup]
  rcases evict_cases hpos hqueued with ⟨hroom, hevict⟩ | ⟨oldest, queue, hfull, hqueue, hevict⟩
  · have hnone : older = [] := by
      by_contra hne
      have := holder hne
      omega
    have hnew : key ∉ c.queue := by
      rcases hkey with hnew | ⟨hfull, -⟩
      · rwa [hstep.live_eq, List.mem_toFinset] at hnew
      · omega
    refine ⟨[], ?_, fun h => absurd rfl h⟩
    rw [Cache.insert, hevict, hnone, List.nil_append, List.nil_append,
      List.erase_of_not_mem hnew]
  · have hlength : (c.insert capacity key).queue.length = capacity := by
      rw [hqueue, List.length_cons] at hcard hbounded
      simp only [Cache.insert, hevict, List.length_append, List.length_singleton]
      omega
    rcases hkey with hnew | ⟨-, hhead⟩
    · rw [hstep.live_eq, List.mem_toFinset] at hnew
      refine ⟨older.erase key ++ [oldest], ?_, fun _ => hlength⟩
      have herase : (older ++ c.queue).erase key = older.erase key ++ c.queue := by
        by_cases hmem : key ∈ older
        · exact List.erase_append_left c.queue hmem
        · rw [List.erase_append_right c.queue hmem, List.erase_of_not_mem hnew,
            List.erase_of_not_mem hmem]
      rw [herase, Cache.insert, hevict, hqueue]
      simp
    · rw [hqueue, List.head?_cons] at hhead
      obtain rfl := Option.some.inj hhead
      have hnodup : (older ++ c.queue).Nodup := hdedup ▸ List.nodup_dedup inserted
      have hnew : oldest ∉ older := by
        intro hmem
        exact List.disjoint_of_nodup_append hnodup hmem (hqueue ▸ List.mem_cons_self)
      refine ⟨older, ?_, fun _ => hlength⟩
      rw [List.erase_append_right c.queue hnew, hqueue, List.erase_cons_head, Cache.insert,
        hevict, List.append_assoc]

theorem listsRecent_empty (capacity : ℕ) : ListsRecent capacity ([] : List κ) Cache.empty where
  inStep := ⟨List.nodup_nil, rfl, Nat.zero_le capacity⟩
  recent := ⟨[], rfl, fun h => absurd rfl h⟩

theorem ListsRecent.queue_eq {inserted : List κ} (hlists : ListsRecent capacity inserted c) :
    c.queue = inserted.dedup.rtake capacity := by
  obtain ⟨older, hdedup, holder⟩ := hlists.recent
  rw [hdedup, rtake_append hlists.inStep.bounded holder]

end DatumGateway.FifoCaches
