import DatumGateway.RecencyCaches

namespace DatumGateway.DupeCaches

open DatumGateway.RecencyCaches

structure ShareKey where
  channelId : UInt32
  sequence : UInt64
  ntime : UInt32
  version : UInt32
  extranonce : BitVec 128
  nonce : UInt32
  deriving DecidableEq

/-- The cache of the `lru` crate, with no values; `get` says whether the key is there. -/
structure LruCache (C : Type) where
  new : ℕ → C
  get : C → ShareKey → Bool × C
  put : C → ShareKey → C
  len : C → ℕ

/-- What the crate says of its cache: a key that is got is the most recent one then, and a key
that is put into a full cache takes the place of the least recent one. -/
structure LeastRecentlyUsed {C : Type} (lru : LruCache C) (cap : C → ℕ)
    (keys : C → List ShareKey) : Prop where
  new : ∀ capacity, cap (lru.new capacity) = capacity ∧ keys (lru.new capacity) = []
  get_fst : ∀ c key, (lru.get c key).1 = true ↔ key ∈ keys c
  get_cap : ∀ c key, cap (lru.get c key).2 = cap c
  get_keys : ∀ c key, keys (lru.get c key).2 =
    if key ∈ keys c then (keys c).erase key ++ [key] else keys c
  put_cap : ∀ c key, cap (lru.put c key) = cap c
  put_keys : ∀ c key, key ∉ keys c → keys (lru.put c key) =
    (if (keys c).length < cap c then keys c else (keys c).tail) ++ [key]
  len : ∀ c, lru.len c = (keys c).length

section Cache

variable {C : Type} (lru : LruCache C)

def newDupeCache (capacity : ℕ) : C :=
  lru.new (max capacity 1)

/-- Whether the share is novel, and the cache after it. -/
def checkAndInsert (g : C) (key : ShareKey) : Bool × C :=
  let (found, g) := lru.get g key
  if found then (false, g) else (true, lru.put g key)

def afterCalls (g : C) (calls : List ShareKey) : C :=
  calls.foldl (fun g key => (checkAndInsert lru g key).2) g

variable {lru} {cap : C → ℕ} {keys : C → List ShareKey}

theorem checkAndInsert_of_mem (hlru : LeastRecentlyUsed lru cap keys) {g : C} {key : ShareKey}
    (hkey : key ∈ keys g) : checkAndInsert lru g key = (false, (lru.get g key).2) :=
  if_pos ((hlru.get_fst g key).mpr hkey)

theorem checkAndInsert_of_not_mem (hlru : LeastRecentlyUsed lru cap keys) {g : C} {key : ShareKey}
    (hkey : key ∉ keys g) :
    checkAndInsert lru g key = (true, lru.put (lru.get g key).2 key) :=
  if_neg fun hfound => hkey ((hlru.get_fst g key).mp hfound)

theorem checkAndInsert_fst (hlru : LeastRecentlyUsed lru cap keys) (g : C) (key : ShareKey) :
    (checkAndInsert lru g key).1 = false ↔ key ∈ keys g := by
  by_cases hkey : key ∈ keys g
  · rw [checkAndInsert_of_mem hlru hkey]
    exact iff_of_true rfl hkey
  · rw [checkAndInsert_of_not_mem hlru hkey]
    exact iff_of_false Bool.noConfusion hkey

theorem keys_checkAndInsert (hlru : LeastRecentlyUsed lru cap keys) (g : C) (key : ShareKey) :
    cap (checkAndInsert lru g key).2 = cap g ∧
      keys (checkAndInsert lru g key).2 = touch (cap g) (keys g) key := by
  have hkeys := hlru.get_keys g key
  have hcap := hlru.get_cap g key
  by_cases hkey : key ∈ keys g
  · rw [if_pos hkey] at hkeys
    rw [checkAndInsert_of_mem hlru hkey, touch, if_pos hkey]
    exact ⟨hcap, hkeys⟩
  · rw [if_neg hkey] at hkeys
    rw [checkAndInsert_of_not_mem hlru hkey, touch, if_neg hkey]
    rw [hlru.put_cap, hlru.put_keys _ _ (hkeys ▸ hkey), hkeys, hcap]
    exact ⟨rfl, rfl⟩

theorem keys_afterCalls (hlru : LeastRecentlyUsed lru cap keys) {capacity : ℕ}
    (hcapacity : 1 ≤ capacity) (calls : List ShareKey) :
    cap (afterCalls lru (newDupeCache lru capacity) calls) = capacity ∧
      keys (afterCalls lru (newDupeCache lru capacity) calls) = recent capacity calls := by
  induction calls using List.reverseRecOn with
  | nil =>
      obtain ⟨hcap, hkeys⟩ := hlru.new (max capacity 1)
      refine ⟨hcap.trans (max_eq_left hcapacity), hkeys.trans ?_⟩
      rw [recent, List.dedup_nil, List.rtake_nil]
  | append_singleton calls key ih =>
      obtain ⟨hcap, hkeys⟩ := ih
      obtain ⟨hcap', hkeys'⟩ :=
        keys_checkAndInsert hlru (afterCalls lru (newDupeCache lru capacity) calls) key
      rw [afterCalls, List.foldl_append, List.foldl_cons, List.foldl_nil, ← afterCalls, hcap',
        hkeys', hcap, hkeys, recent_concat hcapacity]
      exact ⟨rfl, rfl⟩

/-- A share counts as a duplicate while fewer other shares than the cache has room for were passed
since it was passed last. -/
theorem duplicate_iff (hlru : LeastRecentlyUsed lru cap keys) (capacity : ℕ)
    (hcapacity : 1 ≤ capacity) (calls : List ShareKey) (key : ShareKey) :
    ((checkAndInsert lru (afterCalls lru (newDupeCache lru capacity) calls) key).1 = false ↔
      ∃ before after, calls = before ++ key :: after ∧ key ∉ after ∧
        after.toFinset.card < capacity) ∧
    lru.len (afterCalls lru (newDupeCache lru capacity) calls) ≤ capacity := by
  obtain ⟨-, hkeys⟩ := keys_afterCalls hlru hcapacity calls
  constructor
  · rw [checkAndInsert_fst hlru, hkeys, mem_recent_iff]
  · rw [hlru.len, hkeys]
    exact length_recent_le capacity calls

end Cache

/-- A capacity and the keys, the least recent one first. -/
def listCache : LruCache (ℕ × List ShareKey) where
  new capacity := (capacity, [])
  get c key := if key ∈ c.2 then (true, c.1, c.2.erase key ++ [key]) else (false, c)
  put c key := (c.1, touch c.1 c.2 key)
  len c := c.2.length

theorem get_listCache_of_mem {c : ℕ × List ShareKey} {key : ShareKey} (hkey : key ∈ c.2) :
    listCache.get c key = (true, c.1, c.2.erase key ++ [key]) :=
  if_pos hkey

theorem get_listCache_of_not_mem {c : ℕ × List ShareKey} {key : ShareKey} (hkey : key ∉ c.2) :
    listCache.get c key = (false, c) :=
  if_neg hkey

theorem leastRecentlyUsed_listCache : LeastRecentlyUsed listCache Prod.fst Prod.snd where
  new _ := ⟨rfl, rfl⟩
  get_fst c key := by
    by_cases hkey : key ∈ c.2
    · rw [get_listCache_of_mem hkey]
      exact iff_of_true rfl hkey
    · rw [get_listCache_of_not_mem hkey]
      exact iff_of_false Bool.noConfusion hkey
  get_cap c key := by
    by_cases hkey : key ∈ c.2
    · rw [get_listCache_of_mem hkey]
    · rw [get_listCache_of_not_mem hkey]
  get_keys c key := by
    by_cases hkey : key ∈ c.2
    · rw [get_listCache_of_mem hkey, if_pos hkey]
    · rw [get_listCache_of_not_mem hkey, if_neg hkey]
  put_cap _ _ := rfl
  put_keys c key hkey := if_neg hkey
  len _ := rfl

def numberedKey (sequence : UInt64) : ShareKey where
  channelId := 1
  sequence
  ntime := 0x17000000
  version := 0x20000000
  extranonce := 0xdeadbeef
  nonce := sequence.toUInt32

theorem duplicate_iff_of_two :
    (checkAndInsert listCache (afterCalls listCache (newDupeCache listCache 2)
      [numberedKey 1, numberedKey 2, numberedKey 3]) (numberedKey 1)).1 = true ∧
    (checkAndInsert listCache (afterCalls listCache (newDupeCache listCache 2)
      [numberedKey 1, numberedKey 2, numberedKey 3]) (numberedKey 2)).1 = false := by
  refine ⟨by decide, ?_⟩
  rw [(duplicate_iff leastRecentlyUsed_listCache 2 (by decide) _ _).1]
  exact ⟨[numberedKey 1], [numberedKey 3], rfl, by decide, by decide⟩

end DatumGateway.DupeCaches
