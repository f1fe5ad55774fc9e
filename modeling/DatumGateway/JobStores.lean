import DatumGateway.Coinbaser
import DatumGateway.FifoCaches
import DatumGateway.KeyedMaps

namespace DatumGateway.JobStores

open DatumGateway.Coinbaser
open DatumGateway.FifoCaches
open DatumGateway.KeyedMaps

structure ExtendedJob where
  jobId : UInt32
  isFuture : Bool
  version : UInt32
  additionalCoinbaseOutputs : List CoinbaseOutput
  deriving DecidableEq

structure InMemoryJobStore where
  capacity : ℕ
  order : List UInt32 := []
  jobs : KeyMap UInt32 ExtendedJob := ∅

/-- The public constructors. -/
inductive Constructor where
  | withCapacity (capacity : ℕ)
  | newEightJobRing
  | default
  deriving DecidableEq

namespace InMemoryJobStore

def withCapacity (capacity : ℕ) : InMemoryJobStore where
  capacity := max capacity 1

def newEightJobRing : InMemoryJobStore :=
  withCapacity 8

/-- `#[derive(Default)]`. -/
def default : InMemoryJobStore where
  capacity := 0

/-- `order.remove(0)` panics if there is nothing to remove. -/
def evictFirst (s : InMemoryJobStore) : Option InMemoryJobStore :=
  match s.order with
  | [] => none
  | evicted :: order => some { s with order, jobs := s.jobs.erase evicted }

/-- None if the call panics. -/
def put (s : InMemoryJobStore) (job : ExtendedJob) : Option InMemoryJobStore :=
  let id := job.jobId
  if id ∈ s.jobs then some { s with jobs := s.jobs.insert id job }
  else
    (if s.capacity ≤ s.jobs.entries.length then s.evictFirst else some s).map fun s =>
      { s with order := s.order ++ [id], jobs := s.jobs.insert id job }

def get (s : InMemoryJobStore) (jobId : UInt32) : Option ExtendedJob :=
  s.jobs.lookup jobId

def len (s : InMemoryJobStore) : ℕ :=
  s.jobs.entries.length

def putAll (s : InMemoryJobStore) (puts : List ExtendedJob) : Option InMemoryJobStore :=
  puts.foldlM put s

/-- The ids that were not there when they were put, the first one first. -/
def enteredIds : InMemoryJobStore → List ExtendedJob → List UInt32
  | _, [] => []
  | s, job :: puts =>
      (if job.jobId ∈ s.jobs then [] else [job.jobId]) ++
        match s.put job with
        | some s => enteredIds s puts
        | none => []

end InMemoryJobStore

def Constructor.build : Constructor → InMemoryJobStore
  | .withCapacity capacity => .withCapacity capacity
  | .newEightJobRing => .newEightJobRing
  | .default => .default

/-- What a store holds after `puts`, of which the ids `entered` were not there when they came. -/
structure FirstInFirstOut (puts : List ExtendedJob) (entered : List UInt32)
    (s : InMemoryJobStore) : Prop where
  listed : ∀ id, id ∈ s.order ↔ (s.get id).isSome
  once : s.order.Nodup
  inOrder : s.order = entered.rtake s.capacity
  bounded : s.len ≤ s.capacity
  lastHeld : ∀ job ∈ puts.getLast?, s.get job.jobId = some job
  latest : ∀ id job, s.get id = some job → (puts.reverse.find? fun j => j.jobId == id) = some job

/-- No call panics, and the store is first in, first out. -/
def KeepsJobs (s : InMemoryJobStore) (puts : List ExtendedJob) : Prop :=
  ∃ t, s.putAll puts = some t ∧ t.capacity = s.capacity ∧
    FirstInFirstOut puts (s.enteredIds puts) t

/-! The store as a bounded cache of its ids. -/

def cacheOf (s : InMemoryJobStore) : Cache UInt32 where
  queue := s.order
  live := s.jobs.keys.toFinset

theorem mem_live_iff {s : InMemoryJobStore} {id : UInt32} :
    id ∈ (cacheOf s).live ↔ id ∈ s.jobs := by
  rw [cacheOf, List.mem_toFinset, AList.mem_keys]

theorem isSome_get_iff {s : InMemoryJobStore} {id : UInt32} :
    (s.get id).isSome ↔ id ∈ s.jobs :=
  AList.lookup_isSome

theorem card_live (s : InMemoryJobStore) : (cacheOf s).live.card = s.len := by
  have hnodup : s.jobs.keys.Nodup := s.jobs.nodupKeys
  rw [cacheOf, List.toFinset_card_of_nodup hnodup, AList.keys, List.keys, List.length_map,
    InMemoryJobStore.len]

structure StoreInvariant (puts : List ExtendedJob) (entered : List UInt32)
    (s : InMemoryJobStore) : Prop where
  inStep : InStep s.capacity (cacheOf s)
  inOrder : s.order = entered.rtake s.capacity
  lastHeld : ∀ job ∈ puts.getLast?, s.get job.jobId = some job
  latest : ∀ id job, s.get id = some job → (puts.reverse.find? fun j => j.jobId == id) = some job

theorem StoreInvariant.firstInFirstOut {puts : List ExtendedJob} {entered : List UInt32}
    {s : InMemoryJobStore} (hinv : StoreInvariant puts entered s) :
    FirstInFirstOut puts entered s where
  listed id := by
    rw [isSome_get_iff, ← mem_live_iff, hinv.inStep.live_eq, List.mem_toFinset]
    rfl
  once := hinv.inStep.nodup
  inOrder := hinv.inOrder
  bounded := by
    rw [← card_live, hinv.inStep.card_live]
    exact hinv.inStep.bounded
  lastHeld := hinv.lastHeld
  latest := hinv.latest

theorem put_of_new {s : InMemoryJobStore} {job : ExtendedJob} (hpos : 0 < s.capacity)
    (hstep : InStep s.capacity (cacheOf s)) (hnew : job.jobId ∉ s.jobs) :
    ∃ jobs : KeyMap UInt32 ExtendedJob,
      s.put job = some
        { s with
          order := ((cacheOf s).evict s.capacity).queue ++ [job.jobId]
          jobs := jobs.insert job.jobId job } ∧
      jobs.keys.toFinset = ((cacheOf s).evict s.capacity).live ∧
      ∀ id v, jobs.lookup id = some v → s.jobs.lookup id = some v := by
  rw [InMemoryJobStore.put, if_neg hnew]
  rcases evict_cases hpos hstep.live_eq.subset with ⟨hroom, hevict⟩ |
    ⟨oldest, order, hfull, hcons, hevict⟩
  · rw [card_live, InMemoryJobStore.len] at hroom
    rw [if_neg (Nat.not_le.mpr hroom), hevict]
    exact ⟨s.jobs, rfl, rfl, fun _ _ h => h⟩
  · rw [card_live, InMemoryJobStore.len] at hfull
    have horder : s.order = oldest :: order := hcons
    rw [if_pos hfull, InMemoryJobStore.evictFirst, horder, hevict]
    refine ⟨s.jobs.erase oldest, rfl, ?_, ?_⟩
    · exact toFinset_keys_erase s.jobs oldest
    · intro id v hlookup
      exact (lookup_erase_eq_some_iff.mp hlookup).2

theorem latest_concat {puts : List ExtendedJob} {jobs jobs' : KeyMap UInt32 ExtendedJob}
    {job : ExtendedJob}
    (hlatest : ∀ id v, jobs.lookup id = some v →
      (puts.reverse.find? fun j => j.jobId == id) = some v)
    (hkept : ∀ id v, jobs'.lookup id = some v → jobs.lookup id = some v) (id : UInt32)
    (v : ExtendedJob) (hlookup : (jobs'.insert job.jobId job).lookup id = some v) :
    ((puts ++ [job]).reverse.find? fun j => j.jobId == id) = some v := by
  rw [List.reverse_concat, List.find?_cons]
  rcases lookup_insert_eq_some_iff.mp hlookup with ⟨rfl, rfl⟩ | ⟨hne, hlookup⟩
  · rw [beq_self_eq_true]
  · rw [beq_eq_false_iff_ne.mpr (Ne.symm hne)]
    exact hlatest id v (hkept id v hlookup)

theorem StoreInvariant.put {puts : List ExtendedJob} {entered : List UInt32}
    {s : InMemoryJobStore} (hpos : 0 < s.capacity) (hinv : StoreInvariant puts entered s)
    (job : ExtendedJob) :
    ∃ t, s.put job = some t ∧ t.capacity = s.capacity ∧
      StoreInvariant (puts ++ [job])
        (entered ++ if job.jobId ∈ s.jobs then [] else [job.jobId]) t := by
  by_cases hold : job.jobId ∈ s.jobs
  · refine ⟨{ s with jobs := s.jobs.insert job.jobId job }, if_pos hold, rfl, ?_⟩
    rw [if_pos hold, List.append_nil]
    have hcache : cacheOf { s with jobs := s.jobs.insert job.jobId job } = cacheOf s := by
      rw [cacheOf, toFinset_keys_insert,
        Finset.insert_eq_of_mem (List.mem_toFinset.mpr (AList.mem_keys.mp hold)), cacheOf]
    refine ⟨hcache ▸ hinv.inStep, hinv.inOrder, ?_, ?_⟩
    · intro last hlast
      rw [List.getLast?_concat] at hlast
      obtain rfl := Option.some.inj hlast
      exact AList.lookup_insert _
    · exact latest_concat hinv.latest fun _ _ h => h
  · obtain ⟨jobs, hput, hkeys, hkept⟩ := put_of_new hpos hinv.inStep hold
    refine ⟨_, hput, rfl, ?_⟩
    rw [if_neg hold]
    have hnew : job.jobId ∉ (cacheOf s).live := fun h => hold (mem_live_iff.mp h)
    have hcache : cacheOf
        { s with
          order := ((cacheOf s).evict s.capacity).queue ++ [job.jobId]
          jobs := jobs.insert job.jobId job } = (cacheOf s).insert s.capacity job.jobId := by
      rw [Cache.insert, ← hkeys, cacheOf, toFinset_keys_insert]
    refine ⟨?_, ?_, ?_, ?_⟩
    · rw [hcache]
      exact hinv.inStep.insert_of_renewable hpos (Or.inl hnew)
    · exact queue_insert hpos hinv.inStep hinv.inOrder
    · intro last hlast
      rw [List.getLast?_concat] at hlast
      obtain rfl := Option.some.inj hlast
      exact AList.lookup_insert _
    · exact latest_concat hinv.latest hkept

theorem StoreInvariant.putAll {before : List ExtendedJob} {entered : List UInt32}
    {s : InMemoryJobStore} (hpos : 0 < s.capacity) (hinv : StoreInvariant before entered s)
    (puts : List ExtendedJob) :
    ∃ t, s.putAll puts = some t ∧ t.capacity = s.capacity ∧
      StoreInvariant (before ++ puts) (entered ++ s.enteredIds puts) t := by
  induction puts generalizing s before entered with
  | nil =>
      refine ⟨s, rfl, rfl, ?_⟩
      rwa [InMemoryJobStore.enteredIds, List.append_nil, List.append_nil]
  | cons job puts ih =>
      obtain ⟨t, hput, hcapacity, hinv⟩ := hinv.put hpos job
      obtain ⟨u, hrest, hcapacity', hend⟩ := ih (hcapacity ▸ hpos) hinv
      refine ⟨u, ?_, hcapacity'.trans hcapacity, ?_⟩
      · rw [InMemoryJobStore.putAll, List.foldlM_cons, hput]
        exact hrest
      · rw [InMemoryJobStore.enteredIds, hput]
        rwa [List.append_assoc, List.append_assoc, List.singleton_append] at hend

theorem storeInvariant_new (capacity : ℕ) : StoreInvariant [] [] { capacity } where
  inStep := ⟨List.nodup_nil, rfl, Nat.zero_le capacity⟩
  inOrder := (List.rtake_nil capacity).symm
  lastHeld _ hlast := by cases hlast
  latest _ _ hget := by cases hget

theorem keepsJobs_iff (constructor : Constructor) (puts : List ExtendedJob) :
    KeepsJobs constructor.build puts ↔ constructor ≠ .default ∨ puts = [] := by
  have hpositive : constructor ≠ .default → 0 < constructor.build.capacity := by
    intro hne
    cases constructor with
    | withCapacity capacity => exact lt_max_of_lt_right Nat.one_pos
    | newEightJobRing => decide
    | default => exact absurd rfl hne
  have hnew : StoreInvariant [] [] constructor.build := by
    cases constructor with
    | withCapacity capacity => exact storeInvariant_new _
    | newEightJobRing => exact storeInvariant_new _
    | default => exact storeInvariant_new _
  constructor
  · rintro ⟨t, hrun, -⟩
    by_cases hdefault : constructor = .default
    · right
      subst hdefault
      cases puts with
      | nil => rfl
      | cons job puts => cases hrun
    · exact Or.inl hdefault
  · rintro (hne | rfl)
    · obtain ⟨t, hrun, hcapacity, hinv⟩ := hnew.putAll (hpositive hne) puts
      exact ⟨t, hrun, hcapacity, hinv.firstInFirstOut⟩
    · exact ⟨_, rfl, rfl, hnew.firstInFirstOut⟩

def emptyJob : ExtendedJob where
  jobId := 1
  isFuture := false
  version := 0x20000000
  additionalCoinbaseOutputs := []

theorem default_store_panics :
    Constructor.default.build.put emptyJob = none ∧
      ¬ KeepsJobs Constructor.default.build [emptyJob] := by
  refine ⟨rfl, ?_⟩
  rintro ⟨t, hrun, -⟩
  cases hrun

end DatumGateway.JobStores
