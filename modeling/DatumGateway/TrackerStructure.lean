import DatumGateway.FifoCaches
import DatumGateway.MiningListener
import DatumGateway.TransitionSystem

namespace DatumGateway.TrackerStructure

open DatumGateway.BlockTemplate
open DatumGateway.ByteString
open DatumGateway.FifoCaches
open DatumGateway.JobTracker
open DatumGateway.KeyedMaps
open DatumGateway.MiningListener
open DatumGateway.SharedTemplate
open DatumGateway.StratumV1Assembler
open DatumGateway.TransitionSystem

inductive TrackerOp where
  | insert (key : JobKey) (jobMeta : JobMeta) (templateSeed : UInt64)
  | nextIdx
  | resetSendOnceFlags

def trackerStep (t : Tracker) : TrackerOp → Tracker
  | .insert key jobMeta templateSeed => t.insert key jobMeta templateSeed
  | .nextIdx => t.nextIdx.2
  | .resetSendOnceFlags => t.resetSendOnceFlags

def insertedKey : TrackerOp → Option JobKey
  | .insert key _ _ => some key
  | _ => none

/-- The keys of the insertions, the first one first. -/
def insertedKeys (ops : List TrackerOp) : List JobKey :=
  ops.filterMap insertedKey

/-- The queue and the map of a tracker agree after insertions of the given keys.  `dedup` keeps
the last insertion of each key. -/
structure Structured (inserted : List JobKey) (t : Tracker) : Prop where
  listed : ∀ key, key ∈ t.order ↔ (t.get key).isSome
  once : t.order.Nodup
  oldestFirst : t.order.Sublist inserted.dedup
  bounded : t.byKey.entries.length ≤ Tracker.max
  recentPresent : ∀ key ∈ inserted.dedup.rtake Tracker.max, (t.get key).isSome

/-- An insertion is of a key that the tracker does not hold, or of the one it is about to
evict. -/
def Admits (t : Tracker) : TrackerOp → Prop
  | .insert key _ _ =>
      t.get key = none ∨ Tracker.max ≤ t.byKey.entries.length ∧ t.order.head? = some key
  | .nextIdx => True
  | .resetSendOnceFlags => True

/-! The tracker as a bounded cache of its keys. -/

def cacheOf (t : Tracker) : Cache JobKey where
  queue := t.order
  live := t.byKey.keys.toFinset

theorem mem_live_iff {t : Tracker} {key : JobKey} :
    key ∈ (cacheOf t).live ↔ (t.get key).isSome := by
  rw [cacheOf, List.mem_toFinset, ← AList.mem_keys, ← AList.lookup_isSome, Tracker.get]

theorem card_live (t : Tracker) : (cacheOf t).live.card = t.byKey.entries.length := by
  have hnodup : t.byKey.keys.Nodup := t.byKey.nodupKeys
  rw [cacheOf, List.toFinset_card_of_nodup hnodup, AList.keys, List.keys, List.length_map]

theorem cacheOf_evict (t : Tracker) : cacheOf t.evict = (cacheOf t).evict Tracker.max := by
  rw [Cache.evict, card_live]
  unfold Tracker.evict
  split_ifs
  · cases horder : t.order with
    | nil => simp [cacheOf, horder]
    | cons oldest order =>
        simp only [cacheOf, horder, toFinset_keys_erase]
  · rfl

theorem cacheOf_insert (t : Tracker) (key : JobKey) (jobMeta : JobMeta) (templateSeed : UInt64) :
    cacheOf (t.insert key jobMeta templateSeed) = (cacheOf t).insert Tracker.max key := by
  rw [Cache.insert, ← cacheOf_evict]
  simp only [cacheOf, Tracker.insert, toFinset_keys_insert]

theorem cacheOf_resetSendOnceFlags (t : Tracker) : cacheOf t.resetSendOnceFlags = cacheOf t := by
  simp [cacheOf, Tracker.resetSendOnceFlags, keys_mapValues]

theorem admits_insert_iff (t : Tracker) (key : JobKey) (jobMeta : JobMeta)
    (templateSeed : UInt64) :
    Admits t (.insert key jobMeta templateSeed) ↔ Renewable Tracker.max (cacheOf t) key := by
  rw [Admits, Renewable, card_live, mem_live_iff, Option.not_isSome_iff_eq_none, cacheOf]

theorem Structured.inStep {inserted : List JobKey} {t : Tracker}
    (hstructured : Structured inserted t) : InStep Tracker.max (cacheOf t) := by
  have hlive : (cacheOf t).live = (cacheOf t).queue.toFinset := by
    ext key
    rw [mem_live_iff, List.mem_toFinset]
    exact (hstructured.listed key).symm
  have honce : (cacheOf t).queue.Nodup := hstructured.once
  refine ⟨honce, hlive, ?_⟩
  have hcard := congrArg Finset.card hlive
  rw [card_live, List.toFinset_card_of_nodup honce] at hcard
  rw [← hcard]
  exact hstructured.bounded

theorem structured_of_listsRecent {inserted : List JobKey} {t : Tracker}
    (hlists : ListsRecent Tracker.max inserted (cacheOf t)) : Structured inserted t := by
  have hstep := hlists.inStep
  have hlisted : ∀ key, key ∈ t.order ↔ (t.get key).isSome := by
    intro key
    rw [← mem_live_iff, hstep.live_eq, List.mem_toFinset]
    rfl
  constructor
  · exact hlisted
  · exact hstep.nodup
  · obtain ⟨older, hdedup, -⟩ := hlists.recent
    rw [hdedup]
    exact List.sublist_append_right older t.order
  · rw [← card_live, hstep.card_live]
    exact hstep.bounded
  · intro key hkey
    rw [← hlisted]
    rwa [← hlists.queue_eq] at hkey

/-! One operation. -/

/-- Each live key waits in the queue. -/
def Queued (t : Tracker) : Prop :=
  (cacheOf t).live ⊆ (cacheOf t).queue.toFinset

theorem max_pos : 0 < Tracker.max := by
  decide

theorem queued_trackerStep {t : Tracker} (hqueued : Queued t) (op : TrackerOp) :
    Queued (trackerStep t op) := by
  cases op with
  | insert key jobMeta templateSeed =>
      simp only [Queued, trackerStep, cacheOf_insert]
      exact live_insert_subset hqueued key
  | nextIdx => exact hqueued
  | resetSendOnceFlags =>
      simp only [Queued, trackerStep, cacheOf_resetSendOnceFlags]
      exact hqueued

theorem inStep_of_trackerStep {t : Tracker} (hqueued : Queued t) {op : TrackerOp}
    (hstep : InStep Tracker.max (cacheOf (trackerStep t op))) :
    InStep Tracker.max (cacheOf t) := by
  cases op with
  | insert key jobMeta templateSeed =>
      rw [trackerStep, cacheOf_insert] at hstep
      exact hstep.of_insert max_pos hqueued
  | nextIdx => exact hstep
  | resetSendOnceFlags =>
      rw [trackerStep, cacheOf_resetSendOnceFlags] at hstep
      exact hstep

theorem inStep_trackerStep_iff {t : Tracker} (hstep : InStep Tracker.max (cacheOf t))
    (op : TrackerOp) : InStep Tracker.max (cacheOf (trackerStep t op)) ↔ Admits t op := by
  cases op with
  | insert key jobMeta templateSeed =>
      rw [trackerStep, cacheOf_insert, admits_insert_iff]
      exact inStep_insert_iff max_pos hstep
  | nextIdx => exact iff_of_true hstep trivial
  | resetSendOnceFlags =>
      rw [trackerStep, cacheOf_resetSendOnceFlags]
      exact iff_of_true hstep trivial

theorem listsRecent_trackerStep {inserted : List JobKey} {t : Tracker}
    (hlists : ListsRecent Tracker.max inserted (cacheOf t)) {op : TrackerOp}
    (hadmits : Admits t op) :
    ListsRecent Tracker.max (inserted ++ insertedKeys [op]) (cacheOf (trackerStep t op)) := by
  cases op with
  | insert key jobMeta templateSeed =>
      rw [trackerStep, cacheOf_insert]
      exact hlists.insert max_pos ((admits_insert_iff t key jobMeta templateSeed).mp hadmits)
  | nextIdx =>
      change ListsRecent Tracker.max (inserted ++ []) (cacheOf t)
      rwa [List.append_nil]
  | resetSendOnceFlags =>
      change ListsRecent Tracker.max (inserted ++ []) (cacheOf t.resetSendOnceFlags)
      rwa [List.append_nil, cacheOf_resetSendOnceFlags]

/-! Sequences of operations. -/

theorem listsRecent_foldl_trackerStep {inserted : List JobKey} {t : Tracker}
    (hlists : ListsRecent Tracker.max inserted (cacheOf t)) {ops : List TrackerOp}
    (hmeets : MeetsGuard trackerStep Admits t ops) :
    ListsRecent Tracker.max (inserted ++ insertedKeys ops) (cacheOf (ops.foldl trackerStep t)) := by
  induction ops generalizing inserted t with
  | nil =>
      change ListsRecent Tracker.max (inserted ++ []) (cacheOf t)
      rwa [List.append_nil]
  | cons op ops ih =>
      obtain ⟨hadmits, hrest⟩ := hmeets
      have hkeys : insertedKeys (op :: ops) = insertedKeys [op] ++ insertedKeys ops :=
        List.filterMap_append (l := [op])
      rw [hkeys, ← List.append_assoc]
      exact ih (listsRecent_trackerStep hlists hadmits) hrest

/-- The queue and the map of a tracker agree after a sequence of operations exactly if each
insertion was of a key that was not there, or of the oldest one of a full tracker. -/
theorem structured_iff_meetsGuard (ops : List TrackerOp) :
    Structured (insertedKeys ops) (ops.foldl trackerStep {}) ↔
      MeetsGuard trackerStep Admits {} ops := by
  have hempty : ListsRecent Tracker.max [] (cacheOf {}) := listsRecent_empty Tracker.max
  constructor
  · intro hstructured
    have hiff := foldl_step_iff_meetsGuard (p := fun t => InStep Tracker.max (cacheOf t)) Queued
      (fun _ op hqueued => queued_trackerStep hqueued op)
      (fun _ _ hqueued hstep => inStep_of_trackerStep hqueued hstep)
      (fun _ op _ hstep => inStep_trackerStep_iff hstep op)
      (Finset.empty_subset _) hempty.inStep ops
    exact hiff.mp hstructured.inStep
  · intro hmeets
    exact structured_of_listsRecent (listsRecent_foldl_trackerStep hempty hmeets)

/-- A second connection inserts its first job under the key of the first connection's. -/
theorem reinserted_key_queued_twice :
    let template := plainState (fun _ => ByteVec.fill 32 0) emptyTemplate
    let first : TrackerOp :=
      .insert (.sv2 1 1) (jobMetaFromTemplate template 0 0) template.jobIdSeed
    let ops : List TrackerOp := [first, first]
    ¬ Structured (insertedKeys ops) (ops.foldl trackerStep {}) := by
  intro template first ops hstructured
  have honce : ([.sv2 1 1, .sv2 1 1] : List JobKey).Nodup := hstructured.once
  exact absurd honce (by decide)

end DatumGateway.TrackerStructure
