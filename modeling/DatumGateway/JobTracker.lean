import DatumGateway.KeyedMaps
import DatumGateway.ShareEncoder

namespace DatumGateway.JobTracker

open DatumGateway.KeyedMaps
open DatumGateway.ShareEncoder
open DatumGateway.StratumV1Assembler

inductive JobKey where
  | sv1 (jobId : String)
  | sv2 (channelId jobId : UInt32)
  deriving DecidableEq, Repr

structure Tracker where
  byKey : KeyMap JobKey JobEntry := ∅
  order : List JobKey := []
  seenTemplateCoinbase : Finset (UInt64 × UInt8) := ∅
  nextDatumIdx : UInt8 := 0

namespace Tracker

def max : ℕ := 256

def nextIdx (t : Tracker) : UInt8 × Tracker :=
  (t.nextDatumIdx, { t with nextDatumIdx := t.nextDatumIdx + 1 })

def get (t : Tracker) (key : JobKey) : Option JobEntry :=
  t.byKey.lookup key

def freshEntry (jobMeta : JobMeta) (templateSeed : UInt64) : JobEntry where
  jobMeta
  templateSeed
  serverHasMerkleBranches := false
  serverHasCoinbase := List.Vector.replicate 8 false

def evict (t : Tracker) : Tracker :=
  if max ≤ t.byKey.entries.length then
    match t.order with
    | oldest :: order => { t with byKey := t.byKey.erase oldest, order }
    | [] => t
  else t

def evictedKey (t : Tracker) : Option JobKey :=
  if max ≤ t.byKey.entries.length then t.order.head? else none

def insert (t : Tracker) (key : JobKey) (jobMeta : JobMeta) (templateSeed : UInt64) : Tracker :=
  let t := t.evict
  { t with
    byKey := t.byKey.insert key (freshEntry jobMeta templateSeed)
    order := t.order ++ [key] }

def setEntry (t : Tracker) (key : JobKey) (entry : JobEntry) : Tracker :=
  { t with byKey := adjust t.byKey key fun _ => entry }

def crossProtocolCoinbaseAlreadySeen (t : Tracker) (templateSeed : UInt64)
    (coinbaseId : UInt8) : Bool :=
  (templateSeed, coinbaseId) ∈ t.seenTemplateCoinbase

def markCrossProtocolCoinbaseSeen (t : Tracker) (templateSeed : UInt64) (coinbaseId : UInt8) :
    Tracker :=
  { t with seenTemplateCoinbase := Insert.insert (templateSeed, coinbaseId) t.seenTemplateCoinbase }

/-- The tracker after a body was built for `key`, with the entry that this left behind.  The
flag that counts as just emitted may have been set by an earlier share of the job. -/
def recordEncoded (t : Tracker) (key : JobKey) (entry : JobEntry) (templateSeed : UInt64)
    (coinbaseId : UInt8) (xprotSeen : Bool) : Tracker :=
  let t := t.setEntry key entry
  let justEmitted := entry.serverHasCoinbase.toList.getD coinbaseId.toNat false && !xprotSeen
  if justEmitted then t.markCrossProtocolCoinbaseSeen templateSeed coinbaseId else t

def resetEntry (entry : JobEntry) : JobEntry :=
  { entry with
    serverHasMerkleBranches := false
    serverHasCoinbase := List.Vector.replicate 8 false }

def resetSendOnceFlags (t : Tracker) : Tracker :=
  { t with byKey := mapValues resetEntry t.byKey, seenTemplateCoinbase := ∅ }

theorem get_insert (t : Tracker) (key : JobKey) (jobMeta : JobMeta) (templateSeed : UInt64) :
    (t.insert key jobMeta templateSeed).get key = some (freshEntry jobMeta templateSeed) := by
  simp [insert, get]

theorem get_insert_ne (t : Tracker) {key key' : JobKey} (hne : key' ≠ key) (jobMeta : JobMeta)
    (templateSeed : UInt64) :
    (t.insert key jobMeta templateSeed).get key' = t.evict.get key' := by
  simp [insert, get, AList.lookup_insert_ne hne]

theorem get_evict_of_ne {t : Tracker} {key : JobKey} (hkey : t.evictedKey ≠ some key) :
    t.evict.get key = t.get key := by
  unfold evict
  unfold evictedKey at hkey
  split_ifs at hkey ⊢ with hfull
  · split
    · rename_i oldest order horder
      rw [horder, List.head?_cons, ne_eq, Option.some.injEq] at hkey
      exact AList.lookup_erase_ne fun h => hkey h.symm
    · rfl
  · rfl

theorem get_of_get_evict {t : Tracker} {key : JobKey} {entry : JobEntry}
    (hget : t.evict.get key = some entry) : t.get key = some entry := by
  by_cases hkey : t.evictedKey = some key
  · exfalso
    rw [evictedKey] at hkey
    split_ifs at hkey with hfull
    obtain ⟨order, horder⟩ := List.head?_eq_some_iff.mp hkey
    rw [evict, if_pos hfull, horder, get, AList.lookup_erase] at hget
    cases hget
  · rwa [get_evict_of_ne hkey] at hget

theorem get_insert_cases {t : Tracker} {key key' : JobKey} {jobMeta : JobMeta}
    {templateSeed : UInt64} {entry : JobEntry}
    (hget : (t.insert key jobMeta templateSeed).get key' = some entry) :
    t.get key' = some entry ∨ entry = freshEntry jobMeta templateSeed := by
  by_cases hkey : key' = key
  · subst hkey
    rw [get_insert] at hget
    exact Or.inr (Option.some.inj hget).symm
  · rw [get_insert_ne t hkey] at hget
    exact Or.inl (get_of_get_evict hget)

theorem get_setEntry (t : Tracker) (key key' : JobKey) (entry : JobEntry) :
    (t.setEntry key entry).get key' =
      if key' = key then (t.get key).map fun _ => entry else t.get key' := by
  simp [setEntry, get, lookup_adjust]

theorem get_recordEncoded (t : Tracker) (key key' : JobKey) (entry : JobEntry)
    (templateSeed : UInt64) (coinbaseId : UInt8) (xprotSeen : Bool) :
    (t.recordEncoded key entry templateSeed coinbaseId xprotSeen).get key' =
      if key' = key then (t.get key).map fun _ => entry else t.get key' := by
  rw [← get_setEntry]
  simp only [recordEncoded]
  split_ifs
  · rfl
  · rfl

theorem get_resetSendOnceFlags (t : Tracker) (key : JobKey) :
    t.resetSendOnceFlags.get key = (t.get key).map resetEntry := by
  simp [resetSendOnceFlags, get, lookup_mapValues]

end Tracker

end DatumGateway.JobTracker
