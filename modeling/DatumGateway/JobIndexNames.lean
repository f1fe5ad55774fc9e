import DatumGateway.JobResolution

namespace DatumGateway.JobIndexNames

open DatumGateway.BlockTemplate
open DatumGateway.ByteString
open DatumGateway.ChannelManager
open DatumGateway.GatewayJobs
open DatumGateway.JobResolution
open DatumGateway.JobTracker
open DatumGateway.KeyedMaps
open DatumGateway.MiningListener
open DatumGateway.SharedTemplate
open DatumGateway.ShareEncoder
open DatumGateway.StratumV1Assembler
open DatumGateway.TransitionSystem

/-- The entry is of a job of the template, and carries its seed. -/
def EntryOf (entry : JobEntry) (state : TemplateState) : Prop :=
  entry.jobMeta = jobMetaOf entry.jobMeta.datumJobIdx entry.jobMeta.coinbaseId state ∧
    entry.templateSeed = state.jobIdSeed

instance (entry : JobEntry) (state : TemplateState) : Decidable (EntryOf entry state) :=
  inferInstanceAs (Decidable (_ ∧ _))

/-- Live entries with one job index are of jobs of one template. -/
def IndexNamesTemplate (t : Tracker) : Prop :=
  ∀ key key' entry entry', t.get key = some entry → t.get key' = some entry' →
    entry.jobMeta.datumJobIdx = entry'.jobMeta.datumJobIdx →
      ∃ state, EntryOf entry state ∧ EntryOf entry' state

def isSv1 : JobKey → Bool
  | .sv1 _ => true
  | .sv2 _ _ => false

/-- The SV1 keys that wait for their eviction, the oldest first. -/
def sv1Queue (t : Tracker) : List JobKey :=
  t.order.filter isSv1

/-- The entries that an insertion under `key` leaves in place. -/
def survivors (t : Tracker) (key : JobKey) : List (JobKey × JobEntry) :=
  (t.evict.byKey.entries.map fun e => (e.1, e.2)).filter fun e => e.1 ≠ key

/-- Every job that is seeded, always under index zero, finds no other template there. -/
def seedsZero (state : TemplateState) : Tracker → List JobKey → Bool
  | _, [] => true
  | t, key :: keys =>
      ((survivors t key).all fun e =>
        e.2.jobMeta.datumJobIdx != 0 || decide (EntryOf e.2 state)) &&
        seedsZero state (t.insert key (jobMetaFromTemplate state 0 0) state.jobIdSeed) keys

/-- The steps that do not put two templates under one index. -/
def keepsIndex {σ : Type} (s : GatewayState σ) : GatewayAction → Bool
  | .assemblerInsert =>
      match s.assembler with
      | .indexed state datumJobIdx =>
          -- a key that was queued more than once makes the queue outgrow the indices
          decide ((sv1Queue s.tracker.evict).length < 256) &&
            (datumJobIdx != 0 || (survivors s.tracker
              (.sv1 (sv1JobId s.tick datumJobIdx state.height))).all fun e =>
                isSv1 e.1 || decide (EntryOf e.2 state))
      | _ => true
  | .connection id .seedInsert =>
      match (s.connections.lookup id).map Connection.phase with
      | some (.seeding frames _ (some state)) =>
          seedsZero state s.tracker (frames.filterMap emittedKey)
      | _ => true
  | _ => true

/-! The SV1 entries carry the indices counted back from the next one, in the order of the queue. -/

def NumberedBack (t : Tracker) (next : UInt8) : Prop :=
  ∀ key entry, isSv1 key = true → t.get key = some entry →
    ∃ j, (sv1Queue t).reverse[j]? = some key ∧ entry.jobMeta.datumJobIdx = next - 1 - UInt8.ofNat j

theorem evict_cases (t : Tracker) : t.evict = t ∨ ∃ oldest order, t.order = oldest :: order ∧
    t.evict = { t with byKey := t.byKey.erase oldest, order } := by
  unfold Tracker.evict
  split_ifs
  · split
    · rename_i oldest order horder
      exact Or.inr ⟨oldest, order, horder, rfl⟩
    · exact Or.inl rfl
  · exact Or.inl rfl

theorem NumberedBack.evict {t : Tracker} {next : UInt8} (hnumbered : NumberedBack t next) :
    NumberedBack t.evict next := by
  rcases evict_cases t with hsame | ⟨oldest, order, horder, hevict⟩
  · rwa [hsame]
  · intro key entry hkey hget
    rw [hevict] at hget
    obtain ⟨hne, hget⟩ := lookup_erase_eq_some_iff.mp hget
    obtain ⟨j, hj, hidx⟩ := hnumbered key entry hkey hget
    refine ⟨j, ?_, hidx⟩
    rw [sv1Queue, horder, List.filter_cons] at hj
    rw [sv1Queue, hevict]
    split_ifs at hj with holdest
    · rw [List.reverse_cons, List.getElem?_append] at hj
      split_ifs at hj with hlt
      · exact hj
      · exact absurd (List.mem_singleton.mp (List.mem_of_getElem? hj)) hne
    · exact hj

theorem sv1Queue_insert (t : Tracker) (key : JobKey) (jobMeta : JobMeta) (seed : UInt64) :
    sv1Queue (t.insert key jobMeta seed) =
      sv1Queue t.evict ++ if isSv1 key then [key] else [] := by
  rw [sv1Queue, Tracker.insert, List.filter_append, sv1Queue, List.filter_singleton]
  cases isSv1 key with
  | false => rfl
  | true => rfl

theorem NumberedBack.insert_sv1 {t : Tracker} {next : UInt8} (hnumbered : NumberedBack t next)
    {key : JobKey} (hkey : isSv1 key = true) {jobMeta : JobMeta}
    (hidx : jobMeta.datumJobIdx = next) (seed : UInt64) :
    NumberedBack (t.insert key jobMeta seed) (next + 1) := by
  intro key' entry hkey' hget
  rw [sv1Queue_insert, if_pos hkey, List.reverse_append, List.reverse_singleton,
    List.singleton_append]
  by_cases hsame : key' = key
  · subst hsame
    rw [Tracker.get_insert] at hget
    obtain rfl := Option.some.inj hget
    refine ⟨0, rfl, ?_⟩
    simp [Tracker.freshEntry, hidx]
  · rw [Tracker.get_insert_ne t hsame] at hget
    obtain ⟨j, hj, hidx'⟩ := hnumbered.evict key' entry hkey' hget
    refine ⟨j + 1, hj, ?_⟩
    rw [hidx', UInt8.ofNat_add]
    grind

theorem NumberedBack.insert_sv2 {t : Tracker} {next : UInt8} (hnumbered : NumberedBack t next)
    {key : JobKey} (hkey : isSv1 key = false) (jobMeta : JobMeta) (seed : UInt64) :
    NumberedBack (t.insert key jobMeta seed) next := by
  intro key' entry hkey' hget
  have hne : key' ≠ key := by
    rintro rfl
    rw [hkey] at hkey'
    cases hkey'
  rw [Tracker.get_insert_ne t hne] at hget
  rw [sv1Queue_insert, hkey, if_neg Bool.false_ne_true, List.append_nil]
  exact hnumbered.evict key' entry hkey' hget

theorem NumberedBack.eq_of_index_eq {t : Tracker} {next : UInt8} (hnumbered : NumberedBack t next)
    (hshort : (sv1Queue t).length ≤ 256) {key key' : JobKey} {entry entry' : JobEntry}
    (hkey : isSv1 key = true) (hkey' : isSv1 key' = true) (hget : t.get key = some entry)
    (hget' : t.get key' = some entry')
    (hidx : entry.jobMeta.datumJobIdx = entry'.jobMeta.datumJobIdx) : key = key' := by
  obtain ⟨j, hj, hentry⟩ := hnumbered key entry hkey hget
  obtain ⟨j', hj', hentry'⟩ := hnumbered key' entry' hkey' hget'
  have hlt := (List.getElem?_eq_some_iff.mp hj).1
  have hlt' := (List.getElem?_eq_some_iff.mp hj').1
  rw [List.length_reverse] at hlt hlt'
  have hcount : UInt8.ofNat j = UInt8.ofNat j' := by
    rw [hentry, hentry'] at hidx
    grind
  have hj_eq : j = j' := by
    have htoNat := congrArg UInt8.toNat hcount
    rwa [UInt8.toNat_ofNat_of_lt' (hlt.trans_le hshort),
      UInt8.toNat_ofNat_of_lt' (hlt'.trans_le hshort)] at htoNat
  rw [hj_eq, hj'] at hj
  exact (Option.some.inj hj).symm

theorem get_insert_survivors {t : Tracker} {key key' : JobKey} {jobMeta : JobMeta} {seed : UInt64}
    {entry : JobEntry} (hget : (t.insert key jobMeta seed).get key' = some entry) :
    key' = key ∧ entry = Tracker.freshEntry jobMeta seed ∨
      key' ≠ key ∧ t.get key' = some entry ∧ (key', entry) ∈ survivors t key := by
  by_cases hkey : key' = key
  · subst hkey
    rw [Tracker.get_insert] at hget
    exact Or.inl ⟨rfl, (Option.some.inj hget).symm⟩
  · rw [Tracker.get_insert_ne t hkey] at hget
    refine Or.inr ⟨hkey, Tracker.get_of_get_evict hget, List.mem_filter.mpr ⟨?_, by simp [hkey]⟩⟩
    exact List.mem_map.mpr ⟨⟨key', entry⟩, AList.mem_lookup_iff.mp hget, rfl⟩

theorem entryOf_freshEntry (state : TemplateState) (datumJobIdx coinbaseId : UInt8) :
    EntryOf (Tracker.freshEntry (jobMetaOf datumJobIdx coinbaseId state) state.jobIdSeed) state :=
  ⟨rfl, rfl⟩

/-- `next` is the index of the next SV1 job. -/
structure Named (t : Tracker) (next : UInt8) : Prop where
  numbered : NumberedBack t next
  short : (sv1Queue t).length ≤ 256
  zero : ∀ key entry, isSv1 key = false → t.get key = some entry → entry.jobMeta.datumJobIdx = 0
  built : ∀ key entry, t.get key = some entry → ∃ state, EntryOf entry state
  /-- An SV2 entry shares its index, which is zero, only with entries of the same template. -/
  shared : ∀ key key' entry entry', isSv1 key = false → t.get key = some entry →
    t.get key' = some entry' → entry'.jobMeta.datumJobIdx = 0 →
      ∃ state, EntryOf entry state ∧ EntryOf entry' state

theorem Named.indexNamesTemplate {t : Tracker} {next : UInt8} (hnamed : Named t next) :
    IndexNamesTemplate t := by
  intro key key' entry entry' hget hget' hidx
  cases hkey : isSv1 key with
  | false =>
      have hzero := hnamed.zero key entry hkey hget
      exact hnamed.shared key key' entry entry' hkey hget hget' (hidx.symm.trans hzero)
  | true =>
      cases hkey' : isSv1 key' with
      | false =>
          have hzero := hnamed.zero key' entry' hkey' hget'
          obtain ⟨state, hentry', hentry⟩ :=
            hnamed.shared key' key entry' entry hkey' hget' hget (hidx.trans hzero)
          exact ⟨state, hentry, hentry'⟩
      | true =>
          obtain rfl := hnamed.numbered.eq_of_index_eq hnamed.short hkey hkey' hget hget' hidx
          obtain rfl := Option.some.inj (hget.symm.trans hget')
          obtain ⟨state, hentry⟩ := hnamed.built key entry hget
          exact ⟨state, hentry, hentry⟩

theorem Named.of_get {t t' : Tracker} {next : UInt8} (hnamed : Named t next)
    (horder : t'.order = t.order)
    (hget : ∀ key entry', t'.get key = some entry' → ∃ entry, t.get key = some entry ∧
      entry'.jobMeta = entry.jobMeta ∧ entry'.templateSeed = entry.templateSeed) :
    Named t' next := by
  have hentryOf : ∀ {entry entry' : JobEntry} {state : TemplateState},
      entry'.jobMeta = entry.jobMeta → entry'.templateSeed = entry.templateSeed →
        EntryOf entry state → EntryOf entry' state := by
    intro entry entry' state hmeta hseed hentry
    rwa [EntryOf, hmeta, hseed]
  constructor
  · intro key entry' hkey hget'
    obtain ⟨entry, hentry, hmeta, -⟩ := hget key entry' hget'
    rw [sv1Queue, horder, hmeta]
    exact hnamed.numbered key entry hkey hentry
  · rw [sv1Queue, horder]
    exact hnamed.short
  · intro key entry' hkey hget'
    obtain ⟨entry, hentry, hmeta, -⟩ := hget key entry' hget'
    rw [hmeta]
    exact hnamed.zero key entry hkey hentry
  · intro key entry' hget'
    obtain ⟨entry, hentry, hmeta, hseed⟩ := hget key entry' hget'
    obtain ⟨state, hstate⟩ := hnamed.built key entry hentry
    exact ⟨state, hentryOf hmeta hseed hstate⟩
  · intro key₁ key₂ entry₁' entry₂' hkey hget₁ hget₂ hzero
    obtain ⟨entry₁, hentry₁, hmeta₁, hseed₁⟩ := hget key₁ entry₁' hget₁
    obtain ⟨entry₂, hentry₂, hmeta₂, hseed₂⟩ := hget key₂ entry₂' hget₂
    rw [hmeta₂] at hzero
    obtain ⟨state, hstate₁, hstate₂⟩ :=
      hnamed.shared key₁ key₂ entry₁ entry₂ hkey hentry₁ hentry₂ hzero
    exact ⟨state, hentryOf hmeta₁ hseed₁ hstate₁, hentryOf hmeta₂ hseed₂ hstate₂⟩

theorem Named.recordEncoded {t : Tracker} {next : UInt8} (hnamed : Named t next) {key : JobKey}
    {entry : JobEntry} (hget : t.get key = some entry) (seed : UInt64) (coinbaseId : UInt8)
    (xprotSeen : Bool) :
    Named (t.recordEncoded key (markSent entry xprotSeen) seed coinbaseId xprotSeen) next := by
  refine hnamed.of_get ?_ ?_
  · simp only [Tracker.recordEncoded]
    split_ifs
    · rfl
    · rfl
  · intro key' entry' hget'
    rw [Tracker.get_recordEncoded] at hget'
    split_ifs at hget' with hkey
    · rw [hget, Option.map_some] at hget'
      obtain rfl := Option.some.inj hget'
      exact ⟨entry, by rw [hkey, hget], rfl, rfl⟩
    · exact ⟨entry', hget', rfl, rfl⟩

theorem Named.resetSendOnceFlags {t : Tracker} {next : UInt8} (hnamed : Named t next) :
    Named t.resetSendOnceFlags next := by
  refine hnamed.of_get rfl ?_
  intro key entry' hget'
  rw [Tracker.get_resetSendOnceFlags] at hget'
  obtain ⟨entry, hget, rfl⟩ := Option.map_eq_some_iff.mp hget'
  exact ⟨entry, hget, rfl, rfl⟩

theorem Named.insert_sv1 {t : Tracker} {next : UInt8} (hnamed : Named t next) {key : JobKey}
    (hkey : isSv1 key = true) (state : TemplateState) (coinbaseId : UInt8)
    (hroom : (sv1Queue t.evict).length < 256)
    (hzero : next = 0 → ∀ e ∈ survivors t key, isSv1 e.1 = false → EntryOf e.2 state) :
    Named (t.insert key (jobMetaOf next coinbaseId state) state.jobIdSeed) (next + 1) := by
  have hsv2 : ∀ {key'}, isSv1 key' = false → key' ≠ key := by
    rintro key' hkey' rfl
    rw [hkey] at hkey'
    cases hkey'
  constructor
  · exact hnamed.numbered.insert_sv1 hkey rfl state.jobIdSeed
  · rw [sv1Queue_insert, if_pos hkey, List.length_append]
    exact hroom
  · intro key' entry hkey' hget
    rw [Tracker.get_insert_ne t (hsv2 hkey')] at hget
    exact hnamed.zero key' entry hkey' (Tracker.get_of_get_evict hget)
  · intro key' entry hget
    rcases get_insert_survivors hget with ⟨-, rfl⟩ | ⟨-, hget, -⟩
    · exact ⟨state, entryOf_freshEntry state next coinbaseId⟩
    · exact hnamed.built key' entry hget
  · intro key₁ key₂ entry₁ entry₂ hkey₁ hget₁ hget₂ hidx
    rcases get_insert_survivors hget₁ with ⟨rfl, -⟩ | ⟨-, hget₁, hsurvivor⟩
    · exact absurd rfl (hsv2 hkey₁)
    · rcases get_insert_survivors hget₂ with ⟨-, rfl⟩ | ⟨-, hget₂, -⟩
      · exact ⟨state, hzero hidx _ hsurvivor hkey₁, entryOf_freshEntry state next coinbaseId⟩
      · exact hnamed.shared key₁ key₂ entry₁ entry₂ hkey₁ hget₁ hget₂ hidx

theorem Named.insert_sv2 {t : Tracker} {next : UInt8} (hnamed : Named t next) {key : JobKey}
    (hkey : isSv1 key = false) (state : TemplateState)
    (hzero : ∀ e ∈ survivors t key, e.2.jobMeta.datumJobIdx = 0 → EntryOf e.2 state) :
    Named (t.insert key (jobMetaFromTemplate state 0 0) state.jobIdSeed) next := by
  have hnew : EntryOf (Tracker.freshEntry (jobMetaFromTemplate state 0 0) state.jobIdSeed) state :=
    entryOf_freshEntry state 0 0
  constructor
  · exact hnamed.numbered.insert_sv2 hkey _ state.jobIdSeed
  · rw [sv1Queue_insert, hkey, if_neg Bool.false_ne_true, List.append_nil]
    rcases evict_cases t with hsame | ⟨oldest, order, horder, hevict⟩
    · rw [hsame]
      exact hnamed.short
    · have hshort := hnamed.short
      rw [sv1Queue, horder] at hshort
      rw [sv1Queue, hevict]
      exact (List.Sublist.filter isSv1 (List.sublist_cons_self oldest order)).length_le.trans hshort
  · intro key' entry hkey' hget
    rcases get_insert_survivors hget with ⟨-, rfl⟩ | ⟨-, hget, -⟩
    · rfl
    · exact hnamed.zero key' entry hkey' hget
  · intro key' entry hget
    rcases get_insert_survivors hget with ⟨-, rfl⟩ | ⟨-, hget, -⟩
    · exact ⟨state, hnew⟩
    · exact hnamed.built key' entry hget
  · intro key₁ key₂ entry₁ entry₂ hkey₁ hget₁ hget₂ hidx
    rcases get_insert_survivors hget₁ with ⟨-, rfl⟩ | ⟨-, hget₁, hsurvivor₁⟩
    · rcases get_insert_survivors hget₂ with ⟨-, rfl⟩ | ⟨-, -, hsurvivor₂⟩
      · exact ⟨state, hnew, hnew⟩
      · exact ⟨state, hnew, hzero _ hsurvivor₂ hidx⟩
    · rcases get_insert_survivors hget₂ with ⟨-, rfl⟩ | ⟨-, hget₂, -⟩
      · exact ⟨state, hzero _ hsurvivor₁ (hnamed.zero key₁ entry₁ hkey₁ hget₁), hnew⟩
      · exact hnamed.shared key₁ key₂ entry₁ entry₂ hkey₁ hget₁ hget₂ hidx

theorem isSv1_of_emittedKey {frame : MiningOut} {key : JobKey}
    (hkey : emittedKey frame = some key) : isSv1 key = false := by
  cases frame with
  | newExtendedMiningJob msg =>
      obtain rfl := Option.some.inj hkey
      rfl
  | newMiningJob msg =>
      obtain rfl := Option.some.inj hkey
      rfl
  | _ => cases hkey

theorem Named.seedJobTracker {t : Tracker} {next : UInt8} (hnamed : Named t next)
    (state : TemplateState) (frames : List MiningOut)
    (hseeds : seedsZero state t (frames.filterMap emittedKey) = true) :
    Named (seedJobTracker (some state) frames t) next := by
  have hsv2 : ∀ key ∈ frames.filterMap emittedKey, isSv1 key = false := by
    intro key hkey
    obtain ⟨frame, -, hframe⟩ := List.mem_filterMap.mp hkey
    exact isSv1_of_emittedKey hframe
  unfold MiningListener.seedJobTracker
  dsimp only
  generalize frames.filterMap emittedKey = keys at hseeds hsv2
  induction keys generalizing t with
  | nil => exact hnamed
  | cons key keys ih =>
      rw [seedsZero, Bool.and_eq_true, List.all_eq_true] at hseeds
      obtain ⟨hzero, hrest⟩ := hseeds
      refine ih (hnamed.insert_sv2 (hsv2 key List.mem_cons_self) state ?_) hrest
        fun key' hkey' => hsv2 key' (List.mem_cons_of_mem key hkey')
      intro e he hidx
      have hentry := hzero e he
      rw [Bool.or_eq_true, bne_iff_ne, decide_eq_true_eq] at hentry
      exact hentry.resolve_left (not_not.mpr hidx)

section Runs

variable (sha256d : Bytes → Bytes32) {σ : Type} (alloc : ExtranonceAllocator σ)
variable (newManager : Manager σ)

/-- The index of the next SV1 job: the one that is drawn already, or the next to be drawn. -/
def upcomingIdx (s : GatewayState σ) : UInt8 :=
  s.assembler.drawnIdx.getD s.tracker.nextDatumIdx

structure IndexInvariant (s : GatewayState σ) : Prop where
  named : Named s.tracker (upcomingIdx s)
  drawn : ∀ datumJobIdx, s.assembler.drawnIdx = some datumJobIdx →
    s.tracker.nextDatumIdx = datumJobIdx + 1

theorem nextDatumIdx_evict (t : Tracker) : t.evict.nextDatumIdx = t.nextDatumIdx := by
  rcases evict_cases t with hsame | ⟨oldest, order, -, hevict⟩
  · rw [hsame]
  · rw [hevict]

theorem nextDatumIdx_insert (t : Tracker) (key : JobKey) (jobMeta : JobMeta) (seed : UInt64) :
    (t.insert key jobMeta seed).nextDatumIdx = t.nextDatumIdx :=
  nextDatumIdx_evict t

theorem nextDatumIdx_seedJobTracker (seedTemplate : Option TemplateState)
    (frames : List MiningOut) (t : Tracker) :
    (seedJobTracker seedTemplate frames t).nextDatumIdx = t.nextDatumIdx := by
  apply seedJobTracker_induction (p := fun t' => t'.nextDatumIdx = t.nextDatumIdx) rfl
  intro state _ key t' ih
  exact (nextDatumIdx_insert t' _ _ _).trans ih

theorem nextDatumIdx_recordEncoded (t : Tracker) (key : JobKey) (entry : JobEntry)
    (seed : UInt64) (coinbaseId : UInt8) (xprotSeen : Bool) :
    (t.recordEncoded key entry seed coinbaseId xprotSeen).nextDatumIdx = t.nextDatumIdx := by
  simp only [Tracker.recordEncoded]
  split_ifs
  · rfl
  · rfl

variable {sha256d alloc newManager}

theorem IndexInvariant.step {s t : GatewayState σ} {a : GatewayAction} (hinv : IndexInvariant s)
    (hguard : keepsIndex s a = true)
    (hstep : gatewayStep sha256d alloc newManager s a = some t) : IndexInvariant t := by
  cases trackerStep_of_gatewayStep hstep with
  | same _ htracker hdrawn =>
      constructor
      · rw [upcomingIdx, htracker, hdrawn]
        exact hinv.named
      · rw [htracker, hdrawn]
        exact hinv.drawn
  | index hdrawn htracker hindexed =>
      have hnamed := hinv.named
      rw [upcomingIdx, hdrawn] at hnamed
      constructor
      · rw [upcomingIdx, htracker, hindexed]
        exact hnamed.of_get rfl fun key entry hget => ⟨entry, hget, rfl, rfl⟩
      · intro datumJobIdx hidx
        obtain rfl := Option.some.inj (hindexed.symm.trans hidx)
        rw [htracker]
        rfl
  | insert state datumJobIdx hindexed htracker hdrawn =>
      have hnext := hinv.drawn datumJobIdx (by rw [hindexed]; rfl)
      have hnamed : Named s.tracker datumJobIdx := by
        have hbefore := hinv.named
        rwa [upcomingIdx, hindexed] at hbefore
      simp only [keepsIndex, hindexed, Bool.and_eq_true, decide_eq_true_eq, Bool.or_eq_true,
        bne_iff_ne, List.all_eq_true] at hguard
      obtain ⟨hroom, hzero⟩ := hguard
      constructor
      · rw [upcomingIdx, htracker, hdrawn, Option.getD_none, nextDatumIdx_insert, hnext]
        have hsv1 : isSv1 (.sv1 (sv1JobId s.tick datumJobIdx state.height)) = true := rfl
        refine hnamed.insert_sv1 hsv1 state coinbaseIdSv1 hroom ?_
        intro hidx e he hsv2
        exact (hzero.resolve_left (not_not.mpr hidx) e he).resolve_left (by simp [hsv2])
      · intro datumJobIdx' hidx
        rw [hdrawn] at hidx
        cases hidx
  | seed id conn frames template seedTemplate hconn hphase htracker hassembler =>
      constructor
      · rw [upcomingIdx, htracker, hassembler, nextDatumIdx_seedJobTracker]
        cases seedTemplate with
        | none => exact hinv.named
        | some state =>
            simp only [keepsIndex, hconn, Option.map_some, hphase] at hguard
            exact hinv.named.seedJobTracker state frames hguard
      · rw [htracker, hassembler, nextDatumIdx_seedJobTracker]
        exact hinv.drawn
  | encode key templateSeed entry xprotSeen hget _ htracker hassembler =>
      constructor
      · rw [upcomingIdx, htracker, hassembler, nextDatumIdx_recordEncoded]
        exact hinv.named.recordEncoded hget templateSeed _ xprotSeen
      · rw [htracker, hassembler, nextDatumIdx_recordEncoded]
        exact hinv.drawn
  | reset htracker hassembler =>
      constructor
      · rw [upcomingIdx, htracker, hassembler]
        exact hinv.named.resetSendOnceFlags
      · rw [htracker, hassembler]
        exact hinv.drawn

variable (sha256d alloc newManager)

theorem reachable_indexNamesTemplate (t : GatewayState σ)
    (hreaches : Reaches (gatewayStep sha256d alloc newManager)
      (fun s a => keepsIndex s a = true) {} t) : IndexNamesTemplate t.tracker := by
  have hstart : IndexInvariant ({} : GatewayState σ) := by
    constructor
    · constructor
      · intro key entry _ hget
        cases hget
      · exact Nat.zero_le 256
      · intro key entry _ hget
        cases hget
      · intro key entry hget
        cases hget
      · intro key key' entry entry' _ hget
        cases hget
    · intro datumJobIdx hidx
      cases hidx
  have hinv : IndexInvariant t :=
    hreaches.invariant hstart fun s a t hinv hguard hstep => hinv.step hguard hstep
  exact hinv.named.indexNamesTemplate

end Runs

def seedChannel (id : ℕ) : List GatewayAction :=
  [.connection id (.openChannel .extended plainOpenRequest), .connection id .seedRead,
    .connection id .seedInsert, .connection id .send, .connection id .send, .connection id .send]

theorem index_of_first_jobs_names_template :
    let hash := fun _ => ByteVec.fill 32 0
    ∃ t, Reaches (gatewayStep hash countingAllocator emptyManager)
        (fun s a => keepsIndex s a = true) {} t ∧
      decide (t.tracker.byKey.entries.length = 2) = true ∧ IndexNamesTemplate t.tracker := by
  intro hash
  obtain ⟨t, hreaches, hlive⟩ := exists_reaches_of_runGuarded
    (gatewayStep hash countingAllocator emptyManager) keepsIndex {}
    ([.publish (plainState hash emptyTemplate), .assemblerWake, .assemblerIndex, .assemblerInsert,
      .assemblerNotify, .accept 0] ++ seedChannel 0)
    (fun t => decide (t.tracker.byKey.entries.length = 2)) (by decide +kernel)
  exact ⟨t, hreaches, hlive,
    reachable_indexNamesTemplate hash countingAllocator emptyManager t hreaches⟩

/-- Two channels that are opened under different templates are both seeded under index zero. -/
theorem index_zero_names_two_templates :
    let hash := fun _ => ByteVec.fill 32 0
    ∃ t, Reachable (gatewayStep hash countingAllocator emptyManager) {} t ∧
      ¬ IndexNamesTemplate t.tracker := by
  intro hash
  obtain ⟨t, hreachable, hclash⟩ := exists_reachable_of_runActions
    (gatewayStep hash countingAllocator emptyManager) {}
    ([.publish (plainState hash emptyTemplate), .accept 0] ++ seedChannel 0 ++
      [.publish (plainState hash emptyTemplate {} 1)] ++ seedChannel 0)
    (fun t => (t.tracker.get (.sv2 1 1)).any fun entry : JobEntry =>
      (t.tracker.get (.sv2 2 2)).any fun entry' : JobEntry =>
        decide (entry.jobMeta.datumJobIdx = entry'.jobMeta.datumJobIdx ∧
          entry.templateSeed ≠ entry'.templateSeed)) (by decide +kernel)
  refine ⟨t, hreachable, ?_⟩
  intro hnames
  obtain ⟨entry, hget, hclash⟩ := (Option.any_eq_true _ _).mp hclash
  obtain ⟨entry', hget', hclash⟩ := (Option.any_eq_true _ _).mp hclash
  obtain ⟨hidx, hseed⟩ := of_decide_eq_true hclash
  obtain ⟨state, hentry, hentry'⟩ := hnames _ _ entry entry' hget hget' hidx
  exact hseed (hentry.2.trans hentry'.2.symm)

end DatumGateway.JobIndexNames
