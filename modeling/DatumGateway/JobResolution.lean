import DatumGateway.GatewayJobs

/-!
When the jobs that miners work on resolve in the tracker to what they were sent:
in every run in which a tracker entry is made for every job, from its own
template, and no insertion takes the place of a job in use.
-/

namespace DatumGateway.JobResolution

open DatumGateway.BlockTemplate
open DatumGateway.ByteString
open DatumGateway.ChannelManager
open DatumGateway.GatewayJobs
open DatumGateway.JobTracker
open DatumGateway.KeyedMaps
open DatumGateway.MiningListener
open DatumGateway.SharedTemplate
open DatumGateway.ShareEncoder
open DatumGateway.StratumV1Assembler
open DatumGateway.TransitionSystem

def BuiltFrom (entry : JobEntry) (state : TemplateState) : Prop :=
  ∃ datumJobIdx coinbaseId, entry.jobMeta = jobMetaOf datumJobIdx coinbaseId state

def Resolves (t : Tracker) (key : JobKey) (state : TemplateState) : Prop :=
  ∃ entry, t.get key = some entry ∧ BuiltFrom entry state

/-- The job of the published notify, and the last job sent to each open channel, resolve to
entries built from what was sent. -/
def JobsResolve {σ : Type} (s : GatewayState σ) : Prop :=
  (∀ params state, s.notify = some (params, state) →
    Resolves s.tracker (.sv1 params.jobId) state) ∧
  ∀ id conn, s.connections.lookup id = some conn →
    ∀ channelId channel, conn.manager.channels.lookup channelId = some channel →
      ∀ jobId state, conn.sent.lookup channelId = some (jobId, state) →
        Resolves s.tracker (.sv2 channelId jobId) state

/-! The keys in use, each with the template that it stands for on some connection. -/

def frameClaims (template : Option TemplateState) (frames : List MiningOut) :
    List (JobKey × TemplateState) :=
  template.toList.flatMap fun state => (frames.filterMap emittedKey).map fun key => (key, state)

def phaseClaims : ConnectionPhase → List (JobKey × TemplateState)
  | .sending frames template => frameClaims template frames
  | _ => []

def connectionClaims {σ : Type} (conn : Connection σ) : List (JobKey × TemplateState) :=
  conn.sent.entries.map (fun e => (.sv2 e.1 e.2.1, e.2.2)) ++ phaseClaims conn.phase

def assemblerClaims : AssemblerPhase → List (JobKey × TemplateState)
  | .inserted state params => [(.sv1 params.jobId, state)]
  | _ => []

def notifyClaims (notify : Option (NotifyParams × TemplateState)) :
    List (JobKey × TemplateState) :=
  notify.toList.map fun n => (.sv1 n.1.jobId, n.2)

def claims {σ : Type} (s : GatewayState σ) : List (JobKey × TemplateState) :=
  notifyClaims s.notify ++ assemblerClaims s.assembler ++
    s.connections.entries.flatMap fun e => connectionClaims e.2

/-- An insertion under `key` neither replaces nor evicts a key in use for another template. -/
def spares {σ : Type} (s : GatewayState σ) (key : JobKey) (state : TemplateState) : Bool :=
  (claims s).all fun c =>
    (c.1 != key || c.2 == state) && (s.tracker.evictedKey != some c.1 || c.1 == key)

/-- The steps that keep the tracker in line with the miners. -/
def keepsJobs {σ : Type} (s : GatewayState σ) : GatewayAction → Bool
  | .assemblerInsert =>
      match s.assembler with
      | .indexed state datumJobIdx =>
          spares s (.sv1 (sv1JobId s.tick datumJobIdx state.height)) state
      | _ => true
  | .connection id .seedInsert =>
      match (s.connections.lookup id).map Connection.phase with
      | some (.seeding frames template seedTemplate) =>
          -- no template was published between building the frames and reading it again
          seedTemplate == template &&
            (frameClaims template frames).all fun c => spares s c.1 c.2
      | _ => true
  | .connection id (.templateArm _) =>
      (s.connections.lookup id).all fun conn => conn.manager.channels.keys.isEmpty
  | _ => true

section Tracker

theorem Resolves.insert {t : Tracker} {key key' : JobKey} {state state' : TemplateState}
    {datumJobIdx coinbaseId : UInt8} {seed : UInt64} (hresolves : Resolves t key' state')
    (hreplace : key' = key → state' = state) (hevict : t.evictedKey = some key' → key' = key) :
    Resolves (t.insert key (jobMetaOf datumJobIdx coinbaseId state) seed) key' state' := by
  by_cases hkey : key' = key
  · obtain rfl := hreplace hkey
    subst hkey
    exact ⟨_, Tracker.get_insert .., datumJobIdx, coinbaseId, rfl⟩
  · obtain ⟨entry, hget, hbuilt⟩ := hresolves
    refine ⟨entry, ?_, hbuilt⟩
    rw [Tracker.get_insert_ne t hkey, Tracker.get_evict_of_ne fun h => hkey (hevict h), hget]

theorem resolves_insert_self (t : Tracker) (key : JobKey) (state : TemplateState)
    (datumJobIdx coinbaseId : UInt8) (seed : UInt64) :
    Resolves (t.insert key (jobMetaOf datumJobIdx coinbaseId state) seed) key state :=
  ⟨_, Tracker.get_insert .., datumJobIdx, coinbaseId, rfl⟩

theorem Resolves.recordEncoded {t : Tracker} {key key' : JobKey} {state : TemplateState}
    {entry : JobEntry} (hentry : t.get key = some entry) (seed : UInt64) (coinbaseId : UInt8)
    (xprotSeen : Bool) (hresolves : Resolves t key' state) :
    Resolves (t.recordEncoded key (markSent entry xprotSeen) seed coinbaseId xprotSeen) key'
      state := by
  obtain ⟨entry', hentry', hbuilt⟩ := hresolves
  by_cases hkey : key' = key
  · subst hkey
    obtain rfl := Option.some.inj (hentry.symm.trans hentry')
    refine ⟨markSent entry xprotSeen, ?_, hbuilt⟩
    rw [Tracker.get_recordEncoded, if_pos rfl, hentry, Option.map_some]
  · refine ⟨entry', ?_, hbuilt⟩
    rw [Tracker.get_recordEncoded, if_neg hkey, hentry']

theorem Resolves.resetSendOnceFlags {t : Tracker} {key : JobKey} {state : TemplateState}
    (hresolves : Resolves t key state) : Resolves t.resetSendOnceFlags key state := by
  obtain ⟨entry, hentry, hbuilt⟩ := hresolves
  refine ⟨Tracker.resetEntry entry, ?_, hbuilt⟩
  rw [Tracker.get_resetSendOnceFlags, hentry, Option.map_some]

end Tracker

section Claims

variable {σ : Type}

theorem mem_connections_claims_iff {connections : KeyMap ℕ (Connection σ)}
    {c : JobKey × TemplateState} :
    (c ∈ connections.entries.flatMap fun e => connectionClaims e.2) ↔
      ∃ id conn, connections.lookup id = some conn ∧ c ∈ connectionClaims conn := by
  rw [List.mem_flatMap]
  constructor
  · rintro ⟨⟨id, conn⟩, hmem, hc⟩
    exact ⟨id, conn, AList.mem_lookup_iff.mpr hmem, hc⟩
  · rintro ⟨id, conn, hlookup, hc⟩
    exact ⟨⟨id, conn⟩, AList.mem_lookup_iff.mp hlookup, hc⟩

theorem mem_claims_iff {s : GatewayState σ} {c : JobKey × TemplateState} :
    c ∈ claims s ↔ c ∈ notifyClaims s.notify ∨ c ∈ assemblerClaims s.assembler ∨
      ∃ id conn, s.connections.lookup id = some conn ∧ c ∈ connectionClaims conn := by
  rw [claims, List.mem_append, List.mem_append, mem_connections_claims_iff, or_assoc]

theorem mem_claims_setConnection {s : GatewayState σ} {id : ℕ} {conn : Connection σ}
    {tracker : Tracker} {c : JobKey × TemplateState}
    (hc : c ∈ claims { s.setConnection id conn with tracker }) :
    c ∈ connectionClaims conn ∨ c ∈ claims s := by
  rw [mem_claims_iff] at hc
  rcases hc with hc | hc | ⟨id', conn', hlookup, hc⟩
  · exact Or.inr (mem_claims_iff.mpr (Or.inl hc))
  · exact Or.inr (mem_claims_iff.mpr (Or.inr (Or.inl hc)))
  · rcases lookup_insert_eq_some_iff.mp hlookup with ⟨-, rfl⟩ | ⟨-, hlookup⟩
    · exact Or.inl hc
    · exact Or.inr (mem_claims_iff.mpr (Or.inr (Or.inr ⟨id', conn', hlookup, hc⟩)))

theorem mem_claims_of_connection {s : GatewayState σ} {id : ℕ} {conn : Connection σ}
    {c : JobKey × TemplateState} (hlookup : s.connections.lookup id = some conn)
    (hc : c ∈ connectionClaims conn) : c ∈ claims s :=
  mem_claims_iff.mpr (Or.inr (Or.inr ⟨id, conn, hlookup, hc⟩))

theorem mem_sentClaims_iff {sent : KeyMap UInt32 (UInt32 × TemplateState)}
    {c : JobKey × TemplateState} :
    (c ∈ sent.entries.map fun e => (JobKey.sv2 e.1 e.2.1, e.2.2)) ↔
      ∃ channelId jobId state, sent.lookup channelId = some (jobId, state) ∧
        (JobKey.sv2 channelId jobId, state) = c := by
  rw [List.mem_map]
  constructor
  · rintro ⟨⟨channelId, jobId, state⟩, hmem, hc⟩
    exact ⟨channelId, jobId, state, AList.mem_lookup_iff.mpr hmem, hc⟩
  · rintro ⟨channelId, jobId, state, hlookup, hc⟩
    exact ⟨⟨channelId, jobId, state⟩, AList.mem_lookup_iff.mp hlookup, hc⟩

theorem mem_frameClaims_cons {template : Option TemplateState} {frame : MiningOut}
    {frames : List MiningOut} {c : JobKey × TemplateState} :
    c ∈ frameClaims template (frame :: frames) ↔
      (∃ state key, template = some state ∧ emittedKey frame = some key ∧ (key, state) = c) ∨
        c ∈ frameClaims template frames := by
  cases template with
  | none => simp [frameClaims]
  | some state =>
      cases hkey : emittedKey frame with
      | none => simp [frameClaims, hkey]
      | some key =>
          simp only [frameClaims, Option.toList_some, List.flatMap_cons, List.flatMap_nil,
            List.append_nil, List.filterMap_cons, hkey, List.map_cons, List.mem_cons,
            Option.some.injEq, exists_and_left, exists_eq_left']
          exact or_congr_left eq_comm

theorem lookup_noteSent {template : Option TemplateState} {frame : MiningOut}
    {sent : KeyMap UInt32 (UInt32 × TemplateState)} {channelId jobId : UInt32}
    {state : TemplateState}
    (hlookup : (noteSent template sent frame).lookup channelId = some (jobId, state)) :
    sent.lookup channelId = some (jobId, state) ∨
      emittedKey frame = some (.sv2 channelId jobId) ∧ template = some state := by
  unfold noteSent at hlookup
  split at hlookup
  · rename_i channelId' jobId' state' hkey
    rcases lookup_insert_eq_some_iff.mp hlookup with ⟨rfl, hjob⟩ | ⟨-, hlookup⟩
    · obtain ⟨rfl, rfl⟩ := Prod.mk.inj hjob
      exact Or.inr ⟨hkey, rfl⟩
    · exact Or.inl hlookup
  · exact Or.inl hlookup

theorem mem_connectionClaims_iff {conn : Connection σ} {c : JobKey × TemplateState} :
    c ∈ connectionClaims conn ↔
      (∃ channelId jobId state, conn.sent.lookup channelId = some (jobId, state) ∧
        (JobKey.sv2 channelId jobId, state) = c) ∨ c ∈ phaseClaims conn.phase := by
  rw [connectionClaims, List.mem_append, mem_sentClaims_iff]

end Claims

section Steps

variable {sha256d : Bytes → Bytes32} {σ : Type} {alloc : ExtranonceAllocator σ}

/-- Between its open request and its tracker entry a connection has at most one new job. -/
def SingleJob : ConnectionPhase → Prop
  | .opened frames _ => (frames.filterMap emittedKey).length ≤ 1
  | .seeding frames _ _ => (frames.filterMap emittedKey).length ≤ 1
  | .sending _ _ => True

theorem resolves_seedJobTracker (t : Tracker) (state : TemplateState) {frames : List MiningOut}
    (hsingle : (frames.filterMap emittedKey).length ≤ 1) :
    (∀ c ∈ frameClaims (some state) frames,
      Resolves (seedJobTracker (some state) frames t) c.1 c.2) ∧
    ∀ c : JobKey × TemplateState, Resolves t c.1 c.2 →
      (∀ d ∈ frameClaims (some state) frames,
        (c.1 = d.1 → c.2 = d.2) ∧ (t.evictedKey = some c.1 → c.1 = d.1)) →
      Resolves (seedJobTracker (some state) frames t) c.1 c.2 := by
  simp only [frameClaims, seedJobTracker, jobMetaFromTemplate, Option.toList_some,
    List.flatMap_cons, List.flatMap_nil, List.append_nil]
  match frames.filterMap emittedKey, hsingle with
  | [], _ => exact ⟨fun c hc => absurd hc List.not_mem_nil, fun c hresolves _ => hresolves⟩
  | [key], _ =>
      constructor
      · rintro c hc
        obtain rfl := List.mem_singleton.mp hc
        exact resolves_insert_self t key state 0 0 state.jobIdSeed
      · rintro c hresolves hspare
        obtain ⟨hreplace, hevict⟩ := hspare (key, state) (List.mem_singleton_self _)
        exact hresolves.insert hreplace hevict

theorem mem_connectionClaims_of_sent_eq {conn conn' : Connection σ}
    {c : JobKey × TemplateState} (hc : c ∈ connectionClaims conn')
    (hsent : conn'.sent = conn.sent) (hphase : phaseClaims conn'.phase = []) :
    c ∈ connectionClaims conn := by
  rw [mem_connectionClaims_iff, hsent, hphase] at hc
  rcases hc with hc | hc
  · exact mem_connectionClaims_iff.mpr (Or.inl hc)
  · exact absurd hc List.not_mem_nil

/-- What a step of a connection that keeps the jobs does: every key that the connection uses
afterwards was in use before or resolves now, and what resolved before still does. -/
def KeepsConnection (s : GatewayState σ) (conn conn' : Connection σ) (tracker' : Tracker) :
    Prop :=
  SingleJob conn'.phase ∧
    (∀ c ∈ connectionClaims conn', c ∈ connectionClaims conn ∨ Resolves tracker' c.1 c.2) ∧
    ∀ c ∈ claims s, Resolves s.tracker c.1 c.2 → Resolves tracker' c.1 c.2

theorem keepsConnection_seedInsert {s : GatewayState σ} {id : ℕ} {conn : Connection σ}
    {frames : List MiningOut} {template seedTemplate : Option TemplateState}
    (hlookup : s.connections.lookup id = some conn) (hsingle : SingleJob conn.phase)
    (hguard : keepsJobs s (.connection id .seedInsert) = true)
    (hphase : conn.phase = .seeding frames template seedTemplate) :
    KeepsConnection s conn { conn with phase := .sending frames template }
      (seedJobTracker seedTemplate frames s.tracker) := by
  simp only [keepsJobs, hlookup, Option.map_some, hphase, Bool.and_eq_true, beq_iff_eq,
    List.all_eq_true, spares, bne_iff_ne, Bool.or_eq_true] at hguard
  obtain ⟨rfl, hspares⟩ := hguard
  rw [hphase] at hsingle
  cases seedTemplate with
  | none =>
      refine ⟨trivial, ?_, fun c _ hresolves => hresolves⟩
      exact fun c hc => Or.inl (mem_connectionClaims_of_sent_eq hc rfl rfl)
  | some state =>
      obtain ⟨hnew, hold⟩ := resolves_seedJobTracker s.tracker state hsingle
      refine ⟨trivial, ?_, ?_⟩
      · intro c hc
        rcases mem_connectionClaims_iff.mp hc with hsent | hframe
        · exact Or.inl (mem_connectionClaims_iff.mpr (Or.inl hsent))
        · exact Or.inr (hnew c hframe)
      · intro c hc hresolves
        refine hold c hresolves fun d hd => ?_
        obtain ⟨hreplace, hevict⟩ := hspares d hd c hc
        exact ⟨fun h => hreplace.resolve_left (not_not.mpr h),
          fun h => hevict.resolve_left (not_not.mpr h)⟩

theorem keepsConnection_send {s : GatewayState σ} {conn : Connection σ} {frame : MiningOut}
    {frames : List MiningOut} {template : Option TemplateState}
    (hphase : conn.phase = .sending (frame :: frames) template) :
    KeepsConnection s conn
      { conn with phase := .sending frames template, sent := noteSent template conn.sent frame }
      s.tracker := by
  refine ⟨trivial, ?_, fun c _ hresolves => hresolves⟩
  intro c hc
  left
  rw [mem_connectionClaims_iff, hphase, phaseClaims, mem_frameClaims_cons]
  rcases mem_connectionClaims_iff.mp hc with ⟨channelId, jobId, state, hnoted, rfl⟩ | hframe
  · rcases lookup_noteSent hnoted with hsent | ⟨hkey, htemplate⟩
    · exact Or.inl ⟨channelId, jobId, state, hsent, rfl⟩
    · exact Or.inr (Or.inl ⟨state, _, htemplate, hkey, rfl⟩)
  · exact Or.inr (Or.inr hframe)

theorem eq_nil_of_keepsJobs {s : GatewayState σ} {id : ℕ} {conn : Connection σ}
    {ids : List UInt32} (hlookup : s.connections.lookup id = some conn)
    (hguard : keepsJobs s (.connection id (.templateArm ids)) = true)
    (hids : ids.Perm conn.manager.channels.keys) : ids = [] := by
  simp only [keepsJobs, hlookup, Option.all_some, List.isEmpty_iff] at hguard
  rw [hguard] at hids
  exact List.perm_nil.mp hids

theorem keepsConnection_closeChannel {s : GatewayState σ} {conn : Connection σ}
    {manager : Manager σ} {channelId : UInt32} (hsingle : SingleJob conn.phase) :
    KeepsConnection s conn { conn with manager, sent := conn.sent.erase channelId } s.tracker := by
  refine ⟨hsingle, ?_, fun c _ hresolves => hresolves⟩
  intro c hc
  left
  rw [mem_connectionClaims_iff] at hc ⊢
  refine hc.imp_left ?_
  rintro ⟨channelId', jobId, state, herased, rfl⟩
  exact ⟨channelId', jobId, state, (lookup_erase_eq_some_iff.mp herased).2, rfl⟩

theorem keepsConnection_of_connectionStep {s : GatewayState σ} {id : ℕ}
    {conn conn' : Connection σ} {tracker' : Tracker} {a : ConnectionAction}
    (hlookup : s.connections.lookup id = some conn) (hsingle : SingleJob conn.phase)
    (hguard : keepsJobs s (.connection id a) = true)
    (hstep : connectionStep sha256d alloc s conn a = some (conn', tracker')) :
    KeepsConnection s conn conn' tracker' := by
  cases connectionStep_cases hstep with
  | openChannel kind msg template hphase =>
      refine ⟨length_keys_openChannel_le sha256d alloc kind conn.manager s.published msg, ?_,
        fun c _ hresolves => hresolves⟩
      exact fun c hc => Or.inl (mem_connectionClaims_of_sent_eq hc rfl rfl)
  | seedRead frames template hphase =>
      rw [hphase] at hsingle
      refine ⟨hsingle, ?_, fun c _ hresolves => hresolves⟩
      exact fun c hc => Or.inl (mem_connectionClaims_of_sent_eq hc rfl rfl)
  | seedInsert frames template seedTemplate hphase =>
      exact keepsConnection_seedInsert hlookup hsingle hguard hphase
  | send frame frames template hphase => exact keepsConnection_send hphase
  | noTemplate ids template hphase hids =>
      exact ⟨hsingle, fun c hc => Or.inl hc, fun c _ hresolves => hresolves⟩
  | templateArm ids template current hphase hids =>
      obtain rfl := eq_nil_of_keepsJobs hlookup hguard hids
      refine ⟨trivial, ?_, fun c _ hresolves => hresolves⟩
      exact fun c hc => Or.inl (mem_connectionClaims_of_sent_eq hc rfl rfl)
  | closeChannel channelId template hphase => exact keepsConnection_closeChannel hsingle

structure JobInvariant (s : GatewayState σ) : Prop where
  resolves : ∀ c ∈ claims s, Resolves s.tracker c.1 c.2
  single : ∀ id conn, s.connections.lookup id = some conn → SingleJob conn.phase

theorem JobInvariant.of_claims_subset {s s' : GatewayState σ} (hinv : JobInvariant s)
    (hconnections : s'.connections = s.connections) (hclaims : ∀ c ∈ claims s', c ∈ claims s)
    (hresolves : ∀ c ∈ claims s, Resolves s.tracker c.1 c.2 → Resolves s'.tracker c.1 c.2) :
    JobInvariant s' where
  resolves c hc := hresolves c (hclaims c hc) (hinv.resolves c (hclaims c hc))
  single id conn hlookup := hinv.single id conn (hconnections ▸ hlookup)

theorem JobInvariant.publish {s : GatewayState σ} (hinv : JobInvariant s)
    (state : TemplateState) :
    JobInvariant { s with
      published := some state
      assemblerUnseen := true
      connections := mapValues (fun conn => { conn with templateUnseen := true })
        s.connections } := by
  have hsame : ∀ id conn, (mapValues (fun conn : Connection σ =>
      { conn with templateUnseen := true }) s.connections).lookup id = some conn →
      ∃ conn', s.connections.lookup id = some conn' ∧ conn'.phase = conn.phase ∧
        conn'.sent = conn.sent := by
    intro id conn hlookup
    rw [lookup_mapValues, Option.map_eq_some_iff] at hlookup
    obtain ⟨conn', hlookup, rfl⟩ := hlookup
    exact ⟨conn', hlookup, rfl, rfl⟩
  constructor
  · intro c hc
    apply hinv.resolves
    rw [mem_claims_iff] at hc ⊢
    refine hc.imp_right (Or.imp_right ?_)
    rintro ⟨id, conn, hlookup, hc⟩
    obtain ⟨conn', hlookup', hphase, hsent⟩ := hsame id conn hlookup
    refine ⟨id, conn', hlookup', ?_⟩
    rwa [connectionClaims, hphase, hsent]
  · intro id conn hlookup
    obtain ⟨conn', hlookup', hphase, -⟩ := hsame id conn hlookup
    rw [← hphase]
    exact hinv.single id conn' hlookup'

theorem JobInvariant.setConnection {s : GatewayState σ} (hinv : JobInvariant s) {id : ℕ}
    {conn : Connection σ} {tracker : Tracker} (hsingle : SingleJob conn.phase)
    (hnew : ∀ c ∈ connectionClaims conn, c ∈ claims s ∨ Resolves tracker c.1 c.2)
    (hold : ∀ c ∈ claims s, Resolves s.tracker c.1 c.2 → Resolves tracker c.1 c.2) :
    JobInvariant { s.setConnection id conn with tracker } := by
  have hclaim : ∀ c ∈ claims s, Resolves tracker c.1 c.2 :=
    fun c hc => hold c hc (hinv.resolves c hc)
  constructor
  · intro c hc
    rcases mem_claims_setConnection hc with hc | hc
    · exact (hnew c hc).elim (hclaim c) fun h => h
    · exact hclaim c hc
  · intro id' conn' hlookup
    rcases lookup_insert_eq_some_iff.mp hlookup with ⟨-, rfl⟩ | ⟨-, hlookup⟩
    · exact hsingle
    · exact hinv.single id' conn' hlookup

theorem JobInvariant.disconnect {s : GatewayState σ} (hinv : JobInvariant s) (id : ℕ) :
    JobInvariant { s with connections := s.connections.erase id } := by
  have hlookup : ∀ id' conn, (s.connections.erase id).lookup id' = some conn →
      s.connections.lookup id' = some conn :=
    fun id' conn herased => (lookup_erase_eq_some_iff.mp herased).2
  constructor
  · intro c hc
    apply hinv.resolves
    rw [mem_claims_iff] at hc ⊢
    refine hc.imp_right (Or.imp_right ?_)
    rintro ⟨id', conn, herased, hc⟩
    exact ⟨id', conn, hlookup id' conn herased, hc⟩
  · exact fun id' conn herased => hinv.single id' conn (hlookup id' conn herased)

theorem JobInvariant.assemblerInsert {s : GatewayState σ} (hinv : JobInvariant s)
    {state : TemplateState} {datumJobIdx : UInt8}
    (hphase : s.assembler = .indexed state datumJobIdx)
    (hguard : keepsJobs s .assemblerInsert = true) (params : NotifyParams)
    (hparams : params.jobId = sv1JobId s.tick datumJobIdx state.height) :
    JobInvariant { s with
      tracker := s.tracker.insert (.sv1 params.jobId)
        (jobMetaOf datumJobIdx coinbaseIdSv1 state) state.jobIdSeed
      assembler := .inserted state params } := by
  simp only [keepsJobs, hphase, spares, List.all_eq_true, Bool.and_eq_true, Bool.or_eq_true,
    bne_iff_ne, beq_iff_eq, ← hparams] at hguard
  have hold : ∀ c ∈ claims s, Resolves (s.tracker.insert (.sv1 params.jobId)
      (jobMetaOf datumJobIdx coinbaseIdSv1 state) state.jobIdSeed) c.1 c.2 := by
    intro c hc
    obtain ⟨hreplace, hevict⟩ := hguard c hc
    exact (hinv.resolves c hc).insert (fun h => hreplace.resolve_left (not_not.mpr h))
      (fun h => hevict.resolve_left (not_not.mpr h))
  constructor
  · intro c hc
    rcases mem_claims_iff.mp hc with hc | hc | hc
    · exact hold c (mem_claims_iff.mpr (Or.inl hc))
    · obtain rfl := List.mem_singleton.mp hc
      exact resolves_insert_self ..
    · exact hold c (mem_claims_iff.mpr (Or.inr (Or.inr hc)))
  · exact hinv.single

theorem JobInvariant.step {newManager : Manager σ} {s t : GatewayState σ} {a : GatewayAction}
    (hinv : JobInvariant s) (hguard : keepsJobs s a = true)
    (hstep : gatewayStep sha256d alloc newManager s a = some t) : JobInvariant t := by
  cases gatewayStep_cases hstep with
  | publish state => exact hinv.publish state
  | assemblerWake state hphase hpublished =>
      refine hinv.of_claims_subset rfl ?_ fun c _ hresolves => hresolves
      rw [claims, claims, hphase]
      exact fun c hc => hc
  | assemblerIndex state hphase =>
      refine hinv.of_claims_subset rfl ?_ fun c _ hresolves => hresolves
      rw [claims, claims, hphase]
      exact fun c hc => hc
  | assemblerInsert state datumJobIdx hphase =>
      exact hinv.assemblerInsert hphase hguard
        (notifyFromTemplateState (sv1JobId s.tick datumJobIdx state.height) datumJobIdx
          coinbaseIdSv1 state true).1 rfl
  | assemblerNotify state params hphase =>
      refine hinv.of_claims_subset rfl ?_ fun c _ hresolves => hresolves
      intro c hc
      rw [mem_claims_iff] at hc ⊢
      rw [hphase]
      rcases hc with hc | hc | hc
      · exact Or.inr (Or.inl hc)
      · exact absurd hc List.not_mem_nil
      · exact Or.inr (Or.inr hc)
  | accept id =>
      refine hinv.setConnection trivial ?_ fun c _ hresolves => hresolves
      exact fun c hc => absurd hc List.not_mem_nil
  | disconnect id => exact hinv.disconnect id
  | connection id a conn conn' tracker' hlookup hinner =>
      obtain ⟨hsingle, hnew, hold⟩ := keepsConnection_of_connectionStep hlookup
        (hinv.single id conn hlookup) hguard hinner
      exact hinv.setConnection hsingle
        (fun c hc => (hnew c hc).imp_left (mem_claims_of_connection hlookup)) hold
  | encodeShare key templateSeed entry hentry =>
      exact hinv.of_claims_subset rfl (fun c hc => hc)
        fun c _ hresolves => hresolves.recordEncoded hentry _ _ _
  | upstreamReconnect =>
      exact hinv.of_claims_subset rfl (fun c hc => hc)
        fun c _ hresolves => hresolves.resetSendOnceFlags

theorem JobInvariant.jobsResolve {s : GatewayState σ} (hinv : JobInvariant s) :
    JobsResolve s := by
  constructor
  · intro params state hnotify
    refine hinv.resolves (_, state) (mem_claims_iff.mpr (Or.inl ?_))
    rw [hnotify]
    exact List.mem_singleton_self _
  · intro id conn hlookup channelId channel _ jobId state hsent
    exact hinv.resolves (_, state) (mem_claims_of_connection hlookup
      (mem_connectionClaims_iff.mpr (Or.inl ⟨channelId, jobId, state, hsent, rfl⟩)))

end Steps

/-- In every run whose steps keep the jobs, the published notify and the last job sent to each
open channel resolve to what was sent. -/
theorem reachable_jobs_resolve (sha256d : Bytes → Bytes32) {σ : Type}
    (alloc : ExtranonceAllocator σ) (newManager : Manager σ) (t : GatewayState σ)
    (hreaches : Reaches (gatewayStep sha256d alloc newManager)
      (fun s a => keepsJobs s a = true) {} t) : JobsResolve t := by
  have hstart : JobInvariant ({} : GatewayState σ) := by
    constructor
    · exact fun c hc => absurd hc List.not_mem_nil
    · exact fun id conn hlookup => by cases hlookup
  exact (hreaches.invariant hstart fun s a t hinv hguard hstep =>
    hinv.step hguard hstep).jobsResolve

def openedRun (state : TemplateState) : List GatewayAction :=
  [.publish state, .accept 0, .connection 0 (.openChannel .extended plainOpenRequest),
    .connection 0 .seedRead, .connection 0 .seedInsert, .connection 0 .send,
    .connection 0 .send, .connection 0 .send]

theorem jobs_of_first_template_resolve :
    let hash := fun _ => ByteVec.fill 32 0
    ∃ t, Reaches (gatewayStep hash countingAllocator emptyManager)
        (fun s a => keepsJobs s a = true) {} t ∧
      (t.notify.isSome && (t.connections.lookup 0).any fun conn =>
        (conn.sent.lookup 1).isSome) = true ∧
      JobsResolve t := by
  intro hash
  obtain ⟨t, hreaches, hsent⟩ := exists_reaches_of_runGuarded
    (gatewayStep hash countingAllocator emptyManager) keepsJobs {}
    (openedRun (plainState hash emptyTemplate {}) ++
      [.assemblerWake, .assemblerIndex, .assemblerInsert, .assemblerNotify])
    (fun t => t.notify.isSome && (t.connections.lookup 0).any fun conn =>
      (conn.sent.lookup 1).isSome) (by decide +kernel)
  exact ⟨t, hreaches, hsent,
    reachable_jobs_resolve hash countingAllocator emptyManager t hreaches⟩

/-- The next template goes to the channel under job 2, which the tracker never learns of. -/
theorem job_of_next_template_unresolved :
    let hash := fun _ => ByteVec.fill 32 0
    ∃ t, Reachable (gatewayStep hash countingAllocator emptyManager) {} t ∧ ¬ JobsResolve t := by
  intro hash
  obtain ⟨t, hreachable, hunresolved⟩ := exists_reachable_of_runActions
    (gatewayStep hash countingAllocator emptyManager) {}
    (openedRun (plainState hash emptyTemplate {}) ++
      [.publish (plainState hash emptyTemplate {} 1), .connection 0 (.templateArm [1]),
        .connection 0 .send, .connection 0 .send])
    (fun t => (t.connections.lookup 0).any fun conn =>
      (conn.manager.channels.lookup 1).isSome &&
        (conn.sent.lookup 1).any fun job => (t.tracker.get (.sv2 1 job.1)).isNone)
    (by decide +kernel)
  refine ⟨t, hreachable, ?_⟩
  rintro ⟨-, hchannels⟩
  obtain ⟨conn, hconn, hjob⟩ := (Option.any_eq_true _ _).mp hunresolved
  rw [Bool.and_eq_true, Option.isSome_iff_exists] at hjob
  obtain ⟨⟨channel, hchannel⟩, hsent⟩ := hjob
  obtain ⟨⟨jobId, state⟩, hsent, hnone⟩ := (Option.any_eq_true _ _).mp hsent
  obtain ⟨entry, hentry, -⟩ := hchannels 0 conn hconn 1 channel hchannel jobId state hsent
  rw [hentry] at hnone
  cases hnone

end DatumGateway.JobResolution
