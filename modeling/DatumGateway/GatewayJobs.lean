import DatumGateway.MiningListener
import DatumGateway.TransitionSystem

/-!
The jobs of the whole gateway: the SV1 assembler and all SV2 connections, each a
task of its own, over one published template and one tracker.
-/

namespace DatumGateway.GatewayJobs

open DatumGateway.ByteString
open DatumGateway.ChannelManager
open DatumGateway.JobTracker
open DatumGateway.KeyedMaps
open DatumGateway.MiningListener
open DatumGateway.SharedTemplate
open DatumGateway.ShareEncoder
open DatumGateway.StratumV1Assembler

/-- Where the task of a connection stands.  `template` is what the frames were built from. -/
inductive ConnectionPhase where
  | sending (frames : List MiningOut) (template : Option TemplateState)
  | opened (frames : List MiningOut) (template : Option TemplateState)
  | seeding (frames : List MiningOut) (template seedTemplate : Option TemplateState)

structure Connection (σ : Type) where
  manager : Manager σ
  templateUnseen : Bool
  phase : ConnectionPhase
  /-- The last job id sent to each channel, with the template that was sent under it. -/
  sent : KeyMap UInt32 (UInt32 × TemplateState)

inductive AssemblerPhase where
  | waiting
  | woken (state : TemplateState)
  | indexed (state : TemplateState) (datumJobIdx : UInt8)
  | inserted (state : TemplateState) (params : NotifyParams)

structure GatewayState (σ : Type) where
  published : Option TemplateState := none
  tracker : Tracker := {}
  assemblerUnseen : Bool := false
  assembler : AssemblerPhase := .waiting
  tick : UInt32 := 0
  notify : Option (NotifyParams × TemplateState) := none
  connections : KeyMap ℕ (Connection σ) := ∅

inductive ConnectionAction where
  | openChannel (kind : ChannelKind) (msg : OpenMiningChannel)
  | seedRead
  | seedInsert
  | send
  /-- The template arm; `ids` are the channels in the order of the hash map. -/
  | templateArm (ids : List UInt32)
  | closeChannel (channelId : UInt32)

inductive GatewayAction where
  | publish (state : TemplateState)
  | assemblerWake
  | assemblerIndex
  | assemblerInsert
  | assemblerNotify
  | accept (id : ℕ)
  | disconnect (id : ℕ)
  | connection (id : ℕ) (a : ConnectionAction)
  /-- A share of either protocol is encoded from the entry of `key`. -/
  | encodeShare (key : JobKey) (templateSeed : UInt64)
  | upstreamReconnect

def GatewayState.setConnection {σ : Type} (s : GatewayState σ) (id : ℕ) (conn : Connection σ) :
    GatewayState σ :=
  { s with connections := s.connections.insert id conn }

def noteSent (template : Option TemplateState) (sent : KeyMap UInt32 (UInt32 × TemplateState))
    (frame : MiningOut) : KeyMap UInt32 (UInt32 × TemplateState) :=
  match emittedKey frame, template with
  | some (.sv2 channelId jobId), some state => sent.insert channelId (jobId, state)
  | _, _ => sent

/-- The job index that the assembler has drawn but not used yet. -/
def AssemblerPhase.drawnIdx : AssemblerPhase → Option UInt8
  | .indexed _ datumJobIdx => some datumJobIdx
  | _ => none

section Steps

variable (sha256d : Bytes → Bytes32) {σ : Type} (alloc : ExtranonceAllocator σ)
variable (newManager : Manager σ)

def connectionStep (s : GatewayState σ) (conn : Connection σ) :
    ConnectionAction → Option (Connection σ × Tracker)
  | .openChannel kind msg =>
      match conn.phase with
      | .sending [] _ =>
          let (outs, manager) := openChannel sha256d alloc kind conn.manager s.published msg
          some ({ conn with manager, phase := .opened outs s.published }, s.tracker)
      | _ => none
  | .seedRead =>
      match conn.phase with
      | .opened frames template =>
          some ({ conn with phase := .seeding frames template s.published }, s.tracker)
      | _ => none
  | .seedInsert =>
      match conn.phase with
      | .seeding frames template seedTemplate =>
          some ({ conn with phase := .sending frames template },
            seedJobTracker seedTemplate frames s.tracker)
      | _ => none
  | .send =>
      match conn.phase with
      | .sending (frame :: frames) template =>
          some ({ conn with
            phase := .sending frames template, sent := noteSent template conn.sent frame },
            s.tracker)
      | _ => none
  | .templateArm ids =>
      match conn.phase with
      | .sending [] _ =>
          if conn.templateUnseen && ids.isPerm conn.manager.channels.keys then
            match s.published with
            | none => some ({ conn with templateUnseen := false }, s.tracker)
            | some template =>
                let (outs, manager) := onTemplateUpdate sha256d template conn.manager ids
                some ({ conn with
                  manager, templateUnseen := false, phase := .sending outs (some template) },
                  s.tracker)
          else none
      | _ => none
  | .closeChannel channelId =>
      match conn.phase with
      | .sending [] _ =>
          some ({ conn with
            manager := handleCloseChannel alloc conn.manager channelId
            sent := conn.sent.erase channelId }, s.tracker)
      | _ => none

def gatewayStep (s : GatewayState σ) : GatewayAction → Option (GatewayState σ)
  | .publish state =>
      some { s with
        published := some state
        assemblerUnseen := true
        connections := mapValues (fun conn => { conn with templateUnseen := true })
          s.connections }
  | .assemblerWake =>
      match s.assembler, s.published with
      | .waiting, some state =>
          if s.assemblerUnseen then
            some { s with assembler := .woken state, assemblerUnseen := false }
          else none
      | _, _ => none
  | .assemblerIndex =>
      match s.assembler with
      | .woken state =>
          let (datumJobIdx, tracker) := s.tracker.nextIdx
          some { s with tracker, assembler := .indexed state datumJobIdx }
      | _ => none
  | .assemblerInsert =>
      match s.assembler with
      | .indexed state datumJobIdx =>
          let jobId := sv1JobId s.tick datumJobIdx state.height
          let (params, jobMeta) :=
            notifyFromTemplateState jobId datumJobIdx coinbaseIdSv1 state true
          some { s with
            tracker := s.tracker.insert (.sv1 jobId) jobMeta state.jobIdSeed
            assembler := .inserted state params }
      | _ => none
  | .assemblerNotify =>
      match s.assembler with
      | .inserted state params =>
          some { s with
            notify := some (params, state), assembler := .waiting, tick := s.tick + 1 }
      | _ => none
  | .accept id =>
      match s.connections.lookup id with
      | some _ => none
      | none =>
          some (s.setConnection id
            { manager := newManager, templateUnseen := s.published.isSome
              phase := .sending [] none, sent := ∅ })
  | .disconnect id => some { s with connections := s.connections.erase id }
  | .encodeShare key templateSeed =>
      match s.tracker.get key with
      | none => none
      | some entry =>
          let coinbaseId := entry.jobMeta.coinbaseId
          let xprotSeen := s.tracker.crossProtocolCoinbaseAlreadySeen templateSeed coinbaseId
          some { s with
            tracker := s.tracker.recordEncoded key (markSent entry xprotSeen) templateSeed
              coinbaseId xprotSeen }
  | .upstreamReconnect => some { s with tracker := s.tracker.resetSendOnceFlags }
  | .connection id a => do
      let conn ← s.connections.lookup id
      let (conn, tracker) ← connectionStep sha256d alloc s conn a
      some { s.setConnection id conn with tracker }

/-- What an action of a connection does, and in which phase. -/
inductive ConnectionStep (s : GatewayState σ) (conn : Connection σ) :
    ConnectionAction → Connection σ → Tracker → Prop where
  | openChannel (kind : ChannelKind) (msg : OpenMiningChannel) (template : Option TemplateState)
      (hphase : conn.phase = .sending [] template) :
      ConnectionStep s conn (.openChannel kind msg)
        { conn with
          manager := (openChannel sha256d alloc kind conn.manager s.published msg).2
          phase := .opened (openChannel sha256d alloc kind conn.manager s.published msg).1
            s.published }
        s.tracker
  | seedRead (frames : List MiningOut) (template : Option TemplateState)
      (hphase : conn.phase = .opened frames template) :
      ConnectionStep s conn .seedRead
        { conn with phase := .seeding frames template s.published } s.tracker
  | seedInsert (frames : List MiningOut) (template seedTemplate : Option TemplateState)
      (hphase : conn.phase = .seeding frames template seedTemplate) :
      ConnectionStep s conn .seedInsert { conn with phase := .sending frames template }
        (seedJobTracker seedTemplate frames s.tracker)
  | send (frame : MiningOut) (frames : List MiningOut) (template : Option TemplateState)
      (hphase : conn.phase = .sending (frame :: frames) template) :
      ConnectionStep s conn .send
        { conn with
          phase := .sending frames template, sent := noteSent template conn.sent frame }
        s.tracker
  | noTemplate (ids : List UInt32) (template : Option TemplateState)
      (hphase : conn.phase = .sending [] template) (hids : ids.Perm conn.manager.channels.keys) :
      ConnectionStep s conn (.templateArm ids) { conn with templateUnseen := false } s.tracker
  | templateArm (ids : List UInt32) (template : Option TemplateState) (current : TemplateState)
      (hphase : conn.phase = .sending [] template) (hids : ids.Perm conn.manager.channels.keys) :
      ConnectionStep s conn (.templateArm ids)
        { conn with
          manager := (onTemplateUpdate sha256d current conn.manager ids).2
          templateUnseen := false
          phase := .sending (onTemplateUpdate sha256d current conn.manager ids).1 (some current) }
        s.tracker
  | closeChannel (channelId : UInt32) (template : Option TemplateState)
      (hphase : conn.phase = .sending [] template) :
      ConnectionStep s conn (.closeChannel channelId)
        { conn with
          manager := handleCloseChannel alloc conn.manager channelId
          sent := conn.sent.erase channelId }
        s.tracker

/-- What an action of the gateway does, and when it can happen. -/
inductive GatewayStep (s : GatewayState σ) : GatewayAction → GatewayState σ → Prop where
  | publish (state : TemplateState) :
      GatewayStep s (.publish state)
        { s with
          published := some state
          assemblerUnseen := true
          connections := mapValues (fun conn => { conn with templateUnseen := true })
            s.connections }
  | assemblerWake (state : TemplateState) (hphase : s.assembler = .waiting)
      (hpublished : s.published = some state) :
      GatewayStep s .assemblerWake { s with assembler := .woken state, assemblerUnseen := false }
  | assemblerIndex (state : TemplateState) (hphase : s.assembler = .woken state) :
      GatewayStep s .assemblerIndex
        { s with tracker := s.tracker.nextIdx.2, assembler := .indexed state s.tracker.nextIdx.1 }
  | assemblerInsert (state : TemplateState) (datumJobIdx : UInt8)
      (hphase : s.assembler = .indexed state datumJobIdx) :
      GatewayStep s .assemblerInsert
        { s with
          tracker := s.tracker.insert (.sv1 (sv1JobId s.tick datumJobIdx state.height))
            (jobMetaOf datumJobIdx coinbaseIdSv1 state) state.jobIdSeed
          assembler := .inserted state
            (notifyFromTemplateState (sv1JobId s.tick datumJobIdx state.height) datumJobIdx
              coinbaseIdSv1 state true).1 }
  | assemblerNotify (state : TemplateState) (params : NotifyParams)
      (hphase : s.assembler = .inserted state params) :
      GatewayStep s .assemblerNotify
        { s with notify := some (params, state), assembler := .waiting, tick := s.tick + 1 }
  | accept (id : ℕ) :
      GatewayStep s (.accept id)
        (s.setConnection id
          { manager := newManager, templateUnseen := s.published.isSome
            phase := .sending [] none, sent := ∅ })
  | disconnect (id : ℕ) :
      GatewayStep s (.disconnect id) { s with connections := s.connections.erase id }
  | encodeShare (key : JobKey) (templateSeed : UInt64) (entry : JobEntry)
      (hget : s.tracker.get key = some entry) :
      GatewayStep s (.encodeShare key templateSeed)
        { s with
          tracker :=
            let xprotSeen :=
              s.tracker.crossProtocolCoinbaseAlreadySeen templateSeed entry.jobMeta.coinbaseId
            s.tracker.recordEncoded key (markSent entry xprotSeen) templateSeed
              entry.jobMeta.coinbaseId xprotSeen }
  | upstreamReconnect :
      GatewayStep s .upstreamReconnect { s with tracker := s.tracker.resetSendOnceFlags }
  | connection (id : ℕ) (a : ConnectionAction) (conn conn' : Connection σ) (tracker : Tracker)
      (hconn : s.connections.lookup id = some conn)
      (hstep : connectionStep sha256d alloc s conn a = some (conn', tracker)) :
      GatewayStep s (.connection id a) { s.setConnection id conn' with tracker }

variable {sha256d alloc newManager}

theorem connectionStep_cases {s : GatewayState σ} {conn conn' : Connection σ}
    {a : ConnectionAction} {tracker : Tracker}
    (hstep : connectionStep sha256d alloc s conn a = some (conn', tracker)) :
    ConnectionStep sha256d alloc s conn a conn' tracker := by
  cases a with
  | openChannel kind msg =>
      simp only [connectionStep] at hstep
      split at hstep
      · rename_i template hphase
        obtain ⟨rfl, rfl⟩ := Prod.mk.inj (Option.some.inj hstep)
        exact .openChannel kind msg template hphase
      · cases hstep
  | seedRead =>
      simp only [connectionStep] at hstep
      split at hstep
      · rename_i frames template hphase
        obtain ⟨rfl, rfl⟩ := Prod.mk.inj (Option.some.inj hstep)
        exact .seedRead frames template hphase
      · cases hstep
  | seedInsert =>
      simp only [connectionStep] at hstep
      split at hstep
      · rename_i frames template seedTemplate hphase
        obtain ⟨rfl, rfl⟩ := Prod.mk.inj (Option.some.inj hstep)
        exact .seedInsert frames template seedTemplate hphase
      · cases hstep
  | send =>
      simp only [connectionStep] at hstep
      split at hstep
      · rename_i frame frames template hphase
        obtain ⟨rfl, rfl⟩ := Prod.mk.inj (Option.some.inj hstep)
        exact .send frame frames template hphase
      · cases hstep
  | templateArm ids =>
      simp only [connectionStep] at hstep
      split at hstep
      · rename_i template hphase
        obtain ⟨hids, hstep⟩ := Option.ite_none_right_eq_some.mp hstep
        rw [Bool.and_eq_true, List.isPerm_iff] at hids
        split at hstep
        · obtain ⟨rfl, rfl⟩ := Prod.mk.inj (Option.some.inj hstep)
          exact .noTemplate ids template hphase hids.2
        · rename_i current _
          obtain ⟨rfl, rfl⟩ := Prod.mk.inj (Option.some.inj hstep)
          exact .templateArm ids template current hphase hids.2
      · cases hstep
  | closeChannel channelId =>
      simp only [connectionStep] at hstep
      split at hstep
      · rename_i template hphase
        obtain ⟨rfl, rfl⟩ := Prod.mk.inj (Option.some.inj hstep)
        exact .closeChannel channelId template hphase
      · cases hstep

theorem gatewayStep_cases {s t : GatewayState σ} {a : GatewayAction}
    (hstep : gatewayStep sha256d alloc newManager s a = some t) :
    GatewayStep sha256d alloc newManager s a t := by
  cases a with
  | publish state =>
      obtain rfl := Option.some.inj hstep
      exact .publish state
  | assemblerWake =>
      simp only [gatewayStep] at hstep
      split at hstep
      · rename_i state hphase hpublished
        obtain ⟨-, hstep⟩ := Option.ite_none_right_eq_some.mp hstep
        obtain rfl := Option.some.inj hstep
        exact .assemblerWake state hphase hpublished
      · cases hstep
  | assemblerIndex =>
      simp only [gatewayStep] at hstep
      split at hstep
      · rename_i state hphase
        obtain rfl := Option.some.inj hstep
        exact .assemblerIndex state hphase
      · cases hstep
  | assemblerInsert =>
      simp only [gatewayStep] at hstep
      split at hstep
      · rename_i state datumJobIdx hphase
        obtain rfl := Option.some.inj hstep
        exact .assemblerInsert state datumJobIdx hphase
      · cases hstep
  | assemblerNotify =>
      simp only [gatewayStep] at hstep
      split at hstep
      · rename_i state params hphase
        obtain rfl := Option.some.inj hstep
        exact .assemblerNotify state params hphase
      · cases hstep
  | accept id =>
      simp only [gatewayStep] at hstep
      split at hstep
      · cases hstep
      · obtain rfl := Option.some.inj hstep
        exact .accept id
  | disconnect id =>
      obtain rfl := Option.some.inj hstep
      exact .disconnect id
  | encodeShare key templateSeed =>
      simp only [gatewayStep] at hstep
      split at hstep
      · cases hstep
      · rename_i entry hget
        obtain rfl := Option.some.inj hstep
        exact .encodeShare key templateSeed entry hget
  | upstreamReconnect =>
      obtain rfl := Option.some.inj hstep
      exact .upstreamReconnect
  | connection id a =>
      simp only [gatewayStep, Option.bind_eq_bind, Option.bind_eq_some_iff] at hstep
      obtain ⟨conn, hconn, ⟨conn', tracker⟩, hstep, hsome⟩ := hstep
      obtain rfl := Option.some.inj hsome
      exact .connection id a conn conn' tracker hconn hstep

theorem connectionStep_manager {s : GatewayState σ} {conn conn' : Connection σ}
    {a : ConnectionAction} {tracker : Tracker}
    (hstep : connectionStep sha256d alloc s conn a = some (conn', tracker)) :
    conn'.manager = conn.manager ∨
      (∃ kind msg, a = .openChannel kind msg ∧
        conn'.manager = (openChannel sha256d alloc kind conn.manager s.published msg).2) ∨
      (∃ template ids,
        conn'.manager = (onTemplateUpdate sha256d template conn.manager ids).2) ∨
      ∃ channelId, conn'.manager = handleCloseChannel alloc conn.manager channelId := by
  cases connectionStep_cases hstep with
  | openChannel kind msg template hphase => exact Or.inr (Or.inl ⟨kind, msg, rfl, rfl⟩)
  | templateArm ids template current hphase hids =>
      exact Or.inr (Or.inr (Or.inl ⟨current, ids, rfl⟩))
  | closeChannel channelId template hphase => exact Or.inr (Or.inr (Or.inr ⟨channelId, rfl⟩))
  | seedRead _ _ _ => exact Or.inl rfl
  | seedInsert _ _ _ _ => exact Or.inl rfl
  | send _ _ _ _ => exact Or.inl rfl
  | noTemplate _ _ _ _ => exact Or.inl rfl

/-- A step of a connection leaves the managers of the others alone; any other step starts or
ends connections, and leaves the managers of those that stay alone. -/
theorem gatewayStep_managers {s t : GatewayState σ} {a : GatewayAction}
    (hstep : gatewayStep sha256d alloc newManager s a = some t) :
    (∃ id b conn conn' tracker, a = .connection id b ∧ s.connections.lookup id = some conn ∧
      connectionStep sha256d alloc s conn b = some (conn', tracker) ∧
      t.connections = s.connections.insert id conn') ∨
    ∀ id conn', t.connections.lookup id = some conn' → conn'.manager = newManager ∨
      ∃ conn, s.connections.lookup id = some conn ∧ conn.manager = conn'.manager := by
  cases gatewayStep_cases hstep with
  | publish state =>
      right
      intro id conn' hconn'
      rw [lookup_mapValues] at hconn'
      obtain ⟨conn, hconn, rfl⟩ := Option.map_eq_some_iff.mp hconn'
      exact Or.inr ⟨conn, hconn, rfl⟩
  | accept id =>
      right
      intro id' conn' hconn'
      rcases lookup_insert_eq_some_iff.mp hconn' with ⟨-, rfl⟩ | ⟨-, hconn⟩
      · exact Or.inl rfl
      · exact Or.inr ⟨conn', hconn, rfl⟩
  | disconnect id =>
      right
      intro id' conn' hconn'
      exact Or.inr ⟨conn', (lookup_erase_eq_some_iff.mp hconn').2, rfl⟩
  | connection id b conn conn' tracker hconn hinner =>
      exact Or.inl ⟨id, b, conn, conn', tracker, rfl, hconn, hinner, rfl⟩
  -- the connections are what they were
  | _ => exact Or.inr fun id conn' hconn' => Or.inr ⟨conn', hconn', rfl⟩

/-- What a step can do to the tracker, and to the index that is drawn for it. -/
inductive TrackerStep (s t : GatewayState σ) : GatewayAction → Prop where
  | same (a : GatewayAction) (htracker : t.tracker = s.tracker)
      (hdrawn : t.assembler.drawnIdx = s.assembler.drawnIdx) : TrackerStep s t a
  | index (hdrawn : s.assembler.drawnIdx = none) (htracker : t.tracker = s.tracker.nextIdx.2)
      (hindexed : t.assembler.drawnIdx = some s.tracker.nextIdx.1) : TrackerStep s t .assemblerIndex
  | insert (state : TemplateState) (datumJobIdx : UInt8)
      (hindexed : s.assembler = .indexed state datumJobIdx)
      (htracker : t.tracker = s.tracker.insert (.sv1 (sv1JobId s.tick datumJobIdx state.height))
        (jobMetaOf datumJobIdx coinbaseIdSv1 state) state.jobIdSeed)
      (hdrawn : t.assembler.drawnIdx = none) : TrackerStep s t .assemblerInsert
  | seed (id : ℕ) (conn : Connection σ) (frames : List MiningOut)
      (template seedTemplate : Option TemplateState) (hconn : s.connections.lookup id = some conn)
      (hphase : conn.phase = .seeding frames template seedTemplate)
      (htracker : t.tracker = seedJobTracker seedTemplate frames s.tracker)
      (hassembler : t.assembler = s.assembler) : TrackerStep s t (.connection id .seedInsert)
  | encode (key : JobKey) (templateSeed : UInt64) (entry : JobEntry) (xprotSeen : Bool)
      (hget : s.tracker.get key = some entry)
      (hseen : xprotSeen =
        s.tracker.crossProtocolCoinbaseAlreadySeen templateSeed entry.jobMeta.coinbaseId)
      (htracker : t.tracker = s.tracker.recordEncoded key (markSent entry xprotSeen) templateSeed
        entry.jobMeta.coinbaseId xprotSeen)
      (hassembler : t.assembler = s.assembler) : TrackerStep s t (.encodeShare key templateSeed)
  | reset (htracker : t.tracker = s.tracker.resetSendOnceFlags)
      (hassembler : t.assembler = s.assembler) : TrackerStep s t .upstreamReconnect

theorem connectionStep_tracker {s : GatewayState σ} {conn conn' : Connection σ}
    {a : ConnectionAction} {tracker : Tracker}
    (hstep : connectionStep sha256d alloc s conn a = some (conn', tracker)) :
    tracker = s.tracker ∨ a = .seedInsert ∧ ∃ frames template seedTemplate,
      conn.phase = .seeding frames template seedTemplate ∧
        tracker = seedJobTracker seedTemplate frames s.tracker := by
  cases connectionStep_cases hstep with
  | seedInsert frames template seedTemplate hphase =>
      exact Or.inr ⟨rfl, frames, template, seedTemplate, hphase, rfl⟩
  | _ => exact Or.inl rfl

theorem trackerStep_of_gatewayStep {s t : GatewayState σ} {a : GatewayAction}
    (hstep : gatewayStep sha256d alloc newManager s a = some t) : TrackerStep s t a := by
  cases gatewayStep_cases hstep with
  | publish state => exact .same _ rfl rfl
  | assemblerWake state hphase hpublished => exact .same _ rfl (by rw [hphase]; rfl)
  | assemblerIndex state hphase => exact .index (by rw [hphase]; rfl) rfl rfl
  | assemblerInsert state datumJobIdx hphase => exact .insert state datumJobIdx hphase rfl rfl
  | assemblerNotify state params hphase => exact .same _ rfl (by rw [hphase]; rfl)
  | accept id => exact .same _ rfl rfl
  | disconnect id => exact .same _ rfl rfl
  | encodeShare key templateSeed entry hget =>
      exact .encode key templateSeed entry _ hget rfl rfl rfl
  | upstreamReconnect => exact .reset rfl rfl
  | connection id b conn conn' tracker hconn hinner =>
      rcases connectionStep_tracker hinner with rfl | ⟨rfl, frames, template, seedTemplate, hphase,
        rfl⟩
      · exact .same _ rfl rfl
      · exact .seed id conn frames template seedTemplate hconn hphase rfl rfl

end Steps

end DatumGateway.GatewayJobs
