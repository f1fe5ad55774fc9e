import DatumGateway.AnnounceBeforeUse
import DatumGateway.JobIndexNames

namespace DatumGateway.SentinelSoundness

open DatumGateway.AnnounceBeforeUse
open DatumGateway.AnnouncementFlow
open DatumGateway.BlockTemplate
open DatumGateway.ByteString
open DatumGateway.ChannelManager
open DatumGateway.GatewayJobs
open DatumGateway.JobIndexNames
open DatumGateway.JobTracker
open DatumGateway.KeyedMaps
open DatumGateway.MiningListener
open DatumGateway.ShareEncoder
open DatumGateway.ShareRelay
open DatumGateway.SharedTemplate
open DatumGateway.StratumV1Assembler
open DatumGateway.StratumV1Server
open DatumGateway.TransitionSystem
open DatumGateway.UpstreamLink

/-- The body has a `0x02` block for a job of the seed, under the id. -/
def sendsFor (seed : UInt64) (coinbaseId : UInt8) (b : EncodedBody) : Bool :=
  sendsCoinbase b.entry b.crossProtocolCoinbaseAlreadySeen && b.entry.templateSeed == seed &&
    b.entry.jobMeta.coinbaseId == coinbaseId

/-- The body has a `0x02` block, with the id and the two halves of the template's coinbase. -/
def carries (state : TemplateState) (coinbaseId : UInt8) (b : EncodedBody) : Bool :=
  sendsCoinbase b.entry b.crossProtocolCoinbaseAlreadySeen &&
    b.entry.jobMeta.coinbaseId == coinbaseId && b.entry.jobMeta.coinb1Bin == state.coinb1 &&
    b.entry.jobMeta.coinb2Bin == state.coinb2

structure LoggedState (σ : Type) where
  upstream : UpstreamState σ := {}
  /-- All templates that were published, each with its seed. -/
  published : List TemplateState := []
  /-- The share bodies that were encoded since the flags were last reset. -/
  produced : List EncodedBody := []

/-- What the sentinel holds was carried by a body, and no job's coinbase was carried twice. -/
structure SentinelSound {σ : Type} (s : LoggedState σ) : Prop where
  seen : ∀ seed coinbaseId,
    (seed, coinbaseId) ∈ s.upstream.gateway.tracker.seenTemplateCoinbase →
      ∃ state ∈ s.published, state.jobIdSeed = seed ∧
        ∃ b ∈ s.produced, carries state coinbaseId b = true ∧
          coinbaseBlock b.entry.jobMeta <:+: b.bytes
  once : ∀ seed coinbaseId, (s.produced.filter (sendsFor seed coinbaseId)).length ≤ 1
  /-- Every body was encoded for a job of a published template, which has the seed of the job. -/
  published : ∀ b ∈ s.produced, ∃ state ∈ s.published, EntryOf b.entry state

section Steps

variable (sha256d : Bytes → Bytes32) (userCfg : ShareUserConfig) {σ : Type}
variable (alloc : ExtranonceAllocator σ) (newManager : Manager σ)

/-- The body that a step encodes, if any, as its task then holds it. -/
def encodedBody (t : UpstreamState σ) : UpstreamAction → Option EncodedBody
  | .relayEncode _ _ => t.relay
  | .sessionEncode id _ _ => (t.sessions.lookup id).bind SubmitPhase.body
  | _ => none

def producedAfter (produced : List EncodedBody) (t : UpstreamState σ) :
    UpstreamAction → List EncodedBody
  | .connect => []
  | a => produced ++ (encodedBody t a).toList

def publishes : UpstreamAction → List TemplateState
  | .gateway (.publish state) => [state]
  | _ => []

def loggedStep (s : LoggedState σ) (a : UpstreamAction) : Option (LoggedState σ) :=
  (upstreamStep sha256d userCfg alloc newManager s.upstream a).map fun upstream =>
    { upstream
      published := s.published ++ publishes a
      produced := producedAfter s.produced upstream a }

/-- A share whose job is of another template than the published one is only encoded while the
sentinel holds the published one. -/
def keepsSentinel (s : LoggedState σ) : UpstreamAction → Bool
  | .sessionEncode id submission _ =>
      (sessionAccepts s.upstream id submission).all fun accepted =>
        accepted.1 == accepted.2.2.templateSeed ||
          s.upstream.gateway.tracker.crossProtocolCoinbaseAlreadySeen accepted.1
            accepted.2.2.jobMeta.coinbaseId
  | _ => true

end Steps

def coinbaseFlag (entry : JobEntry) : Bool :=
  entry.serverHasCoinbase.toList.getD entry.jobMeta.coinbaseId.toNat false

/-- How the tracker agrees with the bodies produced since the last reset; `log` lists the templates
that were published. -/
structure Agrees (t : Tracker) (log : List TemplateState) (produced : List EncodedBody) : Prop where
  seen : ∀ seed coinbaseId, (seed, coinbaseId) ∈ t.seenTemplateCoinbase →
    ∃ b ∈ produced, sendsFor seed coinbaseId b = true
  marked : ∀ seed coinbaseId, ∀ b ∈ produced, sendsFor seed coinbaseId b = true →
    (seed, coinbaseId) ∈ t.seenTemplateCoinbase
  once : ∀ seed coinbaseId, (produced.filter (sendsFor seed coinbaseId)).length ≤ 1
  flagged : ∀ key entry, t.get key = some entry → coinbaseFlag entry = true →
    (entry.templateSeed, entry.jobMeta.coinbaseId) ∈ t.seenTemplateCoinbase
  built : ∀ key entry, t.get key = some entry →
    entry.jobMeta.coinbaseId = 0 ∧ ∃ state ∈ log, EntryOf entry state
  bodies : ∀ b ∈ produced, ∃ state ∈ log, EntryOf b.entry state

section Tracking

variable {log : List TemplateState} {produced : List EncodedBody}

theorem coinbaseFlag_of_unset {entry : JobEntry}
    (hunset : entry.serverHasCoinbase = List.Vector.replicate 8 false) :
    coinbaseFlag entry = false := by
  rw [coinbaseFlag, hunset]
  exact List.getElem?_getD_replicate_default_eq false 8 _

theorem Agrees.of_get {t t' : Tracker} (hagrees : Agrees t log produced)
    (hseen : t'.seenTemplateCoinbase = t.seenTemplateCoinbase)
    (hget : ∀ key entry, t'.get key = some entry → t.get key = some entry) :
    Agrees t' log produced := by
  constructor
  · rw [hseen]
    exact hagrees.seen
  · rw [hseen]
    exact hagrees.marked
  · exact hagrees.once
  · rw [hseen]
    exact fun key entry hentry => hagrees.flagged key entry (hget key entry hentry)
  · exact fun key entry hentry => hagrees.built key entry (hget key entry hentry)
  · exact hagrees.bodies

theorem Agrees.of_log_subset {t : Tracker} {log' : List TemplateState}
    (hagrees : Agrees t log produced) (hlog : log ⊆ log') : Agrees t log' produced where
  seen := hagrees.seen
  marked := hagrees.marked
  once := hagrees.once
  flagged := hagrees.flagged
  built := by
    intro key entry hget
    obtain ⟨hid, state, hstate, hentry⟩ := hagrees.built key entry hget
    exact ⟨hid, state, hlog hstate, hentry⟩
  bodies := by
    intro b hb
    obtain ⟨state, hstate, hentry⟩ := hagrees.bodies b hb
    exact ⟨state, hlog hstate, hentry⟩

theorem seenTemplateCoinbase_insert (t : Tracker) (key : JobKey) (jobMeta : JobMeta)
    (seed : UInt64) :
    (t.insert key jobMeta seed).seenTemplateCoinbase = t.seenTemplateCoinbase := by
  rcases evict_cases t with hsame | ⟨oldest, order, -, hevict⟩
  · rw [Tracker.insert, hsame]
  · rw [Tracker.insert, hevict]

theorem Agrees.insert {t : Tracker} (hagrees : Agrees t log produced) (key : JobKey)
    (datumJobIdx : UInt8) {state : TemplateState} (hstate : state ∈ log) :
    Agrees (t.insert key (jobMetaOf datumJobIdx 0 state) state.jobIdSeed) log produced := by
  have hseen := seenTemplateCoinbase_insert t key (jobMetaOf datumJobIdx 0 state) state.jobIdSeed
  constructor
  · rw [hseen]
    exact hagrees.seen
  · rw [hseen]
    exact hagrees.marked
  · exact hagrees.once
  · intro key' entry hget hflag
    rcases Tracker.get_insert_cases hget with hget | rfl
    · rw [hseen]
      exact hagrees.flagged key' entry hget hflag
    · rw [coinbaseFlag_of_unset rfl] at hflag
      cases hflag
  · intro key' entry hget
    rcases Tracker.get_insert_cases hget with hget | rfl
    · exact hagrees.built key' entry hget
    · exact ⟨rfl, state, hstate, entryOf_freshEntry state datumJobIdx 0⟩
  · exact hagrees.bodies

theorem Agrees.seedJobTracker {t : Tracker} (hagrees : Agrees t log produced)
    {seedTemplate : Option TemplateState} (hseed : ∀ state ∈ seedTemplate, state ∈ log)
    (frames : List MiningOut) : Agrees (seedJobTracker seedTemplate frames t) log produced := by
  apply seedJobTracker_induction (p := fun t' => Agrees t' log produced) hagrees
  intro state hstate key t' hagrees'
  exact hagrees'.insert key 0 (hseed state hstate)

theorem Agrees.resetSendOnceFlags {t : Tracker} (hagrees : Agrees t log produced) :
    Agrees t.resetSendOnceFlags log [] := by
  constructor
  · intro seed coinbaseId hmem
    cases hmem
  · intro seed coinbaseId b hb
    cases hb
  · exact fun _ _ => Nat.zero_le 1
  · intro key entry hget hflag
    rw [Tracker.get_resetSendOnceFlags] at hget
    obtain ⟨before, -, rfl⟩ := Option.map_eq_some_iff.mp hget
    rw [coinbaseFlag_of_unset rfl] at hflag
    cases hflag
  · intro key entry hget
    rw [Tracker.get_resetSendOnceFlags] at hget
    obtain ⟨before, hbefore, rfl⟩ := Option.map_eq_some_iff.mp hget
    exact hagrees.built key before hbefore
  · intro b hb
    cases hb

theorem sendsFor_of_sendsCoinbase_false {b : EncodedBody}
    (hsends : sendsCoinbase b.entry b.crossProtocolCoinbaseAlreadySeen = false) (seed : UInt64)
    (coinbaseId : UInt8) : sendsFor seed coinbaseId b = false := by
  rw [sendsFor, hsends, Bool.false_and, Bool.false_and]

theorem sendsFor_of_sendsCoinbase {b : EncodedBody}
    (hsends : sendsCoinbase b.entry b.crossProtocolCoinbaseAlreadySeen = true) (seed : UInt64)
    (coinbaseId : UInt8) : sendsFor seed coinbaseId b = true ↔
      (seed, coinbaseId) = (b.entry.templateSeed, b.entry.jobMeta.coinbaseId) := by
  rw [sendsFor, hsends, Bool.true_and, Bool.and_eq_true, beq_iff_eq, beq_iff_eq, Prod.mk.injEq,
    eq_comm, eq_comm (a := coinbaseId)]

theorem coinbaseBlock_isInfix_bytes {b : EncodedBody} {state : TemplateState} {coinbaseId : UInt8}
    (hcarries : carries state coinbaseId b = true) :
    coinbaseBlock b.entry.jobMeta <:+: b.bytes := by
  simp only [carries, Bool.and_eq_true] at hcarries
  have hannounces : coinbaseOf b.entry.jobMeta ∈ announces b := by
    rw [announces, if_pos hcarries.1.1.1]
    exact List.mem_append_right _ (List.mem_singleton_self _)
  exact block_isInfix_bytes hannounces

theorem carries_of_sendsFor {b : EncodedBody} {seed : UInt64} {coinbaseId : UInt8}
    {state : TemplateState} (hsends : sendsFor seed coinbaseId b = true)
    (hentry : EntryOf b.entry state) :
    state.jobIdSeed = seed ∧ carries state coinbaseId b = true := by
  obtain ⟨hmeta, hseed⟩ := hentry
  simp only [sendsFor, Bool.and_eq_true, beq_iff_eq] at hsends
  obtain ⟨⟨hcoinbase, hsame⟩, hid⟩ := hsends
  have hcoinb1 : b.entry.jobMeta.coinb1Bin = state.coinb1 := by
    rw [hmeta]
    rfl
  have hcoinb2 : b.entry.jobMeta.coinb2Bin = state.coinb2 := by
    rw [hmeta]
    rfl
  refine ⟨hseed.symm.trans hsame, ?_⟩
  simp only [carries, hcoinbase, hid, hcoinb1, hcoinb2, beq_self_eq_true, Bool.and_self]

theorem bodies_append {b : EncodedBody} (hbodies : ∀ b ∈ produced, ∃ state ∈ log,
    EntryOf b.entry state) (hb : ∃ state ∈ log, EntryOf b.entry state) :
    ∀ b' ∈ produced ++ [b], ∃ state ∈ log, EntryOf b'.entry state :=
  List.forall_mem_append.mpr ⟨hbodies, List.forall_mem_singleton.mpr hb⟩

theorem Agrees.append_of_sendsFor_false {t : Tracker} (hagrees : Agrees t log produced)
    {b : EncodedBody} (hsendsFor : ∀ seed coinbaseId, sendsFor seed coinbaseId b = false)
    (hstate : ∃ state ∈ log, EntryOf b.entry state) : Agrees t log (produced ++ [b]) := by
  constructor
  · intro seed coinbaseId hmem
    obtain ⟨b', hb', hsends⟩ := hagrees.seen seed coinbaseId hmem
    exact ⟨b', List.mem_append_left _ hb', hsends⟩
  · intro seed coinbaseId b' hb' hsends
    rcases List.mem_append.mp hb' with hb' | hb'
    · exact hagrees.marked seed coinbaseId b' hb' hsends
    · obtain rfl := List.mem_singleton.mp hb'
      rw [hsendsFor] at hsends
      cases hsends
  · intro seed coinbaseId
    rw [List.filter_append, List.filter_singleton, hsendsFor]
    simpa using hagrees.once seed coinbaseId
  · exact hagrees.flagged
  · exact hagrees.built
  · exact bodies_append hagrees.bodies hstate

theorem Agrees.append_of_unseen {t t' : Tracker} (hagrees : Agrees t log produced)
    {b : EncodedBody}
    (hsends : sendsCoinbase b.entry b.crossProtocolCoinbaseAlreadySeen = true)
    (hunseen : (b.entry.templateSeed, b.entry.jobMeta.coinbaseId) ∉ t.seenTemplateCoinbase)
    (hseen : t'.seenTemplateCoinbase =
      Insert.insert (b.entry.templateSeed, b.entry.jobMeta.coinbaseId) t.seenTemplateCoinbase)
    (hstate : ∃ state ∈ log, EntryOf b.entry state)
    (hflagged : ∀ key entry, t'.get key = some entry → coinbaseFlag entry = true →
      (entry.templateSeed, entry.jobMeta.coinbaseId) ∈ t'.seenTemplateCoinbase)
    (hbuilt : ∀ key entry, t'.get key = some entry →
      entry.jobMeta.coinbaseId = 0 ∧ ∃ state ∈ log, EntryOf entry state) :
    Agrees t' log (produced ++ [b]) := by
  constructor
  · intro seed coinbaseId hmem
    rw [hseen, Finset.mem_insert] at hmem
    rcases hmem with hsame | hmem
    · exact ⟨b, List.mem_append_right _ (List.mem_singleton_self b),
        (sendsFor_of_sendsCoinbase hsends seed coinbaseId).mpr hsame⟩
    · obtain ⟨b', hb', hsends'⟩ := hagrees.seen seed coinbaseId hmem
      exact ⟨b', List.mem_append_left _ hb', hsends'⟩
  · intro seed coinbaseId b' hb' hsendsFor
    rw [hseen, Finset.mem_insert]
    rcases List.mem_append.mp hb' with hb' | hb'
    · exact Or.inr (hagrees.marked seed coinbaseId b' hb' hsendsFor)
    · obtain rfl := List.mem_singleton.mp hb'
      exact Or.inl ((sendsFor_of_sendsCoinbase hsends seed coinbaseId).mp hsendsFor)
  · intro seed coinbaseId
    rw [List.filter_append, List.filter_singleton]
    cases hsendsFor : sendsFor seed coinbaseId b with
    | false => simpa using hagrees.once seed coinbaseId
    | true =>
        -- the pair was not in the set, so that no earlier body was sent for it
        have hsame := (sendsFor_of_sendsCoinbase hsends seed coinbaseId).mp hsendsFor
        have hnone : produced.filter (sendsFor seed coinbaseId) = [] := by
          rw [List.filter_eq_nil_iff]
          intro b' hb' hsendsFor'
          apply hunseen
          rw [← hsame]
          exact hagrees.marked seed coinbaseId b' hb' hsendsFor'
        rw [hnone]
        rfl
  · exact hflagged
  · exact hbuilt
  · exact bodies_append hagrees.bodies hstate

theorem coinbaseFlag_markSent_true (entry : JobEntry) :
    coinbaseFlag (markSent entry true) = coinbaseFlag entry := by
  rw [coinbaseFlag, markSent, sendsCoinbase, Bool.not_true, Bool.and_false]
  rfl

theorem coinbaseFlag_markSent_false {entry : JobEntry} (hid : entry.jobMeta.coinbaseId = 0) :
    coinbaseFlag (markSent entry false) = true := by
  rw [coinbaseFlag, markSent, sendsCoinbase, Bool.not_false, Bool.and_true]
  cases hflag : entry.serverHasCoinbase.toList.getD entry.jobMeta.coinbaseId.toNat false with
  | false => simp [hid, List.getD_eq_getElem?_getD]
  | true => simpa using hflag

theorem get_recordEncoded_cases {t : Tracker} {key key' : JobKey} {entry entry' : JobEntry}
    {templateSeed : UInt64} {coinbaseId : UInt8} {xprotSeen : Bool}
    (hget : (t.recordEncoded key entry templateSeed coinbaseId xprotSeen).get key' = some entry') :
    entry' = entry ∨ t.get key' = some entry' := by
  rw [Tracker.get_recordEncoded] at hget
  split_ifs at hget
  · obtain ⟨_, -, hentry⟩ := Option.map_eq_some_iff.mp hget
    exact Or.inl hentry.symm
  · exact Or.inr hget

theorem Agrees.built_recordEncoded {t : Tracker} (hagrees : Agrees t log produced)
    {key key' : JobKey} {entry entry' : JobEntry} {templateSeed : UInt64} {xprotSeen : Bool}
    (hget : t.get key = some entry)
    (hget' : (t.recordEncoded key (markSent entry xprotSeen) templateSeed
      entry.jobMeta.coinbaseId xprotSeen).get key' = some entry') :
    entry'.jobMeta.coinbaseId = 0 ∧ ∃ state ∈ log, EntryOf entry' state := by
  rcases get_recordEncoded_cases hget' with rfl | hget'
  · exact hagrees.built key entry hget
  · exact hagrees.built key' entry' hget'

theorem seenTemplateCoinbase_recordEncoded_true (t : Tracker) (key : JobKey) (entry : JobEntry)
    (templateSeed : UInt64) (coinbaseId : UInt8) :
    (t.recordEncoded key entry templateSeed coinbaseId true).seenTemplateCoinbase =
      t.seenTemplateCoinbase := by
  simp [Tracker.recordEncoded, Tracker.setEntry]

theorem seenTemplateCoinbase_recordEncoded_false (t : Tracker) (key : JobKey) {entry : JobEntry}
    (hid : entry.jobMeta.coinbaseId = 0) (templateSeed : UInt64) :
    (t.recordEncoded key (markSent entry false) templateSeed entry.jobMeta.coinbaseId
        false).seenTemplateCoinbase =
      Insert.insert (templateSeed, entry.jobMeta.coinbaseId) t.seenTemplateCoinbase := by
  have hmarked := coinbaseFlag_markSent_false hid
  rw [coinbaseFlag] at hmarked
  simp only [Tracker.recordEncoded]
  rw [if_pos]
  · rfl
  · rw [Bool.not_false, Bool.and_true]
    exact hmarked

theorem Agrees.recordEncoded_of_seen {t : Tracker} (hagrees : Agrees t log produced) {key : JobKey}
    {entry : JobEntry} (hget : t.get key = some entry) (templateSeed : UInt64) :
    Agrees (t.recordEncoded key (markSent entry true) templateSeed entry.jobMeta.coinbaseId true)
      log produced := by
  have hsame := seenTemplateCoinbase_recordEncoded_true t key (markSent entry true) templateSeed
    entry.jobMeta.coinbaseId
  constructor
  · rw [hsame]
    exact hagrees.seen
  · rw [hsame]
    exact hagrees.marked
  · exact hagrees.once
  · rw [hsame]
    intro key' entry' hget'
    rcases get_recordEncoded_cases hget' with rfl | hget'
    · rw [coinbaseFlag_markSent_true]
      exact hagrees.flagged key entry hget
    · exact hagrees.flagged key' entry' hget'
  · exact fun key' entry' => hagrees.built_recordEncoded hget
  · exact hagrees.bodies

theorem Agrees.encode {t : Tracker} (hagrees : Agrees t log produced)
    {key : JobKey} {templateSeed : UInt64} {b : EncodedBody} (hget : t.get key = some b.entry)
    (hxprot : b.crossProtocolCoinbaseAlreadySeen =
      t.crossProtocolCoinbaseAlreadySeen templateSeed b.entry.jobMeta.coinbaseId)
    (hseed : templateSeed = b.entry.templateSeed ∨ b.crossProtocolCoinbaseAlreadySeen = true) :
    Agrees (t.recordEncoded key (markSent b.entry b.crossProtocolCoinbaseAlreadySeen) templateSeed
      b.entry.jobMeta.coinbaseId b.crossProtocolCoinbaseAlreadySeen) log (produced ++ [b]) := by
  obtain ⟨hid, hstate⟩ := hagrees.built key b.entry hget
  cases hseen : b.crossProtocolCoinbaseAlreadySeen with
  | true =>
      have hsends : sendsCoinbase b.entry b.crossProtocolCoinbaseAlreadySeen = false := by
        rw [hseen, sendsCoinbase, Bool.not_true, Bool.and_false]
      exact (hagrees.recordEncoded_of_seen hget templateSeed).append_of_sendsFor_false
        (sendsFor_of_sendsCoinbase_false hsends) hstate
  | false =>
      obtain rfl : templateSeed = b.entry.templateSeed :=
        hseed.resolve_right (by rw [hseen]; exact Bool.false_ne_true)
      have hunseen :
          (b.entry.templateSeed, b.entry.jobMeta.coinbaseId) ∉ t.seenTemplateCoinbase := by
        rw [hseen, eq_comm, Tracker.crossProtocolCoinbaseAlreadySeen, decide_eq_false_iff_not]
          at hxprot
        exact hxprot
      have hflag : coinbaseFlag b.entry = false := by
        rw [← Bool.not_eq_true]
        exact fun h => hunseen (hagrees.flagged key b.entry hget h)
      have hsends : sendsCoinbase b.entry b.crossProtocolCoinbaseAlreadySeen = true := by
        rw [coinbaseFlag] at hflag
        rw [hseen, sendsCoinbase, hflag]
        rfl
      have hinserted := seenTemplateCoinbase_recordEncoded_false t key hid b.entry.templateSeed
      refine hagrees.append_of_unseen hsends hunseen hinserted hstate ?_ ?_
      · intro key' entry hget' hflag'
        rw [hinserted, Finset.mem_insert]
        rcases get_recordEncoded_cases hget' with rfl | hget'
        · exact Or.inl rfl
        · exact Or.inr (hagrees.flagged key' entry hget' hflag')
      · exact fun key' entry => hagrees.built_recordEncoded hget

end Tracking

/-! The templates that the tasks of the gateway work on were published. -/

def assembledTemplate : AssemblerPhase → Option TemplateState
  | .waiting => none
  | .woken state => some state
  | .indexed state _ => some state
  | .inserted state _ => some state

def seedingTemplate : ConnectionPhase → Option TemplateState
  | .seeding _ _ seedTemplate => seedTemplate
  | _ => none

structure HoldsPublished {σ : Type} (g : GatewayState σ) (log : List TemplateState) : Prop where
  published : ∀ state ∈ g.published, state ∈ log
  assembled : ∀ state ∈ assembledTemplate g.assembler, state ∈ log
  seeding : ∀ id conn, g.connections.lookup id = some conn →
    ∀ state ∈ seedingTemplate conn.phase, state ∈ log

section Runs

variable {sha256d : Bytes → Bytes32} {userCfg : ShareUserConfig} {σ : Type}
variable {alloc : ExtranonceAllocator σ} {newManager : Manager σ} {log : List TemplateState}

theorem HoldsPublished.connectionStep {g : GatewayState σ} (hholds : HoldsPublished g log)
    {conn conn' : Connection σ} {a : ConnectionAction} {tracker : Tracker}
    (hstep : connectionStep sha256d alloc g conn a = some (conn', tracker)) :
    ∀ state ∈ seedingTemplate conn'.phase, state ∈ log := by
  have hnone : ∀ state ∈ (none : Option TemplateState), state ∈ log := by
    intro state hstate
    cases hstate
  cases connectionStep_cases hstep with
  | seedRead frames template hphase => exact hholds.published
  | noTemplate ids template hphase hids =>
      rw [hphase]
      exact hnone
  | closeChannel channelId template hphase =>
      dsimp only
      rw [hphase]
      exact hnone
  | _ => exact hnone

theorem HoldsPublished.of_subset {g : GatewayState σ} {log' : List TemplateState}
    (hholds : HoldsPublished g log) (hlog : log ⊆ log') : HoldsPublished g log' where
  published state hstate := hlog (hholds.published state hstate)
  assembled state hstate := hlog (hholds.assembled state hstate)
  seeding id conn hconn state hstate := hlog (hholds.seeding id conn hconn state hstate)

theorem HoldsPublished.publish {g : GatewayState σ} (hholds : HoldsPublished g log)
    {state : TemplateState} (hstate : state ∈ log) :
    HoldsPublished
      { g with
        published := some state
        assemblerUnseen := true
        connections := mapValues (fun conn => { conn with templateUnseen := true })
          g.connections } log where
  published state' hstate' := by
    obtain rfl := Option.some.inj hstate'
    exact hstate
  assembled := hholds.assembled
  seeding id conn' hconn' := by
    rw [lookup_mapValues] at hconn'
    obtain ⟨conn, hconn, rfl⟩ := Option.map_eq_some_iff.mp hconn'
    exact hholds.seeding id conn hconn

theorem HoldsPublished.keep {g g' : GatewayState σ} {a : GatewayAction}
    (hholds : HoldsPublished g log) (hquiet : ∀ state, a ≠ .publish state)
    (hstep : gatewayStep sha256d alloc newManager g a = some g') : HoldsPublished g' log := by
  cases gatewayStep_cases hstep with
  | publish state => exact absurd rfl (hquiet state)
  | assemblerWake state hphase hpublished =>
      refine ⟨hholds.published, fun state' hstate' => ?_, hholds.seeding⟩
      obtain rfl := Option.some.inj hstate'
      exact hholds.published state hpublished
  | assemblerIndex state hphase =>
      refine ⟨hholds.published, fun state' hstate' => ?_, hholds.seeding⟩
      exact hholds.assembled state' (by rw [hphase]; exact hstate')
  | assemblerInsert state datumJobIdx hphase =>
      refine ⟨hholds.published, fun state' hstate' => ?_, hholds.seeding⟩
      exact hholds.assembled state' (by rw [hphase]; exact hstate')
  | assemblerNotify state params hphase =>
      refine ⟨hholds.published, fun state' hstate' => ?_, hholds.seeding⟩
      cases hstate'
  | accept id =>
      refine ⟨hholds.published, hholds.assembled, fun id' conn' hconn' state hstate => ?_⟩
      rcases lookup_insert_eq_some_iff.mp hconn' with ⟨-, rfl⟩ | ⟨-, hconn⟩
      · cases hstate
      · exact hholds.seeding id' conn' hconn state hstate
  | disconnect id =>
      refine ⟨hholds.published, hholds.assembled, fun id' conn' hconn' => ?_⟩
      exact hholds.seeding id' conn' (lookup_erase_eq_some_iff.mp hconn').2
  | connection id b conn conn' tracker hconn hinner =>
      refine ⟨hholds.published, hholds.assembled, fun id' conn'' hconn'' => ?_⟩
      rcases lookup_insert_eq_some_iff.mp hconn'' with ⟨-, rfl⟩ | ⟨-, hother⟩
      · exact hholds.connectionStep hinner
      · exact hholds.seeding id' conn'' hother
  -- the tracker is not what the templates are held in
  | encodeShare => exact ⟨hholds.published, hholds.assembled, hholds.seeding⟩
  | upstreamReconnect => exact ⟨hholds.published, hholds.assembled, hholds.seeding⟩

theorem Agrees.gateway {s : UpstreamState σ} {gateway : GatewayState σ} {a : GatewayAction}
    {produced : List EncodedBody} (hagrees : Agrees s.gateway.tracker log produced)
    (hholds : HoldsPublished s.gateway log) (hfree : freeFor s a = true)
    (hstep : gatewayStep sha256d alloc newManager s.gateway a = some gateway) :
    Agrees gateway.tracker log produced := by
  cases trackerStep_of_gatewayStep hstep with
  | same a htracker hdrawn =>
      rwa [htracker]
  | index hdrawn htracker hindexed =>
      rw [htracker]
      exact hagrees.of_get rfl fun _ _ hget => hget
  | insert state datumJobIdx hindexed htracker hdrawn =>
      rw [htracker]
      exact hagrees.insert _ datumJobIdx (hholds.assembled state (by rw [hindexed]; rfl))
  | seed id conn frames template seedTemplate hconn hphase htracker hassembler =>
      rw [htracker]
      refine hagrees.seedJobTracker (fun state hstate => ?_) frames
      exact hholds.seeding id conn hconn state (by rw [hphase]; exact hstate)
  | encode key templateSeed entry xprotSeen hget hseen htracker hassembler => cases hfree
  | reset htracker hassembler => cases hfree

theorem Agrees.encodeShare {s : UpstreamState σ} {gateway : GatewayState σ} {key : JobKey}
    {entry : JobEntry} {inputs : SubmittedShareInputs} {seed : UInt64} {paddingByte : UInt8}
    {produced : List EncodedBody} (hagrees : Agrees s.gateway.tracker log produced)
    (hget : s.gateway.tracker.get key = some entry)
    (hguard : seed = entry.templateSeed ∨
      s.gateway.tracker.crossProtocolCoinbaseAlreadySeen seed entry.jobMeta.coinbaseId = true)
    (hgateway : gatewayStep sha256d alloc newManager s.gateway (.encodeShare key seed) =
      some gateway) :
    Agrees gateway.tracker log (produced ++
      [encodeBody sha256d userCfg s.gateway.tracker entry inputs seed paddingByte]) := by
  rw [gatewayStep_encodeShare hget] at hgateway
  obtain rfl := Option.some.inj hgateway
  exact hagrees.encode (b := encodeBody sha256d userCfg s.gateway.tracker entry inputs seed
    paddingByte) hget rfl hguard

structure SentinelInvariant (s : LoggedState σ) : Prop where
  agrees : Agrees s.upstream.gateway.tracker s.published s.produced
  holds : HoldsPublished s.upstream.gateway s.published

theorem HoldsPublished.upstreamStep {s t : UpstreamState σ} {a : UpstreamAction}
    (hholds : HoldsPublished s.gateway log)
    (hstep : upstreamStep sha256d userCfg alloc newManager s a = some t) :
    HoldsPublished t.gateway (log ++ publishes a) := by
  have hafter := hholds.of_subset (List.subset_append_left log (publishes a))
  cases upstreamStep_cases hstep with
  | gateway b gateway hfree hgateway =>
      cases b with
      | publish state =>
          obtain rfl := Option.some.inj hgateway
          exact hafter.publish (List.mem_append_right _ (List.mem_singleton_self _))
      | _ => exact hafter.keep (fun _ hpublish => by cases hpublish) hgateway
  | relayEncode _ _ _ _ gateway _ _ hgateway =>
      exact hafter.keep (fun _ hpublish => by cases hpublish) hgateway
  | sessionEncode _ _ _ _ _ _ _ gateway _ _ hgateway =>
      exact hafter.keep (fun _ hpublish => by cases hpublish) hgateway
  | connect gateway _ hgateway => exact hafter.keep (fun _ hpublish => by cases hpublish) hgateway
  -- the rest of the way is not the gateway's
  | _ => exact hafter

theorem SentinelInvariant.step {s t : LoggedState σ} {a : UpstreamAction}
    (hinv : SentinelInvariant s) (hguard : keepsSentinel s a = true)
    (hstep : loggedStep sha256d userCfg alloc newManager s a = some t) : SentinelInvariant t := by
  obtain ⟨upstream, hupstream, rfl⟩ := Option.map_eq_some_iff.mp hstep
  refine ⟨?_, hinv.holds.upstreamStep hupstream⟩
  have hagrees := hinv.agrees
  have hsame : upstream.gateway = s.upstream.gateway →
      Agrees upstream.gateway.tracker s.published (s.produced ++ []) := by
    intro hgateway
    rwa [hgateway, List.append_nil]
  refine Agrees.of_log_subset ?_ (List.subset_append_left s.published (publishes a))
  cases upstreamStep_cases hupstream with
  | gateway a gateway hfree hgateway =>
      have hafter : Agrees gateway.tracker s.published s.produced :=
        hagrees.gateway hinv.holds hfree hgateway
      rwa [← List.append_nil s.produced] at hafter
  | relayDrops share paddingByte hrelay =>
      show Agrees s.upstream.gateway.tracker s.published (s.produced ++ s.upstream.relay.toList)
      rw [hrelay]
      exact hsame rfl
  | relayEncode share paddingByte entry inputs gateway hrelay hrelayed hgateway =>
      exact hagrees.encodeShare (get_of_relayedWith hrelayed) (Or.inl rfl) hgateway
  | sessionRejects id submission paddingByte seedRead hsession =>
      show Agrees s.upstream.gateway.tracker s.published
        (s.produced ++ (((s.upstream.sessions.erase id).lookup id).bind SubmitPhase.body).toList)
      rw [AList.lookup_erase]
      exact hsame rfl
  | sessionEncode id submission paddingByte seedRead seed channel entry gateway hsession haccepts
      hgateway =>
      show Agrees gateway.tracker s.published (s.produced ++
        (((s.upstream.sessions.insert id (.sending _)).lookup id).bind SubmitPhase.body).toList)
      rw [AList.lookup_insert]
      refine hagrees.encodeShare (get_of_sessionAccepts haccepts) ?_ hgateway
      simpa [keepsSentinel, haccepts] using hguard
  | connect gateway hlink hgateway =>
      obtain rfl := Option.some.inj hgateway
      exact hagrees.resetSendOnceFlags
  -- the tracker and the log are what they were
  | _ => exact hsame rfl

theorem sentinelInvariant_start : SentinelInvariant ({} : LoggedState σ) := by
  constructor
  · constructor
    · intro seed coinbaseId hmem
      cases hmem
    · intro seed coinbaseId b hb
      cases hb
    · exact fun _ _ => Nat.zero_le 1
    · intro key entry hget
      cases hget
    · intro key entry hget
      cases hget
    · intro b hb
      cases hb
  · constructor
    · intro state hstate
      cases hstate
    · intro state hstate
      cases hstate
    · intro id conn hconn
      cases hconn

theorem SentinelInvariant.sound {s : LoggedState σ} (hinv : SentinelInvariant s) :
    SentinelSound s where
  seen seed coinbaseId hmem := by
    obtain ⟨b, hb, hsends⟩ := hinv.agrees.seen seed coinbaseId hmem
    obtain ⟨state, hstate, hentry⟩ := hinv.agrees.bodies b hb
    obtain ⟨hseed, hcarries⟩ := carries_of_sendsFor hsends hentry
    exact ⟨state, hstate, hseed, b, hb, hcarries, coinbaseBlock_isInfix_bytes hcarries⟩
  once := hinv.agrees.once
  published := hinv.agrees.bodies

end Runs

/-- In every run in which a share of a job whose template is not the published one is only encoded
while the sentinel holds the published one. -/
theorem reachable_sentinelSound (sha256d : Bytes → Bytes32) (userCfg : ShareUserConfig) {σ : Type}
    (alloc : ExtranonceAllocator σ) (newManager : Manager σ) (t : LoggedState σ)
    (hreaches : Reaches (loggedStep sha256d userCfg alloc newManager)
      (fun s a => keepsSentinel s a = true) {} t) : SentinelSound t := by
  have hinv : SentinelInvariant t :=
    hreaches.invariant sentinelInvariant_start fun s a t hinv hguard hstep =>
      hinv.step hguard hstep
  exact hinv.sound

theorem sentinelSound_of_both_protocols :
    let step := loggedStep (fun _ => ByteVec.fill 32 0) poolUser countingAllocator emptyManager
    ∃ t, Reaches step (fun s a => keepsSentinel s a = true) {} t ∧
      decide (t.produced.length = 2 ∧ t.upstream.gateway.tracker.seenTemplateCoinbase.card = 1) =
        true ∧ SentinelSound t := by
  intro step
  obtain ⟨t, hreaches, hproduced⟩ := exists_reaches_of_runGuarded step keepsSentinel {}
    (.connect :: (offerJobs ++
      [.relayEncode firstSv1Share 0, .sessionRead 0, .sessionEncode 0 firstShare 0]))
    (fun t => decide (t.produced.length = 2 ∧
      t.upstream.gateway.tracker.seenTemplateCoinbase.card = 1)) (by decide +kernel)
  exact ⟨t, hreaches, hproduced,
    reachable_sentinelSound (fun _ => ByteVec.fill 32 0) poolUser countingAllocator emptyManager t
      hreaches⟩

def nextTemplate : TemplateState :=
  plainState (fun _ => ByteVec.fill 32 0) { emptyTemplate with height := 2 } {} 1

/-- A share of a job of the first template, encoded once the second one is published, whose
coinbase no body carries. -/
theorem late_share_poisons_sentinel :
    let step := loggedStep (fun _ => ByteVec.fill 32 0) poolUser countingAllocator emptyManager
    ∃ t, Reachable step {} t ∧ ¬ SentinelSound t := by
  intro step
  obtain ⟨t, hreachable, hpoisoned⟩ := exists_reachable_of_runActions step {}
    (.connect :: (offerJobs ++
      [.gateway (.publish nextTemplate), .sessionRead 0, .sessionEncode 0 firstShare 0]))
    (fun t => decide (((1 : UInt64), (0 : UInt8)) ∈
        t.upstream.gateway.tracker.seenTemplateCoinbase) &&
      t.published.all fun state => state.jobIdSeed != 1 || t.produced.all fun b =>
        !carries state 0 b) (by decide +kernel)
  refine ⟨t, hreachable, ?_⟩
  intro hsound
  rw [Bool.and_eq_true, decide_eq_true_eq, List.all_eq_true] at hpoisoned
  obtain ⟨state, hstate, hseed, b, hb, hcarries, -⟩ := hsound.seen 1 0 hpoisoned.1
  have hnone := hpoisoned.2 state hstate
  rw [hseed, bne_self_eq_false, Bool.false_or, List.all_eq_true] at hnone
  have hnot := hnone b hb
  rw [hcarries] at hnot
  cases hnot

end DatumGateway.SentinelSoundness
