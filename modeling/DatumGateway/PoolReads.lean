import DatumGateway.ConcurrentSends
import DatumGateway.SharePipeline
import Mathlib.Data.List.Forall2

namespace DatumGateway.PoolReads

open DatumGateway.AnnounceBeforeUse
open DatumGateway.ByteString
open DatumGateway.ChannelManager
open DatumGateway.ConcurrentSends
open DatumGateway.FrameSends
open DatumGateway.GatewayJobs
open DatumGateway.MiningListener
open DatumGateway.ShareEncoder
open DatumGateway.SharePath
open DatumGateway.SharePipeline
open DatumGateway.TaggedLogs
open DatumGateway.TransitionSystem
open DatumGateway.UpstreamFrames
open DatumGateway.UpstreamLink

/-- The frames that the send loop of a connection makes of its commands. -/
inductive SentFrame where
  | share (body : EncodedBody)
  | coinbaserRequest (coinbaseValue : UInt64) (prevhashBin : Bytes32) (padding : Bytes)

namespace SentFrame

def body : SentFrame → Bytes
  | .share body => body.bytes
  | .coinbaserRequest coinbaseValue prevhashBin padding =>
      [0x10] ++ leBytes 8 coinbaseValue.toNat ++ prevhashBin.toList ++ [0xFE] ++ padding

def plain (f : SentFrame) : PlainFrame :=
  channelFrame 5 f.body

def share? : SentFrame → Option EncodedBody
  | .share body => some body
  | .coinbaserRequest _ _ _ => none

end SentFrame

def shareBodies (frames : List SentFrame) : List EncodedBody :=
  frames.filterMap SentFrame.share?

/-- The gateway with the frames of its connections.  Of the last frame of a connection, only a part
may have been written. -/
structure WireState (σ : Type) where
  traced : TracedState σ := {}
  frames : List SentFrame := []
  past : List (List SentFrame) := []

/-- The frames of each connection, the one that is up last. -/
def WireState.connections {σ : Type} (s : WireState σ) : List (List SentFrame) :=
  s.past ++ s.traced.state.link.toList.map fun _ => s.frames

inductive WireAction where
  | upstream (a : UpstreamAction)
  | request (coinbaseValue : UInt64) (prevhashBin : Bytes32) (padding : Bytes)
  /-- The frame of the next share is begun, and its write fails. -/
  | shareFails
  | requestFails (coinbaseValue : UInt64) (prevhashBin : Bytes32) (padding : Bytes)

section Steps

variable (sha256d : Bytes → Bytes32) (userCfg : ShareUserConfig) {σ : Type}
variable (alloc : ExtranonceAllocator σ) (newManager : Manager σ)

/-- The share that the send loop turns to next. -/
def nextShare (s : UpstreamState σ) : Option EncodedBody := do
  let link ← s.link
  if link.running then link.queue.head? else none

/-- The requests are sent by the loop that sends the shares, with at most 80 bytes of padding. -/
def maySend (s : UpstreamState σ) (padding : Bytes) : Bool :=
  s.link.any Link.running && 1 ≤ padding.length && padding.length ≤ 80

def wireStep (s : WireState σ) : WireAction → Option (WireState σ)
  | .upstream a =>
      (tracedStep sha256d userCfg alloc newManager s.traced a).map fun traced =>
        match a with
        | .write =>
            { s with
              traced
              frames := s.frames ++ (nextShare s.traced.state).toList.map SentFrame.share }
        | .tearDown => { traced, frames := [], past := s.past ++ [s.frames] }
        | _ => { s with traced }
  | .request coinbaseValue prevhashBin padding =>
      if maySend s.traced.state padding then
        some { s with
          frames := s.frames ++ [.coinbaserRequest coinbaseValue prevhashBin padding] }
      else none
  | .shareFails => do
      let body ← nextShare s.traced.state
      (tracedStep sha256d userCfg alloc newManager s.traced .writeFails).map fun traced =>
        { s with traced, frames := s.frames ++ [.share body] }
  | .requestFails coinbaseValue prevhashBin padding =>
      if maySend s.traced.state padding then
        (tracedStep sha256d userCfg alloc newManager s.traced .writeFails).map fun traced =>
          { s with
            traced
            frames := s.frames ++ [.coinbaserRequest coinbaseValue prevhashBin padding] }
      else none

variable {sha256d userCfg alloc newManager}

theorem nextShare_eq_some_iff {s : UpstreamState σ} {body : EncodedBody} :
    nextShare s = some body ↔
      ∃ link queue, s.link = some link ∧ link.running = true ∧ link.queue = body :: queue := by
  cases hlink : s.link with
  | none => simp [nextShare, hlink]
  | some link =>
      cases hrunning : link.running with
      | false => simp [nextShare, hlink, hrunning]
      | true => simp [nextShare, hlink, hrunning, List.head?_eq_some_iff]

theorem link_ne_none_of_maySend {s : UpstreamState σ} {padding : Bytes}
    (hsend : maySend s padding = true) : s.link ≠ none := by
  intro hlink
  simp [maySend, hlink] at hsend

/-- What the connection that is up holds and has not begun to write. -/
def unsent (s : UpstreamState σ) : List EncodedBody :=
  s.link.toList.flatMap fun link => link.queue ++ link.bridge.toList

/-- The bodies that were begun on the connections were taken out of the queue of commands before
those that are held, each of them once. -/
structure Carried (s : WireState σ) : Prop where
  conserved : Conserved s.traced
  offline : s.traced.state.link = none → s.frames = []
  passedOn : (shareBodies (s.past.flatten ++ s.frames) ++ unsent s.traced.state).Sublist
    s.traced.drained

@[simp] theorem shareBodies_append (frames frames' : List SentFrame) :
    shareBodies (frames ++ frames') = shareBodies frames ++ shareBodies frames' :=
  List.filterMap_append

@[simp] theorem shareBodies_share (body : EncodedBody) : shareBodies [.share body] = [body] := rfl

@[simp] theorem shareBodies_request (coinbaseValue : UInt64) (prevhashBin : Bytes32)
    (padding : Bytes) :
    shareBodies [.coinbaserRequest coinbaseValue prevhashBin padding] = [] := rfl

theorem unsent_of_link {s : UpstreamState σ} {link : Link} (hlink : s.link = some link) :
    unsent s = link.queue ++ link.bridge.toList := by
  rw [unsent, hlink, Option.toList_some, List.flatMap_singleton]

theorem Carried.passedOn_of_sublist {s : WireState σ} (hs : Carried s) {link : Link}
    (hlink : s.traced.state.link = some link) (link' : Link) (frames : List SentFrame)
    (hsub : (shareBodies frames ++ (link'.queue ++ link'.bridge.toList)).Sublist
      (link.queue ++ link.bridge.toList)) :
    (shareBodies (s.past.flatten ++ (s.frames ++ frames)) ++
      unsent { s.traced.state with link := some link' }).Sublist s.traced.drained := by
  have hpassedOn := hs.passedOn
  rw [unsent_of_link hlink] at hpassedOn
  rw [unsent_of_link rfl, ← List.append_assoc s.past.flatten, shareBodies_append _ frames,
    List.append_assoc]
  exact ((List.Sublist.refl _).append hsub).trans hpassedOn

theorem Carried.online {s : WireState σ} {link : Link} (hlink : s.traced.state.link = some link)
    (hconserved : Conserved s.traced)
    (hpassedOn : (shareBodies (s.past.flatten ++ s.frames) ++ unsent s.traced.state).Sublist
      s.traced.drained) : Carried s := by
  refine ⟨hconserved, fun hoffline => ?_, hpassedOn⟩
  rw [hlink] at hoffline
  cases hoffline

theorem Carried.of_link_eq {s : WireState σ} (hs : Carried s) {traced : TracedState σ}
    (hconserved : Conserved traced) (hlink : traced.state.link = s.traced.state.link)
    (hdrained : traced.drained = s.traced.drained) : Carried { s with traced } := by
  refine ⟨hconserved, fun hnone => hs.offline (hlink.symm.trans hnone), ?_⟩
  have hpassedOn := hs.passedOn
  rw [unsent, ← hlink, ← hdrained] at hpassedOn
  exact hpassedOn

theorem Carried.upstream {s t : WireState σ} {a : UpstreamAction} (hs : Carried s)
    (hstep : wireStep sha256d userCfg alloc newManager s (.upstream a) = some t) : Carried t := by
  obtain ⟨traced, htraced, rfl⟩ := Option.map_eq_some_iff.mp hstep
  have hconserved := hs.conserved.step htraced
  obtain ⟨state, hstate, rfl⟩ := Option.map_eq_some_iff.mp htraced
  cases upstreamStep_cases hstate with
  | gateway | relayDrops | relayEncode | relaySend | sessionRead | sessionRejects | sessionEncode
  | sessionSend | sv2BridgeRecv | sv2BridgeSend => exact hs.of_link_eq hconserved rfl rfl
  | connect gateway hlink hgateway =>
      refine ⟨hconserved, fun _ => hs.offline hlink, ?_⟩
      have hpassedOn := hs.passedOn
      rw [unsent, hlink] at hpassedOn
      exact hpassedOn
  | bridgeRecv link body commands hlink hcommands hbridge =>
      refine Carried.online rfl hconserved ?_
      have hpassedOn := hs.passedOn.append_right [body]
      rw [unsent_of_link hlink, hbridge, Option.toList_none, List.append_nil,
        List.append_assoc] at hpassedOn
      simpa [record, unsent, hcommands] using hpassedOn
  | bridgeDrops link hlink hstopped =>
      refine Carried.online rfl hconserved ?_
      have hpassedOn := hs.passedOn_of_sublist hlink
        { link with bridge := none, bridgeEnded := true } [] (by simp [shareBodies])
      rwa [List.append_nil] at hpassedOn
  | bridgeSend link body hlink hbridge =>
      refine Carried.online rfl hconserved ?_
      have hpassedOn := hs.passedOn_of_sublist hlink
        { link with bridge := none, queue := link.queue ++ [body] } []
        (by simp [shareBodies, hbridge])
      rwa [List.append_nil] at hpassedOn
  | write link body queue hlink hrunning hqueue =>
      refine Carried.online rfl hconserved ?_
      have hnext : nextShare s.traced.state = some body :=
        nextShare_eq_some_iff.mpr ⟨link, queue, hlink, hrunning, hqueue⟩
      rw [hnext]
      exact hs.passedOn_of_sublist hlink { link with queue, written := link.written ++ [body] }
        [.share body] (by simp [hqueue])
  | writeFails link hlink =>
      refine Carried.online rfl hconserved ?_
      have hpassedOn := hs.passedOn_of_sublist hlink { link with running := false, queue := [] } []
        (by simp [shareBodies])
      rwa [List.append_nil] at hpassedOn
  | tearDown link hlink =>
      refine ⟨hconserved, fun _ => rfl, ?_⟩
      have hpassedOn := (List.sublist_append_left _ _).trans hs.passedOn
      simpa [record, unsent] using hpassedOn

theorem Carried.fails {s : WireState σ} {traced : TracedState σ} {frame : SentFrame} {link : Link}
    (hs : Carried s) (hlink : s.traced.state.link = some link)
    (hframe : (shareBodies [frame]).Sublist link.queue)
    (htraced : tracedStep sha256d userCfg alloc newManager s.traced .writeFails = some traced) :
    Carried { s with traced, frames := s.frames ++ [frame] } := by
  have hconserved := hs.conserved.step htraced
  obtain ⟨state, hstate, rfl⟩ := Option.map_eq_some_iff.mp htraced
  cases upstreamStep_cases hstate with
  | writeFails link' hlink' =>
      obtain rfl := Option.some.inj (hlink.symm.trans hlink')
      refine Carried.online rfl hconserved ?_
      exact hs.passedOn_of_sublist hlink { link with running := false, queue := [] } [frame]
        (by simpa using hframe.append (List.Sublist.refl link.bridge.toList))

theorem Carried.step {s t : WireState σ} {a : WireAction} (hs : Carried s)
    (hstep : wireStep sha256d userCfg alloc newManager s a = some t) : Carried t := by
  cases a with
  | upstream a => exact hs.upstream hstep
  | request coinbaseValue prevhashBin padding =>
      obtain ⟨hsend, hstep⟩ := Option.ite_none_right_eq_some.mp hstep
      obtain rfl := Option.some.inj hstep
      refine ⟨hs.conserved, fun hnone => absurd hnone (link_ne_none_of_maySend hsend), ?_⟩
      have hpassedOn := hs.passedOn
      simpa using hpassedOn
  | shareFails =>
      obtain ⟨body, hnext, hstep⟩ := Option.bind_eq_some_iff.mp hstep
      obtain ⟨traced, htraced, rfl⟩ := Option.map_eq_some_iff.mp hstep
      obtain ⟨link, queue, hlink, -, hqueue⟩ := nextShare_eq_some_iff.mp hnext
      exact hs.fails hlink (by simp [hqueue]) htraced
  | requestFails coinbaseValue prevhashBin padding =>
      obtain ⟨hsend, hstep⟩ := Option.ite_none_right_eq_some.mp hstep
      obtain ⟨traced, htraced, rfl⟩ := Option.map_eq_some_iff.mp hstep
      obtain ⟨link, hlink⟩ := Option.ne_none_iff_exists'.mp (link_ne_none_of_maySend hsend)
      exact hs.fails hlink (by simp) htraced

end Steps

/-! What is read of a part of the bytes. -/

section Reads

variable {crypto : DatumCrypto} {precompKey : Bytes32}

/-- Bytes that arrive later do not change a frame that has been received. -/
theorem recvFrame_append {s s' : ChannelState} {stream rest : Bytes} {f : ReceivedFrame}
    (hframe : recvFrame crypto precompKey s stream = .frame f s' rest) (later : Bytes) :
    recvFrame crypto precompKey s (stream ++ later) = .frame f s' (rest ++ later) := by
  rw [recvFrame] at hframe
  split at hframe
  · cases hframe
  · rename_i wire hwire
    have hfour : 4 ≤ stream.length := by
      rw [ByteVec.ofBytes?] at hwire
      split_ifs at hwire with hlength
      rw [List.length_take] at hlength
      omega
    rw [recvFrame, List.take_append_of_le_length hfour, hwire, List.drop_append_of_le_length hfour]
    dsimp only at hframe ⊢
    split_ifs at hframe with hoversized hshort hsealed
    all_goals
      have hwhole := not_lt.mp hshort
      rw [if_neg hoversized, if_neg (by rw [List.length_append]; omega),
        List.take_append_of_le_length hwhole, List.drop_append_of_le_length hwhole]
    · rw [if_pos hsealed]
      split at hframe
      · cases hframe
      · obtain ⟨rfl, rfl, rfl⟩ := RecvOutcome.frame.inj hframe
        rfl
    · rw [if_neg hsealed]
      obtain ⟨rfl, rfl, rfl⟩ := RecvOutcome.frame.inj hframe
      rfl

theorem recvLoop_append (fuel : ℕ) (s : ChannelState) (stream later : Bytes)
    (hfuel : stream.length ≤ fuel) :
    recvLoop crypto precompKey fuel s stream <+:
      recvAll crypto precompKey s (stream ++ later) := by
  induction fuel generalizing s stream with
  | zero => exact List.nil_prefix
  | succ fuel ih =>
      rw [recvLoop]
      cases hframe : recvFrame crypto precompKey s stream with
      | needsMore => exact List.nil_prefix
      | failed e => exact List.nil_prefix
      | frame f s' rest =>
          have hrest := length_rest_of_recvFrame hframe
          rw [recvAll_of_frame (recvFrame_append hframe later)]
          exact (List.prefix_cons_inj f).mpr (ih s' rest (by omega))

theorem recvAll_of_part {s : ChannelState} {received sent : Bytes} (hreceived : received <+: sent) :
    recvAll crypto precompKey s received <+: recvAll crypto precompKey s sent := by
  obtain ⟨later, rfl⟩ := hreceived
  exact recvLoop_append received.length s received later le_rfl

/-- The body of a mining frame that is a share. -/
def shareOf : UInt8 × Bytes → Option Bytes
  | (protoCmd, body) => if protoCmd = 5 ∧ body.head? = some 0x27 then some body else none

/-- A pool at the other end of a connection, which some of the bytes of the frames have come to. -/
structure Reading (crypto : DatumCrypto) (overhead : ℕ) (frames : List SentFrame) where
  precompKey : Bytes32
  start : ChannelState
  sent : Bytes
  received : Bytes
  seals : SealsAndOpens crypto precompKey overhead
  encodes : encodeFrames crypto precompKey start (frames.map SentFrame.plain) = .ok sent
  arrives : received <+: sent

variable {overhead : ℕ}

def Reading.shares {frames : List SentFrame} (r : Reading crypto overhead frames) : List Bytes :=
  ((recvAll crypto r.precompKey r.start r.received).map ReceivedFrame.content).filterMap shareOf

theorem head?_bytes (body : EncodedBody) : body.bytes.head? = some 0x27 := by
  obtain ⟨share, userCfg, isBlock, paddingByte, hbytes⟩ := body.bytes_eq
  rw [hbytes]
  rfl

theorem shareOf_plain (frame : SentFrame) :
    shareOf (frame.plain.protoCmd, frame.plain.payload) = frame.share?.map EncodedBody.bytes := by
  cases frame with
  | share body => exact if_pos ⟨rfl, head?_bytes body⟩
  | coinbaserRequest coinbaseValue prevhashBin padding =>
      have hhead : ¬ ((5 : UInt8) = 5 ∧
          (SentFrame.coinbaserRequest coinbaseValue prevhashBin padding).body.head? =
            some 0x27) := by
        rintro ⟨-, hhead⟩
        cases hhead
      rw [shareOf]
      exact if_neg hhead

theorem shares_of_frames (frames : List SentFrame) :
    (frames.map fun f => (f.plain.protoCmd, f.plain.payload)).filterMap shareOf =
      (shareBodies frames).map EncodedBody.bytes := by
  rw [List.filterMap_map, shareBodies, List.map_filterMap]
  exact congrArg (frames.filterMap ·) (funext shareOf_plain)

theorem Reading.shares_eq {frames : List SentFrame} (r : Reading crypto overhead frames)
    (hfits : ∀ f ∈ frames, f.body.length + overhead < 2 ^ 22) :
    ∃ bodies, bodies <+: shareBodies frames ∧ r.shares = bodies.map EncodedBody.bytes := by
  have hplain : ∀ f ∈ frames.map SentFrame.plain, f.body.length + overhead < 2 ^ 22 := by
    intro f hf
    obtain ⟨frame, hframe, rfl⟩ := List.mem_map.mp hf
    simpa [SentFrame.plain, channelFrame, PlainFrame.body] using hfits frame hframe
  obtain ⟨fs, s', hreceives, hcontent⟩ := receives_encodeFrames r.seals hplain r.encodes
  have hreceived : recvAll crypto r.precompKey r.start r.received <+: fs :=
    recvAll_of_whole hreceives ▸ recvAll_of_part r.arrives
  have hshares := (hreceived.map ReceivedFrame.content).filterMap shareOf
  rw [hcontent, List.map_map] at hshares
  exact List.prefix_map_iff.mp (shares_of_frames frames ▸ hshares)

theorem exists_bodies_of_readings {connections : List (List SentFrame)} {reads : List (List Bytes)}
    (hreads : List.Forall₂ (fun frames shares =>
      ∃ r : Reading crypto overhead frames, r.shares = shares) connections reads)
    (hfits : ∀ frames ∈ connections, ∀ f ∈ frames, f.body.length + overhead < 2 ^ 22) :
    ∃ bodies : List EncodedBody, bodies.map EncodedBody.bytes = reads.flatten ∧
      bodies.Sublist (shareBodies connections.flatten) := by
  induction hreads with
  | nil => exact ⟨[], rfl, List.Sublist.refl []⟩
  | cons hread _ ih =>
      obtain ⟨r, rfl⟩ := hread
      obtain ⟨hfirst, hrest⟩ := List.forall_mem_cons.mp hfits
      obtain ⟨bodies, hfront, hshares⟩ := r.shares_eq hfirst
      obtain ⟨bodies', hbodies', hsub⟩ := ih hrest
      refine ⟨bodies ++ bodies', ?_, ?_⟩
      · rw [List.map_append, hbodies', List.flatten_cons, hshares]
      · rw [List.flatten_cons, shareBodies_append]
        exact hfront.sublist.append hsub

end Reads

section Runs

variable {sha256d : Bytes → Bytes32} {userCfg : ShareUserConfig} {σ : Type}
variable {alloc : ExtranonceAllocator σ} {newManager : Manager σ}

theorem connections_sublist (s : WireState σ) :
    s.connections.flatten.Sublist (s.past.flatten ++ s.frames) := by
  rw [WireState.connections, List.flatten_append]
  apply (List.Sublist.refl _).append
  cases s.traced.state.link with
  | none => exact List.nil_sublist _
  | some link => simp

/-- If no frame is too long for its header, all that the pool reads of the connections, each of
which may break off anywhere, are bodies that the gateway has encoded: of each of its tasks some of
them, in the order of the task and none of them twice. -/
theorem pool_reads_encoded {crypto : DatumCrypto} {overhead : ℕ} {gateway : GatewayState σ}
    {t : WireState σ}
    (hreachable : Reachable (wireStep sha256d userCfg alloc newManager)
      { traced := { state := { gateway } } } t)
    (hfits : ∀ frames ∈ t.connections, ∀ f ∈ frames, f.body.length + overhead < 2 ^ 22)
    {reads : List (List Bytes)}
    (hreads : List.Forall₂ (fun frames shares =>
      ∃ r : Reading crypto overhead frames, r.shares = shares) t.connections reads) :
    ∃ got : List (Origin × EncodedBody), (got.map fun entry => entry.2.bytes) = reads.flatten ∧
      ∀ origin, (ofTag origin got).Sublist (ofTag origin t.traced.encoded) := by
  have hcarried : Carried t := by
    refine hreachable.invariant ⟨?_, fun _ => rfl, List.Sublist.refl []⟩
      fun _ _ _ hs hstep => hs.step hstep
    exact ⟨fun origin => by cases origin <;> rfl, rfl, rfl, List.Sublist.refl []⟩
  obtain ⟨bodies, hbodies, hsub⟩ := exists_bodies_of_readings hreads hfits
  have hdrained : bodies.Sublist (t.traced.arrived.map Prod.snd) := by
    rw [hcarried.conserved.arrived]
    have hbegun := hsub.trans ((connections_sublist t).filterMap SentFrame.share?)
    exact ((hbegun.trans (List.sublist_append_left _ _)).trans hcarried.passedOn).trans
      (List.sublist_append_left _ _)
  obtain ⟨got, hgot, hsublists⟩ := exists_entries_of_sublist hdrained
  refine ⟨got, ?_, fun origin => (hsublists origin).trans ?_⟩
  · rw [← hbodies, ← hgot, List.map_map]
    rfl
  · rw [hcarried.conserved.inOrder origin]
    exact List.sublist_append_left _ _

end Runs

/-- The shares that are read of the frames if their last byte is lost. -/
def readAllButLast (precompKey : Bytes32) (start : ChannelState) (frames : List SentFrame) :
    Option (List Bytes) :=
  (encodeFrames tagCrypto precompKey start (frames.map SentFrame.plain)).toOption.map fun sent =>
    ((recvAll tagCrypto precompKey start sent.dropLast).map ReceivedFrame.content).filterMap shareOf

theorem exists_reading_of_readAllButLast {precompKey : Bytes32} {start : ChannelState}
    {frames : List SentFrame} {shares : List Bytes}
    (hread : readAllButLast precompKey start frames = some shares) :
    ∃ r : Reading tagCrypto 16 frames, r.shares = shares := by
  obtain ⟨sent, hsent, rfl⟩ := Option.map_eq_some_iff.mp hread
  cases hencode : encodeFrames tagCrypto precompKey start (frames.map SentFrame.plain) with
  | error e =>
      rw [hencode] at hsent
      cases hsent
  | ok bytes =>
      rw [hencode] at hsent
      obtain rfl := Option.some.inj hsent
      exact ⟨⟨precompKey, start, bytes, bytes.dropLast, sealsAndOpens_tagCrypto precompKey, hencode,
        List.dropLast_prefix bytes⟩, rfl⟩

/-- A request and a share, and a second share whose write fails: its last byte does not arrive. -/
theorem pool_reads_encoded_of_failed_write :
    let step := wireStep (fun _ => ByteVec.fill 32 0) poolUser countingAllocator emptyManager
    ∃ t, Reachable step { traced := { state := { gateway := {} } } } t ∧
      decide (t.connections.map List.length = [3] ∧ t.traced.encoded.length = 2) = true ∧
      ∃ shares, shares.length = 1 ∧
        ∃ got : List (Origin × EncodedBody),
          (got.map fun entry => entry.2.bytes) = [shares].flatten ∧
          ∀ origin, (ofTag origin got).Sublist (ofTag origin t.traced.encoded) := by
  intro step
  obtain ⟨t, hreachable, hchecked⟩ := exists_reachable_of_runActions step
    { traced := { state := { gateway := {} } } }
    (((.connect :: (offerJobs ++ [.relayEncode firstSv1Share 0, .relaySend,
        .relayEncode firstSv1Share 0, .relaySend, .bridgeRecv, .bridgeSend, .bridgeRecv,
        .bridgeSend])).map .upstream) ++
      [.request 0 (ByteVec.fill 32 0) [0], .upstream .write, .shareFails])
    (fun t => decide (t.connections.map List.length = [3] ∧ t.traced.encoded.length = 2) &&
      t.connections.all (fun frames => frames.all fun f => f.body.length + 16 < 2 ^ 22) &&
      decide ((readAllButLast (ByteVec.fill 32 0) (senderStart 0 (ByteVec.fill 32 0))
        t.connections.flatten).map List.length = some 1)) (by decide +kernel)
  rw [Bool.and_eq_true, Bool.and_eq_true] at hchecked
  obtain ⟨⟨hlengths, hfits⟩, hread⟩ := hchecked
  obtain ⟨frames, hframes, -⟩ := List.map_eq_singleton_iff.mp (of_decide_eq_true hlengths).1
  obtain ⟨shares, hshares, hlength⟩ := Option.map_eq_some_iff.mp (of_decide_eq_true hread)
  rw [hframes, List.flatten_singleton] at hshares
  refine ⟨t, hreachable, hlengths, shares, hlength, ?_⟩
  refine @pool_reads_encoded _ _ _ _ _ tagCrypto 16 _ t hreachable ?_ [shares] ?_
  · simpa using hfits
  · rw [hframes]
    exact .cons (exists_reading_of_readAllButLast hshares) .nil

end DatumGateway.PoolReads
