import DatumGateway.SharePipeline
import Mathlib.Data.List.Forall2
import Mathlib.Data.List.ReduceOption

/-!
The SV1 shares before they are encoded: the connections put them into one bounded queue
and tell their miners that they are accepted, and the relay takes them out one by one.
-/

namespace DatumGateway.SubmitRelay

open DatumGateway.AnnounceBeforeUse
open DatumGateway.ByteString
open DatumGateway.ChannelManager
open DatumGateway.GatewayJobs
open DatumGateway.JobTracker
open DatumGateway.KeyedMaps
open DatumGateway.MiningListener
open DatumGateway.ShareEncoder
open DatumGateway.SharePath
open DatumGateway.SharePipeline
open DatumGateway.ShareRelay
open DatumGateway.StratumV1Server
open DatumGateway.TaggedLogs
open DatumGateway.TransitionSystem
open DatumGateway.UpstreamLink

/-- The SV1 connections by number, in front of the way upstream. -/
structure RelayState (σ : Type) where
  upstream : TracedState σ := {}
  /-- The shares that wait for room in the queue. -/
  hands : KeyMap ℕ SubmittedShare := ∅
  queue : List (ℕ × SubmittedShare) := []
  /-- The share that the relay has received, and not yet looked up. -/
  received : Option (ℕ × SubmittedShare) := none
  submitted : List (ℕ × SubmittedShare) := []
  acknowledged : List (ℕ × SubmittedShare) := []
  taken : List (ℕ × SubmittedShare) := []

inductive RelayAction where
  /-- A connection has parsed a `mining.submit`. -/
  | submit (clientId : ℕ) (share : SubmittedShare)
  | enqueue (clientId : ℕ)
  | recv
  /-- The relay encodes the share it has received, or drops it. -/
  | relay (paddingByte : UInt8)
  | upstream (a : UpstreamAction)

def submitQueueSize : ℕ := 64

def isRelayEncode : UpstreamAction → Bool
  | .relayEncode _ _ => true
  | _ => false

section Steps

variable (sha256d : Bytes → Bytes32) (userCfg : ShareUserConfig) {σ : Type}
variable (alloc : ExtranonceAllocator σ) (newManager : Manager σ)

def relayStep (s : RelayState σ) : RelayAction → Option (RelayState σ)
  | .submit clientId share =>
      if (s.hands.lookup clientId).isSome then none
      else
        some { s with
          hands := s.hands.insert clientId share
          submitted := s.submitted ++ [(clientId, share)] }
  | .enqueue clientId => do
      -- The reply to the miner is part of this step.
      let share ← s.hands.lookup clientId
      if s.queue.length < submitQueueSize then
        some { s with
          hands := s.hands.erase clientId
          queue := s.queue ++ [(clientId, share)]
          acknowledged := s.acknowledged ++ [(clientId, share)] }
      else none
  | .recv =>
      match s.queue with
      | [] => none
      | entry :: queue =>
          -- The relay has sent its last body before it comes back to the queue.
          if s.received.isSome || s.upstream.state.relay.isSome then none
          else some { s with queue, received := some entry }
  | .relay paddingByte => do
      let (clientId, share) ← s.received
      let upstream ← tracedStep sha256d userCfg alloc newManager s.upstream
        (.relayEncode share paddingByte)
      some { s with upstream, received := none, taken := s.taken ++ [(clientId, share)] }
  | .upstream a =>
      if isRelayEncode a then none
      else
        (tracedStep sha256d userCfg alloc newManager s.upstream a).map fun upstream =>
          { s with upstream }

/-- What an action does, and when it can happen. -/
inductive RelayStep (s : RelayState σ) : RelayAction → RelayState σ → Prop where
  | submit (clientId : ℕ) (share : SubmittedShare) (hhand : s.hands.lookup clientId = none) :
      RelayStep s (.submit clientId share)
        { s with
          hands := s.hands.insert clientId share
          submitted := s.submitted ++ [(clientId, share)] }
  | enqueue (clientId : ℕ) (share : SubmittedShare)
      (hhand : s.hands.lookup clientId = some share) :
      RelayStep s (.enqueue clientId)
        { s with
          hands := s.hands.erase clientId
          queue := s.queue ++ [(clientId, share)]
          acknowledged := s.acknowledged ++ [(clientId, share)] }
  | recv (entry : ℕ × SubmittedShare) (queue : List (ℕ × SubmittedShare))
      (hqueue : s.queue = entry :: queue) (hreceived : s.received = none) :
      RelayStep s .recv { s with queue, received := some entry }
  | relay (paddingByte : UInt8) (clientId : ℕ) (share : SubmittedShare)
      (upstream : TracedState σ) (hreceived : s.received = some (clientId, share))
      (hupstream : tracedStep sha256d userCfg alloc newManager s.upstream
        (.relayEncode share paddingByte) = some upstream) :
      RelayStep s (.relay paddingByte)
        { s with upstream, received := none, taken := s.taken ++ [(clientId, share)] }
  | upstream (a : UpstreamAction) (upstream : TracedState σ) (hother : isRelayEncode a = false)
      (hupstream : tracedStep sha256d userCfg alloc newManager s.upstream a = some upstream) :
      RelayStep s (.upstream a) { s with upstream }

variable {sha256d userCfg alloc newManager}

theorem relayStep_cases {s t : RelayState σ} {a : RelayAction}
    (hstep : relayStep sha256d userCfg alloc newManager s a = some t) :
    RelayStep sha256d userCfg alloc newManager s a t := by
  cases a with
  | submit clientId share =>
      obtain ⟨hhand, hstep⟩ := Option.ite_none_left_eq_some.mp hstep
      obtain rfl := Option.some.inj hstep
      exact .submit clientId share (Option.not_isSome_iff_eq_none.mp hhand)
  | enqueue clientId =>
      obtain ⟨share, hhand, hstep⟩ := Option.bind_eq_some_iff.mp hstep
      obtain ⟨-, hstep⟩ := Option.ite_none_right_eq_some.mp hstep
      obtain rfl := Option.some.inj hstep
      exact .enqueue clientId share hhand
  | recv =>
      simp only [relayStep] at hstep
      split at hstep
      · cases hstep
      · rename_i entry queue hqueue
        obtain ⟨hidle, hstep⟩ := Option.ite_none_left_eq_some.mp hstep
        obtain rfl := Option.some.inj hstep
        have hreceived : s.received = none := by
          cases hentry : s.received with
          | none => rfl
          | some entry' => simp [hentry] at hidle
        exact .recv entry queue hqueue hreceived
  | relay paddingByte =>
      obtain ⟨⟨clientId, share⟩, hreceived, hstep⟩ := Option.bind_eq_some_iff.mp hstep
      obtain ⟨upstream, hupstream, hstep⟩ := Option.bind_eq_some_iff.mp hstep
      obtain rfl := Option.some.inj hstep
      exact .relay paddingByte clientId share upstream hreceived hupstream
  | upstream a =>
      obtain ⟨hother, hstep⟩ := Option.ite_none_left_eq_some.mp hstep
      obtain ⟨upstream, hupstream, rfl⟩ := Option.map_eq_some_iff.mp hstep
      exact .upstream a upstream (Bool.eq_false_of_not_eq_true hother) hupstream

variable (sha256d userCfg) in
/-- A body that the relay may have built of the share, with the tracker as it was then. -/
def BodyOf (share : SubmittedShare) (body : EncodedBody) : Prop :=
  ∃ tracker entry inputs paddingByte, relayedWith tracker share = some (entry, inputs) ∧
    body = encodeBody sha256d userCfg tracker entry inputs entry.templateSeed paddingByte

/-- What the relay has received or will receive, in this order. -/
def backlog (s : RelayState σ) : List (ℕ × SubmittedShare) :=
  s.received.toList ++ s.queue

/-- The shares of a connection that the relay has not dealt with. -/
def waiting (s : RelayState σ) (clientId : ℕ) : List SubmittedShare :=
  ofTag clientId (backlog s) ++ (s.hands.lookup clientId).toList

variable (sha256d userCfg) in
/-- Each share that the relay has dealt with has become a body, or was dropped. -/
def Relayed (s : RelayState σ) : Prop :=
  ∃ outcomes : List (Option EncodedBody),
    List.Forall₂ (fun taken outcome => ∀ body ∈ outcome, BodyOf sha256d userCfg taken.2 body)
      s.taken outcomes ∧
      ofTag .relay s.upstream.encoded = outcomes.reduceOption

variable (sha256d userCfg) in
structure Acknowledged (s : RelayState σ) : Prop where
  inOrder : InOrder s.submitted s.taken (waiting s)
  acknowledged : s.acknowledged = s.taken ++ backlog s
  relayed : Relayed sha256d userCfg s

theorem relay_encoded_of_tracedStep {s t : TracedState σ} {a : UpstreamAction}
    (hother : isRelayEncode a = false)
    (hstep : tracedStep sha256d userCfg alloc newManager s a = some t) :
    ofTag .relay t.encoded = ofTag .relay s.encoded := by
  obtain ⟨state, -, rfl⟩ := Option.map_eq_some_iff.mp hstep
  cases a with
  | relayEncode share paddingByte => cases hother
  | sessionEncode id submission paddingByte =>
      rw [record, ofTag_append, ofTag_tagged_of_ne (by simp), List.append_nil]
  | _ => rfl

theorem relay_encoded_of_relayEncode {s t : TracedState σ} {share : SubmittedShare}
    {paddingByte : UInt8}
    (hstep : tracedStep sha256d userCfg alloc newManager s (.relayEncode share paddingByte) =
      some t) :
    ∃ outcome : Option EncodedBody, (∀ body ∈ outcome, BodyOf sha256d userCfg share body) ∧
      ofTag .relay t.encoded = ofTag .relay s.encoded ++ outcome.toList := by
  obtain ⟨state, hstate, rfl⟩ := Option.map_eq_some_iff.mp hstep
  refine ⟨state.relay, ?_, ?_⟩
  · cases upstreamStep_cases hstate with
    | relayDrops _ _ hrelay =>
        rw [hrelay]
        exact fun body hbody => by cases hbody
    | relayEncode _ _ entry inputs gateway hrelay hrelayed hgateway =>
        rintro body ⟨⟩
        exact ⟨_, entry, inputs, paddingByte, hrelayed, rfl⟩
  · rw [record, ofTag_append, ofTag_tagged_self]

theorem Acknowledged.step {s t : RelayState σ} {a : RelayAction}
    (hs : Acknowledged sha256d userCfg s)
    (hstep : relayStep sha256d userCfg alloc newManager s a = some t) :
    Acknowledged sha256d userCfg t := by
  cases relayStep_cases hstep with
  | submit clientId share hhand =>
      refine ⟨?_, hs.acknowledged, hs.relayed⟩
      change InOrder (s.submitted ++ [share].map (Prod.mk clientId)) s.taken _
      apply hs.inOrder.take
      · simp [waiting, backlog, hhand]
      · intro clientId' hne
        simp [waiting, backlog, AList.lookup_insert_ne hne]
  | enqueue clientId share hhand =>
      refine ⟨hs.inOrder.held_congr fun clientId' => ?_, ?_, hs.relayed⟩
      · by_cases hclient : clientId' = clientId
        · subst hclient
          simp [waiting, backlog, hhand, ofTag_cons_self]
        · simp [waiting, backlog, AList.lookup_erase_ne hclient,
            ofTag_cons_of_ne (Ne.symm hclient)]
      · simp [hs.acknowledged, backlog]
  | recv entry queue hqueue hreceived =>
      have hbacklog : backlog { s with queue, received := some entry } = backlog s := by
        simp [backlog, hqueue, hreceived]
      refine ⟨hs.inOrder.held_congr fun clientId => ?_, ?_, hs.relayed⟩
      · rw [waiting, hbacklog, waiting]
      · exact hs.acknowledged.trans (congrArg (s.taken ++ ·) hbacklog.symm)
  | relay paddingByte clientId share upstream hreceived hupstream =>
      obtain ⟨outcomes, hforall, hencoded⟩ := hs.relayed
      obtain ⟨outcome, houtcome, hlast⟩ := relay_encoded_of_relayEncode hupstream
      refine ⟨?_, ?_, outcomes ++ [outcome], ?_, ?_⟩
      · change InOrder s.submitted (s.taken ++ [share].map (Prod.mk clientId)) _
        apply hs.inOrder.give
        · simp [waiting, backlog, hreceived, ofTag_cons_self]
        · intro clientId' hne
          simp [waiting, backlog, hreceived, ofTag_cons_of_ne (Ne.symm hne)]
      · simp [hs.acknowledged, backlog, hreceived]
      · exact List.rel_append hforall (List.Forall₂.cons houtcome List.Forall₂.nil)
      · rw [hlast, hencoded, List.reduceOption_append, List.reduceOption_singleton]
  | upstream a upstream hother hupstream =>
      obtain ⟨outcomes, hforall, hencoded⟩ := hs.relayed
      refine ⟨hs.inOrder.held_congr fun _ => rfl, hs.acknowledged, outcomes, hforall, ?_⟩
      exact (relay_encoded_of_tracedStep hother hupstream).trans hencoded

theorem upstream_of_relay {s t : RelayState σ}
    (hreachable : Reachable (relayStep sha256d userCfg alloc newManager) s t) :
    Reachable (tracedStep sha256d userCfg alloc newManager) s.upstream t.upstream := by
  refine hreachable.simulates RelayState.upstream fun u a v hstep => ?_
  cases relayStep_cases hstep with
  | submit clientId share hhand => exact Or.inl rfl
  | enqueue clientId share hhand => exact Or.inl rfl
  | recv entry queue hqueue hreceived => exact Or.inl rfl
  | relay paddingByte clientId share upstream hreceived hupstream => exact Or.inr ⟨_, hupstream⟩
  | upstream a upstream hother hupstream => exact Or.inr ⟨_, hupstream⟩

/-- The shares that the miners are told to be accepted are those that the relay has dealt with, and
then those before it; each miner's are in the order it sent them; a share becomes one body or is
dropped; and the bodies go their way upstream in this order, none of them twice. -/
theorem acknowledged_shares_relayed {gateway : GatewayState σ} {t : RelayState σ}
    (hreachable : Reachable (relayStep sha256d userCfg alloc newManager)
      { upstream := { state := { gateway } } } t) :
    Acknowledged sha256d userCfg t ∧ TravelsInOrder t.upstream := by
  constructor
  · refine hreachable.invariant ⟨fun _ => rfl, rfl, [], List.Forall₂.nil, rfl⟩ ?_
    exact fun _ _ _ hs hstep => hs.step hstep
  · exact (conserved_of_reachable (upstream_of_relay hreachable)).travelsInOrder

end Steps

/-- The shares of two miners: one is on its way upstream, the relay drops one of an unknown job, and
one waits in the queue. -/
theorem acknowledged_shares_relayed_of_two_miners :
    let step := relayStep (fun _ => ByteVec.fill 32 0) poolUser countingAllocator emptyManager
    ∃ t, Reachable step { upstream := { state := { gateway := {} } } } t ∧
      decide (t.acknowledged.map Prod.fst = [3, 4, 3] ∧ t.taken.map Prod.fst = [3, 4] ∧
        t.upstream.encoded.length = 1 ∧ t.upstream.arrived.length = 1) = true ∧
      Acknowledged (fun _ => ByteVec.fill 32 0) poolUser t ∧ TravelsInOrder t.upstream := by
  intro step
  obtain ⟨t, hreachable, hrelayed⟩ := exists_reachable_of_runActions step
    { upstream := { state := { gateway := {} } } }
    (((.connect :: offerJobs).map .upstream) ++
      [.submit 3 firstSv1Share, .submit 4 { firstSv1Share with jobId := "" },
        .enqueue 3, .submit 3 firstSv1Share, .enqueue 4, .recv, .enqueue 3, .relay 0,
        .upstream .relaySend, .recv, .relay 0])
    (fun t => decide (t.acknowledged.map Prod.fst = [3, 4, 3] ∧ t.taken.map Prod.fst = [3, 4] ∧
      t.upstream.encoded.length = 1 ∧ t.upstream.arrived.length = 1)) (by decide +kernel)
  exact ⟨t, hreachable, hrelayed, acknowledged_shares_relayed hreachable⟩

end DatumGateway.SubmitRelay
