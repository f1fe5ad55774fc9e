import DatumGateway.ShareAcknowledgements
import DatumGateway.WatchChannels

/-!
The loop of an SV2 connection after its setup: which of the shutdown signal, the
templates and the frames it takes up next, and what each iteration consumes.
-/

namespace DatumGateway.DispatchLoop

open DatumGateway.ByteString
open DatumGateway.ChannelManager
open DatumGateway.JobTracker
open DatumGateway.MiningConnection
open DatumGateway.MiningListener
open DatumGateway.ShareAcknowledgements
open DatumGateway.SharedTemplate
open DatumGateway.ShareEncoder
open DatumGateway.ShareForwarding
open DatumGateway.SharePath
open DatumGateway.TransitionSystem
open DatumGateway.WatchChannels

/-- What reading the next frame ends with. -/
inductive InboundFrame where
  | message (msg : MiningIn) (around : Readings)
  /-- A frame that does not parse, or a message that is not for this connection. -/
  | ignored
  | socketClosed
  /-- A Noise error, or something that is not an SV2 frame. -/
  | broken

structure LoopState (σ α : Type) where
  conn : Connection σ α
  shutdownRx : Receiver Bool
  templateRx : Receiver (Option TemplateState)
  frames : List InboundFrame := []
  writerOpen : Bool := true
  ended : Bool := false

inductive LoopAction where
  | publish (template : Option TemplateState)
  | dropPublisher
  | signalShutdown (value : Bool)
  | dropShutdown
  | frameArrives (frame : InboundFrame)
  | writerFails
  /-- Others insert jobs into the tracker and take them out of it. -/
  | trackerChanged (tracker : Tracker)
  /-- `ids` lists the open channels in the order of the hash map. -/
  | iterate (ids : List UInt32)

def isWrite : ConnectionEvent → Bool
  | .wrote _ => true
  | .forwarded _ _ => false

/-- The runtime of `Listener::bind`: its publisher is dropped before anything was published. -/
def bindTemplateRx : Receiver (Option TemplateState) :=
  Receiver.dropSender { value := none }

namespace LoopState

variable {σ α : Type}

/-- A template change, a shutdown change and the frames: all that waits to be consumed. -/
def backlog (s : LoopState σ α) : ℕ :=
  s.shutdownRx.backlog + s.templateRx.backlog + s.frames.length

/-- The shutdown arm ends the connection, if not with its next change then with the one after. -/
def ShutdownEnds (s : LoopState σ α) : Prop :=
  s.shutdownRx.unseen = true ∧ s.shutdownRx.value = true ∨ s.shutdownRx.senderAlive = false

/-- No shutdown event waits, the last template was seen, and no other one can come. -/
def Orphaned (s : LoopState σ α) : Prop :=
  s.shutdownRx.changed = none ∧ s.templateRx.changed = some .closed

instance (s : LoopState σ α) : Decidable s.Orphaned :=
  inferInstanceAs (Decidable (_ ∧ _))

end LoopState

def IsIteration : LoopAction → Prop
  | .iterate _ => True
  | _ => False

section Steps

variable (sha256d : Bytes → Bytes32) {σ α : Type} (alloc : ExtranonceAllocator σ)
variable (acc : ShareAccounting α) (userCfg : ShareUserConfig) (blockFound : Bool)

/-- The body of an arm: a share that is not taken or a frame that cannot be written ends the
connection. -/
def perform (s : LoopState σ α) (a : ConnectionAction) : LoopState σ α :=
  match connectionStep sha256d alloc acc userCfg blockFound s.conn a with
  | none => { s with ended := true }
  | some conn =>
      if !s.writerOpen && (conn.events.drop s.conn.events.length).any isWrite then
        { s with ended := true }
      else { s with conn }

def onTemplateChanged (s : LoopState σ α) (ids : List UInt32) : LoopState σ α :=
  let s := { s with templateRx := s.templateRx.markSeen }
  match s.templateRx.value with
  | none => s
  | some template =>
      perform sha256d alloc acc userCfg blockFound s (.templateChanged template ids)

def onFrame (s : LoopState σ α) : InboundFrame → LoopState σ α
  | .message msg around => perform sha256d alloc acc userCfg blockFound s (.frame msg around)
  | .ignored => s
  | .socketClosed => { s with ended := true }
  | .broken => { s with ended := true }

/-- One turn of the biased `select!`; none while it waits. -/
def iterate (s : LoopState σ α) (ids : List UInt32) : Option (LoopState σ α) :=
  match s.shutdownRx.changed with
  | some .closed => some { s with ended := true }
  | some .ok =>
      some { s with shutdownRx := s.shutdownRx.markSeen, ended := s.shutdownRx.value }
  | none =>
      match s.templateRx.changed with
      | some .closed => some s
      | some .ok => some (onTemplateChanged sha256d alloc acc userCfg blockFound s ids)
      | none =>
          match s.frames with
          | [] => none
          | frame :: frames =>
              some (onFrame sha256d alloc acc userCfg blockFound { s with frames } frame)

def loopStep (s : LoopState σ α) : LoopAction → Option (LoopState σ α)
  | .publish template => do
      let templateRx ← s.templateRx.send template
      some { s with templateRx }
  | .dropPublisher => some { s with templateRx := s.templateRx.dropSender }
  | .signalShutdown value => do
      let shutdownRx ← s.shutdownRx.send value
      some { s with shutdownRx }
  | .dropShutdown => some { s with shutdownRx := s.shutdownRx.dropSender }
  | .frameArrives frame => some { s with frames := s.frames ++ [frame] }
  | .writerFails => some { s with writerOpen := false }
  | .trackerChanged tracker => some { s with conn := { s.conn with tracker } }
  | .iterate ids =>
      if s.ended || !ids.isPerm s.conn.manager.channels.keys then none
      else iterate sha256d alloc acc userCfg blockFound s ids

@[simp] theorem backlog_perform (s : LoopState σ α) (a : ConnectionAction) :
    (perform sha256d alloc acc userCfg blockFound s a).backlog = s.backlog := by
  unfold perform
  split
  · rfl
  · split_ifs <;> rfl

theorem backlog_onTemplateChanged (s : LoopState σ α) (ids : List UInt32) :
    (onTemplateChanged sha256d alloc acc userCfg blockFound s ids).backlog =
      s.shutdownRx.backlog + s.templateRx.markSeen.backlog + s.frames.length := by
  simp only [onTemplateChanged]
  split
  · rfl
  · rw [backlog_perform]
    rfl

theorem backlog_onFrame (s : LoopState σ α) (frame : InboundFrame) :
    (onFrame sha256d alloc acc userCfg blockFound s frame).backlog = s.backlog := by
  cases frame with
  | message msg around => exact backlog_perform sha256d alloc acc userCfg blockFound s _
  | ignored => rfl
  | socketClosed => rfl
  | broken => rfl

/-- All that a turn of the loop can be, one case for each way through the `select!`. -/
inductive Turn (s : LoopState σ α) (ids : List UInt32) : LoopState σ α → Prop
  | shutdownLost (hshutdown : s.shutdownRx.changed = some .closed) :
      Turn s ids { s with ended := true }
  | shutdownSeen (hshutdown : s.shutdownRx.changed = some .ok) :
      Turn s ids { s with shutdownRx := s.shutdownRx.markSeen, ended := s.shutdownRx.value }
  | spun (horphaned : s.Orphaned) : Turn s ids s
  | templateSeen (hshutdown : s.shutdownRx.changed = none)
      (htemplate : s.templateRx.changed = some .ok) :
      Turn s ids (onTemplateChanged sha256d alloc acc userCfg blockFound s ids)
  | frameTaken (hshutdown : s.shutdownRx.changed = none) (htemplate : s.templateRx.changed = none)
      (frame : InboundFrame) (frames : List InboundFrame) (hframes : s.frames = frame :: frames) :
      Turn s ids (onFrame sha256d alloc acc userCfg blockFound { s with frames } frame)

theorem turn_of_iterate {s t : LoopState σ α} {ids : List UInt32}
    (hiterate : iterate sha256d alloc acc userCfg blockFound s ids = some t) :
    Turn sha256d alloc acc userCfg blockFound s ids t := by
  unfold iterate at hiterate
  split at hiterate
  · rename_i hshutdown
    obtain rfl := Option.some.inj hiterate
    exact .shutdownLost hshutdown
  · rename_i hshutdown
    obtain rfl := Option.some.inj hiterate
    exact .shutdownSeen hshutdown
  · rename_i hshutdown
    split at hiterate
    · rename_i htemplate
      obtain rfl := Option.some.inj hiterate
      exact .spun ⟨hshutdown, htemplate⟩
    · rename_i htemplate
      obtain rfl := Option.some.inj hiterate
      exact .templateSeen hshutdown htemplate
    · rename_i htemplate
      split at hiterate
      · cases hiterate
      · rename_i frame frames hframes
        obtain rfl := Option.some.inj hiterate
        exact .frameTaken hshutdown htemplate frame frames hframes

theorem Turn.spins_or_consumes {s t : LoopState σ α} {ids : List UInt32}
    (hturn : Turn sha256d alloc acc userCfg blockFound s ids t) :
    s.Orphaned ∧ t = s ∨ ¬ s.Orphaned ∧ (t.ended = true ∨ t.backlog + 1 = s.backlog) := by
  cases hturn with
  | shutdownLost hshutdown =>
      exact Or.inr ⟨(fun h => by cases hshutdown.symm.trans h.1), Or.inl rfl⟩
  | shutdownSeen hshutdown =>
      have hseen := Receiver.backlog_of_ok hshutdown
      refine Or.inr ⟨(fun h => by cases hshutdown.symm.trans h.1), Or.inr ?_⟩
      simp only [LoopState.backlog]
      omega
  | spun horphaned => exact Or.inl ⟨horphaned, rfl⟩
  | templateSeen hshutdown htemplate =>
      have hseen := Receiver.backlog_of_ok htemplate
      refine Or.inr ⟨(fun h => by cases htemplate.symm.trans h.2), Or.inr ?_⟩
      rw [backlog_onTemplateChanged, LoopState.backlog]
      omega
  | frameTaken hshutdown htemplate frame frames hframes =>
      refine Or.inr ⟨(fun h => by cases htemplate.symm.trans h.2), Or.inr ?_⟩
      rw [backlog_onFrame]
      simp only [LoopState.backlog, hframes, List.length_cons]
      omega

/-- A turn of the loop ends the connection or consumes exactly one thing that waits. -/
def Progresses (s : LoopState σ α) (a : LoopAction) (t : LoopState σ α) : Prop :=
  IsIteration a → t.ended = true ∨ t.backlog + 1 = s.backlog

/-- The condition on a step: no iteration finds the channels orphaned. -/
def NotOrphaned (s : LoopState σ α) (a : LoopAction) : Prop :=
  IsIteration a → ¬ s.Orphaned

/-- Left to itself, the loop takes up all frames or ends the connection. -/
def ServesAll (s : LoopState σ α) : Prop :=
  ∃ t, Reaches (loopStep sha256d alloc acc userCfg blockFound) (fun _ a => IsIteration a) s t ∧
    (t.ended = true ∨ t.frames = [])

theorem turn_of_loopStep {s t : LoopState σ α} {ids : List UInt32}
    (hstep : loopStep sha256d alloc acc userCfg blockFound s (.iterate ids) = some t) :
    s.ended = false ∧ Turn sha256d alloc acc userCfg blockFound s ids t := by
  rw [loopStep] at hstep
  obtain ⟨hrunning, hiterate⟩ := Option.ite_none_left_eq_some.mp hstep
  simp only [Bool.or_eq_true, not_or, Bool.not_eq_true] at hrunning
  exact ⟨hrunning.1, turn_of_iterate sha256d alloc acc userCfg blockFound hiterate⟩

theorem progresses_step_iff {s t : LoopState σ α} {a : LoopAction}
    (hstep : loopStep sha256d alloc acc userCfg blockFound s a = some t) :
    Progresses s a t ↔ NotOrphaned s a := by
  cases a with
  | iterate ids =>
      obtain ⟨hrunning, hturn⟩ := turn_of_loopStep sha256d alloc acc userCfg blockFound hstep
      rcases hturn.spins_or_consumes with ⟨horphaned, rfl⟩ | ⟨hwaits, hprogress⟩
      · refine iff_of_false (fun hprogress => ?_) fun hwaits => hwaits trivial horphaned
        rcases hprogress trivial with hended | hbacklog
        · rw [hrunning] at hended
          cases hended
        · omega
      · exact iff_of_true (fun _ => hprogress) fun _ => hwaits
  | _ => exact iff_of_true (fun h => h.elim) fun h => h.elim

/-- The last template was seen, no other one can come, and no shutdown ends the loop: it never
gets to the frames. -/
structure Starved (frames : List InboundFrame) (s : LoopState σ α) : Prop where
  running : s.ended = false
  closed : s.templateRx.changed = some .closed
  quiet : ¬ s.ShutdownEnds
  frames : s.frames = frames

variable {frames : List InboundFrame} {s : LoopState σ α}

theorem Starved.senderAlive (hstarved : Starved frames s) : s.shutdownRx.senderAlive = true := by
  by_contra hdropped
  exact hstarved.quiet (Or.inr (Bool.eq_false_of_not_eq_true hdropped))

theorem Starved.turn (hstarved : Starved frames s) {t : LoopState σ α} {ids : List UInt32}
    (hturn : Turn sha256d alloc acc userCfg blockFound s ids t) : Starved frames t := by
  cases hturn with
  | shutdownLost hshutdown =>
      have hdropped := ((Receiver.changed_eq_closed_iff _).mp hshutdown).2
      cases hdropped.symm.trans hstarved.senderAlive
  | shutdownSeen hshutdown =>
      have hunseen := (Receiver.changed_eq_ok_iff _).mp hshutdown
      have hvalue : s.shutdownRx.value = false :=
        Bool.eq_false_of_not_eq_true fun hvalue => hstarved.quiet (Or.inl ⟨hunseen, hvalue⟩)
      refine ⟨hvalue, hstarved.closed, ?_, hstarved.frames⟩
      rintro (⟨hunseen, -⟩ | hdropped)
      · cases hunseen
      · exact hstarved.quiet (Or.inr hdropped)
  | spun horphaned => exact hstarved
  | templateSeen hshutdown htemplate => cases htemplate.symm.trans hstarved.closed
  | frameTaken hshutdown htemplate frame frames hframes =>
      cases htemplate.symm.trans hstarved.closed

theorem Starved.reaches (hstarved : Starved frames s) {t : LoopState σ α}
    (hreaches : Reaches (loopStep sha256d alloc acc userCfg blockFound)
      (fun _ a => IsIteration a) s t) : Starved frames t := by
  refine hreaches.invariant hstarved fun u a v hu hiteration hstep => ?_
  cases a with
  | iterate ids =>
      exact hu.turn _ _ _ _ _ (turn_of_loopStep sha256d alloc acc userCfg blockFound hstep).2
  | _ => exact hiteration.elim

theorem iterate_reaches {t : LoopState σ α} (hrunning : s.ended = false)
    (hiterate : iterate sha256d alloc acc userCfg blockFound s s.conn.manager.channels.keys =
      some t) :
    Reaches (loopStep sha256d alloc acc userCfg blockFound) (fun _ a => IsIteration a) s t := by
  refine Relation.ReflTransGen.single ⟨.iterate s.conn.manager.channels.keys, trivial, ?_⟩
  rw [loopStep, hrunning, List.isPerm_iff.mpr (List.Perm.refl _)]
  exact hiterate

theorem servesAll_of_closed (hrunning : s.ended = false)
    (hclosed : s.shutdownRx.changed = some .closed) :
    ServesAll sha256d alloc acc userCfg blockFound s := by
  refine ⟨{ s with ended := true }, ?_, Or.inl rfl⟩
  apply iterate_reaches sha256d alloc acc userCfg blockFound hrunning
  rw [iterate, hclosed]

theorem servesAll_of_shutdownEnds (hrunning : s.ended = false) (hends : s.ShutdownEnds) :
    ServesAll sha256d alloc acc userCfg blockFound s := by
  cases hunseen : s.shutdownRx.unseen with
  | false =>
      have hdropped : s.shutdownRx.senderAlive = false := by
        rcases hends with ⟨hunseen', -⟩ | hdropped
        · rw [hunseen] at hunseen'
          cases hunseen'
        · exact hdropped
      exact servesAll_of_closed sha256d alloc acc userCfg blockFound hrunning
        ((Receiver.changed_eq_closed_iff _).mpr ⟨hunseen, hdropped⟩)
  | true =>
      let seen : LoopState σ α :=
        { s with shutdownRx := s.shutdownRx.markSeen, ended := s.shutdownRx.value }
      have hseen : Reaches (loopStep sha256d alloc acc userCfg blockFound)
          (fun _ a => IsIteration a) s seen := by
        apply iterate_reaches sha256d alloc acc userCfg blockFound hrunning
        rw [iterate, (Receiver.changed_eq_ok_iff _).mpr hunseen]
      rcases hends with ⟨-, hvalue⟩ | hdropped
      · exact ⟨seen, hseen, Or.inl hvalue⟩
      · cases hvalue : s.shutdownRx.value with
        | true => exact ⟨seen, hseen, Or.inl hvalue⟩
        | false =>
            obtain ⟨t, hreaches, hserved⟩ := servesAll_of_closed sha256d alloc acc userCfg
              blockFound (s := seen) hvalue
              ((Receiver.changed_eq_closed_iff _).mpr ⟨rfl, hdropped⟩)
            exact ⟨t, hseen.trans hreaches, hserved⟩

theorem servesAll_iff (hrunning : s.ended = false)
    (hclosed : s.templateRx.changed = some .closed) :
    ServesAll sha256d alloc acc userCfg blockFound s ↔ s.frames = [] ∨ s.ShutdownEnds := by
  constructor
  · rintro ⟨t, hreaches, hserved⟩
    by_cases hends : s.ShutdownEnds
    · exact Or.inr hends
    · have hstarved := Starved.reaches sha256d alloc acc userCfg blockFound
        ⟨hrunning, hclosed, hends, rfl⟩ hreaches
      rcases hserved with hended | hnone
      · rw [hstarved.running] at hended
        cases hended
      · exact Or.inl (hstarved.frames.symm.trans hnone)
  · rintro (hnone | hends)
    · exact ⟨s, Relation.ReflTransGen.refl, Or.inr hnone⟩
    · exact servesAll_of_shutdownEnds sha256d alloc acc userCfg blockFound hrunning hends

/-- What a step of the loop can do to its connection. -/
def KeepsOrSteps (conn conn' : Connection σ α) : Prop :=
  conn' = conn ∨ ∃ a, connectionStep sha256d alloc acc userCfg blockFound conn a = some conn'

theorem keepsOrSteps_perform (s : LoopState σ α) (a : ConnectionAction) :
    KeepsOrSteps sha256d alloc acc userCfg blockFound s.conn
      (perform sha256d alloc acc userCfg blockFound s a).conn := by
  unfold perform
  cases hstep : connectionStep sha256d alloc acc userCfg blockFound s.conn a with
  | none => exact Or.inl rfl
  | some conn =>
      dsimp only
      split_ifs
      · exact Or.inl rfl
      · exact Or.inr ⟨a, hstep⟩

theorem Turn.keepsOrSteps {t : LoopState σ α} {ids : List UInt32}
    (hturn : Turn sha256d alloc acc userCfg blockFound s ids t) :
    KeepsOrSteps sha256d alloc acc userCfg blockFound s.conn t.conn := by
  cases hturn with
  | shutdownLost hshutdown => exact Or.inl rfl
  | shutdownSeen hshutdown => exact Or.inl rfl
  | spun horphaned => exact Or.inl rfl
  | templateSeen hshutdown htemplate =>
      simp only [onTemplateChanged]
      split
      · exact Or.inl rfl
      · exact keepsOrSteps_perform sha256d alloc acc userCfg blockFound _ _
  | frameTaken hshutdown htemplate frame frames hframes =>
      cases frame with
      | message msg around =>
          exact keepsOrSteps_perform sha256d alloc acc userCfg blockFound { s with frames } _
      | _ => exact Or.inl rfl

/-- The loop runs the connection: what holds along all runs of the connection holds in it. -/
theorem connection_of_loop {t : LoopState σ α}
    (hreachable : Reachable (loopStep sha256d alloc acc userCfg blockFound) s t) :
    Reachable (connectionStep sha256d alloc acc userCfg blockFound) s.conn t.conn := by
  refine hreachable.simulates LoopState.conn fun u a v hstep => ?_
  cases a with
  | iterate ids =>
      exact (turn_of_loopStep sha256d alloc acc userCfg blockFound hstep).2.keepsOrSteps
  | trackerChanged tracker =>
      obtain rfl := Option.some.inj hstep
      exact Or.inr ⟨.trackerChanged tracker, rfl⟩
  | publish template =>
      obtain ⟨templateRx, -, hv⟩ := Option.bind_eq_some_iff.mp hstep
      obtain rfl := Option.some.inj hv
      exact Or.inl rfl
  | signalShutdown value =>
      obtain ⟨shutdownRx, -, hv⟩ := Option.bind_eq_some_iff.mp hstep
      obtain rfl := Option.some.inj hv
      exact Or.inl rfl
  | _ =>
      obtain rfl := Option.some.inj hstep
      exact Or.inl rfl

/-- In every run, each iteration consumes one thing that waits or ends the connection exactly if
no iteration finds the channels orphaned; and once the publisher is gone and its last template
seen, the frames are served exactly if there is none or the shutdown ends the connection. -/
theorem progresses_iff :
    (∀ (s : LoopState σ α) (actions : List LoopAction),
      EveryStep (loopStep sha256d alloc acc userCfg blockFound) Progresses s actions ↔
        Guarded (loopStep sha256d alloc acc userCfg blockFound) NotOrphaned s actions) ∧
    ∀ s : LoopState σ α, s.ended = false → s.templateRx.changed = some .closed →
      (ServesAll sha256d alloc acc userCfg blockFound s ↔ s.frames = [] ∨ s.ShutdownEnds) :=
  ⟨everyStep_iff_guarded fun _ _ _ hstep =>
      progresses_step_iff sha256d alloc acc userCfg blockFound hstep,
    fun _ hrunning hclosed =>
      servesAll_iff sha256d alloc acc userCfg blockFound hrunning hclosed⟩

end Steps

/-- A connection of a listener that was bound without a runtime. -/
def boundLoop : LoopState ℕ Unit where
  conn := firstConnection
  shutdownRx := { value := false }
  templateRx := bindTemplateRx

/-- A frame arrives, and the loop turns without ever getting to it. -/
theorem boundLoop_spins :
    let hash : Bytes → Bytes32 := fun _ => ByteVec.fill 32 0
    let step := loopStep hash countingAllocator plainAccounting plainUserConfig false
    let arrived := { boundLoop with frames := [.ignored] }
    step arrived (.iterate []) = some arrived ∧
      ¬ EveryStep step Progresses boundLoop [.frameArrives .ignored, .iterate []] ∧
      ¬ ServesAll hash countingAllocator plainAccounting plainUserConfig false arrived := by
  intro hash step arrived
  have hspins : step arrived (.iterate []) = some arrived := rfl
  refine ⟨hspins, ?_, ?_⟩
  · intro hevery
    have harrives : step boundLoop (.frameArrives .ignored) = some arrived := rfl
    have hprogress := ((hevery arrived harrives).2 arrived hspins).1
    rcases hprogress trivial with hended | hbacklog
    · cases hended
    · cases hbacklog
  · rintro ⟨t, hreaches, hserved⟩
    have hstarved : Starved [.ignored] arrived := by
      refine ⟨rfl, rfl, ?_, rfl⟩
      rintro (⟨hunseen, -⟩ | hdropped)
      · cases hunseen
      · cases hdropped
    have hlast := hstarved.reaches _ _ _ _ _ hreaches
    rcases hserved with hended | hnone
    · rw [hlast.running] at hended
      cases hended
    · rw [hlast.frames] at hnone
      cases hnone

end DatumGateway.DispatchLoop
