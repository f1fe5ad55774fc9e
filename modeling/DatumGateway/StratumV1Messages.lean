import DatumGateway.EmitSnapshots
import DatumGateway.StratumV1Connection
import DatumGateway.TransitionSystem

namespace DatumGateway.StratumV1Messages

open DatumGateway.ByteString
open DatumGateway.EmitSnapshots
open DatumGateway.ShareEncoder
open DatumGateway.StratumV1Connection
open DatumGateway.StratumV1Server
open DatumGateway.TransitionSystem

deriving instance DecidableEq for NotifyJob

/-- `coinb1` is the hex text of the first half of the coinbase, with its PoT byte. -/
inductive ServerMessage where
  | setDifficulty (diff : UInt64)
  | notify (job : NotifyJob) (coinb1 : String)
  deriving DecidableEq

def sendNotify (job : NotifyJob) (currentDiff : UInt64) : ServerMessage :=
  .notify job (patchCoinb1PotByte (Hex.encode job.coinb1Bin) job.targetPotIndex currentDiff)

def sendPending (notify : Option NotifyJob) (currentDiff : UInt64) : List ServerMessage :=
  (notify.map fun job => sendNotify job currentDiff).toList

/-- A connection with what was written to it, the first message first.  `consumedMin` is the
minimum of the pool that the connection took last, at its start or from the channel; a tick only
looks at the one published. -/
structure MinerLink where
  state : ConnectionState
  written : List ServerMessage := []
  consumedMin : UInt64

def connect (vardiff : VardiffParams) (xn1 : UInt32) (notify : Option NotifyJob)
    (notifyUnseen : Bool) (poolMin : UInt64) (poolMinUnseen : Bool) : MinerLink where
  state := handleConnection vardiff xn1 notify notifyUnseen poolMin poolMinUnseen
  consumedMin := poolMin

def changeDiffMessages (s : ConnectionState) (newDiff : UInt64) : List ServerMessage :=
  .setDifficulty newDiff :: if s.conn.authorized then sendPending s.notify newDiff else []

def messages (s : ConnectionState) : ConnectionAction → List ServerMessage
  | .subscribe => [.setDifficulty s.conn.currentDiff]
  | .authorize _ => sendPending s.notify s.conn.currentDiff
  | .notifyChanged =>
      if s.conn.subscribed && s.conn.authorized then sendPending s.notify s.conn.currentDiff
      else []
  | .poolMinChanged =>
      if s.conn.currentDiff < s.floor && s.conn.subscribed then changeDiffMessages s s.floor
      else []
  | .diffTimer elapsedSecs =>
      if s.newDiff elapsedSecs != s.conn.currentDiff && s.conn.subscribed then
        changeDiffMessages s (s.newDiff elapsedSecs)
      else []
  | _ => []

def consumedMinAfter (l : MinerLink) : ConnectionAction → UInt64
  | .poolMinChanged => l.state.poolMin
  | _ => l.consumedMin

def linkStep (sha256d : Bytes → Bytes32) (userCfg : ShareUserConfig) (l : MinerLink)
    (a : ConnectionAction) : Option MinerLink :=
  (connectionStep sha256d userCfg l.state a).map fun state =>
    { state
      written := l.written ++ messages l.state a
      consumedMin := consumedMinAfter l a }

def ServerMessage.difficulty : ServerMessage → Option UInt64
  | .setDifficulty diff => some diff
  | .notify _ _ => none

def ServerMessage.job : ServerMessage → Option NotifyJob
  | .setDifficulty _ => none
  | .notify job _ => some job

def lastDifficulty (written : List ServerMessage) : Option UInt64 :=
  (written.filterMap ServerMessage.difficulty).getLast?

def lastNotified (written : List ServerMessage) : Option NotifyJob :=
  (written.filterMap ServerMessage.job).getLast?

/-! What the properties below see of a connection. -/

structure SameView (s t : ConnectionState) : Prop where
  subscribed : t.conn.subscribed = s.conn.subscribed
  authorized : t.conn.authorized = s.conn.authorized
  currentDiff : t.conn.currentDiff = s.conn.currentDiff
  vardiff : t.vardiff = s.vardiff
  notify : t.notify = s.notify
  notifyUnseen : t.notifyUnseen = s.notifyUnseen
  poolMin : t.poolMin = s.poolMin

theorem sameView_sendPending (s : ConnectionState) : SameView s s.sendPending := by
  rw [ConnectionState.sendPending]
  cases hnotify : s.notify with
  | none => exact ⟨rfl, rfl, rfl, rfl, rfl, rfl, rfl⟩
  | some job => exact ⟨rfl, rfl, rfl, rfl, hnotify.symm, rfl, rfl⟩

theorem sameView_changeDiff (s : ConnectionState) (newDiff : UInt64) :
    SameView { s with conn := { s.conn with currentDiff := newDiff } } (s.changeDiff newDiff) := by
  rw [ConnectionState.changeDiff]
  dsimp only
  split_ifs
  · exact sameView_sendPending _
  · exact ⟨rfl, rfl, rfl, rfl, rfl, rfl, rfl⟩

/-- The other lines of the miner, and the relay. -/
def unrelated : ConnectionAction → Bool
  | .configure _ _ => true
  | .submit _ => true
  | .relay _ _ => true
  | _ => false

/-- What a step does to the difficulty, the job and the minimum, and what it writes. -/
inductive LinkStep (l t : MinerLink) : ConnectionAction → Prop
  | unrelated {a : ConnectionAction} (hunrelated : unrelated a = true)
      (hview : SameView l.state t.state) (hwritten : t.written = l.written)
      (hconsumed : t.consumedMin = l.consumedMin) : LinkStep l t a
  | subscribe
      (hview : SameView { l.state with conn := { l.state.conn with subscribed := true } } t.state)
      (hwritten : t.written = l.written ++ [.setDifficulty l.state.conn.currentDiff])
      (hconsumed : t.consumedMin = l.consumedMin) : LinkStep l t .subscribe
  | authorize (name : Option String)
      (hview : SameView { l.state with conn := { l.state.conn with authorized := true } } t.state)
      (hwritten : t.written = l.written ++ sendPending l.state.notify l.state.conn.currentDiff)
      (hconsumed : t.consumedMin = l.consumedMin) : LinkStep l t (.authorize name)
  | publish (job : NotifyJob)
      (hview : SameView { l.state with notify := some job, notifyUnseen := true } t.state)
      (hwritten : t.written = l.written) (hconsumed : t.consumedMin = l.consumedMin) :
      LinkStep l t (.publish job)
  | setPoolMin (poolMin : UInt64) (hview : SameView { l.state with poolMin } t.state)
      (hwritten : t.written = l.written) (hconsumed : t.consumedMin = l.consumedMin) :
      LinkStep l t (.setPoolMin poolMin)
  | notifyChanged (hview : SameView { l.state with notifyUnseen := false } t.state)
      (hwritten : t.written = l.written ++
        if l.state.conn.subscribed && l.state.conn.authorized then
          sendPending l.state.notify l.state.conn.currentDiff
        else [])
      (hconsumed : t.consumedMin = l.consumedMin) : LinkStep l t .notifyChanged
  | poolMinRaised (hsubscribed : l.state.conn.subscribed = true)
      (hview : SameView
        { l.state with conn := { l.state.conn with currentDiff := l.state.floor } } t.state)
      (hwritten : t.written = l.written ++ changeDiffMessages l.state l.state.floor)
      (hconsumed : t.consumedMin = l.state.poolMin) : LinkStep l t .poolMinChanged
  | poolMinKept
      (hkept : l.state.conn.subscribed = true → l.state.floor ≤ l.state.conn.currentDiff)
      (hview : SameView l.state t.state) (hwritten : t.written = l.written)
      (hconsumed : t.consumedMin = l.state.poolMin) : LinkStep l t .poolMinChanged
  | diffChanged (elapsedSecs : ℕ) (hsubscribed : l.state.conn.subscribed = true)
      (hview : SameView
        { l.state with conn := { l.state.conn with currentDiff := l.state.newDiff elapsedSecs } }
        t.state)
      (hwritten : t.written =
        l.written ++ changeDiffMessages l.state (l.state.newDiff elapsedSecs))
      (hconsumed : t.consumedMin = l.consumedMin) : LinkStep l t (.diffTimer elapsedSecs)
  | diffKept (elapsedSecs : ℕ)
      (hkept : l.state.conn.subscribed = true →
        l.state.newDiff elapsedSecs = l.state.conn.currentDiff)
      (hview : SameView l.state t.state) (hwritten : t.written = l.written)
      (hconsumed : t.consumedMin = l.consumedMin) : LinkStep l t (.diffTimer elapsedSecs)

section Steps

variable {sha256d : Bytes → Bytes32} {userCfg : ShareUserConfig} {l t : MinerLink}

theorem linkStep_cases {a : ConnectionAction} (hstep : linkStep sha256d userCfg l a = some t) :
    LinkStep l t a := by
  obtain ⟨s, hs, rfl⟩ := Option.map_eq_some_iff.mp hstep
  cases connectionStep_cases hs with
  | configureIgnored | configured | submitRefused | submitted | relayRefused | relayed =>
      exact .unrelated rfl ⟨rfl, rfl, rfl, rfl, rfl, rfl, rfl⟩ (List.append_nil _) rfl
  | subscribed => exact .subscribe ⟨rfl, rfl, rfl, rfl, rfl, rfl, rfl⟩ rfl rfl
  | authorized name =>
      refine .authorize name ?_ rfl rfl
      obtain ⟨h₁, h₂, h₃, h₄, h₅, h₆, h₇⟩ := sameView_sendPending { l.state with
        conn := { l.state.conn with
          authorized := true, authorizedUsername := name.getD l.state.conn.authorizedUsername } }
      exact ⟨h₁, h₂, h₃, h₄, h₅, h₆, h₇⟩
  | published job =>
      exact .publish job ⟨rfl, rfl, rfl, rfl, rfl, rfl, rfl⟩ (List.append_nil _) rfl
  | poolMinSet poolMin =>
      exact .setPoolMin poolMin ⟨rfl, rfl, rfl, rfl, rfl, rfl, rfl⟩ (List.append_nil _) rfl
  | jobSent => exact .notifyChanged (sameView_sendPending _) rfl rfl
  | jobHeld => exact .notifyChanged ⟨rfl, rfl, rfl, rfl, rfl, rfl, rfl⟩ rfl rfl
  | poolMinRaised _ hraise =>
      refine .poolMinRaised (Bool.and_eq_true_iff.mp hraise).2 ?_ ?_ rfl
      · obtain ⟨h₁, h₂, h₃, h₄, h₅, h₆, h₇⟩ :=
          sameView_changeDiff { l.state with poolMinUnseen := false } l.state.floor
        exact ⟨h₁, h₂, h₃, h₄, h₅, h₆, h₇⟩
      · rw [messages, hraise, if_pos rfl]
  | poolMinKept _ hraise =>
      refine .poolMinKept ?_ ⟨rfl, rfl, rfl, rfl, rfl, rfl, rfl⟩ ?_ rfl
      · intro hsubscribed
        simpa [hsubscribed] using hraise
      · simp [messages, hraise]
  | diffChanged elapsedSecs hchange =>
      have hsubscribed := (Bool.and_eq_true_iff.mp hchange).2
      refine .diffChanged elapsedSecs hsubscribed ?_ ?_ rfl
      · obtain ⟨h₁, h₂, h₃, h₄, h₅, h₆, h₇⟩ :=
          sameView_changeDiff l.state (l.state.newDiff elapsedSecs)
        exact ⟨h₁, h₂, h₃, h₄, h₅, h₆, h₇⟩
      · rw [messages, hchange, if_pos rfl]
  | diffKept elapsedSecs hchange =>
      refine .diffKept elapsedSecs ?_ ⟨rfl, rfl, rfl, rfl, rfl, rfl, rfl⟩ ?_ rfl
      · intro hsubscribed
        simpa [hsubscribed] using hchange
      · simp [messages, hchange]

end Steps

/-! The job that was announced last. -/

/-- A miner that is subscribed and authorized was last sent the published job, unless the
connection has yet to see its change. -/
def NotifiedCurrent (l : MinerLink) : Prop :=
  l.state.conn.subscribed = true → l.state.conn.authorized = true →
    l.state.notifyUnseen = false → ∀ job, l.state.notify = some job →
      lastNotified l.written = some job

/-- A subscription comes before the authorization, or before the change to the published job is
seen, or finds that this job is the one sent last. -/
def HearsOfJob (l : MinerLink) : ConnectionAction → Prop
  | .subscribe => l.state.conn.authorized = true → l.state.notifyUnseen = false →
      ∀ job, l.state.notify = some job → lastNotified l.written = some job
  | _ => True

theorem lastNotified_sendPending (written : List ServerMessage) (job : NotifyJob)
    (diff : UInt64) : lastNotified (written ++ sendPending (some job) diff) = some job := by
  simp [lastNotified, sendPending, sendNotify, ServerMessage.job]

theorem lastNotified_setDifficulty (written : List ServerMessage) (diff : UInt64)
    (rest : List ServerMessage) :
    lastNotified (written ++ .setDifficulty diff :: rest) = lastNotified (written ++ rest) := by
  simp [lastNotified, ServerMessage.job]

theorem lastNotified_changeDiffMessages (written : List ServerMessage) {s : ConnectionState}
    (diff : UInt64) (hauthorized : s.conn.authorized = true) {job : NotifyJob}
    (hjob : s.notify = some job) :
    lastNotified (written ++ changeDiffMessages s diff) = some job := by
  rw [changeDiffMessages, if_pos hauthorized, hjob, lastNotified_setDifficulty,
    lastNotified_sendPending]

section Steps

variable {sha256d : Bytes → Bytes32} {userCfg : ShareUserConfig} {l t : MinerLink}

theorem notifiedCurrent_step_iff {a : ConnectionAction} (hcurrent : NotifiedCurrent l)
    (hstep : linkStep sha256d userCfg l a = some t) : NotifiedCurrent t ↔ HearsOfJob l a := by
  cases linkStep_cases hstep with
  | unrelated hunrelated hview hwritten hconsumed =>
      have hguard : HearsOfJob l a := by
        cases a with
        | subscribe => cases hunrelated
        | _ => trivial
      refine iff_of_true ?_ hguard
      rw [NotifiedCurrent, hview.subscribed, hview.authorized, hview.notifyUnseen, hview.notify,
        hwritten]
      exact hcurrent
  | subscribe hview hwritten hconsumed =>
      rw [NotifiedCurrent, hview.subscribed, hview.authorized, hview.notifyUnseen, hview.notify,
        hwritten, lastNotified_setDifficulty, List.append_nil]
      exact ⟨fun h => h rfl, fun h _ => h⟩
  | authorize name hview hwritten hconsumed =>
      refine iff_of_true ?_ trivial
      intro _ _ _ job hjob
      rw [hview.notify] at hjob
      rw [hwritten, hjob, lastNotified_sendPending]
  | publish job hview hwritten hconsumed =>
      refine iff_of_true ?_ trivial
      intro _ _ hunseen
      rw [hview.notifyUnseen] at hunseen
      cases hunseen
  | setPoolMin _ hview hwritten | poolMinKept _ hview hwritten | diffKept _ _ hview hwritten =>
      refine iff_of_true ?_ trivial
      rw [NotifiedCurrent, hview.subscribed, hview.authorized, hview.notifyUnseen, hview.notify,
        hwritten]
      exact hcurrent
  | notifyChanged hview hwritten hconsumed =>
      refine iff_of_true ?_ trivial
      intro hsubscribed hauthorized _ job hjob
      rw [hview.subscribed] at hsubscribed
      rw [hview.authorized] at hauthorized
      rw [hview.notify] at hjob
      rw [hwritten, if_pos (Bool.and_eq_true_iff.mpr ⟨hsubscribed, hauthorized⟩), hjob,
        lastNotified_sendPending]
  | poolMinRaised hsubscribed hview hwritten hconsumed =>
      refine iff_of_true ?_ trivial
      intro _ hauthorized _ job hjob
      rw [hview.authorized] at hauthorized
      rw [hview.notify] at hjob
      rw [hwritten]
      exact lastNotified_changeDiffMessages l.written l.state.floor hauthorized hjob
  | diffChanged elapsedSecs hsubscribed hview hwritten hconsumed =>
      refine iff_of_true ?_ trivial
      intro _ hauthorized _ job hjob
      rw [hview.authorized] at hauthorized
      rw [hview.notify] at hjob
      rw [hwritten]
      exact lastNotified_changeDiffMessages l.written (l.state.newDiff elapsedSecs) hauthorized hjob

/-- In all states of a run the miner was last sent the published job exactly if every
subscription of the run finds it so, or before its change is seen, or before the miner is
authorized. -/
theorem notifiedCurrent_throughout_iff (sha256d : Bytes → Bytes32) (userCfg : ShareUserConfig)
    (vardiff : VardiffParams) (xn1 : UInt32) (notify : Option NotifyJob) (notifyUnseen : Bool)
    (poolMin : UInt64) (poolMinUnseen : Bool) (actions : List ConnectionAction) :
    let start := connect vardiff xn1 notify notifyUnseen poolMin poolMinUnseen
    Throughout (linkStep sha256d userCfg) NotifiedCurrent start actions ↔
      Guarded (linkStep sha256d userCfg) HearsOfJob start actions := by
  intro start
  have hstart : NotifiedCurrent start := by
    intro hsubscribed
    cases hsubscribed
  exact throughout_iff_guarded (fun _ => True) (fun _ _ _ _ _ => trivial)
    (fun _ _ _ _ hcurrent hstep => notifiedCurrent_step_iff hcurrent hstep) trivial hstart actions

end Steps

theorem miner_left_on_first_job :
    ¬ Throughout (linkStep (fun _ => ByteVec.fill 32 0) plainUser) NotifiedCurrent
      (connect defaultVardiff 0 (some (numberedJob 0)) false 0 false)
      [.authorize none, .publish (numberedJob 1), .notifyChanged, .subscribe] := by
  refine not_throughout_of_runActions (fun t => t.state.conn.subscribed &&
    t.state.conn.authorized && !t.state.notifyUnseen &&
      decide (t.state.notify = some (numberedJob 1) ∧
        lastNotified t.written = some (numberedJob 0))) (by decide +kernel) ?_
  intro t ht hcurrent
  simp only [Bool.and_eq_true, decide_eq_true_eq, Bool.not_eq_true'] at ht
  obtain ⟨⟨⟨hsubscribed, hauthorized⟩, hunseen⟩, hjob, hlast⟩ := ht
  rw [hcurrent hsubscribed hauthorized hunseen _ hjob] at hlast
  exact absurd hlast (by decide +kernel)

/-! The difficulty that was set last. -/

/-- The text is that of the first half of the coinbase, with the PoT byte of the difficulty. -/
structure PatchedFor (job : NotifyJob) (diff : UInt64) (coinb1 : String) : Prop where
  text : coinb1 = patchCoinb1PotByte (Hex.encode job.coinb1Bin) job.targetPotIndex diff
  potByte : job.targetPotIndex ≠ 0 → job.targetPotIndex.toNat < job.coinb1Bin.length →
    ∃ bytes, Hex.decode coinb1 = some bytes ∧
      bytes[job.targetPotIndex.toNat]? = some (floorPot diff)

theorem patchedFor_patchCoinb1PotByte (job : NotifyJob) (diff : UInt64) :
    PatchedFor job diff
      (patchCoinb1PotByte (Hex.encode job.coinb1Bin) job.targetPotIndex diff) where
  text := rfl
  potByte hindex hlength := by
    refine ⟨_, by rw [patchCoinb1PotByte_encode, Hex.decode_encode], ?_⟩
    rw [patchCoinb1Bytes, if_neg hindex, List.getElem?_set_self hlength]

/-- Each job is announced after a difficulty was set, with the PoT byte of the last one. -/
def DifficultyCoherent (written : List ServerMessage) : Prop :=
  ∀ earlier job coinb1 later, written = earlier ++ .notify job coinb1 :: later →
    ∃ diff, lastDifficulty earlier = some diff ∧ PatchedFor job diff coinb1

/-- No miner is authorized before it is subscribed while a job is published. -/
def HasTarget (l : MinerLink) : ConnectionAction → Prop
  | .authorize _ => l.state.conn.subscribed = true ∨ l.state.notify = none
  | _ => True

/-- The difficulty set last is the one that the connection works with; there is none before the
subscription. -/
def DifficultySet (l : MinerLink) : Prop :=
  lastDifficulty l.written =
    if l.state.conn.subscribed then some l.state.conn.currentDiff else none

theorem lastDifficulty_sendPending (written : List ServerMessage) (notify : Option NotifyJob)
    (diff : UInt64) :
    lastDifficulty (written ++ sendPending notify diff) = lastDifficulty written := by
  cases notify with
  | none => simp [sendPending]
  | some job => simp [lastDifficulty, sendPending, sendNotify, ServerMessage.difficulty]

theorem lastDifficulty_concat (written : List ServerMessage) (diff : UInt64) :
    lastDifficulty (written ++ [.setDifficulty diff]) = some diff := by
  simp [lastDifficulty, ServerMessage.difficulty]

theorem changeDiffMessages_eq (s : ConnectionState) (diff : UInt64) :
    changeDiffMessages s diff =
      [.setDifficulty diff] ++ sendPending (if s.conn.authorized then s.notify else none) diff := by
  rw [changeDiffMessages]
  split_ifs
  · rfl
  · rfl

theorem lastDifficulty_changeDiffMessages (written : List ServerMessage) (s : ConnectionState)
    (diff : UInt64) : lastDifficulty (written ++ changeDiffMessages s diff) = some diff := by
  rw [changeDiffMessages_eq, ← List.append_assoc, lastDifficulty_sendPending,
    lastDifficulty_concat]

theorem difficultyCoherent_concat_iff {written : List ServerMessage} {message : ServerMessage} :
    DifficultyCoherent (written ++ [message]) ↔
      DifficultyCoherent written ∧ ∀ job coinb1, message = .notify job coinb1 →
        ∃ diff, lastDifficulty written = some diff ∧ PatchedFor job diff coinb1 := by
  constructor
  · intro hcoherent
    constructor
    · rintro earlier job coinb1 later rfl
      exact hcoherent earlier job coinb1 (later ++ [message]) (by simp)
    · rintro job coinb1 rfl
      exact hcoherent written job coinb1 [] rfl
  · rintro ⟨hwritten, hmessage⟩ earlier job coinb1 later heq
    rcases List.eq_nil_or_concat later with rfl | ⟨later, last, rfl⟩
    · obtain ⟨rfl, hlast⟩ := List.append_inj' heq rfl
      exact hmessage job coinb1 (List.singleton_inj.mp hlast)
    · rw [List.concat_eq_append, ← List.cons_append, ← List.append_assoc] at heq
      exact hwritten earlier job coinb1 later (List.append_inj' heq rfl).1

theorem difficultyCoherent_sendPending_iff {written : List ServerMessage}
    (hwritten : DifficultyCoherent written) (notify : Option NotifyJob) (diff : UInt64)
    (hlast : ∀ diff', lastDifficulty written = some diff' → diff' = diff) :
    DifficultyCoherent (written ++ sendPending notify diff) ↔
      (lastDifficulty written).isSome = true ∨ notify = none := by
  cases notify with
  | none => simpa [sendPending] using hwritten
  | some job =>
      change DifficultyCoherent (written ++ [sendNotify job diff]) ↔ _
      rw [difficultyCoherent_concat_iff]
      constructor
      · rintro ⟨-, hmessage⟩
        obtain ⟨diff', hdiff', -⟩ := hmessage job _ rfl
        exact Or.inl (by rw [hdiff', Option.isSome_some])
      · rintro (hsome | hnone)
        · obtain ⟨diff', hdiff'⟩ := Option.isSome_iff_exists.mp hsome
          refine ⟨hwritten, fun job' coinb1 hmessage => ⟨diff', hdiff', ?_⟩⟩
          obtain ⟨rfl, rfl⟩ := ServerMessage.notify.inj hmessage
          rw [hlast diff' hdiff']
          exact patchedFor_patchCoinb1PotByte job diff
        · cases hnone

theorem DifficultyCoherent.append_changeDiffMessages {written : List ServerMessage}
    (hwritten : DifficultyCoherent written) (s : ConnectionState) (diff : UInt64) :
    DifficultyCoherent (written ++ changeDiffMessages s diff) := by
  have hset : DifficultyCoherent (written ++ [.setDifficulty diff]) :=
    difficultyCoherent_concat_iff.mpr ⟨hwritten, fun _ _ h => nomatch h⟩
  have hlast := lastDifficulty_concat written diff
  rw [changeDiffMessages_eq, ← List.append_assoc]
  refine (difficultyCoherent_sendPending_iff hset _ diff ?_).mpr (Or.inl ?_)
  · intro diff' hdiff'
    exact (Option.some.inj (hlast.symm.trans hdiff')).symm
  · rw [hlast, Option.isSome_some]

section Steps

variable {sha256d : Bytes → Bytes32} {userCfg : ShareUserConfig} {l t : MinerLink}

theorem DifficultySet.step {a : ConnectionAction} (hset : DifficultySet l)
    (hstep : linkStep sha256d userCfg l a = some t) : DifficultySet t := by
  cases linkStep_cases hstep with
  | unrelated _ hview hwritten | publish _ hview hwritten | setPoolMin _ hview hwritten
  | poolMinKept _ hview hwritten | diffKept _ _ hview hwritten =>
      rw [DifficultySet, hwritten, hview.subscribed, hview.currentDiff]
      exact hset
  | subscribe hview hwritten hconsumed =>
      rw [DifficultySet, hwritten, hview.subscribed, hview.currentDiff, lastDifficulty_concat]
      rfl
  | authorize name hview hwritten hconsumed =>
      rw [DifficultySet, hwritten, hview.subscribed, hview.currentDiff, lastDifficulty_sendPending]
      exact hset
  | notifyChanged hview hwritten hconsumed =>
      rw [DifficultySet, hwritten, hview.subscribed, hview.currentDiff]
      cases l.state.conn.subscribed && l.state.conn.authorized with
      | false =>
          rw [if_neg Bool.false_ne_true, List.append_nil]
          exact hset
      | true =>
          rw [if_pos rfl, lastDifficulty_sendPending]
          exact hset
  | poolMinRaised hsubscribed hview hwritten hconsumed =>
      rw [DifficultySet, hwritten, hview.subscribed, hview.currentDiff,
        lastDifficulty_changeDiffMessages]
      exact (if_pos hsubscribed).symm
  | diffChanged elapsedSecs hsubscribed hview hwritten hconsumed =>
      rw [DifficultySet, hwritten, hview.subscribed, hview.currentDiff,
        lastDifficulty_changeDiffMessages]
      exact (if_pos hsubscribed).symm

theorem DifficultySet.sendPending_iff (hset : DifficultySet l)
    (hcoherent : DifficultyCoherent l.written) (notify : Option NotifyJob) :
    DifficultyCoherent (l.written ++ sendPending notify l.state.conn.currentDiff) ↔
      l.state.conn.subscribed = true ∨ notify = none := by
  have hlast : ∀ diff, lastDifficulty l.written = some diff → diff = l.state.conn.currentDiff := by
    intro diff hdiff
    rw [hset] at hdiff
    exact (Option.some.inj (Option.ite_none_right_eq_some.mp hdiff).2).symm
  rw [difficultyCoherent_sendPending_iff hcoherent notify _ hlast, hset]
  cases l.state.conn.subscribed with
  | false => simp
  | true => simp

theorem difficultyCoherent_step_iff {a : ConnectionAction} (hset : DifficultySet l)
    (hcoherent : DifficultyCoherent l.written) (hstep : linkStep sha256d userCfg l a = some t) :
    DifficultyCoherent t.written ↔ HasTarget l a := by
  cases linkStep_cases hstep with
  | unrelated hunrelated hview hwritten hconsumed =>
      have hguard : HasTarget l a := by
        cases a with
        | authorize => cases hunrelated
        | _ => trivial
      rw [hwritten]
      exact iff_of_true hcoherent hguard
  | subscribe hview hwritten hconsumed =>
      rw [hwritten]
      exact iff_of_true
        (difficultyCoherent_concat_iff.mpr ⟨hcoherent, fun _ _ h => nomatch h⟩) trivial
  | authorize name hview hwritten hconsumed =>
      rw [hwritten]
      exact hset.sendPending_iff hcoherent l.state.notify
  | publish _ _ hwritten | setPoolMin _ _ hwritten | poolMinKept _ _ hwritten
  | diffKept _ _ _ hwritten =>
      rw [hwritten]
      exact iff_of_true hcoherent trivial
  | notifyChanged hview hwritten hconsumed =>
      rw [hwritten]
      refine iff_of_true ?_ trivial
      split_ifs with hboth
      · have hsubscribed := (Bool.and_eq_true_iff.mp hboth).1
        exact (hset.sendPending_iff hcoherent l.state.notify).mpr (Or.inl hsubscribed)
      · rwa [List.append_nil]
  | poolMinRaised hsubscribed hview hwritten hconsumed =>
      rw [hwritten]
      exact iff_of_true (hcoherent.append_changeDiffMessages l.state l.state.floor) trivial
  | diffChanged elapsedSecs hsubscribed hview hwritten hconsumed =>
      rw [hwritten]
      exact iff_of_true
        (hcoherent.append_changeDiffMessages l.state (l.state.newDiff elapsedSecs)) trivial

/-- In all states of a run each announced job has the PoT byte of the difficulty set before it
exactly if the run authorizes no miner before its subscription while a job is published. -/
theorem difficultyCoherent_throughout_iff (sha256d : Bytes → Bytes32) (userCfg : ShareUserConfig)
    (vardiff : VardiffParams) (xn1 : UInt32) (notify : Option NotifyJob) (notifyUnseen : Bool)
    (poolMin : UInt64) (poolMinUnseen : Bool) (actions : List ConnectionAction) :
    let start := connect vardiff xn1 notify notifyUnseen poolMin poolMinUnseen
    Throughout (linkStep sha256d userCfg) (fun l => DifficultyCoherent l.written) start actions ↔
      Guarded (linkStep sha256d userCfg) HasTarget start actions := by
  intro start
  have hstart : DifficultyCoherent start.written := by
    intro earlier job coinb1 later hwritten
    exact absurd hwritten.symm (by simp [start, connect])
  have hset : DifficultySet start := rfl
  exact throughout_iff_guarded DifficultySet (fun _ _ _ hset hstep => hset.step hstep)
    (fun _ _ _ hset hcoherent hstep => difficultyCoherent_step_iff hset hcoherent hstep) hset hstart
    actions

end Steps

theorem first_message_announces_job :
    ¬ Throughout (linkStep (fun _ => ByteVec.fill 32 0) plainUser)
      (fun l => DifficultyCoherent l.written)
      (connect defaultVardiff 0 (some (numberedJob 0)) false 0 false) [.authorize none] := by
  refine not_throughout_of_runActions (fun t => decide (t.written.map ServerMessage.job =
    [some (numberedJob 0)])) (by decide +kernel) ?_
  intro t ht hcoherent
  obtain ⟨message, hwritten, hjob⟩ := List.map_eq_singleton_iff.mp (of_decide_eq_true ht)
  cases message with
  | setDifficulty diff => cases hjob
  | notify job coinb1 =>
      obtain ⟨diff, hdiff, -⟩ := hcoherent [] job coinb1 [] hwritten
      cases hdiff

/-! The minimum of the pool. -/

/-- A subscribed miner works at no less than the minimum of the vardiff and the one that the
connection took last from the pool. -/
def AboveFloor (l : MinerLink) : Prop :=
  l.state.conn.subscribed = true →
    l.state.vardiff.min ≤ l.state.conn.currentDiff ∧ l.consumedMin ≤ l.state.conn.currentDiff

/-- The miner submits at more than twice the rate that it should. -/
def SpeedsUp (s : ConnectionState) (elapsedSecs : ℕ) : Prop :=
  let expected :=
    max ((s.vardiff.targetSharesMin.toNat * max elapsedSecs 1 % 2 ^ 64 + 59) / 60) 1
  16 ≤ s.sharesSinceSnap.toNat ∧ expected * 2 < s.sharesSinceSnap.toNat

/-- The miner submits at less than half of the rate that it should. -/
def SlowsDown (s : ConnectionState) (elapsedSecs : ℕ) : Prop :=
  let expected :=
    max ((s.vardiff.targetSharesMin.toNat * max elapsedSecs 1 % 2 ^ 64 + 59) / 60) 1
  s.sharesSinceSnap.toNat * 2 < expected ∧ s.vardiff.recheckSecs.toNat ≤ elapsedSecs

instance (s : ConnectionState) (elapsedSecs : ℕ) : Decidable (SpeedsUp s elapsedSecs) :=
  inferInstanceAs (Decidable (_ ∧ _))

instance (s : ConnectionState) (elapsedSecs : ℕ) : Decidable (SlowsDown s elapsedSecs) :=
  inferInstanceAs (Decidable (_ ∧ _))

/-- A tick does not take the difficulty below the minimum that was taken from the pool: the
published one or that of the vardiff is no lower, or the rate of the shares does not lead there. -/
def TickAboveFloor (l : MinerLink) (elapsedSecs : ℕ) : Prop :=
  l.consumedMin ≤ l.state.vardiff.min ∨ l.consumedMin ≤ l.state.poolMin ∨
    (SpeedsUp l.state elapsedSecs ∧ l.consumedMin ≤ l.state.vardiff.max) ∨
    (¬ SpeedsUp l.state elapsedSecs ∧ SlowsDown l.state elapsedSecs ∧
      l.consumedMin ≤ l.state.conn.currentDiff / 2) ∨
    (¬ SpeedsUp l.state elapsedSecs ∧ ¬ SlowsDown l.state elapsedSecs)

/-- No subscription finds the difficulty below the minimum that was taken from the pool, and no
tick takes the one of a subscribed miner there. -/
def KeepsFloor (l : MinerLink) : ConnectionAction → Prop
  | .subscribe => l.consumedMin ≤ l.state.conn.currentDiff
  | .diffTimer elapsedSecs => l.state.conn.subscribed = true → TickAboveFloor l elapsedSecs
  | _ => True

/-- The minimum of the vardiff holds at all times. -/
def AboveVardiffMin (l : MinerLink) : Prop :=
  l.state.vardiff.min ≤ l.state.conn.currentDiff

section Steps

variable {sha256d : Bytes → Bytes32} {userCfg : ShareUserConfig} {l t : MinerLink}

theorem le_max_iff_or {k m n : UInt64} : k ≤ max m n ↔ k ≤ m ∨ k ≤ n := by
  change (k ≤ if m ≤ n then n else m) ↔ _
  split_ifs with hle
  · exact ⟨Or.inr, fun h => h.elim (fun hm => UInt64.le_trans hm hle) id⟩
  · have hge : n ≤ m := (UInt64.le_total m n).resolve_left hle
    exact ⟨Or.inl, fun h => h.elim id fun hn => UInt64.le_trans hn hge⟩

theorem le_min_iff_and {k m n : UInt64} : k ≤ min m n ↔ k ≤ m ∧ k ≤ n := by
  change (k ≤ if m ≤ n then m else n) ↔ _
  split_ifs with hle
  · exact ⟨fun h => ⟨h, UInt64.le_trans h hle⟩, fun h => h.1⟩
  · have hge : n ≤ m := (UInt64.le_total m n).resolve_left hle
    exact ⟨fun h => ⟨UInt64.le_trans h hge, h⟩, fun h => h.2⟩

theorem vardiffMin_le_floor (s : ConnectionState) : s.vardiff.min ≤ s.floor :=
  le_max_iff_or.mpr (Or.inl (UInt64.le_refl _))

theorem poolMin_le_floor (s : ConnectionState) : s.poolMin ≤ s.floor :=
  le_max_iff_or.mpr (Or.inr (UInt64.le_refl _))

theorem floor_le_newDiff (s : ConnectionState) (elapsedSecs : ℕ) :
    s.floor ≤ s.newDiff elapsedSecs :=
  le_max_iff_or.mpr (Or.inr (UInt64.le_refl _))

theorem le_doubled {k diff : UInt64} (hle : k ≤ diff) :
    k ≤ UInt64.ofNat (min (diff.toNat * 2) (2 ^ 64 - 1)) := by
  have hlt := diff.toNat_lt
  have hk := UInt64.le_iff_toNat_le.mp hle
  rw [UInt64.le_iff_toNat_le, UInt64.toNat_ofNat_of_lt' (by
    show min (diff.toNat * 2) (2 ^ 64 - 1) < 2 ^ 64
    omega)]
  omega

theorem le_retarget_iff {s : ConnectionState} {k : UInt64} (hle : k ≤ s.conn.currentDiff)
    (elapsedSecs : ℕ) :
    k ≤ retarget s.vardiff s.conn.currentDiff s.sharesSinceSnap elapsedSecs ↔
      (SpeedsUp s elapsedSecs ∧ k ≤ s.vardiff.max) ∨
      (¬ SpeedsUp s elapsedSecs ∧ SlowsDown s elapsedSecs ∧
        (k ≤ s.conn.currentDiff / 2 ∨ k ≤ s.vardiff.min)) ∨
      (¬ SpeedsUp s elapsedSecs ∧ ¬ SlowsDown s elapsedSecs) := by
  have hretarget : retarget s.vardiff s.conn.currentDiff s.sharesSinceSnap elapsedSecs =
      if SpeedsUp s elapsedSecs then
        min (UInt64.ofNat (min (s.conn.currentDiff.toNat * 2) (2 ^ 64 - 1))) s.vardiff.max
      else if SlowsDown s elapsedSecs then max (s.conn.currentDiff / 2) s.vardiff.min
      else s.conn.currentDiff := rfl
  rw [hretarget]
  by_cases hfast : SpeedsUp s elapsedSecs
  · rw [if_pos hfast, le_min_iff_and, and_iff_right (le_doubled hle)]
    simp [hfast]
  · rw [if_neg hfast]
    by_cases hslow : SlowsDown s elapsedSecs
    · rw [if_pos hslow, le_max_iff_or]
      simp [hfast, hslow]
    · rw [if_neg hslow]
      simp [hfast, hslow, hle]

theorem le_newDiff_iff (hle : l.consumedMin ≤ l.state.conn.currentDiff) (elapsedSecs : ℕ) :
    l.consumedMin ≤ l.state.newDiff elapsedSecs ↔ TickAboveFloor l elapsedSecs := by
  rw [ConnectionState.newDiff, le_max_iff_or, le_retarget_iff hle, ConnectionState.floor,
    le_max_iff_or, TickAboveFloor]
  tauto

theorem AboveVardiffMin.step {a : ConnectionAction} (habove : AboveVardiffMin l)
    (hstep : linkStep sha256d userCfg l a = some t) : AboveVardiffMin t := by
  cases linkStep_cases hstep with
  | unrelated _ hview | subscribe hview | authorize _ hview | publish _ hview | setPoolMin _ hview
  | notifyChanged hview | poolMinKept _ hview | diffKept _ _ hview =>
      rw [AboveVardiffMin, hview.vardiff, hview.currentDiff]
      exact habove
  | poolMinRaised _ hview =>
      rw [AboveVardiffMin, hview.vardiff, hview.currentDiff]
      exact vardiffMin_le_floor l.state
  | diffChanged elapsedSecs _ hview =>
      rw [AboveVardiffMin, hview.vardiff, hview.currentDiff]
      exact UInt64.le_trans (vardiffMin_le_floor l.state) (floor_le_newDiff l.state elapsedSecs)

theorem aboveFloor_iff (hmin : AboveVardiffMin l) :
    AboveFloor l ↔ (l.state.conn.subscribed = true → l.consumedMin ≤ l.state.conn.currentDiff) :=
  ⟨fun h hsubscribed => (h hsubscribed).2, fun h hsubscribed => ⟨hmin, h hsubscribed⟩⟩

theorem aboveFloor_step_iff {a : ConnectionAction} (hmin : AboveVardiffMin l)
    (habove : AboveFloor l) (hstep : linkStep sha256d userCfg l a = some t) :
    AboveFloor t ↔ KeepsFloor l a := by
  rw [aboveFloor_iff hmin] at habove
  rw [aboveFloor_iff (hmin.step hstep)]
  cases linkStep_cases hstep with
  | unrelated hunrelated hview _ hconsumed =>
      have hguard : KeepsFloor l a := by
        cases a with
        | subscribe => cases hunrelated
        | diffTimer => cases hunrelated
        | _ => trivial
      rw [hview.subscribed, hview.currentDiff, hconsumed]
      exact iff_of_true habove hguard
  | subscribe hview _ hconsumed =>
      rw [hview.subscribed, hview.currentDiff, hconsumed]
      exact ⟨fun h => h rfl, fun h _ => h⟩
  | authorize _ hview _ hconsumed | publish _ hview _ hconsumed | setPoolMin _ hview _ hconsumed
  | notifyChanged hview _ hconsumed =>
      rw [hview.subscribed, hview.currentDiff, hconsumed]
      exact iff_of_true habove trivial
  | poolMinRaised _ hview _ hconsumed =>
      rw [hview.currentDiff, hconsumed]
      exact iff_of_true (fun _ => poolMin_le_floor l.state) trivial
  | poolMinKept hkept hview _ hconsumed =>
      rw [hview.subscribed, hview.currentDiff, hconsumed]
      refine iff_of_true (fun hsubscribed => ?_) trivial
      exact UInt64.le_trans (poolMin_le_floor l.state) (hkept hsubscribed)
  | diffChanged elapsedSecs hsubscribed hview _ hconsumed =>
      rw [hview.subscribed, hview.currentDiff, hconsumed]
      exact forall_congr' fun hsubscribed => le_newDiff_iff (habove hsubscribed) elapsedSecs
  | diffKept elapsedSecs hkept hview _ hconsumed =>
      rw [hview.subscribed, hview.currentDiff, hconsumed]
      refine forall_congr' fun hsubscribed => ?_
      rw [← le_newDiff_iff (habove hsubscribed), hkept hsubscribed]

/-- In all states of a run a subscribed miner works above the floor exactly if each subscription
of the run finds the difficulty there, and each tick after it keeps it there. -/
theorem aboveFloor_throughout_iff (sha256d : Bytes → Bytes32) (userCfg : ShareUserConfig)
    (vardiff : VardiffParams) (xn1 : UInt32) (notify : Option NotifyJob) (notifyUnseen : Bool)
    (poolMin : UInt64) (poolMinUnseen : Bool) (actions : List ConnectionAction) :
    let start := connect vardiff xn1 notify notifyUnseen poolMin poolMinUnseen
    Throughout (linkStep sha256d userCfg) AboveFloor start actions ↔
      Guarded (linkStep sha256d userCfg) KeepsFloor start actions := by
  intro start
  have hstart : AboveFloor start := by
    intro hsubscribed
    cases hsubscribed
  have hmin : AboveVardiffMin start := vardiffMin_le_floor start.state
  exact throughout_iff_guarded AboveVardiffMin (fun _ _ _ hmin hstep => hmin.step hstep)
    (fun _ _ _ hmin habove hstep => aboveFloor_step_iff hmin habove hstep) hmin hstart actions

end Steps

theorem miner_subscribed_below_minimum :
    ¬ Throughout (linkStep (fun _ => ByteVec.fill 32 0) plainUser) AboveFloor
      (connect defaultVardiff 0 none false 1 false)
      [.setPoolMin 1024, .poolMinChanged, .subscribe] := by
  refine not_throughout_of_runActions (fun t => t.state.conn.subscribed &&
    decide (¬ t.consumedMin ≤ t.state.conn.currentDiff)) (by decide +kernel) ?_
  intro t ht habove
  obtain ⟨hsubscribed, hbelow⟩ := Bool.and_eq_true_iff.mp ht
  exact of_decide_eq_true hbelow (habove hsubscribed).2

end DatumGateway.StratumV1Messages
