import DatumGateway.ShareRelay

namespace DatumGateway.StratumV1Connection

open DatumGateway.ByteString
open DatumGateway.JobTracker
open DatumGateway.ShareEncoder
open DatumGateway.ShareRelay
open DatumGateway.StratumV1Server

def poolVersionMask : UInt32 := 0x1fffe000

structure VardiffParams where
  min : UInt64
  targetSharesMin : UInt32
  recheckSecs : UInt64
  max : UInt64

/-- The difficulty that the rate of the shares since the last tick asks for. -/
def retarget (vardiff : VardiffParams) (currentDiff : UInt64) (sharesSinceSnap : UInt32)
    (elapsedSecs : ℕ) : UInt64 :=
  let target := vardiff.targetSharesMin.toNat
  let windowSecs := max elapsedSecs 1
  let expected := max ((target * windowSecs % 2 ^ 64 + 59) / 60) 1
  let observed := sharesSinceSnap.toNat
  if 16 ≤ observed ∧ expected * 2 < observed then
    min (UInt64.ofNat (min (currentDiff.toNat * 2) (2 ^ 64 - 1))) vardiff.max
  else if observed * 2 < expected ∧ vardiff.recheckSecs.toNat ≤ elapsedSecs then
    max (currentDiff / 2) vardiff.min
  else currentDiff

/-- `names` are the entries of the first parameter, each with its text if it is a string. -/
def negotiatedMask (names : List (Option String)) (requestedMask : Option String) :
    Option UInt32 :=
  if some "version-rolling" ∈ names then
    let requested := requestedMask.bind fun s => Hex.fromStrRadix16 (Hex.trimStart0x s.toList)
    some (requested.getD poolVersionMask &&& poolVersionMask)
  else none

structure ConnectionState where
  conn : MinerConnection
  vardiff : VardiffParams
  sharesSinceSnap : UInt32 := 0
  notify : Option NotifyJob
  notifyUnseen : Bool
  poolMin : UInt64
  poolMinUnseen : Bool
  submitted : List SubmittedShare := []
  /-- The jobs that were sent with `mining.notify`, the last one first. -/
  sent : List EmittedJob := []
  /-- The shares that the relay forwarded. -/
  forwarded : List (SubmittedShare × ShareEncoded) := []

def handleConnection (vardiff : VardiffParams) (xn1 : UInt32) (notify : Option NotifyJob)
    (notifyUnseen : Bool) (poolMin : UInt64) (poolMinUnseen : Bool) : ConnectionState where
  conn :=
    { subscribed := false
      authorized := false
      authorizedUsername := ""
      versionRollingEnabled := false
      versionRollingMask := 0
      xn1
      currentDiff := max vardiff.min poolMin
      emitRing := (none, none) }
  vardiff
  notify
  notifyUnseen
  poolMin
  poolMinUnseen

inductive ConnectionAction where
  | configure (names : List (Option String)) (requestedMask : Option String)
  | subscribe
  | authorize (name : Option String)
  | submit (params : List (Option String))
  | publish (job : NotifyJob)
  | setPoolMin (poolMin : UInt64)
  | notifyChanged
  | poolMinChanged
  | diffTimer (elapsedSecs : ℕ)
  /-- The relay takes a share; other tasks have left the tracker as it finds it. -/
  | relay (tracker : Tracker) (paddingByte : UInt8)

def submitQueueSize : ℕ := 64

/-- The hex text of the first half, as a `mining.notify` at the difficulty has it. -/
def patchCoinb1PotByte (coinb1 : String) (targetPotIndex : UInt16) (currentDiff : UInt64) :
    String :=
  let hexOffset := targetPotIndex.toNat * 2
  if targetPotIndex = 0 then coinb1
  else if coinb1.length < hexOffset + 2 then coinb1
  else
    String.ofList (coinb1.toList.take hexOffset ++ Hex.encodeChars [floorPot currentDiff] ++
      coinb1.toList.drop (hexOffset + 2))

theorem length_encodeChars (bs : Bytes) : (Hex.encodeChars bs).length = bs.length * 2 := by
  induction bs with
  | nil => rfl
  | cons b bs ih =>
      rw [Hex.encodeChars, List.length_cons, List.length_cons, List.length_cons, ih, Nat.succ_mul]

theorem encodeChars_set (bs : Bytes) (i : ℕ) (b : UInt8) (hi : i < bs.length) :
    Hex.encodeChars (bs.set i b) = (Hex.encodeChars bs).take (i * 2) ++ Hex.encodeChars [b] ++
      (Hex.encodeChars bs).drop (i * 2 + 2) := by
  induction bs generalizing i with
  | nil => cases hi
  | cons c bs ih =>
      cases i with
      | zero => rfl
      | succ i =>
          rw [List.set_cons_succ, Hex.encodeChars, ih i (Nat.lt_of_succ_lt_succ hi), Nat.succ_mul]
          rfl

theorem patchCoinb1PotByte_encode (coinb1Bin : Bytes) (targetPotIndex : UInt16)
    (currentDiff : UInt64) :
    patchCoinb1PotByte (Hex.encode coinb1Bin) targetPotIndex currentDiff =
      Hex.encode (patchCoinb1Bytes coinb1Bin targetPotIndex currentDiff) := by
  have hlength : (Hex.encode coinb1Bin).length = coinb1Bin.length * 2 := by
    rw [Hex.encode, String.length_ofList, length_encodeChars]
  rw [patchCoinb1PotByte, patchCoinb1Bytes, hlength]
  split_ifs with hzero hshort
  · rfl
  · rw [List.set_eq_of_length_le (by omega)]
  · rw [Hex.encode, String.toList_ofList, Hex.encode, encodeChars_set _ _ _ (by omega)]

def emittedJob (job : NotifyJob) (currentDiff : UInt64) : EmittedJob where
  jobId := job.jobId
  patchedCoinb1Bin := patchCoinb1Bytes job.coinb1Bin job.targetPotIndex currentDiff
  diff := currentDiff

namespace ConnectionState

def floor (s : ConnectionState) : UInt64 :=
  max s.vardiff.min s.poolMin

def sendPending (s : ConnectionState) : ConnectionState :=
  match s.notify with
  | none => s
  | some job =>
      { s with
        conn := s.conn.emit job
        sent := emittedJob job s.conn.currentDiff :: s.sent }

/-- The miner is sent the new difficulty and, if it is authorized, the job once more. -/
def changeDiff (s : ConnectionState) (newDiff : UInt64) : ConnectionState :=
  let s := { s with conn := { s.conn with currentDiff := newDiff } }
  if s.conn.authorized then s.sendPending else s

def newDiff (s : ConnectionState) (elapsedSecs : ℕ) : UInt64 :=
  max (retarget s.vardiff s.conn.currentDiff s.sharesSinceSnap elapsedSecs) s.floor

end ConnectionState

section Steps

variable (sha256d : Bytes → Bytes32) (userCfg : ShareUserConfig)

def connectionStep (s : ConnectionState) : ConnectionAction → Option ConnectionState
  | .configure names requestedMask =>
      match negotiatedMask names requestedMask with
      | none => some s
      | some mask =>
          some { s with
            conn := { s.conn with versionRollingEnabled := true, versionRollingMask := mask } }
  | .subscribe => some { s with conn := { s.conn with subscribed := true } }
  | .authorize name =>
      let authorizedUsername := name.getD s.conn.authorizedUsername
      let s := { s with conn := { s.conn with authorized := true, authorizedUsername } }
      some s.sendPending
  | .submit params =>
      match submit s.conn params with
      | .error _ => some s
      | .ok share =>
          if s.submitted.length < submitQueueSize then
            some { s with
              submitted := s.submitted ++ [share]
              sharesSinceSnap := max s.sharesSinceSnap (s.sharesSinceSnap + 1) }
          else none
  | .publish job => some { s with notify := some job, notifyUnseen := true }
  | .setPoolMin poolMin => some { s with poolMin, poolMinUnseen := true }
  | .notifyChanged =>
      if s.notifyUnseen then
        let s := { s with notifyUnseen := false }
        some (if s.conn.subscribed && s.conn.authorized then s.sendPending else s)
      else none
  | .poolMinChanged =>
      if s.poolMinUnseen then
        let s := { s with poolMinUnseen := false }
        some (if s.conn.currentDiff < s.floor && s.conn.subscribed then s.changeDiff s.floor else s)
      else none
  | .diffTimer elapsedSecs =>
      let newDiff := s.newDiff elapsedSecs
      let s :=
        if newDiff != s.conn.currentDiff && s.conn.subscribed then s.changeDiff newDiff else s
      some { s with sharesSinceSnap := 0 }
  | .relay tracker paddingByte =>
      match s.submitted with
      | [] => none
      | share :: submitted =>
          match relayShare sha256d userCfg tracker share paddingByte with
          | none => some { s with submitted }
          | some (enc, _) =>
              some { s with submitted, forwarded := s.forwarded ++ [(share, enc)] }

end Steps

/-- What a step makes of the connection, with the branch that it takes. -/
inductive ConnectionStep (sha256d : Bytes → Bytes32) (userCfg : ShareUserConfig)
    (s : ConnectionState) : ConnectionAction → ConnectionState → Prop
  | configureIgnored (names : List (Option String)) (requestedMask : Option String)
      (hnone : negotiatedMask names requestedMask = none) :
      ConnectionStep sha256d userCfg s (.configure names requestedMask) s
  | configured (names : List (Option String)) (requestedMask : Option String) (mask : UInt32)
      (hmask : negotiatedMask names requestedMask = some mask) :
      ConnectionStep sha256d userCfg s (.configure names requestedMask)
        { s with conn := { s.conn with versionRollingEnabled := true, versionRollingMask := mask } }
  | subscribed :
      ConnectionStep sha256d userCfg s .subscribe
        { s with conn := { s.conn with subscribed := true } }
  | authorized (name : Option String) :
      ConnectionStep sha256d userCfg s (.authorize name)
        ({ s with
            conn := { s.conn with
              authorized := true
              authorizedUsername := name.getD s.conn.authorizedUsername } } :
          ConnectionState).sendPending
  | submitRefused (params : List (Option String)) (e : SubmitError)
      (hsubmit : submit s.conn params = .error e) :
      ConnectionStep sha256d userCfg s (.submit params) s
  | submitted (params : List (Option String)) (share : SubmittedShare)
      (hsubmit : submit s.conn params = .ok share) (hroom : s.submitted.length < submitQueueSize) :
      ConnectionStep sha256d userCfg s (.submit params)
        { s with
          submitted := s.submitted ++ [share]
          sharesSinceSnap := max s.sharesSinceSnap (s.sharesSinceSnap + 1) }
  | published (job : NotifyJob) :
      ConnectionStep sha256d userCfg s (.publish job)
        { s with notify := some job, notifyUnseen := true }
  | poolMinSet (poolMin : UInt64) :
      ConnectionStep sha256d userCfg s (.setPoolMin poolMin)
        { s with poolMin, poolMinUnseen := true }
  | jobSent (hunseen : s.notifyUnseen = true)
      (hready : (s.conn.subscribed && s.conn.authorized) = true) :
      ConnectionStep sha256d userCfg s .notifyChanged
        { s with notifyUnseen := false }.sendPending
  | jobHeld (hunseen : s.notifyUnseen = true)
      (hready : (s.conn.subscribed && s.conn.authorized) = false) :
      ConnectionStep sha256d userCfg s .notifyChanged { s with notifyUnseen := false }
  | poolMinRaised (hunseen : s.poolMinUnseen = true)
      (hraise : (s.conn.currentDiff < s.floor && s.conn.subscribed) = true) :
      ConnectionStep sha256d userCfg s .poolMinChanged
        ({ s with poolMinUnseen := false }.changeDiff s.floor)
  | poolMinKept (hunseen : s.poolMinUnseen = true)
      (hraise : (s.conn.currentDiff < s.floor && s.conn.subscribed) = false) :
      ConnectionStep sha256d userCfg s .poolMinChanged { s with poolMinUnseen := false }
  | diffChanged (elapsedSecs : ℕ)
      (hchange : (s.newDiff elapsedSecs != s.conn.currentDiff && s.conn.subscribed) = true) :
      ConnectionStep sha256d userCfg s (.diffTimer elapsedSecs)
        { s.changeDiff (s.newDiff elapsedSecs) with sharesSinceSnap := 0 }
  | diffKept (elapsedSecs : ℕ)
      (hchange : (s.newDiff elapsedSecs != s.conn.currentDiff && s.conn.subscribed) = false) :
      ConnectionStep sha256d userCfg s (.diffTimer elapsedSecs) { s with sharesSinceSnap := 0 }
  | relayRefused (tracker : Tracker) (paddingByte : UInt8) (share : SubmittedShare)
      (submitted : List SubmittedShare) (hsubmitted : s.submitted = share :: submitted)
      (hrelay : relayShare sha256d userCfg tracker share paddingByte = none) :
      ConnectionStep sha256d userCfg s (.relay tracker paddingByte) { s with submitted }
  | relayed (tracker : Tracker) (paddingByte : UInt8) (share : SubmittedShare)
      (submitted : List SubmittedShare) (enc : ShareEncoded) (after : Tracker)
      (hsubmitted : s.submitted = share :: submitted)
      (hrelay : relayShare sha256d userCfg tracker share paddingByte = some (enc, after)) :
      ConnectionStep sha256d userCfg s (.relay tracker paddingByte)
        { s with submitted, forwarded := s.forwarded ++ [(share, enc)] }

theorem connectionStep_cases {sha256d : Bytes → Bytes32} {userCfg : ShareUserConfig}
    {s t : ConnectionState} {a : ConnectionAction}
    (hstep : connectionStep sha256d userCfg s a = some t) :
    ConnectionStep sha256d userCfg s a t := by
  cases a with
  | configure names requestedMask =>
      simp only [connectionStep] at hstep
      split at hstep <;> rename_i hmask <;> obtain rfl := Option.some.inj hstep
      · exact .configureIgnored names requestedMask hmask
      · exact .configured names requestedMask _ hmask
  | subscribe =>
      obtain rfl := Option.some.inj hstep
      exact .subscribed
  | authorize name =>
      obtain rfl := Option.some.inj hstep
      exact .authorized name
  | submit params =>
      simp only [connectionStep] at hstep
      split at hstep <;> rename_i hsubmit
      · obtain rfl := Option.some.inj hstep
        exact .submitRefused params _ hsubmit
      · obtain ⟨hroom, hstep⟩ := Option.ite_none_right_eq_some.mp hstep
        obtain rfl := Option.some.inj hstep
        exact .submitted params _ hsubmit hroom
  | publish job =>
      obtain rfl := Option.some.inj hstep
      exact .published job
  | setPoolMin poolMin =>
      obtain rfl := Option.some.inj hstep
      exact .poolMinSet poolMin
  | notifyChanged =>
      obtain ⟨hunseen, hstep⟩ := Option.ite_none_right_eq_some.mp hstep
      obtain rfl := Option.some.inj hstep
      dsimp only
      split <;> rename_i hready
      · exact .jobSent hunseen hready
      · exact .jobHeld hunseen (Bool.eq_false_of_not_eq_true hready)
  | poolMinChanged =>
      obtain ⟨hunseen, hstep⟩ := Option.ite_none_right_eq_some.mp hstep
      have hfloor : ({ s with poolMinUnseen := false } : ConnectionState).floor = s.floor := rfl
      obtain rfl := Option.some.inj hstep
      rw [hfloor]
      split <;> rename_i hraise
      · exact .poolMinRaised hunseen hraise
      · exact .poolMinKept hunseen (Bool.eq_false_of_not_eq_true hraise)
  | diffTimer elapsedSecs =>
      simp only [connectionStep] at hstep
      split at hstep <;> rename_i hchange <;> obtain rfl := Option.some.inj hstep
      · exact .diffChanged elapsedSecs hchange
      · exact .diffKept elapsedSecs (Bool.eq_false_of_not_eq_true hchange)
  | relay tracker paddingByte =>
      simp only [connectionStep] at hstep
      split at hstep
      · cases hstep
      · rename_i share submitted hsubmitted
        split at hstep <;> rename_i hrelay <;> obtain rfl := Option.some.inj hstep
        · exact .relayRefused tracker paddingByte share submitted hsubmitted hrelay
        · exact .relayed tracker paddingByte share submitted _ _ hsubmitted hrelay

end DatumGateway.StratumV1Connection
