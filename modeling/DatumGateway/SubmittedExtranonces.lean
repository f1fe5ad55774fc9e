import DatumGateway.EmitSnapshots
import DatumGateway.HexTexts

namespace DatumGateway.SubmittedExtranonces

open DatumGateway.ByteString
open DatumGateway.EmitSnapshots
open DatumGateway.HexTexts
open DatumGateway.JobTracker
open DatumGateway.ShareEncoder
open DatumGateway.ShareRelay
open DatumGateway.StratumV1Assembler
open DatumGateway.StratumV1Connection
open DatumGateway.StratumV1Server

structure SubscribeResult where
  extranonce1Hex : String
  extranonce2Size : ℕ

/-- What `mining.subscribe` is answered with. -/
def subscribeResult (conn : MinerConnection) : SubscribeResult where
  extranonce1Hex := hexWord conn.xn1
  extranonce2Size := 8

structure RelayOutcome where
  inputs : Option SubmittedShareInputs
  forwarded : Option ShareEncoded
  tracker : Tracker

/-- A submit on its way through the connection and the relay, which finds this tracker. -/
def relaySubmit (sha256d : Bytes → Bytes32) (userCfg : ShareUserConfig) (conn : MinerConnection)
    (params : List (Option String)) (tracker : Tracker) (paddingByte : UInt8) : RelayOutcome :=
  match submit conn params with
  | .error _ => { inputs := none, forwarded := none, tracker }
  | .ok share =>
      let relayed := relayShare sha256d userCfg tracker share paddingByte
      { inputs := (relayedWith tracker share).map Prod.snd
        forwarded := relayed.map Prod.fst
        tracker := (relayed.map Prod.snd).getD tracker }

/-- The relayed share is the one that the miner hashed. -/
structure AsPlaced (conn : MinerConnection) (s : ParsedSubmit) (inputs : SubmittedShareInputs) :
    Prop where
  extranonce2 : IsHexOf (subscribeResult conn).extranonce2Size s.extranonce2Hex
  ntime : DenotesWord s.ntimeHex inputs.ntime
  nonce : DenotesWord s.nonceHex inputs.nonce
  extranonce : Hex.decode ((subscribeResult conn).extranonce1Hex ++ s.extranonce2Hex) =
    some inputs.extranonce.toList

structure RelaysOnlyAsPlaced (conn : MinerConnection) (params : List (Option String))
    (tracker : Tracker) (outcome : RelayOutcome) : Prop where
  asPlaced : ∀ inputs, outcome.inputs = some inputs →
    ∃ s, parseSubmitParams params = some s ∧ AsPlaced conn s inputs
  dropped : outcome.inputs = none → outcome.forwarded = none ∧ outcome.tracker = tracker

/-- The submit gets to the relay, and its texts can be read. -/
structure Taken (conn : MinerConnection) (tracker : Tracker) (s : ParsedSubmit) : Prop where
  subscribed : conn.subscribed = true
  authorized : conn.authorized = true
  versionRolling : (rolledVersion conn s.versionRollingRaw).isSome
  known : (tracker.get (.sv1 s.jobId)).isSome
  ntime : ReadsAsWord s.ntimeHex
  nonce : ReadsAsWord s.nonceHex
  extranonce2 : IsHexBytes s.extranonce2Hex

theorem length_extranonce1 (conn : MinerConnection) :
    (leBytes 4 conn.xn1.toNat).reverse.length = 4 := by
  rw [List.length_reverse, length_leBytes]

def submittedShare (conn : MinerConnection) (s : ParsedSubmit) (versionRolling : UInt32) :
    SubmittedShare where
  username := if s.username = "" then conn.authorizedUsername else s.username
  jobId := s.jobId
  extranonce2Hex := s.extranonce2Hex
  ntimeHex := s.ntimeHex
  nonceHex := s.nonceHex
  extranonce1 :=
    ⟨(leBytes 4 conn.xn1.toNat).reverse, length_extranonce1 conn⟩
  versionRolling
  currentDiff := ((ringLookup conn.emitRing s.jobId).map EmittedJob.diff).getD conn.currentDiff
  patchedCoinb1Bin := (ringLookup conn.emitRing s.jobId).map EmittedJob.patchedCoinb1Bin

theorem submit_eq_ok_iff (conn : MinerConnection) (params : List (Option String))
    (share : SubmittedShare) :
    submit conn params = .ok share ↔
      conn.subscribed = true ∧ conn.authorized = true ∧
        ∃ s, parseSubmitParams params = some s ∧
          ∃ versionRolling, rolledVersion conn s.versionRollingRaw = some versionRolling ∧
            submittedShare conn s versionRolling = share := by
  unfold submit
  cases conn.subscribed with
  | false => simp
  | true =>
      cases conn.authorized with
      | false => simp
      | true =>
          cases parseSubmitParams params with
          | none => simp
          | some s =>
              cases hrolled : rolledVersion conn s.versionRollingRaw with
              | none => simp [hrolled]
              | some versionRolling => simp [hrolled, submittedShare]

theorem sv1ShareToInputs_eq_some_iff (share : SubmittedShare) (entryVersion : UInt32)
    (inputs : SubmittedShareInputs) :
    sv1ShareToInputs share entryVersion = some inputs ↔
      ∃ ntime nonce extranonce2, parseU32BeHex share.ntimeHex = some ntime ∧
        parseU32BeHex share.nonceHex = some nonce ∧
        Hex.decode share.extranonce2Hex = some extranonce2 ∧
        inputs =
          { username := share.username
            extranonce := fullExtranonce share.extranonce1.toList extranonce2
            ntime, nonce
            version := entryVersion ||| share.versionRolling
            currentDiff := share.currentDiff
            patchedCoinb1Bin := share.patchedCoinb1Bin } := by
  simp only [sv1ShareToInputs, Option.bind_eq_bind, Option.bind_eq_some_iff, Option.some.injEq]
  constructor
  · rintro ⟨ntime, hntime, nonce, hnonce, extranonce2, hextranonce2, rfl⟩
    exact ⟨ntime, nonce, extranonce2, hntime, hnonce, hextranonce2, rfl⟩
  · rintro ⟨ntime, nonce, extranonce2, hntime, hnonce, hextranonce2, rfl⟩
    exact ⟨ntime, hntime, nonce, hnonce, extranonce2, hextranonce2, rfl⟩

theorem decode_extranonce {conn : MinerConnection} {s : ParsedSubmit} {extranonce2 : Bytes}
    (hextranonce2 : Hex.decode s.extranonce2Hex = some extranonce2) :
    Hex.decode ((subscribeResult conn).extranonce1Hex ++ s.extranonce2Hex) =
      some ((leBytes 4 conn.xn1.toNat).reverse ++ extranonce2) :=
  Hex.decode_append (Hex.decode_encode _) hextranonce2

theorem asPlaced_iff {conn : MinerConnection} {s : ParsedSubmit} {versionRolling : UInt32}
    {entryVersion : UInt32} {inputs : SubmittedShareInputs}
    (hinputs : sv1ShareToInputs (submittedShare conn s versionRolling) entryVersion =
      some inputs) :
    AsPlaced conn s inputs ↔
      s.extranonce2Hex.length = 16 ∧ '+' ∉ s.ntimeHex.toList ∧ '+' ∉ s.nonceHex.toList := by
  obtain ⟨ntime, nonce, extranonce2, hntime, hnonce, hextranonce2, rfl⟩ :=
    (sv1ShareToInputs_eq_some_iff _ _ _).mp hinputs
  constructor
  · rintro ⟨hsize, hntimeText, hnonceText, -⟩
    exact ⟨hsize.1, ((denotesWord_iff _ _).mp hntimeText).2,
      ((denotesWord_iff _ _).mp hnonceText).2⟩
  · rintro ⟨hlength, hntimePlus, hnoncePlus⟩
    have hsize : extranonce2.length = 8 := by
      have hdouble := length_of_decode hextranonce2
      change s.extranonce2Hex.length = _ at hdouble
      omega
    have hextranonce1 : ((leBytes 4 conn.xn1.toNat).reverse).length = 4 := by
      rw [List.length_reverse, length_leBytes]
    refine ⟨(isHexOf_iff_of_decode hextranonce2 8).mpr hsize,
      (denotesWord_iff _ _).mpr ⟨hntime, hntimePlus⟩,
      (denotesWord_iff _ _).mpr ⟨hnonce, hnoncePlus⟩, ?_⟩
    rw [decode_extranonce hextranonce2]
    dsimp only [submittedShare, List.Vector.toList_mk]
    rw [fullExtranonce_of_length (by rw [hextranonce1, hsize])]

section Relay

variable (sha256d : Bytes → Bytes32) (userCfg : ShareUserConfig) (conn : MinerConnection)
variable (params : List (Option String)) (tracker : Tracker) (paddingByte : UInt8)

theorem inputs_relaySubmit_iff (inputs : SubmittedShareInputs) :
    (relaySubmit sha256d userCfg conn params tracker paddingByte).inputs = some inputs ↔
      ∃ share, submit conn params = .ok share ∧
        ∃ entry, tracker.get (.sv1 share.jobId) = some entry ∧
          sv1ShareToInputs share entry.jobMeta.version = some inputs := by
  unfold relaySubmit
  cases hsubmit : submit conn params with
  | error err => simp
  | ok share => simp [relayedWith, Option.bind_eq_some_iff]

theorem dropped_relaySubmit
    (hinputs : (relaySubmit sha256d userCfg conn params tracker paddingByte).inputs = none) :
    (relaySubmit sha256d userCfg conn params tracker paddingByte).forwarded = none ∧
      (relaySubmit sha256d userCfg conn params tracker paddingByte).tracker = tracker := by
  unfold relaySubmit at hinputs ⊢
  cases hsubmit : submit conn params with
  | error err => exact ⟨rfl, rfl⟩
  | ok share =>
      simp only [hsubmit, Option.map_eq_none_iff] at hinputs
      simp [relayShare, hinputs]

theorem exists_inputs_relaySubmit {s : ParsedSubmit} (hparse : parseSubmitParams params = some s)
    (htaken : Taken conn tracker s) :
    ∃ inputs, (relaySubmit sha256d userCfg conn params tracker paddingByte).inputs =
      some inputs := by
  obtain ⟨versionRolling, hrolled⟩ := Option.isSome_iff_exists.mp htaken.versionRolling
  obtain ⟨entry, hentry⟩ := Option.isSome_iff_exists.mp htaken.known
  obtain ⟨ntime, hntime⟩ :=
    Option.isSome_iff_exists.mp ((isSome_fromStrRadix16_iff _).mpr htaken.ntime)
  obtain ⟨nonce, hnonce⟩ :=
    Option.isSome_iff_exists.mp ((isSome_fromStrRadix16_iff _).mpr htaken.nonce)
  obtain ⟨extranonce2, hextranonce2⟩ :=
    Option.isSome_iff_exists.mp ((isSome_decode_iff _).mpr htaken.extranonce2)
  have hinputs := (sv1ShareToInputs_eq_some_iff (submittedShare conn s versionRolling)
    entry.jobMeta.version _).mpr ⟨ntime, nonce, extranonce2, hntime, hnonce, hextranonce2, rfl⟩
  refine ⟨_, (inputs_relaySubmit_iff ..).mpr ⟨_, ?_, entry, hentry, hinputs⟩⟩
  exact (submit_eq_ok_iff ..).mpr
    ⟨htaken.subscribed, htaken.authorized, s, hparse, versionRolling, hrolled, rfl⟩

theorem taken_of_inputs {inputs : SubmittedShareInputs}
    (hinputs : (relaySubmit sha256d userCfg conn params tracker paddingByte).inputs =
      some inputs) :
    ∃ s, parseSubmitParams params = some s ∧ Taken conn tracker s ∧
      ∃ versionRolling entryVersion,
        sv1ShareToInputs (submittedShare conn s versionRolling) entryVersion = some inputs := by
  obtain ⟨share, hsubmit, entry, hentry, hinputs⟩ := (inputs_relaySubmit_iff ..).mp hinputs
  obtain ⟨hsubscribed, hauthorized, s, hparse, versionRolling, hrolled, rfl⟩ :=
    (submit_eq_ok_iff ..).mp hsubmit
  obtain ⟨ntime, nonce, extranonce2, hntime, hnonce, hextranonce2, -⟩ :=
    (sv1ShareToInputs_eq_some_iff _ _ _).mp hinputs
  refine ⟨s, hparse, ?_, versionRolling, entry.jobMeta.version, hinputs⟩
  exact
    { subscribed := hsubscribed
      authorized := hauthorized
      versionRolling := Option.isSome_of_eq_some hrolled
      known := Option.isSome_of_eq_some hentry
      ntime := (isSome_fromStrRadix16_iff _).mp (Option.isSome_of_eq_some hntime)
      nonce := (isSome_fromStrRadix16_iff _).mp (Option.isSome_of_eq_some hnonce)
      extranonce2 := (isSome_decode_iff _).mp (Option.isSome_of_eq_some hextranonce2) }

/-- Extranonce text of any other length is cut or filled up with zeros, and not refused. -/
theorem relaysOnlyAsPlaced_iff :
    RelaysOnlyAsPlaced conn params tracker
        (relaySubmit sha256d userCfg conn params tracker paddingByte) ↔
      ∀ s, parseSubmitParams params = some s → Taken conn tracker s →
        s.extranonce2Hex.length = 16 ∧ '+' ∉ s.ntimeHex.toList ∧ '+' ∉ s.nonceHex.toList := by
  constructor
  · intro hrelays s hparse htaken
    obtain ⟨inputs, hinputs⟩ :=
      exists_inputs_relaySubmit sha256d userCfg conn params tracker paddingByte hparse htaken
    obtain ⟨s', hparse', -, versionRolling, entryVersion, hconverted⟩ :=
      taken_of_inputs _ _ _ _ _ _ hinputs
    obtain ⟨s'', hparse'', hplaced⟩ := hrelays.asPlaced inputs hinputs
    obtain rfl := Option.some.inj (hparse.symm.trans hparse')
    obtain rfl := Option.some.inj (hparse.symm.trans hparse'')
    exact (asPlaced_iff hconverted).mp hplaced
  · intro hexact
    refine ⟨?_, dropped_relaySubmit sha256d userCfg conn params tracker paddingByte⟩
    intro inputs hinputs
    obtain ⟨s, hparse, htaken, versionRolling, entryVersion, hconverted⟩ :=
      taken_of_inputs _ _ _ _ _ _ hinputs
    exact ⟨s, hparse, (asPlaced_iff hconverted).mpr (hexact s hparse htaken)⟩

end Relay

/-! A miner that has subscribed and been authorized, and a share with one byte of the eight. -/

def readyConnection : MinerConnection :=
  { (handleConnection defaultVardiff 0 none false 0 false).conn with
    subscribed := true, authorized := true }

def shortShare : List (Option String) :=
  [some "miner", some (numberedJob 0).jobId, some "01", some "6a000000", some "0000002a"]

theorem short_extranonce2_relayed :
    ¬ RelaysOnlyAsPlaced readyConnection shortShare (numberedTracker 0)
      (relaySubmit (fun _ => ByteVec.fill 32 0) plainUser readyConnection shortShare
        (numberedTracker 0) 0) := by
  intro hrelays
  have hrelayed : (relaySubmit (fun _ => ByteVec.fill 32 0) plainUser readyConnection shortShare
      (numberedTracker 0) 0).inputs.isSome = true := by
    decide +kernel
  obtain ⟨inputs, hinputs⟩ := Option.isSome_iff_exists.mp hrelayed
  obtain ⟨s, hparse, hplaced⟩ := hrelays.asPlaced inputs hinputs
  obtain rfl := Option.some.inj hparse
  exact absurd hplaced.extranonce2 (by decide)

end DatumGateway.SubmittedExtranonces
