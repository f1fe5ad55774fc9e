import DatumGateway.KeyedMaps
import DatumGateway.UpstreamFrames

/-!
Calls of `send_frame` that run at the same time on one connection.  A call holds the
mutex of the nonce to its end, and the one of the writer while it writes; the other
tasks may run wherever it waits for a mutex or for the socket.
-/

namespace DatumGateway.FrameSends

open DatumGateway.ByteString
open DatumGateway.FrameHeaders
open DatumGateway.KeyedMaps
open DatumGateway.SessionNonces
open DatumGateway.UpstreamFrames

inductive SendPhase where
  | waiting
  | locked
  | packed (plainWord : UInt32) (ciphertext : Bytes)
  | obfuscated (header ciphertext : Bytes)
  | writingHeader (unwritten ciphertext : Bytes)
  | writingBody (unwritten ciphertext : Bytes)

structure SendCall where
  protoCmd : UInt8
  plaintext : Bytes
  phase : SendPhase

/-- How often the header key and the nonce have been advanced. -/
structure Positions where
  header : ℕ := 0
  nonce : ℕ := 0
  deriving DecidableEq

structure SendError where
  error : ClientError
  before : Positions
  after : Positions
  deriving DecidableEq

/-- The sending half of a connection, and what has become of the calls. -/
structure Connected where
  senderNonce : ByteVec 24
  senderObf : HeaderObfuscator
  nonceHolder : Option ℕ := none
  writerHolder : Option ℕ := none
  calls : KeyMap ℕ SendCall := ∅
  wire : Bytes := []
  /-- The frames of the calls that have returned without an error, in this order. -/
  completed : List (UInt8 × Bytes) := []
  positions : Positions := {}
  /-- The positions when the nonce was last locked. -/
  lockedAt : Positions := {}
  errors : List SendError := []
  /-- The ciphertexts of which some bytes are on the wire, with their nonces. -/
  exposed : List (ByteVec 24 × Bytes) := []

inductive SendAction where
  | call (id : ℕ) (protoCmd : UInt8) (plaintext : Bytes)
  | lockNonce (id : ℕ)
  | boxEasy (id : ℕ)
  | obfuscate (id : ℕ)
  | lockWriter (id : ℕ)
  /-- The socket takes some of the bytes. -/
  | write (id : ℕ) (count : ℕ)
  | finish (id : ℕ)
  | writeFails (id : ℕ) (timedOut : Bool)

def channelFrame (protoCmd : UInt8) (plaintext : Bytes) : PlainFrame where
  protoCmd
  isEncryptedPubkey := false
  isEncryptedChannel := true
  payload := plaintext
  signature := none

namespace Connected

def setPhase (s : Connected) (id : ℕ) (call : SendCall) (phase : SendPhase) : Connected :=
  { s with calls := s.calls.insert id { call with phase } }

/-- The call returns, and lets go of the mutexes it holds. -/
def release (s : Connected) (id : ℕ) : Connected :=
  { s with
    calls := s.calls.erase id
    nonceHolder := none
    writerHolder := if s.writerHolder = some id then none else s.writerHolder }

def fail (s : Connected) (id : ℕ) (error : ClientError) : Connected :=
  { s.release id with
    errors := s.errors ++ [{ error, before := s.lockedAt, after := s.positions }] }

end Connected

section Steps

variable (crypto : DatumCrypto) (precompKey : ByteVec 32)

def sendStep (s : Connected) : SendAction → Option Connected
  | .call id protoCmd plaintext =>
      match s.calls.lookup id with
      | some _ => none
      | none =>
          some { s with calls := s.calls.insert id { protoCmd, plaintext, phase := .waiting } }
  | .lockNonce id => do
      let call ← s.calls.lookup id
      match call.phase, s.nonceHolder with
      | .waiting, none =>
          some { s.setPhase id call .locked with nonceHolder := some id, lockedAt := s.positions }
      | _, _ => none
  | .boxEasy id => do
      let call ← s.calls.lookup id
      match call.phase with
      | .locked =>
          let frame := channelFrame call.protoCmd call.plaintext
          match frameParts crypto precompKey s.senderNonce frame with
          | .error e => some (s.fail id e)
          | .ok (plainWord, ciphertext) => some (s.setPhase id call (.packed plainWord ciphertext))
      | _ => none
  | .obfuscate id => do
      let call ← s.calls.lookup id
      match call.phase with
      | .packed plainWord ciphertext =>
          let (xored, senderObf) := s.senderObf.encrypt plainWord
          some { s.setPhase id call (.obfuscated (toLeBytes xored).toList ciphertext) with
            senderObf
            positions := { s.positions with header := s.positions.header + 1 } }
      | _ => none
  | .lockWriter id => do
      let call ← s.calls.lookup id
      match call.phase, s.writerHolder with
      | .obfuscated header ciphertext, none =>
          some { s.setPhase id call (.writingHeader header ciphertext) with
            writerHolder := some id }
      | _, _ => none
  | .write id count => do
      let call ← s.calls.lookup id
      match call.phase with
      | .writingHeader unwritten ciphertext =>
          if 0 < count ∧ count ≤ unwritten.length then
            let rest := unwritten.drop count
            let phase :=
              if rest = [] then .writingBody ciphertext ciphertext
              else .writingHeader rest ciphertext
            some { s.setPhase id call phase with wire := s.wire ++ unwritten.take count }
          else none
      | .writingBody unwritten ciphertext =>
          if 0 < count ∧ count ≤ unwritten.length then
            some { s.setPhase id call (.writingBody (unwritten.drop count) ciphertext) with
              wire := s.wire ++ unwritten.take count
              exposed := s.exposed ++ [(s.senderNonce, ciphertext)] }
          else none
      | _ => none
  | .finish id => do
      let call ← s.calls.lookup id
      match call.phase with
      | .writingBody [] _ =>
          some { s.release id with
            senderNonce := incrementNonce s.senderNonce
            positions := { s.positions with nonce := s.positions.nonce + 1 }
            completed := s.completed ++ [(call.protoCmd, call.plaintext)] }
      | _ => none
  | .writeFails id timedOut => do
      let call ← s.calls.lookup id
      match call.phase with
      | .writingHeader _ _ | .writingBody _ _ =>
          some (s.fail id (if timedOut then .sendTimeout else .io))
      | _ => none

/-- What an action does, and when it can happen. -/
inductive SendStep (s : Connected) : SendAction → Connected → Prop where
  | call (id : ℕ) (protoCmd : UInt8) (plaintext : Bytes) (hfresh : s.calls.lookup id = none) :
      SendStep s (.call id protoCmd plaintext)
        { s with calls := s.calls.insert id { protoCmd, plaintext, phase := .waiting } }
  | lockNonce (id : ℕ) (call : SendCall) (hcall : s.calls.lookup id = some call)
      (hphase : call.phase = .waiting) (hholder : s.nonceHolder = none) :
      SendStep s (.lockNonce id)
        { s.setPhase id call .locked with nonceHolder := some id, lockedAt := s.positions }
  | boxFails (id : ℕ) (call : SendCall) (e : ClientError) (hcall : s.calls.lookup id = some call)
      (hphase : call.phase = .locked) : SendStep s (.boxEasy id) (s.fail id e)
  | boxEasy (id : ℕ) (call : SendCall) (plainWord : UInt32) (ciphertext : Bytes)
      (hcall : s.calls.lookup id = some call) (hphase : call.phase = .locked)
      (hparts : frameParts crypto precompKey s.senderNonce
        (channelFrame call.protoCmd call.plaintext) = .ok (plainWord, ciphertext)) :
      SendStep s (.boxEasy id) (s.setPhase id call (.packed plainWord ciphertext))
  | obfuscate (id : ℕ) (call : SendCall) (plainWord : UInt32) (ciphertext : Bytes)
      (hcall : s.calls.lookup id = some call) (hphase : call.phase = .packed plainWord ciphertext) :
      SendStep s (.obfuscate id)
        { s.setPhase id call
            (.obfuscated (toLeBytes (s.senderObf.encrypt plainWord).1).toList ciphertext) with
          senderObf := (s.senderObf.encrypt plainWord).2
          positions := { s.positions with header := s.positions.header + 1 } }
  | lockWriter (id : ℕ) (call : SendCall) (header ciphertext : Bytes)
      (hcall : s.calls.lookup id = some call) (hphase : call.phase = .obfuscated header ciphertext)
      (hwriter : s.writerHolder = none) :
      SendStep s (.lockWriter id)
        { s.setPhase id call (.writingHeader header ciphertext) with writerHolder := some id }
  | writeHeader (id count : ℕ) (call : SendCall) (unwritten ciphertext : Bytes)
      (hcall : s.calls.lookup id = some call)
      (hphase : call.phase = .writingHeader unwritten ciphertext) :
      SendStep s (.write id count)
        { s.setPhase id call
            (if unwritten.drop count = [] then .writingBody ciphertext ciphertext
              else .writingHeader (unwritten.drop count) ciphertext) with
          wire := s.wire ++ unwritten.take count }
  | writeBody (id count : ℕ) (call : SendCall) (unwritten ciphertext : Bytes)
      (hcall : s.calls.lookup id = some call)
      (hphase : call.phase = .writingBody unwritten ciphertext) :
      SendStep s (.write id count)
        { s.setPhase id call (.writingBody (unwritten.drop count) ciphertext) with
          wire := s.wire ++ unwritten.take count
          exposed := s.exposed ++ [(s.senderNonce, ciphertext)] }
  | finish (id : ℕ) (call : SendCall) (ciphertext : Bytes)
      (hcall : s.calls.lookup id = some call) (hphase : call.phase = .writingBody [] ciphertext) :
      SendStep s (.finish id)
        { s.release id with
          senderNonce := incrementNonce s.senderNonce
          positions := { s.positions with nonce := s.positions.nonce + 1 }
          completed := s.completed ++ [(call.protoCmd, call.plaintext)] }
  | writeFails (id : ℕ) (timedOut : Bool) (e : ClientError) :
      SendStep s (.writeFails id timedOut) (s.fail id e)

variable {crypto precompKey}

theorem sendStep_cases {s t : Connected} {a : SendAction}
    (hstep : sendStep crypto precompKey s a = some t) : SendStep crypto precompKey s a t := by
  cases a with
  | call id protoCmd plaintext =>
      simp only [sendStep] at hstep
      split at hstep
      · cases hstep
      · rename_i hfresh
        obtain rfl := Option.some.inj hstep
        exact .call id protoCmd plaintext hfresh
  | lockNonce id =>
      obtain ⟨call, hcall, hstep⟩ := Option.bind_eq_some_iff.mp hstep
      split at hstep
      · rename_i hphase hholder
        obtain rfl := Option.some.inj hstep
        exact .lockNonce id call hcall hphase hholder
      · cases hstep
  | boxEasy id =>
      obtain ⟨call, hcall, hstep⟩ := Option.bind_eq_some_iff.mp hstep
      split at hstep
      · rename_i hphase
        dsimp only at hstep
        split at hstep
        · rename_i e _
          obtain rfl := Option.some.inj hstep
          exact .boxFails id call e hcall hphase
        · rename_i plainWord ciphertext hparts
          obtain rfl := Option.some.inj hstep
          exact .boxEasy id call plainWord ciphertext hcall hphase hparts
      · cases hstep
  | obfuscate id =>
      obtain ⟨call, hcall, hstep⟩ := Option.bind_eq_some_iff.mp hstep
      split at hstep
      · rename_i plainWord ciphertext hphase
        obtain rfl := Option.some.inj hstep
        exact .obfuscate id call plainWord ciphertext hcall hphase
      · cases hstep
  | lockWriter id =>
      obtain ⟨call, hcall, hstep⟩ := Option.bind_eq_some_iff.mp hstep
      split at hstep
      · rename_i header ciphertext hphase hwriter
        obtain rfl := Option.some.inj hstep
        exact .lockWriter id call header ciphertext hcall hphase hwriter
      · cases hstep
  | write id count =>
      obtain ⟨call, hcall, hstep⟩ := Option.bind_eq_some_iff.mp hstep
      split at hstep
      · rename_i unwritten ciphertext hphase
        obtain ⟨-, hstep⟩ := Option.ite_none_right_eq_some.mp hstep
        obtain rfl := Option.some.inj hstep
        exact .writeHeader id count call unwritten ciphertext hcall hphase
      · rename_i unwritten ciphertext hphase
        obtain ⟨-, hstep⟩ := Option.ite_none_right_eq_some.mp hstep
        obtain rfl := Option.some.inj hstep
        exact .writeBody id count call unwritten ciphertext hcall hphase
      · cases hstep
  | finish id =>
      obtain ⟨call, hcall, hstep⟩ := Option.bind_eq_some_iff.mp hstep
      split at hstep
      · rename_i ciphertext hphase
        obtain rfl := Option.some.inj hstep
        exact .finish id call ciphertext hcall hphase
      · cases hstep
  | writeFails id timedOut =>
      obtain ⟨call, hcall, hstep⟩ := Option.bind_eq_some_iff.mp hstep
      split at hstep
      · obtain rfl := Option.some.inj hstep
        exact .writeFails id timedOut _
      · obtain rfl := Option.some.inj hstep
        exact .writeFails id timedOut _
      · cases hstep

end Steps

/-- A connection, as the handshake leaves its sending half. -/
def connected (start : ChannelState) : Connected where
  senderNonce := start.nonce
  senderObf := start.obf

def senderStart (nk : UInt32) (sessionEd25519Pub : ByteVec 32) : ChannelState where
  obf := .forSender nk
  nonce := (deriveSessionNonces nk sessionEd25519Pub).1

/-- The receiving direction, once the header of the handshake response has been through it. -/
def receiverStart (nk : UInt32) (sessionEd25519Pub : ByteVec 32) (handshakeHeader : UInt32) :
    ChannelState where
  obf := ((HeaderObfuscator.forReceiver nk).decrypt handshakeHeader).2
  nonce := (deriveSessionNonces nk sessionEd25519Pub).2

end DatumGateway.FrameSends
