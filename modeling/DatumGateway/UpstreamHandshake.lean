import DatumGateway.AuthenticatedEvents
import DatumGateway.ConcurrentSends
import DatumGateway.HelloPayloads
import DatumGateway.Utf8Encodings

namespace DatumGateway.UpstreamHandshake

open DatumGateway.AuthenticatedEvents
open DatumGateway.ByteString
open DatumGateway.ConcurrentSends
open DatumGateway.FrameHeaders
open DatumGateway.FrameSends
open DatumGateway.HelloPayloads
open DatumGateway.SessionNonces
open DatumGateway.UpstreamFrames
open DatumGateway.Utf8Encodings
open DatumGateway.Utf8Text

/-- The primitives of the crypto library; a seal draws its ephemeral key from `entropy`. -/
structure HandshakeCrypto (ε : Type) extends Signatures ε where
  boxSeal : (entropy : Bytes) → Bytes32 → Bytes → Except ε Bytes
  boxSealOpen : Bytes → Bytes32 → Bytes32 → Except ε Bytes
  boxBeforenm : Bytes32 → Bytes32 → Except ε Bytes32

structure HandshakeKeys extends ClientKeypairs where
  sessionX25519Sec : Bytes32

def helloProtoCmd : UInt8 := 0x01

def cryptoBoxSealBytes : ℕ := 48

inductive FramingError where
  | frame (e : FrameError)
  | payloadTooLarge (got : ℕ)
  deriving DecidableEq, Repr

inductive ConnectError (ε : Type) where
  | io
  | recvTimeout
  | crypto (e : ε)
  | hello (e : HandshakeError ε)
  | framing (e : FramingError)
  | oversizedResponse (got : UInt32)
  | undersizedResponse (got : UInt32)
  | handshakeRejected (got : ProtoCmd)
  | undersizedDecoded (message : String) (got need : ℕ)
  | echoMismatch
  /-- A slice is not of the length of the array that it is unwrapped as. -/
  | panic
  deriving DecidableEq, Repr

/-- The header holds no length above the cap, and the slices are long enough. -/
def ConnectError.cannotOccur {ε : Type} : ConnectError ε → Bool
  | .oversizedResponse _ => true
  | .panic => true
  | _ => false

/-- Why no more bytes come. -/
inductive StreamEnd where
  | closed
  | silent
  deriving DecidableEq, Repr

def StreamEnd.error {ε : Type} : StreamEnd → ConnectError ε
  | .closed => .io
  | .silent => .recvTimeout

def helloHeader (sealedHello : Bytes) : FrameHeader where
  cmdLen := UInt32.ofNat sealedHello.length
  isSigned := true
  isEncryptedPubkey := true
  isEncryptedChannel := false
  protoCmd := helloProtoCmd

/-- The header word of the hello has a key of its own. -/
def frameForHello (sealedHello : Bytes) : Except FramingError Bytes :=
  if 2 ^ 32 ≤ sealedHello.length then .error (.payloadTooLarge sealedHello.length)
  else
    match (helloHeader sealedHello).pack with
    | .error e => .error (.frame e)
    | .ok rawHeader =>
        let (xoredWord, _) := HeaderObfuscator.initialSender.encrypt (fromLeBytes rawHeader)
        .ok ((toLeBytes xoredWord).toList ++ sealedHello)

def parseReceivedHeader (obf : HeaderObfuscator) (wire : ByteVec 4) :
    FrameHeader × HeaderObfuscator :=
  let (plainWord, obf) := obf.decrypt (fromLeBytes wire)
  (FrameHeader.unpack (toLeBytes plainWord), obf)

/-- What the handshake leaves behind. -/
structure Connected where
  sender : ChannelState
  receiver : ChannelState
  precompKey : Bytes32
  poolSessionEd25519 : Bytes32
  poolSessionX25519 : Bytes32
  motd : String

section Client

variable {ε : Type} (crypto : HandshakeCrypto ε)

/-- The bytes that are written first. -/
def helloBytes (keys : HandshakeKeys) (version clientId : String) (nk : UInt32) (padding : Bytes)
    (poolLongTermX25519Pub : Bytes32) (entropy : Bytes) : Except (ConnectError ε) Bytes :=
  match buildHelloPayload crypto.toSignatures keys.toClientKeypairs version clientId nk padding with
  | .error e => .error (.hello e)
  | .ok plaintext =>
      match crypto.boxSeal entropy poolLongTermX25519Pub plaintext with
      | .error e => .error (.crypto e)
      | .ok sealedHello => (frameForHello sealedHello).mapError .framing

/-- The keys that the response begins with. -/
def echoes (keys : HandshakeKeys) (plaintextResp : Bytes) : Bool :=
  plaintextResp.take 32 == keys.longTermEd25519Pub.toList &&
    (plaintextResp.drop 32).take 32 == keys.longTermX25519Pub.toList &&
    (plaintextResp.drop 64).take 32 == keys.sessionEd25519Pub.toList &&
    (plaintextResp.drop 96).take 32 == keys.sessionX25519Pub.toList

def motdOf (motdBytes : Bytes) : String :=
  let motdEnd := (motdBytes.findIdx? fun b => b == 0).getD motdBytes.length
  decodeLossy (motdBytes.take motdEnd)

def readResponse (keys : HandshakeKeys) (nk : UInt32) (recvObf : HeaderObfuscator)
    (plaintextResp : Bytes) : Except (ConnectError ε) Connected :=
  if plaintextResp.length < 192 then
    .error (.undersizedDecoded "handshake_response" plaintextResp.length 192)
  else if !echoes keys plaintextResp then .error .echoMismatch
  else
    match ByteVec.ofBytes? 32 ((plaintextResp.drop 128).take 32),
      ByteVec.ofBytes? 32 ((plaintextResp.drop 160).take 32) with
    | some poolSessionEd25519, some poolSessionX25519 =>
        match crypto.boxBeforenm poolSessionX25519 keys.sessionX25519Sec with
        | .error e => .error (.crypto e)
        | .ok precompKey =>
            let (senderNonce, receiverNonce) := deriveSessionNonces nk keys.sessionEd25519Pub
            .ok
              { sender := { obf := .forSender nk, nonce := senderNonce }
                receiver := { obf := recvObf, nonce := receiverNonce }
                precompKey
                poolSessionEd25519
                poolSessionX25519
                motd := motdOf (plaintextResp.drop 192) }
    | none, _ => .error .panic
    | some _, none => .error .panic

/-- What becomes of the handshake when the pool sends `stream`, with the bytes that are left. -/
def receiveResponse (keys : HandshakeKeys) (nk : UInt32) (streamEnd : StreamEnd) (stream : Bytes) :
    Except (ConnectError ε) (Connected × Bytes) :=
  match ByteVec.ofBytes? 4 (stream.take 4) with
  | none => .error streamEnd.error
  | some headerBuf =>
      let (respHeader, recvObf) := parseReceivedHeader (.forReceiver nk) headerBuf
      if 4 * 1024 * 1024 < respHeader.cmdLen then .error (.oversizedResponse respHeader.cmdLen)
      else if respHeader.cmdLen.toNat < cryptoBoxSealBytes then
        .error (.undersizedResponse respHeader.cmdLen)
      else if ProtoCmd.fromBits respHeader.protoCmd ≠ .pong then
        .error (.handshakeRejected (ProtoCmd.fromBits respHeader.protoCmd))
      else if (stream.drop 4).length < respHeader.cmdLen.toNat then .error streamEnd.error
      else
        let sealedResp := (stream.drop 4).take respHeader.cmdLen.toNat
        match crypto.boxSealOpen sealedResp keys.sessionX25519Pub keys.sessionX25519Sec with
        | .error e => .error (.crypto e)
        | .ok plaintextResp =>
            (readResponse crypto keys nk recvObf plaintextResp).map fun connected =>
              (connected, (stream.drop 4).drop respHeader.cmdLen.toNat)

end Client

/-! The pool that the tests of the gateway run against. -/

structure MockPool where
  longTermX25519Pub : Bytes32
  longTermX25519Sec : Bytes32
  sessionEd25519Pub : Bytes32
  sessionX25519Pub : Bytes32
  sessionX25519Sec : Bytes32
  motd : String

def echoedKeys (hello : ClientHello) : Bytes :=
  hello.longTermEd25519Pub.toList ++ hello.longTermX25519Pub.toList ++
    hello.sessionEd25519Pub.toList ++ hello.sessionX25519Pub.toList

namespace MockPool

def response (pool : MockPool) (hello : ClientHello) : Bytes :=
  echoedKeys hello ++ pool.sessionEd25519Pub.toList ++ pool.sessionX25519Pub.toList ++
    utf8Bytes pool.motd ++ [0]

def responseHeader (sealedResp : Bytes) : FrameHeader where
  cmdLen := UInt32.ofNat sealedResp.length
  isSigned := false
  isEncryptedPubkey := true
  isEncryptedChannel := false
  protoCmd := 0x02

section Crypto

variable {ε : Type} (crypto : HandshakeCrypto ε)

/-- The hello that the pool reads from what it receives; none if it hangs up. -/
def receiveHello (pool : MockPool) (stream : Bytes) : Option ClientHello := do
  let headerBuf ← ByteVec.ofBytes? 4 (stream.take 4)
  let (header, _) := parseReceivedHeader .initialSender headerBuf
  if header.cmdLen = 0 ∨ 1048576 < header.cmdLen then none
  else if (stream.drop 4).length < header.cmdLen.toNat then none
  else
    let sealedHello := (stream.drop 4).take header.cmdLen.toNat
    match crypto.boxSealOpen sealedHello pool.longTermX25519Pub pool.longTermX25519Sec with
    | .error _ => none
    | .ok plaintext => parseHello crypto.toSignatures plaintext

/-- The bytes that the pool answers a hello with; none if an unwrap fails. -/
def reply (pool : MockPool) (entropy : Bytes) (hello : ClientHello) : Option Bytes :=
  match crypto.boxSeal entropy hello.sessionX25519Pub (pool.response hello) with
  | .error _ => none
  | .ok sealedResp =>
      match (responseHeader sealedResp).pack with
      | .error _ => none
      | .ok raw =>
          let serverSendKey := datumHeaderXorFeedback (~~~hello.nk)
          some ((toLeBytes (fromLeBytes raw ^^^ serverSendKey)).toList ++ sealedResp)

def handleConnection (pool : MockPool) (entropy stream : Bytes) : Option Bytes := do
  let hello ← receiveHello crypto pool stream
  reply crypto pool entropy hello

end Crypto

end MockPool

/-! Headers, and what stands behind them. -/

theorem parseReceivedHeader_of_pack (obf : HeaderObfuscator) {header : FrameHeader}
    {raw : ByteVec 4} (hpack : header.pack = .ok raw) :
    parseReceivedHeader obf (toLeBytes (obf.encrypt (fromLeBytes raw)).1) =
      (header, (obf.encrypt (fromLeBytes raw)).2) := by
  obtain ⟨-, -, rfl⟩ := FrameHeader.pack_eq_ok_iff.mp hpack
  rw [parseReceivedHeader, fromLeBytes_toLeBytes, fromLeBytes_toLeBytes,
    HeaderObfuscator.decrypt_encrypt]
  dsimp only
  rw [FrameHeader.unpack_of_pack hpack]

theorem pack_of_length {header : FrameHeader} {body : Bytes}
    (hlen : header.cmdLen = UInt32.ofNat body.length) (hbody : body.length < 2 ^ 22)
    (hcmd : header.protoCmd.toNat < 32) :
    ∃ raw, header.pack = .ok raw ∧ header.cmdLen.toNat = body.length := by
  have htoNat : header.cmdLen.toNat = body.length := by
    rw [hlen]
    exact UInt32.toNat_ofNat_of_lt' (hbody.trans (by decide))
  exact ⟨_, FrameHeader.pack_eq_ok_iff.mpr ⟨htoNat ▸ hbody, hcmd, rfl⟩, htoNat⟩

theorem take_four_of_header (word : UInt32) (rest : Bytes) :
    ByteVec.ofBytes? 4 (((toLeBytes word).toList ++ rest).take 4) = some (toLeBytes word) := by
  rw [List.take_left' (List.Vector.toList_length _), ByteVec.ofBytes?_toList]

theorem drop_four_of_header (word : UInt32) (rest : Bytes) :
    ((toLeBytes word).toList ++ rest).drop 4 = rest :=
  List.drop_left' (List.Vector.toList_length _)

theorem motdOf_text (motd : String) :
    motdOf (utf8Bytes motd ++ [0]) =
      String.ofList (motd.toList.takeWhile (· != Char.ofNat 0)) := by
  have htake : ∀ bs : Bytes, bs.take ((bs.findIdx? fun b => b == 0).getD bs.length) =
      bs.takeWhile (· != 0) := by
    intro bs
    induction bs with
    | nil => rfl
    | cons b bs ih =>
        rw [List.findIdx?_cons, List.takeWhile_cons]
        by_cases hb : b = 0
        · subst hb
          rfl
        · have hne : (b == 0) = false := beq_eq_false_iff_ne.mpr hb
          rw [hne, bne, hne]
          cases hfind : bs.findIdx? fun b => b == 0 <;>
            simpa [hfind] using congrArg (b :: ·) ih
  rw [motdOf, htake, takeWhile_utf8Bytes, decodeLossy_utf8Bytes]

/-! Which responses are taken. -/

theorem echoes_iff {keys : HandshakeKeys} {plaintextResp : Bytes} :
    echoes keys plaintextResp = true ↔
      plaintextResp.take 128 = helloKeys keys.toClientKeypairs := by
  have hsplit : plaintextResp.take 128 =
      plaintextResp.take 32 ++ ((plaintextResp.drop 32).take 32 ++
      ((plaintextResp.drop 64).take 32 ++ (plaintextResp.drop 96).take 32)) := by
    have hadd : ∀ i j, plaintextResp.take (i + j) =
        plaintextResp.take i ++ (plaintextResp.drop i).take j := fun i j => List.take_add
    rw [hadd 96 32, hadd 64 32, hadd 32 32]
    simp only [List.append_assoc]
  simp only [echoes, Bool.and_eq_true, beq_iff_eq]
  constructor
  · rintro ⟨⟨⟨hfirst, hsecond⟩, hthird⟩, hfourth⟩
    rw [hsplit, hfirst, hsecond, hthird, hfourth, helloKeys]
  · intro hkeys
    have hwhole : plaintextResp =
        helloKeys keys.toClientKeypairs ++ plaintextResp.drop 128 := by
      rw [← hkeys, List.take_append_drop]
    obtain ⟨hfirst, hsecond, hthird, hfourth⟩ :=
      ofBytes?_helloKeys keys.toClientKeypairs (plaintextResp.drop 128)
    rw [← hwhole] at hfirst hsecond hthird hfourth
    exact ⟨⟨⟨(ByteVec.ofBytes?_eq_some_iff.mp hfirst).symm,
      (ByteVec.ofBytes?_eq_some_iff.mp hsecond).symm⟩,
      (ByteVec.ofBytes?_eq_some_iff.mp hthird).symm⟩,
      (ByteVec.ofBytes?_eq_some_iff.mp hfourth).symm⟩

section Client

variable {ε : Type} {crypto : HandshakeCrypto ε}

def connectedWith (keys : HandshakeKeys) (nk : UInt32) (recvObf : HeaderObfuscator)
    (precompKey poolSessionEd25519 poolSessionX25519 : Bytes32) (motdBytes : Bytes) :
    Connected where
  sender := senderStart nk keys.sessionEd25519Pub
  receiver :=
    { obf := recvObf, nonce := (deriveSessionNonces nk keys.sessionEd25519Pub).2 }
  precompKey
  poolSessionEd25519
  poolSessionX25519
  motd := motdOf motdBytes

/-- The response of a pool, as it is before it is sealed. -/
def plainResponse (keys : HandshakeKeys) (poolSessionEd25519 poolSessionX25519 : Bytes32)
    (motdBytes : Bytes) : Bytes :=
  helloKeys keys.toClientKeypairs ++
    (poolSessionEd25519.toList ++ (poolSessionX25519.toList ++ motdBytes))

theorem length_plainResponse (keys : HandshakeKeys) (poolSessionEd25519 poolSessionX25519 : Bytes32)
    (motdBytes : Bytes) :
    (plainResponse keys poolSessionEd25519 poolSessionX25519 motdBytes).length =
      192 + motdBytes.length := by
  simp only [plainResponse, List.length_append, length_helloKeys, List.Vector.toList_length]
  omega

theorem readResponse_plainResponse {keys : HandshakeKeys} {poolSessionX25519 : Bytes32}
    (nk : UInt32) (recvObf : HeaderObfuscator) (poolSessionEd25519 : Bytes32) (motdBytes : Bytes) :
    readResponse crypto keys nk recvObf
        (plainResponse keys poolSessionEd25519 poolSessionX25519 motdBytes) =
      match crypto.boxBeforenm poolSessionX25519 keys.sessionX25519Sec with
      | .error e => .error (.crypto e)
      | .ok precompKey => .ok (connectedWith keys nk recvObf precompKey poolSessionEd25519
          poolSessionX25519 motdBytes) := by
  have hlong : ¬ (plainResponse keys poolSessionEd25519 poolSessionX25519 motdBytes).length <
      192 := by
    rw [length_plainResponse]
    omega
  have hechoes : echoes keys (plainResponse keys poolSessionEd25519 poolSessionX25519 motdBytes) =
      true := by
    rw [echoes_iff, plainResponse, List.take_left' (length_helloKeys _)]
  have hfirst : ByteVec.ofBytes? 32
      (((plainResponse keys poolSessionEd25519 poolSessionX25519 motdBytes).drop 128).take 32) =
        some poolSessionEd25519 :=
    ofBytes?_slice (length_helloKeys _) _ _
  have hbefore : (helloKeys keys.toClientKeypairs ++ poolSessionEd25519.toList).length = 160 := by
    rw [List.length_append, length_helloKeys, List.Vector.toList_length]
  have hsecond : ByteVec.ofBytes? 32
      (((plainResponse keys poolSessionEd25519 poolSessionX25519 motdBytes).drop 160).take 32) =
        some poolSessionX25519 := by
    rw [plainResponse, ← List.append_assoc]
    exact ofBytes?_slice hbefore _ _
  have hmotd : (plainResponse keys poolSessionEd25519 poolSessionX25519 motdBytes).drop 192 =
      motdBytes := by
    rw [plainResponse, ← List.append_assoc, ← List.append_assoc]
    apply List.drop_left'
    rw [List.length_append, hbefore, List.Vector.toList_length]
  rw [readResponse, if_neg hlong, hechoes, hfirst, hsecond, hmotd]
  rfl

theorem exists_plainResponse {keys : HandshakeKeys} {plaintextResp : Bytes}
    (hlong : 192 ≤ plaintextResp.length) (hechoes : echoes keys plaintextResp = true) :
    ∃ poolSessionEd25519 poolSessionX25519 motdBytes,
      plaintextResp = plainResponse keys poolSessionEd25519 poolSessionX25519 motdBytes := by
  obtain ⟨ed, hed⟩ : ∃ ed : Bytes32, ed.toList = (plaintextResp.drop 128).take 32 := by
    refine ⟨⟨_, ?_⟩, rfl⟩
    rw [List.length_take, List.length_drop]
    omega
  obtain ⟨x, hx⟩ : ∃ x : Bytes32, x.toList = (plaintextResp.drop 160).take 32 := by
    refine ⟨⟨_, ?_⟩, rfl⟩
    rw [List.length_take, List.length_drop]
    omega
  have hlast : (plaintextResp.drop 160).take 32 ++ plaintextResp.drop 192 =
      plaintextResp.drop 160 := by
    rw [← List.drop_drop (i := 32) (j := 160), List.take_append_drop]
  have hthird : (plaintextResp.drop 128).take 32 ++ plaintextResp.drop 160 =
      plaintextResp.drop 128 := by
    rw [← List.drop_drop (i := 32) (j := 128), List.take_append_drop]
  refine ⟨ed, x, plaintextResp.drop 192, ?_⟩
  rw [plainResponse, ← echoes_iff.mp hechoes, hed, hx, hlast, hthird, List.take_append_drop]

/-- A response is read if it has the keys of the hello, two more keys, and a text. -/
theorem readResponse_eq_ok_iff {keys : HandshakeKeys} {nk : UInt32} {recvObf : HeaderObfuscator}
    {plaintextResp : Bytes} {connected : Connected} :
    readResponse crypto keys nk recvObf plaintextResp = .ok connected ↔
      ∃ poolSessionEd25519 poolSessionX25519 motdBytes precompKey,
        plaintextResp = plainResponse keys poolSessionEd25519 poolSessionX25519 motdBytes ∧
        crypto.boxBeforenm poolSessionX25519 keys.sessionX25519Sec = .ok precompKey ∧
        connected = connectedWith keys nk recvObf precompKey poolSessionEd25519
          poolSessionX25519 motdBytes := by
  constructor
  · intro hread
    obtain ⟨ed, x, motdBytes, rfl⟩ : ∃ ed x motdBytes,
        plaintextResp = plainResponse keys ed x motdBytes := by
      rw [readResponse] at hread
      split_ifs at hread with hshort hechoes
      exact exists_plainResponse (not_lt.mp hshort) (by simpa using hechoes)
    rw [readResponse_plainResponse] at hread
    split at hread
    · cases hread
    · rename_i precompKey hkey
      exact ⟨ed, x, motdBytes, precompKey, rfl, hkey, (Except.ok.inj hread).symm⟩
  · rintro ⟨ed, x, motdBytes, precompKey, rfl, hkey, rfl⟩
    rw [readResponse_plainResponse, hkey]

theorem cannotOccur_of_readResponse {keys : HandshakeKeys} {nk : UInt32}
    {recvObf : HeaderObfuscator} {plaintextResp : Bytes} {e : ConnectError ε}
    (hread : readResponse crypto keys nk recvObf plaintextResp = .error e) :
    e.cannotOccur = false := by
  by_cases hshort : plaintextResp.length < 192
  · rw [readResponse, if_pos hshort] at hread
    obtain rfl := Except.error.inj hread
    rfl
  · cases hechoes : echoes keys plaintextResp with
    | false =>
        rw [readResponse, if_neg hshort, hechoes] at hread
        obtain rfl := Except.error.inj hread
        rfl
    | true =>
        obtain ⟨ed, x, motdBytes, rfl⟩ := exists_plainResponse (not_lt.mp hshort) hechoes
        rw [readResponse_plainResponse] at hread
        split at hread
        · obtain rfl := Except.error.inj hread
          rfl
        · cases hread

theorem cmdLen_unpack_lt (bytes : ByteVec 4) :
    ¬ 4 * 1024 * 1024 < (FrameHeader.unpack bytes).cmdLen := by
  have hmask : (FrameHeader.unpack bytes).cmdLen.toNat ≤ cmdLenMask.toNat := by
    rw [FrameHeader.unpack, UInt32.toNat_and]
    exact Nat.and_le_right
  have hcap : cmdLenMask.toNat ≤ (4 * 1024 * 1024 : UInt32).toNat := by decide
  rw [UInt32.lt_iff_toNat_lt]
  omega

theorem fromBits_unpack_eq_pong_iff (bytes : ByteVec 4) :
    ProtoCmd.fromBits (FrameHeader.unpack bytes).protoCmd = .pong ↔
      (FrameHeader.unpack bytes).protoCmd = 0x02 := by
  have hsmall : (FrameHeader.unpack bytes).protoCmd.toNat < 32 := by
    rw [FrameHeader.unpack, UInt32.toNat_toUInt8, UInt32.toNat_and]
    exact (Nat.mod_le _ _).trans_lt (Nat.lt_succ_of_le Nat.and_le_right)
  have hall : ∀ n < 32, ProtoCmd.fromBits (UInt8.ofNat n) = .pong ↔ UInt8.ofNat n = 0x02 := by
    decide
  simpa using hall _ hsmall

/-- Responses that a client with these keys takes: a header that hides behind the first key of
the receiving chain and announces the body, and a sealed body with the client's own keys. -/
inductive Accepted (crypto : HandshakeCrypto ε) (keys : HandshakeKeys) (nk : UInt32) :
    Bytes → Connected → Bytes → Prop
  | response (word : UInt32) (sealedResp rest motdBytes : Bytes)
      (poolSessionEd25519 poolSessionX25519 precompKey : Bytes32)
      (hlength : (FrameHeader.unpack (toLeBytes word)).cmdLen.toNat = sealedResp.length)
      (hseal : cryptoBoxSealBytes ≤ sealedResp.length)
      (hpong : (FrameHeader.unpack (toLeBytes word)).protoCmd = 0x02)
      (hopen : crypto.boxSealOpen sealedResp keys.sessionX25519Pub keys.sessionX25519Sec =
        .ok (plainResponse keys poolSessionEd25519 poolSessionX25519 motdBytes))
      (hkey : crypto.boxBeforenm poolSessionX25519 keys.sessionX25519Sec = .ok precompKey) :
      Accepted crypto keys nk
        ((toLeBytes ((HeaderObfuscator.forReceiver nk).encrypt word).1).toList ++
          (sealedResp ++ rest))
        (connectedWith keys nk ((HeaderObfuscator.forReceiver nk).encrypt word).2 precompKey
          poolSessionEd25519 poolSessionX25519 motdBytes) rest

theorem receiveResponse_of_header (keys : HandshakeKeys) (nk : UInt32) (streamEnd : StreamEnd)
    (word : UInt32) (body : Bytes) :
    receiveResponse crypto keys nk streamEnd
        ((toLeBytes ((HeaderObfuscator.forReceiver nk).encrypt word).1).toList ++ body) =
      let respHeader := FrameHeader.unpack (toLeBytes word)
      if respHeader.cmdLen.toNat < cryptoBoxSealBytes then
        .error (.undersizedResponse respHeader.cmdLen)
      else if respHeader.protoCmd ≠ 0x02 then
        .error (.handshakeRejected (ProtoCmd.fromBits respHeader.protoCmd))
      else if body.length < respHeader.cmdLen.toNat then .error streamEnd.error
      else
        match crypto.boxSealOpen (body.take respHeader.cmdLen.toNat) keys.sessionX25519Pub
          keys.sessionX25519Sec with
        | .error e => .error (.crypto e)
        | .ok plaintextResp =>
            (readResponse crypto keys nk ((HeaderObfuscator.forReceiver nk).encrypt word).2
              plaintextResp).map fun connected =>
                (connected, body.drop respHeader.cmdLen.toNat) := by
  rw [receiveResponse, take_four_of_header]
  dsimp only
  rw [parseReceivedHeader, fromLeBytes_toLeBytes, HeaderObfuscator.decrypt_encrypt]
  dsimp only
  rw [drop_four_of_header, if_neg (cmdLen_unpack_lt _)]
  simp only [ne_eq, fromBits_unpack_eq_pong_iff]

theorem exists_word_of_four (nk : UInt32) {stream : Bytes} {headerBuf : ByteVec 4}
    (hheader : ByteVec.ofBytes? 4 (stream.take 4) = some headerBuf) :
    ∃ word, stream = (toLeBytes ((HeaderObfuscator.forReceiver nk).encrypt word).1).toList ++
      stream.drop 4 := by
  have htake := ByteVec.ofBytes?_eq_some_iff.mp hheader
  refine ⟨((HeaderObfuscator.forReceiver nk).decrypt (fromLeBytes headerBuf)).1, ?_⟩
  have hbuf : toLeBytes ((HeaderObfuscator.forReceiver nk).encrypt
      ((HeaderObfuscator.forReceiver nk).decrypt (fromLeBytes headerBuf)).1).1 = headerBuf := by
    rw [HeaderObfuscator.decrypt, HeaderObfuscator.encrypt, UInt32.xor_assoc, UInt32.xor_self,
      UInt32.xor_zero]
    apply ByteVec.toList_injective
    have hvalue : leValue headerBuf.toList < 2 ^ 32 := by
      simpa using leValue_lt_pow headerBuf.toList
    change leBytes 4 (UInt32.ofNat (leValue headerBuf.toList)).toNat = headerBuf.toList
    rw [UInt32.toNat_ofNat_of_lt' hvalue]
    simpa using leBytes_leValue headerBuf.toList
  rw [hbuf, htake, List.take_append_drop]

theorem receiveResponse_of_accepted {keys : HandshakeKeys} {nk : UInt32} {stream rest : Bytes}
    {connected : Connected} (streamEnd : StreamEnd)
    (haccepted : Accepted crypto keys nk stream connected rest) :
    receiveResponse crypto keys nk streamEnd stream = .ok (connected, rest) := by
  cases haccepted with
  | response word sealedResp _ motdBytes ed x precompKey hlength hseal hpong hopen hkey =>
      rw [receiveResponse_of_header]
      dsimp only
      rw [if_neg (by omega), if_neg (not_not.mpr hpong), List.length_append, if_neg (by omega),
        hlength, List.take_left, hopen]
      simp only [readResponse_plainResponse, hkey, Except.map, List.drop_left]

theorem accepted_of_receiveResponse (crypto : HandshakeCrypto ε) (keys : HandshakeKeys)
    (nk : UInt32) (streamEnd : StreamEnd) (stream : Bytes) :
    match receiveResponse crypto keys nk streamEnd stream with
    | .ok (connected, rest) => Accepted crypto keys nk stream connected rest
    | .error e => e.cannotOccur = false := by
  have hend : (streamEnd.error : ConnectError ε).cannotOccur = false := by
    cases streamEnd <;> rfl
  cases hheader : ByteVec.ofBytes? 4 (stream.take 4) with
  | none =>
      rw [receiveResponse, hheader]
      exact hend
  | some headerBuf =>
      obtain ⟨word, hstream⟩ := exists_word_of_four nk hheader
      generalize stream.drop 4 = body at hstream
      subst hstream
      rw [receiveResponse_of_header]
      dsimp only
      split_ifs with hshort hreject hmissing
      · rfl
      · rfl
      · exact hend
      · cases hopen : crypto.boxSealOpen
            (body.take (FrameHeader.unpack (toLeBytes word)).cmdLen.toNat)
            keys.sessionX25519Pub keys.sessionX25519Sec with
        | error e => rfl
        | ok plaintextResp =>
            dsimp only
            cases hread : readResponse crypto keys nk
                ((HeaderObfuscator.forReceiver nk).encrypt word).2 plaintextResp with
            | error e => exact cannotOccur_of_readResponse hread
            | ok connected =>
                obtain ⟨ed, x, motdBytes, precompKey, rfl, hkey, rfl⟩ :=
                  readResponse_eq_ok_iff.mp hread
                have htaken : (body.take
                    (FrameHeader.unpack (toLeBytes word)).cmdLen.toNat).length =
                      (FrameHeader.unpack (toLeBytes word)).cmdLen.toNat := by
                  rw [List.length_take, Nat.min_eq_left (not_lt.mp hmissing)]
                have haccepted := @Accepted.response ε crypto keys nk word _
                  (body.drop (FrameHeader.unpack (toLeBytes word)).cmdLen.toNat) motdBytes ed x
                  precompKey htaken.symm (htaken.symm ▸ not_lt.mp hshort) (not_not.mp hreject)
                  hopen hkey
                rwa [List.take_append_drop] at haccepted

/-- The responses that are taken are the accepted ones.  No slice is unwrapped as an array of
another length, and no header announces more than the cap. -/
theorem receiveResponse_spec (crypto : HandshakeCrypto ε) (keys : HandshakeKeys) (nk : UInt32)
    (streamEnd : StreamEnd) (stream : Bytes) :
    (∀ connected rest, receiveResponse crypto keys nk streamEnd stream = .ok (connected, rest) ↔
      Accepted crypto keys nk stream connected rest) ∧
    ∀ e, receiveResponse crypto keys nk streamEnd stream = .error e → e.cannotOccur = false := by
  have hsound := accepted_of_receiveResponse crypto keys nk streamEnd stream
  constructor
  · intro connected rest
    refine ⟨fun hok => ?_, receiveResponse_of_accepted streamEnd⟩
    rwa [hok] at hsound
  · intro e herror
    rwa [herror] at hsound

end Client

end DatumGateway.UpstreamHandshake
