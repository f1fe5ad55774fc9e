import DatumGateway.UpstreamHandshake

namespace DatumGateway.HandshakeAgreement

open DatumGateway.ByteString
open DatumGateway.ConcurrentSends
open DatumGateway.FrameHeaders
open DatumGateway.FrameSends
open DatumGateway.HelloPayloads
open DatumGateway.SessionNonces
open DatumGateway.UpstreamFrames
open DatumGateway.UpstreamHandshake
open DatumGateway.Utf8Text

variable {ε : Type} {crypto : HandshakeCrypto ε}

/-- What is sealed to the public key is opened with the secret one; a seal adds its bytes. -/
structure SealsFor (crypto : HandshakeCrypto ε) (pub sec : Bytes32) : Prop where
  seals : ∀ entropy m, ∃ c, crypto.boxSeal entropy pub m = .ok c ∧
    c.length = m.length + cryptoBoxSealBytes
  opens : ∀ entropy m c, crypto.boxSeal entropy pub m = .ok c →
    crypto.boxSealOpen c pub sec = .ok m

def clientHello (keys : HandshakeKeys) (nk : UInt32) : ClientHello where
  longTermEd25519Pub := keys.longTermEd25519Pub
  longTermX25519Pub := keys.longTermX25519Pub
  sessionEd25519Pub := keys.sessionEd25519Pub
  sessionX25519Pub := keys.sessionX25519Pub
  nk

/-- Where the pool goes on sending: one header word has been hidden, its reply's. -/
def poolSender (nk : UInt32) (sessionEd25519Pub : Bytes32) : ChannelState where
  obf := ((HeaderObfuscator.forReceiver nk).encrypt 0).2
  nonce := (deriveSessionNonces nk sessionEd25519Pub).2

/-- Frames in either direction arrive as they were sent; the pool computes `poolKey`. -/
def CarriesFrames (crypto : DatumCrypto) (overhead : ℕ) (nk : UInt32)
    (sessionEd25519Pub poolKey : Bytes32) (connected : UpstreamHandshake.Connected) : Prop :=
  ∀ frames bytes, (∀ f ∈ frames, f.body.length + overhead < 2 ^ 22) →
    (encodeFrames crypto poolKey (poolSender nk sessionEd25519Pub) frames = .ok bytes →
      (recvAll crypto connected.precompKey connected.receiver bytes).map ReceivedFrame.content =
        frames.map fun f => (f.protoCmd, f.payload)) ∧
    (encodeFrames crypto connected.precompKey connected.sender frames = .ok bytes →
      (recvAll crypto poolKey (senderStart nk sessionEd25519Pub) bytes).map
        ReceivedFrame.content = frames.map fun f => (f.protoCmd, f.payload))

/-- The client knows the pool's session keys and its text, and the channel carries frames. -/
structure Agrees (pool : MockPool) (keys : HandshakeKeys) (nk : UInt32) (poolKey : Bytes32)
    (connected : UpstreamHandshake.Connected) : Prop where
  poolSessionEd25519 : connected.poolSessionEd25519 = pool.sessionEd25519Pub
  poolSessionX25519 : connected.poolSessionX25519 = pool.sessionX25519Pub
  motd : connected.motd = String.ofList (pool.motd.toList.takeWhile (· != Char.ofNat 0))
  carries : ∀ frameCrypto overhead, SealsAndOpens frameCrypto poolKey overhead →
    CarriesFrames frameCrypto overhead nk keys.sessionEd25519Pub poolKey connected

/-! The hello on its way. -/

theorem frameForHello_of_length {sealedHello : Bytes} (hlength : sealedHello.length < 2 ^ 22) :
    ∃ raw, (helloHeader sealedHello).pack = .ok raw ∧
      (helloHeader sealedHello).cmdLen.toNat = sealedHello.length ∧
      frameForHello sealedHello = .ok
        ((toLeBytes (HeaderObfuscator.initialSender.encrypt (fromLeBytes raw)).1).toList ++
          sealedHello) := by
  have hcmd : helloProtoCmd.toNat < 32 := by decide
  obtain ⟨raw, hpack, hcmdLen⟩ := @pack_of_length (helloHeader sealedHello) _ rfl hlength hcmd
  refine ⟨raw, hpack, hcmdLen, ?_⟩
  rw [frameForHello, if_neg (by omega)]
  simp only [hpack]

theorem receiveHello_of_header {pool : MockPool} {header : FrameHeader} {raw : ByteVec 4}
    {sealedHello plaintext : Bytes} (hpack : header.pack = .ok raw)
    (hcmdLen : header.cmdLen.toNat = sealedHello.length) (hpos : 0 < sealedHello.length)
    (hcap : sealedHello.length ≤ 1048576)
    (hopen : crypto.boxSealOpen sealedHello pool.longTermX25519Pub pool.longTermX25519Sec =
      .ok plaintext) (after : Bytes) :
    pool.receiveHello crypto
        ((toLeBytes (HeaderObfuscator.initialSender.encrypt (fromLeBytes raw)).1).toList ++
          (sealedHello ++ after)) = parseHello crypto.toSignatures plaintext := by
  have hzero : header.cmdLen ≠ 0 := by
    rintro hzero
    rw [hzero] at hcmdLen
    exact hpos.ne hcmdLen
  have hsmall : ¬ 1048576 < header.cmdLen := by
    rw [UInt32.lt_iff_toNat_lt, hcmdLen]
    exact not_lt.mpr hcap
  rw [MockPool.receiveHello, take_four_of_header, Option.bind_eq_bind, Option.bind_some,
    parseReceivedHeader_of_pack _ hpack]
  dsimp only
  rw [if_neg (not_or.mpr ⟨hzero, hsmall⟩), drop_four_of_header, hcmdLen, List.length_append,
    if_neg (by omega), List.take_left, hopen]

theorem length_payload {keys : ClientKeypairs} {version clientId : String} {nk : UInt32}
    {padding payload : Bytes}
    (hbuild : buildHelloPayload crypto.toSignatures keys version clientId nk padding =
      .ok payload) :
    payload.length = (utf8Bytes version).length + (utf8Bytes clientId).length + padding.length +
      198 := by
  rw [buildHelloPayload] at hbuild
  split_ifs at hbuild
  dsimp only at hbuild
  split at hbuild
  · cases hbuild
  · obtain rfl := Except.ok.inj hbuild
    rw [helloFields_eq]
    simp only [List.length_append, List.length_cons, length_helloKeys, length_leBytes,
      List.Vector.toList_length]
    omega

/-! The reply on its way. -/

theorem response_eq_plainResponse (pool : MockPool) (keys : HandshakeKeys) (nk : UInt32) :
    pool.response (clientHello keys nk) =
      plainResponse keys pool.sessionEd25519Pub pool.sessionX25519Pub
        (utf8Bytes pool.motd ++ [0]) := by
  simp only [MockPool.response, echoedKeys, clientHello, plainResponse, helloKeys,
    List.append_assoc]

theorem reply_of_length {pool : MockPool} {hello : ClientHello} {entropy sealedResp : Bytes}
    (hseal : crypto.boxSeal entropy hello.sessionX25519Pub (pool.response hello) =
      .ok sealedResp) (hlength : sealedResp.length < 2 ^ 22) :
    ∃ word, (FrameHeader.unpack (toLeBytes word)).cmdLen.toNat = sealedResp.length ∧
      (FrameHeader.unpack (toLeBytes word)).protoCmd = 0x02 ∧
      pool.reply crypto entropy hello = some
        ((toLeBytes ((HeaderObfuscator.forReceiver hello.nk).encrypt word).1).toList ++
          sealedResp) := by
  have hcmd : (0x02 : UInt8).toNat < 32 := by decide
  obtain ⟨raw, hpack, hcmdLen⟩ :=
    @pack_of_length (MockPool.responseHeader sealedResp) _ rfl hlength hcmd
  have hraw : toLeBytes (fromLeBytes raw) = raw := by
    obtain ⟨-, -, rfl⟩ := FrameHeader.pack_eq_ok_iff.mp hpack
    rw [fromLeBytes_toLeBytes]
  refine ⟨fromLeBytes raw, ?_, ?_, ?_⟩
  · rw [hraw, FrameHeader.unpack_of_pack hpack, hcmdLen]
  · rw [hraw, FrameHeader.unpack_of_pack hpack]
    rfl
  · rw [MockPool.reply, hseal]
    simp only [hpack]
    rfl

/-! Frames after the handshake. -/

theorem carriesFrames_connectedWith {keys : HandshakeKeys} {poolKey : Bytes32}
    {frameCrypto : DatumCrypto} {overhead : ℕ}
    (hcrypto : SealsAndOpens frameCrypto poolKey overhead) (nk word : UInt32)
    (ed x : Bytes32) (motdBytes : Bytes) :
    CarriesFrames frameCrypto overhead nk keys.sessionEd25519Pub poolKey
      (connectedWith keys nk ((HeaderObfuscator.forReceiver nk).encrypt word).2 poolKey ed x
        motdBytes) := by
  intro frames bytes hfits
  constructor
  · intro hencode
    obtain ⟨fs, s', hreceives, hcontent⟩ := receives_encodeFrames hcrypto hfits hencode
    rw [← hcontent, ← recvAll_of_whole hreceives]
    rfl
  · intro hencode
    obtain ⟨fs, s', hreceives, hcontent⟩ := receives_encodeFrames hcrypto hfits hencode
    rw [← hcontent, ← recvAll_of_whole hreceives]
    rfl

/-- A pool answers every hello that is not too long, whatever follows it, and the client that sent
the hello takes the answer, whatever follows that. -/
theorem handshake_agrees (crypto : HandshakeCrypto ε) (keys : HandshakeKeys) (pool : MockPool)
    (poolKey : Bytes32)
    (hsigns : SignsFor crypto.toSignatures keys.longTermEd25519Sec keys.longTermEd25519Pub)
    (hpool : SealsFor crypto pool.longTermX25519Pub pool.longTermX25519Sec)
    (hsession : SealsFor crypto keys.sessionX25519Pub keys.sessionX25519Sec)
    (hpoolKey : crypto.boxBeforenm keys.sessionX25519Pub pool.sessionX25519Sec = .ok poolKey)
    (hshared : crypto.boxBeforenm pool.sessionX25519Pub keys.sessionX25519Sec =
      crypto.boxBeforenm keys.sessionX25519Pub pool.sessionX25519Sec)
    (version clientId : String) (nk : UInt32) (padding : Bytes)
    (hadmissible : Admissible version clientId padding)
    (htexts : (utf8Bytes version).length + (utf8Bytes clientId).length + 446 ≤ 1048576)
    (hmotd : (utf8Bytes pool.motd).length + 241 < 2 ^ 22) (entropy entropy' : Bytes)
    (streamEnd : StreamEnd) :
    ∃ hello reply connected,
      helloBytes crypto keys version clientId nk padding pool.longTermX25519Pub entropy =
        .ok hello ∧
      (∀ after, pool.handleConnection crypto entropy' (hello ++ after) = some reply) ∧
      (∀ rest, receiveResponse crypto keys nk streamEnd (reply ++ rest) = .ok (connected, rest)) ∧
      Agrees pool keys nk poolKey connected := by
  obtain ⟨signature, hsign, hverify⟩ :=
    hsigns (helloFields keys.toClientKeypairs version clientId nk padding)
  obtain ⟨hversion, hclientId, hpadding⟩ := hadmissible
  have hbuild : buildHelloPayload crypto.toSignatures keys.toClientKeypairs version clientId nk
      padding = .ok (helloFields keys.toClientKeypairs version clientId nk padding ++
        signature.toList) := by
    rw [buildHelloPayload, if_neg hversion, if_neg hclientId, if_neg (not_not.mpr hpadding)]
    simp only [hsign]
  have hpayload := length_payload hbuild
  have hparse := (readsBack_of_signed hversion hclientId hverify).hello
  generalize helloFields keys.toClientKeypairs version clientId nk padding ++ signature.toList =
    payload at hbuild hpayload hparse
  -- the hello, up to the pool
  obtain ⟨sealedHello, hsealHello, hlengthHello⟩ := hpool.seals entropy payload
  have hopenHello := hpool.opens entropy payload sealedHello hsealHello
  rw [cryptoBoxSealBytes] at hlengthHello
  have hfits : sealedHello.length < 2 ^ 22 := by omega
  obtain ⟨raw, hpack, hcmdLen, hframe⟩ := frameForHello_of_length hfits
  -- the reply, back to the client
  have hresponse := response_eq_plainResponse pool keys nk
  obtain ⟨sealedResp, hsealResp, hlengthResp⟩ :=
    hsession.seals entropy' (pool.response (clientHello keys nk))
  have hopenResp := hsession.opens entropy' _ sealedResp hsealResp
  rw [hresponse, length_plainResponse, cryptoBoxSealBytes, List.length_append,
    List.length_singleton] at hlengthResp
  have hfitsResp : sealedResp.length < 2 ^ 22 := by omega
  obtain ⟨word, hcmdLen', hpong, hreply⟩ :=
    @reply_of_length _ _ _ (clientHello keys nk) _ _ hsealResp hfitsResp
  refine ⟨(toLeBytes (HeaderObfuscator.initialSender.encrypt (fromLeBytes raw)).1).toList ++
      sealedHello,
    (toLeBytes ((HeaderObfuscator.forReceiver nk).encrypt word).1).toList ++ sealedResp,
    connectedWith keys nk ((HeaderObfuscator.forReceiver nk).encrypt word).2 poolKey
      pool.sessionEd25519Pub pool.sessionX25519Pub (utf8Bytes pool.motd ++ [0]), ?_, ?_, ?_, ?_⟩
  · simp only [helloBytes, hbuild, hsealHello, hframe]
    rfl
  · intro after
    have hreceive := receiveHello_of_header hpack hcmdLen (by omega) (by omega) hopenHello after
    rw [MockPool.handleConnection, List.append_assoc, hreceive, hparse]
    exact hreply
  · intro rest
    rw [List.append_assoc]
    apply receiveResponse_of_accepted
    exact .response word sealedResp rest _ _ _ poolKey hcmdLen' (by rw [cryptoBoxSealBytes]; omega)
      hpong (hresponse ▸ hopenResp) (hshared.trans hpoolKey)
  · exact
      { poolSessionEd25519 := rfl
        poolSessionX25519 := rfl
        motd := motdOf_text pool.motd
        carries := fun frameCrypto overhead hcrypto =>
          carriesFrames_connectedWith hcrypto nk word _ _ _ }

/-- Seals that only a length is added to, secret keys that are the public ones, and a shared key
that is the same from both sides. -/
def plainCrypto : HandshakeCrypto Unit where
  toSignatures := sumSignatures
  boxSeal _ pub m := .ok (pub.toList ++ List.replicate 16 0 ++ m)
  boxSealOpen c pub sec :=
    if sec = pub ∧ c.take 32 = pub.toList then .ok (c.drop cryptoBoxSealBytes) else .error ()
  boxBeforenm pub sec := .ok (ByteVec.fill 32 (pub.toList.sum + sec.toList.sum))

theorem sealsFor_plainCrypto (key : Bytes32) : SealsFor plainCrypto key key := by
  have hbefore : (key.toList ++ List.replicate 16 (0 : UInt8)).length = cryptoBoxSealBytes := by
    rw [List.length_append, List.Vector.toList_length, List.length_replicate]
    rfl
  constructor
  · intro entropy m
    refine ⟨_, rfl, ?_⟩
    rw [List.length_append, hbefore, Nat.add_comm]
  · intro entropy m c hseal
    obtain rfl := Except.ok.inj hseal
    have htake : (key.toList ++ List.replicate 16 0 ++ m).take 32 = key.toList := by
      rw [List.append_assoc, List.take_left' (List.Vector.toList_length key)]
    rw [plainCrypto]
    dsimp only
    rw [if_pos ⟨rfl, htake⟩, List.drop_left' hbefore]

def plainHandshakeKeys : HandshakeKeys where
  toClientKeypairs := plainKeypairs
  sessionX25519Sec := plainKeypairs.sessionX25519Pub

def inTreePool : MockPool where
  longTermX25519Pub := ByteVec.fill 32 5
  longTermX25519Sec := ByteVec.fill 32 5
  sessionEd25519Pub := ByteVec.fill 32 6
  sessionX25519Pub := ByteVec.fill 32 7
  sessionX25519Sec := ByteVec.fill 32 7
  motd := "datum-rs in-tree mock pool"

theorem handshake_agrees_in_tree :
    ∃ hello reply connected,
      helloBytes plainCrypto plainHandshakeKeys "v0.4.1-beta" "/datum-rs" 0xFE00 [0]
        inTreePool.longTermX25519Pub [] = .ok hello ∧
      inTreePool.handleConnection plainCrypto [] hello = some reply ∧
      receiveResponse plainCrypto plainHandshakeKeys 0xFE00 .closed reply = .ok (connected, []) ∧
      connected.motd = "datum-rs in-tree mock pool" ∧
      CarriesFrames tagCrypto 16 0xFE00 plainKeypairs.sessionEd25519Pub (ByteVec.fill 32 96)
        connected := by
  have hsigns : SignsFor plainCrypto.toSignatures plainHandshakeKeys.longTermEd25519Sec
      plainHandshakeKeys.longTermEd25519Pub := fun message => ⟨_, rfl, if_pos rfl⟩
  obtain ⟨hello, reply, connected, hhello, hreply, hreceive, hagrees⟩ :=
    handshake_agrees plainCrypto plainHandshakeKeys inTreePool (ByteVec.fill 32 96) hsigns
      (sealsFor_plainCrypto _) (sealsFor_plainCrypto _) (by decide) (by decide)
      "v0.4.1-beta" "/datum-rs" 0xFE00 [0] ⟨by decide, by decide, by decide, by decide⟩
      (by decide) (by decide) [] [] .closed
  refine ⟨hello, reply, connected, hhello, ?_, ?_, ?_, ?_⟩
  · simpa using hreply []
  · simpa using hreceive []
  · rw [hagrees.motd]
    decide
  · exact hagrees.carries tagCrypto 16 (sealsAndOpens_tagCrypto _)

end DatumGateway.HandshakeAgreement
