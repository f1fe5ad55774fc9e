import DatumGateway.SessionNonces
import DatumGateway.UpstreamMessages

namespace DatumGateway.UpstreamFrames

open DatumGateway.ByteString
open DatumGateway.FrameHeaders
open DatumGateway.SessionNonces
open DatumGateway.UpstreamMessages

/-- The cipher, as far as frames use it. -/
structure DatumCrypto where
  boxEasyAfternm : ByteVec 32 → ByteVec 24 → Bytes → Option Bytes
  boxOpenEasyAfternm : ByteVec 32 → ByteVec 24 → Bytes → Option Bytes

inductive ClientError where
  | io
  | crypto
  | frame (e : FrameError)
  | message (e : MessageError)
  | sendTimeout
  | oversizedResponse (got : UInt32)
  | undersizedDecoded (message : String) (got need : ℕ)
  deriving DecidableEq, Repr

/-- Where one direction of a connection stands. -/
structure ChannelState where
  obf : HeaderObfuscator
  nonce : ByteVec 24
  deriving DecidableEq

structure PlainFrame where
  protoCmd : UInt8
  isEncryptedPubkey : Bool
  isEncryptedChannel : Bool
  payload : Bytes
  signature : Option (ByteVec 64)

namespace PlainFrame

def body (f : PlainFrame) : Bytes :=
  f.payload ++ (f.signature.map List.Vector.toList).getD []

def header (f : PlainFrame) (cmdLen : ℕ) : FrameHeader where
  cmdLen := UInt32.ofNat cmdLen
  isSigned := f.signature.isSome
  isEncryptedPubkey := f.isEncryptedPubkey
  isEncryptedChannel := f.isEncryptedChannel
  protoCmd := f.protoCmd

end PlainFrame

/-- The body is opened with the session key. -/
def isSealed (h : FrameHeader) : Bool :=
  !h.isEncryptedPubkey && h.isEncryptedChannel

/-- The signature is cut off without a look at it. -/
def stripSignature (h : FrameHeader) (body : Bytes) : Bytes :=
  if h.isSigned && 64 ≤ body.length then body.take (body.length - 64) else body

structure ReceivedFrame where
  header : FrameHeader
  body : Bytes
  /-- The nonce under which the body was opened, if it was. -/
  openedAt : Option (ByteVec 24)
  /-- Whether a signature of the pool was verified over the body. -/
  signatureVerified : Bool
  deriving DecidableEq

inductive RecvOutcome where
  | needsMore
  | failed (e : ClientError)
  | frame (f : ReceivedFrame) (s : ChannelState) (rest : Bytes)

section Frames

variable (crypto : DatumCrypto) (precompKey : ByteVec 32)

/-- The header word and the body that a frame goes out with, before the word is hidden. -/
def frameParts (nonce : ByteVec 24) (f : PlainFrame) : Except ClientError (UInt32 × Bytes) :=
  let raw :=
    if isSealed (f.header f.body.length) then
      crypto.boxEasyAfternm precompKey nonce f.body
    else some f.body
  match raw with
  | none => .error .crypto
  | some raw =>
      match (f.header raw.length).pack with
      | .error e => .error (.frame e)
      | .ok packed => .ok (fromLeBytes packed, raw)

def recvFrame (s : ChannelState) (stream : Bytes) : RecvOutcome :=
  match ByteVec.ofBytes? 4 (stream.take 4) with
  | none => .needsMore
  | some wire =>
      let (plainWord, obf) := s.obf.decrypt (fromLeBytes wire)
      let header := FrameHeader.unpack (toLeBytes plainWord)
      let rest := stream.drop 4
      if 16 * 1024 * 1024 < header.cmdLen then .failed (.oversizedResponse header.cmdLen)
      else if rest.length < header.cmdLen.toNat then .needsMore
      else
        let raw := rest.take header.cmdLen.toNat
        let rest := rest.drop header.cmdLen.toNat
        if isSealed header then
          match crypto.boxOpenEasyAfternm precompKey s.nonce raw with
          | none => .failed .crypto
          | some pt =>
              let body := stripSignature header pt
              .frame { header, body, openedAt := some s.nonce, signatureVerified := false }
                { obf, nonce := incrementNonce s.nonce } rest
        else
          let body := stripSignature header raw
          .frame { header, body, openedAt := none, signatureVerified := false }
            { obf, nonce := s.nonce } rest

def recvLoop : ℕ → ChannelState → Bytes → List ReceivedFrame
  | 0, _, _ => []
  | fuel + 1, s, stream =>
      match recvFrame crypto precompKey s stream with
      | .frame f s rest => f :: recvLoop fuel s rest
      | _ => []

/-- The frames that are received from a stream, until one fails or needs more of it. -/
def recvAll (s : ChannelState) (stream : Bytes) : List ReceivedFrame :=
  recvLoop crypto precompKey stream.length s stream

variable {crypto precompKey}

theorem length_rest_of_recvFrame {s s' : ChannelState} {stream rest : Bytes} {f : ReceivedFrame}
    (hframe : recvFrame crypto precompKey s stream = .frame f s' rest) :
    rest.length + 4 ≤ stream.length := by
  rw [recvFrame] at hframe
  split at hframe
  · cases hframe
  · rename_i wire hwire
    have hlen : 4 ≤ stream.length := by
      rw [ByteVec.ofBytes?] at hwire
      split_ifs at hwire with hfour
      rw [List.length_take] at hfour
      omega
    have hrest : ∀ n, ((stream.drop 4).drop n).length + 4 ≤ stream.length := by
      intro n
      rw [List.length_drop, List.length_drop]
      omega
    dsimp only at hframe
    split_ifs at hframe
    · split at hframe
      · cases hframe
      · obtain ⟨-, -, rfl⟩ := RecvOutcome.frame.inj hframe
        exact hrest _
    · obtain ⟨-, -, rfl⟩ := RecvOutcome.frame.inj hframe
      exact hrest _

theorem recvLoop_nil (fuel : ℕ) (s : ChannelState) : recvLoop crypto precompKey fuel s [] = [] := by
  cases fuel with
  | zero => rfl
  | succ fuel => rfl

theorem recvLoop_eq {fuel fuel' : ℕ} {s : ChannelState} {stream : Bytes}
    (hfuel : stream.length ≤ fuel) (hfuel' : stream.length ≤ fuel') :
    recvLoop crypto precompKey fuel s stream = recvLoop crypto precompKey fuel' s stream := by
  induction fuel generalizing fuel' s stream with
  | zero =>
      obtain rfl := List.length_eq_zero_iff.mp (Nat.le_zero.mp hfuel)
      rw [recvLoop_nil, recvLoop_nil]
  | succ fuel ih =>
      cases fuel' with
      | zero =>
          obtain rfl := List.length_eq_zero_iff.mp (Nat.le_zero.mp hfuel')
          rw [recvLoop_nil, recvLoop_nil]
      | succ fuel' =>
          rw [recvLoop, recvLoop]
          cases hframe : recvFrame crypto precompKey s stream with
          | needsMore => rfl
          | failed e => rfl
          | frame f s' rest =>
              have hrest := length_rest_of_recvFrame hframe
              exact congrArg (f :: ·) (ih (by omega) (by omega))

theorem recvAll_of_frame {s s' : ChannelState} {stream rest : Bytes} {f : ReceivedFrame}
    (hframe : recvFrame crypto precompKey s stream = .frame f s' rest) :
    recvAll crypto precompKey s stream = f :: recvAll crypto precompKey s' rest := by
  have hrest := length_rest_of_recvFrame hframe
  obtain ⟨n, hn⟩ : ∃ n, stream.length = n + 1 := ⟨stream.length - 1, by omega⟩
  rw [recvAll, hn, recvLoop, hframe, recvAll]
  exact congrArg (f :: ·) (recvLoop_eq (by omega) le_rfl)

theorem recvAll_of_needsMore {s : ChannelState} {stream : Bytes}
    (hmore : recvFrame crypto precompKey s stream = .needsMore) :
    recvAll crypto precompKey s stream = [] := by
  rw [recvAll]
  cases stream.length with
  | zero => rfl
  | succ n => rw [recvLoop, hmore]

/-- From `s` on, the bytes are received as the frames, whatever follows them. -/
def Receives (crypto : DatumCrypto) (precompKey : ByteVec 32) (s : ChannelState) (bytes : Bytes)
    (fs : List ReceivedFrame) (s' : ChannelState) : Prop :=
  ∀ rest, recvAll crypto precompKey s (bytes ++ rest) = fs ++ recvAll crypto precompKey s' rest

theorem Receives.nil (s : ChannelState) : Receives crypto precompKey s [] [] s :=
  fun _ => rfl

theorem Receives.append {s s' s'' : ChannelState} {bytes bytes' : Bytes}
    {fs fs' : List ReceivedFrame} (hfirst : Receives crypto precompKey s bytes fs s')
    (hsecond : Receives crypto precompKey s' bytes' fs' s'') :
    Receives crypto precompKey s (bytes ++ bytes') (fs ++ fs') s'' := by
  intro rest
  rw [List.append_assoc, hfirst, hsecond, List.append_assoc]

/-! A frame on the wire. -/

def wireBytes (obf : HeaderObfuscator) (plainWord : UInt32) (raw : Bytes) : Bytes :=
  (toLeBytes (obf.encrypt plainWord).1).toList ++ raw

def nextNonce (f : PlainFrame) (nonce : ByteVec 24) : ByteVec 24 :=
  if isSealed (f.header 0) then incrementNonce nonce else nonce

def receivedFrame (f : PlainFrame) (nonce : ByteVec 24) (raw : Bytes) : ReceivedFrame where
  header := f.header raw.length
  body := f.payload
  openedAt := if isSealed (f.header 0) then some nonce else none
  signatureVerified := false

theorem frameParts_eq_ok {nonce : ByteVec 24} {f : PlainFrame} {plainWord : UInt32} {raw : Bytes}
    (hparts : frameParts crypto precompKey nonce f = .ok (plainWord, raw)) :
    (if isSealed (f.header 0) then crypto.boxEasyAfternm precompKey nonce f.body
      else some f.body) = some raw ∧
      (f.header raw.length).pack = .ok (toLeBytes plainWord) := by
  rw [frameParts] at hparts
  have hsealed : isSealed (f.header f.body.length) = isSealed (f.header 0) := rfl
  rw [hsealed] at hparts
  split at hparts
  · cases hparts
  · rename_i raw' hraw
    split at hparts
    · cases hparts
    · rename_i packed hpack
      obtain ⟨rfl, rfl⟩ := Prod.mk.inj (Except.ok.inj hparts)
      refine ⟨hraw, ?_⟩
      obtain ⟨-, -, rfl⟩ := FrameHeader.pack_eq_ok_iff.mp hpack
      rw [fromLeBytes_toLeBytes]
      exact hpack

theorem stripSignature_body (f : PlainFrame) (cmdLen : ℕ) :
    stripSignature (f.header cmdLen) f.body = f.payload := by
  obtain ⟨protoCmd, isEncryptedPubkey, isEncryptedChannel, payload, signature⟩ := f
  cases signature with
  | none => simp [stripSignature, PlainFrame.header, PlainFrame.body]
  | some signature => simp [stripSignature, PlainFrame.header, PlainFrame.body]

theorem ofBytes?_take_wireBytes (obf : HeaderObfuscator) (plainWord : UInt32) (raw rest : Bytes) :
    ByteVec.ofBytes? 4 ((wireBytes obf plainWord raw ++ rest).take 4) =
      some (toLeBytes (obf.encrypt plainWord).1) := by
  rw [wireBytes, List.append_assoc, List.take_left' (List.Vector.toList_length _),
    ByteVec.ofBytes?_toList]

theorem drop_wireBytes (obf : HeaderObfuscator) (plainWord : UInt32) (raw rest : Bytes) :
    (wireBytes obf plainWord raw ++ rest).drop 4 = raw ++ rest := by
  rw [wireBytes, List.append_assoc, List.drop_left' (List.Vector.toList_length _)]

theorem cmdLen_of_pack {f : PlainFrame} {packed : ByteVec 4} {raw : Bytes}
    (hpack : (f.header raw.length).pack = .ok packed) (hraw : raw.length < 2 ^ 32) :
    (f.header raw.length).cmdLen.toNat = raw.length ∧
      ¬ 16 * 1024 * 1024 < (f.header raw.length).cmdLen := by
  obtain ⟨hsmall, -, -⟩ := FrameHeader.pack_eq_ok_iff.mp hpack
  refine ⟨UInt32.toNat_ofNat_of_lt' hraw, ?_⟩
  rw [UInt32.lt_iff_toNat_lt, not_lt]
  exact hsmall.le.trans (by decide)

theorem recvFrame_wireBytes {s : ChannelState} {f : PlainFrame} {plainWord : UInt32}
    {raw : Bytes} (hopen : ∀ nonce m c, crypto.boxEasyAfternm precompKey nonce m = some c →
      crypto.boxOpenEasyAfternm precompKey nonce c = some m)
    (hparts : frameParts crypto precompKey s.nonce f = .ok (plainWord, raw))
    (hraw : raw.length < 2 ^ 32) (rest : Bytes) :
    recvFrame crypto precompKey s (wireBytes s.obf plainWord raw ++ rest) =
      .frame (receivedFrame f s.nonce raw)
        { obf := (s.obf.encrypt plainWord).2, nonce := nextNonce f s.nonce } rest := by
  obtain ⟨hbody, hpack⟩ := frameParts_eq_ok hparts
  have hunpack := FrameHeader.unpack_of_pack hpack
  obtain ⟨hcmdLen, hmax⟩ := cmdLen_of_pack hpack hraw
  have hsealed : isSealed (f.header raw.length) = isSealed (f.header 0) := rfl
  rw [recvFrame, ofBytes?_take_wireBytes, drop_wireBytes]
  dsimp only
  rw [fromLeBytes_toLeBytes, HeaderObfuscator.decrypt_encrypt]
  dsimp only
  rw [hunpack, if_neg hmax, hcmdLen, List.length_append, if_neg (by omega), List.take_left' rfl,
    List.drop_left' rfl, hsealed, receivedFrame, nextNonce]
  cases hmode : isSealed (f.header 0) with
  | false =>
      rw [hmode] at hbody
      obtain rfl := Option.some.inj hbody
      simp only [stripSignature_body]
      rfl
  | true =>
      rw [hmode] at hbody
      simp only [hopen s.nonce f.body raw hbody, stripSignature_body]
      rfl

theorem recvFrame_of_part {s : ChannelState} {f : PlainFrame} {plainWord : UInt32}
    {raw part : Bytes} (hparts : frameParts crypto precompKey s.nonce f = .ok (plainWord, raw))
    (hraw : raw.length < 2 ^ 32) (hprefixes : part <+: wireBytes s.obf plainWord raw)
    (hproper : part.length < (wireBytes s.obf plainWord raw).length) :
    recvFrame crypto precompKey s part = .needsMore := by
  rw [recvFrame]
  by_cases hshort : part.length < 4
  · have hnone : ByteVec.ofBytes? 4 (part.take 4) = none := by
      rw [ByteVec.ofBytes?, dif_neg]
      rw [List.length_take]
      omega
    rw [hnone]
  · obtain ⟨-, hpack⟩ := frameParts_eq_ok hparts
    obtain ⟨hcmdLen, hmax⟩ := cmdLen_of_pack hpack hraw
    have htake : part.take 4 = (toLeBytes (s.obf.encrypt plainWord).1).toList := by
      obtain ⟨rest, hrest⟩ := hprefixes
      have h := congrArg (List.take 4) hrest
      rwa [List.take_append_of_le_length (not_lt.mp hshort), wireBytes,
        List.take_left' (List.Vector.toList_length _)] at h
    have hwire : (wireBytes s.obf plainWord raw).length = 4 + raw.length := by
      rw [wireBytes, List.length_append, List.Vector.toList_length]
    rw [htake, ByteVec.ofBytes?_toList]
    dsimp only
    rw [fromLeBytes_toLeBytes, HeaderObfuscator.decrypt_encrypt]
    dsimp only
    rw [FrameHeader.unpack_of_pack hpack, if_neg hmax, hcmdLen, if_pos]
    rw [List.length_drop]
    omega

theorem receives_wireBytes {s : ChannelState} {f : PlainFrame} {plainWord : UInt32} {raw : Bytes}
    (hopen : ∀ nonce m c, crypto.boxEasyAfternm precompKey nonce m = some c →
      crypto.boxOpenEasyAfternm precompKey nonce c = some m)
    (hparts : frameParts crypto precompKey s.nonce f = .ok (plainWord, raw))
    (hraw : raw.length < 2 ^ 32) :
    Receives crypto precompKey s (wireBytes s.obf plainWord raw) [receivedFrame f s.nonce raw]
      { obf := (s.obf.encrypt plainWord).2, nonce := nextNonce f s.nonce } :=
  fun rest => recvAll_of_frame (recvFrame_wireBytes hopen hparts hraw rest)

/-- What the other side puts on the wire, one frame after the other. -/
def encodeFrames (crypto : DatumCrypto) (precompKey : ByteVec 32) :
    ChannelState → List PlainFrame → Except ClientError Bytes
  | _, [] => .ok []
  | s, f :: fs =>
      match frameParts crypto precompKey s.nonce f with
      | .error e => .error e
      | .ok (plainWord, raw) =>
          let (_, obf) := s.obf.encrypt plainWord
          (encodeFrames crypto precompKey { obf, nonce := nextNonce f s.nonce } fs).map fun rest =>
            wireBytes s.obf plainWord raw ++ rest

/-- The command and the body that a receiver is left with. -/
def ReceivedFrame.content (f : ReceivedFrame) : UInt8 × Bytes :=
  (f.header.protoCmd, f.body)

end Frames

end DatumGateway.UpstreamFrames
