import DatumGateway.FrameSends

namespace DatumGateway.AuthenticatedEvents

open DatumGateway.ByteString
open DatumGateway.FrameHeaders
open DatumGateway.FrameSends
open DatumGateway.SessionNonces
open DatumGateway.UpstreamFrames
open DatumGateway.UpstreamMessages

inductive ProtoCmd where
  | ping
  | pong
  | hello
  | coinbaser
  | coinbaserAck
  | share
  | shareAck
  | clientConfig
  | unknown (b : UInt8)
  deriving DecidableEq, Repr

def ProtoCmd.fromBits (b : UInt8) : ProtoCmd :=
  let bits := b &&& 0x1F
  if bits = 0x01 then .ping
  else if bits = 0x02 then .pong
  else if bits = 0x03 then .hello
  else if bits = 0x10 then .coinbaser
  else if bits = 0x11 then .coinbaserAck
  else if bits = 0x07 then .share
  else if bits = 0x0F then .shareAck
  else if bits = 0x19 then .clientConfig
  else .unknown bits

inductive UpstreamEvent where
  | coinbaser (response : CoinbaserResponse)
  | clientConfig (config : ClientConfig)
  | shareResponse (response : ShareResponse)
  | blockNotify (payload : Bytes)
  | jobValidationRequest (body : Bytes)
  | unknownFrame (protoCmd : UInt8) (body : Bytes)
  deriving DecidableEq

/-- A block notify has the command of a client configuration, but no other flag than that of the
channel. -/
def isBlockNotify (header : FrameHeader) : Bool :=
  header.protoCmd == 0xF9 &&& 0x1F && !header.isSigned && !header.isEncryptedPubkey

def decodeEvent (header : FrameHeader) (body : Bytes) : Except ClientError UpstreamEvent :=
  if isBlockNotify header then .ok (.blockNotify body)
  else
    match ProtoCmd.fromBits header.protoCmd with
    | .coinbaser =>
        match body with
        | [] => .error (.undersizedDecoded "coinbaser/share-mux frame" 0 1)
        | opcode :: rest =>
            if opcode = coinbaserResponseOpcode then
              ((CoinbaserResponse.decode rest).map UpstreamEvent.coinbaser).mapError .message
            else if opcode = jobValidationOpcode then .ok (.jobValidationRequest rest)
            else .ok (.unknownFrame header.protoCmd body)
    | _ =>
        match body with
        | [] => .ok (.unknownFrame header.protoCmd body)
        | opcode :: rest =>
            if opcode = shareResponseOpcode then
              ((ShareResponse.decode rest).map UpstreamEvent.shareResponse).mapError .message
            else if opcode = clientConfigOpcode then
              ((ClientConfig.decode rest).map UpstreamEvent.clientConfig).mapError .message
            else if opcode = coinbaserResponseOpcode then
              ((CoinbaserResponse.decode rest).map UpstreamEvent.coinbaser).mapError .message
            else if opcode = jobValidationOpcode then .ok (.jobValidationRequest rest)
            else .ok (.unknownFrame header.protoCmd body)

structure EmittedEvent where
  event : UpstreamEvent
  frame : ReceivedFrame
  /-- The nonce of the receiver when the frame came in. -/
  expectedNonce : ByteVec 24
  deriving DecidableEq

section Loop

variable (crypto : DatumCrypto) (precompKey : ByteVec 32)

/-- The receive loop ends with the first frame that cannot be received or decoded. -/
def recvEvents : ℕ → ChannelState → Bytes → List EmittedEvent
  | 0, _, _ => []
  | fuel + 1, s, stream =>
      match recvFrame crypto precompKey s stream with
      | .frame frame s' rest =>
          match decodeEvent frame.header frame.body with
          | .ok event => { event, frame, expectedNonce := s.nonce } :: recvEvents fuel s' rest
          | .error _ => []
      | _ => []

def emittedEvents (s : ChannelState) (stream : Bytes) : List EmittedEvent :=
  recvEvents crypto precompKey stream.length s stream

/-- The events that the pool decides with what is paid, and what was accepted. -/
def speaksForPool : UpstreamEvent → Bool
  | .coinbaser _ | .clientConfig _ | .shareResponse _ => true
  | _ => false

/-- The body was opened with the session key at the nonce expected, or its signature verified. -/
def Authentic (x : EmittedEvent) : Prop :=
  (x.frame.openedAt = some x.expectedNonce ∧ ∃ raw plaintext,
    crypto.boxOpenEasyAfternm precompKey x.expectedNonce raw = some plaintext ∧
      x.frame.body = stripSignature x.frame.header plaintext) ∨
  x.frame.signatureVerified = true

def EventsAuthenticated (s : ChannelState) (stream : Bytes) : Prop :=
  ∀ x ∈ emittedEvents crypto precompKey s stream, speaksForPool x.event = true →
    Authentic crypto precompKey x

end Loop

/-- The command and the first byte of the body have it dispatched to such an event. -/
def announcesEvent (header : FrameHeader) (body : Bytes) : Bool :=
  !isBlockNotify header &&
    match body with
    | [] => false
    | opcode :: _ =>
        opcode == coinbaserResponseOpcode ||
          header.protoCmd &&& 0x1F != 0x10 &&
            (opcode == shareResponseOpcode || opcode == clientConfigOpcode)

/-! The frames, as they stand in the stream. -/

structure WireFrame where
  header : FrameHeader
  raw : Bytes

def nextWireFrame (obf : HeaderObfuscator) (stream : Bytes) :
    Option (WireFrame × HeaderObfuscator × Bytes) :=
  match ByteVec.ofBytes? 4 (stream.take 4) with
  | none => none
  | some wire =>
      let (plainWord, obf) := obf.decrypt (fromLeBytes wire)
      let header := FrameHeader.unpack (toLeBytes plainWord)
      let rest := stream.drop 4
      if 16 * 1024 * 1024 < header.cmdLen then none
      else if rest.length < header.cmdLen.toNat then none
      else
        some ({ header, raw := rest.take header.cmdLen.toNat }, obf, rest.drop header.cmdLen.toNat)

def wireFrames : ℕ → HeaderObfuscator → Bytes → List WireFrame
  | 0, _, _ => []
  | fuel + 1, obf, stream =>
      match nextWireFrame obf stream with
      | none => []
      | some (frame, obf, rest) => frame :: wireFrames fuel obf rest

def nonceAfter (header : FrameHeader) (nonce : ByteVec 24) : ByteVec 24 :=
  if isSealed header then incrementNonce nonce else nonce

section Condition

variable (crypto : DatumCrypto) (precompKey : ByteVec 32)

/-- What is taken for the body of a frame, if it can be opened where it has to be. -/
def takenBody (nonce : ByteVec 24) (f : WireFrame) : Option Bytes :=
  (if isSealed f.header then crypto.boxOpenEasyAfternm precompKey nonce f.raw
    else some f.raw).map (stripSignature f.header)

/-- Up to the first frame that is not opened or not decoded, a frame whose body is taken as it
comes announces none of the events that the pool decides with. -/
def PlainFramesSilent : ByteVec 24 → List WireFrame → Prop
  | _, [] => True
  | nonce, f :: fs =>
      ∀ body event, takenBody crypto precompKey nonce f = some body →
        decodeEvent f.header body = .ok event →
          (isSealed f.header = true ∨ announcesEvent f.header body = false) ∧
            PlainFramesSilent (nonceAfter f.header nonce) fs

def takenFrame (nonce : ByteVec 24) (f : WireFrame) (body : Bytes) : ReceivedFrame where
  header := f.header
  body
  openedAt := if isSealed f.header then some nonce else none
  signatureVerified := false

def eventsOf : ByteVec 24 → List WireFrame → List EmittedEvent
  | _, [] => []
  | nonce, f :: fs =>
      match takenBody crypto precompKey nonce f with
      | none => []
      | some body =>
          match decodeEvent f.header body with
          | .error _ => []
          | .ok event =>
              { event, frame := takenFrame nonce f body, expectedNonce := nonce } ::
                eventsOf (nonceAfter f.header nonce) fs

end Condition

variable {crypto : DatumCrypto} {precompKey : ByteVec 32}

theorem recvFrame_eq_of_nextWireFrame {s : ChannelState} {stream rest : Bytes} {f : WireFrame}
    {obf : HeaderObfuscator} (hnext : nextWireFrame s.obf stream = some (f, obf, rest)) :
    recvFrame crypto precompKey s stream =
      match takenBody crypto precompKey s.nonce f with
      | some body =>
          .frame (takenFrame s.nonce f body) { obf, nonce := nonceAfter f.header s.nonce } rest
      | none => .failed .crypto := by
  rw [nextWireFrame] at hnext
  rw [recvFrame]
  cases hwire : ByteVec.ofBytes? 4 (stream.take 4) with
  | none =>
      rw [hwire] at hnext
      cases hnext
  | some wire =>
      rw [hwire] at hnext
      dsimp only at hnext ⊢
      split_ifs at hnext with hlarge hshort
      rw [if_neg hlarge, if_neg hshort]
      obtain ⟨rfl, rfl, rfl⟩ := Prod.mk.inj (Option.some.inj hnext)
      rw [takenBody]
      dsimp only
      split_ifs with hsealed
      · cases hopen : crypto.boxOpenEasyAfternm precompKey s.nonce _ with
        | none => rfl
        | some plaintext =>
            dsimp only [Option.map_some]
            rw [takenFrame, nonceAfter, if_pos hsealed, if_pos hsealed]
      · dsimp only [Option.map_some]
        rw [takenFrame, nonceAfter, if_neg hsealed, if_neg hsealed]

theorem recvFrame_of_nextWireFrame {s : ChannelState} {stream rest body : Bytes} {f : WireFrame}
    {obf : HeaderObfuscator} (hnext : nextWireFrame s.obf stream = some (f, obf, rest))
    (htaken : takenBody crypto precompKey s.nonce f = some body) :
    recvFrame crypto precompKey s stream =
      .frame (takenFrame s.nonce f body) { obf, nonce := nonceAfter f.header s.nonce } rest := by
  rw [recvFrame_eq_of_nextWireFrame hnext, htaken]

theorem recvFrame_eq_failed {s : ChannelState} {stream rest : Bytes} {f : WireFrame}
    {obf : HeaderObfuscator} (hnext : nextWireFrame s.obf stream = some (f, obf, rest))
    (htaken : takenBody crypto precompKey s.nonce f = none) :
    recvFrame crypto precompKey s stream = .failed .crypto := by
  rw [recvFrame_eq_of_nextWireFrame hnext, htaken]

theorem recvFrame_ne_frame {s : ChannelState} {stream : Bytes}
    (hnext : nextWireFrame s.obf stream = none) (frame : ReceivedFrame) (s' : ChannelState)
    (rest : Bytes) : recvFrame crypto precompKey s stream ≠ .frame frame s' rest := by
  rw [nextWireFrame] at hnext
  rw [recvFrame]
  cases hwire : ByteVec.ofBytes? 4 (stream.take 4) with
  | none =>
      intro hframe
      cases hframe
  | some wire =>
      rw [hwire] at hnext
      dsimp only at hnext ⊢
      split_ifs at hnext with hlarge hshort
      · rw [if_pos hlarge]
        intro hframe
        cases hframe
      · rw [if_neg hlarge, if_pos hshort]
        intro hframe
        cases hframe

theorem recvEvents_eq_eventsOf (fuel : ℕ) (s : ChannelState) (stream : Bytes) :
    recvEvents crypto precompKey fuel s stream =
      eventsOf crypto precompKey s.nonce (wireFrames fuel s.obf stream) := by
  induction fuel generalizing s stream with
  | zero => rfl
  | succ fuel ih =>
      rw [recvEvents, wireFrames]
      cases hnext : nextWireFrame s.obf stream with
      | none =>
          cases hframe : recvFrame crypto precompKey s stream with
          | needsMore => rfl
          | failed e => rfl
          | frame frame s' rest => exact absurd hframe (recvFrame_ne_frame hnext frame s' rest)
      | some next =>
          obtain ⟨f, obf, rest⟩ := next
          dsimp only
          rw [eventsOf]
          cases htaken : takenBody crypto precompKey s.nonce f with
          | none => rw [recvFrame_eq_failed hnext htaken]
          | some body =>
              rw [recvFrame_of_nextWireFrame hnext htaken]
              have hheader : (takenFrame s.nonce f body).header = f.header := rfl
              have hbody : (takenFrame s.nonce f body).body = body := rfl
              dsimp only
              rw [hheader, hbody]
              cases hdecode : decodeEvent f.header body with
              | error e => rfl
              | ok event => exact congrArg (_ :: ·) (ih _ rest)

theorem fromBits_eq_coinbaser_iff (b : UInt8) :
    ProtoCmd.fromBits b = .coinbaser ↔ b &&& 0x1F = 0x10 := by
  constructor
  · intro hcmd
    by_contra hb
    -- the other branches make other commands
    simp only [ProtoCmd.fromBits, hb, if_false] at hcmd
    grind
  · intro hb
    simp [ProtoCmd.fromBits, hb]

theorem exists_of_mapError_eq_ok {α β : Type} {decoded : Except MessageError α}
    {toEvent : α → β} {event : β}
    (hevent : ((decoded.map toEvent).mapError ClientError.message) = .ok event) :
    ∃ response, decoded = .ok response ∧ event = toEvent response := by
  cases decoded with
  | error e => cases hevent
  | ok response => exact ⟨response, rfl, (Except.ok.inj hevent).symm⟩

theorem speaksForPool_of_decodeEvent {header : FrameHeader} {body : Bytes} {event : UpstreamEvent}
    (hdecode : decodeEvent header body = .ok event) :
    speaksForPool event = announcesEvent header body := by
  unfold decodeEvent at hdecode
  cases hnotify : isBlockNotify header with
  | true =>
      rw [hnotify, if_pos rfl] at hdecode
      obtain rfl := Except.ok.inj hdecode
      unfold announcesEvent
      rw [hnotify]
      rfl
  | false =>
      rw [hnotify, if_neg Bool.false_ne_true] at hdecode
      unfold announcesEvent
      rw [hnotify]
      cases body with
      | nil =>
          split at hdecode
          · cases hdecode
          · obtain rfl := Except.ok.inj hdecode
            rfl
      | cons opcode rest =>
          by_cases hcoinbaser : header.protoCmd &&& 0x1F = 0x10
          · rw [(fromBits_eq_coinbaser_iff _).mpr hcoinbaser] at hdecode
            dsimp only at hdecode
            split_ifs at hdecode with hresponse hvalidation
            · obtain ⟨response, -, rfl⟩ := exists_of_mapError_eq_ok hdecode
              simp [speaksForPool, hresponse]
            · obtain rfl := Except.ok.inj hdecode
              simp [speaksForPool, hresponse, hcoinbaser]
            · obtain rfl := Except.ok.inj hdecode
              simp [speaksForPool, hresponse, hcoinbaser]
          · have hother := mt (fromBits_eq_coinbaser_iff header.protoCmd).mp hcoinbaser
            split at hdecode
            · contradiction
            · dsimp only at hdecode
              split_ifs at hdecode with hshare hconfig hresponse hvalidation
              · obtain ⟨response, -, rfl⟩ := exists_of_mapError_eq_ok hdecode
                simp [speaksForPool, hshare, hcoinbaser]
              · obtain ⟨response, -, rfl⟩ := exists_of_mapError_eq_ok hdecode
                simp [speaksForPool, hconfig, hcoinbaser]
              · obtain ⟨response, -, rfl⟩ := exists_of_mapError_eq_ok hdecode
                simp [speaksForPool, hresponse]
              · obtain rfl := Except.ok.inj hdecode
                simp [speaksForPool, hshare, hconfig, hresponse]
              · obtain rfl := Except.ok.inj hdecode
                simp [speaksForPool, hshare, hconfig, hresponse]

theorem authentic_iff {nonce : ByteVec 24} {f : WireFrame} {body : Bytes} {event : UpstreamEvent}
    (htaken : takenBody crypto precompKey nonce f = some body) :
    Authentic crypto precompKey
        { event, frame := takenFrame nonce f body, expectedNonce := nonce } ↔
      isSealed f.header = true := by
  rw [Authentic, takenFrame]
  dsimp only
  constructor
  · rintro (⟨hopened, -⟩ | hverified)
    · split_ifs at hopened with hsealed
      exact hsealed
    · cases hverified
  · intro hsealed
    rw [takenBody, if_pos hsealed] at htaken
    obtain ⟨plaintext, hopen, rfl⟩ := Option.map_eq_some_iff.mp htaken
    exact Or.inl ⟨if_pos hsealed, f.raw, plaintext, hopen, rfl⟩

theorem eventsOf_authentic_iff (nonce : ByteVec 24) (fs : List WireFrame) :
    (∀ x ∈ eventsOf crypto precompKey nonce fs, speaksForPool x.event = true →
      Authentic crypto precompKey x) ↔ PlainFramesSilent crypto precompKey nonce fs := by
  induction fs generalizing nonce with
  | nil => simp [eventsOf, PlainFramesSilent]
  | cons f fs ih =>
      rw [eventsOf, PlainFramesSilent]
      cases htaken : takenBody crypto precompKey nonce f with
      | none => simp
      | some body =>
          dsimp only
          cases hdecode : decodeEvent f.header body with
          | error e =>
              constructor
              · intro _ body' event hbody hevent
                obtain rfl := Option.some.inj hbody
                rw [hdecode] at hevent
                cases hevent
              · intro _ x hx
                cases hx
          | ok event =>
              rw [List.forall_mem_cons, ih, authentic_iff htaken]
              dsimp only
              rw [speaksForPool_of_decodeEvent hdecode]
              constructor
              · rintro ⟨hhead, htail⟩ body' event' hbody -
                obtain rfl := Option.some.inj hbody
                refine ⟨?_, htail⟩
                cases hannounces : announcesEvent f.header body with
                | false => exact Or.inr rfl
                | true => exact Or.inl (hhead hannounces)
              · intro hsilent
                obtain ⟨hhead, htail⟩ := hsilent body event rfl hdecode
                refine ⟨?_, htail⟩
                intro hannounces
                rcases hhead with hsealed | hquiet
                · exact hsealed
                · rw [hquiet] at hannounces
                  cases hannounces

theorem eventsAuthenticated_iff (crypto : DatumCrypto) (precompKey : ByteVec 32) (s : ChannelState)
    (stream : Bytes) :
    EventsAuthenticated crypto precompKey s stream ↔
      PlainFramesSilent crypto precompKey s.nonce (wireFrames stream.length s.obf stream) := by
  rw [EventsAuthenticated, emittedEvents, recvEvents_eq_eventsOf]
  exact eventsOf_authentic_iff s.nonce _

/-- A cipher under which nothing opens. -/
def nothingOpens : DatumCrypto where
  boxEasyAfternm _ _ _ := none
  boxOpenEasyAfternm _ _ _ := none

/-- A body that pays one satoshi to the script `51`, as a coinbaser response. -/
def forgedCoinbaser : PlainFrame where
  protoCmd := 5
  isEncryptedPubkey := false
  isEncryptedChannel := false
  payload := [0x11] ++ leBytes 8 1 ++ leBytes 4 10 ++ (leBytes 8 1 ++ [1, 0x51])
  signature := none

def forgedStream (s : ChannelState) : Bytes :=
  wireBytes s.obf (forgedCoinbaser.header forgedCoinbaser.body.length).word forgedCoinbaser.body

theorem forged_coinbaser_emitted :
    ¬ EventsAuthenticated nothingOpens (List.Vector.replicate 32 0)
      (receiverStart 7 (List.Vector.replicate 32 0) 0)
      (forgedStream (receiverStart 7 (List.Vector.replicate 32 0) 0)) := by
  intro hauthenticated
  have hemitted : emittedEvents nothingOpens (List.Vector.replicate 32 0)
      (receiverStart 7 (List.Vector.replicate 32 0) 0)
      (forgedStream (receiverStart 7 (List.Vector.replicate 32 0) 0)) =
        [{ event := .coinbaser { coinbaseValue := 1, v2Blob := leBytes 8 1 ++ [1, 0x51] }
           frame := receivedFrame forgedCoinbaser (List.Vector.replicate 24 0) forgedCoinbaser.body
           expectedNonce := (receiverStart 7 (List.Vector.replicate 32 0) 0).nonce }] := by
    decide +kernel
  rw [EventsAuthenticated, hemitted] at hauthenticated
  rcases hauthenticated _ (List.mem_singleton_self _) rfl with ⟨hopened, -⟩ | hverified
  · cases hopened
  · cases hverified

end DatumGateway.AuthenticatedEvents
