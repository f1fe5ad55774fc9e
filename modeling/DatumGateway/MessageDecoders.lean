import DatumGateway.AuthenticatedEvents
import DatumGateway.CheckedRuns
import DatumGateway.MessageCodecs

namespace DatumGateway.MessageDecoders

open DatumGateway.AuthenticatedEvents
open DatumGateway.ByteString
open DatumGateway.CheckedRuns
open DatumGateway.FrameHeaders
open DatumGateway.ListPrefixes
open DatumGateway.MessageCodecs
open DatumGateway.ShareEncoder
open DatumGateway.UpstreamMessages

def decodeClientConfigChecked (body : Bytes) : Checked MessageError ClientConfig := do
  failIf (body.length = 0) (.tooShort 0 1)
  let version ← index body 0
  failIf (version ≠ 1) (.badConfigVersion version)
  let i := 1
  failIf (body.length ≤ i) (.tooShort body.length (i + 1))
  let scriptsigLen ← index body i
  let i := i + 1
  failIf (body.length < i + scriptsigLen.toNat) (.tooShort body.length (i + scriptsigLen.toNat))
  let poolScriptsig ← slice body i (i + scriptsigLen.toNat)
  let i := i + scriptsigLen.toNat
  failIf (body.length < i + 4) (.tooShort body.length (i + 4))
  let primeId ← slice body i (i + 4)
  let i := i + 4
  failIf (body.length ≤ i) (.tooShort body.length (i + 1))
  let tagLen ← index body i
  let i := i + 1
  failIf (body.length < i + tagLen.toNat) (.tooShort body.length (i + tagLen.toNat))
  let poolCoinbaseTag ← slice body i (i + tagLen.toNat)
  let i := i + tagLen.toNat
  failIf (body.length < i + 8) (.tooShort body.length (i + 8))
  let vardiffMin ← slice body i (i + 8)
  let i := i + 8
  failIf (body.length < i + 2) (.tooShort body.length (i + 2))
  let first ← index body i
  let second ← index body (i + 1)
  failIf (first ≠ 0x00 ∨ second ≠ 0xFE) .missingConfigTrailer
  return {
    poolScriptsig
    primeId := UInt32.ofNat (leValue primeId)
    poolCoinbaseTag
    vardiffMin := UInt64.ofNat (leValue vardiffMin) }

def decodeCoinbaserResponseChecked (body : Bytes) : Checked MessageError CoinbaserResponse := do
  failIf (body.length < 12) (.tooShort body.length 12)
  let coinbaseValue ← slice body 0 8
  let word ← slice body 8 12
  let blobLen := UInt32.ofNat (leValue word)
  let trailing ← sub body.length 12
  failIf (blobLen < 1 ∨ 32767 < blobLen ∨ trailing < blobLen.toNat)
    (.badCoinbaserLength blobLen trailing)
  let v2Blob ← slice body 12 (12 + blobLen.toNat)
  return { coinbaseValue := UInt64.ofNat (leValue coinbaseValue), v2Blob }

def wordChecked (body : Bytes) (i j : ℕ) : Checked MessageError UInt32 := do
  let word ← slice body i j
  return UInt32.ofNat (leValue word)

def decodeSharePrefixChecked (body : Bytes) : Checked MessageError ShareSubmissionPrefix := do
  failIf (body.length < shareSubmissionPrefixLen) (.tooShort body.length shareSubmissionPrefixLen)
  let opcode ← index body 0
  failIf (opcode ≠ 0x27) (.badSubOpcode opcode 0x27)
  let xnLen ← index body 17
  failIf (xnLen ≠ 12) (.badExtranonceLength xnLen)
  let jobId ← index body 1
  let coinbaseId ← index body 2
  let flags ← index body 3
  let targetByte ← index body 4
  let ntime ← wordChecked body 5 9
  let nonce ← wordChecked body 9 13
  let version ← wordChecked body 13 17
  let xn ← slice body 18 30
  let extranonce ← array 12 xn
  return { jobId, coinbaseId, flags, targetByte, ntime, nonce, version, extranonce }

theorem runs_slice_bind {α : Type} {body : Bytes} {i n : ℕ}
    {next : Bytes → Checked MessageError α} {next' : Bytes → Except MessageError α}
    (hnext : ∀ bs, bytesAt body i n = .ok bs → Runs (next bs) (next' bs)) :
    Runs (failIf (body.length < i + n) (.tooShort body.length (i + n)) >>= fun _ =>
      slice body i (i + n) >>= next) (bytesAt body i n >>= next') := by
  refine Runs.failIf_bind (fun hshort => ?_) fun hshort => ?_
  · rw [bytesAt, if_pos hshort]
    rfl
  · have hbytes : bytesAt body i n = .ok ((body.drop i).take n) := if_neg hshort
    rw [slice_of_le (by omega), pure_bind, hbytes]
    exact hnext _ hbytes

theorem runs_index_bind {α : Type} {body : Bytes} {i : ℕ}
    {next : UInt8 → Checked MessageError α} {next' : UInt8 → Except MessageError α}
    (hnext : ∀ b, byteAt body i = .ok b → Runs (next b) (next' b)) :
    Runs (failIf (body.length ≤ i) (.tooShort body.length (i + 1)) >>= fun _ =>
      index body i >>= next) (byteAt body i >>= next') := by
  refine Runs.failIf_bind (fun hshort => ?_) fun hshort => ?_
  · rw [byteAt, bytesAt, if_pos (by omega)]
    rfl
  · have hi : i < body.length := by omega
    have hgoesOn : GoesOn body i (body[i] :: body.drop (i + 1)) :=
      ⟨Nat.le_of_lt hi, List.drop_eq_getElem_cons hi⟩
    obtain ⟨hbyte, -⟩ := hgoesOn.byteAt
    rw [index_of_lt hi, pure_bind, hbyte]
    exact hnext _ hbyte

theorem failIf_empty {α : Type} (body : Bytes) (next : Unit → Checked MessageError α) :
    (failIf (body.length = 0) (.tooShort 0 1) >>= next) =
      failIf (body.length ≤ 0) (.tooShort body.length (0 + 1)) >>= next := by
  cases body with
  | nil => rfl
  | cons b body => rfl

theorem runs_trailer_bind {α : Type} {body : Bytes} {i : ℕ} {e : MessageError}
    {next : Unit → Checked MessageError α} {onError : Unit → Except MessageError α}
    {next' : Except MessageError α} (hnext : body.length ≥ i + 2 → Runs (next ()) next') :
    Runs (failIf (body.length < i + 2) (.tooShort body.length (i + 2)) >>= fun _ =>
        index body i >>= fun first => index body (i + 1) >>= fun second =>
          failIf (first ≠ 0x00 ∨ second ≠ 0xFE) e >>= next)
      (bytesAt body i 2 >>= fun trailer =>
        if trailer ≠ [0x00, 0xFE] then throw e >>= onError else next') := by
  refine Runs.failIf_bind (fun hshort => ?_) fun hshort => ?_
  · rw [bytesAt, if_pos hshort]
    rfl
  · have hi : i < body.length := by omega
    have hi' : i + 1 < body.length := by omega
    have hbytes : bytesAt body i 2 = .ok [body[i], body[i + 1]] := by
      rw [bytesAt, if_neg hshort, List.drop_eq_getElem_cons hi, List.drop_eq_getElem_cons hi']
      rfl
    have htrailer : (body[i] ≠ 0x00 ∨ body[i + 1] ≠ 0xFE) ↔
        [body[i], body[i + 1]] ≠ [0x00, 0xFE] := by
      simp only [ne_eq, List.cons.injEq, and_true, not_and_or]
    rw [index_of_lt hi, pure_bind, index_of_lt hi', pure_bind, hbytes, ok_bind]
    refine Runs.failIf_bind (fun hbad => ?_) fun hgood => ?_
    · rw [if_pos (htrailer.mp hbad)]
      rfl
    · rw [if_neg (mt htrailer.mpr hgood)]
      exact hnext (by omega)

theorem runs_clientConfig (body : Bytes) :
    Runs (decodeClientConfigChecked body) (ClientConfig.decode body) := by
  rw [decodeClientConfigChecked, ClientConfig.decode, failIf_empty]
  refine runs_index_bind fun version _ => ?_
  refine Runs.failIf_bind (fun hbad => if_pos hbad) fun hgood => ?_
  rw [if_neg hgood]
  refine runs_index_bind fun scriptsigLen _ => ?_
  refine runs_slice_bind fun poolScriptsig _ => ?_
  refine runs_slice_bind fun primeId _ => ?_
  refine runs_index_bind fun tagLen _ => ?_
  refine runs_slice_bind fun tag _ => ?_
  refine runs_slice_bind fun vardiffMin _ => ?_
  exact runs_trailer_bind fun _ => Runs.pure _

theorem runs_coinbaserResponse (body : Bytes) :
    Runs (decodeCoinbaserResponseChecked body) (CoinbaserResponse.decode body) := by
  rw [decodeCoinbaserResponseChecked, CoinbaserResponse.decode]
  refine Runs.failIf_bind (fun hshort => ?_) fun hshort => ?_
  · rw [bytesAt, if_pos (by omega)]
    rfl
  · rw [bytesAt, if_neg (by omega), ok_bind, slice_of_le (i := 0) (n := 8) (by omega), pure_bind,
      slice_of_le (i := 8) (n := 4) (by omega), pure_bind, sub_of_le (by omega), pure_bind]
    refine Runs.failIf_bind (fun hbad => if_pos hbad) fun hgood => ?_
    dsimp only at hgood ⊢
    rw [wordAt, if_neg hgood]
    rw [blobLen_refused_iff, not_not] at hgood
    rw [slice_of_le (by omega), pure_bind]
    exact Runs.pure _

theorem wordChecked_of_le {body : Bytes} {i : ℕ} (hend : i + 4 ≤ body.length) :
    wordChecked body i (i + 4) = pure (wordAt body i) := by
  rw [wordChecked, slice_of_le hend, pure_bind]
  rfl

theorem index_eq_getD {body : Bytes} {i : ℕ} (hi : i < body.length) :
    (index body i : Checked MessageError UInt8) = pure (body.getD i 0) := by
  rw [index_of_lt hi, List.getD_eq_getElem?_getD, List.getElem?_eq_getElem hi]
  rfl

theorem runs_sharePrefix (body : Bytes) :
    Runs (decodeSharePrefixChecked body) (ShareSubmissionPrefix.decode body) := by
  have hlen : shareSubmissionPrefixLen = 30 := rfl
  rw [decodeSharePrefixChecked, ShareSubmissionPrefix.decode]
  refine Runs.failIf_bind (fun hshort => dif_pos hshort) fun hshort => ?_
  rw [dif_neg hshort, index_eq_getD (by omega), pure_bind]
  refine Runs.failIf_bind (fun hopcode => if_pos hopcode) fun hopcode => ?_
  rw [if_neg hopcode, index_eq_getD (by omega), pure_bind]
  refine Runs.failIf_bind (fun hxnLen => if_pos hxnLen) fun hxnLen => ?_
  rw [if_neg hxnLen, index_eq_getD (by omega), pure_bind, index_eq_getD (by omega), pure_bind,
    index_eq_getD (by omega), pure_bind, index_eq_getD (by omega), pure_bind,
    wordChecked_of_le (i := 5) (by omega), pure_bind,
    wordChecked_of_le (i := 9) (by omega), pure_bind,
    wordChecked_of_le (i := 13) (by omega), pure_bind, slice_of_le (i := 18) (n := 12) (by omega),
    pure_bind, array_of_length (by rw [List.length_take, List.length_drop]; omega)]
  exact Runs.pure _

/-! The events that the messages come out as. -/

section Events

variable {header : FrameHeader}

theorem decodeEvent_of_mining (hcmd : header.protoCmd = 5) (opcode : UInt8) (rest : Bytes) :
    decodeEvent header (opcode :: rest) =
      if opcode = shareResponseOpcode then
        ((ShareResponse.decode rest).map UpstreamEvent.shareResponse).mapError .message
      else if opcode = clientConfigOpcode then
        ((ClientConfig.decode rest).map UpstreamEvent.clientConfig).mapError .message
      else if opcode = coinbaserResponseOpcode then
        ((CoinbaserResponse.decode rest).map UpstreamEvent.coinbaser).mapError .message
      else if opcode = jobValidationOpcode then .ok (.jobValidationRequest rest)
      else .ok (.unknownFrame header.protoCmd (opcode :: rest)) := by
  have hnotify : isBlockNotify header = false := by
    rw [isBlockNotify, hcmd]
    rfl
  have hbits : ProtoCmd.fromBits header.protoCmd = .unknown 5 := by
    rw [hcmd]
    rfl
  rw [decodeEvent, hnotify, hbits]
  rfl

theorem decodeEvent_clientConfig (hcmd : header.protoCmd = 5) {m : ClientConfig}
    (hfits : ConfigFits m) (rest : Bytes) :
    decodeEvent header (clientConfigOpcode :: (m.encode ++ rest)) = .ok (.clientConfig m) := by
  rw [decodeEvent_of_mining hcmd, decode_encode_clientConfig hfits]
  rfl

theorem decodeEvent_coinbaser (hcmd : header.protoCmd = 5) {m : CoinbaserResponse}
    (hfits : BlobFits m) (rest : Bytes) :
    decodeEvent header (coinbaserResponseOpcode :: (m.encode ++ rest)) = .ok (.coinbaser m) := by
  rw [decodeEvent_of_mining hcmd, decode_encode_coinbaserResponse hfits]
  rfl

theorem decodeEvent_sharePrefix (hcmd : header.protoCmd = 5) (p : ShareSubmissionPrefix)
    (rest : Bytes) :
    decodeEvent header (p.encode ++ rest) = .ok (.unknownFrame 5 (p.encode ++ rest)) := by
  obtain ⟨bytes, hbytes⟩ : ∃ bytes, p.encode ++ rest = 0x27 :: bytes :=
    ⟨(p.encode ++ rest).tail, rfl⟩
  rw [hbytes, decodeEvent_of_mining hcmd, hcmd]
  rfl

end Events

/-- A message is read back whatever follows it, nothing else is read, no index is out of range,
and nothing is read from a message cut short. -/
structure RoundTrips {α : Type} (encode : α → Bytes) (decode : Bytes → Except MessageError α)
    (decodeChecked : Bytes → Checked MessageError α) (fits : α → Prop) : Prop where
  decode_encode : ∀ m, fits m → ∀ rest, decode (encode m ++ rest) = .ok m
  encode_decode : ∀ body m, decode body = .ok m → encode m <+: body
  no_panic : ∀ body, Runs (decodeChecked body) (decode body)
  decode_truncated : ∀ m, fits m → ∀ body, body <+: encode m → body ≠ encode m →
    ∃ e, decode body = .error e

theorem roundTrips_of_code {α : Type} {encode : α → Bytes}
    {decode : Bytes → Except MessageError α} {decodeChecked : Bytes → Checked MessageError α}
    {fits : α → Prop} (hcode : PrefixCode encode decode fits)
    (hruns : ∀ body, Runs (decodeChecked body) (decode body)) :
    RoundTrips encode decode decodeChecked fits where
  decode_encode := hcode.decode_append
  encode_decode body m hdecode := (hcode.encode_prefix body m hdecode).2
  no_panic := hruns
  decode_truncated _ hfits _ hprefix hne := hcode.decode_strict_prefix hfits hprefix hne

theorem message_codecs :
    RoundTrips ClientConfig.encode ClientConfig.decode decodeClientConfigChecked
        (fun m => m.poolScriptsig.length ≤ 255 ∧ m.poolCoinbaseTag.length ≤ 255) ∧
      RoundTrips CoinbaserResponse.encode CoinbaserResponse.decode decodeCoinbaserResponseChecked
        (fun m => 1 ≤ m.v2Blob.length ∧ m.v2Blob.length ≤ 32767) ∧
      RoundTrips ShareSubmissionPrefix.encode ShareSubmissionPrefix.decode
        decodeSharePrefixChecked (fun _ => True) ∧
      ∀ header : FrameHeader, header.protoCmd = 5 → ∀ rest : Bytes,
        (∀ m : ClientConfig, m.poolScriptsig.length ≤ 255 → m.poolCoinbaseTag.length ≤ 255 →
          decodeEvent header (clientConfigOpcode :: (m.encode ++ rest)) =
            .ok (.clientConfig m)) ∧
        (∀ m : CoinbaserResponse, 1 ≤ m.v2Blob.length → m.v2Blob.length ≤ 32767 →
          decodeEvent header (coinbaserResponseOpcode :: (m.encode ++ rest)) =
            .ok (.coinbaser m)) ∧
        ∀ p : ShareSubmissionPrefix,
          decodeEvent header (p.encode ++ rest) = .ok (.unknownFrame 5 (p.encode ++ rest)) := by
  refine ⟨roundTrips_of_code clientConfig_code runs_clientConfig,
    roundTrips_of_code coinbaserResponse_code runs_coinbaserResponse,
    roundTrips_of_code sharePrefix_code runs_sharePrefix, fun header hcmd rest => ⟨?_, ?_, ?_⟩⟩
  · intro m hscriptsig htag
    exact decodeEvent_clientConfig hcmd ⟨hscriptsig, htag⟩ rest
  · intro m hmin hmax
    exact decodeEvent_coinbaser hcmd ⟨hmin, hmax⟩ rest
  · intro p
    exact decodeEvent_sharePrefix hcmd p rest

theorem config_of_mining_frame :
    let m : ClientConfig :=
      { poolScriptsig := [0x51], primeId := 7, poolCoinbaseTag := [], vardiffMin := 1024 }
    ClientConfig.decode (m.encode ++ [1, 2]) = .ok m ∧
      decodeEvent
        { cmdLen := 19, isSigned := false, isEncryptedPubkey := false, isEncryptedChannel := true
          protoCmd := 5 }
        (clientConfigOpcode :: (m.encode ++ [])) = .ok (.clientConfig m) := by
  intro m
  obtain ⟨hconfig, -, -, hevents⟩ := message_codecs
  exact ⟨hconfig.decode_encode m ⟨by decide, by decide⟩ [1, 2],
    (hevents _ rfl []).1 m (by decide) (by decide)⟩

end DatumGateway.MessageDecoders
