import DatumGateway.ListPrefixes
import DatumGateway.ShareEncoder

namespace DatumGateway.MessageCodecs

open DatumGateway.ByteString
open DatumGateway.ListPrefixes
open DatumGateway.ShareEncoder
open DatumGateway.UpstreamMessages

/-! What stands in a body at an index. -/

/-- The body goes on with `rest` at `i`. -/
def GoesOn (body : Bytes) (i : ℕ) (rest : Bytes) : Prop :=
  i ≤ body.length ∧ body.drop i = rest

theorem GoesOn.start (body : Bytes) : GoesOn body 0 body :=
  ⟨Nat.zero_le _, rfl⟩

theorem GoesOn.bytesAt {body bs rest : Bytes} {i n : ℕ} (hgoesOn : GoesOn body i (bs ++ rest))
    (hlength : bs.length = n) :
    bytesAt body i n = .ok bs ∧ GoesOn body (i + n) rest := by
  obtain ⟨hi, hdrop⟩ := hgoesOn
  have hbody : body.length - i = bs.length + rest.length := by
    rw [← List.length_drop, hdrop, List.length_append]
  refine ⟨?_, by omega, ?_⟩
  · rw [UpstreamMessages.bytesAt, if_neg (by omega), hdrop, List.take_left' hlength]
  · rw [← List.drop_drop, hdrop, List.drop_left' hlength]

theorem GoesOn.byteAt {body rest : Bytes} {i : ℕ} {b : UInt8}
    (hgoesOn : GoesOn body i (b :: rest)) :
    byteAt body i = .ok b ∧ GoesOn body (i + 1) rest := by
  obtain ⟨hbytes, hrest⟩ :
      UpstreamMessages.bytesAt body i 1 = .ok [b] ∧ GoesOn body (i + 1) rest :=
    @GoesOn.bytesAt _ [b] _ _ 1 hgoesOn rfl
  refine ⟨?_, hrest⟩
  rw [UpstreamMessages.byteAt, hbytes]
  simp [leValue, Bind.bind, Except.bind, Pure.pure, Except.pure]

theorem take_of_bytesAt {body bs : Bytes} {i n : ℕ} (hbytes : bytesAt body i n = .ok bs) :
    bs.length = n ∧ body.take (i + n) = body.take i ++ bs := by
  rw [bytesAt] at hbytes
  split_ifs at hbytes with hshort
  obtain rfl := Except.ok.inj hbytes
  constructor
  · rw [List.length_take, List.length_drop]
    omega
  · exact List.take_add

theorem ok_bind {ε α β : Type} (x : α) (next : α → Except ε β) :
    (Except.ok x >>= next) = next x :=
  rfl

theorem ok_of_bind {ε α β : Type} {c : Except ε α} {next : α → Except ε β} {y : β}
    (hbind : c >>= next = .ok y) : ∃ x, c = .ok x ∧ next x = .ok y := by
  cases c with
  | error e => cases hbind
  | ok x => exact ⟨x, rfl, hbind⟩

theorem take_of_byteAt {body : Bytes} {i : ℕ} {b : UInt8} (hbyte : byteAt body i = .ok b) :
    body.take (i + 1) = body.take i ++ [b] := by
  obtain ⟨bs, hbytes, hvalue⟩ := ok_of_bind hbyte
  obtain ⟨hlength, htake⟩ := take_of_bytesAt hbytes
  obtain ⟨c, rfl⟩ := List.length_eq_one_iff.mp hlength
  obtain rfl := Except.ok.inj hvalue
  rw [htake]
  simp [leValue]

theorem leBytes_word {bs : Bytes} (hlength : bs.length = 4) :
    leBytes 4 (UInt32.ofNat (leValue bs)).toNat = bs := by
  have hlt := leValue_lt_pow bs
  rw [hlength] at hlt
  rw [UInt32.toNat_ofNat_of_lt' hlt, ← hlength, leBytes_leValue]

theorem leBytes_longWord {bs : Bytes} (hlength : bs.length = 8) :
    leBytes 8 (UInt64.ofNat (leValue bs)).toNat = bs := by
  have hlt := leValue_lt_pow bs
  rw [hlength] at hlt
  rw [UInt64.toNat_ofNat_of_lt' hlt, ← hlength, leBytes_leValue]

/-! The three codes. -/

def ConfigFits (m : ClientConfig) : Prop :=
  m.poolScriptsig.length ≤ 255 ∧ m.poolCoinbaseTag.length ≤ 255

theorem decode_encode_clientConfig {m : ClientConfig} (hfits : ConfigFits m) (rest : Bytes) :
    ClientConfig.decode (m.encode ++ rest) = .ok m := by
  obtain ⟨hscriptsig, htag⟩ := hfits
  have hscriptsigLen : (UInt8.ofNat m.poolScriptsig.length).toNat = m.poolScriptsig.length :=
    UInt8.toNat_ofNat_of_lt' (Nat.lt_succ_of_le hscriptsig)
  have htagLen : (UInt8.ofNat m.poolCoinbaseTag.length).toNat = m.poolCoinbaseTag.length :=
    UInt8.toNat_ofNat_of_lt' (Nat.lt_succ_of_le htag)
  have hbody : m.encode ++ rest =
      1 :: UInt8.ofNat m.poolScriptsig.length :: (m.poolScriptsig ++ (leBytes 4 m.primeId.toNat ++
        (UInt8.ofNat m.poolCoinbaseTag.length :: (m.poolCoinbaseTag ++
          (leBytes 8 m.vardiffMin.toNat ++ ([0x00, 0xFE] ++ rest)))))) := by
    simp [ClientConfig.encode]
  have hstart : GoesOn (m.encode ++ rest) 0 _ := ⟨Nat.zero_le _, hbody⟩
  obtain ⟨hversion, hgoesOn⟩ := hstart.byteAt
  obtain ⟨hlen, hgoesOn⟩ := GoesOn.byteAt hgoesOn
  obtain ⟨hsig, hgoesOn⟩ := GoesOn.bytesAt hgoesOn hscriptsigLen.symm
  obtain ⟨hprime, hgoesOn⟩ := GoesOn.bytesAt hgoesOn (length_leBytes 4 _)
  obtain ⟨htaglen, hgoesOn⟩ := GoesOn.byteAt hgoesOn
  obtain ⟨htagBytes, hgoesOn⟩ := GoesOn.bytesAt hgoesOn htagLen.symm
  obtain ⟨hmin, hgoesOn⟩ := GoesOn.bytesAt hgoesOn (length_leBytes 8 _)
  obtain ⟨htrailer, -⟩ := @GoesOn.bytesAt _ [0x00, 0xFE] _ _ 2 hgoesOn rfl
  simp only [Nat.zero_add, Nat.reduceAdd] at hlen hsig hprime htaglen htagBytes hmin htrailer
  rw [ClientConfig.decode, hversion, ok_bind, hlen]
  simp only [ok_bind, hsig, hprime, htaglen, htagBytes, hmin, htrailer]
  rw [if_neg (not_not.mpr rfl), if_neg (not_not.mpr rfl),
    leValue_leBytes_of_lt m.primeId.toNat_lt, leValue_leBytes_of_lt m.vardiffMin.toNat_lt,
    UInt32.ofNat_toNat, UInt64.ofNat_toNat]
  rfl

theorem encode_clientConfig_prefix {body : Bytes} {m : ClientConfig}
    (hdecode : ClientConfig.decode body = .ok m) : ConfigFits m ∧ m.encode <+: body := by
  rw [ClientConfig.decode] at hdecode
  obtain ⟨version, hversion, hdecode⟩ := ok_of_bind hdecode
  split_ifs at hdecode with hbad
  · cases hdecode
  obtain ⟨scriptsigLen, hscriptsigLen, hdecode⟩ := ok_of_bind hdecode
  dsimp only at hdecode
  obtain ⟨poolScriptsig, hscriptsig, hdecode⟩ := ok_of_bind hdecode
  obtain ⟨primeId, hprimeId, hdecode⟩ := ok_of_bind hdecode
  obtain ⟨tagLen, htagLen, hdecode⟩ := ok_of_bind hdecode
  obtain ⟨tag, htag, hdecode⟩ := ok_of_bind hdecode
  obtain ⟨vardiffMin, hvardiffMin, hdecode⟩ := ok_of_bind hdecode
  obtain ⟨trailer, htrailer, hdecode⟩ := ok_of_bind hdecode
  split_ifs at hdecode with hmissing
  · cases hdecode
  obtain rfl := Except.ok.inj hdecode
  obtain ⟨hscriptsigLength, hscriptsig⟩ := take_of_bytesAt hscriptsig
  obtain ⟨hprimeIdLength, hprimeId⟩ := take_of_bytesAt hprimeId
  obtain ⟨htagLength, htag⟩ := take_of_bytesAt htag
  obtain ⟨hvardiffMinLength, hvardiffMin⟩ := take_of_bytesAt hvardiffMin
  obtain ⟨-, htrailer⟩ := take_of_bytesAt htrailer
  refine ⟨⟨?_, ?_⟩, ?_⟩
  · rw [hscriptsigLength]
    exact Nat.le_of_lt_succ scriptsigLen.toNat_lt
  · rw [htagLength]
    exact Nat.le_of_lt_succ tagLen.toNat_lt
  · rw [not_not] at hbad hmissing
    subst hbad hmissing
    have hencode : ClientConfig.encode
        { poolScriptsig
          primeId := UInt32.ofNat (leValue primeId)
          poolCoinbaseTag := tag
          vardiffMin := UInt64.ofNat (leValue vardiffMin) } =
        body.take (2 + scriptsigLen.toNat + 4 + 1 + tagLen.toNat + 8 + 2) := by
      rw [htrailer, hvardiffMin, htag, take_of_byteAt htagLen, hprimeId, hscriptsig,
        take_of_byteAt hscriptsigLen, take_of_byteAt hversion, ClientConfig.encode,
        hscriptsigLength, htagLength, leBytes_word hprimeIdLength,
        leBytes_longWord hvardiffMinLength, UInt8.ofNat_toNat, UInt8.ofNat_toNat]
      rfl
    rw [hencode]
    exact List.take_prefix _ _

def BlobFits (m : CoinbaserResponse) : Prop :=
  1 ≤ m.v2Blob.length ∧ m.v2Blob.length ≤ 32767

theorem blobLen_refused_iff (blobLen : UInt32) (trailing : ℕ) :
    (blobLen < 1 ∨ 32767 < blobLen ∨ trailing < blobLen.toNat) ↔
      ¬ (1 ≤ blobLen.toNat ∧ blobLen.toNat ≤ 32767 ∧ blobLen.toNat ≤ trailing) := by
  have hone : (1 : UInt32).toNat = 1 := rfl
  have hmax : (32767 : UInt32).toNat = 32767 := rfl
  rw [UInt32.lt_iff_toNat_lt, UInt32.lt_iff_toNat_lt, hone, hmax]
  omega

theorem decode_encode_coinbaserResponse {m : CoinbaserResponse} (hfits : BlobFits m)
    (rest : Bytes) : CoinbaserResponse.decode (m.encode ++ rest) = .ok m := by
  obtain ⟨hmin, hmax⟩ := hfits
  have hlen : (UInt32.ofNat m.v2Blob.length).toNat = m.v2Blob.length :=
    UInt32.toNat_ofNat_of_lt' (Nat.lt_of_le_of_lt hmax (by decide))
  have hvalue := length_leBytes 8 m.coinbaseValue.toNat
  have hbody : m.encode ++ rest = leBytes 8 m.coinbaseValue.toNat ++
      (leBytes 4 (UInt32.ofNat m.v2Blob.length).toNat ++ (m.v2Blob ++ rest)) := by
    simp [CoinbaserResponse.encode]
  have hlength : (m.encode ++ rest).length = 12 + (m.v2Blob.length + rest.length) := by
    rw [hbody, List.length_append, List.length_append, List.length_append, hvalue,
      length_leBytes]
    omega
  have hblobLen : wordAt (m.encode ++ rest) 8 = UInt32.ofNat m.v2Blob.length := by
    rw [hbody]
    exact wordAt_append _ _ _ hvalue
  have hfront : (m.encode ++ rest).take 8 = leBytes 8 m.coinbaseValue.toNat := by
    rw [hbody]
    exact List.take_left' hvalue
  have hbehind : (m.encode ++ rest).drop 12 = m.v2Blob ++ rest := by
    rw [hbody, ← List.append_assoc]
    exact List.drop_left' (by rw [List.length_append, hvalue, length_leBytes])
  have haccepted := mt (blobLen_refused_iff (UInt32.ofNat m.v2Blob.length)
    ((m.encode ++ rest).length - 12)).mp (not_not.mpr ⟨by omega, by omega, by omega⟩)
  rw [CoinbaserResponse.decode, bytesAt, if_neg (by omega), ok_bind]
  dsimp only
  rw [hblobLen, if_neg haccepted, hfront, hbehind, hlen,
    leValue_leBytes_of_lt m.coinbaseValue.toNat_lt, UInt64.ofNat_toNat, List.take_left]
  rfl

theorem encode_coinbaserResponse_prefix {body : Bytes} {m : CoinbaserResponse}
    (hdecode : CoinbaserResponse.decode body = .ok m) : BlobFits m ∧ m.encode <+: body := by
  rw [CoinbaserResponse.decode] at hdecode
  obtain ⟨front, hfront, hdecode⟩ := ok_of_bind hdecode
  dsimp only at hdecode
  rw [bytesAt] at hfront
  split_ifs at hfront with hshort
  split_ifs at hdecode with hrefused
  · cases hdecode
  obtain rfl := Except.ok.inj hdecode
  rw [blobLen_refused_iff, not_not] at hrefused
  obtain ⟨hmin, hmax, htrailing⟩ := hrefused
  have hlength : ((body.drop 12).take (wordAt body 8).toNat).length = (wordAt body 8).toNat := by
    rw [List.length_take, List.length_drop]
    omega
  refine ⟨?_, ?_⟩
  · rw [BlobFits, hlength]
    exact ⟨hmin, hmax⟩
  · have hword : ((body.drop 8).take 4).length = 4 := by
      rw [List.length_take, List.length_drop]
      omega
    have hwordBytes : leBytes 4 (wordAt body 8).toNat = (body.drop 8).take 4 := leBytes_word hword
    have hlong : (body.take 8).length = 8 := by
      rw [List.length_take]
      omega
    have hencode : CoinbaserResponse.encode
        { coinbaseValue := UInt64.ofNat (leValue (body.take 8))
          v2Blob := (body.drop 12).take (wordAt body 8).toNat } =
        body.take (8 + 4 + (wordAt body 8).toNat) := by
      rw [List.take_add, List.take_add, CoinbaserResponse.encode, hlength, UInt32.ofNat_toNat,
        leBytes_longWord hlong, hwordBytes]
    rw [hencode]
    exact List.take_prefix _ _

theorem take_succ_getD {body : Bytes} {i : ℕ} (hi : i < body.length) :
    body.take (i + 1) = body.take i ++ [body.getD i 0] := by
  rw [List.take_succ_eq_append_getElem hi, List.getD_eq_getElem?_getD, List.getElem?_eq_getElem hi]
  rfl

theorem encode_sharePrefix_prefix {body : Bytes} {p : ShareSubmissionPrefix}
    (hdecode : ShareSubmissionPrefix.decode body = .ok p) : p.encode <+: body := by
  have hlen : shareSubmissionPrefixLen = 30 := rfl
  rw [ShareSubmissionPrefix.decode] at hdecode
  split_ifs at hdecode with hshort hopcode hxnLen
  obtain rfl := Except.ok.inj hdecode
  rw [not_not] at hopcode hxnLen
  have hword : ∀ i, i + 4 ≤ body.length →
      leBytes 4 (wordAt body i).toNat = (body.drop i).take 4 := by
    intro i hi
    apply leBytes_word
    rw [List.length_take, List.length_drop]
    omega
  have hfront : body.take 5 =
      [0x27, body.getD 1 0, body.getD 2 0, body.getD 3 0, body.getD 4 0] := by
    rw [← hopcode, take_succ_getD (i := 4) (by omega), take_succ_getD (i := 3) (by omega),
      take_succ_getD (i := 2) (by omega), take_succ_getD (i := 1) (by omega),
      take_succ_getD (i := 0) (by omega)]
    rfl
  have hwords : body.take 17 = body.take 5 ++ leBytes 4 (wordAt body 5).toNat ++
      leBytes 4 (wordAt body 9).toNat ++ leBytes 4 (wordAt body 13).toNat := by
    rw [hword 5 (by omega), hword 9 (by omega), hword 13 (by omega), ← List.take_add,
      ← List.take_add, ← List.take_add]
  have hprefix := List.take_prefix (17 + 1 + 12) body
  rw [List.take_add, take_succ_getD (i := 17) (by omega), hwords, hfront, hxnLen] at hprefix
  exact hprefix

theorem clientConfig_code :
    PrefixCode ClientConfig.encode ClientConfig.decode ConfigFits where
  decode_append _ hfits rest := decode_encode_clientConfig hfits rest
  encode_prefix _ _ hdecode := encode_clientConfig_prefix hdecode

theorem coinbaserResponse_code :
    PrefixCode CoinbaserResponse.encode CoinbaserResponse.decode BlobFits where
  decode_append _ hfits rest := decode_encode_coinbaserResponse hfits rest
  encode_prefix _ _ hdecode := encode_coinbaserResponse_prefix hdecode

theorem sharePrefix_code :
    PrefixCode ShareSubmissionPrefix.encode ShareSubmissionPrefix.decode fun _ => True where
  decode_append p _ rest := p.decode_encode_append rest
  encode_prefix _ _ hdecode := ⟨trivial, encode_sharePrefix_prefix hdecode⟩

end DatumGateway.MessageCodecs
