import DatumGateway.ByteReader

namespace DatumGateway.UpstreamMessages

open DatumGateway.ByteString

inductive MessageError where
  | tooShort (got need : ℕ)
  | badSubOpcode (got expected : UInt8)
  | badShareStatus (status : UInt8)
  | badConfigVersion (got : UInt8)
  | missingConfigTrailer
  | badCoinbaserLength (blobLen : UInt32) (trailing : ℕ)
  | badExtranonceLength (got : UInt8)
  deriving DecidableEq, Repr

def coinbaserResponseOpcode : UInt8 := 0x11
def clientConfigOpcode : UInt8 := 0x99
def shareResponseOpcode : UInt8 := 0x8F
def jobValidationOpcode : UInt8 := 0x50

/-- The `n` bytes of the body from `i` on. -/
def bytesAt (body : Bytes) (i n : ℕ) : Except MessageError Bytes :=
  if body.length < i + n then .error (.tooShort body.length (i + n))
  else .ok ((body.drop i).take n)

def byteAt (body : Bytes) (i : ℕ) : Except MessageError UInt8 := do
  let bs ← bytesAt body i 1
  return UInt8.ofNat (leValue bs)

def wordAt (body : Bytes) (i : ℕ) : UInt32 :=
  UInt32.ofNat (leValue ((body.drop i).take 4))

theorem wordAt_append (front : Bytes) (word : UInt32) (rest : Bytes) {i : ℕ}
    (hfront : front.length = i) : wordAt (front ++ (leBytes 4 word.toNat ++ rest)) i = word := by
  rw [wordAt, List.drop_left' hfront, List.take_left' (length_leBytes 4 word.toNat),
    leValue_leBytes_of_lt word.toNat_lt, UInt32.ofNat_toNat]

inductive ShareStatus where
  | accepted
  | acceptedTentatively
  | rejected
  deriving DecidableEq, Repr

structure ShareResponse where
  status : ShareStatus
  rejectReason : UInt16
  nonce : UInt32
  targetPot : UInt8
  jobId : UInt8
  deriving DecidableEq, Repr

def ShareStatus.decode (status : UInt8) : Except MessageError ShareStatus :=
  if status = 0x50 then .ok .accepted
  else if status = 0x55 then .ok .acceptedTentatively
  else if status = 0x66 then .ok .rejected
  else .error (.badShareStatus status)

def ShareResponse.decode (body : Bytes) : Except MessageError ShareResponse := do
  let _ ← bytesAt body 0 9
  let status ← ShareStatus.decode (body.getD 0 0)
  return {
    status
    rejectReason := UInt16.ofNat (leValue ((body.drop 1).take 2))
    nonce := wordAt body 3
    targetPot := body.getD 7 0
    jobId := body.getD 8 0 }

structure CoinbaserResponse where
  coinbaseValue : UInt64
  v2Blob : Bytes
  deriving DecidableEq, Repr

def CoinbaserResponse.encode (m : CoinbaserResponse) : Bytes :=
  leBytes 8 m.coinbaseValue.toNat ++ leBytes 4 (UInt32.ofNat m.v2Blob.length).toNat ++ m.v2Blob

def CoinbaserResponse.decode (body : Bytes) : Except MessageError CoinbaserResponse := do
  let _ ← bytesAt body 0 12
  let blobLen := wordAt body 8
  let trailing := body.length - 12
  if blobLen < 1 ∨ 32767 < blobLen ∨ trailing < blobLen.toNat then
    throw (.badCoinbaserLength blobLen trailing)
  return {
    coinbaseValue := UInt64.ofNat (leValue (body.take 8))
    v2Blob := (body.drop 12).take blobLen.toNat }

structure ClientConfig where
  poolScriptsig : Bytes
  primeId : UInt32
  poolCoinbaseTag : Bytes
  vardiffMin : UInt64
  deriving DecidableEq, Repr

def ClientConfig.encode (m : ClientConfig) : Bytes :=
  [1, UInt8.ofNat m.poolScriptsig.length] ++ m.poolScriptsig ++ leBytes 4 m.primeId.toNat ++
    [UInt8.ofNat m.poolCoinbaseTag.length] ++ m.poolCoinbaseTag ++
    leBytes 8 m.vardiffMin.toNat ++ [0x00, 0xFE]

def ClientConfig.decode (body : Bytes) : Except MessageError ClientConfig := do
  let version ← byteAt body 0
  if version ≠ 1 then
    throw (.badConfigVersion version)
  let scriptsigLen ← byteAt body 1
  let i := 2
  let poolScriptsig ← bytesAt body i scriptsigLen.toNat
  let i := i + scriptsigLen.toNat
  let primeId ← bytesAt body i 4
  let i := i + 4
  let tagLen ← byteAt body i
  let i := i + 1
  let poolCoinbaseTag ← bytesAt body i tagLen.toNat
  let i := i + tagLen.toNat
  let vardiffMin ← bytesAt body i 8
  let i := i + 8
  let trailer ← bytesAt body i 2
  if trailer ≠ [0x00, 0xFE] then
    throw .missingConfigTrailer
  return {
    poolScriptsig
    primeId := UInt32.ofNat (leValue primeId)
    poolCoinbaseTag
    vardiffMin := UInt64.ofNat (leValue vardiffMin) }

end DatumGateway.UpstreamMessages
