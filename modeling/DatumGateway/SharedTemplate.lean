import DatumGateway.CoinbaseSplit
import DatumGateway.MerkleBranches

namespace DatumGateway.SharedTemplate

open DatumGateway.ByteString
open DatumGateway.BlockTemplate
open DatumGateway.Coinbaser
open DatumGateway.CoinbaseSplit
open DatumGateway.MerkleBranches
open DatumGateway.Utf8Text

/-- The block target of compact `nbits`; all zero where the exponent does not
fit or the text is not four bytes of hex. -/
def nbitsToTargetLe (nbitsHex : String) : Bytes32 :=
  match (Hex.decode nbitsHex).bind (ByteVec.ofBytes? 4) with
  | none => zeroHash
  | some bytes =>
      let nbits := leValue bytes.toList.reverse
      let exp := nbits / 2 ^ 24
      let mantissa := nbits % 2 ^ 24
      if exp < 3 ∨ 32 < exp then zeroHash
      else
        let base := exp - 3
        ⟨(((List.replicate 32 0).set base (UInt8.ofNat mantissa)).set (base + 1)
          (UInt8.ofNat (mantissa / 2 ^ 8))).set (base + 2) (UInt8.ofNat (mantissa / 2 ^ 16)),
          by simp only [List.length_set, List.length_replicate]⟩

/-- Each word of four bytes reversed. -/
def swapWords : Bytes → Bytes
  | a :: b :: c :: d :: rest => d :: c :: b :: a :: swapWords rest
  | _ => []

theorem eq_nil_of_no_word {bs : Bytes} (hlen : 4 ∣ bs.length)
    (hshort : ∀ a b c d rest, bs = a :: b :: c :: d :: rest → False) : bs = [] := by
  rcases bs with _ | ⟨a, _ | ⟨b, _ | ⟨c, _ | ⟨d, rest⟩⟩⟩⟩
  · rfl
  · simp at hlen
  · simp at hlen
  · simp at hlen
  · exact (hshort a b c d rest rfl).elim

theorem swapWords_swapWords {bs : Bytes} (hlen : 4 ∣ bs.length) :
    swapWords (swapWords bs) = bs := by
  induction bs using swapWords.induct with
  | case1 a b c d rest ih =>
      simp only [List.length_cons] at hlen
      simp only [swapWords, ih (by omega)]
  | case2 bs hshort =>
      rw [eq_nil_of_no_word hlen hshort]
      rfl

def swapPrevHashForStratum (hashHex : String) : String :=
  match Hex.decode hashHex with
  | some bytes => if bytes.length = 32 then Hex.encode (swapWords bytes) else hashHex
  | none => hashHex

structure TemplateState where
  /-- Internal byte order. -/
  prevHash : Bytes32
  height : UInt32
  /-- Display byte order. -/
  nbits : ByteVec 4
  minNtime : UInt32
  coinbaseValue : UInt64
  coinbaseOutputs : List CoinbaseOutput
  coinb1 : Bytes
  coinb2 : Bytes
  /-- Display byte order. -/
  merkleBranches : List Bytes32
  version : UInt32
  jobIdSeed : UInt64
  targetPotIndex : UInt16
  datumCoinbaserId : UInt8
  /-- Internal byte order. -/
  blockTarget : Bytes32
  txnCount : UInt32
  txnTotalWeight : UInt32
  txnTotalSize : UInt32
  txnTotalSigops : UInt32
  txnDataHex : List String
  deriving DecidableEq

/-- The bytes of a display-order hex field in internal order, if there are `n` of them. -/
def decodeReversed (n : ℕ) (hex : String) : Option (ByteVec n) :=
  ((Hex.decode hex).bind (ByteVec.ofBytes? n)).map List.Vector.reverse

def fromTemplateAndBlob (sha256d : Bytes → Bytes32) (template : Template)
    (coinbaser : CoinbaserBlob) (scriptsig : ScriptSigInputs) (jobIdSeed : UInt64) :
    TemplateState :=
  let outputsBlob := buildOutputs template coinbaser
  let (coinb1, coinb2, targetPotIndex) :=
    buildSplitCoinbaseBin template scriptsig outputsBlob
  { prevHash := (decodeReversed 32 template.previousBlockHash).getD zeroHash
    height := template.height
    nbits := ((Hex.decode template.bits).bind (ByteVec.ofBytes? 4)).getD (ByteVec.fill 4 0)
    minNtime := template.curtime.toUInt32
    coinbaseValue := template.coinbaseValue
    coinbaseOutputs := coinbaser.outputs
    coinb1
    coinb2
    merkleBranches := buildMerkleBranches sha256d template
    version := template.version
    jobIdSeed
    targetPotIndex
    datumCoinbaserId := coinbaser.datumId
    blockTarget :=
      (template.target.bind (decodeReversed 32)).getD (nbitsToTargetLe template.bits)
    txnCount := UInt32.ofNat template.transactions.length
    txnTotalWeight := (template.transactions.map TemplateTransaction.weight).sum
    txnTotalSize := (template.transactions.map fun tx =>
      UInt32.ofNat (utf8Bytes tx.data).length / 2).sum
    txnTotalSigops := (template.transactions.map TemplateTransaction.sigops).sum
    txnDataHex := template.transactions.map TemplateTransaction.data }

def plainState (sha256d : Bytes → Bytes32) (template : Template)
    (scriptsig : ScriptSigInputs := {}) (jobIdSeed : UInt64 := 0) : TemplateState :=
  fromTemplateAndBlob sha256d template { datumId := 0, outputs := [] } scriptsig jobIdSeed

end DatumGateway.SharedTemplate
