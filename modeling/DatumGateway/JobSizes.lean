import DatumGateway.ChannelManager
import DatumGateway.CoinbaseTransaction

namespace DatumGateway.JobSizes

open DatumGateway.ByteString
open DatumGateway.ByteReader
open DatumGateway.BlockTemplate
open DatumGateway.ChannelManager
open DatumGateway.Coinbaser
open DatumGateway.CoinbaseSplit
open DatumGateway.CoinbaseTransaction
open DatumGateway.MerkleBranches
open DatumGateway.MerkleTree
open DatumGateway.SharedTemplate
open DatumGateway.TransactionFormat
open DatumGateway.Utf8Text

theorem length_compactSize_le (n : ℕ) : (compactSize n).length ≤ 9 := by
  unfold compactSize
  split_ifs
  · simp
  · simp
  · simp
  · simp

theorem length_bytes_outputOf_le {output : CoinbaseOutput} {limit : ℕ}
    (hscript : output.scriptPubkey.length ≤ limit) :
    (outputOf output).bytes.length ≤ 17 + limit := by
  have hsize := length_compactSize_le output.scriptPubkey.length
  simp only [TxOut.bytes, scriptBytes, outputOf, List.length_append, length_leBytes]
  omega

theorem length_flatMap_outputs_le {outputs : List CoinbaseOutput} {limit : ℕ}
    (hscripts : ∀ output ∈ outputs, output.scriptPubkey.length ≤ limit) :
    ((outputs.map outputOf).flatMap TxOut.bytes).length ≤ outputs.length * (17 + limit) := by
  induction outputs with
  | nil => exact Nat.le_of_eq (Nat.zero_mul _).symm
  | cons output outputs ih =>
      have hfirst := length_bytes_outputOf_le (hscripts output List.mem_cons_self)
      have hrest := ih fun o ho => hscripts o (List.mem_cons_of_mem _ ho)
      rw [List.map_cons, List.flatMap_cons, List.length_append, List.length_cons, Nat.succ_mul]
      omega

theorem length_buildOutputs_le {template : Template} {coinbaser : CoinbaserBlob} {limit : ℕ}
    (hscripts : ∀ output ∈ coinbaser.outputs, output.scriptPubkey.length ≤ limit) {size : ℕ}
    (hcommitment : ∀ commitment,
      template.defaultWitnessCommitment.bind Hex.decode = some commitment →
        commitment.length ≤ size) :
    (buildOutputs template coinbaser).length ≤
      coinbaser.outputs.length * (17 + limit) + size + 26 := by
  have houtputs := length_flatMap_outputs_le hscripts
  rw [buildOutputs, foldl_outputs, pushVarint_eq]
  generalize hcount : coinbaser.outputs.length + _ = count
  have hsize := length_compactSize_le count
  cases hdecode : template.defaultWitnessCommitment.bind Hex.decode with
  | none =>
      simp only [List.length_append, List.length_nil]
      omega
  | some commitment =>
      have hlength := hcommitment commitment hdecode
      have hprefix := length_compactSize_le commitment.length
      simp only [pushVarint_eq, List.length_append, List.length_nil, length_leBytes]
      omega

theorem length_driftSiblings_le {α : Type*} (node : α → α → α) {k : ℕ} {l : List α}
    (hlength : l.length < 2 ^ k) : (driftSiblings node l).length ≤ k := by
  induction k generalizing l with
  | zero =>
      have hnil : l = [] := List.eq_nil_of_length_eq_zero (by omega)
      rw [hnil, driftSiblings_nil]
      exact Nat.le_refl 0
  | succ k ih =>
      cases l with
      | nil =>
          rw [driftSiblings_nil]
          exact Nat.zero_le _
      | cons y ys =>
          rw [driftSiblings_cons, List.length_cons]
          refine Nat.succ_le_succ (ih ?_)
          rw [length_pairDown]
          omega

theorem length_buildMerkleBranches_le (sha256d : Bytes → Bytes32) {template : Template} {k : ℕ}
    (htransactions : template.transactions.length < 2 ^ k) :
    (buildMerkleBranches sha256d template).length ≤ k + 1 := by
  have hlength : (template.transactions.map txidInternal).length < 2 ^ k := by
    rw [List.length_map]
    exact htransactions
  cases htxids : template.transactions.map txidInternal with
  | nil =>
      rw [buildMerkleBranches_nil sha256d htxids]
      exact Nat.zero_le _
  | cons first rest =>
      rw [htxids, List.length_cons] at hlength
      rw [buildMerkleBranches_cons sha256d template first rest htxids, List.length_map,
        List.length_cons]
      refine Nat.succ_le_succ (length_driftSiblings_le _ ?_)
      rw [length_pairUp]
      omega

section States

variable {sha256d : Bytes → Bytes32} {template : Template} {coinbaser : CoinbaserBlob}
variable {scriptsig : ScriptSigInputs}

theorem length_coinb1_le (hprimary : (utf8Bytes scriptsig.coinbaseTagPrimary).length ≤ 300)
    (hsecondary : (utf8Bytes scriptsig.coinbaseTagSecondary).length ≤ 300) (jobIdSeed : UInt64) :
    (fromTemplateAndBlob sha256d template coinbaser scriptsig jobIdSeed).coinb1.length ≤ 667 := by
  have hhead := length_inputHead_le (potOffset template.height scriptsig + 18)
  have hoffset : potOffset template.height scriptsig ≤ 611 := potOffset_le hprimary hsecondary
  rw [coinb1_fromTemplateAndBlob, List.length_append, length_scriptHead]
  omega

theorem length_coinb2_le {v2Blob : Bytes} {coinbaseValue : UInt64} {size : ℕ}
    (hparse : parseV2Blob v2Blob coinbaseValue = .ok coinbaser)
    (hcommitment : ∀ commitment,
      template.defaultWitnessCommitment.bind Hex.decode = some commitment →
        commitment.length ≤ size) (jobIdSeed : UInt64) :
    (fromTemplateAndBlob sha256d template coinbaser scriptsig jobIdSeed).coinb2.length ≤
      maxOutputs * (17 + maxScriptLen.toNat) + size + 34 := by
  obtain ⟨hcount, hscripts⟩ := parseV2Blob_bounds hparse
  have houtputs := length_buildOutputs_le hscripts hcommitment
  have hall := Nat.mul_le_mul_right (17 + maxScriptLen.toNat) hcount
  rw [coinb2_fromTemplateAndBlob]
  simp only [List.length_append, length_leBytes]
  omega

end States

/-- A template state of the publisher, from a blob that the pool sent and the parser took, for a
node's template whose transactions are addressable. -/
inductive FromParsedBlob (sha256d : Bytes → Bytes32) : TemplateState → Prop
  | built {template : Template} {v2Blob : Bytes} {coinbaseValue : UInt64}
      {coinbaser : CoinbaserBlob} {scriptsig : ScriptSigInputs} {jobIdSeed : UInt64}
      (hparse : parseV2Blob v2Blob coinbaseValue = .ok coinbaser)
      (hprimary : (utf8Bytes scriptsig.coinbaseTagPrimary).length ≤ 300)
      (hsecondary : (utf8Bytes scriptsig.coinbaseTagSecondary).length ≤ 300)
      (hcommitment : ∀ commitment,
        template.defaultWitnessCommitment.bind Hex.decode = some commitment →
          commitment.length ≤ 10000)
      (htransactions : template.transactions.length < 2 ^ 64) :
      FromParsedBlob sha256d
        (fromTemplateAndBlob sha256d template coinbaser scriptsig jobIdSeed)

theorem FromParsedBlob.fits {sha256d : Bytes → Bytes32} {state : TemplateState}
    (hstate : FromParsedBlob sha256d state) : FitsJobFrame state := by
  cases hstate with
  | built hparse hprimary hsecondary hcommitment htransactions =>
      refine ⟨?_, (length_coinb1_le hprimary hsecondary _).trans (by decide),
        (length_coinb2_le hparse hcommitment _).trans (by decide)⟩
      exact (length_buildMerkleBranches_le sha256d htransactions).trans (by decide)

end DatumGateway.JobSizes
