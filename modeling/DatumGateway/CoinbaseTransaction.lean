import DatumGateway.SharedTemplate
import DatumGateway.TransactionFormat

namespace DatumGateway.CoinbaseTransaction

open DatumGateway.ByteString
open DatumGateway.ByteReader
open DatumGateway.BlockTemplate
open DatumGateway.Coinbaser
open DatumGateway.CoinbaseSplit
open DatumGateway.SharedTemplate
open DatumGateway.TransactionFormat
open DatumGateway.Utf8Text

theorem pushVarint_eq (buf : Bytes) (n : ℕ) : pushVarint buf n = buf ++ compactSize n := by
  unfold pushVarint compactSize
  split_ifs <;> simp [leBytes]

def outputOf (output : CoinbaseOutput) : TxOut where
  value := output.valueSats.toNat
  scriptPubkey := output.scriptPubkey

/-- The pool's outputs in order, then the witness commitment if there is one. -/
def coinbaseTxOuts (template : Template) (coinbaser : CoinbaserBlob) : List TxOut :=
  coinbaser.outputs.map outputOf ++
    match template.defaultWitnessCommitment.bind Hex.decode with
    | some commitment => [{ value := 0, scriptPubkey := commitment }]
    | none => []

def coinbaseTransaction (template : Template) (coinbaser : CoinbaserBlob) (scriptSig : Bytes) :
    Transaction where
  version := 1
  inputs :=
    [{ prevHash := List.replicate 32 0
       prevIndex := 0xFFFFFFFF
       scriptSig
       sequence := 0xFFFFFFFF }]
  outputs := coinbaseTxOuts template coinbaser
  lockTime := 0

def CommitmentDecodes (template : Template) : Prop :=
  ∀ hex, template.defaultWitnessCommitment = some hex → (Hex.decode hex).isSome

structure Addressable (template : Template) (coinbaser : CoinbaserBlob) : Prop where
  outputs : coinbaser.outputs.length < 2 ^ 63
  scripts : ∀ output ∈ coinbaser.outputs, output.scriptPubkey.length < 2 ^ 63
  commitment : ∀ commitment, template.defaultWitnessCommitment.bind Hex.decode = some commitment →
    commitment.length < 2 ^ 63

theorem length_coinbaseTxOuts {template : Template} (coinbaser : CoinbaserBlob)
    (hcommitment : CommitmentDecodes template) :
    (coinbaseTxOuts template coinbaser).length = coinbaser.outputs.length +
      if template.defaultWitnessCommitment.isSome then 1 else 0 := by
  unfold coinbaseTxOuts
  cases hhex : template.defaultWitnessCommitment with
  | none => simp
  | some hex =>
      obtain ⟨commitment, hdecode⟩ := Option.isSome_iff_exists.mp (hcommitment hex hhex)
      simp [hdecode]

theorem foldl_outputs (buf : Bytes) (outputs : List CoinbaseOutput) :
    outputs.foldl (fun buf output =>
        pushVarint (buf ++ leBytes 8 output.valueSats.toNat) output.scriptPubkey.length ++
          output.scriptPubkey) buf =
      buf ++ (outputs.map outputOf).flatMap TxOut.bytes := by
  induction outputs generalizing buf with
  | nil => simp
  | cons output outputs ih =>
      rw [List.foldl_cons, ih, pushVarint_eq, List.map_cons, List.flatMap_cons]
      simp only [TxOut.bytes, scriptBytes, outputOf, List.append_assoc]

theorem buildOutputs_eq {template : Template} (coinbaser : CoinbaserBlob)
    (hcommitment : CommitmentDecodes template) :
    buildOutputs template coinbaser =
      compactSize (coinbaseTxOuts template coinbaser).length ++
        (coinbaseTxOuts template coinbaser).flatMap TxOut.bytes := by
  rw [length_coinbaseTxOuts coinbaser hcommitment]
  rw [buildOutputs, foldl_outputs, coinbaseTxOuts, List.flatMap_append, pushVarint_eq]
  cases template.defaultWitnessCommitment.bind Hex.decode with
  | none => simp
  | some commitment => simp [pushVarint_eq, TxOut.bytes, scriptBytes]

theorem coinbaseTransaction_fits {template : Template} {coinbaser : CoinbaserBlob}
    (haddressable : Addressable template coinbaser) {scriptSig : Bytes}
    (hscript : scriptSig.length < 2 ^ 64) :
    (coinbaseTransaction template coinbaser scriptSig).Fits where
  version := by norm_num [coinbaseTransaction]
  inputCount := by norm_num [coinbaseTransaction]
  inputs := by
    intro input hinput
    obtain rfl := List.mem_singleton.mp hinput
    exact ⟨List.length_replicate, by norm_num, hscript, by norm_num⟩
  outputCount := by
    have := haddressable.outputs
    simp only [coinbaseTransaction, coinbaseTxOuts, List.length_append, List.length_map]
    split <;> simp only [List.length_singleton, List.length_nil] <;> omega
  outputs := by
    intro output houtput
    rcases List.mem_append.mp houtput with hpool | hcommit
    · obtain ⟨pool, hmem, rfl⟩ := List.mem_map.mp hpool
      exact ⟨pool.valueSats.toNat_lt, lt_trans (haddressable.scripts pool hmem) (by decide)⟩
    · cases hdecode : template.defaultWitnessCommitment.bind Hex.decode with
      | none => simp [hdecode] at hcommit
      | some commitment =>
          have hlen := haddressable.commitment commitment hdecode
          rw [hdecode] at hcommit
          obtain rfl := List.mem_singleton.mp hcommit
          exact ⟨by norm_num, lt_trans hlen (by decide)⟩
  lockTime := by norm_num [coinbaseTransaction]


def inputHead (scriptLen : ℕ) : Bytes :=
  leBytes 4 1 ++ [0x01] ++ List.replicate 32 0 ++ leBytes 4 0xFFFFFFFF ++ compactSize scriptLen

theorem length_inputHead_le (scriptLen : ℕ) : (inputHead scriptLen).length ≤ 50 := by
  simp only [inputHead, compactSize]
  split_ifs <;> simp

theorem buildSplitCoinbaseBin_eq (template : Template) (scriptsig : ScriptSigInputs)
    (outputsBlob : Bytes) :
    buildSplitCoinbaseBin template scriptsig outputsBlob =
      (inputHead (potOffset template.height scriptsig + 18) ++
          scriptHead template.height scriptsig scriptsig.potPlaceholder,
        leBytes 4 0xFFFFFFFF ++ outputsBlob ++ leBytes 4 0,
        UInt16.ofNat ((inputHead (potOffset template.height scriptsig + 18)).length +
          potOffset template.height scriptsig)) := by
  have hlen : (bip34HeightScript template.height).length +
      (buildTagPushBlock scriptsig.coinbaseTagPrimary scriptsig.coinbaseTagSecondary).length +
      (buildUidPushBlock scriptsig.potPlaceholder scriptsig.coinbaseUniqueId).length + 1 +
      enprefixLen + extranoncePlaceholderLen = potOffset template.height scriptsig + 18 := by
    simp only [buildUidPushBlock, potOffset, enprefixLen, extranoncePlaceholderLen,
      List.length_append, List.length_cons, List.length_nil, length_leBytes]
  simp only [buildSplitCoinbaseBin, hlen, pushVarint_eq]
  refine Prod.ext ?_ (Prod.ext rfl (congrArg UInt16.ofNat ?_))
  · simp [inputHead, scriptHead]
  · simp only [inputHead, potOffset, List.length_append, Nat.add_assoc]

theorem coinb1_fromTemplateAndBlob (sha256d : Bytes → Bytes32) (template : Template)
    (coinbaser : CoinbaserBlob) (scriptsig : ScriptSigInputs) (jobIdSeed : UInt64) :
    (fromTemplateAndBlob sha256d template coinbaser scriptsig jobIdSeed).coinb1 =
      inputHead (potOffset template.height scriptsig + 18) ++
        scriptHead template.height scriptsig scriptsig.potPlaceholder := by
  change (buildSplitCoinbaseBin template scriptsig (buildOutputs template coinbaser)).1 = _
  rw [buildSplitCoinbaseBin_eq]

theorem coinb2_fromTemplateAndBlob (sha256d : Bytes → Bytes32) (template : Template)
    (coinbaser : CoinbaserBlob) (scriptsig : ScriptSigInputs) (jobIdSeed : UInt64) :
    (fromTemplateAndBlob sha256d template coinbaser scriptsig jobIdSeed).coinb2 =
      leBytes 4 0xFFFFFFFF ++ buildOutputs template coinbaser ++ leBytes 4 0 := by
  change (buildSplitCoinbaseBin template scriptsig (buildOutputs template coinbaser)).2.1 = _
  rw [buildSplitCoinbaseBin_eq]

theorem bytes_coinbaseTransaction {template : Template} (coinbaser : CoinbaserBlob)
    (hcommitment : CommitmentDecodes template) (script : Bytes) :
    (coinbaseTransaction template coinbaser script).bytes =
      inputHead script.length ++ script ++
        (leBytes 4 0xFFFFFFFF ++ buildOutputs template coinbaser ++ leBytes 4 0) := by
  have hcount : compactSize 1 = [0x01] := by decide
  rw [buildOutputs_eq coinbaser hcommitment]
  simp [Transaction.bytes, coinbaseTransaction, TxIn.bytes, scriptBytes, inputHead, hcount]

theorem readAll_joined {template : Template} {coinbaser : CoinbaserBlob}
    (hcommitment : CommitmentDecodes template) (haddressable : Addressable template coinbaser)
    {scriptLen : ℕ} {head x : Bytes} (hlen : head.length + x.length = scriptLen)
    (hscript : scriptLen < 2 ^ 64) :
    readAll readTransaction (inputHead scriptLen ++ head ++ x ++
        (leBytes 4 0xFFFFFFFF ++ buildOutputs template coinbaser ++ leBytes 4 0)) =
      some (coinbaseTransaction template coinbaser (head ++ x)) := by
  have hlen' : (head ++ x).length = scriptLen := by rw [List.length_append, hlen]
  have hfits := coinbaseTransaction_fits haddressable (hlen'.trans_lt hscript)
  have hread := (reads_readTransaction hfits).readAll
  rw [bytes_coinbaseTransaction coinbaser hcommitment, hlen'] at hread
  rw [← hread, ← List.append_assoc (inputHead scriptLen) head x]

theorem potOffset_le {height : UInt32} {scriptsig : ScriptSigInputs}
    (hprimary : (utf8Bytes scriptsig.coinbaseTagPrimary).length ≤ 300)
    (hsecondary : (utf8Bytes scriptsig.coinbaseTagSecondary).length ≤ 300) :
    potOffset height scriptsig ≤ 611 := by
  have hheight := length_bip34HeightScript_le height
  have htags := length_buildTagPushBlock_le scriptsig.coinbaseTagPrimary
    scriptsig.coinbaseTagSecondary
  rw [potOffset]
  omega

theorem coinbase_of_template (sha256d : Bytes → Bytes32) (template : Template)
    (coinbaser : CoinbaserBlob) (scriptsig : ScriptSigInputs) (jobIdSeed : UInt64)
    (hcommitment : CommitmentDecodes template) (haddressable : Addressable template coinbaser)
    (hprimary : (utf8Bytes scriptsig.coinbaseTagPrimary).length ≤ 300)
    (hsecondary : (utf8Bytes scriptsig.coinbaseTagSecondary).length ≤ 300) :
    let state := fromTemplateAndBlob sha256d template coinbaser scriptsig jobIdSeed
    let head := scriptHead template.height scriptsig
    let pot := state.targetPotIndex.toNat
    (∀ x : Bytes, x.length = 12 →
      readAll readTransaction (state.coinb1 ++ x ++ state.coinb2) =
        some (coinbaseTransaction template coinbaser (head scriptsig.potPlaceholder ++ x))) ∧
    (∃ start offset, pot = start + offset ∧
      state.coinb1.drop start = head scriptsig.potPlaceholder ∧
      (head scriptsig.potPlaceholder)[offset]? = some scriptsig.potPlaceholder ∧
      ∀ b, (head scriptsig.potPlaceholder).set offset b = head b) ∧
    ∀ (b : UInt8) (x : Bytes), x.length = 12 →
      readAll readTransaction (state.coinb1.set pot b ++ x ++ state.coinb2) =
        some (coinbaseTransaction template coinbaser (head b ++ x)) := by
  intro state head pot
  let offset := potOffset template.height scriptsig
  let input := inputHead (offset + 18)
  have hoffset : offset ≤ 611 := potOffset_le hprimary hsecondary
  have hinput : input.length ≤ 50 := length_inputHead_le _
  have hcoinb1 : state.coinb1 = input ++ head scriptsig.potPlaceholder :=
    coinb1_fromTemplateAndBlob sha256d template coinbaser scriptsig jobIdSeed
  have hcoinb2 : state.coinb2 =
      leBytes 4 0xFFFFFFFF ++ buildOutputs template coinbaser ++ leBytes 4 0 :=
    coinb2_fromTemplateAndBlob sha256d template coinbaser scriptsig jobIdSeed
  have hpot : pot = input.length + offset := by
    change (buildSplitCoinbaseBin template scriptsig
      (buildOutputs template coinbaser)).2.2.toNat = _
    rw [buildSplitCoinbaseBin_eq]
    simp only [UInt16.toNat_ofNat']
    exact Nat.mod_eq_of_lt (show input.length + offset < 2 ^ 16 by omega)
  obtain ⟨before, after, hbefore, hhead⟩ := scriptHead_eq template.height scriptsig
  have hset : ∀ b, (head scriptsig.potPlaceholder).set offset b = head b := by
    intro b
    simp only [head, hhead, offset, ← hbefore]
    simp
  have hpatched : ∀ b, state.coinb1.set pot b = input ++ head b := by
    intro b
    rw [hcoinb1, hpot, List.set_append_right _ _ (Nat.le_add_right _ _), Nat.add_sub_cancel_left,
      hset]
  have hread : ∀ (b : UInt8) (x : Bytes), x.length = 12 →
      readAll readTransaction (state.coinb1.set pot b ++ x ++ state.coinb2) =
        some (coinbaseTransaction template coinbaser (head b ++ x)) := by
    intro b x hx
    rw [hpatched, hcoinb2]
    apply readAll_joined hcommitment haddressable
    · rw [length_scriptHead, hx]
    · exact lt_of_le_of_lt (Nat.add_le_add_right hoffset 18) (by decide)
  refine ⟨?_, ⟨input.length, offset, hpot, ?_, ?_, hset⟩, hread⟩
  · intro x hx
    have hself : state.coinb1.set pot scriptsig.potPlaceholder = state.coinb1 := by
      rw [hpatched, hcoinb1]
    rw [← hself]
    exact hread _ x hx
  · rw [hcoinb1, List.drop_left]
  · simp only [head, hhead, offset, ← hbefore]
    simp

theorem coinbase_of_emptyTemplate :
    let template := { emptyTemplate with defaultWitnessCommitment := some "6a24aa21a9ed" }
    let coinbaser := { datumId := 1, outputs := [{ valueSats := 600, scriptPubkey := [0x51] }] }
    let state := fromTemplateAndBlob (fun _ => ByteVec.fill 32 0) template coinbaser {} 0
    readAll readTransaction (state.coinb1 ++ List.replicate 12 7 ++ state.coinb2) =
      some (coinbaseTransaction template coinbaser
        (scriptHead template.height {} 0xFF ++ List.replicate 12 7)) := by
  intro template coinbaser state
  have hdecode : Hex.decode "6a24aa21a9ed" = some [0x6a, 0x24, 0xaa, 0x21, 0xa9, 0xed] := by decide
  have hcommitment : CommitmentDecodes template := by
    intro hex hhex
    obtain rfl : "6a24aa21a9ed" = hex := Option.some.inj hhex
    exact Option.isSome_of_eq_some hdecode
  have haddressable : Addressable template coinbaser := by
    refine ⟨by decide, ?_, ?_⟩
    · intro output houtput
      obtain rfl := List.mem_singleton.mp houtput
      decide
    · intro commitment hcommitment
      obtain rfl := Option.some.inj (hdecode.symm.trans hcommitment)
      decide
  exact (coinbase_of_template (fun _ => ByteVec.fill 32 0) template coinbaser {} 0 hcommitment
    haddressable (by decide) (by decide)).1 _ List.length_replicate

end DatumGateway.CoinbaseTransaction
