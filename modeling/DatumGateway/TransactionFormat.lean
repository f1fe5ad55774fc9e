import DatumGateway.ByteReader

namespace DatumGateway.TransactionFormat

open DatumGateway.ByteString
open DatumGateway.ByteReader

structure TxIn where
  prevHash : Bytes
  prevIndex : ℕ
  scriptSig : Bytes
  sequence : ℕ
  deriving DecidableEq, Repr

structure TxOut where
  value : ℕ
  scriptPubkey : Bytes
  deriving DecidableEq, Repr

structure Transaction where
  version : ℕ
  inputs : List TxIn
  outputs : List TxOut
  lockTime : ℕ
  deriving DecidableEq, Repr

def readScript : Reader Bytes := do
  let n ← readCompactSize
  readBytes n

def readTxIn : Reader TxIn := do
  let prevHash ← readBytes 32
  let prevIndex ← readLe 4
  let scriptSig ← readScript
  let sequence ← readLe 4
  return { prevHash, prevIndex, scriptSig, sequence }

def readTxOut : Reader TxOut := do
  let value ← readLe 8
  let scriptPubkey ← readScript
  return { value, scriptPubkey }

def readTransaction : Reader Transaction := do
  let version ← readLe 4
  let inputCount ← readCompactSize
  let inputs ← readMany readTxIn inputCount
  let outputCount ← readCompactSize
  let outputs ← readMany readTxOut outputCount
  let lockTime ← readLe 4
  return { version, inputs, outputs, lockTime }

def scriptBytes (script : Bytes) : Bytes :=
  compactSize script.length ++ script

def TxIn.bytes (input : TxIn) : Bytes :=
  input.prevHash ++ (leBytes 4 input.prevIndex ++
    (scriptBytes input.scriptSig ++ leBytes 4 input.sequence))

def TxOut.bytes (output : TxOut) : Bytes :=
  leBytes 8 output.value ++ scriptBytes output.scriptPubkey

def Transaction.bytes (tx : Transaction) : Bytes :=
  leBytes 4 tx.version ++ (compactSize tx.inputs.length ++ (tx.inputs.flatMap TxIn.bytes ++
    (compactSize tx.outputs.length ++ (tx.outputs.flatMap TxOut.bytes ++
      leBytes 4 tx.lockTime))))

/-- Every field fits the width it is written with. -/
structure TxIn.Fits (input : TxIn) : Prop where
  prevHash : input.prevHash.length = 32
  prevIndex : input.prevIndex < 2 ^ 32
  scriptSig : input.scriptSig.length < 2 ^ 64
  sequence : input.sequence < 2 ^ 32

structure TxOut.Fits (output : TxOut) : Prop where
  value : output.value < 2 ^ 64
  scriptPubkey : output.scriptPubkey.length < 2 ^ 64

structure Transaction.Fits (tx : Transaction) : Prop where
  version : tx.version < 2 ^ 32
  inputCount : tx.inputs.length < 2 ^ 64
  inputs : ∀ input ∈ tx.inputs, input.Fits
  outputCount : tx.outputs.length < 2 ^ 64
  outputs : ∀ output ∈ tx.outputs, output.Fits
  lockTime : tx.lockTime < 2 ^ 32

theorem reads_readScript {script : Bytes} (hscript : script.length < 2 ^ 64) :
    Reads readScript (scriptBytes script) script :=
  (reads_readCompactSize hscript).bind (reads_readBytes script)

theorem reads_readTxIn {input : TxIn} (hinput : input.Fits) :
    Reads readTxIn input.bytes input := by
  have hprevHash := reads_readBytes input.prevHash
  rw [hinput.prevHash] at hprevHash
  exact hprevHash.bind ((reads_readLe hinput.prevIndex).bind
    ((reads_readScript hinput.scriptSig).bind (reads_readLe hinput.sequence).bind_pure))

theorem reads_readTxOut {output : TxOut} (houtput : output.Fits) :
    Reads readTxOut output.bytes output :=
  (reads_readLe houtput.value).bind (reads_readScript houtput.scriptPubkey).bind_pure

theorem reads_readTransaction {tx : Transaction} (htx : tx.Fits) :
    Reads readTransaction tx.bytes tx := by
  have hinputs := reads_readMany fun input hmem => reads_readTxIn (htx.inputs input hmem)
  have houtputs := reads_readMany fun output hmem => reads_readTxOut (htx.outputs output hmem)
  exact (reads_readLe htx.version).bind ((reads_readCompactSize htx.inputCount).bind
    (hinputs.bind ((reads_readCompactSize htx.outputCount).bind
      (houtputs.bind (reads_readLe htx.lockTime).bind_pure))))

end DatumGateway.TransactionFormat
