import DatumGateway.ByteString

namespace DatumGateway.BlockTemplate

open DatumGateway.ByteString

structure TemplateTransaction where
  data : String
  txid : String
  sigops : UInt32
  weight : UInt32
  deriving DecidableEq, Repr

structure Template where
  version : UInt32
  previousBlockHash : String
  bits : String
  height : UInt32
  coinbaseValue : UInt64
  curtime : UInt64
  defaultWitnessCommitment : Option String
  transactions : List TemplateTransaction
  target : Option String
  deriving DecidableEq, Repr

/-- The template of a block without transactions. -/
def emptyTemplate : Template where
  version := 0x20000000
  previousBlockHash := "0000000000000000000000000000000000000000000000000000000000000000"
  bits := "1d00ffff"
  height := 1
  coinbaseValue := 5000000000
  curtime := 0
  defaultWitnessCommitment := none
  transactions := []
  target := none

end DatumGateway.BlockTemplate
