import DatumGateway.HexTexts
import DatumGateway.StratumV1Connection

namespace DatumGateway.NotifyPatches

open DatumGateway.ByteString
open DatumGateway.BlockTemplate
open DatumGateway.HexTexts
open DatumGateway.ShareEncoder
open DatumGateway.SharedTemplate
open DatumGateway.StratumV1Assembler
open DatumGateway.StratumV1Connection
open DatumGateway.StratumV1Server

/-- A JSON value; a number with its text. -/
inductive Value where
  | null
  | bool (b : Bool)
  | number (text : String)
  | string (s : String)
  | array (values : List Value)
  | object (fields : List (String × Value))

def toJsonArray (notify : NotifyParams) : Value :=
  .array [.string notify.jobId, .string notify.prevHash, .string notify.coinb1,
    .string notify.coinb2, .array (notify.merkleBranch.map .string), .string notify.versionHex,
    .string notify.nbitsHex, .string notify.ntimeHex, .bool notify.cleanJobs]

def patchCoinb1PotByte (params : Value) (targetPotIndex : UInt16) (currentDiff : UInt64) :
    Value :=
  if targetPotIndex = 0 then params
  else
    match params with
    | .array values =>
        match values[2]? with
        | some (Value.string coinb1Hex) =>
            .array (values.set 2 (.string
              (StratumV1Connection.patchCoinb1PotByte coinb1Hex targetPotIndex currentDiff)))
        | _ => params
    | _ => params

/-- The parameters of the notify that is sent for the job. -/
def sentParams (params : Value) (job : NotifyJob) (currentDiff : UInt64) : Value :=
  patchCoinb1PotByte params job.targetPotIndex currentDiff

/-- What is sent for the job has the bytes of its snapshot as the first half of the coinbase, and
is otherwise what it was. -/
structure SentAsKept (values : List Value) (coinb1Hex : String) (job : NotifyJob)
    (currentDiff : UInt64) (sent : List Value) (sentHex : String) : Prop where
  length : sent.length = values.length
  others : ∀ i, i ≠ 2 → sent[i]? = values[i]?
  coinb1 : sent[2]? = some (.string sentHex)
  decodes : Hex.decode sentHex = some (emittedJob job currentDiff).patchedCoinb1Bin
  unpatched : job.targetPotIndex = 0 ∨ job.coinb1Bin.length ≤ job.targetPotIndex.toNat →
    sentHex = coinb1Hex ∧ (emittedJob job currentDiff).patchedCoinb1Bin = job.coinb1Bin

theorem decode_patched {coinb1Hex : String} {coinb1Bin : Bytes}
    (hhex : Hex.decode coinb1Hex = some coinb1Bin) (targetPotIndex : UInt16)
    (currentDiff : UInt64) :
    Hex.decode (StratumV1Connection.patchCoinb1PotByte coinb1Hex targetPotIndex currentDiff) =
      some (patchCoinb1Bytes coinb1Bin targetPotIndex currentDiff) := by
  have hlength : coinb1Hex.length = 2 * coinb1Bin.length := length_of_decode hhex
  rw [StratumV1Connection.patchCoinb1PotByte, patchCoinb1Bytes]
  split_ifs with hzero hshort
  · exact hhex
  · rw [List.set_eq_of_length_le (by omega)]
    exact hhex
  · have hindex : targetPotIndex.toNat < coinb1Bin.length := by omega
    have hbyte : Hex.decodeChars (Hex.encodeChars [floorPot currentDiff]) =
        some [floorPot currentDiff] := Hex.decodeChars_encodeChars _
    obtain ⟨hbefore, -⟩ := decodeChars_take_drop hhex targetPotIndex.toNat
    obtain ⟨-, hafter⟩ := decodeChars_take_drop hhex (targetPotIndex.toNat + 1)
    have hoffset : targetPotIndex.toNat * 2 + 2 = (targetPotIndex.toNat + 1) * 2 := by omega
    rw [Hex.decode, String.toList_ofList, hoffset, List.append_assoc,
      Hex.decodeChars_append hbefore, Hex.decodeChars_append hbyte, hafter,
      List.set_eq_take_append_cons_drop, if_pos hindex]
    rfl

theorem patchCoinb1PotByte_of_unpatched {coinb1Hex : String} {coinb1Bin : Bytes}
    (hhex : Hex.decode coinb1Hex = some coinb1Bin) {targetPotIndex : UInt16}
    (hunpatched : targetPotIndex = 0 ∨ coinb1Bin.length ≤ targetPotIndex.toNat)
    (currentDiff : UInt64) :
    StratumV1Connection.patchCoinb1PotByte coinb1Hex targetPotIndex currentDiff = coinb1Hex ∧
      patchCoinb1Bytes coinb1Bin targetPotIndex currentDiff = coinb1Bin := by
  have hlength : coinb1Hex.length = 2 * coinb1Bin.length := length_of_decode hhex
  rw [StratumV1Connection.patchCoinb1PotByte, patchCoinb1Bytes]
  rcases hunpatched with hzero | hshort
  · rw [if_pos hzero, if_pos hzero]
    exact ⟨rfl, rfl⟩
  · rw [if_pos (by omega : coinb1Hex.length < targetPotIndex.toNat * 2 + 2), ite_self,
      List.set_eq_of_length_le hshort, ite_self]
    exact ⟨rfl, rfl⟩

theorem patchCoinb1PotByte_array {values : List Value} {coinb1Hex : String}
    (hcoinb1 : values[2]? = some (.string coinb1Hex)) (targetPotIndex : UInt16)
    (currentDiff : UInt64) :
    patchCoinb1PotByte (.array values) targetPotIndex currentDiff =
      .array (values.set 2 (.string
        (StratumV1Connection.patchCoinb1PotByte coinb1Hex targetPotIndex currentDiff))) := by
  rw [patchCoinb1PotByte]
  split_ifs with hzero
  · have hsame : values.set 2 (.string coinb1Hex) = values := by
      rw [← (List.getElem?_eq_some_iff.mp hcoinb1).2, List.set_getElem_self]
    rw [StratumV1Connection.patchCoinb1PotByte, if_pos hzero, hsame]
  · simp only [hcoinb1]

theorem patches_agree (values : List Value) (coinb1Hex : String) (job : NotifyJob)
    (currentDiff : UInt64) (hcoinb1 : values[2]? = some (.string coinb1Hex))
    (hhex : Hex.decode coinb1Hex = some job.coinb1Bin) :
    ∃ sent sentHex, sentParams (.array values) job currentDiff = .array sent ∧
      SentAsKept values coinb1Hex job currentDiff sent sentHex := by
  have hbound : 2 < values.length := (List.getElem?_eq_some_iff.mp hcoinb1).1
  refine ⟨_, StratumV1Connection.patchCoinb1PotByte coinb1Hex job.targetPotIndex currentDiff,
    patchCoinb1PotByte_array hcoinb1 job.targetPotIndex currentDiff, ?_⟩
  constructor
  · exact List.length_set
  · intro i hi
    exact List.getElem?_set_ne (Ne.symm hi)
  · exact List.getElem?_set_self hbound
  · exact decode_patched hhex job.targetPotIndex currentDiff
  · intro hunpatched
    exact patchCoinb1PotByte_of_unpatched hhex hunpatched currentDiff

theorem patches_agree_of_assembled :
    let state := plainState (fun _ => ByteVec.fill 32 0) emptyTemplate
    let (notify, jobMeta) := notifyFromTemplateState "00" 0 coinbaseIdSv1 state true
    let job : NotifyJob :=
      { jobId := "00", targetPotIndex := jobMeta.targetPotIndex, coinb1Bin := jobMeta.coinb1Bin }
    ∃ values sent sentHex, toJsonArray notify = .array values ∧
      sentParams (.array values) job 1024 = .array sent ∧
        SentAsKept values notify.coinb1 job 1024 sent sentHex := by
  intro state
  obtain ⟨sent, sentHex, hsent, hkept⟩ := patches_agree _ (Hex.encode state.coinb1)
    { jobId := "00", targetPotIndex := state.targetPotIndex, coinb1Bin := state.coinb1 } 1024
    (rfl : [Value.string "00", .string _, .string (Hex.encode state.coinb1), .string _, .array _,
      .string _, .string _, .string _, .bool true][2]? = _) (Hex.decode_encode _)
  exact ⟨_, sent, sentHex, rfl, hsent, hkept⟩

end DatumGateway.NotifyPatches
