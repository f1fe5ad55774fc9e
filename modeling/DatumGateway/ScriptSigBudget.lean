import DatumGateway.CoinbaseTransaction
import DatumGateway.TemplatePublisher

namespace DatumGateway.ScriptSigBudget

open DatumGateway.ByteString
open DatumGateway.ByteReader
open DatumGateway.BlockTemplate
open DatumGateway.Coinbaser
open DatumGateway.CoinbaseSplit
open DatumGateway.CoinbaseTransaction
open DatumGateway.ConfigValidation
open DatumGateway.FloatValues
open DatumGateway.SharedTemplate
open DatumGateway.TemplatePublisher
open DatumGateway.Utf8Text

/-! Scripts that only push data: each push starts with its length, in one byte up to 75 and behind
a `PUSHDATA` opcode above. -/

/-- How many length bytes follow an opcode that pushes data. -/
def lengthWidth (opcode : UInt8) : Option ℕ :=
  if opcode ≤ 75 then some 0
  else if opcode = 0x4C then some 1
  else if opcode = 0x4D then some 2
  else if opcode = 0x4E then some 4
  else none

def decodePushes : Bytes → Option (List Bytes)
  | [] => some []
  | opcode :: rest =>
      match lengthWidth opcode with
      | none => none
      | some width =>
          let length := if width = 0 then opcode.toNat else leValue (rest.take width)
          if width + length ≤ rest.length then
            (decodePushes (rest.drop (width + length))).map fun pushes =>
              (rest.drop width).take length :: pushes
          else none
termination_by script => script.length
decreasing_by
  simp only [List.length_drop, List.length_cons]
  omega

theorem decodePushes_nil : decodePushes [] = some [] := by
  rw [decodePushes]

theorem decodePushes_direct {data : Bytes} (hdata : data.length ≤ 75) (rest : Bytes) :
    decodePushes (UInt8.ofNat data.length :: data ++ rest) =
      (decodePushes rest).map fun pushes => data :: pushes := by
  have hopcode : (UInt8.ofNat data.length).toNat = data.length :=
    UInt8.toNat_ofNat_of_lt' (lt_of_le_of_lt hdata (by decide))
  have hwidth : lengthWidth (UInt8.ofNat data.length) = some 0 := by
    have hle : UInt8.ofNat data.length ≤ 75 := by
      rw [UInt8.le_iff_toNat_le, hopcode]
      exact hdata
    rw [lengthWidth, if_pos hle]
  rw [List.cons_append, decodePushes, hwidth]
  simp [hopcode]

theorem decodePushes_pushdata1 {data : Bytes} (hdata : data.length < 256) (rest : Bytes) :
    decodePushes (0x4C :: UInt8.ofNat data.length :: data ++ rest) =
      (decodePushes rest).map fun pushes => data :: pushes := by
  have hlength : leValue [UInt8.ofNat data.length] = data.length := by
    simp [leValue, UInt8.toNat_ofNat_of_lt' hdata]
  have hwidth : lengthWidth 0x4C = some 1 := by decide
  rw [List.cons_append, decodePushes, hwidth]
  simp [hlength, Nat.add_comm 1]

/-! The script of the coinbase. -/

/-- What consensus asks of a coinbase script, and that its pushes are well-formed. -/
def ValidScriptSig (script : Bytes) : Prop :=
  script.length ≤ 100 ∧ (decodePushes script).isSome

/-- The script part of a first half: what follows the input's 41 bytes and the
length of the script. -/
def scriptPart (coinb1 : Bytes) : Option Bytes :=
  (readCompactSize.run (coinb1.drop 41)).map Prod.snd

/-- The longest tags, separators included, that leave room for the rest. -/
def tagBodyLimit (height : UInt32) : ℕ :=
  if height.toNat < 2 ^ 7 then 77
  else if height.toNat < 2 ^ 15 then 76
  else if height.toNat < 2 ^ 31 then 75
  else 74

theorem scriptPart_inputHead {scriptLen : ℕ} (hlen : scriptLen < 2 ^ 64) (head : Bytes) :
    scriptPart (inputHead scriptLen ++ head) = some head := by
  have hdrop : (inputHead scriptLen ++ head).drop 41 = compactSize scriptLen ++ head := by
    rw [inputHead, List.append_assoc]
    exact List.drop_left' (by simp)
  rw [scriptPart, hdrop, reads_readCompactSize hlen head]
  rfl

theorem length_buildTagPushBlock (primary secondary : String) :
    (buildTagPushBlock primary secondary).length =
      let k := (tagBody (utf8Bytes primary) (utf8Bytes secondary)).length
      if k = 0 then 2 else if k ≤ 75 then k + 1 else k + 2 := by
  simp only [buildTagPushBlock, List.length_eq_zero_iff]
  split_ifs <;> simp only [List.length_append, List.length_cons, List.length_nil] <;> omega

theorem length_le_hundred_iff (height : UInt32) (scriptsig : ScriptSigInputs) {x : Bytes}
    (hx : x.length = 12) (pot : UInt8) :
    (scriptHead height scriptsig pot ++ x).length ≤ 100 ↔
      (tagBody (utf8Bytes scriptsig.coinbaseTagPrimary)
        (utf8Bytes scriptsig.coinbaseTagSecondary)).length ≤ tagBodyLimit height := by
  have htags := length_buildTagPushBlock scriptsig.coinbaseTagPrimary
    scriptsig.coinbaseTagSecondary
  have hone := length_bip34HeightScript_le_iff height 0
  have htwo := length_bip34HeightScript_le_iff height 1
  have hthree := length_bip34HeightScript_le_iff height 2
  have hfour := length_bip34HeightScript_le_iff height 3
  have hfive := length_bip34HeightScript_le height
  have hmin : 2 ≤ (bip34HeightScript height).length := two_le_length_bip34HeightScript height
  rw [List.length_append, length_scriptHead, hx, potOffset, tagBodyLimit]
  dsimp only at htags
  split_ifs at htags ⊢ <;> omega

theorem decodePushes_tagPushBlock {primary secondary : String}
    (hbody : (tagBody (utf8Bytes primary) (utf8Bytes secondary)).length < 256) (rest : Bytes) :
    ∃ data, decodePushes (buildTagPushBlock primary secondary ++ rest) =
      (decodePushes rest).map fun pushes => data :: pushes := by
  simp only [buildTagPushBlock]
  split_ifs with hempty hshort
  · exact ⟨[0], @decodePushes_direct [0] (by decide) rest⟩
  · exact ⟨_, decodePushes_direct hshort rest⟩
  · exact ⟨_, decodePushes_pushdata1 hbody rest⟩

theorem decodePushes_scriptHead {height : UInt32} {scriptsig : ScriptSigInputs} {x : Bytes}
    (hx : x.length = 12) (pot : UInt8)
    (hbody : (tagBody (utf8Bytes scriptsig.coinbaseTagPrimary)
      (utf8Bytes scriptsig.coinbaseTagSecondary)).length < 256) :
    (decodePushes (scriptHead height scriptsig pot ++ x)).isSome := by
  have hheight : (signPadded (heightBytes height)).length ≤ 75 := by
    have := length_bip34HeightScript_le height
    simp only [bip34HeightScript, List.length_cons] at this
    omega
  let uid := pot :: leBytes 2 scriptsig.coinbaseUniqueId.toNat
  let extranonce := leBytes 2 scriptsig.enprefix.toNat ++ x
  have huid : uid.length = 3 := by simp [uid]
  have hextranonce : extranonce.length = 14 := by simp [extranonce, hx]
  have hscript : scriptHead height scriptsig pot ++ x =
      UInt8.ofNat (signPadded (heightBytes height)).length :: signPadded (heightBytes height) ++
        (buildTagPushBlock scriptsig.coinbaseTagPrimary scriptsig.coinbaseTagSecondary ++
          (UInt8.ofNat uid.length :: uid ++
            (UInt8.ofNat extranonce.length :: extranonce ++ []))) := by
    rw [huid, hextranonce]
    simp [scriptHead, bip34HeightScript, buildUidPushBlock, uid, extranonce]
  obtain ⟨tags, htags⟩ := decodePushes_tagPushBlock hbody
    (UInt8.ofNat uid.length :: uid ++ (UInt8.ofNat extranonce.length :: extranonce ++ []))
  rw [hscript, decodePushes_direct hheight, htags, decodePushes_direct (by rw [huid]; decide),
    decodePushes_direct (by rw [hextranonce]; decide), decodePushes_nil]
  rfl

theorem validScriptSig_iff (height : UInt32) (scriptsig : ScriptSigInputs) {x : Bytes}
    (hx : x.length = 12) (pot : UInt8) :
    ValidScriptSig (scriptHead height scriptsig pot ++ x) ↔
      (tagBody (utf8Bytes scriptsig.coinbaseTagPrimary)
        (utf8Bytes scriptsig.coinbaseTagSecondary)).length ≤ tagBodyLimit height := by
  rw [ValidScriptSig, length_le_hundred_iff height scriptsig hx pot]
  refine ⟨fun h => h.1, fun hbody => ⟨hbody, decodePushes_scriptHead hx pot ?_⟩⟩
  have hlimit : tagBodyLimit height ≤ 77 := by
    unfold tagBodyLimit
    split_ifs <;> omega
  omega

theorem utf8Bytes_override_le (poolCoinbaseTag : Bytes) :
    (utf8Bytes (decodeLossy (poolTagOverride poolCoinbaseTag))).length ≤ 344 :=
  calc
    (utf8Bytes (decodeLossy (poolTagOverride poolCoinbaseTag))).length
        ≤ 4 * (poolTagOverride poolCoinbaseTag).length := length_utf8Bytes_decodeLossy_le _
    _ ≤ 344 := by
        rw [poolTagOverride, List.length_take]
        exact Nat.mul_le_mul_left 4 (min_le_left _ _)

theorem utf8Bytes_primaryTag_le {mining : MiningConfig} (hprimary :
    (utf8Bytes mining.coinbaseTagPrimary).length ≤ 60) (poolTag : Option Bytes) :
    (utf8Bytes (primaryTag mining (poolTag.map poolTagOverride))).length ≤ 344 := by
  cases poolTag with
  | none => exact hprimary.trans (by decide)
  | some tag => exact utf8Bytes_override_le tag

/-- For an accepted configuration and any pool message, the coinbase script of a
published state is valid exactly when the tags keep to the limit of its height. -/
theorem validScriptSig_of_published_iff (sumFloat : List FloatValue → FloatValue)
    (farFromOne : FloatValue → Bool) (config : Config)
    (haccepted : validate sumFloat farFromOne config = []) (poolTag : Option Bytes)
    (sha256d : Bytes → Bytes32) (template : Template) (coinbaser : CoinbaserBlob)
    (enprefixCounter : UInt16) (jobIdSeed : UInt64) :
    (∀ x : Bytes, x.length = 12 →
      ∃ script, scriptPart (fromTemplateAndBlob sha256d template coinbaser
          (publisherScriptSig config.mining (poolTag.map poolTagOverride) enprefixCounter)
          jobIdSeed).coinb1 = some script ∧
        ValidScriptSig (script ++ x)) ↔
      (tagBody (utf8Bytes (primaryTag config.mining (poolTag.map poolTagOverride)))
        (utf8Bytes config.mining.coinbaseTagSecondary)).length ≤
          tagBodyLimit template.height := by
  let scriptsig :=
    publisherScriptSig config.mining (poolTag.map poolTagOverride) enprefixCounter
  obtain ⟨hprimary, hsecondary, _⟩ := tags_le_of_validate haccepted
  have htags := length_buildTagPushBlock_le scriptsig.coinbaseTagPrimary
    scriptsig.coinbaseTagSecondary
  have hpool := utf8Bytes_primaryTag_le hprimary poolTag
  have hheight := length_bip34HeightScript_le template.height
  have hpart : scriptPart (fromTemplateAndBlob sha256d template coinbaser scriptsig
      jobIdSeed).coinb1 = some (scriptHead template.height scriptsig 0xFF) := by
    rw [coinb1_fromTemplateAndBlob]
    apply scriptPart_inputHead
    change (utf8Bytes config.mining.coinbaseTagSecondary).length ≤ 60 at hsecondary
    change (buildTagPushBlock scriptsig.coinbaseTagPrimary _).length ≤
      (utf8Bytes (primaryTag config.mining (poolTag.map poolTagOverride))).length +
        (utf8Bytes config.mining.coinbaseTagSecondary).length + 4 at htags
    rw [potOffset]
    omega
  rw [hpart]
  constructor
  · intro hvalid
    obtain ⟨script, hscript, hvalid⟩ := hvalid (List.replicate 12 0) List.length_replicate
    obtain rfl := Option.some.inj hscript
    exact (validScriptSig_iff _ scriptsig List.length_replicate _).mp hvalid
  · intro hbody x hx
    exact ⟨_, rfl, (validScriptSig_iff _ scriptsig hx _).mpr hbody⟩

theorem validScriptSig_of_default_tags :
    (∀ x : Bytes, x.length = 12 →
      ∃ script, scriptPart (fromTemplateAndBlob (fun _ => ByteVec.fill 32 0) emptyTemplate
          { datumId := 0, outputs := [] }
          (publisherScriptSig { poolAddress := "bc1qexample" } none 0) 0).coinb1 = some script ∧
        ValidScriptSig (script ++ x)) ↔
      (tagBody (utf8Bytes "DATUM Gateway") (utf8Bytes "DATUM User")).length ≤
        tagBodyLimit 1 :=
  validScriptSig_of_published_iff (fun _ => .nan) (fun _ => false)
    (configOf { poolAddress := "bc1qexample" })
    ((validate_configOf _ _ _).trans (by decide +kernel)) none _ emptyTemplate _ 0 0

def longTags : MiningConfig where
  poolAddress := "bc1qexample"
  coinbaseTagPrimary := String.ofList (List.replicate 60 'a')
  coinbaseTagSecondary := String.ofList (List.replicate 28 'b')

theorem scriptSig_of_longTags_not_valid :
    (∀ sumFloat farFromOne, validate sumFloat farFromOne (configOf longTags) = []) ∧
      ∀ script, scriptPart (fromTemplateAndBlob (fun _ => ByteVec.fill 32 0) emptyTemplate
          { datumId := 0, outputs := [] } (publisherScriptSig longTags none 0)
          0).coinb1 = some script →
        ¬ ValidScriptSig (script ++ List.replicate 12 0) := by
  constructor
  · intro sumFloat farFromOne
    rw [validate_configOf]
    decide +kernel
  · intro script hscript hvalid
    have hlength : (scriptPart (fromTemplateAndBlob (fun _ => ByteVec.fill 32 0) emptyTemplate
        { datumId := 0, outputs := [] } (publisherScriptSig longTags none 0)
        0).coinb1).map List.length = some 101 := by
      decide +kernel
    rw [hscript] at hlength
    have hscriptLen : script.length = 101 := Option.some.inj hlength
    have := hvalid.1
    simp only [List.length_append, List.length_replicate, hscriptLen] at this
    omega

end DatumGateway.ScriptSigBudget
