import DatumGateway.BlockTemplate
import DatumGateway.Coinbaser
import DatumGateway.Hex
import DatumGateway.Utf8Text

namespace DatumGateway.CoinbaseSplit

open DatumGateway.ByteString
open DatumGateway.BlockTemplate
open DatumGateway.Coinbaser
open DatumGateway.Utf8Text

def extranoncePlaceholderLen : ℕ := 12
def enprefixLen : ℕ := 2

structure ScriptSigInputs where
  coinbaseTagPrimary : String := "DATUM Gateway"
  coinbaseTagSecondary : String := "DATUM User"
  coinbaseUniqueId : UInt16 := 4242
  enprefix : UInt16 := 0
  /-- The byte that a share's proof-of-target exponent is patched over. -/
  potPlaceholder : UInt8 := 0xFF
  deriving DecidableEq, Repr

def pushVarint (buf : Bytes) (n : ℕ) : Bytes :=
  if n < 0xFD then buf ++ [UInt8.ofNat n]
  else if n ≤ 0xFFFF then buf ++ [0xFD] ++ leBytes 2 n
  else if n ≤ 0xFFFFFFFF then buf ++ [0xFE] ++ leBytes 4 n
  else buf ++ [0xFF] ++ leBytes 8 n

def buildOutputs (template : Template) (coinbaser : CoinbaserBlob) : Bytes :=
  let totalOutputs := coinbaser.outputs.length +
    if template.defaultWitnessCommitment.isSome then 1 else 0
  let buf := pushVarint [] totalOutputs
  let buf := coinbaser.outputs.foldl (fun buf output =>
    pushVarint (buf ++ leBytes 8 output.valueSats.toNat) output.scriptPubkey.length ++
      output.scriptPubkey) buf
  match template.defaultWitnessCommitment.bind Hex.decode with
  | some commitment => pushVarint (buf ++ leBytes 8 0) commitment.length ++ commitment
  | none => buf

/-- The bytes of a number, least significant first, without leading zeros. -/
def significantBytes : ℕ → Bytes
  | 0 => []
  | n + 1 => UInt8.ofNat (n + 1) :: significantBytes ((n + 1) / 256)
decreasing_by omega

def heightBytes (height : UInt32) : Bytes :=
  if height.toNat = 0 then [0] else significantBytes height.toNat

/-- A zero byte more where the sign bit of the last byte is set. -/
def signPadded (bytes : Bytes) : Bytes :=
  if bytes.getLast?.any (fun last => last &&& 0x80 ≠ 0) then bytes ++ [0] else bytes

def bip34HeightScript (height : UInt32) : Bytes :=
  let bytes := signPadded (heightBytes height)
  UInt8.ofNat bytes.length :: bytes

/-- The two tags with their separators. -/
def tagBody (p s : Bytes) : Bytes :=
  let body :=
    if p ≠ [] then p ++ (if s = [] then [0x00] else [0x0F])
    else if s ≠ [] then [0x0F] else []
  if s ≠ [] then body ++ s ++ [0x00] else body

def buildTagPushBlock (primary secondary : String) : Bytes :=
  let body := tagBody (utf8Bytes primary) (utf8Bytes secondary)
  if body = [] then [0x01, 0x00]
  else
    let k := body.length
    (if k ≤ 75 then [UInt8.ofNat k] else [0x4C, UInt8.ofNat k]) ++ body

def buildUidPushBlock (potPlaceholder : UInt8) (uniqueId : UInt16) : Bytes :=
  [0x03, potPlaceholder] ++ leBytes 2 uniqueId.toNat

/-- `coinb1`, `coinb2` and `target_pot_index`. -/
def buildSplitCoinbaseBin (template : Template) (scriptsig : ScriptSigInputs)
    (outputsBlob : Bytes) : Bytes × Bytes × UInt16 :=
  let coinb1 := leBytes 4 1 ++ [0x01] ++ List.replicate 32 0 ++ leBytes 4 0xFFFFFFFF
  let heightScript := bip34HeightScript template.height
  let tagBlock := buildTagPushBlock scriptsig.coinbaseTagPrimary scriptsig.coinbaseTagSecondary
  let uidBlock := buildUidPushBlock scriptsig.potPlaceholder scriptsig.coinbaseUniqueId
  let scriptsigLen := heightScript.length + tagBlock.length + uidBlock.length + 1 +
    enprefixLen + extranoncePlaceholderLen
  let coinb1 := pushVarint coinb1 scriptsigLen ++ heightScript ++ tagBlock
  let targetPotIndex := UInt16.ofNat (coinb1.length + 1)
  let coinb1 := coinb1 ++ uidBlock ++ [0x0E] ++ leBytes 2 scriptsig.enprefix.toNat
  let coinb2 := leBytes 4 0xFFFFFFFF ++ outputsBlob ++ leBytes 4 0
  (coinb1, coinb2, targetPotIndex)

def scriptHead (height : UInt32) (scriptsig : ScriptSigInputs) (pot : UInt8) : Bytes :=
  bip34HeightScript height ++
    buildTagPushBlock scriptsig.coinbaseTagPrimary scriptsig.coinbaseTagSecondary ++
    buildUidPushBlock pot scriptsig.coinbaseUniqueId ++ [0x0E] ++
    leBytes 2 scriptsig.enprefix.toNat

def potOffset (height : UInt32) (scriptsig : ScriptSigInputs) : ℕ :=
  (bip34HeightScript height).length +
    (buildTagPushBlock scriptsig.coinbaseTagPrimary scriptsig.coinbaseTagSecondary).length + 1

theorem length_scriptHead (height : UInt32) (scriptsig : ScriptSigInputs) (pot : UInt8) :
    (scriptHead height scriptsig pot).length = potOffset height scriptsig + 6 := by
  simp only [scriptHead, potOffset, buildUidPushBlock, List.length_append, List.length_cons,
    List.length_nil, length_leBytes]

theorem scriptHead_eq (height : UInt32) (scriptsig : ScriptSigInputs) :
    ∃ before after : Bytes, before.length = potOffset height scriptsig ∧
      ∀ b, scriptHead height scriptsig b = before ++ b :: after := by
  refine ⟨bip34HeightScript height ++
    buildTagPushBlock scriptsig.coinbaseTagPrimary scriptsig.coinbaseTagSecondary ++ [0x03],
    leBytes 2 scriptsig.coinbaseUniqueId.toNat ++ 0x0E :: leBytes 2 scriptsig.enprefix.toNat,
    ?_, ?_⟩
  · simp [potOffset, Nat.add_assoc]
  · intro b
    simp [scriptHead, buildUidPushBlock]

theorem length_tagBody_le (p s : Bytes) : (tagBody p s).length ≤ p.length + s.length + 2 := by
  unfold tagBody
  split_ifs <;> simp <;> omega

theorem length_buildTagPushBlock_le (primary secondary : String) :
    (buildTagPushBlock primary secondary).length ≤
      (utf8Bytes primary).length + (utf8Bytes secondary).length + 4 := by
  have hbody := length_tagBody_le (utf8Bytes primary) (utf8Bytes secondary)
  simp only [buildTagPushBlock]
  split_ifs <;> simp only [List.length_append, List.length_cons, List.length_nil] <;> omega

theorem signPadded_cons (b : UInt8) {bs : Bytes} (hbs : bs ≠ []) :
    signPadded (b :: bs) = b :: signPadded bs := by
  obtain ⟨c, cs, rfl⟩ := List.exists_cons_of_ne_nil hbs
  simp only [signPadded, List.getLast?_cons_cons]
  split <;> rfl

theorem signPadded_singleton {n : ℕ} (hn : n < 256) :
    (signPadded [UInt8.ofNat n]).length = if n < 128 then 1 else 2 := by
  have hbytes : ∀ m < 256, (signPadded [UInt8.ofNat m]).length = if m < 128 then 1 else 2 := by
    decide +kernel
  exact hbytes n hn

theorem significantBytes_ne_nil {n : ℕ} (hn : n ≠ 0) : significantBytes n ≠ [] := by
  obtain ⟨m, rfl⟩ := Nat.exists_eq_succ_of_ne_zero hn
  rw [significantBytes]
  exact List.cons_ne_nil _ _

theorem heightBytes_ne_nil (height : UInt32) : heightBytes height ≠ [] := by
  unfold heightBytes
  split
  · exact List.cons_ne_nil _ _
  · rename_i hne
    exact significantBytes_ne_nil hne

theorem signPadded_ne_nil {bytes : Bytes} (hbytes : bytes ≠ []) : signPadded bytes ≠ [] := by
  unfold signPadded
  split
  · exact List.append_ne_nil_of_left_ne_nil hbytes _
  · exact hbytes

theorem two_le_length_bip34HeightScript (height : UInt32) :
    2 ≤ (bip34HeightScript height).length :=
  Nat.succ_le_succ
    (List.length_pos_of_ne_nil (signPadded_ne_nil (heightBytes_ne_nil height)))

theorem length_signPadded_le_iff {n : ℕ} (hn : n ≠ 0) (k : ℕ) :
    (signPadded (significantBytes n)).length ≤ k + 1 ↔ n < 128 * 256 ^ k := by
  induction n using significantBytes.induct generalizing k with
  | case1 => exact (hn rfl).elim
  | case2 n ih =>
      rw [significantBytes]
      rcases Nat.eq_zero_or_pos ((n + 1) / 256) with hzero | hpos
      · have hsmall : n + 1 < 256 := by omega
        have hpow : 1 ≤ 256 ^ k := Nat.one_le_pow _ _ (by norm_num)
        rw [hzero, significantBytes, signPadded_singleton hsmall]
        cases k with
        | zero => split <;> omega
        | succ k =>
            have hpow' : 1 ≤ 256 ^ k := Nat.one_le_pow _ _ (by norm_num)
            rw [pow_succ]
            split <;> omega
      · rw [signPadded_cons _ (significantBytes_ne_nil hpos.ne'), List.length_cons]
        cases k with
        | zero =>
            have := List.length_pos_of_ne_nil
              (signPadded_ne_nil (significantBytes_ne_nil hpos.ne'))
            constructor <;> intro h <;> omega
        | succ k =>
            rw [Nat.succ_le_succ_iff, ih hpos.ne', pow_succ,
              Nat.div_lt_iff_lt_mul (by norm_num), Nat.mul_assoc]

theorem length_bip34HeightScript_le_iff (height : UInt32) (k : ℕ) :
    (bip34HeightScript height).length ≤ k + 2 ↔ height.toNat < 128 * 256 ^ k := by
  rw [bip34HeightScript, List.length_cons, Nat.succ_le_succ_iff, heightBytes]
  split
  · rename_i hzero
    rw [hzero]
    have hpow : 1 ≤ 256 ^ k := Nat.one_le_pow _ _ (by norm_num)
    constructor <;> intro <;> simp [signPadded]
  · rename_i hne
    exact length_signPadded_le_iff hne k

theorem length_bip34HeightScript_le (height : UInt32) :
    (bip34HeightScript height).length ≤ 6 :=
  (length_bip34HeightScript_le_iff height 4).mpr (lt_trans height.toNat_lt (by decide))

end DatumGateway.CoinbaseSplit
