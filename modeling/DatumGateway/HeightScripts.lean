import DatumGateway.ScriptSigBudget
import Mathlib.Data.Nat.Bitwise
import Mathlib.Data.Nat.Digits.Defs

namespace DatumGateway.HeightScripts

open DatumGateway.ByteString
open DatumGateway.BlockTemplate
open DatumGateway.Coinbaser
open DatumGateway.CoinbaseSplit
open DatumGateway.CoinbaseTransaction
open DatumGateway.ScriptSigBudget
open DatumGateway.SharedTemplate

/-- `CScriptNum::serialize` of a number that is not negative. -/
def scriptNum (n : ℕ) : Bytes :=
  let bytes := (Nat.digits 256 n).map UInt8.ofNat
  match bytes.getLast? with
  | some last => if 0x80 ≤ last then bytes ++ [0x00] else bytes
  | none => []

/-- `CScript() << n`: the small numbers have opcodes of their own. -/
def pushNumber (n : ℕ) : Bytes :=
  if n = 0 then [0x00]
  else if n ≤ 16 then [UInt8.ofNat (0x50 + n)]
  else UInt8.ofNat (scriptNum n).length :: scriptNum n

theorem significantBytes_eq_digits (n : ℕ) :
    significantBytes n = (Nat.digits 256 n).map UInt8.ofNat := by
  induction n using significantBytes.induct with
  | case1 => rw [significantBytes, Nat.digits_zero, List.map_nil]
  | case2 n ih =>
      rw [significantBytes, Nat.digits_of_two_le_of_pos (by norm_num) n.succ_pos, List.map_cons,
        ih]
      congr 1
      exact UInt8.toNat_inj.mp (by simp)

theorem sign_bit_iff (b : UInt8) : b &&& 0x80 ≠ 0 ↔ 0x80 ≤ b := by
  have hlt : b.toNat < 256 := b.toNat_lt
  rw [ne_eq, ← UInt8.toNat_inj, UInt8.toNat_and, UInt8.le_iff_toNat_le]
  change ¬ b.toNat &&& 2 ^ 7 = 0 ↔ 128 ≤ b.toNat
  rw [Nat.and_two_pow, Nat.testBit_eq_decide_div_mod_eq]
  by_cases hbit : b.toNat / 128 % 2 = 1 <;> simp [hbit] <;> omega

theorem signPadded_significantBytes (n : ℕ) : signPadded (significantBytes n) = scriptNum n := by
  rw [significantBytes_eq_digits, signPadded, scriptNum]
  cases hlast : ((Nat.digits 256 n).map UInt8.ofNat).getLast? with
  | none => simpa using hlast
  | some last => simp only [Option.any_some, decide_eq_true_eq, sign_bit_iff]

theorem bip34HeightScript_of_large {height : UInt32} (hlarge : 17 ≤ height.toNat) :
    bip34HeightScript height = pushNumber height.toNat := by
  rw [bip34HeightScript, heightBytes, if_neg (by omega), signPadded_significantBytes, pushNumber,
    if_neg (by omega), if_neg (by omega)]

/-- A small number is pushed as one byte of data, where consensus has an opcode. -/
theorem bip34HeightScript_of_small {height : UInt32} (hsmall : height.toNat < 17) :
    bip34HeightScript height = [0x01, UInt8.ofNat height.toNat] := by
  have hbytes : heightBytes height = [UInt8.ofNat height.toNat] := by
    rw [heightBytes]
    cases hheight : height.toNat with
    | zero => rfl
    | succ n =>
        rw [if_neg n.succ_ne_zero, significantBytes, Nat.div_eq_of_lt (by omega), significantBytes]
  have hsign : ¬ UInt8.ofNat height.toNat &&& 0x80 ≠ 0 := by
    have hlt : height.toNat < 128 := by omega
    rw [sign_bit_iff, UInt8.le_iff_toNat_le,
      UInt8.toNat_ofNat_of_lt' (hlt.trans (show 128 < UInt8.size by decide))]
    exact not_le.mpr hlt
  rw [bip34HeightScript, hbytes, signPadded]
  simp only [List.getLast?_singleton, Option.any_some, hsign]
  rfl

theorem head_pushNumber_of_small {n : ℕ} (hsmall : n < 17) :
    ∃ opcode, pushNumber n = [opcode] ∧ opcode ≠ 0x01 := by
  have hnumbers : ∀ m < 17, ∃ opcode ∈ pushNumber m, pushNumber m = [opcode] ∧ opcode ≠ 0x01 := by
    decide
  obtain ⟨opcode, -, hopcode⟩ := hnumbers n hsmall
  exact ⟨opcode, hopcode⟩

theorem pushNumber_prefix_iff (height : UInt32) (rest : Bytes) :
    pushNumber height.toNat <+: bip34HeightScript height ++ rest ↔ 17 ≤ height.toNat := by
  constructor
  · intro hstarts
    by_contra hsmall
    obtain ⟨opcode, hpush, hne⟩ := head_pushNumber_of_small (not_le.mp hsmall)
    rw [hpush, bip34HeightScript_of_small (not_le.mp hsmall), List.cons_append,
      List.cons_prefix_cons] at hstarts
    exact hne hstarts.1
  · intro hlarge
    rw [bip34HeightScript_of_large hlarge]
    exact List.prefix_append _ _

theorem scriptPart_coinb1 {sha256d : Bytes → Bytes32} {template : Template}
    {coinbaser : CoinbaserBlob} {scriptsig : ScriptSigInputs} {jobIdSeed : UInt64}
    (hmemory : (fromTemplateAndBlob sha256d template coinbaser scriptsig
      jobIdSeed).coinb1.length < 2 ^ 64) :
    scriptPart (fromTemplateAndBlob sha256d template coinbaser scriptsig jobIdSeed).coinb1 =
      some (scriptHead template.height scriptsig scriptsig.potPlaceholder) := by
  rw [coinb1_fromTemplateAndBlob] at hmemory ⊢
  apply scriptPart_inputHead
  have hinput : 41 ≤ (inputHead (potOffset template.height scriptsig + 18)).length := by
    simp only [inputHead, List.length_append, length_leBytes, List.length_replicate,
      List.length_singleton]
    omega
  rw [List.length_append, length_scriptHead] at hmemory
  omega

/-- The script of a coinbase whose first half fits the address space starts with the push that
consensus expects exactly from height 17 on. -/
theorem script_starts_with_height_iff (sha256d : Bytes → Bytes32) (template : Template)
    (coinbaser : CoinbaserBlob) (scriptsig : ScriptSigInputs) (jobIdSeed : UInt64)
    (hmemory : (fromTemplateAndBlob sha256d template coinbaser scriptsig
      jobIdSeed).coinb1.length < 2 ^ 64) :
    (∃ script, scriptPart (fromTemplateAndBlob sha256d template coinbaser scriptsig
        jobIdSeed).coinb1 = some script ∧ pushNumber template.height.toNat <+: script) ↔
      17 ≤ template.height.toNat := by
  rw [scriptPart_coinb1 hmemory]
  constructor
  · rintro ⟨script, hscript, hstarts⟩
    obtain rfl := Option.some.inj hscript
    simp only [scriptHead, List.append_assoc] at hstarts
    exact (pushNumber_prefix_iff _ _).mp hstarts
  · intro hlarge
    refine ⟨_, rfl, ?_⟩
    simp only [scriptHead, List.append_assoc]
    exact (pushNumber_prefix_iff _ _).mpr hlarge

def templateAt (height : UInt32) : Template :=
  { emptyTemplate with height }

theorem script_starts_with_height_seventeen :
    (∃ script, scriptPart (fromTemplateAndBlob (fun _ => ByteVec.fill 32 0) (templateAt 17)
        { datumId := 0, outputs := [] } {} 0).coinb1 = some script ∧
        pushNumber (17 : UInt32).toNat <+: script) ↔
      17 ≤ (17 : UInt32).toNat :=
  script_starts_with_height_iff _ (templateAt 17) _ _ _ (by decide +kernel)

theorem script_of_height_one :
    (fromTemplateAndBlob (fun _ => ByteVec.fill 32 0) (templateAt 1)
        { datumId := 0, outputs := [] } {} 0).coinb1.length < 2 ^ 64 ∧
      ¬ ∃ script, scriptPart (fromTemplateAndBlob (fun _ => ByteVec.fill 32 0) (templateAt 1)
        { datumId := 0, outputs := [] } {} 0).coinb1 = some script ∧
        pushNumber 1 <+: script := by
  constructor
  · decide +kernel
  · rintro ⟨script, hscript, hstarts⟩
    have hbytes : (scriptPart (fromTemplateAndBlob (fun _ => ByteVec.fill 32 0) (templateAt 1)
        { datumId := 0, outputs := [] } {} 0).coinb1).map (List.take 2) = some [0x01, 0x01] := by
      decide +kernel
    have hpush : pushNumber 1 = [0x51] := by decide
    rw [hpush] at hstarts
    obtain ⟨rest, rfl⟩ := hstarts
    rw [hscript] at hbytes
    simp at hbytes

end DatumGateway.HeightScripts
