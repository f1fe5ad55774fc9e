import DatumGateway.CheckedRuns
import DatumGateway.Coinbaser
import DatumGateway.ListPrefixes

namespace DatumGateway.CoinbaserBlobs

open DatumGateway.ByteString
open DatumGateway.CheckedRuns
open DatumGateway.Coinbaser
open DatumGateway.ListPrefixes

/-! The encoder. -/

/-- The length of a script as it is written, cut off at one byte. -/
def slenByte (output : CoinbaseOutput) : UInt8 :=
  if output.scriptPubkey.length < 256 then UInt8.ofNat output.scriptPubkey.length else 255

def encodeOutputs : ℕ → List CoinbaseOutput → Except CoinbaserError Bytes
  | _, [] => .ok []
  | idx, output :: outputs =>
      let slen := slenByte output
      if slen < minScriptLen ∨ maxScriptLen < slen then .error (.badScriptLen idx slen)
      else do
        let rest ← encodeOutputs (idx + 1) outputs
        return leBytes 8 output.valueSats.toNat ++ [slen] ++ output.scriptPubkey ++ rest

def encodeV2Blob (blob : CoinbaserBlob) : Except CoinbaserError Bytes := do
  let rest ← encodeOutputs 0 blob.outputs
  return blob.datumId :: rest

/-- The script has a length that the format allows. -/
def ScriptFits (output : CoinbaseOutput) : Prop :=
  2 ≤ output.scriptPubkey.length ∧ output.scriptPubkey.length ≤ 64

instance (output : CoinbaseOutput) : Decidable (ScriptFits output) :=
  inferInstanceAs (Decidable (_ ∧ _))

/-- The bytes that stand for an output. -/
def outputBytes (output : CoinbaseOutput) : Bytes :=
  leBytes 8 output.valueSats.toNat ++ [UInt8.ofNat output.scriptPubkey.length] ++
    output.scriptPubkey

theorem slenByte_refused_iff (output : CoinbaseOutput) :
    (slenByte output < minScriptLen ∨ maxScriptLen < slenByte output) ↔ ¬ ScriptFits output := by
  have hmin : minScriptLen.toNat = 2 := rfl
  have hmax : maxScriptLen.toNat = 64 := rfl
  rw [UInt8.lt_iff_toNat_lt, UInt8.lt_iff_toNat_lt, hmin, hmax, ScriptFits, slenByte]
  split_ifs with hbyte
  · rw [UInt8.toNat_ofNat_of_lt' hbyte]
    omega
  · have hcut : (255 : UInt8).toNat = 255 := rfl
    rw [hcut]
    omega

theorem slenByte_of_fits {output : CoinbaseOutput} (hfits : ScriptFits output) :
    slenByte output = UInt8.ofNat output.scriptPubkey.length := by
  have hbyte : output.scriptPubkey.length < 256 := Nat.lt_of_le_of_lt hfits.2 (by decide)
  rw [slenByte, if_pos hbyte]

theorem encodeOutputs_of_fits {outputs : List CoinbaseOutput} (idx : ℕ)
    (hfits : ∀ output ∈ outputs, ScriptFits output) :
    encodeOutputs idx outputs = .ok (outputs.flatMap outputBytes) := by
  induction outputs generalizing idx with
  | nil => rfl
  | cons output outputs ih =>
      have hfirst := hfits output List.mem_cons_self
      have hrest := ih (idx + 1) fun o ho => hfits o (List.mem_cons_of_mem output ho)
      have haccepted := mt (slenByte_refused_iff output).mp (not_not.mpr hfirst)
      rw [encodeOutputs, if_neg haccepted, hrest, slenByte_of_fits hfirst]
      rfl

theorem encodeOutputs_cons_of_fits {output : CoinbaseOutput} (hfits : ScriptFits output)
    (outputs : List CoinbaseOutput) (idx : ℕ) (e : CoinbaserError) :
    encodeOutputs idx (output :: outputs) = .error e ↔
      encodeOutputs (idx + 1) outputs = .error e := by
  have haccepted := mt (slenByte_refused_iff output).mp (not_not.mpr hfits)
  rw [encodeOutputs, if_neg haccepted]
  cases encodeOutputs (idx + 1) outputs with
  | error e' => rfl
  | ok rest => exact iff_of_false nofun nofun

theorem encodeOutputs_cons_of_not_fits {output : CoinbaseOutput} (hfits : ¬ ScriptFits output)
    (outputs : List CoinbaseOutput) (idx : ℕ) :
    encodeOutputs idx (output :: outputs) = .error (.badScriptLen idx (slenByte output)) := by
  rw [encodeOutputs]
  exact if_pos ((slenByte_refused_iff output).mpr hfits)

theorem fits_of_encodeOutputs {outputs : List CoinbaseOutput} {idx : ℕ} {bytes : Bytes}
    (hencode : encodeOutputs idx outputs = .ok bytes) :
    ∀ output ∈ outputs, ScriptFits output := by
  induction outputs generalizing idx bytes with
  | nil => exact List.forall_mem_nil _
  | cons output outputs ih =>
      by_cases hfits : ScriptFits output
      · cases hrest : encodeOutputs (idx + 1) outputs with
        | error e =>
            rw [← encodeOutputs_cons_of_fits hfits, hencode] at hrest
            cases hrest
        | ok rest => exact List.forall_mem_cons.mpr ⟨hfits, ih hrest⟩
      · rw [encodeOutputs_cons_of_not_fits hfits] at hencode
        cases hencode

theorem encodeOutputs_eq_error_iff {outputs : List CoinbaseOutput} {idx : ℕ}
    {e : CoinbaserError} :
    encodeOutputs idx outputs = .error e ↔
      ∃ i output, outputs[i]? = some output ∧ ¬ ScriptFits output ∧
        (∀ earlier ∈ outputs.take i, ScriptFits earlier) ∧
        e = .badScriptLen (idx + i) (slenByte output) := by
  induction outputs generalizing idx with
  | nil => simp [encodeOutputs]
  | cons output outputs ih =>
      by_cases hfits : ScriptFits output
      · rw [encodeOutputs_cons_of_fits hfits, ih]
        constructor
        · rintro ⟨i, bad, hbad, hnot, hearlier, rfl⟩
          refine ⟨i + 1, bad, hbad, hnot, ?_, ?_⟩
          · rw [List.take_succ_cons, List.forall_mem_cons]
            exact ⟨hfits, hearlier⟩
          · rw [Nat.add_assoc, Nat.add_comm 1]
        · rintro ⟨i, bad, hbad, hnot, hearlier, rfl⟩
          cases i with
          | zero =>
              obtain rfl := Option.some.inj hbad
              exact absurd hfits hnot
          | succ i =>
              rw [List.take_succ_cons, List.forall_mem_cons] at hearlier
              refine ⟨i, bad, hbad, hnot, hearlier.2, ?_⟩
              rw [Nat.add_assoc, Nat.add_comm 1]
      · rw [encodeOutputs_cons_of_not_fits hfits]
        constructor
        · rintro ⟨⟩
          exact ⟨0, output, rfl, hfits, by simp, rfl⟩
        · rintro ⟨i, bad, hbad, hnot, hearlier, rfl⟩
          cases i with
          | zero =>
              obtain rfl := Option.some.inj hbad
              rfl
          | succ i => exact absurd (hearlier output List.mem_cons_self) hfits

/-! The outputs that stand in a blob. -/

/-- The next output, and what follows it. -/
def nextOutput (rest : Bytes) : Option (CoinbaseOutput × Bytes) :=
  let slen := rest.getD 8 0
  if 9 + slen.toNat ≤ rest.length ∧ 2 ≤ slen.toNat ∧ slen.toNat ≤ 64 then
    some
      ({ valueSats := UInt64.ofNat (leValue (rest.take 8))
         scriptPubkey := (rest.drop 9).take slen.toNat }, (rest.drop 9).drop slen.toNat)
  else none

theorem nextOutput_outputBytes {output : CoinbaseOutput} (hfits : ScriptFits output)
    (rest : Bytes) : nextOutput (outputBytes output ++ rest) = some (output, rest) := by
  obtain ⟨hmin, hmax⟩ := hfits
  have hbyte : (UInt8.ofNat output.scriptPubkey.length).toNat = output.scriptPubkey.length :=
    UInt8.toNat_ofNat_of_lt' (Nat.lt_of_le_of_lt hmax (by decide))
  have hbytes : outputBytes output ++ rest = leBytes 8 output.valueSats.toNat ++
      UInt8.ofNat output.scriptPubkey.length :: (output.scriptPubkey ++ rest) := by
    simp [outputBytes]
  have hvalue := length_leBytes 8 output.valueSats.toNat
  have hslen : (outputBytes output ++ rest).getD 8 0 =
      UInt8.ofNat output.scriptPubkey.length := by
    rw [hbytes, List.getD_eq_getElem?_getD, List.getElem?_append_right (Nat.le_of_eq hvalue),
      hvalue]
    rfl
  have hbehind : (outputBytes output ++ rest).drop 9 = output.scriptPubkey ++ rest := by
    rw [outputBytes, List.append_assoc]
    exact List.drop_left' (by rw [List.length_append, hvalue]; rfl)
  have hfront : (outputBytes output ++ rest).take 8 = leBytes 8 output.valueSats.toNat := by
    rw [hbytes]
    exact List.take_left' hvalue
  have hlength : 9 + output.scriptPubkey.length ≤ (outputBytes output ++ rest).length := by
    simp [outputBytes]
    omega
  rw [nextOutput, hslen, hbyte, if_pos ⟨hlength, hmin, hmax⟩, hbehind, hfront,
    leValue_leBytes_of_lt output.valueSats.toNat_lt, UInt64.ofNat_toNat, List.take_left,
    List.drop_left]

theorem nextOutput_eq_none_iff {rest : Bytes} :
    nextOutput rest = none ↔ ¬ (9 + (rest.getD 8 0).toNat ≤ rest.length ∧
      2 ≤ (rest.getD 8 0).toNat ∧ (rest.getD 8 0).toNat ≤ 64) := by
  rw [nextOutput]
  split_ifs with hfound
  · exact iff_of_false nofun (not_not.mpr hfound)
  · exact iff_of_true rfl hfound

theorem length_lt_of_nextOutput {rest rest' : Bytes} {output : CoinbaseOutput}
    (hnext : nextOutput rest = some (output, rest')) : rest'.length < rest.length := by
  obtain ⟨⟨hlength, -⟩, hpair⟩ := Option.ite_none_right_eq_some.mp hnext
  obtain ⟨-, rfl⟩ := Prod.mk.inj (Option.some.inj hpair)
  rw [List.length_drop, List.length_drop]
  omega

def encodedOutputs (rest : Bytes) : List CoinbaseOutput :=
  match _ : nextOutput rest with
  | none => []
  | some (output, rest') => output :: encodedOutputs rest'
termination_by rest.length
decreasing_by exact length_lt_of_nextOutput ‹_›

theorem encodedOutputs_of_next {rest rest' : Bytes} {output : CoinbaseOutput}
    (hnext : nextOutput rest = some (output, rest')) :
    encodedOutputs rest = output :: encodedOutputs rest' := by
  rw [encodedOutputs]
  split
  · rename_i hnone
    rw [hnext] at hnone
    cases hnone
  · rename_i hsome
    rw [hnext] at hsome
    cases hsome
    rfl

theorem encodedOutputs_of_none {rest : Bytes} (hnext : nextOutput rest = none) :
    encodedOutputs rest = [] := by
  rw [encodedOutputs]
  split
  · rfl
  · rename_i hsome
    rw [hnext] at hsome
    cases hsome

theorem encodedOutputs_flatMap {outputs : List CoinbaseOutput}
    (hfits : ∀ output ∈ outputs, ScriptFits output) :
    encodedOutputs (outputs.flatMap outputBytes) = outputs := by
  induction outputs with
  | nil =>
      rw [encodedOutputs]
      rfl
  | cons output outputs ih =>
      rw [List.forall_mem_cons] at hfits
      rw [List.flatMap_cons, encodedOutputs_of_next (nextOutput_outputBytes hfits.1 _), ih hfits.2]

/-! One iteration of the parser, by what it finds next. -/

theorem slen_allowed_iff (slen : UInt8) :
    (slen < minScriptLen ∨ maxScriptLen < slen) ↔ ¬ (2 ≤ slen.toNat ∧ slen.toNat ≤ 64) := by
  have hmin : minScriptLen.toNat = 2 := rfl
  have hmax : maxScriptLen.toNat = 64 := rfl
  rw [UInt8.lt_iff_toNat_lt, UInt8.lt_iff_toNat_lt, hmin, hmax]
  omega

theorem parseOutputs_of_next {rest rest' : Bytes} {output : CoinbaseOutput}
    (hnext : nextOutput rest = some (output, rest')) (cap tally : UInt64)
    (outputs : List CoinbaseOutput) :
    parseOutputs cap rest tally outputs =
      if cap < saturatingAdd output.valueSats tally then .ok outputs
      else if maxOutputs ≤ outputs.length + 1 then .ok (outputs ++ [output])
      else parseOutputs cap rest' (tally + output.valueSats) (outputs ++ [output]) := by
  obtain ⟨⟨hlength, hslen⟩, hpair⟩ := Option.ite_none_right_eq_some.mp hnext
  obtain ⟨rfl, rfl⟩ := Prod.mk.inj (Option.some.inj hpair)
  have hallowed := mt (slen_allowed_iff (rest.getD 8 0)).mp (not_not.mpr hslen)
  have hscript : ¬ (rest.drop 9).length < (rest.getD 8 0).toNat := by
    rw [List.length_drop]
    omega
  rw [parseOutputs, if_neg (by omega), if_neg (by omega), if_neg hallowed, if_neg hscript]
  dsimp only
  rw [List.length_append, List.length_singleton]

theorem parseOutputs_of_none {rest : Bytes} (hnext : nextOutput rest = none) (cap tally : UInt64)
    (outputs : List CoinbaseOutput) :
    parseOutputs cap rest tally outputs = .ok outputs ∨
      ∃ e, parseOutputs cap rest tally outputs = .error e := by
  rw [parseOutputs]
  split_ifs with hempty hshort
  · exact .inl rfl
  · exact .inr ⟨_, rfl⟩
  · dsimp only
    split_ifs with hslen hscript
    · exact .inr ⟨_, rfl⟩
    · exact .inr ⟨_, rfl⟩
    all_goals
      rw [slen_allowed_iff, not_not] at hslen
      rw [List.length_drop] at hscript
      exact absurd ⟨by omega, hslen⟩ (nextOutput_eq_none_iff.mp hnext)

/-! The parser, with the index it reads at. -/

/-- The `while` loop.  An index out of range, a negative difference and a sum above the 64-bit
range are panics. -/
def outputsLoop (coinbaseValue : UInt64) (blob : Bytes) (idx : ℕ) (tally : UInt64)
    (outputs : List CoinbaseOutput) : Checked CoinbaserError (List CoinbaseOutput) :=
  if blob.length ≤ idx then pure outputs
  else do
    let remaining ← sub blob.length idx
    failIf (remaining < 9) (.truncated outputs.length remaining 9)
    let word ← slice blob idx (idx + 8)
    let outval := UInt64.ofNat (leValue word)
    let slen ← index blob (idx + 8)
    failIf (slen < minScriptLen ∨ maxScriptLen < slen) (.badScriptLen outputs.length slen)
    let remaining ← sub blob.length (idx + 9)
    failIf (remaining < slen.toNat) (.truncated outputs.length remaining slen.toNat)
    if coinbaseValue < saturatingAdd outval tally then pure outputs
    else do
      let script ← slice blob (idx + 9) (idx + 9 + slen.toNat)
      let tally ← addWord tally outval
      let outputs := outputs ++ [{ valueSats := outval, scriptPubkey := script }]
      if maxOutputs ≤ outputs.length then pure outputs
      else outputsLoop coinbaseValue blob (idx + 9 + slen.toNat) tally outputs
termination_by blob.length - idx

def parseV2BlobChecked (blob : Bytes) (coinbaseValue : UInt64) :
    Checked CoinbaserError CoinbaserBlob := do
  failIf (blob.length < 9) (.tooShort blob.length)
  let datumId ← index blob 0
  let outputs ← outputsLoop coinbaseValue blob 1 0 []
  return { datumId, outputs }

theorem getElem_eq_getD_drop {blob : Bytes} {idx k : ℕ} (hbyte : idx + k < blob.length) :
    blob[idx + k] = (blob.drop idx).getD k 0 := by
  rw [List.getD_eq_getElem?_getD, List.getElem?_drop, List.getElem?_eq_getElem hbyte]
  rfl

theorem outputsLoop_of_next {blob rest' : Bytes} {idx : ℕ} {output : CoinbaseOutput}
    (hidx : idx ≤ blob.length) (hnext : nextOutput (blob.drop idx) = some (output, rest'))
    (cap tally : UInt64) (outputs : List CoinbaseOutput) :
    ∃ idx', idx' ≤ blob.length ∧ blob.drop idx' = rest' ∧
      outputsLoop cap blob idx tally outputs =
        if cap < saturatingAdd output.valueSats tally then pure outputs
        else addWord tally output.valueSats >>= fun tally =>
          if maxOutputs ≤ outputs.length + 1 then pure (outputs ++ [output])
          else outputsLoop cap blob idx' tally (outputs ++ [output]) := by
  obtain ⟨⟨hlength, hslen⟩, hpair⟩ := Option.ite_none_right_eq_some.mp hnext
  obtain ⟨rfl, rfl⟩ := Prod.mk.inj (Option.some.inj hpair)
  rw [List.length_drop] at hlength
  have hbyte : idx + 8 < blob.length := by omega
  have hallowed := mt (slen_allowed_iff ((blob.drop idx).getD 8 0)).mp (not_not.mpr hslen)
  refine ⟨idx + 9 + ((blob.drop idx).getD 8 0).toNat, by omega, ?_, ?_⟩
  · rw [List.drop_drop, List.drop_drop, Nat.add_assoc]
  · rw [outputsLoop, if_neg (by omega), sub_of_le (by omega), pure_bind,
      failIf_of_not _ (by omega), pure_bind, slice_of_le (by omega), pure_bind]
    dsimp only
    rw [index_of_lt hbyte, pure_bind, getElem_eq_getD_drop hbyte, failIf_of_not _ hallowed,
      pure_bind, sub_of_le (by omega), pure_bind, failIf_of_not _ (by omega), pure_bind,
      slice_of_le (by omega), pure_bind]
    simp only [List.length_append, List.length_singleton, List.drop_drop]

theorem runs_outputsLoop_of_none {blob : Bytes} {idx : ℕ}
    (hidx : idx ≤ blob.length) (hnext : nextOutput (blob.drop idx) = none)
    (cap tally : UInt64) (outputs : List CoinbaseOutput) :
    Runs (outputsLoop cap blob idx tally outputs)
      (parseOutputs cap (blob.drop idx) tally outputs) := by
  rw [nextOutput_eq_none_iff, List.length_drop] at hnext
  have hscriptLength : ((blob.drop idx).drop 9).length = blob.length - (idx + 9) := by
    rw [List.length_drop, List.length_drop]
    omega
  rw [outputsLoop, parseOutputs, List.length_drop]
  by_cases hend : blob.length ≤ idx
  · rw [if_pos hend, if_pos (by omega)]
    exact Runs.pure outputs
  · rw [if_neg hend, if_neg (by omega), sub_of_le (by omega), pure_bind]
    refine Runs.failIf_bind (fun hshort => if_pos hshort) fun hshort => ?_
    have hbyte : idx + 8 < blob.length := by omega
    rw [if_neg hshort, slice_of_le (by omega), pure_bind]
    dsimp only
    rw [index_of_lt hbyte, pure_bind, getElem_eq_getD_drop hbyte, sub_of_le (by omega),
      hscriptLength]
    refine Runs.failIf_bind (fun hslen => if_pos hslen) fun hslen => ?_
    rw [if_neg hslen, pure_bind]
    refine Runs.failIf_bind (fun hscript => if_pos hscript) fun hscript => ?_
    rw [slen_allowed_iff, not_not] at hslen
    exact absurd ⟨by omega, hslen⟩ hnext

end DatumGateway.CoinbaserBlobs
