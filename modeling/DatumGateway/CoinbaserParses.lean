import DatumGateway.CoinbaserBlobs

namespace DatumGateway.CoinbaserParses

open DatumGateway.ByteString
open DatumGateway.CheckedRuns
open DatumGateway.Coinbaser
open DatumGateway.CoinbaserBlobs
open DatumGateway.ListPrefixes

/-- The tally never leaves the 64-bit range: the cap is not the top of that range, or the outputs
that the parser can take do not sum to more than it. -/
def TallyFits (cap tally : UInt64) (count : ℕ) (encoded : List CoinbaseOutput) : Prop :=
  cap.toNat < 2 ^ 64 - 1 ∨ tally.toNat + outputSum (encoded.take (maxOutputs - count)) < 2 ^ 64

theorem take_cons_of_lt {count : ℕ} (hcount : count < maxOutputs) (output : CoinbaseOutput)
    (encoded : List CoinbaseOutput) :
    (output :: encoded).take (maxOutputs - count) =
      output :: encoded.take (maxOutputs - (count + 1)) := by
  have hleft : maxOutputs - count = maxOutputs - (count + 1) + 1 := by omega
  rw [hleft, List.take_succ_cons]

theorem outputSum_cons (output : CoinbaseOutput) (outputs : List CoinbaseOutput) :
    outputSum (output :: outputs) = output.valueSats.toNat + outputSum outputs := by
  simp [outputSum]

theorem TallyFits.step {cap tally : UInt64} {count : ℕ} {output : CoinbaseOutput}
    {encoded : List CoinbaseOutput} (hfits : TallyFits cap tally count (output :: encoded))
    (hcount : count < maxOutputs) (hcap : ¬ cap < saturatingAdd output.valueSats tally) :
    tally.toNat + output.valueSats.toNat < 2 ^ 64 ∧
      (tally + output.valueSats).toNat = tally.toNat + output.valueSats.toNat ∧
      tally.toNat + output.valueSats.toNat ≤ cap.toNat ∧
      TallyFits cap (tally + output.valueSats) (count + 1) encoded := by
  rw [lt_saturatingAdd_iff] at hcap
  rw [TallyFits, take_cons_of_lt hcount, outputSum_cons] at hfits
  have hcapLt := cap.toNat_lt
  have hsum : tally.toNat + output.valueSats.toNat < 2 ^ 64 := by omega
  have hadd := toNat_add_of_lt hsum
  refine ⟨hsum, hadd, by omega, ?_⟩
  rw [TallyFits, hadd]
  omega

theorem runs_outputsLoop {cap tally : UInt64} {blob rest : Bytes} {idx : ℕ}
    {outputs : List CoinbaseOutput} (hidx : idx ≤ blob.length) (hrest : blob.drop idx = rest)
    (hcount : outputs.length < maxOutputs)
    (hfits : TallyFits cap tally outputs.length (encodedOutputs rest)) :
    Runs (outputsLoop cap blob idx tally outputs) (parseOutputs cap rest tally outputs) := by
  induction rest using encodedOutputs.induct generalizing idx tally outputs with
  | case1 rest hnext =>
      subst hrest
      exact runs_outputsLoop_of_none hidx hnext cap tally outputs
  | case2 rest output rest' hnext ih =>
      subst hrest
      obtain ⟨idx', hidx', hdrop, hloop⟩ := outputsLoop_of_next hidx hnext cap tally outputs
      rw [encodedOutputs_of_next hnext] at hfits
      rw [hloop, parseOutputs_of_next hnext]
      split_ifs with hcap hfull
      · exact Runs.pure outputs
      all_goals
        obtain ⟨hsum, -, -, hnextFits⟩ := hfits.step hcount hcap
        rw [addWord_of_lt hsum, pure_bind]
      · exact Runs.pure _
      · rw [← List.length_singleton (a := output), ← List.length_append] at hnextFits hfull
        exact ih hidx' hdrop (Nat.lt_of_not_le hfull) hnextFits

theorem longestPrefix_of_parseOutputs {cap tally : UInt64} {rest : Bytes}
    {outputs parsed : List CoinbaseOutput} (hcount : outputs.length < maxOutputs)
    (htally : tally.toNat ≤ cap.toNat)
    (hfits : TallyFits cap tally outputs.length (encodedOutputs rest))
    (hparse : parseOutputs cap rest tally outputs = .ok parsed) :
    ∃ taken, parsed = outputs ++ taken ∧
      LongestPrefix (fun os => outputs.length + os.length ≤ maxOutputs ∧
        tally.toNat + outputSum os ≤ cap.toNat) (encodedOutputs rest) taken := by
  induction rest using encodedOutputs.induct generalizing tally outputs with
  | case1 rest hnext =>
      rcases parseOutputs_of_none hnext cap tally outputs with hok | ⟨e, herror⟩
      · rw [hok] at hparse
        obtain rfl := Except.ok.inj hparse
        rw [encodedOutputs_of_none hnext]
        exact ⟨[], (List.append_nil outputs).symm, .nil ⟨hcount.le, htally⟩⟩
      · rw [herror] at hparse
        cases hparse
  | case2 rest output rest' hnext ih =>
      rw [encodedOutputs_of_next hnext] at hfits ⊢
      rw [parseOutputs_of_next hnext] at hparse
      split_ifs at hparse with hcap hfull
      · obtain rfl := Except.ok.inj hparse
        refine ⟨[], (List.append_nil outputs).symm, .stop ⟨hcount.le, htally⟩ ?_⟩
        rintro other ⟨-, hsum⟩
        rw [lt_saturatingAdd_iff] at hcap
        rw [outputSum_cons] at hsum
        omega
      all_goals obtain ⟨-, hadd, hle, hnextFits⟩ := hfits.step hcount hcap
      · obtain rfl := Except.ok.inj hparse
        refine ⟨[output], rfl, List.cons_prefix_cons.mpr ⟨rfl, List.nil_prefix⟩, ⟨hcount, ?_⟩,
          fun other _ hother => ?_⟩
        · rw [outputSum_cons]
          exact hle
        · rw [List.length_singleton]
          omega
      · have hlength : (outputs ++ [output]).length = outputs.length + 1 := by simp
        rw [← hlength] at hfull hnextFits
        obtain ⟨taken, rfl, htaken⟩ := ih (Nat.lt_of_not_le hfull) (by omega) hnextFits hparse
        refine ⟨output :: taken, by simp, LongestPrefix.cons (fun other => ?_) htaken⟩
        rw [outputSum_cons, hadd, hlength, List.length_cons]
        omega

theorem tallyFits_of_runs {cap tally : UInt64} {blob rest : Bytes} {idx : ℕ}
    {outputs : List CoinbaseOutput} {r : Except CoinbaserError (List CoinbaseOutput)}
    (hidx : idx ≤ blob.length) (hrest : blob.drop idx = rest)
    (hcount : outputs.length < maxOutputs)
    (hruns : Runs (outputsLoop cap blob idx tally outputs) r) :
    TallyFits cap tally outputs.length (encodedOutputs rest) := by
  induction rest using encodedOutputs.induct generalizing idx tally outputs with
  | case1 rest hnext =>
      rw [encodedOutputs_of_none hnext]
      exact .inr (by simpa [outputSum] using tally.toNat_lt)
  | case2 rest output rest' hnext ih =>
      subst hrest
      obtain ⟨idx', hidx', hdrop, hloop⟩ := outputsLoop_of_next hidx hnext cap tally outputs
      rw [hloop] at hruns
      rw [encodedOutputs_of_next hnext]
      by_cases hcap : cap < saturatingAdd output.valueSats tally
      · rw [lt_saturatingAdd_iff] at hcap
        exact .inl (by omega)
      · rw [if_neg hcap] at hruns
        obtain ⟨hsum, hgoOn⟩ := Runs.of_addWord_bind hruns
        rw [TallyFits, take_cons_of_lt hcount, outputSum_cons]
        split_ifs at hgoOn with hfull
        · have hlast : maxOutputs - (outputs.length + 1) = 0 := by omega
          rw [hlast]
          exact .inr hsum
        · rw [← List.length_singleton (a := output), ← List.length_append] at hfull ⊢
          have hrestFits := ih hidx' hdrop (Nat.lt_of_not_le hfull) hgoOn
          rw [TallyFits, toNat_add_of_lt hsum, Nat.add_assoc] at hrestFits
          exact hrestFits

theorem scriptFits_of_nextOutput {rest rest' : Bytes} {output : CoinbaseOutput}
    (hnext : nextOutput rest = some (output, rest')) : ScriptFits output := by
  obtain ⟨⟨hlength, hslen⟩, hpair⟩ := Option.ite_none_right_eq_some.mp hnext
  obtain ⟨rfl, -⟩ := Prod.mk.inj (Option.some.inj hpair)
  have hscript : ((rest.drop 9).take (rest.getD 8 0).toNat).length = (rest.getD 8 0).toNat := by
    rw [List.length_take, List.length_drop]
    omega
  rw [ScriptFits, hscript]
  exact hslen

theorem scriptFits_of_mem_encodedOutputs {rest : Bytes} {output : CoinbaseOutput}
    (hmem : output ∈ encodedOutputs rest) : ScriptFits output := by
  induction rest using encodedOutputs.induct with
  | case1 rest hnext =>
      rw [encodedOutputs_of_none hnext] at hmem
      cases hmem
  | case2 rest first rest' hnext ih =>
      rw [encodedOutputs_of_next hnext] at hmem
      rcases List.mem_cons.mp hmem with rfl | hlater
      · exact scriptFits_of_nextOutput hnext
      · exact ih hlater

theorem encodedOutputs_of_short {rest : Bytes} (hshort : rest.length < 9) :
    encodedOutputs rest = [] := by
  apply encodedOutputs_of_none
  rw [nextOutput_eq_none_iff]
  omega

theorem parseV2Blob_eq {blob : Bytes} (hlength : 9 ≤ blob.length) (cap : UInt64) :
    parseV2Blob blob cap = (parseOutputs cap (blob.drop 1) 0 []).map fun outputs =>
      { datumId := blob.getD 0 0, outputs } := by
  rw [parseV2Blob, if_neg (Nat.not_lt_of_le hlength)]
  cases parseOutputs cap (blob.drop 1) 0 [] with
  | error e => rfl
  | ok outputs => rfl

theorem parseV2BlobChecked_eq {blob : Bytes} (hlength : 9 ≤ blob.length) (cap : UInt64) :
    parseV2BlobChecked blob cap = outputsLoop cap blob 1 0 [] >>= fun outputs =>
      pure { datumId := blob.getD 0 0, outputs } := by
  have hfirst : 0 < blob.length := by omega
  have hdatumId : blob[0] = blob.getD 0 0 := by
    rw [List.getD_eq_getElem?_getD, List.getElem?_eq_getElem hfirst]
    rfl
  rw [parseV2BlobChecked, failIf_of_not _ (Nat.not_lt_of_le hlength), pure_bind,
    index_of_lt hfirst, pure_bind, hdatumId]

theorem runs_parseV2BlobChecked {blob : Bytes} {cap : UInt64}
    (hfits : TallyFits cap 0 0 (encodedOutputs (blob.drop 1))) :
    Runs (parseV2BlobChecked blob cap) (parseV2Blob blob cap) := by
  by_cases hlength : 9 ≤ blob.length
  · rw [parseV2BlobChecked_eq hlength, parseV2Blob_eq hlength]
    exact (runs_outputsLoop (by omega) rfl (by decide) hfits).map _
  · rw [parseV2BlobChecked, parseV2Blob, if_pos (by omega), failIf_of _ (by omega)]
    exact Runs.throw_bind _ _

theorem tallyFits_of_parse {blob : Bytes} {cap : UInt64} {r : Except CoinbaserError CoinbaserBlob}
    (hruns : Runs (parseV2BlobChecked blob cap) r) :
    TallyFits cap 0 0 (encodedOutputs (blob.drop 1)) := by
  by_cases hlength : 9 ≤ blob.length
  · rw [parseV2BlobChecked_eq hlength] at hruns
    obtain ⟨first, hloop⟩ := hruns.of_bind
    have hfits := tallyFits_of_runs (by omega) rfl (by decide) hloop
    exact hfits
  · rw [encodedOutputs_of_short (by rw [List.length_drop]; omega)]
    exact .inr (by decide)

/-- The parser does not panic, and it returns the outputs that fit, each with an allowed script. -/
def ParsesExactly (blob : Bytes) (cap : UInt64) : Prop :=
  Runs (parseV2BlobChecked blob cap) (parseV2Blob blob cap) ∧
    ∀ parsed, parseV2Blob blob cap = .ok parsed →
      LongestPrefix (fun outputs => outputs.length ≤ maxOutputs ∧ outputSum outputs ≤ cap.toNat)
          (encodedOutputs (blob.drop 1)) parsed.outputs ∧
        ∀ output ∈ parsed.outputs, ScriptFits output

/-- The parser is exact below the top cap, and under the top cap for the blobs that do not
overflow it. -/
theorem parsesExactly_iff (blob : Bytes) (cap : UInt64) :
    ParsesExactly blob cap ↔ cap.toNat < 2 ^ 64 - 1 ∨
      outputSum ((encodedOutputs (blob.drop 1)).take maxOutputs) < 2 ^ 64 := by
  have hstart : TallyFits cap 0 0 (encodedOutputs (blob.drop 1)) ↔ cap.toNat < 2 ^ 64 - 1 ∨
      outputSum ((encodedOutputs (blob.drop 1)).take maxOutputs) < 2 ^ 64 := by
    rw [TallyFits, UInt64.toNat_zero, Nat.zero_add, Nat.sub_zero]
  rw [← hstart]
  constructor
  · rintro ⟨hruns, -⟩
    exact tallyFits_of_parse hruns
  · intro hfits
    refine ⟨runs_parseV2BlobChecked hfits, fun parsed hparse => ?_⟩
    obtain ⟨taken, htaken, hlongest⟩ := @longestPrefix_of_parseOutputs cap 0 _ [] _
      (by decide) (Nat.zero_le _) hfits (parseOutputs_of_parseV2Blob hparse)
    rw [List.nil_append] at htaken
    simp only [List.length_nil, UInt64.toNat_zero, Nat.zero_add] at hlongest
    rw [htaken]
    refine ⟨hlongest, fun output hmem => ?_⟩
    exact scriptFits_of_mem_encodedOutputs (hlongest.isPrefix.subset hmem)

def halfRangeOutput : CoinbaseOutput where
  valueSats := 2 ^ 63
  scriptPubkey := [0x51, 0x51]

theorem parse_panics_under_top_cap :
    ¬ ParsesExactly (0 :: [halfRangeOutput, halfRangeOutput].flatMap outputBytes)
      (UInt64.ofNat (2 ^ 64 - 1)) := by
  rintro ⟨hruns, -⟩
  have hfits := tallyFits_of_parse hruns
  rw [List.drop_succ_cons, List.drop_zero, encodedOutputs_flatMap (by decide)] at hfits
  have hsum : outputSum ([halfRangeOutput, halfRangeOutput].take maxOutputs) = 2 ^ 64 := by
    decide +kernel
  rcases hfits with hcap | hfits
  · exact absurd hcap (by decide +kernel)
  · rw [Nat.sub_zero, hsum] at hfits
    exact absurd hfits (by decide +kernel)

/-! What the encoder writes. -/

theorem outputBytes_length (output : CoinbaseOutput) :
    (outputBytes output).length = 9 + output.scriptPubkey.length := by
  simp [outputBytes]
  omega

theorem parseOutputs_flatMap {cap tally : UInt64} {outputs : List CoinbaseOutput}
    (encoded : List CoinbaseOutput) (hscripts : ∀ output ∈ encoded, ScriptFits output)
    (hcount : outputs.length + encoded.length ≤ maxOutputs)
    (hsum : tally.toNat + outputSum encoded ≤ cap.toNat) :
    parseOutputs cap (encoded.flatMap outputBytes) tally outputs = .ok (outputs ++ encoded) := by
  induction encoded generalizing tally outputs with
  | nil =>
      rw [List.append_nil, List.flatMap_nil, parseOutputs]
      rfl
  | cons output encoded ih =>
      rw [List.forall_mem_cons] at hscripts
      rw [outputSum_cons] at hsum
      have hcapLt := cap.toNat_lt
      have hadd : (tally + output.valueSats).toNat = tally.toNat + output.valueSats.toNat :=
        toNat_add_of_lt (by omega)
      have hcap : ¬ cap < saturatingAdd output.valueSats tally := by
        rw [lt_saturatingAdd_iff]
        omega
      have hlength : (outputs ++ [output]).length = outputs.length + 1 := by simp
      rw [List.length_cons] at hcount
      rw [List.flatMap_cons, parseOutputs_of_next (nextOutput_outputBytes hscripts.1 _),
        if_neg hcap]
      split_ifs with hfull
      · have hlast : encoded = [] := List.eq_nil_of_length_eq_zero (by omega)
        rw [hlast]
      · rw [ih hscripts.2 (by omega) (by omega), List.append_assoc]
        rfl

theorem parseV2Blob_of_encode {blob : CoinbaserBlob} {cap : UInt64} (hsome : blob.outputs ≠ [])
    (hcount : blob.outputs.length ≤ maxOutputs)
    (hscripts : ∀ output ∈ blob.outputs, ScriptFits output)
    (hsum : outputSum blob.outputs ≤ cap.toNat) :
    ∃ bytes, encodeV2Blob blob = .ok bytes ∧ parseV2Blob bytes cap = .ok blob ∧
      Runs (parseV2BlobChecked bytes cap) (.ok blob) := by
  have hencode : encodeV2Blob blob = .ok (blob.datumId :: blob.outputs.flatMap outputBytes) := by
    rw [encodeV2Blob, encodeOutputs_of_fits 0 hscripts]
    rfl
  have hlength : 9 ≤ (blob.datumId :: blob.outputs.flatMap outputBytes).length := by
    obtain ⟨output, outputs, houtputs⟩ := List.exists_cons_of_ne_nil hsome
    rw [houtputs, List.flatMap_cons, List.length_cons, List.length_append, outputBytes_length]
    omega
  have hparse : parseV2Blob (blob.datumId :: blob.outputs.flatMap outputBytes) cap =
      .ok blob := by
    rw [parseV2Blob_eq hlength, List.drop_succ_cons, List.drop_zero,
      @parseOutputs_flatMap cap 0 [] blob.outputs hscripts (by simpa using hcount)
        (by simpa using hsum)]
    rfl
  refine ⟨_, hencode, hparse, ?_⟩
  rw [← hparse]
  apply runs_parseV2BlobChecked
  rw [List.drop_succ_cons, List.drop_zero, encodedOutputs_flatMap hscripts, TallyFits,
    Nat.sub_zero, List.take_of_length_le hcount]
  have hcapLt := cap.toNat_lt
  exact .inr (by simpa using Nat.lt_of_le_of_lt hsum hcapLt)

theorem encodeV2Blob_eq_error_iff {blob : CoinbaserBlob} {e : CoinbaserError} :
    encodeV2Blob blob = .error e ↔
      ∃ i output, blob.outputs[i]? = some output ∧ ¬ ScriptFits output ∧
        (∀ earlier ∈ blob.outputs.take i, ScriptFits earlier) ∧
        e = .badScriptLen i (slenByte output) := by
  have hencode : encodeV2Blob blob = .error e ↔ encodeOutputs 0 blob.outputs = .error e := by
    rw [encodeV2Blob]
    cases encodeOutputs 0 blob.outputs with
    | error e' => rfl
    | ok rest => exact iff_of_false nofun nofun
  rw [hencode, encodeOutputs_eq_error_iff]
  simp only [Nat.zero_add]

theorem encodeV2Blob_fails_iff (blob : CoinbaserBlob) :
    (∃ e, encodeV2Blob blob = .error e) ↔ ∃ output ∈ blob.outputs, ¬ ScriptFits output := by
  constructor
  · rintro ⟨e, herror⟩
    obtain ⟨i, output, houtput, hnot, -⟩ := encodeV2Blob_eq_error_iff.mp herror
    exact ⟨output, List.mem_of_getElem? houtput, hnot⟩
  · rintro ⟨output, hmem, hnot⟩
    cases hencode : encodeOutputs 0 blob.outputs with
    | error e =>
        refine ⟨e, ?_⟩
        rw [encodeV2Blob, hencode]
        rfl
    | ok rest => exact absurd (fits_of_encodeOutputs hencode output hmem) hnot

/-- The coinbaser blobs within the limits of the format survive a round trip, and the encoder
refuses exactly the others that have a script of another length. -/
theorem blob_round_trip (blob : CoinbaserBlob) :
    (∀ cap : UInt64, 1 ≤ blob.outputs.length → blob.outputs.length ≤ 512 →
      (∀ output ∈ blob.outputs, ScriptFits output) → outputSum blob.outputs ≤ cap.toNat →
        ∃ bytes, encodeV2Blob blob = .ok bytes ∧ parseV2Blob bytes cap = .ok blob ∧
          Runs (parseV2BlobChecked bytes cap) (.ok blob)) ∧
      ((∃ e, encodeV2Blob blob = .error e) ↔ ∃ output ∈ blob.outputs, ¬ ScriptFits output) ∧
      ∀ e, encodeV2Blob blob = .error e ↔
        ∃ i output, blob.outputs[i]? = some output ∧ ¬ ScriptFits output ∧
          (∀ earlier ∈ blob.outputs.take i, ScriptFits earlier) ∧
          e = .badScriptLen i (slenByte output) := by
  refine ⟨?_, encodeV2Blob_fails_iff blob, fun e => encodeV2Blob_eq_error_iff⟩
  intro cap hsome hcount hscripts hsum
  exact parseV2Blob_of_encode (List.ne_nil_of_length_pos hsome) hcount hscripts hsum

theorem two_outputs_round_trip :
    let quarter : CoinbaseOutput := { valueSats := 2 ^ 62, scriptPubkey := [0x00, 0x01, 0xAA] }
    let blob : CoinbaserBlob := { datumId := 7, outputs := [halfRangeOutput, quarter] }
    ∃ bytes, encodeV2Blob blob = .ok bytes ∧ parseV2Blob bytes (2 ^ 63 + 2 ^ 62) = .ok blob := by
  intro quarter blob
  obtain ⟨bytes, hencode, hparse, -⟩ := (blob_round_trip blob).1 (2 ^ 63 + 2 ^ 62) (by decide)
    (by decide) (by decide) (by decide +kernel)
  exact ⟨bytes, hencode, hparse⟩

end DatumGateway.CoinbaserParses
