import DatumGateway.ByteString

namespace DatumGateway.Coinbaser

open DatumGateway.ByteString

def maxOutputs : ℕ := 512
def minScriptLen : UInt8 := 2
def maxScriptLen : UInt8 := 64

structure CoinbaseOutput where
  valueSats : UInt64
  scriptPubkey : Bytes
  deriving DecidableEq, Repr

structure CoinbaserBlob where
  datumId : UInt8
  outputs : List CoinbaseOutput
  deriving DecidableEq, Repr

inductive CoinbaserError where
  | tooShort (got : ℕ)
  | truncated (idx remaining need : ℕ)
  | badScriptLen (idx : ℕ) (slen : UInt8)
  deriving DecidableEq, Repr

def saturatingAdd (a b : UInt64) : UInt64 :=
  if a.toNat + b.toNat < UInt64.size then a + b else UInt64.ofNat (UInt64.size - 1)

theorem toNat_add_of_lt {a b : UInt64} (hsum : a.toNat + b.toNat < 2 ^ 64) :
    (a + b).toNat = a.toNat + b.toNat := by
  rw [UInt64.toNat_add]
  exact Nat.mod_eq_of_lt hsum

theorem lt_saturatingAdd_iff (cap a b : UInt64) :
    cap < saturatingAdd a b ↔ cap.toNat < min (a.toNat + b.toNat) (2 ^ 64 - 1) := by
  have hsize : UInt64.size = 2 ^ 64 := rfl
  rw [UInt64.lt_iff_toNat_lt, saturatingAdd]
  split_ifs with hroom
  · rw [toNat_add_of_lt hroom]
    omega
  · have hmax : (UInt64.ofNat (UInt64.size - 1)).toNat = 2 ^ 64 - 1 := rfl
    rw [hmax]
    omega

/-- The `while` loop of the parser on the bytes from `idx` on.  The tally is
added up without a check, as in a release build. -/
def parseOutputs (coinbaseValue : UInt64) (rest : Bytes) (tally : UInt64)
    (outputs : List CoinbaseOutput) : Except CoinbaserError (List CoinbaseOutput) :=
  if rest.length = 0 then .ok outputs
  else if rest.length < 9 then .error (.truncated outputs.length rest.length 9)
  else
    let outval := UInt64.ofNat (leValue (rest.take 8))
    let slen := rest.getD 8 0
    let script := rest.drop 9
    if slen < minScriptLen ∨ maxScriptLen < slen then .error (.badScriptLen outputs.length slen)
    else if script.length < slen.toNat then
      .error (.truncated outputs.length script.length slen.toNat)
    else if coinbaseValue < saturatingAdd outval tally then .ok outputs
    else
      let outputs := outputs ++ [{ valueSats := outval, scriptPubkey := script.take slen.toNat }]
      if maxOutputs ≤ outputs.length then .ok outputs
      else parseOutputs coinbaseValue (script.drop slen.toNat) (tally + outval) outputs
termination_by rest.length
decreasing_by
  simp only [List.length_drop]
  omega

def parseV2Blob (blob : Bytes) (coinbaseValue : UInt64) : Except CoinbaserError CoinbaserBlob :=
  if blob.length < 9 then .error (.tooShort blob.length)
  else do
    let outputs ← parseOutputs coinbaseValue (blob.drop 1) 0 []
    return { datumId := blob.getD 0 0, outputs }

def outputSum (outputs : List CoinbaseOutput) : ℕ :=
  (outputs.map fun output => output.valueSats.toNat).sum

/-- What one iteration of a parse that succeeds does: stop with the outputs so
far, or append one output below the cap and stop or go on behind it. -/
theorem parseOutputs_cases {cap : UInt64} {rest : Bytes} {tally : UInt64}
    {outputs parsed : List CoinbaseOutput}
    (hparse : parseOutputs cap rest tally outputs = .ok parsed) :
    parsed = outputs ∨
      ∃ output : CoinbaseOutput, ¬ cap < saturatingAdd output.valueSats tally ∧
        (parsed = outputs ++ [output] ∨
          ∃ rest' : Bytes, rest'.length < rest.length ∧
            parseOutputs cap rest' (tally + output.valueSats) (outputs ++ [output]) =
              .ok parsed) := by
  rw [parseOutputs] at hparse
  split_ifs at hparse with hempty hshort
  · rw [Except.ok.injEq] at hparse
    exact Or.inl hparse.symm
  · dsimp only at hparse
    split_ifs at hparse with hslen hscript hcap hmax
    · rw [Except.ok.injEq] at hparse
      exact Or.inl hparse.symm
    · rw [Except.ok.injEq] at hparse
      exact Or.inr ⟨⟨UInt64.ofNat (leValue (rest.take 8)), _⟩, hcap, Or.inl hparse.symm⟩
    · refine Or.inr ⟨⟨UInt64.ofNat (leValue (rest.take 8)), _⟩, hcap,
        Or.inr ⟨_, ?_, hparse⟩⟩
      simp only [List.length_drop]
      omega

theorem parseOutputs_of_parseV2Blob {cap : UInt64} {v2Blob : Bytes} {blob : CoinbaserBlob}
    (hparse : parseV2Blob v2Blob cap = .ok blob) :
    parseOutputs cap (v2Blob.drop 1) 0 [] = .ok blob.outputs := by
  unfold parseV2Blob at hparse
  split_ifs at hparse with hshort
  cases houtputs : parseOutputs cap (v2Blob.drop 1) 0 [] with
  | error e =>
      rw [houtputs] at hparse
      cases hparse
  | ok parsed =>
      rw [houtputs] at hparse
      obtain rfl := Except.ok.inj hparse
      rfl

theorem scripts_concat_le {outputs : List CoinbaseOutput} {limit : ℕ}
    (hscripts : ∀ output ∈ outputs, output.scriptPubkey.length ≤ limit) {last : CoinbaseOutput}
    (hlast : last.scriptPubkey.length ≤ limit) :
    ∀ output ∈ outputs ++ [last], output.scriptPubkey.length ≤ limit := by
  intro output houtput
  rcases List.mem_append.mp houtput with hearlier | hmem
  · exact hscripts output hearlier
  · rw [List.mem_singleton.mp hmem]
    exact hlast

theorem parseOutputs_bounds {cap : UInt64} {rest : Bytes} {tally : UInt64}
    {outputs parsed : List CoinbaseOutput} (hcount : outputs.length < maxOutputs)
    (hscripts : ∀ output ∈ outputs, output.scriptPubkey.length ≤ maxScriptLen.toNat)
    (hparse : parseOutputs cap rest tally outputs = .ok parsed) :
    parsed.length ≤ maxOutputs ∧
      ∀ output ∈ parsed, output.scriptPubkey.length ≤ maxScriptLen.toNat := by
  fun_induction parseOutputs cap rest tally outputs with
  | case1 =>
      obtain rfl := Except.ok.inj hparse
      exact ⟨hcount.le, hscripts⟩
  | case2 => cases hparse
  | case3 => cases hparse
  | case4 => cases hparse
  | case5 =>
      obtain rfl := Except.ok.inj hparse
      exact ⟨hcount.le, hscripts⟩
  | case6 rest tally outputs hempty hshort outval slen script hslen hscript hcap outputs' hmax =>
      obtain rfl := Except.ok.inj hparse
      rw [not_or, UInt8.not_lt, UInt8.not_lt] at hslen
      refine ⟨?_, scripts_concat_le hscripts ?_⟩
      · rw [List.length_append]
        exact hcount
      · exact (List.length_take_le _ _).trans (UInt8.le_iff_toNat_le.mp hslen.2)
  | case7 rest tally outputs hempty hshort outval slen script hslen hscript hcap outputs' hmax ih =>
      rw [not_or, UInt8.not_lt, UInt8.not_lt] at hslen
      refine ih (Nat.lt_of_not_le hmax) (scripts_concat_le hscripts ?_) hparse
      exact (List.length_take_le _ _).trans (UInt8.le_iff_toNat_le.mp hslen.2)

theorem parseV2Blob_bounds {cap : UInt64} {v2Blob : Bytes} {blob : CoinbaserBlob}
    (hparse : parseV2Blob v2Blob cap = .ok blob) :
    blob.outputs.length ≤ maxOutputs ∧
      ∀ output ∈ blob.outputs, output.scriptPubkey.length ≤ maxScriptLen.toNat := by
  refine parseOutputs_bounds ?_ ?_ (parseOutputs_of_parseV2Blob hparse)
  · exact Nat.zero_lt_succ 511
  · intro output houtput
    cases houtput

end DatumGateway.Coinbaser
