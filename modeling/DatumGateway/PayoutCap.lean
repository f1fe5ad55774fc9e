import DatumGateway.TemplatePublisher

/-!
What the published outputs pay against what the block allows.  The parser caps
the outputs by the value that the pool states, so the cap carries over to the
templates that are worth no less.
-/

namespace DatumGateway.PayoutCap

open DatumGateway.ByteString
open DatumGateway.BlockTemplate
open DatumGateway.Coinbaser
open DatumGateway.ConfigValidation
open DatumGateway.SharedTemplate
open DatumGateway.TemplatePublisher
open DatumGateway.TransitionSystem

@[simp] theorem outputSum_append (as bs : List CoinbaseOutput) :
    outputSum (as ++ bs) = outputSum as + outputSum bs := by
  simp [outputSum]

theorem parseOutputs_sum_le {cap : UInt64} (hcap : cap.toNat + 1 < UInt64.size) (n : ℕ) :
    ∀ (rest : Bytes) (tally : UInt64) (outputs parsed : List CoinbaseOutput), rest.length = n →
      outputSum outputs = tally.toNat → tally.toNat ≤ cap.toNat →
      parseOutputs cap rest tally outputs = .ok parsed → outputSum parsed ≤ cap.toNat := by
  induction n using Nat.strong_induction_on with
  | _ n ih =>
      intro rest tally outputs parsed hlen htally hle hparse
      rcases parseOutputs_cases hparse with rfl | ⟨output, hfits, hend⟩
      · rwa [htally]
      · have hsize : UInt64.size = 2 ^ 64 := rfl
        rw [lt_saturatingAdd_iff] at hfits
        have hadd : (tally + output.valueSats).toNat = tally.toNat + output.valueSats.toNat :=
          toNat_add_of_lt (by omega)
        have hsum : outputSum (outputs ++ [output]) = (tally + output.valueSats).toNat := by
          rw [outputSum_append, htally, hadd]
          simp [outputSum]
        have hnext : (tally + output.valueSats).toNat ≤ cap.toNat := by
          rw [hadd]
          omega
        rcases hend with rfl | ⟨rest', hshorter, hgoOn⟩
        · rwa [hsum]
        · exact ih rest'.length (by omega) rest' _ _ parsed rfl hsum hnext hgoOn

theorem parseV2Blob_sum_le {cap : UInt64} (hcap : cap.toNat + 1 < UInt64.size) {v2Blob : Bytes}
    {blob : CoinbaserBlob} (hparse : parseV2Blob v2Blob cap = .ok blob) :
    outputSum blob.outputs ≤ cap.toNat := by
  refine parseOutputs_sum_le hcap _ _ 0 [] blob.outputs rfl ?_ ?_
    (parseOutputs_of_parseV2Blob hparse)
  · simp [outputSum]
  · simp

def singleOutputBlob (value : UInt64) : Bytes := [0] ++ leBytes 8 value.toNat ++ [2, 0x51, 0x51]

theorem parseV2Blob_singleOutputBlob {cap value : UInt64} (hvalue : value ≤ cap) :
    parseV2Blob (singleOutputBlob value) cap =
      .ok { datumId := 0, outputs := [{ valueSats := value, scriptPubkey := [0x51, 0x51] }] } := by
  have hlen : (singleOutputBlob value).length = 12 := by simp [singleOutputBlob]
  have hread : UInt64.ofNat (leValue (leBytes 8 value.toNat)) = value := by
    rw [leValue_leBytes_of_lt value.toNat_lt, UInt64.ofNat_toNat]
  have hcap : ¬ cap < saturatingAdd value 0 := by
    have hzero : saturatingAdd value 0 = value := by
      simp [saturatingAdd, value.toNat_lt_size]
    rw [hzero]
    exact UInt64.not_lt.mpr hvalue
  have hloop : parseOutputs cap (leBytes 8 value.toNat ++ [2, 0x51, 0x51]) 0 [] =
      .ok [{ valueSats := value, scriptPubkey := [0x51, 0x51] }] := by
    have htake : (leBytes 8 value.toNat ++ [2, 0x51, 0x51]).take 8 = leBytes 8 value.toNat :=
      List.take_left' (by simp)
    have hdrop : (leBytes 8 value.toNat ++ [2, 0x51, 0x51]).drop 9 = [0x51, 0x51] := by
      rw [show 9 = (leBytes 8 value.toNat).length + 1 by simp, List.drop_append]
      simp
    have hslen : (leBytes 8 value.toNat ++ [2, 0x51, 0x51]).getD 8 0 = 2 := by
      rw [List.getD_append_right _ _ _ _ (by simp)]
      simp
    rw [parseOutputs]
    simp only [htake, hdrop, hslen, hread, if_neg hcap]
    rw [parseOutputs]
    simp [minScriptLen, maxScriptLen, maxOutputs]
  rw [parseV2Blob, hlen, if_neg (by decide)]
  simp [singleOutputBlob, hloop, Bind.bind, Except.bind, Pure.pure, Except.pure]

theorem parsed_sums_le_iff {cap value : UInt64} (hcap : cap.toNat + 1 < UInt64.size) :
    (∀ v2Blob blob, parseV2Blob v2Blob cap = .ok blob →
      outputSum blob.outputs ≤ value.toNat) ↔ cap ≤ value := by
  constructor
  · intro hsums
    have hsum := hsums _ _ (parseV2Blob_singleOutputBlob (UInt64.le_refl cap))
    simpa [outputSum, UInt64.le_iff_toNat_le] using hsum
  · intro hle v2Blob blob hparse
    exact (parseV2Blob_sum_le hcap hparse).trans (UInt64.le_iff_toNat_le.mp hle)

/-- A template is paired only with a blob that the pool stated for no more than
the template's value, and for less than the largest value. -/
def pairsBelowValue (s : PublisherState) (a : PublisherAction) : Bool :=
  match a, s.phase, s.coinbaser with
  | .readCoinbaser, .haveTemplate template, some (statedValue, _) =>
      statedValue.toNat ≤ template.coinbaseValue.toNat && statedValue.toNat + 1 < UInt64.size
  | _, _, _ => true

def PaysAtMost (state : TemplateState) : Prop :=
  outputSum state.coinbaseOutputs ≤ state.coinbaseValue.toNat

structure CapInvariant (s : PublisherState) : Prop where
  stated : ∀ statedValue blob, s.coinbaser = some (statedValue, blob) →
    statedValue.toNat + 1 < UInt64.size → outputSum blob.outputs ≤ statedValue.toNat
  paired : ∀ template statedValue blob, s.phase = .haveBoth template statedValue blob →
    outputSum blob.outputs ≤ template.coinbaseValue.toNat
  published : ∀ state, s.published = some state → PaysAtMost state

theorem CapInvariant.step {sha256d : Bytes → Bytes32} {mining : MiningConfig}
    {s t : PublisherState} {a : PublisherAction} (hinv : CapInvariant s)
    (hguard : pairsBelowValue s a) (hstep : publisherStep sha256d mining s a = some t) :
    CapInvariant t := by
  obtain ⟨hstated, hpaired, hpublished⟩ := hinv
  cases publisherStep_cases hstep with
  | coinbaserResponse coinbaseValue v2Blob blob hparse =>
      refine ⟨?_, hpaired, hpublished⟩
      rintro statedValue blob' hcoinbaser hsmall
      obtain ⟨rfl, rfl⟩ := Prod.mk.inj (Option.some.inj hcoinbaser)
      exact parseV2Blob_sum_le hsmall hparse
  | bitcoindTemplate | coinbaserRefused | clientConfig | upstreamReconnect =>
      exact ⟨hstated, hpaired, hpublished⟩
  | wakeTemplate | wakeCoinbaser | readTemplate | noTemplate | noCoinbaser =>
      exact ⟨hstated, by simp, hpublished⟩
  | readCoinbaser template statedValue blob hphase hcoinbaser =>
      simp only [pairsBelowValue, hphase, hcoinbaser, Bool.and_eq_true,
        decide_eq_true_eq] at hguard
      obtain ⟨hle, hsmall⟩ := hguard
      refine ⟨hstated, ?_, hpublished⟩
      rintro template' statedValue' blob' hboth
      obtain ⟨rfl, rfl, rfl⟩ := PublisherPhase.haveBoth.inj hboth
      exact (hstated _ _ hcoinbaser hsmall).trans hle
  | publish template statedValue blob hphase =>
      refine ⟨hstated, by simp, ?_⟩
      rintro state hstate
      obtain rfl := Option.some.inj hstate
      exact hpaired _ _ _ hphase

/-- In every run that pairs each template with a blob stated for no more than its
value, no published state pays more than its block allows. -/
theorem published_pays_at_most (sha256d : Bytes → Bytes32) (mining : MiningConfig)
    (s : PublisherState)
    (hreaches : Reaches (publisherStep sha256d mining) (fun s a => pairsBelowValue s a) {} s) :
    ∀ state, s.published = some state → PaysAtMost state := by
  have hinv : CapInvariant s :=
    hreaches.invariant ⟨by simp, by simp, by simp⟩ fun _ _ _ hinv hguard hstep =>
      hinv.step hguard hstep
  exact hinv.published

def publishTemplate (value : UInt64) : List PublisherAction :=
  [.bitcoindTemplate { emptyTemplate with coinbaseValue := value },
    .wake, .readTemplate, .readCoinbaser, .publish]

theorem published_hundred_sats_pays_at_most :
    ∃ s : PublisherState, s.published.isSome ∧
      ∀ state, s.published = some state → PaysAtMost state := by
  obtain ⟨s, hreaches, hpublished⟩ := exists_reaches_of_runGuarded
    (publisherStep (fun _ => ByteVec.fill 32 0) {}) pairsBelowValue {}
    (.coinbaserResponse 100 (singleOutputBlob 100) :: publishTemplate 100)
    (fun s => s.published.isSome) (by decide +kernel)
  exact ⟨s, hpublished, published_pays_at_most _ _ s hreaches⟩

/-- The same blob, paired with a later template that is worth half as much. -/
theorem stale_hundred_sats_pays_too_much :
    ∃ s, Reachable (publisherStep (fun _ => ByteVec.fill 32 0) {}) {} s ∧
      ∃ state, s.published = some state ∧ ¬ PaysAtMost state := by
  obtain ⟨s, hreachable, hover⟩ := exists_reachable_of_runActions
    (publisherStep (fun _ => ByteVec.fill 32 0) {}) {}
    (.coinbaserResponse 100 (singleOutputBlob 100) :: (publishTemplate 100 ++ publishTemplate 50))
    (fun s => s.published.any fun state =>
      state.coinbaseValue.toNat < outputSum state.coinbaseOutputs) (by decide +kernel)
  obtain ⟨state, hstate, hsum⟩ := (Option.any_eq_true _ _).mp hover
  exact ⟨s, hreachable, state, hstate, not_le.mpr (of_decide_eq_true hsum)⟩

end DatumGateway.PayoutCap
