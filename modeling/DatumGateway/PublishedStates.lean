import DatumGateway.PayoutCap
import DatumGateway.ScriptSigBudget
import DatumGateway.TemplatePublisher
import DatumGateway.TransitionSystem

namespace DatumGateway.PublishedStates

open DatumGateway.BlockTemplate
open DatumGateway.ByteReader
open DatumGateway.ByteString
open DatumGateway.Coinbaser
open DatumGateway.CoinbaseSplit
open DatumGateway.CoinbaseTransaction
open DatumGateway.ConfigValidation
open DatumGateway.PayoutCap
open DatumGateway.ScriptSigBudget
open DatumGateway.SharedTemplate
open DatumGateway.TemplatePublisher
open DatumGateway.TransitionSystem
open DatumGateway.Utf8Text

/-- The publisher with all that it has published, the first state first. -/
structure PublisherRun where
  state : PublisherState := {}
  publications : List TemplateState := []

/-- The two bytes before the extranonce. -/
def enprefixBytes (state : TemplateState) : Bytes :=
  state.coinb1.drop (state.coinb1.length - enprefixLen)

/-- The tags of the configuration fit in memory. -/
def TagsFit (mining : MiningConfig) : Prop :=
  (utf8Bytes mining.coinbaseTagPrimary).length + (utf8Bytes mining.coinbaseTagSecondary).length <
    2 ^ 63

instance (mining : MiningConfig) : Decidable (TagsFit mining) :=
  inferInstanceAs (Decidable (_ < _))

section Runs

variable (sha256d : Bytes → Bytes32) (mining : MiningConfig)

def runStep (r : PublisherRun) (a : PublisherAction) : Option PublisherRun :=
  (publisherStep sha256d mining r.state a).map fun state =>
    { state
      publications :=
        match a with
        | .publish => r.publications ++ state.published.toList
        | _ => r.publications }

/-- The state of the task at the end of the iteration that it is in, if nothing else happens; the
iteration has no await. -/
def finish (s : PublisherState) : PublisherState :=
  [.readTemplate, .readCoinbaser, .publish].foldl
    (fun s a => (publisherStep sha256d mining s a).getD s) s

def BuiltFrom (template : Template) (blob : CoinbaserBlob) (state : TemplateState) : Prop :=
  ∃ poolOverride enprefixCounter seed, state = fromTemplateAndBlob sha256d template blob
    (publisherScriptSig mining poolOverride enprefixCounter) seed

/-- With a value on both channels and nothing unseen on either, the last state, once the iteration
is over, is of the latest template and the latest blob. -/
def LatestPublished (s : PublisherState) : Prop :=
  s.templateUnseen = false → s.coinbaserUnseen = false →
    ∀ template statedValue blob, s.template = some template →
      s.coinbaser = some (statedValue, blob) →
        ∃ state, (finish sha256d mining s).published = some state ∧
          BuiltFrom sha256d mining template blob state

end Runs

variable {sha256d : Bytes → Bytes32} {mining : MiningConfig}

/-! The latest template and the latest blob. -/

/-- What the task works with is the latest, unless it has something to see on the channel. -/
structure UpToDate (sha256d : Bytes → Bytes32) (mining : MiningConfig) (s : PublisherState) :
    Prop where
  waiting : s.phase = .waiting → s.templateUnseen = false → s.coinbaserUnseen = false →
    ∀ template statedValue blob, s.template = some template →
      s.coinbaser = some (statedValue, blob) →
        ∃ state, s.published = some state ∧ BuiltFrom sha256d mining template blob state
  haveTemplate : ∀ template, s.phase = .haveTemplate template → s.templateUnseen = false →
    s.template = some template
  haveBoth : ∀ template statedValue blob, s.phase = .haveBoth template statedValue blob →
    (s.templateUnseen = false → s.template = some template) ∧
      (s.coinbaserUnseen = false → s.coinbaser = some (statedValue, blob))

theorem UpToDate.step {s t : PublisherState} {a : PublisherAction}
    (hinv : UpToDate sha256d mining s) (hstep : PublisherStep sha256d mining s a t) :
    UpToDate sha256d mining t := by
  obtain ⟨hwaiting, htemplate, hboth⟩ := hinv
  cases hstep with
  | bitcoindTemplate template =>
      refine ⟨(fun _ hseen => nomatch hseen), (fun _ _ hseen => nomatch hseen), ?_⟩
      intro template' statedValue blob hphase
      exact ⟨(fun hseen => nomatch hseen), (hboth template' statedValue blob hphase).2⟩
  | coinbaserResponse coinbaseValue v2Blob blob _ =>
      refine ⟨(fun _ _ hseen => nomatch hseen), htemplate, ?_⟩
      intro template statedValue blob' hphase
      exact ⟨(hboth template statedValue blob' hphase).1, (fun hseen => nomatch hseen)⟩
  | coinbaserRefused | clientConfig | upstreamReconnect => exact ⟨hwaiting, htemplate, hboth⟩
  | wakeTemplate | wakeCoinbaser =>
      exact ⟨(fun h => nomatch h), (fun _ h => nomatch h), (fun _ _ _ h => nomatch h)⟩
  | readTemplate template hphase hlatest =>
      refine ⟨(fun h => nomatch h), ?_, (fun _ _ _ h => nomatch h)⟩
      intro template' hphase' _
      obtain rfl := PublisherPhase.haveTemplate.inj hphase'
      exact hlatest
  | noTemplate hphase hnone =>
      refine ⟨?_, (fun _ h => nomatch h), (fun _ _ _ h => nomatch h)⟩
      intro _ _ _ template statedValue blob hsome
      rw [hnone] at hsome
      cases hsome
  | readCoinbaser template statedValue blob hphase hlatest =>
      refine ⟨(fun h => nomatch h), (fun _ h => nomatch h), ?_⟩
      intro template' statedValue' blob' hphase'
      obtain ⟨rfl, rfl, rfl⟩ := PublisherPhase.haveBoth.inj hphase'
      exact ⟨htemplate template hphase, fun _ => hlatest⟩
  | noCoinbaser template hphase hnone =>
      refine ⟨?_, (fun _ h => nomatch h), (fun _ _ _ h => nomatch h)⟩
      intro _ _ _ template statedValue blob _ hsome
      rw [hnone] at hsome
      cases hsome
  | publish template statedValue blob hphase =>
      refine ⟨?_, (fun _ h => nomatch h), (fun _ _ _ h => nomatch h)⟩
      intro _ hseen hseen' template' statedValue' blob' hlatest hlatest'
      obtain ⟨hbothTemplate, hbothBlob⟩ := hboth template statedValue blob hphase
      obtain rfl := Option.some.inj ((hbothTemplate hseen).symm.trans hlatest)
      obtain ⟨rfl, rfl⟩ := Prod.mk.inj (Option.some.inj ((hbothBlob hseen').symm.trans hlatest'))
      exact ⟨_, rfl, _, _, _, rfl⟩

theorem finish_of_waiting {s : PublisherState} (hphase : s.phase = .waiting) :
    finish sha256d mining s = s := by
  simp [finish, publisherStep, hphase]

theorem UpToDate.latestPublished {s : PublisherState} (hinv : UpToDate sha256d mining s) :
    LatestPublished sha256d mining s := by
  intro hseen hseen' template statedValue blob htemplate hcoinbaser
  cases hphase : s.phase with
  | waiting =>
      rw [finish_of_waiting hphase]
      exact hinv.waiting hphase hseen hseen' template statedValue blob htemplate hcoinbaser
  | woken =>
      simp [finish, publisherStep, hphase, htemplate, hcoinbaser]
      exact ⟨_, _, _, rfl⟩
  | haveTemplate template' =>
      obtain rfl :=
        Option.some.inj ((hinv.haveTemplate template' hphase hseen).symm.trans htemplate)
      simp [finish, publisherStep, hphase, hcoinbaser]
      exact ⟨_, _, _, rfl⟩
  | haveBoth template' statedValue' blob' =>
      obtain ⟨hlatest, hlatest'⟩ := hinv.haveBoth template' statedValue' blob' hphase
      obtain rfl := Option.some.inj ((hlatest hseen).symm.trans htemplate)
      obtain ⟨rfl, rfl⟩ := Prod.mk.inj
        (Option.some.inj ((hlatest' hseen').symm.trans hcoinbaser))
      simp [finish, publisherStep, hphase]
      exact ⟨_, _, _, rfl⟩

/-! The numbers of the publications. -/

/-- The `k`-th publication has the seed and the enprefix counter `k`. -/
structure Numbered (sha256d : Bytes → Bytes32) (mining : MiningConfig) (r : PublisherRun) :
    Prop where
  seed : r.state.seed = UInt64.ofNat r.publications.length
  enprefixCounter : r.state.enprefixCounter = UInt16.ofNat r.publications.length
  poolTag : ∃ poolTag : Option Bytes, r.state.poolCoinbaseTag = poolTag.map poolTagOverride
  publications : ∀ (k : ℕ) state, r.publications[k]? = some state →
    ∃ template blob, ∃ poolTag : Option Bytes,
      state = fromTemplateAndBlob sha256d template blob
        (publisherScriptSig mining (poolTag.map poolTagOverride) (UInt16.ofNat k)) (UInt64.ofNat k)

theorem Numbered.of_state {r : PublisherRun} (hinv : Numbered sha256d mining r)
    {state : PublisherState} (hseed : state.seed = r.state.seed)
    (hcounter : state.enprefixCounter = r.state.enprefixCounter)
    (hpoolTag : state.poolCoinbaseTag = r.state.poolCoinbaseTag) :
    Numbered sha256d mining { r with state } := by
  constructor
  · rw [hseed]
    exact hinv.seed
  · rw [hcounter]
    exact hinv.enprefixCounter
  · rw [hpoolTag]
    exact hinv.poolTag
  · exact hinv.publications

theorem Numbered.step {r r' : PublisherRun} {a : PublisherAction}
    (hinv : Numbered sha256d mining r) (hstep : runStep sha256d mining r a = some r') :
    Numbered sha256d mining r' := by
  obtain ⟨t, ht, rfl⟩ := Option.map_eq_some_iff.mp hstep
  cases publisherStep_cases ht with
  | clientConfig poolCoinbaseTag =>
      exact ⟨hinv.seed, hinv.enprefixCounter, ⟨some poolCoinbaseTag, rfl⟩, hinv.publications⟩
  | upstreamReconnect =>
      exact ⟨hinv.seed, hinv.enprefixCounter, ⟨none, rfl⟩, hinv.publications⟩
  | publish template statedValue blob hphase =>
      have hlength : ∀ state : TemplateState,
          (r.publications ++ [state]).length = r.publications.length + 1 := fun _ =>
        List.length_append
      constructor
      · simp only [Option.toList_some, hlength, hinv.seed, UInt64.ofNat_add]
        rfl
      · simp only [Option.toList_some, hlength, hinv.enprefixCounter, UInt16.ofNat_add]
        rfl
      · exact hinv.poolTag
      · intro k state hk
        rcases Nat.lt_or_ge k r.publications.length with hlt | hge
        · rw [Option.toList_some, List.getElem?_append_left hlt] at hk
          exact hinv.publications k state hk
        · rw [Option.toList_some, List.getElem?_append_right hge,
            List.getElem?_singleton] at hk
          obtain ⟨hk, hstate⟩ := Option.ite_none_right_eq_some.mp hk
          obtain rfl : k = r.publications.length := by omega
          obtain ⟨poolTag, hpoolTag⟩ := hinv.poolTag
          refine ⟨template, blob, poolTag, ?_⟩
          rw [← hpoolTag, ← hinv.enprefixCounter, ← hinv.seed]
          exact (Option.some.inj hstate).symm
  | _ => exact hinv.of_state rfl rfl rfl

theorem Numbered.nodup_seeds {r : PublisherRun} (hinv : Numbered sha256d mining r)
    (hfew : r.publications.length ≤ 2 ^ 64) :
    (r.publications.map TemplateState.jobIdSeed).Nodup := by
  have hseeds : r.publications.map TemplateState.jobIdSeed =
      (List.range r.publications.length).map UInt64.ofNat := by
    apply List.ext_getElem?
    intro k
    rw [List.getElem?_map, List.getElem?_map]
    cases hk : r.publications[k]? with
    | none =>
        rw [List.getElem?_eq_none_iff] at hk
        rw [List.getElem?_eq_none (by simpa using hk)]
        rfl
    | some state =>
        obtain ⟨hlt, -⟩ := List.getElem?_eq_some_iff.mp hk
        obtain ⟨_, _, _, rfl⟩ := hinv.publications k state hk
        rw [List.getElem?_range hlt]
        rfl
  rw [hseeds]
  refine List.Nodup.map_on ?_ List.nodup_range
  intro m hm n hn heq
  have hvalue := congrArg UInt64.toNat heq
  rwa [UInt64.toNat_ofNat_of_lt' ((List.mem_range.mp hm).trans_le hfew),
    UInt64.toNat_ofNat_of_lt' ((List.mem_range.mp hn).trans_le hfew)] at hvalue

/-! The coinbases of two publications. -/

theorem drop_append_end (front : Bytes) {back : Bytes} {n : ℕ} (hlength : back.length = n) :
    (front ++ back).drop ((front ++ back).length - n) = back := by
  rw [List.length_append, hlength, Nat.add_sub_cancel, List.drop_left]

theorem enprefixBytes_fromTemplateAndBlob (sha256d : Bytes → Bytes32) (template : Template)
    (blob : CoinbaserBlob) (scriptsig : ScriptSigInputs) (seed : UInt64) :
    enprefixBytes (fromTemplateAndBlob sha256d template blob scriptsig seed) =
      leBytes 2 scriptsig.enprefix.toNat := by
  rw [enprefixBytes, coinb1_fromTemplateAndBlob, scriptHead, ← List.append_assoc]
  exact drop_append_end _ (length_leBytes 2 _)

theorem leBytes_enprefix_injective {m n : UInt16}
    (heq : leBytes 2 (m ^^^ 0xB10C).toNat = leBytes 2 (n ^^^ 0xB10C).toNat) : m = n := by
  have hvalue := congrArg leValue heq
  rw [leValue_leBytes_of_lt (UInt16.toNat_lt _),
    leValue_leBytes_of_lt (UInt16.toNat_lt _)] at hvalue
  have hxor := UInt16.toNat_inj.mp hvalue
  calc
    m = m ^^^ 0xB10C ^^^ 0xB10C := by rw [UInt16.xor_assoc, UInt16.xor_self, UInt16.xor_zero]
    _ = n ^^^ 0xB10C ^^^ 0xB10C := by rw [hxor]
    _ = n := by rw [UInt16.xor_assoc, UInt16.xor_self, UInt16.xor_zero]

theorem ofNat_ne_of_near {i j : ℕ} (hlt : i < j) (hnear : j < i + 65536) :
    UInt16.ofNat i ≠ UInt16.ofNat j := by
  intro heq
  have hvalue := congrArg UInt16.toNat heq
  simp only [UInt16.toNat_ofNat'] at hvalue
  omega

/-- The script length that both coinbases state tells where their first halves end. -/
theorem inputHead_append_inj {m n : ℕ} (hm : m < 2 ^ 64) (hn : n < 2 ^ 64)
    {head head' rest rest' : Bytes} (hlength : head.length + 12 = m)
    (hlength' : head'.length + 12 = n)
    (heq : inputHead m ++ head ++ rest = inputHead n ++ head' ++ rest') : head = head' := by
  have hdrop : ∀ (k : ℕ) (bs : Bytes), (inputHead k ++ bs).drop 41 = compactSize k ++ bs := by
    intro k bs
    rw [inputHead, List.append_assoc]
    exact List.drop_left' (by simp)
  have hafter := congrArg (List.drop 41) heq
  rw [List.append_assoc, List.append_assoc, hdrop, hdrop] at hafter
  have hread := congrArg readCompactSize.run hafter
  rw [reads_readCompactSize hm, reads_readCompactSize hn] at hread
  obtain ⟨rfl, hscripts⟩ := Prod.mk.inj (Option.some.inj hread)
  exact (List.append_inj hscripts (by omega)).1

theorem potOffset_publisherScriptSig_lt (htags : TagsFit mining) (height : UInt32)
    (poolTag : Option Bytes) (enprefixCounter : UInt16) :
    potOffset height
        (publisherScriptSig mining (poolTag.map poolTagOverride) enprefixCounter) + 18 <
      2 ^ 64 := by
  let scriptsig := publisherScriptSig mining (poolTag.map poolTagOverride) enprefixCounter
  have hheight := length_bip34HeightScript_le height
  have hblock := length_buildTagPushBlock_le scriptsig.coinbaseTagPrimary
    scriptsig.coinbaseTagSecondary
  have hprimary : (utf8Bytes scriptsig.coinbaseTagPrimary).length ≤
      (utf8Bytes mining.coinbaseTagPrimary).length + 344 := by
    cases poolTag with
    | none => exact Nat.le_add_right _ _
    | some tag => exact (utf8Bytes_override_le tag).trans (Nat.le_add_left _ _)
  rw [TagsFit] at htags
  change potOffset height scriptsig + 18 < 2 ^ 64
  change (buildTagPushBlock _ _).length ≤ (utf8Bytes scriptsig.coinbaseTagPrimary).length +
    (utf8Bytes mining.coinbaseTagSecondary).length + 4 at hblock
  rw [potOffset]
  omega

theorem Numbered.coinbases_differ (htags : TagsFit mining) {r : PublisherRun}
    (hinv : Numbered sha256d mining r) {i j : ℕ} (hlt : i < j) (hnear : j < i + 65536)
    {p q : TemplateState} (hp : r.publications[i]? = some p) (hq : r.publications[j]? = some q) :
    enprefixBytes p ≠ enprefixBytes q ∧ ∀ x y : Bytes, x.length = 12 → y.length = 12 →
      p.coinb1 ++ x ++ p.coinb2 ≠ q.coinb1 ++ y ++ q.coinb2 := by
  obtain ⟨template, blob, poolTag, rfl⟩ := hinv.publications i p hp
  obtain ⟨template', blob', poolTag', rfl⟩ := hinv.publications j q hq
  have hne : ¬ leBytes 2 (UInt16.ofNat i ^^^ 0xB10C).toNat =
      leBytes 2 (UInt16.ofNat j ^^^ 0xB10C).toNat := fun heq =>
    ofNat_ne_of_near hlt hnear (leBytes_enprefix_injective heq)
  refine ⟨?_, ?_⟩
  · rw [enprefixBytes_fromTemplateAndBlob, enprefixBytes_fromTemplateAndBlob]
    exact hne
  · intro x y hx hy heq
    rw [coinb1_fromTemplateAndBlob, coinb1_fromTemplateAndBlob, List.append_assoc,
      List.append_assoc (_ ++ _)] at heq
    have hheads := inputHead_append_inj
      (potOffset_publisherScriptSig_lt htags template.height poolTag (UInt16.ofNat i))
      (potOffset_publisherScriptSig_lt htags template'.height poolTag' (UInt16.ofNat j))
      (by rw [length_scriptHead]) (by rw [length_scriptHead]) heq
    have hends := congrArg (fun head : Bytes => head.drop (head.length - 2)) hheads
    have hend : ∀ (height : UInt32) (scriptsig : ScriptSigInputs) (pot : UInt8),
        (scriptHead height scriptsig pot).drop ((scriptHead height scriptsig pot).length - 2) =
          leBytes 2 scriptsig.enprefix.toNat := by
      intro height scriptsig pot
      exact drop_append_end _ (length_leBytes 2 _)
    simp only [hend] at hends
    exact hne hends

/-- In every run the latest template and blob are published, no seed comes twice, and the coinbases
of publications less than 65536 apart differ whatever extranonces they get. -/
theorem publications_lose_no_update (sha256d : Bytes → Bytes32) (mining : MiningConfig)
    (htags : TagsFit mining) (r : PublisherRun)
    (hreachable : Reachable (runStep sha256d mining) {} r) :
    LatestPublished sha256d mining r.state ∧
      (r.publications.length < 2 ^ 64 → (r.publications.map TemplateState.jobIdSeed).Nodup) ∧
      ∀ (i j : ℕ) p q, i < j → j < i + 65536 → r.publications[i]? = some p →
        r.publications[j]? = some q →
          enprefixBytes p ≠ enprefixBytes q ∧ ∀ x y : Bytes, x.length = 12 → y.length = 12 →
            p.coinb1 ++ x ++ p.coinb2 ≠ q.coinb1 ++ y ++ q.coinb2 := by
  have hnumbered : Numbered sha256d mining r :=
    hreachable.invariant ⟨rfl, rfl, ⟨none, rfl⟩, fun _ _ h => nomatch h⟩
      fun _ _ _ hinv hstep => hinv.step hstep
  have hupToDate : UpToDate sha256d mining r.state := by
    have hstart : UpToDate sha256d mining ({} : PublisherRun).state := by
      refine ⟨?_, (fun _ h => nomatch h), fun _ _ _ h => nomatch h⟩
      intro _ _ _ template _ _ hnone
      cases hnone
    have hkeep : ∀ (r : PublisherRun) a r', UpToDate sha256d mining r.state →
        runStep sha256d mining r a = some r' → UpToDate sha256d mining r'.state := by
      intro r a r' hinv hstep
      obtain ⟨t, ht, rfl⟩ := Option.map_eq_some_iff.mp hstep
      exact hinv.step (publisherStep_cases ht)
    exact hreachable.invariant hstart hkeep
  refine ⟨hupToDate.latestPublished, fun hfew => hnumbered.nodup_seeds hfew.le, ?_⟩
  intro i j p q hlt hnear hp hq
  exact hnumbered.coinbases_differ htags hlt hnear hp hq

theorem two_publications_lose_no_update :
    ∃ r, Reachable (runStep (fun _ => ByteVec.fill 32 0) {}) {} r ∧ r.publications.length = 2 ∧
      LatestPublished (fun _ => ByteVec.fill 32 0) {} r.state ∧
      (r.publications.length < 2 ^ 64 → (r.publications.map TemplateState.jobIdSeed).Nodup) ∧
      ∀ (i j : ℕ) p q, i < j → j < i + 65536 → r.publications[i]? = some p →
        r.publications[j]? = some q →
          enprefixBytes p ≠ enprefixBytes q ∧ ∀ x y : Bytes, x.length = 12 → y.length = 12 →
            p.coinb1 ++ x ++ p.coinb2 ≠ q.coinb1 ++ y ++ q.coinb2 := by
  obtain ⟨r, hreachable, htwo⟩ := exists_reachable_of_runActions
    (runStep (fun _ => ByteVec.fill 32 0) {}) {}
    [.coinbaserResponse 100 (singleOutputBlob 100), .bitcoindTemplate emptyTemplate, .wake,
      .readTemplate, .coinbaserResponse 90 (singleOutputBlob 90), .readCoinbaser, .publish,
      .wake, .readTemplate, .readCoinbaser, .publish]
    (fun r => decide (r.publications.length = 2)) (by decide +kernel)
  exact ⟨r, hreachable, of_decide_eq_true htwo,
    publications_lose_no_update _ {} (by decide +kernel) r hreachable⟩

end DatumGateway.PublishedStates
