import DatumGateway.PoolOverrides
import DatumGateway.PublishedStates

namespace DatumGateway.GatewayTemplates

open DatumGateway.AuthenticatedEvents
open DatumGateway.BlockTemplate
open DatumGateway.ByteString
open DatumGateway.Coinbaser
open DatumGateway.CoinbaseSplit
open DatumGateway.ConfigValidation
open DatumGateway.PoolOverrides
open DatumGateway.PublishedStates
open DatumGateway.SharedTemplate
open DatumGateway.TemplatePublisher
open DatumGateway.TransitionSystem
open DatumGateway.UpstreamMessages
open DatumGateway.UpstreamSession
open DatumGateway.Utf8Text

structure Gateway where
  upstream : UpstreamTask := {}
  publisher : PublisherRun := {}

/-- The turns that the publisher task takes by itself. -/
inductive PublisherTurn where
  | wake
  | readTemplate
  | readCoinbaser
  | publish

def PublisherTurn.action : PublisherTurn → PublisherAction
  | .wake => .wake
  | .readTemplate => .readTemplate
  | .readCoinbaser => .readCoinbaser
  | .publish => .publish

/-- What the publisher finds on its channels after the action. -/
def feed : UpstreamAction → Option PublisherAction
  | .template template => some (.bitcoindTemplate template)
  | .event (.coinbaser response) =>
      some (.coinbaserResponse response.coinbaseValue response.v2Blob)
  | .event (.clientConfig config) => some (.clientConfig config.poolCoinbaseTag)
  | .streamClosed => some .upstreamReconnect
  | _ => none

inductive GatewayAction where
  | upstream (a : UpstreamAction)
  | publisher (turn : PublisherTurn)

section Steps

variable (sha256d : Bytes → Bytes32) (mining : MiningConfig)

def feedStep (r : PublisherRun) (a : UpstreamAction) : Option PublisherRun :=
  match feed a with
  | some p => runStep sha256d mining r p
  | none => some r

def gatewayStep (g : Gateway) : GatewayAction → Option Gateway
  | .upstream a => do
      let upstream ← upstreamStep g.upstream a
      let publisher ← feedStep sha256d mining g.publisher a
      some { upstream, publisher }
  | .publisher turn =>
      (runStep sha256d mining g.publisher turn.action).map fun publisher => { g with publisher }

/-- The blob came in a coinbaser of the pool, on whatever connection. -/
def FromPool (events : List UpstreamEvent) (blob : CoinbaserBlob) : Prop :=
  ∃ e ∈ events, coinbaserBlob? e = some blob

def PhaseFed (s : UpstreamTask) : PublisherPhase → Prop
  | .waiting => True
  | .woken => True
  | .haveTemplate template => template ∈ s.templates
  | .haveBoth template _ blob => template ∈ s.templates ∧ FromPool (allEvents s) blob

/-- The publisher works with what has come from bitcoind and from the pool. -/
structure Fed (s : UpstreamTask) (p : PublisherState) : Prop where
  template : ∀ template, p.template = some template → template ∈ s.templates
  coinbaser : ∀ statedValue blob, p.coinbaser = some (statedValue, blob) →
    FromPool (allEvents s) blob
  tag : p.poolCoinbaseTag = s.poolCoinbaseTag
  phase : PhaseFed s p.phase

structure Coherent (g : Gateway) : Prop where
  overrides : Overrides g.upstream
  fed : Fed g.upstream g.publisher.state
  upToDate : UpToDate sha256d mining g.publisher.state
  numbered : Numbered sha256d mining g.publisher

variable {sha256d mining}

theorem FromPool.mono {events events' : List UpstreamEvent} {blob : CoinbaserBlob}
    (hpool : FromPool events blob) (hsubset : ∀ e ∈ events, e ∈ events') :
    FromPool events' blob := by
  obtain ⟨e, he, hblob⟩ := hpool
  exact ⟨e, hsubset e he, hblob⟩

theorem PhaseFed.mono {s t : UpstreamTask} {phase : PublisherPhase} (hphase : PhaseFed s phase)
    (htemplates : ∀ template ∈ s.templates, template ∈ t.templates)
    (hevents : ∀ e ∈ allEvents s, e ∈ allEvents t) : PhaseFed t phase := by
  cases phase with
  | waiting => trivial
  | woken => trivial
  | haveTemplate template => exact htemplates template hphase
  | haveBoth template statedValue blob =>
      exact ⟨htemplates template hphase.1, hphase.2.mono hevents⟩

theorem Fed.mono {s t : UpstreamTask} {p : PublisherState} (hfed : Fed s p)
    (htemplates : ∀ template ∈ s.templates, template ∈ t.templates)
    (hevents : ∀ e ∈ allEvents s, e ∈ allEvents t) :
    Fed t { p with poolCoinbaseTag := t.poolCoinbaseTag } where
  template := fun template htemplate => htemplates template (hfed.template template htemplate)
  coinbaser := fun statedValue blob hblob => (hfed.coinbaser statedValue blob hblob).mono hevents
  tag := rfl
  phase := hfed.phase.mono htemplates hevents

theorem Fed.publisherStep {s : UpstreamTask} {p q : PublisherState} (hfed : Fed s p)
    {turn : PublisherTurn} (hstep : PublisherStep sha256d mining p turn.action q) : Fed s q := by
  generalize ha : turn.action = a at hstep
  cases hstep with
  | bitcoindTemplate | coinbaserResponse | coinbaserRefused | clientConfig | upstreamReconnect =>
      cases turn <;> cases ha
  | wakeTemplate | wakeCoinbaser | noTemplate | noCoinbaser =>
      exact ⟨hfed.template, hfed.coinbaser, hfed.tag, trivial⟩
  | readTemplate template hphase htemplate =>
      exact ⟨hfed.template, hfed.coinbaser, hfed.tag, hfed.template template htemplate⟩
  | readCoinbaser template statedValue blob hphase hcoinbaser =>
      have hbefore := hfed.phase
      rw [hphase] at hbefore
      exact ⟨hfed.template, hfed.coinbaser, hfed.tag, hbefore,
        hfed.coinbaser statedValue blob hcoinbaser⟩
  | publish template statedValue blob hphase =>
      exact ⟨hfed.template, hfed.coinbaser, hfed.tag, trivial⟩

/-! What an action upstream adds to the templates and the events. -/

theorem mem_templates_step {s t : UpstreamTask} {a : UpstreamAction}
    (hstep : UpstreamStep s a t) : ∀ template ∈ s.templates, template ∈ t.templates := by
  intro template hmem
  cases hstep with
  | template => exact List.mem_append_left _ hmem
  | event c e hsession hphase =>
      cases e with
      | coinbaser response =>
          simp only [handleEvent]
          split <;> exact hmem
      | shareResponse response =>
          simp only [handleEvent]
          split <;> exact hmem
      | clientConfig | blockNotify | jobValidationRequest | unknownFrame => exact hmem
  | connected | templateChanged | ask | askNothing | sent | sendFailed | check | streamClosed =>
      exact hmem

theorem allEvents_handleEvent {s : UpstreamTask} {c : Session} (hsession : s.session = some c)
    (e : UpstreamEvent) : allEvents (handleEvent s c e) = allEvents s ++ [e] := by
  have hreceive : ∀ t : UpstreamTask, t.ended = s.ended → t.session = some (c.receive e) →
      allEvents t = allEvents s ++ [e] := fun t hended ht =>
    allEvents_of_session hended hsession ht [e] rfl
  cases e with
  | coinbaser response =>
      simp only [handleEvent]
      split <;> exact hreceive _ rfl rfl
  | shareResponse response =>
      simp only [handleEvent]
      split <;> exact hreceive _ rfl rfl
  | clientConfig config =>
      have hended : (handleEvent s c (.clientConfig config)).ended = s.ended := rfl
      have hconfigured : (handleEvent s c (.clientConfig config)).session =
          some (c.receiveConfig config) := rfl
      exact allEvents_of_session hended hsession hconfigured _ rfl
  | blockNotify | jobValidationRequest | unknownFrame => exact hreceive _ rfl rfl

theorem mem_allEvents_step {s t : UpstreamTask} {a : UpstreamAction}
    (hstep : UpstreamStep s a t) : ∀ e ∈ allEvents s, e ∈ allEvents t := by
  intro e hmem
  cases hstep with
  | template template =>
      have hsame : allEvents { s with
          templates := s.templates ++ [template]
          session := s.session.map fun c => { c with templateUnseen := true } } = allEvents s := by
        cases hsession : s.session <;> simp [allEvents, hsession]
      exact hsame ▸ hmem
  | connected hnone =>
      simpa [allEvents, hnone] using hmem
  | event c e' hsession hphase =>
      rw [allEvents_handleEvent hsession]
      exact List.mem_append_left _ hmem
  | streamClosed c hsession hphase =>
      simpa [allEvents, hsession] using hmem
  | templateChanged c hsession | ask c _ _ _ hsession | check c hsession =>
      simpa [allEvents, hsession] using hmem
  | askNothing c fromConfig hsession | sent c command fromConfig hsession
  | sendFailed c command fromConfig hsession =>
      simpa [allEvents, hsession, asked_events] using hmem

theorem Fed.receiveCoinbaser {s : UpstreamTask} {c : Session} {p q : PublisherState}
    {response : CoinbaserResponse} (hfed : Fed s p)
    (hsession : s.session = some c) (hphase : c.phase = .selecting)
    (hread : PublisherStep sha256d mining p
      (.coinbaserResponse response.coinbaseValue response.v2Blob) q) :
    Fed (handleEvent s c (.coinbaser response)) q := by
  have hreceived : UpstreamStep s (.event (.coinbaser response))
      (handleEvent s c (.coinbaser response)) := .event c _ hsession hphase
  have hkept := hfed.mono (mem_templates_step hreceived) (mem_allEvents_step hreceived)
  have htag : p.poolCoinbaseTag = (handleEvent s c (.coinbaser response)).poolCoinbaseTag := by
    rw [hfed.tag]
    simp only [handleEvent]
    split <;> rfl
  cases hread with
  | coinbaserResponse _ _ blob hparse =>
      refine ⟨hkept.template, ?_, htag, hkept.phase⟩
      intro statedValue blob' hblob
      obtain ⟨-, rfl⟩ := Prod.mk.inj (Option.some.inj hblob)
      refine ⟨.coinbaser response, ?_, by rw [coinbaserBlob?, hparse]; rfl⟩
      rw [allEvents_handleEvent hsession]
      exact List.mem_append_right _ (List.mem_singleton_self _)
  | coinbaserRefused => exact ⟨hkept.template, hkept.coinbaser, htag, hkept.phase⟩

theorem Fed.feedStep {s t : UpstreamTask} {r r' : PublisherRun} {a : UpstreamAction}
    (hfed : Fed s r.state) (hstep : UpstreamStep s a t)
    (hfeed : feedStep sha256d mining r a = some r') : Fed t r'.state := by
  have hkept := hfed.mono (mem_templates_step hstep) (mem_allEvents_step hstep)
  have hreads : ∀ {p : PublisherAction}, feed a = some p →
      PublisherStep sha256d mining r.state p r'.state := by
    intro p hp
    rw [GatewayTemplates.feedStep, hp] at hfeed
    obtain ⟨q, hq, rfl⟩ := Option.map_eq_some_iff.mp hfeed
    exact publisherStep_cases hq
  have hidle : feed a = none → r'.state = r.state := by
    intro hnone
    rw [GatewayTemplates.feedStep, hnone] at hfeed
    rw [Option.some.inj hfeed]
  cases hstep with
  | template template =>
      generalize r'.state = q at hreads ⊢
      cases hreads rfl
      refine ⟨?_, hkept.coinbaser, hfed.tag, hkept.phase⟩
      intro template' htemplate
      obtain rfl := Option.some.inj htemplate
      exact List.mem_append_right _ (List.mem_singleton_self _)
  | event c e hsession hphase =>
      cases e with
      | coinbaser response => exact hfed.receiveCoinbaser hsession hphase (hreads rfl)
      | clientConfig config =>
          generalize r'.state = q at hreads ⊢
          cases hreads rfl
          exact ⟨hkept.template, hkept.coinbaser, rfl, hkept.phase⟩
      | shareResponse response =>
          have htag : (handleEvent s c (.shareResponse response)).poolCoinbaseTag =
              s.poolCoinbaseTag := by
            simp only [handleEvent]
            split <;> rfl
          rw [hidle rfl]
          exact ⟨hkept.template, hkept.coinbaser, hfed.tag.trans htag.symm, hkept.phase⟩
      | blockNotify | jobValidationRequest | unknownFrame =>
          rw [hidle rfl]
          exact ⟨hkept.template, hkept.coinbaser, hfed.tag, hkept.phase⟩
  | streamClosed c hsession hphase =>
      generalize r'.state = q at hreads ⊢
      cases hreads rfl
      exact ⟨hkept.template, hkept.coinbaser, rfl, hkept.phase⟩
  | connected | templateChanged | ask | askNothing | sent | sendFailed | check =>
      rw [hidle rfl]
      exact ⟨hkept.template, hkept.coinbaser, hfed.tag, hkept.phase⟩

theorem Coherent.step {g g' : Gateway} {a : GatewayAction} (hcoherent : Coherent sha256d mining g)
    (hstep : gatewayStep sha256d mining g a = some g') : Coherent sha256d mining g' := by
  obtain ⟨hoverrides, hfed, hupToDate, hnumbered⟩ := hcoherent
  cases a with
  | upstream a =>
      obtain ⟨upstream, hupstream, hstep⟩ := Option.bind_eq_some_iff.mp hstep
      obtain ⟨publisher, hfeed, hstep⟩ := Option.bind_eq_some_iff.mp hstep
      obtain rfl := Option.some.inj hstep
      have hcases := upstreamStep_cases hupstream
      have hkeep : UpToDate sha256d mining publisher.state ∧
          Numbered sha256d mining publisher := by
        rw [feedStep] at hfeed
        split at hfeed
        · obtain ⟨q, hq, rfl⟩ := Option.map_eq_some_iff.mp hfeed
          exact ⟨hupToDate.step (publisherStep_cases hq), hnumbered.step hfeed⟩
        · obtain rfl := Option.some.inj hfeed
          exact ⟨hupToDate, hnumbered⟩
      exact ⟨hoverrides.step hcases, hfed.feedStep hcases hfeed, hkeep.1, hkeep.2⟩
  | publisher turn =>
      obtain ⟨publisher, hrun, rfl⟩ := Option.map_eq_some_iff.mp hstep
      have hnumbered' := hnumbered.step hrun
      obtain ⟨q, hq, rfl⟩ := Option.map_eq_some_iff.mp hrun
      have hcases := publisherStep_cases hq
      exact ⟨hoverrides, hfed.publisherStep hcases, hupToDate.step hcases, hnumbered'⟩

theorem coherent_start : Coherent sha256d mining {} where
  overrides := overrides_start
  fed := ⟨(fun _ h => nomatch h), (fun _ _ h => nomatch h), rfl, trivial⟩
  upToDate := by
    refine ⟨?_, (fun _ h => nomatch h), fun _ _ _ h => nomatch h⟩
    intro _ _ _ template _ _ hnone
    cases hnone
  numbered := ⟨rfl, rfl, ⟨none, rfl⟩, fun _ _ h => nomatch h⟩

end Steps

/-- The primary tag that a block bears now: that of the connection's last configuration, and the
configured one where there is none. -/
def tagInForce (mining : MiningConfig) (s : UpstreamTask) : String :=
  match liveConfig s with
  | none => mining.coinbaseTagPrimary
  | some config => decodeLossy (config.poolCoinbaseTag.take maxCoinbaseTagSpace)

theorem Coherent.primaryTag {sha256d : Bytes → Bytes32} {mining : MiningConfig} {g : Gateway}
    (hcoherent : Coherent sha256d mining g) :
    primaryTag mining g.publisher.state.poolCoinbaseTag = tagInForce mining g.upstream := by
  rw [hcoherent.fed.tag, hcoherent.overrides.tag, tagInForce]
  cases liveConfig g.upstream <;> rfl

/-- In every run, across all reconnects, a state is published from a template of bitcoind and a
coinbaser of the pool, under the tag that is in force when it is published; the last one is up to
date; and no two have the same seed or, close to each other, the same coinbase. -/
theorem gateway_publishes (sha256d : Bytes → Bytes32) (mining : MiningConfig)
    (htags : TagsFit mining) (g : Gateway)
    (hreachable : Reachable (gatewayStep sha256d mining) {} g) :
    (∀ g', gatewayStep sha256d mining g (.publisher .publish) = some g' →
      ∃ template ∈ g.upstream.templates, ∃ blob, FromPool (allEvents g.upstream) blob ∧
        ∃ scriptsig : ScriptSigInputs,
          scriptsig.coinbaseTagPrimary = tagInForce mining g.upstream ∧
          g'.publisher.publications = g.publisher.publications ++
            [fromTemplateAndBlob sha256d template blob scriptsig g.publisher.state.seed]) ∧
    LatestPublished sha256d mining g.publisher.state ∧
    (g.publisher.publications.length < 2 ^ 64 →
      (g.publisher.publications.map TemplateState.jobIdSeed).Nodup) ∧
    ∀ (i j : ℕ) p q, i < j → j < i + 65536 → g.publisher.publications[i]? = some p →
      g.publisher.publications[j]? = some q → ∀ x y : Bytes, x.length = 12 → y.length = 12 →
        p.coinb1 ++ x ++ p.coinb2 ≠ q.coinb1 ++ y ++ q.coinb2 := by
  have hcoherent : Coherent sha256d mining g :=
    hreachable.invariant coherent_start fun _ _ _ hinv hstep => hinv.step hstep
  refine ⟨?_, hcoherent.upToDate.latestPublished,
    fun hfew => hcoherent.numbered.nodup_seeds hfew.le, ?_⟩
  · intro g' hstep
    obtain ⟨publisher, hrun, rfl⟩ := Option.map_eq_some_iff.mp hstep
    obtain ⟨q, hq, rfl⟩ := Option.map_eq_some_iff.mp hrun
    generalize ha : PublisherTurn.publish.action = a at hq
    cases publisherStep_cases hq with
    | publish template statedValue blob hphase =>
        have hfed := hcoherent.fed.phase
        rw [hphase] at hfed
        exact ⟨template, hfed.1, blob, hfed.2, _, hcoherent.primaryTag, rfl⟩
    | _ => cases ha
  · intro i j p q hlt hnear hp hq
    exact (hcoherent.numbered.coinbases_differ htags hlt hnear hp hq).2

/-- A pool that has configured a tag is lost before the second state is published. -/
theorem gateway_publishes_after_disconnect :
    ∃ g g', Reachable (gatewayStep (fun _ => ByteVec.fill 32 0) {}) {} g ∧
      g.upstream.ended.any Session.clientConfigSeen = true ∧
      gatewayStep (fun _ => ByteVec.fill 32 0) {} g (.publisher .publish) = some g' ∧
      LatestPublished (fun _ => ByteVec.fill 32 0) {} g.publisher.state ∧
      ∃ template ∈ g.upstream.templates, ∃ blob, FromPool (allEvents g.upstream) blob ∧
        ∃ scriptsig : ScriptSigInputs,
          scriptsig.coinbaseTagPrimary = tagInForce {} g.upstream ∧
          g'.publisher.publications = g.publisher.publications ++
            [fromTemplateAndBlob (fun _ => ByteVec.fill 32 0) template blob scriptsig
              g.publisher.state.seed] := by
  obtain ⟨g, hreachable, hg⟩ := exists_reachable_of_runActions
    (gatewayStep (fun _ => ByteVec.fill 32 0) {}) {}
    [.upstream (.template emptyTemplate), .upstream .connected,
      .upstream (.event (.clientConfig
        { poolScriptsig := [], primeId := 0, poolCoinbaseTag := [0x70], vardiffMin := 1 })),
      .upstream .ask, .upstream .sent, .upstream .check,
      .upstream (.event (.coinbaser
        { coinbaseValue := 100, v2Blob := PayoutCap.singleOutputBlob 100 })),
      .publisher .wake, .publisher .readTemplate, .publisher .readCoinbaser, .publisher .publish,
      .publisher .wake, .publisher .readTemplate, .publisher .readCoinbaser,
      .upstream .streamClosed]
    (fun g => g.upstream.ended.any Session.clientConfigSeen &&
      (gatewayStep (fun _ => ByteVec.fill 32 0) {} g (.publisher .publish)).isSome)
    (by decide +kernel)
  obtain ⟨hconfigured, hg⟩ := Bool.and_eq_true_iff.mp hg
  obtain ⟨g', hg'⟩ := Option.isSome_iff_exists.mp hg
  obtain ⟨hpublish, hlatest, -⟩ := gateway_publishes _ {} (by decide +kernel) g hreachable
  exact ⟨g, g', hreachable, hconfigured, hg', hlatest, hpublish g' hg'⟩

end DatumGateway.GatewayTemplates
