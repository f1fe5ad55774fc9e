import DatumGateway.ConfigValidation
import DatumGateway.SharedTemplate
import DatumGateway.TransitionSystem

namespace DatumGateway.TemplatePublisher

open DatumGateway.ByteString
open DatumGateway.BlockTemplate
open DatumGateway.Coinbaser
open DatumGateway.CoinbaseSplit
open DatumGateway.ConfigValidation
open DatumGateway.SharedTemplate
open DatumGateway.Utf8Text

def maxCoinbaseTagSpace : ℕ := 86

def poolTagOverride (poolCoinbaseTag : Bytes) : Bytes :=
  poolCoinbaseTag.take maxCoinbaseTagSpace

/-- A pool override wins over the configured primary tag, even if empty. -/
def primaryTag (mining : MiningConfig) (poolOverride : Option Bytes) : String :=
  match poolOverride with
  | some bytes => decodeLossy bytes
  | none => mining.coinbaseTagPrimary

def publisherScriptSig (mining : MiningConfig) (poolOverride : Option Bytes)
    (enprefixCounter : UInt16) : ScriptSigInputs where
  coinbaseTagPrimary := primaryTag mining poolOverride
  coinbaseTagSecondary := mining.coinbaseTagSecondary
  coinbaseUniqueId := mining.coinbaseUniqueId.toUInt16
  enprefix := enprefixCounter ^^^ 0xB10C
  potPlaceholder := 0xFF

/-- Where the publisher task stands in its loop. -/
inductive PublisherPhase where
  | waiting
  | woken
  | haveTemplate (template : Template)
  | haveBoth (template : Template) (statedValue : UInt64) (coinbaser : CoinbaserBlob)
  deriving DecidableEq

/-- The watch channels the task reads, and its own variables.  The blob is kept
with the value that the pool stated for it. -/
structure PublisherState where
  template : Option Template := none
  templateUnseen : Bool := false
  coinbaser : Option (UInt64 × CoinbaserBlob) := none
  coinbaserUnseen : Bool := false
  poolCoinbaseTag : Option Bytes := none
  phase : PublisherPhase := .waiting
  enprefixCounter : UInt16 := 0
  seed : UInt64 := 0
  published : Option TemplateState := none

inductive PublisherAction where
  | bitcoindTemplate (template : Template)
  | coinbaserResponse (coinbaseValue : UInt64) (v2Blob : Bytes)
  | clientConfig (poolCoinbaseTag : Bytes)
  | upstreamReconnect
  | wake
  | readTemplate
  | readCoinbaser
  | publish

def publisherStep (sha256d : Bytes → Bytes32) (mining : MiningConfig) (s : PublisherState) :
    PublisherAction → Option PublisherState
  | .bitcoindTemplate template =>
      some { s with template := some template, templateUnseen := true }
  | .coinbaserResponse coinbaseValue v2Blob =>
      match parseV2Blob v2Blob coinbaseValue with
      | .ok blob => some { s with coinbaser := some (coinbaseValue, blob), coinbaserUnseen := true }
      | .error _ => some s
  | .clientConfig poolCoinbaseTag =>
      some { s with poolCoinbaseTag := some (poolTagOverride poolCoinbaseTag) }
  | .upstreamReconnect => some { s with poolCoinbaseTag := none }
  | .wake =>
      match s.phase with
      | .waiting =>
          -- the template channel is polled first
          if s.templateUnseen then some { s with templateUnseen := false, phase := .woken }
          else if s.coinbaserUnseen then some { s with coinbaserUnseen := false, phase := .woken }
          else none
      | _ => none
  | .readTemplate =>
      match s.phase with
      | .woken =>
          match s.template with
          | some template => some { s with phase := .haveTemplate template }
          | none => some { s with phase := .waiting }
      | _ => none
  | .readCoinbaser =>
      match s.phase with
      | .haveTemplate template =>
          match s.coinbaser with
          | some (statedValue, blob) =>
              some { s with phase := .haveBoth template statedValue blob }
          | none => some { s with phase := .waiting }
      | _ => none
  | .publish =>
      match s.phase with
      | .haveBoth template _ blob =>
          let scriptsig := publisherScriptSig mining s.poolCoinbaseTag s.enprefixCounter
          some { s with
            phase := .waiting
            enprefixCounter := s.enprefixCounter + 1
            seed := s.seed + 1
            published := some (fromTemplateAndBlob sha256d template blob scriptsig s.seed) }
      | _ => none

section Steps

variable (sha256d : Bytes → Bytes32) (mining : MiningConfig)

/-- What a step of the publisher does. -/
inductive PublisherStep (s : PublisherState) : PublisherAction → PublisherState → Prop
  | bitcoindTemplate (template : Template) :
      PublisherStep s (.bitcoindTemplate template)
        { s with template := some template, templateUnseen := true }
  | coinbaserResponse (coinbaseValue : UInt64) (v2Blob : Bytes) (blob : CoinbaserBlob)
      (hparse : parseV2Blob v2Blob coinbaseValue = .ok blob) :
      PublisherStep s (.coinbaserResponse coinbaseValue v2Blob)
        { s with coinbaser := some (coinbaseValue, blob), coinbaserUnseen := true }
  | coinbaserRefused (coinbaseValue : UInt64) (v2Blob : Bytes) :
      PublisherStep s (.coinbaserResponse coinbaseValue v2Blob) s
  | clientConfig (poolCoinbaseTag : Bytes) :
      PublisherStep s (.clientConfig poolCoinbaseTag)
        { s with poolCoinbaseTag := some (poolTagOverride poolCoinbaseTag) }
  | upstreamReconnect : PublisherStep s .upstreamReconnect { s with poolCoinbaseTag := none }
  | wakeTemplate (hphase : s.phase = .waiting) (hunseen : s.templateUnseen = true) :
      PublisherStep s .wake { s with templateUnseen := false, phase := .woken }
  | wakeCoinbaser (hphase : s.phase = .waiting) (hunseen : s.coinbaserUnseen = true) :
      PublisherStep s .wake { s with coinbaserUnseen := false, phase := .woken }
  | readTemplate (template : Template) (hphase : s.phase = .woken)
      (htemplate : s.template = some template) :
      PublisherStep s .readTemplate { s with phase := .haveTemplate template }
  | noTemplate (hphase : s.phase = .woken) (hnone : s.template = none) :
      PublisherStep s .readTemplate { s with phase := .waiting }
  | readCoinbaser (template : Template) (statedValue : UInt64) (blob : CoinbaserBlob)
      (hphase : s.phase = .haveTemplate template)
      (hcoinbaser : s.coinbaser = some (statedValue, blob)) :
      PublisherStep s .readCoinbaser { s with phase := .haveBoth template statedValue blob }
  | noCoinbaser (template : Template) (hphase : s.phase = .haveTemplate template)
      (hnone : s.coinbaser = none) : PublisherStep s .readCoinbaser { s with phase := .waiting }
  | publish (template : Template) (statedValue : UInt64) (blob : CoinbaserBlob)
      (hphase : s.phase = .haveBoth template statedValue blob) :
      PublisherStep s .publish
        { s with
          phase := .waiting
          enprefixCounter := s.enprefixCounter + 1
          seed := s.seed + 1
          published := some (fromTemplateAndBlob sha256d template blob
            (publisherScriptSig mining s.poolCoinbaseTag s.enprefixCounter) s.seed) }

variable {sha256d mining}

theorem publisherStep_cases {s t : PublisherState} {a : PublisherAction}
    (hstep : publisherStep sha256d mining s a = some t) :
    PublisherStep sha256d mining s a t := by
  cases a with
  | bitcoindTemplate template =>
      obtain rfl := Option.some.inj hstep
      exact .bitcoindTemplate template
  | coinbaserResponse coinbaseValue v2Blob =>
      simp only [publisherStep] at hstep
      split at hstep
      · rename_i blob hparse
        obtain rfl := Option.some.inj hstep
        exact .coinbaserResponse coinbaseValue v2Blob blob hparse
      · obtain rfl := Option.some.inj hstep
        exact .coinbaserRefused coinbaseValue v2Blob
  | clientConfig poolCoinbaseTag =>
      obtain rfl := Option.some.inj hstep
      exact .clientConfig poolCoinbaseTag
  | upstreamReconnect =>
      obtain rfl := Option.some.inj hstep
      exact .upstreamReconnect
  | wake =>
      simp only [publisherStep] at hstep
      split at hstep
      · rename_i hphase
        split_ifs at hstep with htemplate hcoinbaser
        · obtain rfl := Option.some.inj hstep
          exact .wakeTemplate hphase htemplate
        · obtain rfl := Option.some.inj hstep
          exact .wakeCoinbaser hphase hcoinbaser
      · cases hstep
  | readTemplate =>
      simp only [publisherStep] at hstep
      split at hstep
      · rename_i hphase
        split at hstep
        · rename_i template htemplate
          obtain rfl := Option.some.inj hstep
          exact .readTemplate template hphase htemplate
        · rename_i hnone
          obtain rfl := Option.some.inj hstep
          exact .noTemplate hphase hnone
      · cases hstep
  | readCoinbaser =>
      simp only [publisherStep] at hstep
      split at hstep
      · rename_i template hphase
        split at hstep
        · rename_i statedValue blob hcoinbaser
          obtain rfl := Option.some.inj hstep
          exact .readCoinbaser template statedValue blob hphase hcoinbaser
        · rename_i hnone
          obtain rfl := Option.some.inj hstep
          exact .noCoinbaser template hphase hnone
      · cases hstep
  | publish =>
      simp only [publisherStep] at hstep
      split at hstep
      · rename_i template statedValue blob hphase
        obtain rfl := Option.some.inj hstep
        exact .publish template statedValue blob hphase
      · cases hstep

end Steps

end DatumGateway.TemplatePublisher
