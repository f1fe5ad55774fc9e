import DatumGateway.UpstreamSession

namespace DatumGateway.PoolOverrides

open DatumGateway.AuthenticatedEvents
open DatumGateway.ByteString
open DatumGateway.Coinbaser
open DatumGateway.ConfigValidation
open DatumGateway.TemplatePublisher
open DatumGateway.TransitionSystem
open DatumGateway.UpstreamMessages
open DatumGateway.UpstreamSession
open DatumGateway.Utf8Text

def clientConfig? : UpstreamEvent → Option ClientConfig
  | .clientConfig config => some config
  | _ => none

/-- The outputs of a coinbaser that can be parsed. -/
def coinbaserBlob? : UpstreamEvent → Option CoinbaserBlob
  | .coinbaser response => (parseV2Blob response.v2Blob response.coinbaseValue).toOption
  | _ => none

def isAccepted : UpstreamEvent → Bool
  | .shareResponse response => response.status != .rejected
  | _ => false

def isRejected : UpstreamEvent → Bool
  | .shareResponse response => response.status == .rejected
  | _ => false

def lastConfig (events : List UpstreamEvent) : Option ClientConfig :=
  (events.filterMap clientConfig?).getLast?

/-- The last configuration on the connection that is up. -/
def liveConfig (s : UpstreamTask) : Option ClientConfig :=
  s.session.bind fun c => lastConfig c.events

/-- All events of all connections. -/
def allEvents (s : UpstreamTask) : List UpstreamEvent :=
  (s.ended ++ s.session.toList).flatMap Session.events

/-- What the task has put out is what these events make of it. -/
structure PutsOut (events : List UpstreamEvent) (s : UpstreamTask) : Prop where
  coinbaser : s.coinbaser = (events.filterMap coinbaserBlob?).getLast?
  minDiff : s.poolMinDiff = ((lastConfig events).map ClientConfig.vardiffMin).getD 0
  accepted : s.sharesAccepted = UInt64.ofNat (events.countP isAccepted)
  rejected : s.sharesRejected = UInt64.ofNat (events.countP isRejected)

structure Overrides (s : UpstreamTask) : Prop where
  putsOut : PutsOut (allEvents s) s
  tag : s.poolCoinbaseTag =
    (liveConfig s).map fun config => poolTagOverride config.poolCoinbaseTag

section Steps

variable {s t : UpstreamTask} {c c' : Session}

theorem getLast?_filterMap_concat {α β : Type*} (f : α → Option β) (l : List α) (a : α) :
    ((l ++ [a]).filterMap f).getLast? = (f a).or (l.filterMap f).getLast? := by
  rw [List.filterMap_append]
  cases ha : f a with
  | none => simp [ha]
  | some b => simp [ha]

theorem allEvents_of_session (hended : t.ended = s.ended) (hs : s.session = some c)
    (ht : t.session = some c') (e : List UpstreamEvent) (hevents : c'.events = c.events ++ e) :
    allEvents t = allEvents s ++ e := by
  simp [allEvents, hended, hs, ht, hevents]

theorem liveConfig_of_session (hs : s.session = some c) : liveConfig s = lastConfig c.events := by
  rw [liveConfig, hs, Option.bind_some]

theorem PutsOut.keep {events events' : List UpstreamEvent} (hputsOut : PutsOut events s)
    (hevents : events' = events) (hcoinbaser : t.coinbaser = s.coinbaser)
    (hminDiff : t.poolMinDiff = s.poolMinDiff) (haccepted : t.sharesAccepted = s.sharesAccepted)
    (hrejected : t.sharesRejected = s.sharesRejected) : PutsOut events' t := by
  subst hevents
  exact ⟨hcoinbaser.trans hputsOut.coinbaser, hminDiff.trans hputsOut.minDiff,
    haccepted.trans hputsOut.accepted, hrejected.trans hputsOut.rejected⟩

theorem Overrides.goesOn (hoverrides : Overrides s) (hs : s.session = some c)
    (ht : t.session = some c') (hevents : c'.events = c.events) (hended : t.ended = s.ended)
    (hcoinbaser : t.coinbaser = s.coinbaser) (hminDiff : t.poolMinDiff = s.poolMinDiff)
    (htag : t.poolCoinbaseTag = s.poolCoinbaseTag) (haccepted : t.sharesAccepted = s.sharesAccepted)
    (hrejected : t.sharesRejected = s.sharesRejected) : Overrides t where
  putsOut := by
    have hall : allEvents t = allEvents s := by
      rw [allEvents_of_session hended hs ht [] (by rw [hevents, List.append_nil]), List.append_nil]
    exact hoverrides.putsOut.keep hall hcoinbaser hminDiff haccepted hrejected
  tag := by
    rw [htag, hoverrides.tag, liveConfig_of_session hs, liveConfig_of_session ht, hevents]

theorem PutsOut.receive {events : List UpstreamEvent} {e : UpstreamEvent}
    (hputsOut : PutsOut events s)
    (hcoinbaser : t.coinbaser = (coinbaserBlob? e).or s.coinbaser)
    (hminDiff : t.poolMinDiff = ((clientConfig? e).map ClientConfig.vardiffMin).getD s.poolMinDiff)
    (haccepted : t.sharesAccepted = s.sharesAccepted + if isAccepted e then 1 else 0)
    (hrejected : t.sharesRejected = s.sharesRejected + if isRejected e then 1 else 0) :
    PutsOut (events ++ [e]) t where
  coinbaser := by rw [getLast?_filterMap_concat, hcoinbaser, hputsOut.coinbaser]
  minDiff := by
    rw [lastConfig, getLast?_filterMap_concat, hminDiff, hputsOut.minDiff, lastConfig]
    cases clientConfig? e <;> rfl
  accepted := by
    rw [List.countP_append, List.countP_singleton, haccepted, hputsOut.accepted, UInt64.ofNat_add]
    split <;> rfl
  rejected := by
    rw [List.countP_append, List.countP_singleton, hrejected, hputsOut.rejected, UInt64.ofNat_add]
    split <;> rfl

theorem Overrides.receive (hoverrides : Overrides s) (hs : s.session = some c)
    (ht : t.session = some c') (hended : t.ended = s.ended) {e : UpstreamEvent}
    (hevents : c'.events = c.events ++ [e])
    (hcoinbaser : t.coinbaser = (coinbaserBlob? e).or s.coinbaser)
    (hminDiff : t.poolMinDiff = ((clientConfig? e).map ClientConfig.vardiffMin).getD s.poolMinDiff)
    (htag : t.poolCoinbaseTag =
      ((clientConfig? e).map fun config => poolTagOverride config.poolCoinbaseTag).or
        s.poolCoinbaseTag)
    (haccepted : t.sharesAccepted = s.sharesAccepted + if isAccepted e then 1 else 0)
    (hrejected : t.sharesRejected = s.sharesRejected + if isRejected e then 1 else 0) :
    Overrides t where
  putsOut := by
    rw [allEvents_of_session hended hs ht [e] hevents]
    exact hoverrides.putsOut.receive hcoinbaser hminDiff haccepted hrejected
  tag := by
    rw [htag, hoverrides.tag, liveConfig_of_session hs, liveConfig_of_session ht, hevents,
      lastConfig, lastConfig, getLast?_filterMap_concat]
    cases clientConfig? e <;> rfl

theorem Overrides.handleEvent (hoverrides : Overrides s) (hs : s.session = some c)
    (e : UpstreamEvent) : Overrides (handleEvent s c e) := by
  cases e with
  | coinbaser response =>
      simp only [UpstreamSession.handleEvent]
      split <;> rename_i hparse
      · exact hoverrides.receive hs rfl rfl rfl (by rw [coinbaserBlob?, hparse]; rfl) rfl rfl
          (add_zero _).symm (add_zero _).symm
      · exact hoverrides.receive hs rfl rfl rfl (by rw [coinbaserBlob?, hparse]; rfl) rfl rfl
          (add_zero _).symm (add_zero _).symm
  | clientConfig config =>
      exact hoverrides.receive hs rfl rfl rfl rfl rfl rfl (add_zero _).symm (add_zero _).symm
  | shareResponse response =>
      simp only [UpstreamSession.handleEvent]
      split <;> rename_i hstatus
      · exact hoverrides.receive hs rfl rfl rfl rfl rfl rfl (by simp [isAccepted, hstatus])
          (by simp [isRejected, hstatus])
      · exact hoverrides.receive hs rfl rfl rfl rfl rfl rfl (by simp [isAccepted, hstatus])
          (by simp [isRejected, hstatus])
      · exact hoverrides.receive hs rfl rfl rfl rfl rfl rfl (by simp [isAccepted, hstatus])
          (by simp [isRejected, hstatus])
  | blockNotify payload =>
      exact hoverrides.receive hs rfl rfl rfl rfl rfl rfl (add_zero _).symm (add_zero _).symm
  | jobValidationRequest body =>
      exact hoverrides.receive hs rfl rfl rfl rfl rfl rfl (add_zero _).symm (add_zero _).symm
  | unknownFrame protoCmd body =>
      exact hoverrides.receive hs rfl rfl rfl rfl rfl rfl (add_zero _).symm (add_zero _).symm

theorem asked_events (c : Session) (fromConfig : Bool) :
    (c.asked fromConfig).events = c.events := by
  cases fromConfig <;> rfl

theorem Overrides.step {a : UpstreamAction} (hoverrides : Overrides s)
    (hstep : UpstreamStep s a t) : Overrides t := by
  cases hstep with
  | template template =>
      cases hs : s.session with
      | none =>
          have htag := hoverrides.tag
          rw [liveConfig, hs] at htag
          refine ⟨hoverrides.putsOut.keep ?_ rfl rfl rfl rfl, htag⟩
          simp [allEvents, hs]
      | some c => exact hoverrides.goesOn hs rfl rfl rfl rfl rfl rfl rfl rfl
  | connected hnone =>
      have htag := hoverrides.tag
      rw [liveConfig, hnone] at htag
      refine ⟨hoverrides.putsOut.keep ?_ rfl rfl rfl rfl, htag⟩
      simp [allEvents, hnone]
  | templateChanged c hsession hphase hunseen =>
      exact hoverrides.goesOn hsession rfl rfl rfl rfl rfl rfl rfl rfl
  | event c e hsession hphase => exact hoverrides.handleEvent hsession e
  | ask c fromConfig template command hsession hphase hlast hrequest =>
      exact hoverrides.goesOn hsession rfl rfl rfl rfl rfl rfl rfl rfl
  | askNothing c fromConfig hsession hphase hnone =>
      exact hoverrides.goesOn hsession rfl (asked_events c fromConfig) rfl rfl rfl rfl rfl rfl
  | sent c command fromConfig hsession hphase =>
      exact hoverrides.goesOn hsession rfl (asked_events _ fromConfig) rfl rfl rfl rfl rfl rfl
  | sendFailed c command fromConfig hsession hphase =>
      exact hoverrides.goesOn hsession rfl (asked_events c fromConfig) rfl rfl rfl rfl rfl rfl
  | check c hsession hphase =>
      exact hoverrides.goesOn hsession rfl rfl rfl rfl rfl rfl rfl rfl
  | streamClosed c hsession hphase =>
      refine ⟨hoverrides.putsOut.keep ?_ rfl rfl rfl rfl, rfl⟩
      simp [allEvents, hsession]

end Steps

theorem overrides_start : Overrides {} := ⟨⟨rfl, rfl, rfl, rfl⟩, rfl⟩

/-- The last coinbaser that could be parsed, the difficulty floor of the last configuration and
the answers to shares are kept over all connections, whereas the blocks bear the tag of the pool
only while the connection is up that it came on, and else the configured one. -/
theorem pool_overrides (mining : MiningConfig) (t : UpstreamTask)
    (hreachable : Reachable upstreamStep {} t) :
    PutsOut (allEvents t) t ∧
    primaryTag mining t.poolCoinbaseTag =
      match liveConfig t with
      | none => mining.coinbaseTagPrimary
      | some config => decodeLossy (config.poolCoinbaseTag.take maxCoinbaseTagSpace) := by
  have hoverrides : Overrides t :=
    hreachable.invariant overrides_start fun _ _ _ hinv hstep =>
      hinv.step (upstreamStep_cases hstep)
  refine ⟨hoverrides.putsOut, ?_⟩
  rw [hoverrides.tag]
  cases liveConfig t <;> rfl

theorem pool_overrides_reconnected :
    ∃ t, Reachable upstreamStep {} t ∧
      (t.poolMinDiff == 1024 && t.sharesAccepted == 1 && t.poolCoinbaseTag.isNone) = true ∧
      PutsOut (allEvents t) t ∧
      primaryTag {} t.poolCoinbaseTag =
        match liveConfig t with
        | none => "DATUM Gateway"
        | some config => decodeLossy (config.poolCoinbaseTag.take maxCoinbaseTagSpace) := by
  obtain ⟨t, hreachable, ht⟩ := exists_reachable_of_runActions upstreamStep {}
    [.connected,
      .event (.clientConfig
        { poolScriptsig := [], primeId := 1, poolCoinbaseTag := [0x4F], vardiffMin := 1024 }),
      .ask, .check,
      .event (.shareResponse
        { status := .accepted, rejectReason := 0, nonce := 0, targetPot := 0, jobId := 0 }),
      .streamClosed, .connected]
    (fun t => t.poolMinDiff == 1024 && t.sharesAccepted == 1 && t.poolCoinbaseTag.isNone)
    (by decide +kernel)
  exact ⟨t, hreachable, ht, pool_overrides {} t hreachable⟩

end DatumGateway.PoolOverrides
