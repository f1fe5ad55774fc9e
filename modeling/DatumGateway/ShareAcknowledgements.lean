import DatumGateway.MiningConnection
import DatumGateway.ShareValidity

namespace DatumGateway.ShareAcknowledgements

open DatumGateway.ByteString
open DatumGateway.ChannelManager
open DatumGateway.JobTracker
open DatumGateway.MiningConnection
open DatumGateway.MiningListener
open DatumGateway.SharedTemplate
open DatumGateway.ShareEncoder
open DatumGateway.ShareForwarding
open DatumGateway.SharePath
open DatumGateway.ShareValidity
open DatumGateway.TransitionSystem

/-- The accounting reports the accepted shares recorded into its present batch, by their sequence
numbers; a rejected share is not one of them. -/
structure ReportsRecorded {α : Type} (acc : ShareAccounting α) (recorded : α → List UInt32) :
    Prop where
  batchAccepted : ∀ accounting,
    (acc.getLastBatchAccepted accounting).toNat = (recorded accounting).length
  lastSequenceNumber : ∀ accounting sequenceNumber,
    (recorded accounting).getLast? = some sequenceNumber →
      acc.getLastShareSequenceNumber accounting = sequenceNumber
  recorded_incrementRejectedShares : ∀ errorCode accounting,
    recorded (acc.incrementRejectedShares errorCode accounting) = recorded accounting

def acceptedOn (channelId : UInt32) : ConnectionEvent → Option UInt32
  | .forwarded cid sequenceNumber => if cid = channelId then some sequenceNumber else none
  | .wrote _ => none

def lastAccepted (channelId : UInt32) (events : List ConnectionEvent) : Option UInt32 :=
  (events.filterMap (acceptedOn channelId)).getLast?

def notePending (channelId : UInt32) (pending : ℕ) : ConnectionEvent → ℕ
  | .forwarded cid _ => if cid = channelId then pending + 1 else pending
  | .wrote (.submitSharesSuccess cid _ _ _) => if cid = channelId then 0 else pending
  | .wrote _ => pending

/-- How many shares the channel has had accepted since its last acknowledgement. -/
def pending (channelId : UInt32) (events : List ConnectionEvent) : ℕ :=
  events.foldl (notePending channelId) 0

/-- Each acknowledgement tells the last accepted share of its channel and how many there are since
the acknowledgement before, and no channel is left with eight accepted shares. -/
structure Reconciled (events : List ConnectionEvent) : Prop where
  acknowledges : ∀ front channelId lastSequenceNumber newSubmitsAcceptedCount newSharesSum,
    front ++ [.wrote (.submitSharesSuccess channelId lastSequenceNumber
        newSubmitsAcceptedCount newSharesSum)] <+: events →
      lastAccepted channelId front = some lastSequenceNumber ∧
        newSubmitsAcceptedCount.toNat = pending channelId front
  batched : ∀ channelId, pending channelId events < 8

theorem pending_concat (channelId : UInt32) (events : List ConnectionEvent)
    (e : ConnectionEvent) :
    pending channelId (events ++ [e]) = notePending channelId (pending channelId events) e := by
  rw [pending, List.foldl_concat]
  rfl

theorem reconciled_nil : Reconciled [] where
  acknowledges _ _ _ _ _ hprefix := by simp at hprefix
  batched _ := Nat.zero_lt_succ 7

theorem Reconciled.of_concat {events : List ConnectionEvent} {e : ConnectionEvent}
    (hreconciled : Reconciled (events ++ [e])) {channelId lastSequenceNumber
      newSubmitsAcceptedCount : UInt32} {newSharesSum : UInt64}
    (he : e = .wrote (.submitSharesSuccess channelId lastSequenceNumber
      newSubmitsAcceptedCount newSharesSum)) :
    newSubmitsAcceptedCount.toNat = pending channelId events := by
  refine (hreconciled.acknowledges events channelId lastSequenceNumber _ newSharesSum ?_).2
  rw [he]

def isAcknowledgement : ConnectionEvent → Bool
  | .wrote (.submitSharesSuccess _ _ _ _) => true
  | _ => false

theorem reconciled_concat_iff {events : List ConnectionEvent} (hreconciled : Reconciled events)
    {e : ConnectionEvent} (he : isAcknowledgement e = false) :
    Reconciled (events ++ [e]) ↔ ∀ channelId, pending channelId (events ++ [e]) < 8 := by
  refine ⟨Reconciled.batched, fun hbatched => ⟨?_, hbatched⟩⟩
  intro front channelId lastSequenceNumber newSubmitsAcceptedCount newSharesSum hprefix
  rcases List.prefix_concat_iff.mp hprefix with hlast | hearlier
  · obtain ⟨-, hack⟩ := List.append_inj' hlast rfl
    obtain rfl := List.singleton_inj.mp hack
    cases he
  · exact hreconciled.acknowledges _ _ _ _ _ hearlier

theorem reconciled_forwarded_iff {events : List ConnectionEvent} (hreconciled : Reconciled events)
    (channelId sequenceNumber : UInt32) :
    Reconciled (events ++ [.forwarded channelId sequenceNumber]) ↔
      pending channelId events < 7 := by
  rw [reconciled_concat_iff hreconciled rfl]
  simp only [pending_concat, notePending]
  constructor
  · intro hbatched
    have hchannel := hbatched channelId
    rw [if_pos rfl] at hchannel
    omega
  · intro hpending cid
    split_ifs with hcid
    · rw [← hcid]
      omega
    · exact hreconciled.batched cid

theorem reconciled_wrote {events : List ConnectionEvent} (hreconciled : Reconciled events)
    {out : MiningOut} (hout : isAcknowledgement (.wrote out) = false) :
    Reconciled (events ++ [.wrote out]) := by
  rw [reconciled_concat_iff hreconciled hout]
  intro channelId
  have hsame : notePending channelId (pending channelId events) (.wrote out) =
      pending channelId events := by
    cases out with
    | submitSharesSuccess => cases hout
    | _ => rfl
  rw [pending_concat, hsame]
  exact hreconciled.batched channelId

theorem reconciled_append_wrote {events : List ConnectionEvent}
    (hreconciled : Reconciled events) {outs : List MiningOut}
    (houts : outs.all isStreamFrame = true) : Reconciled (events ++ outs.map .wrote) := by
  induction outs generalizing events with
  | nil =>
      rw [List.map_nil, List.append_nil]
      exact hreconciled
  | cons out outs ih =>
      obtain ⟨hout, hrest⟩ := Bool.and_eq_true_iff.mp houts
      have hquiet : isAcknowledgement (.wrote out) = false := by
        cases out with
        | submitSharesSuccess => cases hout
        | _ => rfl
      rw [List.map_cons, List.append_cons]
      exact ih (reconciled_wrote hreconciled hquiet) hrest

section Runs

variable (sha256d : Bytes → Bytes32) {σ α : Type} (alloc : ExtranonceAllocator σ)
variable (acc : ShareAccounting α) (userCfg : ShareUserConfig) (blockFound : Bool)

/-- No acknowledgement is due or sent for a share that is accepted: it finds no block, the
accounting asks for none, and its channel has fewer than seven shares waiting for one. -/
def NoneDue (conn : Connection σ α) : ConnectionAction → Prop
  | .frame (.submitShares s) _ =>
      ∀ channel entry, acceptedBy conn.manager conn.tracker s = some (channel, entry) →
        hashMeetsTarget (derivedHash sha256d channel entry s) entry.jobMeta.blockTarget = false ∧
          acc.shouldAcknowledge conn.accounting = false ∧
          pending s.share.channelId conn.events < 7
  | _ => True

instance (conn : Connection σ α) : ∀ a, Decidable (NoneDue sha256d acc conn a)
  | .frame (.submitShares s) _ =>
      decidable_of_iff (∀ found ∈ acceptedBy conn.manager conn.tracker s,
        hashMeetsTarget (derivedHash sha256d found.1 found.2 s) found.2.jobMeta.blockTarget =
            false ∧
          acc.shouldAcknowledge conn.accounting = false ∧
          pending s.share.channelId conn.events < 7) Prod.forall
  | .frame (.openMiningChannel _ _) _ => inferInstanceAs (Decidable True)
  | .frame (.closeChannel _) _ => inferInstanceAs (Decidable True)
  | .frame (.updateChannel _) _ => inferInstanceAs (Decidable True)
  | .frame (.setCustomMiningJob _ _) _ => inferInstanceAs (Decidable True)
  | .templateChanged _ _ => inferInstanceAs (Decidable True)
  | .trackerChanged _ => inferInstanceAs (Decidable True)

theorem submitted_of_rejected {conn : Connection σ α} {s : Submission}
    (hnone : acceptedBy conn.manager conn.tracker s = none) (around : Readings) :
    ∃ errorCode, (submitted sha256d acc userCfg blockFound conn around s).1 =
      [.wrote (.submitSharesError s.share.channelId s.share.sequenceNumber errorCode)] := by
  obtain ⟨errorCode, accounting', hsubmit⟩ : ∃ errorCode accounting',
      handleSubmit sha256d acc conn.manager around.templateRx userCfg conn.accounting conn.tracker
        around.paddingByte s = (.rejected errorCode, accounting', conn.tracker) :=
    handleSubmit_of_acceptedBy_none sha256d acc hnone
  refine ⟨errorCode, ?_⟩
  rw [submitted, hsubmit]
  rfl

theorem isSome_blockSubmission (share : SubmittedShareInputs) (entry : JobEntry)
    (xprotSeen : Bool) (paddingByte : UInt8) :
    (buildShareSubmission sha256d share entry userCfg xprotSeen
        paddingByte).1.blockSubmission.isSome =
      hashMeetsTarget (sha256d (shareHeader sha256d share entry.jobMeta))
        entry.jobMeta.blockTarget := by
  unfold buildShareSubmission
  dsimp only
  split_ifs with hblock
  · exact hblock.symm
  · exact (Bool.eq_false_iff.mpr hblock).symm

theorem filterMap_eventOf_forwardShareOutcome (accounting : α) (s : Submission)
    (enc : ShareEncoded) :
    (forwardShareOutcome acc blockFound accounting s.share.channelId s.share.sequenceNumber
        (shareOutcome enc)).filterMap (eventOf (.submitShares s)) =
      .forwarded s.share.channelId s.share.sequenceNumber ::
        if enc.blockSubmission.isSome || acc.shouldAcknowledge accounting then
          [.wrote (buildSubmitSharesSuccess acc s.share.channelId accounting)]
        else [] := by
  cases hblock : enc.blockSubmission with
  | some payload =>
      rw [shareOutcome, hblock]
      cases blockFound with
      | true => rfl
      | false => rfl
  | none =>
      rw [shareOutcome, hblock, forwardShareOutcome, Option.isSome_none, Bool.false_or]
      split_ifs
      · rfl
      · rfl

theorem submitted_of_accepted {conn : Connection σ α} {s : Submission} {channel : OpenedChannel}
    {entry : JobEntry} (haccepted : acceptedBy conn.manager conn.tracker s = some (channel, entry))
    (around : Readings) :
    (submitted sha256d acc userCfg blockFound conn around s).1 =
      .forwarded s.share.channelId s.share.sequenceNumber ::
        if hashMeetsTarget (derivedHash sha256d channel entry s) entry.jobMeta.blockTarget ||
            acc.shouldAcknowledge conn.accounting then
          [.wrote (buildSubmitSharesSuccess acc s.share.channelId conn.accounting)]
        else [] := by
  have hsubmit : handleSubmit sha256d acc conn.manager around.templateRx userCfg conn.accounting
      conn.tracker around.paddingByte s = _ := handleSubmit_of_acceptedBy_some sha256d acc haccepted
  rw [submitted, hsubmit]
  dsimp only
  rw [filterMap_eventOf_forwardShareOutcome, isSome_blockSubmission]
  rfl

theorem noneDue_iff_of_accepted {conn : Connection σ α} {s : Submission} {channel : OpenedChannel}
    {entry : JobEntry} (haccepted : acceptedBy conn.manager conn.tracker s = some (channel, entry))
    (around : Readings) :
    NoneDue sha256d acc conn (.frame (.submitShares s) around) ↔
      hashMeetsTarget (derivedHash sha256d channel entry s) entry.jobMeta.blockTarget = false ∧
        acc.shouldAcknowledge conn.accounting = false ∧
        pending s.share.channelId conn.events < 7 := by
  constructor
  · intro hnone
    exact hnone channel entry haccepted
  · rintro hdue channel' entry' haccepted'
    obtain ⟨rfl, rfl⟩ := Prod.mk.inj (Option.some.inj (haccepted.symm.trans haccepted'))
    exact hdue

variable {acc}

theorem recorded_connectionStep {recorded : α → List UInt32}
    (hreports : ReportsRecorded acc recorded)
    {conn next : Connection σ α} {a : ConnectionAction} (hnone : recorded conn.accounting = [])
    (hstep : connectionStep sha256d alloc acc userCfg blockFound conn a = some next) :
    recorded next.accounting = [] := by
  cases connectionStep_cases sha256d alloc acc userCfg blockFound hstep with
  | submitted s around answer hanswer =>
      subst hanswer
      rcases accounting_handleSubmit sha256d acc conn.manager around.templateRx userCfg
        conn.accounting conn.tracker around.paddingByte s with hsame | ⟨errorCode, hrejected⟩
      · exact (congrArg recorded hsame).trans hnone
      · calc
          recorded _ = recorded (acc.incrementRejectedShares errorCode conn.accounting) :=
            congrArg recorded hrejected
          _ = recorded conn.accounting := hreports.recorded_incrementRejectedShares _ _
          _ = [] := hnone
  | _ => exact hnone

theorem not_reconciled_of_unrecorded {recorded : α → List UInt32}
    (hreports : ReportsRecorded acc recorded) {accounting : α} (hnone : recorded accounting = [])
    (events : List ConnectionEvent) (channelId sequenceNumber : UInt32) :
    ¬ Reconciled (events ++ [.forwarded channelId sequenceNumber,
      .wrote (buildSubmitSharesSuccess acc channelId accounting)]) := by
  intro hreconciled
  rw [List.append_cons] at hreconciled
  have hcount := hreconciled.of_concat rfl
  rw [hreports.batchAccepted, hnone, pending_concat, notePending, if_pos rfl] at hcount
  cases hcount

theorem reconciled_step_iff {recorded : α → List UInt32} (hreports : ReportsRecorded acc recorded)
    {conn next : Connection σ α} {a : ConnectionAction} (hnone : recorded conn.accounting = [])
    (hreconciled : Reconciled conn.events)
    (hstep : connectionStep sha256d alloc acc userCfg blockFound conn a = some next) :
    Reconciled next.events ↔ NoneDue sha256d acc conn a := by
  cases connectionStep_cases sha256d alloc acc userCfg blockFound hstep with
  | opened kind msg around opened hopened =>
      subst hopened
      exact iff_of_true (reconciled_append_wrote hreconciled
        (isStreamFrame_openChannel sha256d alloc kind _ _ msg)) trivial
  | closed => exact iff_of_true hreconciled trivial
  | updated msg around =>
      refine iff_of_true (reconciled_wrote hreconciled ?_) trivial
      rcases handleUpdateChannel_cases msg conn.manager.minHashrateThreshold
          conn.manager.minTargetLe with ⟨errorCode, herror⟩ | ⟨target, htarget⟩
      · rw [herror]
        rfl
      · rw [htarget]
        rfl
  | customJobRefused => exact iff_of_true (reconciled_wrote hreconciled rfl) trivial
  | templateChanged template ids updated hupdated =>
      subst hupdated
      exact iff_of_true (reconciled_append_wrote hreconciled
        (isStreamFrame_onTemplateUpdate sha256d template _ ids)) trivial
  | trackerChanged => exact iff_of_true hreconciled trivial
  | submitted s around answer hanswer =>
      subst hanswer
      cases haccepted : acceptedBy conn.manager conn.tracker s with
      | none =>
          obtain ⟨errorCode, hevents⟩ := submitted_of_rejected sha256d acc userCfg blockFound
            haccepted around
          rw [hevents]
          refine iff_of_true (reconciled_wrote hreconciled rfl) ?_
          intro channel entry hsome
          rw [haccepted] at hsome
          cases hsome
      | some found =>
          obtain ⟨channel, entry⟩ := found
          rw [submitted_of_accepted sha256d acc userCfg blockFound haccepted around]
          rw [noneDue_iff_of_accepted sha256d acc haccepted]
          split_ifs with hdue
          · refine iff_of_false (not_reconciled_of_unrecorded hreports hnone _ _ _) ?_
            rintro ⟨hhash, hbatch, -⟩
            rw [hhash, hbatch] at hdue
            cases hdue
          · obtain ⟨hhash, hbatch⟩ := Bool.or_eq_false_iff.mp (Bool.eq_false_iff.mpr hdue)
            rw [reconciled_forwarded_iff hreconciled]
            simp only [hhash, hbatch, true_and]

/-- The acknowledgements of a run are right throughout exactly if none is ever due or sent. -/
theorem reconciled_throughout_iff {recorded : α → List UInt32}
    (hreports : ReportsRecorded acc recorded) (m : Manager σ) {accounting : α}
    (hfresh : recorded accounting = []) (tracker : Tracker) (actions : List ConnectionAction) :
    let start : Connection σ α := { manager := m, accounting, tracker, events := [] }
    Throughout (connectionStep sha256d alloc acc userCfg blockFound)
        (fun conn => Reconciled conn.events) start actions ↔
      Guarded (connectionStep sha256d alloc acc userCfg blockFound) (NoneDue sha256d acc) start
        actions :=
  throughout_iff_guarded (fun conn => recorded conn.accounting = [])
    (fun _ _ _ hnone hstep =>
      recorded_connectionStep sha256d alloc userCfg blockFound hreports hnone hstep)
    (fun _ _ _ hnone hreconciled hstep =>
      reconciled_step_iff sha256d alloc userCfg blockFound hreports hnone hreconciled hstep)
    hfresh reconciled_nil actions

end Runs

def firstConnection : Connection ℕ Unit where
  manager := emptyManager
  accounting := ()
  tracker := {}
  events := []

def plainReadings (sha256d : Bytes → Bytes32) : Readings where
  templateRx := some (plainState sha256d BlockTemplate.emptyTemplate)
  seedTemplate := some (plainState sha256d BlockTemplate.emptyTemplate)
  paddingByte := 0
  upstreamOpen := true

def openAndSubmit (sha256d : Bytes → Bytes32) : List ConnectionAction :=
  [.frame (.openMiningChannel .extended plainOpenRequest) (plainReadings sha256d),
    .frame (.submitShares firstShare) (plainReadings sha256d)]

def plainUserConfig : ShareUserConfig where
  poolAddress := "pool"
  passFullUsers := false
  passWorkers := false

theorem reportsRecorded_plainAccounting : ReportsRecorded plainAccounting fun _ => [] where
  batchAccepted _ := rfl
  lastSequenceNumber _ _ hlast := by cases hlast
  recorded_incrementRejectedShares _ _ := rfl

theorem first_share_reconciled :
    let hash : Bytes → Bytes32 := fun _ => ByteVec.fill 32 0xFE
    Throughout (connectionStep hash countingAllocator plainAccounting plainUserConfig false)
      (fun conn => Reconciled conn.events) firstConnection (openAndSubmit hash) :=
  (reconciled_throughout_iff _ countingAllocator plainUserConfig false
    reportsRecorded_plainAccounting emptyManager rfl {} _).mpr (by decide +kernel)

theorem block_acknowledged_as_no_share :
    let hash : Bytes → Bytes32 := fun _ => ByteVec.fill 32 0
    ReportsRecorded plainAccounting (fun _ => []) ∧
      ¬ Throughout (connectionStep hash countingAllocator plainAccounting plainUserConfig false)
        (fun conn => Reconciled conn.events) firstConnection (openAndSubmit hash) := by
  refine ⟨reportsRecorded_plainAccounting, not_throughout_of_runActions (fun conn =>
    conn.events.getLast? = some (.wrote (.submitSharesSuccess 1 0 0 0)) ∧
      pending 1 conn.events.dropLast = 1) (by decide +kernel) ?_⟩
  intro conn hconn hreconciled
  obtain ⟨hlast, hpending⟩ := of_decide_eq_true hconn
  rw [← List.dropLast_append_getLast? _ hlast] at hreconciled
  have hcount := hreconciled.of_concat rfl
  rw [hpending] at hcount
  cases hcount

end DatumGateway.ShareAcknowledgements
