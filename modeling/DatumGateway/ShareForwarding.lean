import DatumGateway.MiningListener
import DatumGateway.QueueSchedules

namespace DatumGateway.ShareForwarding

open DatumGateway.ByteString
open DatumGateway.ChannelManager
open DatumGateway.QueueSchedules
open DatumGateway.ShareEncoder
open DatumGateway.SharePath

inductive Effect where
  /-- The block-found callback, or the `submitblock` task of the SV1 relay. -/
  | startSubmit (payload : BlockSubmissionPayload)
  | reply (out : MiningOut)
  deriving DecidableEq

abbrev ForwardStep := TaskStep Bytes Effect

def buildSubmitSharesSuccess {α : Type} (acc : ShareAccounting α) (channelId : UInt32)
    (accounting : α) : MiningOut :=
  .submitSharesSuccess channelId (acc.getLastShareSequenceNumber accounting)
    (acc.getLastBatchAccepted accounting) (acc.getLastBatchWorkSum accounting)

def startSubmit (blockFound : Bool) (payload : BlockSubmissionPayload) : List ForwardStep :=
  if blockFound then [.act (.startSubmit payload)] else []

/-- The steps of an SV2 connection after a share; `blockFound` tells whether a block submitter
is wired. -/
def forwardShareOutcome {α : Type} (acc : ShareAccounting α) (blockFound : Bool) (accounting : α)
    (channelId sequenceNumber : UInt32) : ShareOutcome → List ForwardStep
  | .valid body =>
      .send body ::
        (if acc.shouldAcknowledge accounting then
          [.act (.reply (buildSubmitSharesSuccess acc channelId accounting))]
        else [])
  | .blockFound body blockPayload =>
      .send body :: startSubmit blockFound blockPayload ++
        [.act (.reply (buildSubmitSharesSuccess acc channelId accounting))]
  | .rejected errorCode =>
      [.act (.reply (.submitSharesError channelId sequenceNumber errorCode))]

def relayShareSteps (blockSubmitter : Bool) (enc : ShareEncoded) : List ForwardStep :=
  (match enc.blockSubmission with
    | some payload => startSubmit blockSubmitter payload
    | none => []) ++ [.send enc.body]

inductive Protocol where
  | sv1
  | sv2
  deriving DecidableEq, Repr

def blockShareSteps {α : Type} (acc : ShareAccounting α) (accounting : α)
    (channelId sequenceNumber : UInt32) (body : Bytes) (payload : BlockSubmissionPayload) :
    Protocol → List ForwardStep
  | .sv1 => relayShareSteps true { body, blockSubmission := some payload }
  | .sv2 => forwardShareOutcome acc true accounting channelId sequenceNumber
      (shareOutcome { body, blockSubmission := some payload })

def startedPayload : Event Bytes Effect → Option BlockSubmissionPayload
  | .acted (.startSubmit payload) => some payload
  | _ => none

def submittedBy (schedule : ℕ → QueueState) (n : ℕ) (task : List ForwardStep) :
    List BlockSubmissionPayload :=
  (eventsBy schedule n task).filterMap startedPayload

section Submission

variable {α : Type} (acc : ShareAccounting α) (accounting : α)
variable (channelId sequenceNumber : UInt32) (body : Bytes) (payload : BlockSubmissionPayload)

theorem submittedBy_sv1 (schedule : ℕ → QueueState) (n : ℕ) :
    submittedBy schedule n
      (blockShareSteps acc accounting channelId sequenceNumber body payload .sv1) =
        [payload] := by
  have hsend : (eventsBy schedule n [.send body]).filterMap startedPayload = [] := by
    by_cases hadmitted : Admitted schedule n
    · have hevents := eventsBy_send_of_admitted hadmitted body ([] : List Effect)
      rw [List.map_nil] at hevents
      rw [hevents]
      rfl
    · rcases eventsBy_send_of_not_admitted hadmitted body [] with hevents | hevents
      · rw [hevents]
        rfl
      · rw [hevents]
        rfl
  simp only [submittedBy, blockShareSteps, relayShareSteps, startSubmit, if_true,
    List.singleton_append, eventsBy_act, List.filterMap_cons, startedPayload, hsend]

/-- On an SV2 connection the submission waits until the share is in the queue. -/
theorem submittedBy_sv2_of_admitted {schedule : ℕ → QueueState} {n : ℕ}
    (hadmitted : Admitted schedule n) :
    submittedBy schedule n
      (blockShareSteps acc accounting channelId sequenceNumber body payload .sv2) =
        [payload] := by
  have hevents := eventsBy_send_of_admitted hadmitted body [Effect.startSubmit payload,
    Effect.reply (buildSubmitSharesSuccess acc channelId accounting)]
  simp only [List.map_cons, List.map_nil] at hevents
  simp only [submittedBy, blockShareSteps, shareOutcome, forwardShareOutcome, startSubmit,
    if_true, List.cons_append, List.nil_append, hevents]
  rfl

theorem submittedBy_sv2_of_not_admitted {schedule : ℕ → QueueState} {n : ℕ}
    (hadmitted : ¬ Admitted schedule n) :
    submittedBy schedule n
      (blockShareSteps acc accounting channelId sequenceNumber body payload .sv2) = [] := by
  simp only [submittedBy, blockShareSteps, shareOutcome, forwardShareOutcome, List.cons_append]
  rcases eventsBy_send_of_not_admitted hadmitted body _ with hevents | hevents
  · rw [hevents]
    rfl
  · rw [hevents]
    rfl

/-- The submission of a block has been started, once, at every moment from the encoding of its
share on exactly for the SV1 relay, or if the queue has room for the share at once. -/
theorem submitted_iff (protocol : Protocol) (schedule : ℕ → QueueState) :
    (∀ n, submittedBy schedule n
      (blockShareSteps acc accounting channelId sequenceNumber body payload protocol) =
        [payload]) ↔
      protocol = .sv1 ∨ schedule 0 = .room := by
  cases protocol with
  | sv1 =>
      simp only [true_or, iff_true]
      exact submittedBy_sv1 acc accounting channelId sequenceNumber body payload schedule
  | sv2 =>
      simp only [reduceCtorEq, false_or]
      constructor
      · intro hsubmitted
        by_contra hroom
        have hnone := submittedBy_sv2_of_not_admitted acc accounting channelId sequenceNumber body
          payload (mt admitted_zero_iff.mp hroom)
        rw [hsubmitted 0] at hnone
        cases hnone
      · intro hroom n
        exact submittedBy_sv2_of_admitted acc accounting channelId sequenceNumber body payload
          ⟨0, Nat.zero_le n, hroom, fun j hj => absurd hj (Nat.not_lt_zero j)⟩

end Submission

theorem block_never_submitted_if_closed :
    ∃ schedule : ℕ → QueueState, (∀ n, schedule n = .closed) ∧
      ∀ n, submittedBy schedule n (blockShareSteps plainAccounting () 1 1 [0x27]
        { blockHex := "00", blockHashHex := "00" } .sv2) = [] := by
  refine ⟨fun _ => .closed, fun _ => rfl, ?_⟩
  intro n
  apply submittedBy_sv2_of_not_admitted
  rintro ⟨i, -, hroom, -⟩
  cases hroom

end DatumGateway.ShareForwarding
