import DatumGateway.RpcResponses
import DatumGateway.TransitionSystem
import Mathlib.Data.List.Nodup

namespace DatumGateway.BlockSubmits

open DatumGateway.NotifyPatches (Value)
open DatumGateway.RpcResponses
open DatumGateway.TransitionSystem

inductive SubmitError where
  | primary (source : RpcError)

/-- `extra` is the target if it is not the primary. -/
inductive NodeCall where
  | submitblock (extra : Option ℕ) (hexBlock : String)
  | preciousblock (blockhashHex : String)
  deriving DecidableEq

/-- What `submit` waits for. -/
inductive SubmitPhase where
  | primary
  /-- For all tasks of the extras. -/
  | fanout
  | precious
  | returned (result : Except SubmitError Unit)

def SubmitPhase.joined : SubmitPhase → Bool
  | .primary => false
  | .fanout => false
  | .precious => true
  | .returned result => result.isOk

/-- A call of `submit`, with the calls that it and its tasks have made. -/
structure BlockSubmit where
  phase : SubmitPhase := .primary
  calls : List NodeCall
  primaryAnswer : Option (Except RpcError Value) := none
  asked : List ℕ := []
  answered : List ℕ := []

inductive SubmitAction where
  | primaryAnswers (answer : Except RpcError Value)
  | extraCalls (extraIdx : ℕ)
  | extraAnswers (extraIdx : ℕ) (answer : Except RpcError Value)
  | tasksJoined
  | preciousAnswers (answer : Except RpcError Value)

section Steps

variable (extras : ℕ) (blockHex blockHashHex : String)

def startSubmit : BlockSubmit where
  calls := [.submitblock none blockHex]

def callPrecious (s : BlockSubmit) : BlockSubmit :=
  { s with phase := .precious, calls := s.calls ++ [.preciousblock blockHashHex] }

/-- The answers of the extras and the last one are logged if they are errors, and ignored. -/
def submitStep (s : BlockSubmit) (a : SubmitAction) : Option BlockSubmit :=
  match s.phase, a with
  | .primary, .primaryAnswers answer =>
      let s := { s with primaryAnswer := some answer }
      match submitblockResult answer with
      | .error e => some { s with phase := .returned (.error (.primary e)) }
      | .ok () =>
          some (if extras = 0 then callPrecious blockHashHex s else { s with phase := .fanout })
  | .fanout, .extraCalls extraIdx =>
      if extraIdx < extras ∧ extraIdx ∉ s.asked then
        some { s with
          asked := s.asked ++ [extraIdx]
          calls := s.calls ++ [.submitblock (some extraIdx) blockHex] }
      else none
  | .fanout, .extraAnswers extraIdx _ =>
      if extraIdx ∈ s.asked ∧ extraIdx ∉ s.answered then
        some { s with answered := s.answered ++ [extraIdx] }
      else none
  | .fanout, .tasksJoined =>
      if ∀ i < extras, i ∈ s.answered then some (callPrecious blockHashHex s) else none
  | .precious, .preciousAnswers _ => some { s with phase := .returned (.ok ()) }
  | _, _ => none

/-- What an action does, and when it can happen. -/
inductive SubmitStep (s : BlockSubmit) : SubmitAction → BlockSubmit → Prop where
  | rejected (answer : Except RpcError Value) (e : RpcError) (hphase : s.phase = .primary)
      (hresult : submitblockResult answer = .error e) :
      SubmitStep s (.primaryAnswers answer)
        { s with primaryAnswer := some answer, phase := .returned (.error (.primary e)) }
  | accepted (answer : Except RpcError Value) (hphase : s.phase = .primary)
      (hresult : submitblockResult answer = .ok ()) :
      SubmitStep s (.primaryAnswers answer)
        { s with primaryAnswer := some answer, phase := .fanout }
  | acceptedAlone (answer : Except RpcError Value) (hphase : s.phase = .primary)
      (hresult : submitblockResult answer = .ok ()) (hextras : extras = 0) :
      SubmitStep s (.primaryAnswers answer)
        (callPrecious blockHashHex { s with primaryAnswer := some answer })
  | extraCalls (extraIdx : ℕ) (hphase : s.phase = .fanout) (hlt : extraIdx < extras)
      (hasked : extraIdx ∉ s.asked) :
      SubmitStep s (.extraCalls extraIdx)
        { s with
          asked := s.asked ++ [extraIdx]
          calls := s.calls ++ [.submitblock (some extraIdx) blockHex] }
  | extraAnswers (extraIdx : ℕ) (answer : Except RpcError Value) (hphase : s.phase = .fanout)
      (hasked : extraIdx ∈ s.asked) (hanswered : extraIdx ∉ s.answered) :
      SubmitStep s (.extraAnswers extraIdx answer)
        { s with answered := s.answered ++ [extraIdx] }
  | tasksJoined (hphase : s.phase = .fanout) (hanswered : ∀ i < extras, i ∈ s.answered) :
      SubmitStep s .tasksJoined (callPrecious blockHashHex s)
  | preciousAnswers (answer : Except RpcError Value) (hphase : s.phase = .precious) :
      SubmitStep s (.preciousAnswers answer) { s with phase := .returned (.ok ()) }

variable {extras blockHex blockHashHex}

theorem submitStep_cases {s t : BlockSubmit} {a : SubmitAction}
    (hstep : submitStep extras blockHex blockHashHex s a = some t) :
    SubmitStep extras blockHex blockHashHex s a t := by
  unfold submitStep at hstep
  split at hstep
  · rename_i answer hphase
    dsimp only at hstep
    split at hstep
    · rename_i e hresult
      obtain rfl := Option.some.inj hstep
      exact .rejected answer e hphase hresult
    · rename_i hresult
      split_ifs at hstep with hextras
      · obtain rfl := Option.some.inj hstep
        exact .acceptedAlone answer hphase hresult hextras
      · obtain rfl := Option.some.inj hstep
        exact .accepted answer hphase hresult
  · rename_i extraIdx hphase
    obtain ⟨⟨hlt, hasked⟩, hstep⟩ := Option.ite_none_right_eq_some.mp hstep
    obtain rfl := Option.some.inj hstep
    exact .extraCalls extraIdx hphase hlt hasked
  · rename_i extraIdx answer hphase
    obtain ⟨⟨hasked, hanswered⟩, hstep⟩ := Option.ite_none_right_eq_some.mp hstep
    obtain rfl := Option.some.inj hstep
    exact .extraAnswers extraIdx answer hphase hasked hanswered
  · rename_i hphase
    obtain ⟨hanswered, hstep⟩ := Option.ite_none_right_eq_some.mp hstep
    obtain rfl := Option.some.inj hstep
    exact .tasksJoined hphase hanswered
  · rename_i answer hphase
    obtain rfl := Option.some.inj hstep
    exact .preciousAnswers answer hphase
  · cases hstep

/-- What the primary has said, phase by phase. -/
def PrimarySaid (s : BlockSubmit) : Prop :=
  match s.phase with
  | .primary => s.primaryAnswer = none ∧ s.asked = []
  | .returned (.error (.primary e)) =>
      (∃ answer, s.primaryAnswer = some answer ∧ submitblockResult answer = .error e) ∧
        s.asked = []
  | _ => ∃ answer, s.primaryAnswer = some answer ∧ submitblockResult answer = .ok ()

variable (extras blockHex blockHashHex) in
/-- The calls are one to the primary, one to each of some extras, and the last one if all tasks
are joined. -/
structure Submitting (s : BlockSubmit) : Prop where
  calls : s.calls = .submitblock none blockHex ::
    s.asked.map (fun i => .submitblock (some i) blockHex) ++
      if s.phase.joined then [.preciousblock blockHashHex] else []
  askedNodup : s.asked.Nodup
  askedLt : ∀ i ∈ s.asked, i < extras
  answeredNodup : s.answered.Nodup
  answeredAsked : s.answered ⊆ s.asked
  joined : s.phase.joined = true → ∀ i < extras, i ∈ s.answered
  primarySaid : PrimarySaid s

theorem submitting_start : Submitting extras blockHex blockHashHex (startSubmit blockHex) where
  calls := rfl
  askedNodup := List.nodup_nil
  askedLt := by simp [startSubmit]
  answeredNodup := List.nodup_nil
  answeredAsked := List.nil_subset _
  joined := by simp [startSubmit, SubmitPhase.joined]
  primarySaid := ⟨rfl, rfl⟩

theorem Submitting.step {s t : BlockSubmit} {a : SubmitAction}
    (hs : Submitting extras blockHex blockHashHex s)
    (hstep : submitStep extras blockHex blockHashHex s a = some t) :
    Submitting extras blockHex blockHashHex t := by
  have hcalls := hs.calls
  have hsaid := hs.primarySaid
  cases submitStep_cases hstep with
  | rejected answer e hphase hresult =>
      rw [hphase] at hcalls
      rw [PrimarySaid, hphase] at hsaid
      exact { hs with
        calls := hcalls
        joined := fun hjoined => by cases hjoined
        primarySaid := ⟨⟨answer, rfl, hresult⟩, hsaid.2⟩ }
  | accepted answer hphase hresult =>
      rw [hphase] at hcalls
      exact { hs with
        calls := hcalls
        joined := fun hjoined => by cases hjoined
        primarySaid := ⟨answer, rfl, hresult⟩ }
  | acceptedAlone answer hphase hresult hextras =>
      rw [hphase] at hcalls
      exact { hs with
        calls := by simp [callPrecious, hcalls, SubmitPhase.joined]
        joined := fun _ i hi => absurd hi (by omega)
        primarySaid := ⟨answer, rfl, hresult⟩ }
  | extraCalls extraIdx hphase hlt hasked =>
      rw [PrimarySaid, hphase] at hsaid
      exact
        { calls := by simp [hcalls, hphase, SubmitPhase.joined]
          askedNodup := hs.askedNodup.append (List.nodup_singleton _)
            (List.disjoint_singleton.mpr hasked)
          askedLt := by
            simp only [List.mem_append, List.mem_singleton]
            rintro i (hi | rfl)
            · exact hs.askedLt i hi
            · exact hlt
          answeredNodup := hs.answeredNodup
          answeredAsked := List.Subset.trans hs.answeredAsked (List.subset_append_left _ _)
          joined := hs.joined
          primarySaid := by
            rw [PrimarySaid, hphase]
            exact hsaid }
  | extraAnswers extraIdx answer hphase hasked hanswered =>
      exact { hs with
        answeredNodup := hs.answeredNodup.append (List.nodup_singleton _)
          (List.disjoint_singleton.mpr hanswered)
        answeredAsked := List.append_subset.mpr
          ⟨hs.answeredAsked, List.cons_subset.mpr ⟨hasked, List.nil_subset _⟩⟩
        joined := fun hjoined i hi => List.mem_append_left _ (hs.joined hjoined i hi) }
  | tasksJoined hphase hanswered =>
      rw [PrimarySaid, hphase] at hsaid
      exact { hs with
        calls := by simp [callPrecious, hcalls, hphase, SubmitPhase.joined]
        joined := fun _ => hanswered
        primarySaid := hsaid }
  | preciousAnswers answer hphase =>
      rw [hphase] at hcalls
      rw [PrimarySaid, hphase] at hsaid
      exact { hs with
        calls := hcalls
        joined := fun _ => hs.joined (by rw [hphase]; rfl)
        primarySaid := hsaid }

theorem Submitting.length_asked_le {s : BlockSubmit}
    (hs : Submitting extras blockHex blockHashHex s) : s.asked.length ≤ extras := by
  have hsubset : s.asked ⊆ List.range extras := fun i hi => List.mem_range.mpr (hs.askedLt i hi)
  simpa using (hs.askedNodup.subperm hsubset).length_le

theorem Submitting.length_answered_le {s : BlockSubmit}
    (hs : Submitting extras blockHex blockHashHex s) : s.answered.length ≤ s.asked.length :=
  (hs.answeredNodup.subperm hs.answeredAsked).length_le

variable (extras) in
/-- The steps that `submit` has still before it. -/
def remaining (s : BlockSubmit) : ℕ :=
  match s.phase with
  | .primary => 2 * extras + 3
  | .fanout => 2 * extras + 2 - (s.asked.length + s.answered.length)
  | .precious => 1
  | .returned _ => 0

theorem Submitting.remaining_lt {s t : BlockSubmit} {a : SubmitAction}
    (hs : Submitting extras blockHex blockHashHex s)
    (hstep : submitStep extras blockHex blockHashHex s a = some t) :
    remaining extras t < remaining extras s := by
  have ht := hs.step hstep
  have hasked := ht.length_asked_le
  have hanswered := ht.length_answered_le
  cases submitStep_cases hstep with
  | rejected answer e hphase hresult => simp [remaining, hphase]
  | accepted answer hphase hresult =>
      simp only [remaining, hphase]
      omega
  | acceptedAlone answer hphase hresult hextras => simp [remaining, callPrecious, hphase]
  | extraCalls extraIdx hphase hlt hnew =>
      simp only [List.length_append, List.length_singleton] at hasked hanswered
      simp only [remaining, hphase, List.length_append, List.length_singleton]
      omega
  | extraAnswers extraIdx answer hphase _ hnew =>
      simp only [List.length_append, List.length_singleton] at hasked hanswered
      simp only [remaining, hphase, List.length_append, List.length_singleton]
      omega
  | tasksJoined hphase hjoined =>
      simp only [remaining, callPrecious, hphase] at hasked hanswered ⊢
      omega
  | preciousAnswers answer hphase => simp [remaining, hphase]

theorem returned_or_step (s : BlockSubmit) :
    (∃ result, s.phase = .returned result) ∨
      ∃ a t, submitStep extras blockHex blockHashHex s a = some t := by
  cases hphase : s.phase with
  | primary =>
      refine Or.inr ⟨.primaryAnswers (.ok .null), ?_⟩
      simp [submitStep, hphase, submitblockResult]
  | fanout =>
      right
      by_cases hjoined : ∀ i < extras, i ∈ s.answered
      · refine ⟨.tasksJoined, callPrecious blockHashHex s, ?_⟩
        simp only [submitStep, hphase]
        exact if_pos hjoined
      · simp only [not_forall] at hjoined
        obtain ⟨i, hlt, hanswered⟩ := hjoined
        by_cases hasked : i ∈ s.asked
        · refine ⟨.extraAnswers i (.ok .null), Option.isSome_iff_exists.mp ?_⟩
          simp [submitStep, hphase, hasked, hanswered]
        · refine ⟨.extraCalls i, Option.isSome_iff_exists.mp ?_⟩
          simp [submitStep, hphase, hlt, hasked]
  | precious =>
      refine Or.inr ⟨.preciousAnswers (.ok .null), Option.isSome_iff_exists.mp ?_⟩
      simp [submitStep, hphase]
  | returned result => exact Or.inl ⟨result, rfl⟩

variable (extras blockHex blockHashHex) in
/-- The calls of a submission that has returned, as its result says. -/
def CallsOf (s : BlockSubmit) : Except SubmitError Unit → Prop
  | .error (.primary e) =>
      (∃ answer, s.primaryAnswer = some answer ∧ submitblockResult answer = .error e) ∧
        s.calls = [.submitblock none blockHex]
  | .ok () =>
      (∃ answer, s.primaryAnswer = some answer ∧ submitblockResult answer = .ok ()) ∧
        ∃ order : List ℕ, order.Perm (List.range extras) ∧
          s.calls = .submitblock none blockHex ::
            order.map (fun i => .submitblock (some i) blockHex) ++ [.preciousblock blockHashHex]

theorem Submitting.callsOf {s : BlockSubmit} {result : Except SubmitError Unit}
    (hs : Submitting extras blockHex blockHashHex s) (hreturned : s.phase = .returned result) :
    CallsOf extras blockHex blockHashHex s result := by
  have hcalls := hs.calls
  have hsaid := hs.primarySaid
  rw [hreturned] at hcalls
  rw [PrimarySaid, hreturned] at hsaid
  rcases result with ⟨⟨e⟩⟩ | ⟨⟩
  · refine ⟨hsaid.1, ?_⟩
    rw [hcalls, hsaid.2]
    rfl
  · refine ⟨hsaid, s.asked, ?_, hcalls⟩
    apply (List.perm_ext_iff_of_nodup hs.askedNodup List.nodup_range).mpr
    intro i
    rw [List.mem_range]
    refine ⟨hs.askedLt i, fun hlt => hs.answeredAsked (hs.joined ?_ i hlt)⟩
    rw [hreturned]
    rfl

/-- In every order of answers, `submit` returns after at most `2 * extras + 3` of them.  If the
primary takes the block, it returns without an error, having told each extra once and then the
primary that the block is precious; else it returns the primary's error and has told nobody. -/
theorem block_submit_returns (extras : ℕ) (blockHex blockHashHex : String)
    (actions : List SubmitAction) (s : BlockSubmit)
    (hrun : runActions (submitStep extras blockHex blockHashHex) (startSubmit blockHex) actions =
      some s) :
    actions.length ≤ 2 * extras + 3 ∧
      (∃ t result, Reachable (submitStep extras blockHex blockHashHex) s t ∧
        t.phase = .returned result) ∧
      ∀ result, s.phase = .returned result → CallsOf extras blockHex blockHashHex s result := by
  have hkeep : ∀ s a t, Submitting extras blockHex blockHashHex s →
      submitStep extras blockHex blockHashHex s a = some t →
        Submitting extras blockHex blockHashHex t := fun _ _ _ hs hstep => hs.step hstep
  have hlower : ∀ s a t, Submitting extras blockHex blockHashHex s →
      submitStep extras blockHex blockHashHex s a = some t →
        remaining extras t < remaining extras s := fun _ _ _ hs hstep => hs.remaining_lt hstep
  have hs : Submitting extras blockHex blockHashHex s :=
    (reachable_of_runActions actions hrun).invariant submitting_start hkeep
  refine ⟨?_, ?_, fun result hreturned => hs.callsOf hreturned⟩
  · have hlength := length_add_measure_le hkeep hlower submitting_start hrun
    exact (Nat.le_add_right _ _).trans hlength
  · obtain ⟨t, hreachable, result, hreturned⟩ :=
      exists_reachable_goal hkeep hlower (fun s _ => returned_or_step s) hs
    exact ⟨t, result, hreachable, hreturned⟩

end Steps

/-- Two extras, one of which fails, and a primary that does not know the last call. -/
theorem block_submit_returns_past_failures :
    let actions : List SubmitAction :=
      [.primaryAnswers (.ok .null), .extraCalls 1, .extraCalls 0, .extraAnswers 0 (.error .http),
        .extraAnswers 1 (.ok .null), .tasksJoined, .preciousAnswers (.error .http)]
    ∃ s, runActions (submitStep 2 "00" "ff") (startSubmit "00") actions = some s ∧
      actions.length ≤ 2 * 2 + 3 ∧ CallsOf 2 "00" "ff" s (.ok ()) := by
  intro actions
  let s : BlockSubmit :=
    { phase := .returned (.ok ())
      calls := [.submitblock none "00", .submitblock (some 1) "00", .submitblock (some 0) "00",
        .preciousblock "ff"]
      primaryAnswer := some (.ok .null)
      asked := [1, 0]
      answered := [0, 1] }
  have hrun : runActions (submitStep 2 "00" "ff") (startSubmit "00") actions = some s := rfl
  have hreturns := block_submit_returns 2 "00" "ff" actions s hrun
  exact ⟨s, hrun, hreturns.1, hreturns.2.2 (.ok ()) rfl⟩

end DatumGateway.BlockSubmits
