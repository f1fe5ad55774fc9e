import Mathlib.Data.List.Basic

/-!
A task that sends into a bounded queue, against every way the queue may behave
over time.  A send waits while the queue is full and ends the task once the queue
is closed; everything else the task does happens at once.
-/

namespace DatumGateway.QueueSchedules

inductive QueueState where
  | room
  | full
  | closed
  deriving DecidableEq, Repr

/-- A task sends messages of type `μ` and does other things of type `ε`. -/
inductive TaskStep (μ ε : Type*) where
  | send (message : μ)
  | act (effect : ε)

inductive Event (μ ε : Type*) where
  | sent (message : μ)
  | sendFailed
  | acted (effect : ε)
  deriving DecidableEq

variable {μ ε : Type*}

/-- What a task does at one moment, and what is left of it. -/
def poll (q : QueueState) : List (TaskStep μ ε) → List (Event μ ε) × List (TaskStep μ ε)
  | [] => ([], [])
  | .act effect :: rest =>
      let (events, rest) := poll q rest
      (.acted effect :: events, rest)
  | .send message :: rest =>
      match q with
      | .room =>
          let (events, rest) := poll q rest
          (.sent message :: events, rest)
      | .full => ([], .send message :: rest)
      | .closed => ([.sendFailed], [])

/-- What a task has done up to moment `n`. -/
def eventsBy (schedule : ℕ → QueueState) : ℕ → List (TaskStep μ ε) → List (Event μ ε)
  | 0, task => (poll (schedule 0) task).1
  | n + 1, task =>
      let (events, rest) := poll (schedule 0) task
      events ++ eventsBy (fun i => schedule (i + 1)) n rest

@[simp] theorem eventsBy_nil (schedule : ℕ → QueueState) (n : ℕ) :
    eventsBy schedule n ([] : List (TaskStep μ ε)) = [] := by
  induction n generalizing schedule with
  | zero => rfl
  | succ n ih => simp [eventsBy, poll, ih]

@[simp] theorem eventsBy_act (schedule : ℕ → QueueState) (n : ℕ) (effect : ε)
    (rest : List (TaskStep μ ε)) :
    eventsBy schedule n (.act effect :: rest) = .acted effect :: eventsBy schedule n rest := by
  cases n with
  | zero => rfl
  | succ n => simp [eventsBy, poll]

theorem eventsBy_send_room {schedule : ℕ → QueueState} (hroom : schedule 0 = .room) (n : ℕ)
    (message : μ) (rest : List (TaskStep μ ε)) :
    eventsBy schedule n (.send message :: rest) = .sent message :: eventsBy schedule n rest := by
  cases n with
  | zero => simp [eventsBy, poll, hroom]
  | succ n => simp [eventsBy, poll, hroom]

theorem eventsBy_send_closed {schedule : ℕ → QueueState} (hclosed : schedule 0 = .closed) (n : ℕ)
    (message : μ) (rest : List (TaskStep μ ε)) :
    eventsBy schedule n (.send message :: rest) = [.sendFailed] := by
  cases n with
  | zero => simp [eventsBy, poll, hclosed]
  | succ n => simp [eventsBy, poll, hclosed]

theorem eventsBy_zero_send_full {schedule : ℕ → QueueState} (hfull : schedule 0 = .full)
    (message : μ) (rest : List (TaskStep μ ε)) :
    eventsBy schedule 0 (.send message :: rest) = [] := by
  simp [eventsBy, poll, hfull]

theorem eventsBy_succ_send_full {schedule : ℕ → QueueState} (hfull : schedule 0 = .full) (n : ℕ)
    (message : μ) (rest : List (TaskStep μ ε)) :
    eventsBy schedule (n + 1) (.send message :: rest) =
      eventsBy (fun i => schedule (i + 1)) n (.send message :: rest) := by
  simp [eventsBy, poll, hfull]

/-- A send that waits from moment `0` on is done by moment `n`. -/
def Admitted (schedule : ℕ → QueueState) (n : ℕ) : Prop :=
  ∃ i ≤ n, schedule i = .room ∧ ∀ j < i, schedule j = .full

theorem admitted_zero_iff {schedule : ℕ → QueueState} :
    Admitted schedule 0 ↔ schedule 0 = .room := by
  constructor
  · rintro ⟨i, hi, hroom, -⟩
    obtain rfl := Nat.le_zero.mp hi
    exact hroom
  · intro hroom
    exact ⟨0, Nat.le_refl 0, hroom, fun j hj => absurd hj (Nat.not_lt_zero j)⟩

theorem admitted_succ_iff {schedule : ℕ → QueueState} {n : ℕ} :
    Admitted schedule (n + 1) ↔
      schedule 0 = .room ∨ schedule 0 = .full ∧ Admitted (fun i => schedule (i + 1)) n := by
  constructor
  · rintro ⟨i, hi, hroom, hfull⟩
    cases i with
    | zero => exact Or.inl hroom
    | succ i =>
        refine Or.inr ⟨hfull 0 (Nat.succ_pos i), i, Nat.le_of_succ_le_succ hi, hroom, ?_⟩
        exact fun j hj => hfull (j + 1) (Nat.succ_lt_succ hj)
  · rintro (hroom | ⟨hfull, i, hi, hroom, hbefore⟩)
    · exact ⟨0, Nat.zero_le _, hroom, fun j hj => absurd hj (Nat.not_lt_zero j)⟩
    · refine ⟨i + 1, Nat.succ_le_succ hi, hroom, ?_⟩
      rintro (_ | j) hj
      · exact hfull
      · exact hbefore j (Nat.lt_of_succ_lt_succ hj)

@[simp] theorem eventsBy_acts (schedule : ℕ → QueueState) (n : ℕ) (effects : List ε) :
    eventsBy schedule n (effects.map fun effect => (.act effect : TaskStep μ ε)) =
      effects.map Event.acted := by
  induction effects with
  | nil => simp
  | cons effect effects ih => simp [ih]

theorem eventsBy_send_of_admitted {schedule : ℕ → QueueState} {n : ℕ}
    (hadmitted : Admitted schedule n) (message : μ) (effects : List ε) :
    eventsBy schedule n (.send message :: effects.map .act) =
      .sent message :: effects.map Event.acted := by
  induction n generalizing schedule with
  | zero => rw [eventsBy_send_room (admitted_zero_iff.mp hadmitted), eventsBy_acts]
  | succ n ih =>
      rcases admitted_succ_iff.mp hadmitted with hroom | ⟨hfull, hlater⟩
      · rw [eventsBy_send_room hroom, eventsBy_acts]
      · rw [eventsBy_succ_send_full hfull, ih hlater]

theorem eventsBy_send_of_not_admitted {schedule : ℕ → QueueState} {n : ℕ}
    (hadmitted : ¬ Admitted schedule n) (message : μ) (rest : List (TaskStep μ ε)) :
    eventsBy schedule n (.send message :: rest) = [] ∨
      eventsBy schedule n (.send message :: rest) = [.sendFailed] := by
  induction n generalizing schedule with
  | zero =>
      cases hstate : schedule 0 with
      | room => exact absurd (admitted_zero_iff.mpr hstate) hadmitted
      | full => exact Or.inl (eventsBy_zero_send_full hstate message rest)
      | closed => exact Or.inr (eventsBy_send_closed hstate 0 message rest)
  | succ n ih =>
      cases hstate : schedule 0 with
      | room => exact absurd (admitted_succ_iff.mpr (Or.inl hstate)) hadmitted
      | full =>
          rw [eventsBy_succ_send_full hstate]
          exact ih fun hlater => hadmitted (admitted_succ_iff.mpr (Or.inr ⟨hstate, hlater⟩))
      | closed => exact Or.inr (eventsBy_send_closed hstate _ message rest)

end DatumGateway.QueueSchedules
