import Mathlib.Tactic.Common

/-!
Channels that hold their last value only, seen from a receiver: it can wait for a
value that it has not seen yet, or for the sender to be gone.
-/

namespace DatumGateway.WatchChannels

structure Receiver (α : Type*) where
  value : α
  unseen : Bool := false
  senderAlive : Bool := true

inductive Changed where
  | ok
  | closed
  deriving DecidableEq, Repr

namespace Receiver

variable {α : Type*}

def send (r : Receiver α) (value : α) : Option (Receiver α) :=
  if r.senderAlive then some { r with value, unseen := true } else none

def dropSender (r : Receiver α) : Receiver α :=
  { r with senderAlive := false }

def markSeen (r : Receiver α) : Receiver α :=
  { r with unseen := false }

/-- What a wait for a change ends with at once; none if it goes on. A value that was not
seen comes before the loss of the sender. -/
def changed (r : Receiver α) : Option Changed :=
  if r.unseen then some .ok
  else if r.senderAlive then none
  else some .closed

/-- The values that are still to be seen. -/
def backlog (r : Receiver α) : ℕ :=
  r.unseen.toNat

@[simp] theorem markSeen_value (r : Receiver α) : r.markSeen.value = r.value := rfl

@[simp] theorem markSeen_unseen (r : Receiver α) : r.markSeen.unseen = false := rfl

@[simp] theorem markSeen_senderAlive (r : Receiver α) :
    r.markSeen.senderAlive = r.senderAlive := rfl

@[simp] theorem backlog_markSeen (r : Receiver α) : r.markSeen.backlog = 0 := rfl

theorem changed_eq_ok_iff (r : Receiver α) : r.changed = some .ok ↔ r.unseen = true := by
  cases hunseen : r.unseen with
  | true => simp [changed, hunseen]
  | false => cases halive : r.senderAlive <;> simp [changed, hunseen, halive]

theorem changed_eq_closed_iff (r : Receiver α) :
    r.changed = some .closed ↔ r.unseen = false ∧ r.senderAlive = false := by
  cases hunseen : r.unseen with
  | true => simp [changed, hunseen]
  | false => cases halive : r.senderAlive <;> simp [changed, hunseen, halive]

theorem backlog_of_ok {r : Receiver α} (hok : r.changed = some .ok) :
    r.markSeen.backlog + 1 = r.backlog := by
  rw [backlog_markSeen, backlog, (changed_eq_ok_iff r).mp hok]
  rfl

end Receiver

end DatumGateway.WatchChannels
