import Mathlib.Logic.Relation
import Mathlib.Tactic.Common

/-!
Consumers that take a stream in blocks whose sizes they choose. How the blocks get
together is left open: what a consumer makes of a stream is a function of the stream.
-/

namespace DatumGateway.BlockReaders

structure Consumer (β C : Type*) where
  /-- The size of the next block; none once the consumer has stopped. -/
  blockSize : C → Option ℕ
  feed : C → List β → C
  /-- The stream ends before the block is full. -/
  starve : C → C

structure Progress (β C : Type*) where
  consumer : C
  fed : List β
  unread : List β

variable {β C : Type*} (k : Consumer β C)

def advance (p : Progress β C) : Option (Progress β C) :=
  (k.blockSize p.consumer).map fun n =>
    if p.unread.length < n then { p with consumer := k.starve p.consumer }
    else
      { consumer := k.feed p.consumer (p.unread.take n)
        fed := p.fed ++ p.unread.take n
        unread := p.unread.drop n }

def Follows : Progress β C → Progress β C → Prop :=
  Relation.ReflTransGen fun p q => advance k p = some q

variable {k}

theorem advance_of_full {p : Progress β C} {n : ℕ} (hsize : k.blockSize p.consumer = some n)
    {block rest : List β} (hunread : p.unread = block ++ rest) (hblock : block.length = n) :
    advance k p = some
      { consumer := k.feed p.consumer block, fed := p.fed ++ block, unread := rest } := by
  have hroom : ¬ p.unread.length < n := by
    rw [hunread, List.length_append]
    omega
  simp only [advance, hsize, Option.map_some, if_neg hroom]
  simp only [hunread, List.take_left' hblock, List.drop_left' hblock]

theorem advance_of_short {p : Progress β C} {n : ℕ} (hsize : k.blockSize p.consumer = some n)
    (hshort : p.unread.length < n) :
    advance k p = some { p with consumer := k.starve p.consumer } := by
  simp only [advance, hsize, Option.map_some, if_pos hshort]

theorem Follows.conserves {p q : Progress β C} (hfollows : Follows k p q) :
    q.fed ++ q.unread = p.fed ++ p.unread := by
  induction hfollows with
  | refl => rfl
  | tail _ hlast ih =>
      rw [← ih]
      obtain ⟨n, -, rfl⟩ := Option.map_eq_some_iff.mp hlast
      split_ifs
      · rfl
      · rw [List.append_assoc, List.take_append_drop]

theorem Follows.total {p q r : Progress β C} (hq : Follows k p q) (hr : Follows k p r) :
    Follows k q r ∨ Follows k r q :=
  Relation.ReflTransGen.total_of_right_unique
    (fun _ _ _ hb hc => Option.some.inj (hb.symm.trans hc)) hq hr

theorem Follows.eq_of_stopped {p q : Progress β C} (hfollows : Follows k p q)
    (hstopped : k.blockSize p.consumer = none) : q = p := by
  rcases Relation.ReflTransGen.cases_head hfollows with heq | ⟨r, hr, -⟩
  · exact heq.symm
  · rw [advance, hstopped] at hr
    cases hr

theorem Follows.eq_of_both_stopped {p q r : Progress β C} (hq : Follows k p q)
    (hr : Follows k p r) (hqstopped : k.blockSize q.consumer = none)
    (hrstopped : k.blockSize r.consumer = none) : q = r := by
  rcases hq.total hr with hahead | hahead
  · exact (hahead.eq_of_stopped hqstopped).symm
  · exact hahead.eq_of_stopped hrstopped

end DatumGateway.BlockReaders
