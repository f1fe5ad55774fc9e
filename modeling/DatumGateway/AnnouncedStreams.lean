import Mathlib.Data.List.Basic

/-!
Streams of messages that rely on announcements which earlier messages carry.
-/

namespace DatumGateway.AnnouncedStreams

variable {μ β : Type*} (announces reliesOn : μ → List β)

/-- Everything that the messages announce. -/
def announced (messages : List μ) : List β :=
  messages.flatMap announces

/-- What a message relies on and does not announce itself. -/
def leftOut [DecidableEq β] (m : μ) : List β :=
  (reliesOn m).filter fun x => x ∉ announces m

/-- Each message finds what it relies on in itself, or in a message before it, or in `seen`. -/
def InOrder (seen : List β) : List μ → Prop
  | [] => True
  | m :: messages =>
      (∀ x ∈ reliesOn m, x ∈ seen ++ announces m) ∧ InOrder (seen ++ announces m) messages

instance InOrder.decidable [DecidableEq β] (seen : List β) (messages : List μ) :
    Decidable (InOrder announces reliesOn seen messages) :=
  match messages with
  | [] => isTrue trivial
  | m :: messages =>
      have := InOrder.decidable (seen ++ announces m) messages
      inferInstanceAs (Decidable (_ ∧ _))

variable {announces reliesOn}

theorem mem_announced_iff {messages : List μ} {x : β} :
    x ∈ announced announces messages ↔ ∃ m ∈ messages, x ∈ announces m :=
  List.mem_flatMap

theorem announced_append (first second : List μ) :
    announced announces (first ++ second) =
      announced announces first ++ announced announces second :=
  List.flatMap_append

theorem announced_subset {first second : List μ} (hsubset : first ⊆ second) :
    announced announces first ⊆ announced announces second := by
  intro x hx
  obtain ⟨m, hm, hx⟩ := mem_announced_iff.mp hx
  exact mem_announced_iff.mpr ⟨m, hsubset hm, hx⟩

theorem announced_append_subset {first second second' : List μ}
    (hsubset : ∀ m ∈ second, m ∈ second') :
    announced announces (first ++ second) ⊆ announced announces (first ++ second') := by
  apply announced_subset
  intro m hm
  rw [List.mem_append] at hm ⊢
  exact hm.imp_right (hsubset m)

theorem mem_leftOut_iff [DecidableEq β] {m : μ} {x : β} :
    x ∈ leftOut announces reliesOn m ↔ x ∈ reliesOn m ∧ x ∉ announces m := by
  rw [leftOut, List.mem_filter, decide_eq_true_eq]

theorem inOrder_append_iff {seen : List β} {first second : List μ} :
    InOrder announces reliesOn seen (first ++ second) ↔
      InOrder announces reliesOn seen first ∧
        InOrder announces reliesOn (seen ++ announced announces first) second := by
  induction first generalizing seen with
  | nil => simp [InOrder, announced]
  | cons m first ih =>
      rw [List.cons_append, InOrder, InOrder, ih, and_assoc]
      simp [announced]

theorem InOrder.of_append {seen : List β} {first second : List μ}
    (hinOrder : InOrder announces reliesOn seen (first ++ second)) :
    InOrder announces reliesOn seen first :=
  (inOrder_append_iff.mp hinOrder).1

theorem InOrder.snoc [DecidableEq β] {messages : List μ} {m : μ}
    (hinOrder : InOrder announces reliesOn [] messages)
    (hleftOut : ∀ x ∈ leftOut announces reliesOn m, x ∈ announced announces messages) :
    InOrder announces reliesOn [] (messages ++ [m]) := by
  refine inOrder_append_iff.mpr ⟨hinOrder, ?_, trivial⟩
  intro x hx
  rw [List.nil_append, List.mem_append]
  by_cases hself : x ∈ announces m
  · exact Or.inr hself
  · exact Or.inl (hleftOut x (mem_leftOut_iff.mpr ⟨hx, hself⟩))

theorem inOrder_iff {seen : List β} {messages : List μ} :
    InOrder announces reliesOn seen messages ↔
      ∀ before m after, messages = before ++ m :: after →
        ∀ x ∈ reliesOn m, x ∈ seen ∨ ∃ m' ∈ before ++ [m], x ∈ announces m' := by
  constructor
  · rintro hinOrder before m after rfl x hx
    obtain ⟨-, hm, -⟩ := inOrder_append_iff.mp hinOrder
    have hseen := hm x hx
    rw [List.append_assoc, List.mem_append] at hseen
    refine hseen.imp_right fun hahead => ?_
    apply mem_announced_iff.mp
    rw [announced_append]
    simpa [announced] using hahead
  · intro hall
    induction messages generalizing seen with
    | nil => trivial
    | cons m messages ih =>
        constructor
        · intro x hx
          simpa using hall [] m messages rfl x hx
        · apply ih
          rintro before m' after rfl x hx
          rcases hall (m :: before) m' after rfl x hx with hseen | ⟨m'', hm'', hx⟩
          · exact Or.inl (List.mem_append_left _ hseen)
          · rcases List.mem_cons.mp hm'' with rfl | hm''
            · exact Or.inl (List.mem_append_right _ hx)
            · exact Or.inr ⟨m'', hm'', hx⟩

end DatumGateway.AnnouncedStreams
