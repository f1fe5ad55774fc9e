import Mathlib.Data.List.GetD
import Mathlib.Tactic.Common

/-!
Merkle trees with a repeated last node, over any type of nodes and any
combining operation, and the sibling path of the leftmost leaf.
-/

namespace DatumGateway.MerkleTree

variable {α : Type*} (node : α → α → α)

/-- The next level of the tree.  A last node without a neighbour is combined
with itself. -/
def pairUp : List α → List α
  | [] => []
  | [x] => [node x x]
  | x :: y :: rest => node x y :: pairUp rest

theorem length_pairUp (l : List α) : (pairUp node l).length = (l.length + 1) / 2 := by
  induction l using pairUp.induct with
  | case1 => simp [pairUp]
  | case2 x => simp [pairUp]
  | case3 x y rest ih =>
      simp only [pairUp, List.length_cons, ih]
      omega

theorem getElem?_pairUp (l : List α) (i : ℕ) :
    (pairUp node l)[i]? =
      l[2 * i]?.map fun x => node x (l[2 * i + 1]?.getD x) := by
  induction l using pairUp.induct generalizing i with
  | case1 => rfl
  | case2 x =>
      cases i with
      | zero => rfl
      | succ i => simp [pairUp, Nat.mul_succ]
  | case3 x y rest ih =>
      cases i with
      | zero => rfl
      | succ i => simpa [pairUp, Nat.mul_succ] using ih i

theorem pairUp_map {β : Type*} (op : β → β → β) (f g : β → α)
    (hop : ∀ x y, node (f x) (f y) = g (op x y)) (l : List β) :
    pairUp node (l.map f) = (pairUp op l).map g := by
  induction l using pairUp.induct with
  | case1 => rfl
  | case2 x => simp [pairUp, hop]
  | case3 x y rest ih => simp [pairUp, hop, ih]

theorem pairUp_replicate (n : ℕ) (x : α) :
    pairUp node (List.replicate n x) = List.replicate ((n + 1) / 2) (node x x) := by
  rw [List.eq_replicate_iff]
  refine ⟨by rw [length_pairUp, List.length_replicate], ?_⟩
  intro z hz
  obtain ⟨i, hi⟩ := List.mem_iff_getElem?.mp hz
  rw [getElem?_pairUp, Option.map_eq_some_iff] at hi
  obtain ⟨u, hu, hzu⟩ := hi
  have hux : u = x := List.eq_of_mem_replicate (List.mem_of_getElem? hu)
  subst hux
  cases hv : (List.replicate n u)[2 * i + 1]? with
  | none => simpa [hv] using hzu.symm
  | some v =>
      have hvx : v = u := List.eq_of_mem_replicate (List.mem_of_getElem? hv)
      subst hvx
      simpa [hv] using hzu.symm

def neighbours : List α → List (α × α)
  | [] => []
  | [x] => [(x, x)]
  | x :: y :: rest => (x, y) :: neighbours rest

theorem pairUp_eq_map_neighbours (l : List α) :
    pairUp node l = (neighbours l).map fun p => node p.1 p.2 := by
  induction l using pairUp.induct with
  | case1 => rfl
  | case2 x => rfl
  | case3 x y rest ih => simp [pairUp, neighbours, ih]

theorem length_neighbours (l : List α) : (neighbours l).length = (l.length + 1) / 2 := by
  rw [← length_pairUp fun x _ => x, pairUp_eq_map_neighbours, List.length_map]

theorem mem_of_mem_neighbours {l : List α} {p : α × α} (hp : p ∈ neighbours l) : p.1 ∈ l := by
  induction l using pairUp.induct with
  | case1 => simp [neighbours] at hp
  | case2 x =>
      simp only [neighbours, List.mem_singleton] at hp
      simp [hp]
  | case3 x y rest ih =>
      rcases List.mem_cons.mp hp with rfl | hp
      · simp
      · exact List.mem_cons_of_mem _ (List.mem_cons_of_mem _ (ih hp))

/-- The root of the tree over a list of leaves; `empty` for no leaves. -/
def root (empty : α) : List α → α
  | [] => empty
  | [x] => x
  | x :: y :: rest => root empty (pairUp node (x :: y :: rest))
termination_by l => l.length
decreasing_by
  rw [length_pairUp]
  simp only [List.length_cons]
  omega

/-- The siblings on the path from the leftmost leaf to the root, given the
leaves to its right. -/
def leftSiblings : List α → List α
  | [] => []
  | y :: ys => y :: leftSiblings (pairUp node ys)
termination_by l => l.length
decreasing_by
  rw [length_pairUp]
  simp only [List.length_cons]
  omega

@[simp] theorem leftSiblings_nil : leftSiblings node [] = [] := by
  rw [leftSiblings]

theorem leftSiblings_cons (y : α) (ys : List α) :
    leftSiblings node (y :: ys) = y :: leftSiblings node (pairUp node ys) := by
  rw [leftSiblings]

theorem foldl_leftSiblings (empty x : α) (ys : List α) :
    (leftSiblings node ys).foldl node x = root node empty (x :: ys) := by
  induction ys using leftSiblings.induct node generalizing x with
  | case1 => simp [root]
  | case2 y ys ih =>
      rw [leftSiblings_cons, List.foldl_cons, ih, root, pairUp]

end DatumGateway.MerkleTree
