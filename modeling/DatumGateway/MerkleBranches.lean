import DatumGateway.BlockTemplate
import DatumGateway.Hex
import DatumGateway.MerkleTree

namespace DatumGateway.MerkleBranches

open DatumGateway.ByteString
open DatumGateway.BlockTemplate
open DatumGateway.MerkleTree

variable (sha256d : Bytes → Bytes32)

def zeroHash : Bytes32 := ByteVec.fill 32 0

def hashPair (left right : Bytes32) : Bytes32 :=
  sha256d (left.toList ++ right.toList)

/-- A transaction id in internal byte order; all zero unless it is 32 bytes of hex. -/
def txidInternal (tx : TemplateTransaction) : Bytes32 :=
  let b := ((Hex.decode tx.txid).getD (List.replicate 32 0)).reverse
  (ByteVec.ofBytes? 32 b).getD zeroHash

/-- One pass of the `while` body: the nodes of the next level, with a zero block
at the coinbase position. -/
def nextLevel (currentLevel : List Bytes32) (nextSize : ℕ) : List Bytes32 :=
  (List.range nextSize).map fun i =>
    if i = 0 then zeroHash
    else
      let left := currentLevel.getD (i * 2 - 1) zeroHash
      let rightIdx := i * 2
      let right :=
        if rightIdx < currentLevel.length then currentLevel.getD rightIdx zeroHash
        else currentLevel.getD (i * 2 - 1) zeroHash
      hashPair sha256d left right

def nextSize (effectiveSize : ℕ) : ℕ :=
  let dupLast := effectiveSize % 2 ≠ 0
  let paddedSize := if dupLast then effectiveSize + 1 else effectiveSize
  paddedSize / 2

theorem nextSize_eq (effectiveSize : ℕ) : nextSize effectiveSize = (effectiveSize + 1) / 2 := by
  simp only [nextSize]
  split <;> omega

def branchLoop (currentLevel branch : List Bytes32) (effectiveSize : ℕ) : List Bytes32 :=
  if 1 < effectiveSize then
    let next := nextLevel sha256d currentLevel (nextSize effectiveSize)
    let branch :=
      if 1 < nextSize effectiveSize then branch ++ [next.getD 1 zeroHash] else branch
    branchLoop next branch (nextSize effectiveSize)
  else branch
termination_by effectiveSize
decreasing_by
  rw [nextSize_eq]
  omega

/-- The siblings of the coinbase position from the leaves up, each in display order. -/
def buildMerkleBranches (template : Template) : List Bytes32 :=
  match template.transactions.map txidInternal with
  | [] => []
  | first :: rest =>
      let currentLevel := first :: rest
      (branchLoop sha256d currentLevel [first] (currentLevel.length + 1)).map
        List.Vector.reverse

/-- The fold of the branches, stored in display order, into a coinbase txid. -/
def foldMerkleBranches (coinbaseTxid : Bytes32) (branches : List Bytes32) : Bytes32 :=
  branches.foldl (fun acc sib => hashPair sha256d acc sib.reverse) coinbaseTxid

/-- Consecutive nodes combined from the first one on, a last odd node dropped. -/
def pairDown {α : Type*} (node : α → α → α) : List α → List α
  | x :: y :: rest => node x y :: pairDown node rest
  | _ => []

theorem length_pairDown {α : Type*} (node : α → α → α) (l : List α) :
    (pairDown node l).length = l.length / 2 := by
  induction l using pairDown.induct with
  | case1 x y rest ih =>
      simp only [pairDown, List.length_cons, ih]
      omega
  | case2 l hl =>
      match l, hl with
      | [], _ => simp [pairDown]
      | [x], _ => simp [pairDown]
      | x :: y :: rest, hl => exact (hl x y rest rfl).elim

theorem getElem?_pairDown {α : Type*} (node : α → α → α) (l : List α) (i : ℕ) :
    (pairDown node l)[i]? =
      l[2 * i]?.bind fun x => l[2 * i + 1]?.map fun y => node x y := by
  induction l using pairDown.induct generalizing i with
  | case1 x y rest ih =>
      cases i with
      | zero => rfl
      | succ i => simpa [pairDown, Nat.mul_succ] using ih i
  | case2 l hl =>
      match l, hl with
      | [], _ => simp [pairDown]
      | [x], _ => cases i <;> simp [pairDown, Nat.mul_succ]
      | x :: y :: rest, hl => exact (hl x y rest rfl).elim

theorem pairDown_map {α β : Type*} (node : α → α → α) (op : β → β → β) (f g : β → α)
    (hop : ∀ x y, node (f x) (f y) = g (op x y)) (l : List β) :
    pairDown node (l.map f) = (pairDown op l).map g := by
  apply List.ext_getElem?
  intro i
  simp only [getElem?_pairDown, List.getElem?_map]
  cases l[2 * i]? with
  | none => rfl
  | some x => cases l[2 * i + 1]? <;> simp [hop]

theorem pairDown_replicate {α : Type*} (node : α → α → α) (n : ℕ) (x : α) :
    pairDown node (List.replicate n x) = List.replicate (n / 2) (node x x) := by
  rw [List.eq_replicate_iff]
  refine ⟨by rw [length_pairDown, List.length_replicate], ?_⟩
  intro z hz
  obtain ⟨i, hi⟩ := List.mem_iff_getElem?.mp hz
  simp only [getElem?_pairDown, Option.bind_eq_some_iff, Option.map_eq_some_iff] at hi
  obtain ⟨u, hu, v, hv, rfl⟩ := hi
  rw [List.eq_of_mem_replicate (List.mem_of_getElem? hu),
    List.eq_of_mem_replicate (List.mem_of_getElem? hv)]

/-- The siblings the loop collects above the leaves.  The first node stays in
the list that the next level is built from. -/
def driftSiblings {α : Type*} (node : α → α → α) : List α → List α
  | [] => []
  | y :: ys => y :: driftSiblings node (pairDown node (y :: ys))
termination_by l => l.length
decreasing_by
  rw [length_pairDown]
  simp only [List.length_cons]
  omega

@[simp] theorem driftSiblings_nil {α : Type*} (node : α → α → α) :
    driftSiblings node [] = [] := by
  rw [driftSiblings]

theorem driftSiblings_cons {α : Type*} (node : α → α → α) (y : α) (ys : List α) :
    driftSiblings node (y :: ys) = y :: driftSiblings node (pairDown node (y :: ys)) := by
  rw [driftSiblings]

theorem length_nextLevel (currentLevel : List Bytes32) (size : ℕ) :
    (nextLevel sha256d currentLevel size).length = size := by
  simp [nextLevel]

theorem getElem?_nextLevel_succ (currentLevel : List Bytes32) (size i : ℕ) (hi : i + 1 < size) :
    (nextLevel sha256d currentLevel size)[i + 1]? =
      some (hashPair sha256d (currentLevel.getD (2 * i + 1) zeroHash)
        (currentLevel[2 * i + 2]?.getD (currentLevel.getD (2 * i + 1) zeroHash))) := by
  have hright : (i + 1) * 2 = 2 * i + 2 := by omega
  have hleft : 2 * i + 2 - 1 = 2 * i + 1 := by omega
  simp only [nextLevel, List.getElem?_map, List.getElem?_range hi, Option.map_some,
    Nat.succ_ne_zero, if_false, hright, hleft]
  congr 2
  split
  · rename_i hlt
    rw [List.getD_eq_getElem _ _ hlt, List.getElem?_eq_getElem hlt, Option.getD_some]
  · rename_i hge
    rw [List.getElem?_eq_none (by omega), Option.getD_none]

theorem nextLevel_leaves (first : Bytes32) (rest : List Bytes32) :
    nextLevel sha256d (first :: rest) (nextSize ((first :: rest).length + 1)) =
      zeroHash :: pairUp (hashPair sha256d) rest := by
  rw [nextSize_eq]
  apply List.ext_getElem?
  intro i
  cases i with
  | zero => simp [nextLevel]
  | succ i =>
      simp only [List.getElem?_cons_succ, getElem?_pairUp]
      by_cases hi : 2 * i < rest.length
      · rw [getElem?_nextLevel_succ sha256d _ _ _ (by simp only [List.length_cons]; omega)]
        simp [List.getElem?_eq_getElem hi, List.getD_eq_getElem?_getD]
      · rw [List.getElem?_eq_none (l := nextLevel _ _ _)
            (by rw [length_nextLevel]; simp only [List.length_cons]; omega),
          List.getElem?_eq_none (l := rest) (i := 2 * i) (by omega)]
        rfl

/-- Every later pass starts one node too early, since the list now holds the
coinbase position as well. -/
theorem nextLevel_inner (nodes : List Bytes32) :
    nextLevel sha256d (zeroHash :: nodes) (nextSize (nodes.length + 1)) =
      zeroHash :: pairDown (hashPair sha256d) nodes := by
  rw [nextSize_eq]
  apply List.ext_getElem?
  intro i
  cases i with
  | zero => simp [nextLevel]
  | succ i =>
      simp only [List.getElem?_cons_succ, getElem?_pairDown]
      by_cases hi : 2 * i + 1 < nodes.length
      · have hi' : 2 * i < nodes.length := by omega
        rw [getElem?_nextLevel_succ sha256d _ _ _ (by omega)]
        simp [List.getElem?_eq_getElem hi, List.getElem?_eq_getElem hi',
          List.getD_eq_getElem?_getD]
      · rw [List.getElem?_eq_none (l := nextLevel _ _ _) (by rw [length_nextLevel]; omega),
          List.getElem?_eq_none (l := nodes) (i := 2 * i + 1) (by omega)]
        cases nodes[2 * i]? <;> rfl

theorem branchLoop_inner (nodes branch : List Bytes32) :
    branchLoop sha256d (zeroHash :: nodes) branch (nodes.length + 1) =
      branch ++ (driftSiblings (hashPair sha256d) nodes).drop 1 := by
  induction nodes using driftSiblings.induct (hashPair sha256d) generalizing branch with
  | case1 =>
      rw [branchLoop]
      simp
  | case2 y ys ih =>
      have hsize : nextSize ((y :: ys).length + 1) =
          (pairDown (hashPair sha256d) (y :: ys)).length + 1 := by
        rw [nextSize_eq, length_pairDown]
        omega
      rw [branchLoop, if_pos (by simp), nextLevel_inner, hsize, ih, driftSiblings_cons]
      cases pairDown (hashPair sha256d) (y :: ys) with
      | nil => simp
      | cons z zs => simp [driftSiblings_cons]

theorem buildMerkleBranches_cons (template : Template) (first : Bytes32) (rest : List Bytes32)
    (htxids : template.transactions.map txidInternal = first :: rest) :
    buildMerkleBranches sha256d template =
      (first :: driftSiblings (hashPair sha256d)
        (pairUp (hashPair sha256d) rest)).map List.Vector.reverse := by
  have hsize : nextSize ((first :: rest).length + 1) =
      (pairUp (hashPair sha256d) rest).length + 1 := by
    rw [nextSize_eq, length_pairUp]
    simp only [List.length_cons]
    omega
  simp only [buildMerkleBranches, htxids]
  congr 1
  rw [branchLoop, if_pos (by simp), nextLevel_leaves, hsize, branchLoop_inner]
  cases pairUp (hashPair sha256d) rest with
  | nil => simp
  | cons y ys => simp [driftSiblings_cons]

def TxidsDecode (template : Template) (txids : List Bytes32) : Prop :=
  List.Forall₂ (fun tx txid => Hex.decode tx.txid = some txid.reverse.toList)
    template.transactions txids

theorem map_txidInternal {template : Template} {txids : List Bytes32}
    (htxids : TxidsDecode template txids) :
    template.transactions.map txidInternal = txids := by
  unfold TxidsDecode at htxids
  generalize template.transactions = transactions at htxids ⊢
  induction htxids with
  | nil => rfl
  | cons hdecode _ ih =>
      rw [List.map_cons, ih, txidInternal, hdecode]
      simp

theorem buildMerkleBranches_nil {template : Template}
    (hnil : template.transactions.map txidInternal = []) :
    buildMerkleBranches sha256d template = [] := by
  rw [buildMerkleBranches, hnil]

theorem foldMerkleBranches_map_reverse (coinbaseTxid : Bytes32) (siblings : List Bytes32) :
    foldMerkleBranches sha256d coinbaseTxid (siblings.map List.Vector.reverse) =
      siblings.foldl (hashPair sha256d) coinbaseTxid := by
  simp [foldMerkleBranches, List.foldl_map]

/-- Every operation on 32-byte nodes is the pair hash of some hash function. -/
theorem exists_hashPair_eq (op : Bytes32 → Bytes32 → Bytes32) :
    ∃ sha256d : Bytes → Bytes32, hashPair sha256d = op := by
  let half : Bytes → Bytes32 := fun bs => (ByteVec.ofBytes? 32 bs).getD zeroHash
  refine ⟨fun bs => op (half (bs.take 32)) (half (bs.drop 32)), ?_⟩
  funext left right
  have hlen : left.toList.length = 32 := left.toList_length
  simp [hashPair, half, List.take_left' hlen, List.drop_left' hlen]

end DatumGateway.MerkleBranches
