import DatumGateway.MerkleBranches
import Mathlib.Data.Fintype.EquivFin
import Mathlib.Data.Set.Function
import Mathlib.Logic.Function.Basic

/-!
Where the collected siblings are the siblings of the tree: exactly when the pairs
of leaves right of the first one are all equal.  For other leaves a hash that
follows one path through the tree, level by level, tells the two apart.
-/

namespace DatumGateway.MerkleBranchSeparation

open DatumGateway.ByteString
open DatumGateway.BlockTemplate
open DatumGateway.MerkleTree
open DatumGateway.MerkleBranches

theorem driftSiblings_replicate {α : Type*} (node : α → α → α) (n : ℕ) (x : α) :
    driftSiblings node (List.replicate n x) = leftSiblings node (List.replicate n x) := by
  induction n using Nat.strong_induction_on generalizing x with
  | _ n ih =>
      cases n with
      | zero => simp
      | succ n =>
          have hdown := pairDown_replicate node (n + 1) x
          rw [List.replicate_succ] at hdown
          rw [List.replicate_succ, driftSiblings_cons, leftSiblings_cons, hdown,
            pairUp_replicate, ih _ (by omega)]

/-- The node of the drifted list that stands where node `j` of the tree stands. -/
def driftIndex : ℕ → ℕ
  | 0 => 0
  | j + 1 => 2 * driftIndex (j / 2) + j % 2

theorem driftIndex_lt {j : ℕ} (hj : 0 < j) : driftIndex j < j := by
  induction j using driftIndex.induct with
  | case1 => omega
  | case2 j ih =>
      rw [driftIndex]
      rcases Nat.eq_zero_or_pos (j / 2) with hzero | hpos
      · rw [hzero, driftIndex]
        omega
      · have := ih hpos
        omega

theorem driftIndex_le (j : ℕ) : driftIndex j ≤ j := by
  rcases Nat.eq_zero_or_pos j with rfl | hj
  · simp [driftIndex]
  · exact (driftIndex_lt hj).le

def select (right x y : Bool) : Bool :=
  if right then y else x

theorem getElem?_pairUp_select {ys : List Bool} {j : ℕ} (hj : ys[j]? = some true) :
    (pairUp (select (decide (j % 2 = 1))) ys)[j / 2]? = some true := by
  have hjlt : j < ys.length := (List.getElem?_eq_some_iff.mp hj).1
  rw [getElem?_pairUp]
  rcases Nat.mod_two_eq_zero_or_one j with hmod | hmod
  · have heven : 2 * (j / 2) = j := by omega
    rw [heven, hj]
    simp [select, hmod]
  · have hodd : 2 * (j / 2) + 1 = j := by omega
    rw [hodd, hj, List.getElem?_eq_getElem (show 2 * (j / 2) < ys.length by omega)]
    simp [select, hmod]

theorem getElem?_pairDown_select {zs : List Bool} {j : ℕ}
    (hlt : 2 * driftIndex (j / 2) + 1 < zs.length)
    (hdrift : zs[driftIndex (j + 1)]? = some false) :
    (pairDown (select (decide (j % 2 = 1))) zs)[driftIndex (j / 2)]? = some false := by
  rw [driftIndex] at hdrift
  rw [getElem?_pairDown, List.getElem?_eq_getElem hlt,
    List.getElem?_eq_getElem (show 2 * driftIndex (j / 2) < zs.length by omega)]
  rcases Nat.mod_two_eq_zero_or_one j with hmod | hmod
  · rw [hmod, Nat.add_zero, List.getElem?_eq_getElem (by omega)] at hdrift
    simpa [select, hmod] using hdrift
  · rw [hmod, List.getElem?_eq_getElem hlt] at hdrift
    simpa [select, hmod] using hdrift

section Tagged

/-! Nodes tagged with their level, and an operation that selects one child. -/

variable {α : Type*} (node : α → α → α) (tag : ℕ → Bool → α) (path : ℕ → Bool)

/-- On the levels from `lo` up to `hi` the operation selects the child on the path. -/
def Selects (lo hi : ℕ) : Prop :=
  ∀ l, lo ≤ l → l < hi → ∀ x y, node (tag l x) (tag l y) = tag (l + 1) (select (path l) x y)

variable {node tag path}

theorem Selects.mono {lo hi lo' hi' : ℕ} (h : Selects node tag path lo hi)
    (hlo : lo ≤ lo') (hhi : hi' ≤ hi) : Selects node tag path lo' hi' :=
  fun l hl hl' => h l (by omega) (by omega)

theorem foldl_leftSiblings_cons {l : ℕ}
    (hnode : ∀ x y, node (tag l x) (tag l y) = tag (l + 1) (select (path l) x y))
    (a y : Bool) (ys : List Bool) :
    (leftSiblings node ((y :: ys).map (tag l))).foldl node (tag l a) =
      (leftSiblings node ((pairUp (select (path l)) ys).map (tag (l + 1)))).foldl node
        (tag (l + 1) (select (path l) a y)) := by
  rw [List.map_cons, leftSiblings_cons, List.foldl_cons, hnode,
    pairUp_map node (select (path l)) (tag l) (tag (l + 1)) hnode]

theorem foldl_driftSiblings_cons {l : ℕ}
    (hnode : ∀ x y, node (tag l x) (tag l y) = tag (l + 1) (select (path l) x y))
    (b z : Bool) (zs : List Bool) :
    (driftSiblings node ((z :: zs).map (tag l))).foldl node (tag l b) =
      (driftSiblings node ((pairDown (select (path l)) (z :: zs)).map (tag (l + 1)))).foldl node
        (tag (l + 1) (select (path l) b z)) := by
  have hdown := pairDown_map node (select (path l)) (tag l) (tag (l + 1)) hnode (z :: zs)
  rw [List.map_cons] at hdown ⊢
  rw [driftSiblings_cons, List.foldl_cons, hnode, hdown]

theorem foldl_siblings_keep (n : ℕ) :
    ∀ (l : ℕ) (tree drift : List Bool) (a b : Bool), tree.length = n → drift.length = n →
      Selects node tag path l (l + n) → (∀ i, l ≤ i → path i = false) →
      ∃ l' ≤ l + n,
        (leftSiblings node (tree.map (tag l))).foldl node (tag l a) = tag l' a ∧
        (driftSiblings node (drift.map (tag l))).foldl node (tag l b) = tag l' b := by
  induction n using Nat.strong_induction_on with
  | _ n ih =>
      intro l tree drift a b htree hdrift hselects hpath
      match tree, drift, htree, hdrift with
      | [], [], htree, _ =>
          exact ⟨l, by omega, by simp, by simp⟩
      | y :: ys, z :: zs, htree, hdrift =>
          simp only [List.length_cons] at htree hdrift
          have hnode := hselects l le_rfl (by omega)
          have hlevel : path l = false := hpath l le_rfl
          rw [foldl_leftSiblings_cons hnode, foldl_driftSiblings_cons hnode, hlevel]
          apply ih (n / 2) (by omega) (l + 1) _ _ a b ?_ ?_
            (hselects.mono (by omega) (by omega)) (fun i hi => hpath i (by omega)) |>.imp
          · rintro l' ⟨hl', hfolds⟩
            exact ⟨by omega, hfolds⟩
          · rw [length_pairUp]
            omega
          · rw [length_pairDown, List.length_cons, hdrift]

/-- Following the path to a node that the tree and the drifted list label
differently, the two folds end differently. -/
theorem foldl_siblings_separate (j : ℕ) :
    ∀ (l : ℕ) (tree drift : List Bool) (a b : Bool), tree.length = drift.length →
      Selects node tag path l (l + tree.length) →
      (∀ i, path (l + i) = (j + 1).testBit i) →
      tree[j]? = some true → drift[driftIndex j]? = some false →
      ∃ l' ≤ l + tree.length,
        (leftSiblings node (tree.map (tag l))).foldl node (tag l a) = tag l' true ∧
        (driftSiblings node (drift.map (tag l))).foldl node (tag l b) = tag l' false := by
  induction j using driftIndex.induct with
  | case1 =>
      intro l tree drift a b hlen hselects hpath htree hdrift
      match tree, drift, hlen with
      | y :: ys, z :: zs, hlen =>
          simp only [List.length_cons] at hlen hselects ⊢
          have hy : y = true := by simpa using htree
          have hz : z = false := by simpa [driftIndex] using hdrift
          have hlevel : path l = true := by simpa using hpath 0
          have hkeep : ∀ i, l + 1 ≤ i → path i = false := by
            intro i hi
            obtain ⟨k, rfl⟩ : ∃ k, i = l + (k + 1) := ⟨i - l - 1, by omega⟩
            rw [hpath, Nat.testBit_succ]
            simp
          have hnode := hselects l le_rfl (by omega)
          rw [foldl_leftSiblings_cons hnode, foldl_driftSiblings_cons hnode, hlevel, hy, hz]
          apply foldl_siblings_keep ((ys.length + 1) / 2) (l + 1) _ _ true false ?_ ?_
            (hselects.mono (by omega) (by omega)) hkeep |>.imp
          · rintro l' ⟨hl', hfolds⟩
            exact ⟨by omega, hfolds⟩
          · rw [length_pairUp]
          · rw [length_pairDown, List.length_cons]
            omega
  | case2 j ih =>
      intro l tree drift a b hlen hselects hpath htree hdrift
      match tree, drift, hlen with
      | y :: ys, z :: zs, hlen =>
          simp only [List.length_cons] at hlen hselects ⊢
          have hlevel : path l = decide (j % 2 = 1) := by
            have h := hpath 0
            rw [Nat.add_zero, Nat.testBit_zero] at h
            rw [h]
            congr 1
            exact propext ⟨fun _ => by omega, fun _ => by omega⟩
          have hj : ys[j]? = some true := by simpa using htree
          have hjlt : j < ys.length := (List.getElem?_eq_some_iff.mp hj).1
          have hnextTree : (pairUp (select (path l)) ys)[j / 2]? = some true := by
            rw [hlevel]
            exact getElem?_pairUp_select hj
          have hnextDrift :
              (pairDown (select (path l)) (z :: zs))[driftIndex (j / 2)]? = some false := by
            have hdriftLe := driftIndex_le (j / 2)
            rw [hlevel]
            refine getElem?_pairDown_select ?_ hdrift
            rw [List.length_cons]
            omega
          have hlenUp : (pairUp (select (path l)) ys).length = (ys.length + 1) / 2 :=
            length_pairUp _ _
          have hlenDown : (pairDown (select (path l)) (z :: zs)).length = (ys.length + 1) / 2 := by
            rw [length_pairDown, List.length_cons]
            omega
          have hpathNext : ∀ i, path (l + 1 + i) = (j / 2 + 1).testBit i := by
            intro i
            rw [Nat.add_right_comm, Nat.add_assoc, hpath, Nat.testBit_succ]
            congr 1
            omega
          have hnode := hselects l le_rfl (by omega)
          rw [foldl_leftSiblings_cons hnode, foldl_driftSiblings_cons hnode]
          obtain ⟨l', hl', hfolds⟩ := ih (l + 1) (pairUp (select (path l)) ys)
            (pairDown (select (path l)) (z :: zs)) (select (path l) a y) (select (path l) b z)
            (by rw [hlenUp, hlenDown]) (hselects.mono (by omega) (by rw [hlenUp]; omega))
            hpathNext hnextTree hnextDrift
          exact ⟨l', by omega, hfolds⟩

end Tagged

/-- The pairs of neighbouring txids after the first txid are all the same pair;
a last txid without a neighbour counts as paired with itself. -/
def LaterPairsEqual (txids : List Bytes32) : Prop :=
  ∀ p ∈ neighbours txids.tail, ∀ q ∈ neighbours txids.tail, p = q

theorem laterPairsEqual_of_length_le {txids : List Bytes32} (hlen : txids.length ≤ 3) :
    LaterPairsEqual txids := by
  have hcount : (neighbours txids.tail).length ≤ 1 := by
    rw [length_neighbours, List.length_tail]
    omega
  intro p hp q hq
  match neighbours txids.tail, hcount, hp, hq with
  | [r], _, hp, hq =>
      rw [List.mem_singleton.mp hp, List.mem_singleton.mp hq]

/-- Templates never repeat a txid, so from four transactions on the pairs differ. -/
theorem laterPairsEqual_iff_of_nodup {txids : List Bytes32} (hnodup : txids.Nodup) :
    LaterPairsEqual txids ↔ txids.length ≤ 3 := by
  refine ⟨fun hpairs => ?_, laterPairsEqual_of_length_le⟩
  match txids, hnodup, hpairs with
  | [], _, _ => simp
  | [_], _, _ => simp
  | [_, _], _, _ => simp
  | [_, _, _], _, _ => simp
  | _ :: b :: c :: d :: rest, hnodup, hpairs =>
      simp only [List.nodup_cons] at hnodup
      obtain ⟨q, hq, hqd⟩ : ∃ q ∈ neighbours (d :: rest), q.1 = d := by
        cases rest <;> simp [neighbours]
      have heq := hpairs (b, c) (by simp [neighbours]) q (by simp [neighbours, hq])
      have hbd : b = d := by rw [← hqd, ← heq]
      exact (hnodup.2.1 (by simp [hbd])).elim

theorem driftSiblings_eq_of_laterPairsEqual (sha256d : Bytes → Bytes32) {first : Bytes32}
    {rest : List Bytes32} (hpairs : LaterPairsEqual (first :: rest)) :
    driftSiblings (hashPair sha256d) (pairUp (hashPair sha256d) rest) =
      leftSiblings (hashPair sha256d) (pairUp (hashPair sha256d) rest) := by
  rw [pairUp_eq_map_neighbours]
  simp only [LaterPairsEqual, List.tail_cons] at hpairs
  cases hlist : neighbours rest with
  | nil => simp
  | cons p ps =>
      rw [hlist] at hpairs
      have hall : (p :: ps).map (fun q => hashPair sha256d q.1 q.2) =
          List.replicate (p :: ps).length (hashPair sha256d p.1 p.2) := by
        rw [List.eq_replicate_iff]
        refine ⟨List.length_map .., ?_⟩
        intro z hz
        obtain ⟨q, hq, rfl⟩ := List.mem_map.mp hz
        rw [hpairs q hq p (by simp)]
      rw [hall, driftSiblings_replicate]

theorem exists_true_after_drift {labels : List Bool} (hhead : labels[0]? = some false)
    (htrue : true ∈ labels) :
    ∃ j : ℕ, labels[j]? = some true ∧ labels[driftIndex j]? = some false := by
  classical
  have hexists : ∃ j : ℕ, labels[j]? = some true := List.mem_iff_getElem?.mp htrue
  let j := Nat.find hexists
  have hj : labels[j]? = some true := Nat.find_spec hexists
  have hjpos : 0 < j := by
    rcases Nat.eq_zero_or_pos j with hzero | hpos
    · rw [hzero, hhead] at hj
      simp at hj
    · exact hpos
  refine ⟨j, hj, ?_⟩
  -- every label before the first `true` is `false`
  have hlt := driftIndex_lt hjpos
  have hbefore := Nat.find_min hexists hlt
  have hrange : driftIndex j < labels.length :=
    lt_trans hlt (List.getElem?_eq_some_iff.mp hj).1
  rw [List.getElem?_eq_getElem hrange] at hbefore ⊢
  simpa using hbefore

/-- A finite type with room for `n` more values than a set holds has `n`
distinct values outside the set. -/
theorem exists_fresh {α : Type*} [Fintype α] [DecidableEq α] (avoid : Finset α) (n : ℕ)
    (hroom : avoid.card + n ≤ Fintype.card α) (default : α) :
    ∃ tag : ℕ → α, Set.InjOn tag (Set.Iio n) ∧ ∀ i < n, tag i ∉ avoid := by
  have hcompl : n ≤ (Finset.univ \ avoid).card := by
    have hcard := Finset.card_sdiff_add_card_eq_card (Finset.subset_univ avoid)
    rw [Finset.card_univ] at hcard
    omega
  obtain ⟨values, hsub, hcard⟩ := Finset.exists_subset_card_eq hcompl
  let numbering := values.equivFinOfCardEq hcard
  refine ⟨fun i => if hi : i < n then (numbering.symm ⟨i, hi⟩).val else default, ?_, ?_⟩
  · intro i hi j hj hij
    have hi' : i < n := hi
    have hj' : j < n := hj
    simp only [hi', hj', dif_pos] at hij
    simpa using numbering.symm.injective (Subtype.ext hij)
  · intro i hi
    simp only [hi, dif_pos]
    have hmem := hsub (numbering.symm ⟨i, hi⟩).property
    exact (Finset.mem_sdiff.mp hmem).2

theorem exists_selecting_node (leaves : Finset Bytes32) (label : Bytes32 → Bytes32 → Bool)
    (path : ℕ → Bool) (n : ℕ) (hroom : leaves.card + (2 * n + 4) ≤ 256 ^ 32) :
    ∃ (node : Bytes32 → Bytes32 → Bytes32) (tag : ℕ → Bool → Bytes32),
      (∀ a ∈ leaves, ∀ b, node a b = tag 1 (label a b)) ∧
      Selects node tag path 1 (1 + n) ∧
      ∀ l ≤ 1 + n, tag l true ≠ tag l false := by
  classical
  obtain ⟨code, hinj, hfresh⟩ :=
    exists_fresh leaves (2 * n + 4) (by rwa [ByteVec.card_byteVec]) zeroHash
  let decode := Function.invFunOn code (Set.Iio (2 * n + 4))
  have hdecode : ∀ i < 2 * n + 4, decode (code i) = i :=
    fun i hi => hinj.leftInvOn_invFunOn hi
  let tag : ℕ → Bool → Bytes32 := fun l x => code (2 * l + x.toNat)
  let node : Bytes32 → Bytes32 → Bytes32 := fun a b =>
    if a ∈ leaves then tag 1 (label a b)
    else tag (decode a / 2 + 1)
      (select (path (decode a / 2)) (decide (decode a % 2 = 1)) (decide (decode b % 2 = 1)))
  refine ⟨node, tag, fun a ha b => if_pos ha, ?_, ?_⟩
  · intro l hl hl' x y
    have hx := x.toNat_le
    have hy := y.toNat_le
    have hnotMem : tag l x ∉ leaves := hfresh _ (by omega)
    have hdx : decode (tag l x) = 2 * l + x.toNat := hdecode _ (by omega)
    have hdy : decode (tag l y) = 2 * l + y.toNat := hdecode _ (by omega)
    have hhalf : (2 * l + x.toNat) / 2 = l := by omega
    have hxbit : decide ((2 * l + x.toNat) % 2 = 1) = x := by cases x <;> simp
    have hybit : decide ((2 * l + y.toNat) % 2 = 1) = y := by cases y <;> simp
    simp only [node, if_neg hnotMem, hdx, hdy, hhalf, hxbit, hybit]
  · intro l hl heq
    have hindex := hinj (show 2 * l + 1 < 2 * n + 4 by omega)
      (show 2 * l + 0 < 2 * n + 4 by omega) heq
    omega

theorem exists_hash_of_not_laterPairsEqual {first : Bytes32} {rest : List Bytes32}
    (hlen : (first :: rest).length < 2 ^ 64) (hpairs : ¬ LaterPairsEqual (first :: rest)) :
    ∃ sha256d : Bytes → Bytes32,
      (first :: driftSiblings (hashPair sha256d) (pairUp (hashPair sha256d) rest)).foldl
          (hashPair sha256d) first ≠
        (leftSiblings (hashPair sha256d) (first :: rest)).foldl (hashPair sha256d) first := by
  simp only [LaterPairsEqual, List.tail_cons] at hpairs
  obtain ⟨p₀, ps, hps⟩ := List.exists_cons_of_ne_nil
    (show neighbours rest ≠ [] by intro hnil; simp [hnil] at hpairs)
  let label : Bytes32 → Bytes32 → Bool := fun a b => decide ((a, b) ≠ p₀)
  let labels := (neighbours rest).map fun p => label p.1 p.2
  have htrue : true ∈ labels := by
    by_contra hnone
    have hsame : ∀ p ∈ neighbours rest, p = p₀ := by
      intro p hp
      by_contra hne
      exact hnone (List.mem_map.mpr ⟨p, hp, by simp [label, hne]⟩)
    exact hpairs fun p hp q hq => by rw [hsame p hp, hsame q hq]
  obtain ⟨j, hj, hdrift⟩ :=
    exists_true_after_drift (by simp [labels, label, hps]) htrue
  have hcount : labels.length = (rest.length + 1) / 2 := by
    rw [List.length_map, length_neighbours]
  have hroom : (first :: rest).toFinset.card + (2 * labels.length + 4) ≤ 256 ^ 32 := by
    have hcard := List.toFinset_card_le (first :: rest)
    have hbig : 2 ^ 64 + 2 ^ 64 + 4 ≤ 256 ^ 32 := by decide
    simp only [List.length_cons] at hlen hcard
    omega
  obtain ⟨node, tag, hleaf, hselects, htag⟩ := exists_selecting_node (first :: rest).toFinset
    label (fun l => (j + 1).testBit (l - 1)) labels.length hroom
  obtain ⟨l', hl', htree, hdrifted⟩ := foldl_siblings_separate j 1 labels labels
    (label first first) (label first first) rfl hselects (fun i => by simp) hj hdrift
  have hleaves : pairUp node rest = labels.map (tag 1) := by
    rw [pairUp_eq_map_neighbours, List.map_map]
    apply List.map_congr_left
    intro p hp
    exact hleaf _ (List.mem_toFinset.mpr (List.mem_cons_of_mem _ (mem_of_mem_neighbours hp))) _
  obtain ⟨sha256d, hsha⟩ := exists_hashPair_eq node
  refine ⟨sha256d, ?_⟩
  rw [hsha, leftSiblings_cons, List.foldl_cons, List.foldl_cons,
    hleaf first (by simp), hleaves, htree, hdrifted]
  exact (htag l' hl').symm

/-- The branches of a template lead to the Merkle root of its block, whatever
the hash function and the coinbase, exactly when the pairs of txids after the
first one are all equal. -/
theorem foldMerkleBranches_eq_root_iff (template : Template) (txids : List Bytes32)
    (htxids : TxidsDecode template txids) (hlen : txids.length < 2 ^ 64) :
    (∀ (sha256d : Bytes → Bytes32) (coinbaseTxid : Bytes32),
      foldMerkleBranches sha256d coinbaseTxid (buildMerkleBranches sha256d template) =
        root (hashPair sha256d) zeroHash (coinbaseTxid :: txids)) ↔
      LaterPairsEqual txids := by
  have hmap := map_txidInternal htxids
  cases txids with
  | nil =>
      refine ⟨fun _ => laterPairsEqual_of_length_le (by simp), fun _ sha256d coinbaseTxid => ?_⟩
      rw [buildMerkleBranches_nil sha256d hmap, foldMerkleBranches, List.foldl_nil, root]
  | cons first rest =>
      simp only [buildMerkleBranches_cons _ template first rest hmap,
        foldMerkleBranches_map_reverse, ← foldl_leftSiblings]
      constructor
      · intro hroot
        by_contra hpairs
        obtain ⟨sha256d, hdiffer⟩ := exists_hash_of_not_laterPairsEqual hlen hpairs
        exact hdiffer (hroot sha256d first)
      · intro hpairs sha256d coinbaseTxid
        rw [driftSiblings_eq_of_laterPairsEqual sha256d hpairs, leftSiblings_cons]

theorem exists_hash_fold_ne {coinbase coinbase' : Bytes} (hne : coinbase ≠ coinbase') :
    ∃ sha256d : Bytes → Bytes32, ∀ branches branches',
      foldMerkleBranches sha256d (sha256d coinbase) branches ≠
        foldMerkleBranches sha256d (sha256d coinbase') branches' := by
  classical
  -- two values that begin neither coinbase, kept by the hash of any longer input
  let half : Bytes → Bytes32 := fun bs => (ByteVec.ofBytes? 32 (bs.take 32)).getD zeroHash
  obtain ⟨value, hinj, hfresh⟩ := exists_fresh {half coinbase, half coinbase'} 2
    (by
      have hcard := Finset.card_le_two (a := half coinbase) (b := half coinbase')
      rw [ByteVec.card_byteVec]
      omega) zeroHash
  let sha256d : Bytes → Bytes32 := fun bs =>
    if bs = coinbase then value 0 else if bs = coinbase' then value 1 else half bs
  have hhalf : ∀ left right : Bytes32, half (left.toList ++ right.toList) = left := by
    intro left right
    simp [half, List.take_left' left.toList_length]
  have hpair : ∀ i < 2, ∀ right, hashPair sha256d (value i) right = value i := by
    intro i hi right
    have hvalue := hfresh i hi
    simp only [Finset.mem_insert, Finset.mem_singleton, not_or] at hvalue
    have hfirst : (value i).toList ++ right.toList ≠ coinbase := by
      rintro heq
      exact hvalue.1 (by rw [← heq, hhalf])
    have hsecond : (value i).toList ++ right.toList ≠ coinbase' := by
      rintro heq
      exact hvalue.2 (by rw [← heq, hhalf])
    simp only [hashPair, sha256d, if_neg hfirst, if_neg hsecond, hhalf]
  have hfold : ∀ i < 2, ∀ branches, foldMerkleBranches sha256d (value i) branches = value i := by
    intro i hi branches
    induction branches with
    | nil => rfl
    | cons branch branches ih =>
        rw [foldMerkleBranches, List.foldl_cons, hpair i hi, ← foldMerkleBranches, ih]
  refine ⟨sha256d, fun branches branches' heq => ?_⟩
  have hzero : sha256d coinbase = value 0 := if_pos rfl
  have hone : sha256d coinbase' = value 1 := by simp [sha256d, hne.symm]
  rw [hzero, hone, hfold 0 (by omega), hfold 1 (by omega)] at heq
  exact absurd (hinj (by simp) (by simp) heq) (by decide)

def uniformTransaction (b : UInt8) : TemplateTransaction where
  data := ""
  txid := Hex.encode (List.replicate 32 b)
  sigops := 0
  weight := 0

def uniformTemplate (bytes : List UInt8) : Template :=
  { emptyTemplate with transactions := bytes.map uniformTransaction }

theorem txidsDecode_uniformTemplate (bytes : List UInt8) :
    TxidsDecode (uniformTemplate bytes) (bytes.map (ByteVec.fill 32)) := by
  unfold TxidsDecode uniformTemplate
  induction bytes with
  | nil => exact List.Forall₂.nil
  | cons b bytes ih =>
      refine List.Forall₂.cons ?_ ih
      simp [uniformTransaction]

/-- A stand-in hash that weighs the first byte of each half of its input. -/
def weighHash (bs : Bytes) : Bytes32 :=
  ByteVec.fill 32 (2 * bs.getD 0 0 + 3 * bs.getD 32 0)

theorem hashPair_weighHash_fill (a b : UInt8) :
    hashPair weighHash (ByteVec.fill 32 a) (ByteVec.fill 32 b) =
      ByteVec.fill 32 (2 * a + 3 * b) := by
  simp [hashPair, weighHash]

theorem foldMerkleBranches_uniform_four_ne_root :
    TxidsDecode (uniformTemplate [1, 2, 3, 4]) ([1, 2, 3, 4].map (ByteVec.fill 32)) ∧
      foldMerkleBranches weighHash (ByteVec.fill 32 9)
          (buildMerkleBranches weighHash (uniformTemplate [1, 2, 3, 4])) ≠
        root (hashPair weighHash) zeroHash
          (ByteVec.fill 32 9 :: [1, 2, 3, 4].map (ByteVec.fill 32)) := by
  have htxids := txidsDecode_uniformTemplate [1, 2, 3, 4]
  refine ⟨htxids, ?_⟩
  rw [buildMerkleBranches_cons weighHash _ _ _ (map_txidInternal htxids),
    foldMerkleBranches_map_reverse, ← foldl_leftSiblings]
  simp only [List.map_cons, List.map_nil, pairUp, leftSiblings_cons, leftSiblings_nil,
    driftSiblings_cons, driftSiblings_nil, pairDown, List.foldl_cons, List.foldl_nil,
    hashPair_weighHash_fill]
  decide

theorem foldMerkleBranches_uniform_three_eq_root :
    (∀ (sha256d : Bytes → Bytes32) (coinbaseTxid : Bytes32),
      foldMerkleBranches sha256d coinbaseTxid
          (buildMerkleBranches sha256d (uniformTemplate [1, 2, 3])) =
        root (hashPair sha256d) zeroHash
          (coinbaseTxid :: [1, 2, 3].map (ByteVec.fill 32))) ↔
      LaterPairsEqual ([1, 2, 3].map (ByteVec.fill 32)) :=
  foldMerkleBranches_eq_root_iff (uniformTemplate [1, 2, 3]) _
    (txidsDecode_uniformTemplate [1, 2, 3]) (by decide)

end DatumGateway.MerkleBranchSeparation
