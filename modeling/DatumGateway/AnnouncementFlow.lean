import DatumGateway.AnnouncedStreams
import DatumGateway.UpstreamLink

namespace DatumGateway.AnnouncementFlow

open DatumGateway.AnnouncedStreams
open DatumGateway.ByteString
open DatumGateway.JobTracker
open DatumGateway.ShareEncoder
open DatumGateway.StratumV1Assembler
open DatumGateway.UpstreamLink

/-- What the pool learns from a body: a block under the index it is sent with. -/
inductive Announcement where
  | merkle (datumJobIdx : UInt8) (block : Bytes)
  | coinbase (datumJobIdx coinbaseId : UInt8) (block : Bytes)
  deriving DecidableEq

def merkleOf (m : JobMeta) : Announcement :=
  .merkle m.datumJobIdx (merkleBlock m)

def coinbaseOf (m : JobMeta) : Announcement :=
  .coinbase m.datumJobIdx m.coinbaseId (coinbaseBlock m)

def announces (b : EncodedBody) : List Announcement :=
  (if b.entry.serverHasMerkleBranches then [] else [merkleOf b.entry.jobMeta]) ++
    if sendsCoinbase b.entry b.crossProtocolCoinbaseAlreadySeen then
      [coinbaseOf b.entry.jobMeta] else []

def reliesOn (b : EncodedBody) : List Announcement :=
  [merkleOf b.entry.jobMeta, coinbaseOf b.entry.jobMeta]

/-- Each body of the stream, or one before it, carries its `0x01` block under its job index and
its `0x02` block under its job index and coinbase id. -/
def AnnouncedBeforeUse (written : List EncodedBody) : Prop :=
  ∀ before b after, written = before ++ b :: after →
    (∃ b' ∈ before ++ [b], merkleOf b.entry.jobMeta ∈ announces b') ∧
      ∃ b' ∈ before ++ [b], coinbaseOf b.entry.jobMeta ∈ announces b'

theorem announcedBeforeUse_iff_inOrder {written : List EncodedBody} :
    AnnouncedBeforeUse written ↔ InOrder announces reliesOn [] written := by
  simp [AnnouncedBeforeUse, inOrder_iff, reliesOn]

def Announcement.block : Announcement → Bytes
  | .merkle _ block => block
  | .coinbase _ _ block => block

theorem block_isInfix_bytes {b : EncodedBody} {x : Announcement} (hx : x ∈ announces b) :
    x.block <:+: b.bytes := by
  obtain ⟨share, userCfg, isBlock, paddingByte, hbytes⟩ := b.bytes_eq
  rw [hbytes, shareBody]
  rw [announces, List.mem_append] at hx
  rcases hx with hx | hx
  · split_ifs at hx with hsent
    · cases hx
    · obtain rfl := List.mem_singleton.mp hx
      rw [if_neg hsent]
      refine List.IsInfix.trans ?_ (List.prefix_append _ _).isInfix
      refine List.IsInfix.trans ?_ (List.prefix_append _ _).isInfix
      refine List.IsInfix.trans ?_ (List.prefix_append _ _).isInfix
      exact (List.suffix_append _ _).isInfix
  · split_ifs at hx with hsends
    · obtain rfl := List.mem_singleton.mp hx
      rw [if_pos hsends]
      refine List.IsInfix.trans ?_ (List.prefix_append _ _).isInfix
      refine List.IsInfix.trans ?_ (List.prefix_append _ _).isInfix
      exact (List.suffix_append _ _).isInfix
    · cases hx

section Bodies

/-- The announcements of an entry that its flags say have been sent. -/
def flagged (entry : JobEntry) : List Announcement :=
  (if entry.serverHasMerkleBranches then [merkleOf entry.jobMeta] else []) ++
    if entry.serverHasCoinbase.toList.getD entry.jobMeta.coinbaseId.toNat false then
      [coinbaseOf entry.jobMeta] else []

theorem flagged_of_unset {entry : JobEntry} (hmerkle : entry.serverHasMerkleBranches = false)
    (hcoinbase : entry.serverHasCoinbase = List.Vector.replicate 8 false) :
    flagged entry = [] := by
  have hflag : ∀ i, (List.Vector.replicate 8 false).toList.getD i false = false := by
    exact fun i => List.getElem?_getD_replicate_default_eq false 8 i
  rw [flagged, hmerkle, hcoinbase, hflag]
  rfl

theorem flagged_subset_reliesOn (entry : JobEntry) {b : EncodedBody}
    (hmeta : entry.jobMeta = b.entry.jobMeta) : flagged entry ⊆ reliesOn b := by
  intro x hx
  rw [flagged, List.mem_append, hmeta] at hx
  rw [reliesOn, List.mem_cons, List.mem_singleton]
  refine hx.imp ?_ ?_
  · intro hx
    split_ifs at hx
    · exact List.mem_singleton.mp hx
    · cases hx
  · intro hx
    split_ifs at hx
    · exact List.mem_singleton.mp hx
    · cases hx

/-- A body leaves out what the flags of its entry say has been sent, and its `0x02` block if the
sentinel alone says so. -/
theorem mem_leftOut_cases {b : EncodedBody} {x : Announcement}
    (hx : x ∈ leftOut announces reliesOn b) :
    x ∈ flagged b.entry ∨ x = coinbaseOf b.entry.jobMeta ∧
      b.crossProtocolCoinbaseAlreadySeen = true ∧
        b.entry.serverHasCoinbase.toList.getD b.entry.jobMeta.coinbaseId.toNat false = false := by
  obtain ⟨hrelies, hannounces⟩ := mem_leftOut_iff.mp hx
  rw [announces, List.mem_append, not_or] at hannounces
  rw [reliesOn, List.mem_cons, List.mem_singleton] at hrelies
  rw [flagged, List.mem_append]
  rcases hrelies with rfl | rfl
  · left
    left
    have hsent : b.entry.serverHasMerkleBranches = true := by
      by_contra hunsent
      exact hannounces.1 (by rw [if_neg hunsent]; exact List.mem_singleton_self _)
    rw [if_pos hsent]
    exact List.mem_singleton_self _
  · have hsends : ¬ sendsCoinbase b.entry b.crossProtocolCoinbaseAlreadySeen = true := by
      intro hsends
      exact hannounces.2 (by rw [if_pos hsends]; exact List.mem_singleton_self _)
    by_cases hflag :
        b.entry.serverHasCoinbase.toList.getD b.entry.jobMeta.coinbaseId.toNat false = true
    · left
      right
      rw [if_pos hflag]
      exact List.mem_singleton_self _
    · rw [Bool.not_eq_true] at hflag
      right
      refine ⟨rfl, ?_, hflag⟩
      simpa only [sendsCoinbase, hflag, Bool.not_false, Bool.true_and, Bool.not_eq_true',
        Bool.not_eq_false] using hsends

end Bodies

section Flow

/-- The bodies on a running connection: `line` holds what has been written and what will be, in
that order; `waiting` is still on the way there. -/
structure Flows (line waiting : List EncodedBody) (tracker : Tracker) : Prop where
  ordered : InOrder announces reliesOn [] line
  leftOut_subset : ∀ b ∈ waiting,
    leftOut announces reliesOn b ⊆ announced announces (line ++ waiting)
  flags : ∀ key entry, tracker.get key = some entry →
    flagged entry ⊆ announced announces (line ++ waiting)

variable {line waiting waiting' : List EncodedBody} {tracker tracker' : Tracker}

theorem Flows.of_waiting_iff (hflows : Flows line waiting tracker)
    (hwaiting : ∀ b, b ∈ waiting' ↔ b ∈ waiting) : Flows line waiting' tracker := by
  have hsubset : announced announces (line ++ waiting) ⊆ announced announces (line ++ waiting') :=
    announced_append_subset fun b hb => (hwaiting b).mpr hb
  constructor
  · exact hflows.ordered
  · exact fun b hb => List.Subset.trans (hflows.leftOut_subset b ((hwaiting b).mp hb)) hsubset
  · exact fun key entry hget => List.Subset.trans (hflows.flags key entry hget) hsubset

theorem Flows.of_tracker (hflows : Flows line waiting tracker)
    (htracker : ∀ key entry, tracker'.get key = some entry →
      tracker.get key = some entry ∨ flagged entry = []) : Flows line waiting tracker' := by
  constructor
  · exact hflows.ordered
  · exact hflows.leftOut_subset
  · intro key entry hget
    rcases htracker key entry hget with hold | hfresh
    · exact hflows.flags key entry hold
    · rw [hfresh]
      exact List.nil_subset _

theorem Flows.push {b : EncodedBody} (hflows : Flows line waiting tracker) (hb : b ∈ waiting)
    (hrest : ∀ b', b' ∈ waiting ↔ b' = b ∨ b' ∈ waiting')
    (hahead : ∀ x ∈ leftOut announces reliesOn b, x ∈ announced announces waiting →
      x ∈ announced announces line) :
    Flows (line ++ [b]) waiting' tracker := by
  have hsubset : announced announces (line ++ waiting) ⊆
      announced announces (line ++ [b] ++ waiting') := by
    rw [List.append_assoc]
    exact announced_append_subset fun b' hb' => List.mem_cons.mpr ((hrest b').mp hb')
  constructor
  · refine hflows.ordered.snoc ?_
    intro x hx
    have hpresent := hflows.leftOut_subset b hb hx
    rw [announced_append, List.mem_append] at hpresent
    exact hpresent.elim (fun h => h) (hahead x hx)
  · intro b' hb'
    exact List.Subset.trans (hflows.leftOut_subset b' ((hrest b').mpr (Or.inr hb'))) hsubset
  · exact fun key entry hget => List.Subset.trans (hflows.flags key entry hget) hsubset

theorem Flows.encode {b : EncodedBody} {key : JobKey} {seed : UInt64} {coinbaseId : UInt8}
    (hflows : Flows line waiting tracker) (hentry : tracker.get key = some b.entry)
    (hsentinel : b.crossProtocolCoinbaseAlreadySeen = true →
      b.entry.serverHasCoinbase.toList.getD b.entry.jobMeta.coinbaseId.toNat false = false →
        coinbaseOf b.entry.jobMeta ∈ announced announces (line ++ waiting))
    (hwaiting : ∀ b', b' ∈ waiting' ↔ b' = b ∨ b' ∈ waiting) :
    Flows line waiting' (tracker.recordEncoded key
      (markSent b.entry b.crossProtocolCoinbaseAlreadySeen) seed coinbaseId
      b.crossProtocolCoinbaseAlreadySeen) := by
  have hsubset : announced announces (line ++ waiting) ⊆ announced announces (line ++ waiting') :=
    announced_append_subset fun b' hb' => (hwaiting b').mpr (Or.inr hb')
  have hself : announces b ⊆ announced announces (line ++ waiting') := by
    intro x hx
    exact mem_announced_iff.mpr
      ⟨b, List.mem_append_right _ ((hwaiting b).mpr (Or.inl rfl)), hx⟩
  have hleftOut : leftOut announces reliesOn b ⊆ announced announces (line ++ waiting) := by
    intro x hx
    rcases mem_leftOut_cases hx with hflag | ⟨rfl, hseen, hunset⟩
    · exact hflows.flags key b.entry hentry hflag
    · exact hsentinel hseen hunset
  constructor
  · exact hflows.ordered
  · intro b' hb'
    rcases (hwaiting b').mp hb' with rfl | hb'
    · exact List.Subset.trans hleftOut hsubset
    · exact List.Subset.trans (hflows.leftOut_subset b' hb') hsubset
  · intro key' entry hget
    rw [Tracker.get_recordEncoded] at hget
    split_ifs at hget with hkey
    · rw [hentry, Option.map_some] at hget
      obtain rfl := Option.some.inj hget
      intro x hx
      by_cases hx' : x ∈ announces b
      · exact hself hx'
      · apply hsubset
        exact hleftOut (mem_leftOut_iff.mpr ⟨flagged_subset_reliesOn (markSent ..) rfl hx, hx'⟩)
    · exact List.Subset.trans (hflows.flags key' entry hget) hsubset

end Flow

end DatumGateway.AnnouncementFlow
