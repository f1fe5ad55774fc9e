import DatumGateway.StratumV1Connection
import DatumGateway.TransitionSystem

namespace DatumGateway.EmitSnapshots

open DatumGateway.BlockTemplate
open DatumGateway.ByteString
open DatumGateway.JobTracker
open DatumGateway.ShareEncoder
open DatumGateway.ShareRelay
open DatumGateway.SharedTemplate
open DatumGateway.StratumV1Assembler
open DatumGateway.StratumV1Connection
open DatumGateway.StratumV1Server
open DatumGateway.TransitionSystem

/-- At most one job other than that of `e` was sent after it. -/
def InRange (e : EmittedJob) (sent : List EmittedJob) : Prop :=
  ∃ later earlier, sent = later ++ e :: earlier ∧
    ∃ other, ∀ e' ∈ later, e'.jobId = e.jobId ∨ e'.jobId = other

/-- A share on a job in range is forwarded with what was sent for it. -/
def SnapshotsExact (s : ConnectionState) : Prop :=
  ∀ e, InRange e s.sent → ∀ params share, submit s.conn params = .ok share →
    share.jobId = e.jobId →
      share.patchedCoinb1Bin = some e.patchedCoinb1Bin ∧ share.currentDiff = e.diff

/-- No share without a snapshot has got through the relay. -/
def SnapshotsRequired (s : ConnectionState) : Prop :=
  ∀ f ∈ s.forwarded, f.1.patchedCoinb1Bin ≠ none

structure SnapshotsHeld (s : ConnectionState) : Prop where
  exact : SnapshotsExact s
  required : SnapshotsRequired s

/-- What a step sends with `mining.notify`. -/
def emission (s : ConnectionState) : ConnectionAction → Option EmittedJob
  | .authorize _ => s.notify.map fun job => emittedJob job s.conn.currentDiff
  | .notifyChanged =>
      if s.conn.subscribed && s.conn.authorized then
        s.notify.map fun job => emittedJob job s.conn.currentDiff
      else none
  | .poolMinChanged =>
      if s.conn.currentDiff < s.floor && s.conn.subscribed && s.conn.authorized then
        s.notify.map fun job => emittedJob job s.floor
      else none
  | .diffTimer elapsedSecs =>
      let newDiff := s.newDiff elapsedSecs
      if newDiff != s.conn.currentDiff && s.conn.subscribed && s.conn.authorized then
        s.notify.map fun job => emittedJob job newDiff
      else none
  | _ => none

/-- No snapshot differs from `e` under its job id, and `e` does not come a second time while the
other snapshot is of another job. -/
def keepsRing (ring : EmitRing) (e : EmittedJob) : Bool :=
  ([ring.1, ring.2].reduceOption.all fun r => r.jobId != e.jobId || decide (r = e)) &&
    (ring.1.all fun r => r.jobId != e.jobId || ring.2.all fun r' => r'.jobId == e.jobId)

def keepsSnapshots (s : ConnectionState) (a : ConnectionAction) : Bool :=
  (emission s a).all (keepsRing s.conn.emitRing) &&
    match a with
    | .relay tracker _ =>
        s.submitted.head?.all fun share =>
          share.patchedCoinb1Bin.isSome || (relayedWith tracker share).isNone
    | _ => true

structure RingInvariant (s : ConnectionState) : Prop where
  newest : s.conn.emitRing.1 = s.sent.head?
  inRange : ∀ e, InRange e s.sent → ringLookup s.conn.emitRing e.jobId = some e
  required : SnapshotsRequired s

theorem ringLookup_eq (ring : EmitRing) (jobId : String) :
    ringLookup ring jobId = (ring.1.filter fun r => r.jobId == jobId).or
      (ring.2.filter fun r => r.jobId == jobId) := by
  obtain ⟨newest, previous⟩ := ring
  have hsecond : ringLookup (none, previous) jobId = previous.filter fun r => r.jobId == jobId := by
    cases previous with
    | none => rfl
    | some r' =>
        rw [ringLookup, Option.filter_some]
        exact List.find?_singleton ..
  cases newest with
  | none => exact hsecond
  | some r =>
      rw [Option.filter_some]
      cases hid : r.jobId == jobId with
      | false =>
          exact (List.find?_cons_of_neg (by rw [hid]; exact Bool.false_ne_true)).trans hsecond
      | true => exact List.find?_cons_of_pos hid

theorem ringLookup_ringPush (ring : EmitRing) (e : EmittedJob) (jobId : String) :
    ringLookup (ringPush ring e) jobId =
      if e.jobId = jobId then some e else ring.1.filter fun r => r.jobId == jobId := by
  rw [ringLookup_eq, ringPush, Option.filter_some]
  by_cases hid : e.jobId = jobId
  · rw [if_pos hid, if_pos (beq_iff_eq.mpr hid), Option.some_or]
  · rw [if_neg hid, if_neg (fun h => hid (beq_iff_eq.mp h)), Option.none_or]

/-- What was in range once `e` is sent was in range before, and was sent under the job id of `e` or
of the job before `e`, unless these two agree. -/
theorem InRange.of_cons {e e' : EmittedJob} {sent : List EmittedJob}
    (hrange : InRange e' (e :: sent)) (hne : e' ≠ e) :
    InRange e' sent ∧ (e'.jobId = e.jobId ∨ ∃ r, sent.head? = some r ∧
      (r.jobId = e'.jobId ∨ r.jobId = e.jobId)) := by
  obtain ⟨later, earlier, hsent, other, hother⟩ := hrange
  cases later with
  | nil =>
      obtain ⟨rfl, -⟩ := List.cons.inj hsent
      exact absurd rfl hne
  | cons d later =>
      obtain ⟨rfl, rfl⟩ := List.cons.inj hsent
      refine ⟨⟨later, earlier, rfl, other, fun x hx => hother x (List.mem_cons_of_mem _ hx)⟩, ?_⟩
      cases later with
      | nil => exact Or.inr ⟨e', rfl, Or.inl rfl⟩
      | cons r later =>
          rcases hother e List.mem_cons_self with hsame | hsame
          · exact Or.inl hsame.symm
          · right
            refine ⟨r, rfl, ?_⟩
            rw [hsame]
            exact hother r (List.mem_cons_of_mem _ List.mem_cons_self)

theorem mem_reduceOption_of_ringLookup {ring : EmitRing} {jobId : String} {e : EmittedJob}
    (hlookup : ringLookup ring jobId = some e) : e ∈ [ring.1, ring.2].reduceOption :=
  List.mem_of_find?_eq_some hlookup

theorem ringLookup_cases {ring : EmitRing} {jobId : String} {e : EmittedJob}
    (hlookup : ringLookup ring jobId = some e) :
    ring.1 = some e ∨ ring.2 = some e ∧ ∀ r, ring.1 = some r → r.jobId ≠ jobId := by
  rw [ringLookup_eq, Option.or_eq_some_iff, Option.filter_eq_some_iff, Option.filter_eq_none_iff,
    Option.filter_eq_some_iff] at hlookup
  rcases hlookup with ⟨hfirst, -⟩ | ⟨hother, hsecond, -⟩
  · exact Or.inl hfirst
  · exact Or.inr ⟨hsecond, fun r hr hid => hother r hr (beq_iff_eq.mpr hid)⟩

theorem ringLookup_of_keepsRing {ring : EmitRing} {sent : List EmittedJob} {e : EmittedJob}
    (hnewest : ring.1 = sent.head?)
    (hinRange : ∀ e', InRange e' sent → ringLookup ring e'.jobId = some e')
    (hguard : keepsRing ring e = true) {e' : EmittedJob} (hrange : InRange e' (e :: sent)) :
    ringLookup (ringPush ring e) e'.jobId = some e' := by
  rw [keepsRing, Bool.and_eq_true, List.all_eq_true] at hguard
  obtain ⟨hagree, hsecond⟩ := hguard
  rw [ringLookup_ringPush]
  by_cases heq : e' = e
  · rw [heq, if_pos rfl]
  · obtain ⟨hbefore, hids⟩ := hrange.of_cons heq
    have hlookup := hinRange e' hbefore
    have hid : e'.jobId ≠ e.jobId := by
      intro hid
      have hmem := hagree e' (mem_reduceOption_of_ringLookup hlookup)
      rw [Bool.or_eq_true, bne_iff_ne, decide_eq_true_eq] at hmem
      exact heq (hmem.resolve_left (not_not.mpr hid))
    obtain ⟨r, hr, hcase⟩ := hids.resolve_left hid
    rw [← hnewest] at hr
    rw [if_neg (Ne.symm hid), hr]
    rcases ringLookup_cases hlookup with hfirst | ⟨hprevious, hother⟩
    · obtain rfl := Option.some.inj (hr.symm.trans hfirst)
      simp
    · -- the newest snapshot is of the job of `e`, and the other one is not
      have hrid : r.jobId = e.jobId := hcase.resolve_left (hother r hr)
      rw [hr, Option.all_some, hprevious, Option.all_some, hrid] at hsecond
      simp [hid] at hsecond

/-- A step that sends `o`, if anything, and that is not one of the relay. -/
structure Sends (s t : ConnectionState) (o : Option EmittedJob) : Prop where
  sent : t.sent = o.toList ++ s.sent
  emitRing : t.conn.emitRing = o.elim s.conn.emitRing (ringPush s.conn.emitRing)
  forwarded : t.forwarded = s.forwarded

theorem sends_sendPending (s : ConnectionState) :
    Sends s s.sendPending (s.notify.map fun job => emittedJob job s.conn.currentDiff) := by
  rw [ConnectionState.sendPending]
  cases s.notify with
  | none => exact ⟨rfl, rfl, rfl⟩
  | some job => exact ⟨rfl, rfl, rfl⟩

theorem sends_changeDiff (s : ConnectionState) (newDiff : UInt64) :
    Sends s (s.changeDiff newDiff)
      (if s.conn.authorized then s.notify.map fun job => emittedJob job newDiff else none) := by
  rw [ConnectionState.changeDiff]
  cases s.conn.authorized with
  | false => exact ⟨rfl, rfl, rfl⟩
  | true =>
      obtain ⟨hsent, hring, hforwarded⟩ :=
        sends_sendPending { s with conn := { s.conn with currentDiff := newDiff } }
      exact ⟨hsent, hring, hforwarded⟩

section Steps

variable {sha256d : Bytes → Bytes32} {userCfg : ShareUserConfig} {s t : ConnectionState}

theorem RingInvariant.of_sends {o : Option EmittedJob} (hinv : RingInvariant s)
    (hkeeps : o.all (keepsRing s.conn.emitRing) = true) (hsends : Sends s t o) :
    RingInvariant t := by
  obtain ⟨hsent, hring, hforwarded⟩ := hsends
  cases o with
  | none =>
      constructor
      · rw [hring, hsent]
        exact hinv.newest
      · rw [hring, hsent]
        exact hinv.inRange
      · rw [SnapshotsRequired, hforwarded]
        exact hinv.required
  | some e =>
      constructor
      · rw [hring, hsent]
        rfl
      · rw [hring, hsent]
        exact fun e' hrange => ringLookup_of_keepsRing hinv.newest hinv.inRange hkeeps hrange
      · rw [SnapshotsRequired, hforwarded]
        exact hinv.required

theorem RingInvariant.step {a : ConnectionAction} (hinv : RingInvariant s)
    (hguard : keepsSnapshots s a = true)
    (hstep : connectionStep sha256d userCfg s a = some t) : RingInvariant t := by
  have hkeeps : (emission s a).all (keepsRing s.conn.emitRing) = true :=
    (Bool.and_eq_true _ _ ▸ hguard).1
  cases connectionStep_cases hstep with
  | authorized name =>
      obtain ⟨hsent, hring, hforwarded⟩ := sends_sendPending { s with
        conn := { s.conn with
          authorized := true, authorizedUsername := name.getD s.conn.authorizedUsername } }
      exact hinv.of_sends hkeeps ⟨hsent, hring, hforwarded⟩
  | jobSent _ hready =>
      rw [emission, hready] at hkeeps
      obtain ⟨hsent, hring, hforwarded⟩ := sends_sendPending { s with notifyUnseen := false }
      exact hinv.of_sends hkeeps ⟨hsent, hring, hforwarded⟩
  | jobHeld _ hready =>
      rw [emission, hready] at hkeeps
      exact hinv.of_sends hkeeps ⟨rfl, rfl, rfl⟩
  | poolMinRaised _ hraise =>
      rw [emission, hraise] at hkeeps
      obtain ⟨hsent, hring, hforwarded⟩ :=
        sends_changeDiff { s with poolMinUnseen := false } s.floor
      exact hinv.of_sends hkeeps ⟨hsent, hring, hforwarded⟩
  | poolMinKept _ hraise =>
      rw [emission, hraise] at hkeeps
      exact hinv.of_sends hkeeps ⟨rfl, rfl, rfl⟩
  | diffChanged elapsedSecs hchange =>
      rw [emission, hchange] at hkeeps
      obtain ⟨hsent, hring, hforwarded⟩ := sends_changeDiff s (s.newDiff elapsedSecs)
      exact hinv.of_sends hkeeps ⟨hsent, hring, hforwarded⟩
  | diffKept elapsedSecs hchange =>
      rw [emission, hchange] at hkeeps
      exact hinv.of_sends hkeeps ⟨rfl, rfl, rfl⟩
  | relayed tracker paddingByte share submitted enc after hsubmitted hrelay =>
      refine ⟨hinv.newest, hinv.inRange, ?_⟩
      intro f hf
      rcases List.mem_append.mp hf with hf | hf
      · exact hinv.required f hf
      · obtain rfl := List.mem_singleton.mp hf
        obtain ⟨accepted, hrelayed, -⟩ := Option.map_eq_some_iff.mp hrelay
        simpa [keepsSnapshots, emission, hsubmitted, hrelayed, Option.isSome_iff_ne_none]
          using hguard
  | _ => exact hinv.of_sends hkeeps ⟨rfl, rfl, rfl⟩

end Steps

theorem submit_ok {conn : MinerConnection} {params : List (Option String)} {share : SubmittedShare}
    (hsubmit : submit conn params = .ok share) :
    share.patchedCoinb1Bin =
        (ringLookup conn.emitRing share.jobId).map EmittedJob.patchedCoinb1Bin ∧
      share.currentDiff =
        ((ringLookup conn.emitRing share.jobId).map EmittedJob.diff).getD conn.currentDiff := by
  rw [submit] at hsubmit
  split_ifs at hsubmit
  split at hsubmit
  · cases hsubmit
  · split at hsubmit
    · cases hsubmit
    · obtain rfl := Except.ok.inj hsubmit
      exact ⟨rfl, rfl⟩

theorem RingInvariant.snapshotsHeld {s : ConnectionState} (hinv : RingInvariant s) :
    SnapshotsHeld s := by
  constructor
  · intro e hrange params share hsubmit hid
    obtain ⟨hpatched, hdiff⟩ := submit_ok hsubmit
    rw [hid, hinv.inRange e hrange] at hpatched hdiff
    exact ⟨hpatched, hdiff⟩
  · exact hinv.required

/-- In every run in which no snapshot is replaced by another one of the same job, or evicted by the
same one, and the relay drops what has none. -/
theorem reachable_snapshotsHeld (sha256d : Bytes → Bytes32) (userCfg : ShareUserConfig)
    (vardiff : VardiffParams) (xn1 : UInt32) (notify : Option NotifyJob) (notifyUnseen : Bool)
    (poolMin : UInt64) (poolMinUnseen : Bool) (t : ConnectionState)
    (hreaches : Reaches (connectionStep sha256d userCfg) (fun s a => keepsSnapshots s a = true)
      (handleConnection vardiff xn1 notify notifyUnseen poolMin poolMinUnseen) t) :
    SnapshotsHeld t := by
  have hstart : RingInvariant
      (handleConnection vardiff xn1 notify notifyUnseen poolMin poolMinUnseen) := by
    constructor
    · rfl
    · rintro e ⟨later, earlier, hsent, -⟩
      exact absurd hsent (by simp [handleConnection])
    · intro f hf
      cases hf
  have hinv : RingInvariant t :=
    hreaches.invariant hstart fun s a t hinv hguard hstep => hinv.step hguard hstep
  exact hinv.snapshotsHeld

/-! One connection at the default settings, and three jobs for it. -/

def defaultVardiff : VardiffParams where
  min := 1
  targetSharesMin := 8
  recheckSecs := 30
  max := 2 ^ 40

def numberedMeta (datumJobIdx : UInt8) : JobMeta :=
  jobMetaOf datumJobIdx coinbaseIdSv1 (plainState (fun _ => ByteVec.fill 32 0) emptyTemplate)

def numberedJob (datumJobIdx : UInt8) : NotifyJob where
  jobId := sv1JobId 0 datumJobIdx emptyTemplate.height
  targetPotIndex := (numberedMeta datumJobIdx).targetPotIndex
  coinb1Bin := (numberedMeta datumJobIdx).coinb1Bin

def numberedTracker (datumJobIdx : UInt8) : Tracker :=
  ({} : Tracker).insert (.sv1 (numberedJob datumJobIdx).jobId) (numberedMeta datumJobIdx) 0

def numberedShare (datumJobIdx : UInt8) : List (Option String) :=
  [some "", some (numberedJob datumJobIdx).jobId, some "0000000000000000", some "0", some "0"]

def plainUser : ShareUserConfig where
  poolAddress := ""
  passFullUsers := false
  passWorkers := false

theorem snapshotsHeld_of_two_jobs :
    let step := connectionStep (fun _ => ByteVec.fill 32 0) plainUser
    let start := handleConnection defaultVardiff 0 none false 0 false
    ∃ t, Reaches step (fun s a => keepsSnapshots s a = true) start t ∧
      decide (t.forwarded.length = 1) = true ∧ SnapshotsHeld t := by
  intro step start
  obtain ⟨t, hreaches, hforwarded⟩ := exists_reaches_of_runGuarded step keepsSnapshots start
    [.subscribe, .authorize none, .publish (numberedJob 0), .notifyChanged,
      .publish (numberedJob 1), .notifyChanged, .submit (numberedShare 0),
      .relay (numberedTracker 0) 0]
    (fun t => decide (t.forwarded.length = 1)) (by decide +kernel)
  exact ⟨t, hreaches, hforwarded, reachable_snapshotsHeld (fun _ => ByteVec.fill 32 0) plainUser
    defaultVardiff 0 none false 0 false t hreaches⟩

/-- The relay forwards a share on the first of three jobs, and the last one is sent again when the
pool raises the difficulty. -/
theorem evicted_share_forwarded_and_snapshot_replaced :
    let step := connectionStep (fun _ => ByteVec.fill 32 0) plainUser
    let start := handleConnection defaultVardiff 0 none false 0 false
    ∃ t, Reachable step start t ∧ ¬ SnapshotsExact t ∧ ¬ SnapshotsRequired t := by
  intro step start
  obtain ⟨t, hreachable, hviolates⟩ := exists_reachable_of_runActions step start
    [.subscribe, .authorize none, .publish (numberedJob 0), .notifyChanged,
      .publish (numberedJob 1), .notifyChanged, .publish (numberedJob 2), .notifyChanged,
      .submit (numberedShare 0), .relay (numberedTracker 0) 0, .setPoolMin 2, .poolMinChanged]
    (fun t => (match t.sent with
      | [] => false
      | [_] => false
      | later :: e :: _ => decide (later.jobId = e.jobId) &&
          (submit t.conn (numberedShare 2)).toOption.any fun share =>
            decide (share.jobId = e.jobId ∧ share.currentDiff ≠ e.diff)) &&
      t.forwarded.any fun f => f.1.patchedCoinb1Bin.isNone) (by decide +kernel)
  rw [Bool.and_eq_true] at hviolates
  obtain ⟨hreplaced, hnone⟩ := hviolates
  refine ⟨t, hreachable, ?_, ?_⟩
  · intro hexact
    split at hreplaced
    · cases hreplaced
    · cases hreplaced
    · rename_i later e earlier hsent
      rw [Bool.and_eq_true, decide_eq_true_eq] at hreplaced
      obtain ⟨hid, hsubmits⟩ := hreplaced
      obtain ⟨share, hshare, hdiff⟩ := (Option.any_eq_true _ _).mp hsubmits
      obtain ⟨hshareId, hdiff⟩ := of_decide_eq_true hdiff
      have hrange : InRange e t.sent := by
        refine ⟨[later], earlier, hsent, e.jobId, ?_⟩
        intro e' he'
        obtain rfl := List.mem_singleton.mp he'
        exact Or.inl hid
      have hsubmit : submit t.conn (numberedShare 2) = .ok share := by
        cases hresult : submit t.conn (numberedShare 2) with
        | error _ => rw [hresult] at hshare; cases hshare
        | ok _ => rw [hresult] at hshare; exact congrArg Except.ok (Option.some.inj hshare)
      exact hdiff (hexact e hrange _ share hsubmit hshareId).2
  · intro hrequired
    obtain ⟨f, hf, hnone⟩ := List.any_eq_true.mp hnone
    exact hrequired f hf (Option.isNone_iff_eq_none.mp hnone)

end DatumGateway.EmitSnapshots
