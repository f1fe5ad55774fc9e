import DatumGateway.BlockReaders
import DatumGateway.ByteString
import DatumGateway.TransitionSystem

/-!
Reading frames from a Noise stream that is cancelled whenever something else is to
be done first: the socket may give the bytes in any pieces, and the future may be
dropped wherever it waits.
-/

namespace DatumGateway.NoiseFrames

open DatumGateway.BlockReaders
open DatumGateway.ByteString
open DatumGateway.TransitionSystem

inductive DecodeResult (F E : Type) where
  | frame (frame : F)
  | missingBytes
  | error (e : E)

/-- The decoder of the codec: `D` is what it keeps, `S` the state of the session. -/
structure NoiseDecoder (D S F E : Type) where
  writableLen : D → ℕ
  /-- All of `writable()` is overwritten. -/
  copyToWritable : D → Bytes → D
  nextFrame : D → S → DecodeResult F E × D × S

inductive NoiseStreamError (E : Type) where
  | socketClosed
  | codecError (e : E)

structure NoiseTcpReadHalf (D S : Type) where
  decoder : D
  state : S
  currentFrameBuf : Bytes := []
  bytesRead : ℕ := 0

/-- Where the future of `read_frame` waits, with its local variable; idle if there is none. -/
inductive Suspension where
  | idle
  | reading (expected : ℕ)
  | yielding
  deriving DecidableEq

structure ReadState (D S F E : Type) where
  half : NoiseTcpReadHalf D S
  future : Suspension := .idle
  /-- What the peer sends before it closes and was not read from the socket. -/
  wire : Bytes
  /-- All bytes that were given to the decoder. -/
  fed : Bytes := []
  returned : List F := []
  failure : Option (NoiseStreamError E) := none

inductive ReadAction where
  /-- `read_frame` is called, and its future polled. -/
  | call
  | read (n : ℕ)
  | close
  /-- The runtime comes back to a future that yielded. -/
  | resume
  /-- The future is dropped. -/
  | cancel

def resize (buf : Bytes) (expected : ℕ) : Bytes :=
  buf.take expected ++ List.replicate (expected - buf.length) 0

section Steps

variable {D S F E : Type} (dec : NoiseDecoder D S F E)

/-- A full block goes to the decoder. -/
def decodeBlock (s : ReadState D S F E) : ReadState D S F E :=
  let decoder := dec.copyToWritable s.half.decoder s.half.currentFrameBuf
  let (result, decoder, state) := dec.nextFrame decoder s.half.state
  let s := { s with
    half := { s.half with decoder, state, bytesRead := 0 }
    fed := s.fed ++ s.half.currentFrameBuf }
  match result with
  | .frame frame => { s with returned := s.returned ++ [frame], future := .idle }
  | .missingBytes => { s with future := .yielding }
  | .error e => { s with failure := some (.codecError e), future := .idle }

def sizeBuffer (half : NoiseTcpReadHalf D S) : NoiseTcpReadHalf D S :=
  let expected := dec.writableLen half.decoder
  if half.currentFrameBuf.length ≠ expected then
    { half with currentFrameBuf := resize half.currentFrameBuf expected, bytesRead := 0 }
  else half

/-- The loop goes on until it waits again or returns. -/
def loopHead (s : ReadState D S F E) : ReadState D S F E :=
  let expected := dec.writableLen s.half.decoder
  let s := { s with half := sizeBuffer dec s.half }
  if s.half.bytesRead < expected then { s with future := .reading expected }
  else decodeBlock dec s

def socketRead (s : ReadState D S F E) (n : ℕ) : ReadState D S F E :=
  let half := { s.half with
    currentFrameBuf := s.half.currentFrameBuf.take s.half.bytesRead ++ s.wire.take n ++
      s.half.currentFrameBuf.drop (s.half.bytesRead + n)
    bytesRead := s.half.bytesRead + n }
  { s with half, wire := s.wire.drop n }

def readStep (s : ReadState D S F E) : ReadAction → Option (ReadState D S F E)
  | .call =>
      match s.future, s.failure with
      | .idle, none => some (loopHead dec s)
      | _, _ => none
  | .resume =>
      match s.future with
      | .yielding => some (loopHead dec s)
      | _ => none
  | .read n =>
      match s.future with
      | .reading expected =>
          if 1 ≤ n ∧ n ≤ s.half.currentFrameBuf.length - s.half.bytesRead ∧ n ≤ s.wire.length then
            let s := socketRead s n
            if s.half.bytesRead < expected then some s else some (decodeBlock dec s)
          else none
      | _ => none
  | .close =>
      match s.future, s.wire with
      | .reading _, [] => some { s with failure := some .socketClosed, future := .idle }
      | _, _ => none
  | .cancel =>
      match s.future with
      | .idle => none
      | _ => some { s with future := .idle }

/-- Nothing cancels the reads. -/
def Uninterrupted (_ : ReadState D S F E) (a : ReadAction) : Prop :=
  match a with
  | .cancel => False
  | _ => True

def ReadState.start (decoder : D) (state : S) (stream : Bytes) : ReadState D S F E where
  half := { decoder, state }
  wire := stream

/-! Reading without a buffer and without pieces: the decoder takes its blocks from the stream. -/

structure Decoded (D S F E : Type) where
  decoder : D
  state : S
  returned : List F
  failure : Option (NoiseStreamError E)

def decode (c : Decoded D S F E) (block : Bytes) : Decoded D S F E :=
  let (result, decoder, state) := dec.nextFrame (dec.copyToWritable c.decoder block) c.state
  match result with
  | .frame frame => { c with decoder, state, returned := c.returned ++ [frame] }
  | .missingBytes => { c with decoder, state }
  | .error e => { c with decoder, state, failure := some (.codecError e) }

def blockReader : Consumer UInt8 (Decoded D S F E) where
  blockSize c := if c.failure.isNone then some (dec.writableLen c.decoder) else none
  feed := decode dec
  starve c := { c with failure := some .socketClosed }

namespace ReadState

def buffered (s : ReadState D S F E) : Bytes :=
  s.half.currentFrameBuf.take s.half.bytesRead

def progress (s : ReadState D S F E) : Progress UInt8 (Decoded D S F E) where
  consumer :=
    { decoder := s.half.decoder, state := s.half.state, returned := s.returned,
      failure := s.failure }
  fed := s.fed
  unread := s.buffered ++ s.wire

/-- A partial block is as long as the decoder still wants it, whatever became of the future. -/
structure WellFormed (s : ReadState D S F E) : Prop where
  bytesRead_le : s.half.bytesRead ≤ s.half.currentFrameBuf.length
  sized : 0 < s.half.bytesRead → s.half.currentFrameBuf.length = dec.writableLen s.half.decoder
  reading : ∀ expected, s.future = .reading expected →
    s.half.currentFrameBuf.length = expected ∧ dec.writableLen s.half.decoder = expected ∧
      s.half.bytesRead < expected
  failed : s.failure.isSome → s.future = .idle

end ReadState

open ReadState

variable {dec}

theorem ReadState.WellFormed.of_no_bytes {s : ReadState D S F E} (hnone : s.half.bytesRead = 0)
    (hwaits : ∀ expected, s.future ≠ .reading expected)
    (hfailed : s.failure.isSome → s.future = .idle) : s.WellFormed dec where
  bytesRead_le := by
    rw [hnone]
    exact Nat.zero_le _
  sized hpos := by
    rw [hnone] at hpos
    exact absurd hpos (Nat.lt_irrefl 0)
  reading expected hfuture := absurd hfuture (hwaits expected)
  failed := hfailed

theorem wellFormed_decodeBlock {s : ReadState D S F E} (hrunning : s.failure = none) :
    (decodeBlock dec s).WellFormed dec := by
  unfold decodeBlock
  dsimp only
  split
  · exact .of_no_bytes rfl (fun _ h => by cases h) fun _ => rfl
  · refine .of_no_bytes rfl (fun _ h => by cases h) fun hfailed => ?_
    simp [hrunning] at hfailed
  · exact .of_no_bytes rfl (fun _ h => by cases h) fun _ => rfl

theorem blockSize_of_running {s : ReadState D S F E} (hrunning : s.failure = none) :
    (blockReader dec).blockSize s.progress.consumer = some (dec.writableLen s.half.decoder) := by
  simp only [blockReader, progress, hrunning, Option.isNone_none, if_true]

theorem progress_decodeBlock {s : ReadState D S F E} (hrunning : s.failure = none)
    (hsized : s.half.currentFrameBuf.length = dec.writableLen s.half.decoder)
    (hfull : s.half.bytesRead = s.half.currentFrameBuf.length) :
    advance (blockReader dec) s.progress = some (decodeBlock dec s).progress := by
  have hunread : s.progress.unread = s.half.currentFrameBuf ++ s.wire := by
    simp only [progress, buffered, hfull, List.take_length]
  rw [advance_of_full (blockSize_of_running hrunning) hunread hsized]
  unfold decodeBlock
  simp only [blockReader, decode, progress, buffered]
  split <;> simp

theorem sizeBuffer_spec {s : ReadState D S F E} (hwell : s.WellFormed dec) :
    let half := sizeBuffer dec s.half
    half.decoder = s.half.decoder ∧ half.state = s.half.state ∧
      half.currentFrameBuf.length = dec.writableLen s.half.decoder ∧
      half.bytesRead ≤ half.currentFrameBuf.length ∧
      half.currentFrameBuf.take half.bytesRead = s.buffered := by
  unfold sizeBuffer
  dsimp only
  split_ifs with hsize
  · have hnone : s.half.bytesRead = 0 := by
      by_contra hpos
      exact hsize (hwell.sized (Nat.pos_of_ne_zero hpos))
    refine ⟨rfl, rfl, ?_, Nat.zero_le _, ?_⟩
    · simp only [resize, List.length_append, List.length_take, List.length_replicate]
      omega
    · simp only [buffered, hnone, List.take_zero]
  · exact ⟨rfl, rfl, not_not.mp hsize, hwell.bytesRead_le, rfl⟩

/-- The start of a loop: the future waits for the socket with nothing changed, or the block was
full and is decoded. -/
theorem loopHead_cases {s : ReadState D S F E} (hwell : s.WellFormed dec)
    (hrunning : s.failure = none) :
    (loopHead dec s).WellFormed dec ∧
      ((loopHead dec s).future = .reading (dec.writableLen s.half.decoder) ∧
          (loopHead dec s).progress = s.progress ∧ (loopHead dec s).failure = none ∨
        advance (blockReader dec) s.progress = some (loopHead dec s).progress) := by
  obtain ⟨hdecoder, hstate, hlength, hle, htake⟩ := sizeBuffer_spec hwell
  have hprogress : ({ s with half := sizeBuffer dec s.half } : ReadState D S F E).progress =
      s.progress := by
    simp only [progress, buffered, hdecoder, hstate, htake]
  unfold loopHead
  dsimp only
  split_ifs with hroom
  · refine ⟨⟨hle, fun _ => ?_, ?_, ?_⟩, Or.inl ⟨rfl, hprogress, hrunning⟩⟩
    · rw [hlength, hdecoder]
    · rintro expected hexpected
      obtain rfl := Suspension.reading.inj hexpected
      exact ⟨hlength, congrArg dec.writableLen hdecoder, hroom⟩
    · intro hfailed
      simp [hrunning] at hfailed
  · refine ⟨wellFormed_decodeBlock hrunning, Or.inr ?_⟩
    rw [← hprogress]
    refine progress_decodeBlock hrunning (by rw [hlength, hdecoder]) (Nat.le_antisymm hle ?_)
    rw [hlength]
    exact not_lt.mp hroom

theorem ReadState.WellFormed.running {s : ReadState D S F E} (hwell : s.WellFormed dec)
    (hbusy : s.future ≠ .idle) : s.failure = none := by
  by_contra hfailed
  exact hbusy (hwell.failed (Option.isSome_iff_ne_none.mpr hfailed))

theorem buffered_socketRead {s : ReadState D S F E} {n : ℕ}
    (hle : s.half.bytesRead ≤ s.half.currentFrameBuf.length) (hwire : n ≤ s.wire.length) :
    (socketRead s n).buffered = s.buffered ++ s.wire.take n := by
  simp only [buffered, socketRead]
  apply List.take_left'
  rw [List.length_append, List.length_take, List.length_take, Nat.min_eq_left hle,
    Nat.min_eq_left hwire]

theorem length_socketRead {s : ReadState D S F E} {n : ℕ}
    (hroom : s.half.bytesRead + n ≤ s.half.currentFrameBuf.length) (hwire : n ≤ s.wire.length) :
    (socketRead s n).half.currentFrameBuf.length = s.half.currentFrameBuf.length := by
  simp only [socketRead, List.length_append, List.length_take, List.length_drop]
  omega

theorem progress_socketRead {s : ReadState D S F E} {n : ℕ}
    (hle : s.half.bytesRead ≤ s.half.currentFrameBuf.length) (hwire : n ≤ s.wire.length) :
    (socketRead s n).progress = s.progress := by
  have hunread : (socketRead s n).buffered ++ (socketRead s n).wire = s.buffered ++ s.wire := by
    rw [buffered_socketRead hle hwire, List.append_assoc]
    exact congrArg (s.buffered ++ ·) (List.take_append_drop n s.wire)
  simp only [progress, hunread]
  rfl

theorem length_buffered {s : ReadState D S F E}
    (hle : s.half.bytesRead ≤ s.half.currentFrameBuf.length) :
    s.buffered.length = s.half.bytesRead := by
  rw [buffered, List.length_take, Nat.min_eq_left hle]

theorem socketRead_cases {s : ReadState D S F E} (hwell : s.WellFormed dec) {expected n : ℕ}
    (hfuture : s.future = .reading expected)
    (hroom : n ≤ s.half.currentFrameBuf.length - s.half.bytesRead) (hwire : n ≤ s.wire.length) :
    ((socketRead s n).half.bytesRead < expected → (socketRead s n).WellFormed dec) ∧
      (¬ (socketRead s n).half.bytesRead < expected →
        advance (blockReader dec) s.progress =
          some (decodeBlock dec (socketRead s n)).progress) := by
  obtain ⟨hlength, hwritable, hpartial⟩ := hwell.reading expected hfuture
  have hle := hwell.bytesRead_le
  have hrunning : s.failure = none := hwell.running (by simp [hfuture])
  have hkept := length_socketRead (by omega) hwire
  have hbytes : (socketRead s n).half.bytesRead = s.half.bytesRead + n := rfl
  constructor
  · intro hmore
    refine ⟨by omega, fun _ => ?_, ?_, ?_⟩
    · rw [hkept, hlength]
      exact hwritable.symm
    · intro expected' hfuture'
      obtain rfl := Suspension.reading.inj (hfuture.symm.trans hfuture')
      exact ⟨hkept.trans hlength, hwritable, hmore⟩
    · intro hfailed
      change s.failure.isSome at hfailed
      simp [hrunning] at hfailed
  · intro hfull
    rw [← progress_socketRead hle hwire]
    refine progress_decodeBlock hrunning ?_ ?_
    · rw [hkept, hlength]
      exact hwritable.symm
    · omega

theorem advance_of_close {s : ReadState D S F E} (hwell : s.WellFormed dec) {expected : ℕ}
    (hfuture : s.future = .reading expected) (hwire : s.wire = []) :
    advance (blockReader dec) s.progress =
      some { s with failure := some .socketClosed, future := .idle }.progress := by
  obtain ⟨-, hwritable, hpartial⟩ := hwell.reading expected hfuture
  have hshort : s.progress.unread.length < dec.writableLen s.half.decoder := by
    change (s.buffered ++ s.wire).length < _
    rw [hwire, List.append_nil, length_buffered hwell.bytesRead_le, hwritable]
    exact hpartial
  rw [advance_of_short (blockSize_of_running (hwell.running (by simp [hfuture]))) hshort]
  rfl

theorem wellFormed_idle {s : ReadState D S F E} (hwell : s.WellFormed dec)
    (failure : Option (NoiseStreamError E)) :
    { s with failure, future := .idle }.WellFormed dec where
  bytesRead_le := hwell.bytesRead_le
  sized := hwell.sized
  reading _ hfuture := by cases hfuture
  failed _ := rfl

/-- What a step of the code is to the decoder: nothing, or its next block of the stream. -/
def Serves (dec : NoiseDecoder D S F E) (s t : ReadState D S F E) : Prop :=
  t.WellFormed dec ∧
    (t.progress = s.progress ∨ advance (blockReader dec) s.progress = some t.progress)

theorem serves_loopHead {s : ReadState D S F E} (hwell : s.WellFormed dec)
    (hrunning : s.failure = none) : Serves dec s (loopHead dec s) := by
  obtain ⟨hwell', hcases⟩ := loopHead_cases hwell hrunning
  exact ⟨hwell', hcases.imp (fun hwaits => hwaits.2.1) id⟩

theorem serves_read {s t : ReadState D S F E} {n : ℕ} (hwell : s.WellFormed dec)
    (hstep : readStep dec s (.read n) = some t) : Serves dec s t := by
  cases hfuture : s.future with
  | idle => simp [readStep, hfuture] at hstep
  | yielding => simp [readStep, hfuture] at hstep
  | reading expected =>
      simp only [readStep, hfuture] at hstep
      obtain ⟨⟨-, hroom, hwire⟩, hstep⟩ := Option.ite_none_right_eq_some.mp hstep
      obtain ⟨hmore, hfull⟩ := socketRead_cases hwell hfuture hroom hwire
      split_ifs at hstep with hshort
      · obtain rfl := Option.some.inj hstep
        exact ⟨hmore hshort, Or.inl (progress_socketRead hwell.bytesRead_le hwire)⟩
      · obtain rfl := Option.some.inj hstep
        have hrunning := hwell.running (by simp [hfuture])
        exact ⟨wellFormed_decodeBlock hrunning, Or.inr (hfull hshort)⟩

theorem serves_close {s t : ReadState D S F E} (hwell : s.WellFormed dec)
    (hstep : readStep dec s .close = some t) : Serves dec s t := by
  cases hfuture : s.future with
  | idle => simp [readStep, hfuture] at hstep
  | yielding => simp [readStep, hfuture] at hstep
  | reading expected =>
      cases hwire : s.wire with
      | cons b rest => simp [readStep, hfuture, hwire] at hstep
      | nil =>
          have hclosed : t = { s with failure := some .socketClosed, future := .idle } := by
            simp only [readStep, hfuture, hwire, Option.some.injEq] at hstep
            rw [← hstep, hwire]
          rw [hclosed]
          exact ⟨wellFormed_idle hwell _, Or.inr (advance_of_close hwell hfuture hwire)⟩

theorem serves_readStep {s t : ReadState D S F E} {a : ReadAction} (hwell : s.WellFormed dec)
    (hstep : readStep dec s a = some t) : Serves dec s t := by
  cases a with
  | call =>
      cases hfuture : s.future <;> cases hfailure : s.failure <;>
        simp [readStep, hfuture, hfailure] at hstep
      rw [← hstep]
      exact serves_loopHead hwell hfailure
  | resume =>
      cases hfuture : s.future <;> simp [readStep, hfuture] at hstep
      rw [← hstep]
      exact serves_loopHead hwell (hwell.running (by simp [hfuture]))
  | read n => exact serves_read hwell hstep
  | close => exact serves_close hwell hstep
  | cancel =>
      have hcancelled : t = { s with future := .idle } := by
        cases hfuture : s.future <;> simp [readStep, hfuture] at hstep <;> exact hstep.symm
      rw [hcancelled]
      exact ⟨wellFormed_idle hwell _, Or.inl rfl⟩

theorem uninterrupted_step {s t : ReadState D S F E} {a : ReadAction} (hne : a ≠ .cancel)
    (hstep : readStep dec s a = some t) : Reaches (readStep dec) Uninterrupted s t := by
  refine Relation.ReflTransGen.single ⟨a, ?_, hstep⟩
  cases a with
  | cancel => exact hne rfl
  | _ => trivial

theorem exists_of_wire_nil {s : ReadState D S F E} (hwell : s.WellFormed dec) {expected : ℕ}
    (hfuture : s.future = .reading expected) (hwire : s.wire = []) :
    ∃ t, Reaches (readStep dec) Uninterrupted s t ∧ t.WellFormed dec ∧
      advance (blockReader dec) s.progress = some t.progress := by
  refine ⟨_, uninterrupted_step (a := .close) (by simp) ?_, wellFormed_idle hwell _,
    advance_of_close hwell hfuture hwire⟩
  simp [readStep, hfuture, hwire]

theorem exists_of_reading {s : ReadState D S F E} (hwell : s.WellFormed dec) {expected : ℕ}
    (hfuture : s.future = .reading expected) :
    ∃ t, Reaches (readStep dec) Uninterrupted s t ∧ t.WellFormed dec ∧
      advance (blockReader dec) s.progress = some t.progress := by
  obtain ⟨hlength, hwritable, hpartial⟩ := hwell.reading expected hfuture
  have hrunning := hwell.running (by simp [hfuture])
  by_cases hroom : s.half.currentFrameBuf.length - s.half.bytesRead ≤ s.wire.length
  · let n := s.half.currentFrameBuf.length - s.half.bytesRead
    have hbytes : (socketRead s n).half.bytesRead = s.half.bytesRead + n := rfl
    have hfull : ¬ (socketRead s n).half.bytesRead < expected := by omega
    refine ⟨decodeBlock dec (socketRead s n), uninterrupted_step (a := .read n) (by simp) ?_,
      wellFormed_decodeBlock hrunning, (socketRead_cases hwell hfuture le_rfl hroom).2 hfull⟩
    simp only [readStep, hfuture]
    rw [if_pos ⟨by omega, le_rfl, hroom⟩, if_neg hfull]
  · by_cases hwire : s.wire = []
    · exact exists_of_wire_nil hwell hfuture hwire
    · let n := s.wire.length
      have hpos : 1 ≤ n := List.length_pos_of_ne_nil hwire
      have hbytes : (socketRead s n).half.bytesRead = s.half.bytesRead + n := rfl
      have hmore : (socketRead s n).half.bytesRead < expected := by omega
      have hread := (socketRead_cases hwell hfuture (Nat.le_of_not_le hroom) le_rfl).1 hmore
      have hstep : readStep dec s (.read n) = some (socketRead s n) := by
        simp only [readStep, hfuture]
        rw [if_pos ⟨hpos, Nat.le_of_not_le hroom, le_rfl⟩, if_pos hmore]
      obtain ⟨t, hreaches, ht, hadvance⟩ :=
        exists_of_wire_nil hread hfuture List.drop_length
      rw [progress_socketRead hwell.bytesRead_le le_rfl] at hadvance
      exact ⟨t, (uninterrupted_step (by simp) hstep).trans hreaches, ht, hadvance⟩

theorem exists_uninterrupted {s : ReadState D S F E} (hwell : s.WellFormed dec)
    {p : Progress UInt8 (Decoded D S F E)}
    (hadvance : advance (blockReader dec) s.progress = some p) :
    ∃ t, Reaches (readStep dec) Uninterrupted s t ∧ t.WellFormed dec ∧ t.progress = p := by
  have hrunning : s.failure = none := by
    cases hfailure : s.failure with
    | none => rfl
    | some e => simp [advance, blockReader, progress, hfailure] at hadvance
  have hloop : ∀ a : ReadAction, a ≠ .cancel → readStep dec s a = some (loopHead dec s) →
      ∃ t, Reaches (readStep dec) Uninterrupted s t ∧ t.WellFormed dec ∧ t.progress = p := by
    intro a hne hstep
    have hreaches := uninterrupted_step hne hstep
    obtain ⟨hwell', ⟨hfuture, hsame, -⟩ | hnext⟩ := loopHead_cases hwell hrunning
    · obtain ⟨t, hrest, ht, hblock⟩ := exists_of_reading hwell' hfuture
      rw [hsame, hadvance] at hblock
      exact ⟨t, hreaches.trans hrest, ht, (Option.some.inj hblock).symm⟩
    · rw [hadvance] at hnext
      exact ⟨_, hreaches, hwell', (Option.some.inj hnext).symm⟩
  cases hfuture : s.future with
  | idle => exact hloop .call (by simp) (by simp [readStep, hfuture, hrunning])
  | yielding => exact hloop .resume (by simp) (by simp [readStep, hfuture])
  | reading expected =>
      obtain ⟨t, hreaches, ht, hblock⟩ := exists_of_reading hwell hfuture
      rw [hadvance] at hblock
      exact ⟨t, hreaches, ht, (Option.some.inj hblock).symm⟩

theorem follows_of_reachable {s t : ReadState D S F E} (hwell : s.WellFormed dec)
    (hreachable : Reachable (readStep dec) s t) :
    t.WellFormed dec ∧ Follows (blockReader dec) s.progress t.progress := by
  induction hreachable with
  | refl => exact ⟨hwell, Relation.ReflTransGen.refl⟩
  | tail _ hlast ih =>
      obtain ⟨a, -, hstep⟩ := hlast
      obtain ⟨hwell', hsame | hnext⟩ := serves_readStep ih.1 hstep
      · exact ⟨hwell', hsame ▸ ih.2⟩
      · exact ⟨hwell', ih.2.tail hnext⟩

theorem exists_of_follows {s : ReadState D S F E} (hwell : s.WellFormed dec)
    {p : Progress UInt8 (Decoded D S F E)} (hfollows : Follows (blockReader dec) s.progress p) :
    ∃ t, Reaches (readStep dec) Uninterrupted s t ∧ t.progress = p := by
  have hend : ∃ t, Reaches (readStep dec) Uninterrupted s t ∧ t.WellFormed dec ∧
      t.progress = p := by
    induction hfollows with
    | refl => exact ⟨s, Relation.ReflTransGen.refl, hwell, rfl⟩
    | tail _ hlast ih =>
        obtain ⟨t, hreaches, ht, rfl⟩ := ih
        obtain ⟨u, hrest, hu, hprogress⟩ := exists_uninterrupted ht hlast
        exact ⟨u, hreaches.trans hrest, hu, hprogress⟩
  obtain ⟨t, hreaches, -, hprogress⟩ := hend
  exact ⟨t, hreaches, hprogress⟩

theorem returned_of_advance {p q : Progress UInt8 (Decoded D S F E)}
    (hadvance : advance (blockReader dec) p = some q) :
    p.consumer.returned <+: q.consumer.returned := by
  obtain ⟨n, -, rfl⟩ := Option.map_eq_some_iff.mp hadvance
  split_ifs
  · exact List.prefix_rfl
  · simp only [blockReader, decode]
    split
    · exact List.prefix_append _ _
    · exact List.prefix_rfl
    · exact List.prefix_rfl

theorem returned_of_follows {p q : Progress UInt8 (Decoded D S F E)}
    (hfollows : Follows (blockReader dec) p q) :
    p.consumer.returned <+: q.consumer.returned := by
  induction hfollows with
  | refl => exact List.prefix_rfl
  | tail _ hlast ih => exact ih.trans (returned_of_advance hlast)

theorem wellFormed_start (decoder : D) (state : S) (stream : Bytes) :
    (ReadState.start decoder state stream : ReadState D S F E).WellFormed dec :=
  .of_no_bytes rfl (fun _ h => by cases h) fun _ => rfl

variable (dec)

/-- What a run with cancellations has in common with all uninterrupted runs over the stream. -/
structure ReadsLikeUninterrupted (start s : ReadState D S F E) : Prop where
  /-- No byte is lost, and none is read twice. -/
  conserved : s.fed ++ s.buffered ++ s.wire = start.wire
  matched : ∃ t, Reaches (readStep dec) Uninterrupted start t ∧ t.progress = s.progress
  comparable : ∀ t, Reaches (readStep dec) Uninterrupted start t →
    s.returned <+: t.returned ∨ t.returned <+: s.returned
  /-- Where both have ended, they have returned the same, with the same error at the end. -/
  completed : ∀ t, Reaches (readStep dec) Uninterrupted start t → s.failure.isSome →
    t.failure.isSome → s.returned = t.returned ∧ s.failure = t.failure
  /-- Left alone from now on, it returns all that the uninterrupted run has. -/
  catchesUp : ∀ t, Reaches (readStep dec) Uninterrupted start t →
    ∃ u, Reaches (readStep dec) Uninterrupted s u ∧ t.returned <+: u.returned

/-- Cancelling the reads wherever they wait changes nothing of what is read. -/
theorem cancelled_reads_agree (decoder : D) (state : S) (stream : Bytes) (s : ReadState D S F E)
    (hreachable : Reachable (readStep dec) (.start decoder state stream) s) :
    ReadsLikeUninterrupted dec (.start decoder state stream) s := by
  have hstart : (ReadState.start decoder state stream : ReadState D S F E).WellFormed dec :=
    wellFormed_start decoder state stream
  obtain ⟨hwell, hfollows⟩ := follows_of_reachable hstart hreachable
  have huninterrupted : ∀ t, Reaches (readStep dec) Uninterrupted (.start decoder state stream) t →
      Follows (blockReader dec) (ReadState.start decoder state stream).progress t.progress :=
    fun t ht => (follows_of_reachable hstart (ht.mono fun _ _ _ => trivial)).2
  have hstopped : ∀ t : ReadState D S F E, t.failure.isSome →
      (blockReader dec).blockSize t.progress.consumer = none := by
    intro t hfailed
    simp only [blockReader, progress, Option.isNone_eq_false_iff.mpr hfailed, Bool.false_eq_true,
      if_false]
  refine ⟨?_, exists_of_follows hstart hfollows, ?_, ?_, ?_⟩
  · rw [List.append_assoc]
    exact hfollows.conserves
  · intro t ht
    rcases hfollows.total (huninterrupted t ht) with hahead | hahead
    · exact Or.inl (returned_of_follows hahead)
    · exact Or.inr (returned_of_follows hahead)
  · intro t ht hs hfailed
    have heq := hfollows.eq_of_both_stopped (huninterrupted t ht) (hstopped s hs)
      (hstopped t hfailed)
    exact ⟨congrArg (fun p => p.consumer.returned) heq,
      congrArg (fun p => p.consumer.failure) heq⟩
  · intro t ht
    rcases hfollows.total (huninterrupted t ht) with hahead | hahead
    · obtain ⟨u, hu, hprogress⟩ := exists_of_follows hwell hahead
      have hsame : u.returned = t.returned :=
        congrArg (fun p => p.consumer.returned) hprogress
      exact ⟨u, hu, hsame ▸ List.prefix_rfl⟩
    · exact ⟨s, Relation.ReflTransGen.refl, returned_of_follows hahead⟩

end Steps

/-- A decoder of frames behind one byte of length; like the one of the codec, it asks for no
bytes at first. -/
structure LengthPrefixed where
  missing : ℕ := 0
  got : Bytes := []

def lengthPrefixed : NoiseDecoder LengthPrefixed Unit Bytes Unit where
  writableLen d := d.missing
  copyToWritable d block := { d with got := d.got ++ block }
  nextFrame d state :=
    match d.got with
    | [] => (.missingBytes, { missing := 1 }, state)
    | length :: payload =>
        if payload.length = length.toNat then (.frame payload, {}, state)
        else (.missingBytes, { d with missing := length.toNat - payload.length }, state)

/-- A frame whose read is cancelled four times. -/
def cancelledOften : List ReadAction :=
  [.call, .cancel, .call, .cancel, .call, .read 1, .cancel, .call, .read 1, .cancel, .call, .read 1]

theorem cancelled_reads_agree_of_one_frame :
    ∃ s, Reachable (readStep lengthPrefixed) (.start {} () [2, 7, 8]) s ∧
      s.returned = [[7, 8]] ∧
      ReadsLikeUninterrupted lengthPrefixed (.start {} () [2, 7, 8]) s := by
  obtain ⟨s, hreachable, hreturned⟩ := exists_reachable_of_runActions (readStep lengthPrefixed)
    (.start {} () [2, 7, 8]) cancelledOften (fun s => s.returned = [[7, 8]]) (by decide)
  exact ⟨s, hreachable, of_decide_eq_true hreturned,
    cancelled_reads_agree lengthPrefixed {} () [2, 7, 8] s hreachable⟩

end DatumGateway.NoiseFrames
