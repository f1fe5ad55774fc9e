import DatumGateway.FrameSends
import DatumGateway.TransitionSystem

namespace DatumGateway.ConcurrentSends

open DatumGateway.ByteString
open DatumGateway.FrameHeaders
open DatumGateway.FrameSends
open DatumGateway.KeyedMaps
open DatumGateway.SessionNonces
open DatumGateway.TransitionSystem
open DatumGateway.UpstreamFrames

/-- The frames whose last byte is on the wire. -/
def written (s : Connected) : List (UInt8 × Bytes) :=
  s.completed ++ ((s.nonceHolder.bind s.calls.lookup).bind fun call =>
    match call.phase with
    | .writingBody [] _ => some (call.protoCmd, call.plaintext)
    | _ => none).toList

/-- Where the call that holds the nonce stands, if the receiver has got to `chain` with `bytes`. -/
def InFlight (crypto : DatumCrypto) (precompKey : ByteVec 32) (s : Connected) (bytes : Bytes)
    (chain : ChannelState) (call : SendCall) : Prop :=
  let parts := frameParts crypto precompKey chain.nonce (channelFrame call.protoCmd call.plaintext)
  match call.phase with
  | .waiting => False
  | .locked => s.senderObf = chain.obf ∧ s.wire = bytes
  | .packed plainWord ciphertext =>
      s.senderObf = chain.obf ∧ s.wire = bytes ∧ parts = .ok (plainWord, ciphertext)
  | .obfuscated header ciphertext =>
      ∃ plainWord, parts = .ok (plainWord, ciphertext) ∧
        s.senderObf = (chain.obf.encrypt plainWord).2 ∧ s.wire = bytes ∧
        header ++ ciphertext = wireBytes chain.obf plainWord ciphertext ∧ header ≠ []
  | .writingHeader unwritten ciphertext =>
      ∃ plainWord part, parts = .ok (plainWord, ciphertext) ∧
        s.senderObf = (chain.obf.encrypt plainWord).2 ∧ s.wire = bytes ++ part ∧
        part ++ unwritten ++ ciphertext = wireBytes chain.obf plainWord ciphertext ∧ unwritten ≠ []
  | .writingBody unwritten ciphertext =>
      ∃ plainWord part, parts = .ok (plainWord, ciphertext) ∧
        s.senderObf = (chain.obf.encrypt plainWord).2 ∧ s.wire = bytes ++ part ∧
        part ++ unwritten = wireBytes chain.obf plainWord ciphertext

def Agrees (crypto : DatumCrypto) (precompKey : ByteVec 32) (s : Connected) (bytes : Bytes)
    (chain : ChannelState) : Prop :=
  chain.nonce = s.senderNonce ∧
    match s.nonceHolder with
    | none => s.senderObf = chain.obf ∧ s.wire = bytes
    | some id => ∃ call, s.calls.lookup id = some call ∧
        InFlight crypto precompKey s bytes chain call

/-- What is assumed of the cipher. -/
structure SealsAndOpens (crypto : DatumCrypto) (precompKey : ByteVec 32) (overhead : ℕ) : Prop where
  opens : ∀ nonce m c, crypto.boxEasyAfternm precompKey nonce m = some c →
    crypto.boxOpenEasyAfternm precompKey nonce c = some m
  adds : ∀ nonce m c, crypto.boxEasyAfternm precompKey nonce m = some c →
    c.length = m.length + overhead

structure SendInvariant (crypto : DatumCrypto) (precompKey : ByteVec 32) (overhead : ℕ)
    (start : ChannelState) (s : Connected) : Prop where
  fits : ∀ id call, s.calls.lookup id = some call → call.plaintext.length + overhead < 2 ^ 32
  waiting : ∀ id call, s.calls.lookup id = some call → s.nonceHolder ≠ some id →
    call.phase = .waiting
  received : ∃ bytes fs chain, Receives crypto precompKey start bytes fs chain ∧
    fs.map ReceivedFrame.content = s.completed ∧ Agrees crypto precompKey s bytes chain

section Invariant

variable {crypto : DatumCrypto} {precompKey : ByteVec 32} {overhead : ℕ} {start : ChannelState}
variable {s t : Connected} {id : ℕ} {call : SendCall}

theorem SendInvariant.holder (hinv : SendInvariant crypto precompKey overhead start s)
    (hcall : s.calls.lookup id = some call) (hphase : call.phase ≠ .waiting) :
    s.nonceHolder = some id := by
  by_contra hother
  exact hphase (hinv.waiting id call hcall hother)

theorem SendInvariant.inFlight (hinv : SendInvariant crypto precompKey overhead start s)
    (hholder : s.nonceHolder = some id) (hcall : s.calls.lookup id = some call) :
    ∃ bytes fs chain, Receives crypto precompKey start bytes fs chain ∧
      fs.map ReceivedFrame.content = s.completed ∧ chain.nonce = s.senderNonce ∧
      InFlight crypto precompKey s bytes chain call := by
  obtain ⟨bytes, fs, chain, hreceives, hcontent, hnonce, hagrees⟩ := hinv.received
  rw [hholder] at hagrees
  obtain ⟨call', hcall', hflight⟩ := hagrees
  obtain rfl := Option.some.inj (hcall.symm.trans hcall')
  exact ⟨bytes, fs, chain, hreceives, hcontent, hnonce, hflight⟩

theorem SendInvariant.of_phase {phase : SendPhase}
    (hinv : SendInvariant crypto precompKey overhead start s)
    (hcall : s.calls.lookup id = some call) (hphase : call.phase ≠ .waiting)
    (hcalls : t.calls = s.calls.insert id { call with phase })
    (hnonceHolder : t.nonceHolder = s.nonceHolder) (hnonce : t.senderNonce = s.senderNonce)
    (hcompleted : t.completed = s.completed)
    (hflight : ∀ bytes chain, chain.nonce = s.senderNonce →
      InFlight crypto precompKey s bytes chain call →
        InFlight crypto precompKey t bytes chain { call with phase }) :
    SendInvariant crypto precompKey overhead start t := by
  have hholder := hinv.holder hcall hphase
  obtain ⟨bytes, fs, chain, hreceives, hcontent, hchain, hbefore⟩ := hinv.inFlight hholder hcall
  constructor
  · intro id' call' hcall'
    rw [hcalls] at hcall'
    rcases lookup_insert_eq_some_iff.mp hcall' with ⟨-, rfl⟩ | ⟨-, hcall'⟩
    · exact hinv.fits id call hcall
    · exact hinv.fits id' call' hcall'
  · intro id' call' hcall' hother
    rw [hcalls] at hcall'
    rw [hnonceHolder, hholder] at hother
    rcases lookup_insert_eq_some_iff.mp hcall' with ⟨rfl, -⟩ | ⟨-, hcall'⟩
    · exact absurd rfl hother
    · exact hinv.waiting id' call' hcall' (by rwa [hholder])
  · refine ⟨bytes, fs, chain, hreceives, hcontent.trans hcompleted.symm,
      hchain.trans hnonce.symm, ?_⟩
    rw [hnonceHolder, hholder]
    refine ⟨{ call with phase }, ?_, hflight bytes chain hchain hbefore⟩
    rw [hcalls, AList.lookup_insert]

theorem SendInvariant.of_release (hinv : SendInvariant crypto precompKey overhead start s)
    (hcall : s.calls.lookup id = some call) (hphase : call.phase ≠ .waiting)
    (hcalls : t.calls = s.calls.erase id) (hnonceHolder : t.nonceHolder = none)
    (hreceived : ∃ bytes fs chain, Receives crypto precompKey start bytes fs chain ∧
      fs.map ReceivedFrame.content = t.completed ∧ chain.nonce = t.senderNonce ∧
      t.senderObf = chain.obf ∧ t.wire = bytes) :
    SendInvariant crypto precompKey overhead start t := by
  have hholder := hinv.holder hcall hphase
  obtain ⟨bytes, fs, chain, hreceives, hcontent, hchain, hagrees⟩ := hreceived
  constructor
  · intro id' call' hcall'
    rw [hcalls] at hcall'
    exact hinv.fits id' call' (lookup_erase_eq_some_iff.mp hcall').2
  · intro id' call' hcall' hother
    rw [hcalls] at hcall'
    obtain ⟨hne, hcall'⟩ := lookup_erase_eq_some_iff.mp hcall'
    refine hinv.waiting id' call' hcall' ?_
    rw [hholder]
    exact fun h => hne (Option.some.inj h).symm
  · refine ⟨bytes, fs, chain, hreceives, hcontent, hchain, ?_⟩
    rw [hnonceHolder]
    exact hagrees

theorem length_ciphertext_lt (hcrypto : SealsAndOpens crypto precompKey overhead)
    {nonce : ByteVec 24} {protoCmd : UInt8} {plaintext : Bytes} {plainWord : UInt32}
    {ciphertext : Bytes}
    (hparts : frameParts crypto precompKey nonce (channelFrame protoCmd plaintext) =
      .ok (plainWord, ciphertext)) (hfits : plaintext.length + overhead < 2 ^ 32) :
    ciphertext.length < 2 ^ 32 := by
  obtain ⟨hsealed, -⟩ := frameParts_eq_ok hparts
  have hbody : (channelFrame protoCmd plaintext).body = plaintext := List.append_nil plaintext
  rw [hbody] at hsealed
  have hlength := hcrypto.adds nonce plaintext ciphertext hsealed
  rwa [hlength]

theorem SendInvariant.finish {ciphertext : Bytes}
    (hcrypto : SealsAndOpens crypto precompKey overhead)
    (hinv : SendInvariant crypto precompKey overhead start s)
    (hcall : s.calls.lookup id = some call)
    (hphase : call.phase = .writingBody [] ciphertext) :
    SendInvariant crypto precompKey overhead start
      { s.release id with
        senderNonce := incrementNonce s.senderNonce
        positions := { s.positions with nonce := s.positions.nonce + 1 }
        completed := s.completed ++ [(call.protoCmd, call.plaintext)] } := by
  have hne : call.phase ≠ .waiting := by
    rw [hphase]
    exact SendPhase.noConfusion
  obtain ⟨bytes, fs, chain, hreceives, hcontent, hchain, hflight⟩ :=
    hinv.inFlight (hinv.holder hcall hne) hcall
  rw [InFlight, hphase] at hflight
  obtain ⟨plainWord, part, hparts, hobf, hwire, hframe⟩ := hflight
  rw [List.append_nil] at hframe
  have hlength := length_ciphertext_lt hcrypto hparts (hinv.fits id call hcall)
  have hpart : Receives crypto precompKey chain part
      [receivedFrame (channelFrame call.protoCmd call.plaintext) chain.nonce ciphertext]
      { obf := (chain.obf.encrypt plainWord).2, nonce := incrementNonce chain.nonce } := by
    rw [hframe]
    exact receives_wireBytes hcrypto.opens hparts hlength
  refine hinv.of_release hcall hne rfl rfl
    ⟨bytes ++ part, _, _, hreceives.append hpart, ?_, ?_, hobf, hwire⟩
  · rw [List.map_append, hcontent]
    rfl
  · rw [hchain]

theorem SendInvariant.of_fresh {protoCmd : UInt8} {plaintext : Bytes}
    (hinv : SendInvariant crypto precompKey overhead start s)
    (hfits : plaintext.length + overhead < 2 ^ 32) (hfresh : s.calls.lookup id = none) :
    SendInvariant crypto precompKey overhead start
      { s with calls := s.calls.insert id { protoCmd, plaintext, phase := .waiting } } := by
  have hholder : s.nonceHolder ≠ some id := by
    intro hholder
    obtain ⟨_, _, _, _, _, _, hagrees⟩ := hinv.received
    rw [hholder] at hagrees
    obtain ⟨call, hcall, -⟩ := hagrees
    rw [hfresh] at hcall
    cases hcall
  constructor
  · intro id' call' hcall'
    rcases lookup_insert_eq_some_iff.mp hcall' with ⟨-, rfl⟩ | ⟨-, hcall'⟩
    · exact hfits
    · exact hinv.fits id' call' hcall'
  · intro id' call' hcall' hother
    rcases lookup_insert_eq_some_iff.mp hcall' with ⟨-, rfl⟩ | ⟨-, hcall'⟩
    · rfl
    · exact hinv.waiting id' call' hcall' hother
  · obtain ⟨bytes, fs, chain, hreceives, hcontent, hchain, hagrees⟩ := hinv.received
    refine ⟨bytes, fs, chain, hreceives, hcontent, hchain, ?_⟩
    cases hnonce : s.nonceHolder with
    | none =>
        rw [hnonce] at hagrees
        exact hagrees
    | some holder =>
        rw [hnonce] at hagrees hholder
        obtain ⟨call, hcall, hflight⟩ := hagrees
        refine ⟨call, ?_, hflight⟩
        rw [AList.lookup_insert_ne fun h => hholder (congrArg some h), hcall]

theorem SendInvariant.lockNonce (hinv : SendInvariant crypto precompKey overhead start s)
    (hcall : s.calls.lookup id = some call) (hholder : s.nonceHolder = none) :
    SendInvariant crypto precompKey overhead start
      { s.setPhase id call .locked with nonceHolder := some id, lockedAt := s.positions } := by
  constructor
  · intro id' call' hcall'
    rcases lookup_insert_eq_some_iff.mp hcall' with ⟨-, rfl⟩ | ⟨-, hcall'⟩
    · exact hinv.fits id call hcall
    · exact hinv.fits id' call' hcall'
  · intro id' call' hcall' hother
    rcases lookup_insert_eq_some_iff.mp hcall' with ⟨rfl, -⟩ | ⟨-, hcall'⟩
    · exact absurd rfl hother
    · exact hinv.waiting id' call' hcall' (by rw [hholder]; exact (Option.some_ne_none _).symm)
  · obtain ⟨bytes, fs, chain, hreceives, hcontent, hchain, hagrees⟩ := hinv.received
    rw [hholder] at hagrees
    exact ⟨bytes, fs, chain, hreceives, hcontent, hchain,
      { call with phase := .locked }, AList.lookup_insert _, hagrees⟩

theorem SendInvariant.step {a : SendAction} (hcrypto : SealsAndOpens crypto precompKey overhead)
    (hinv : SendInvariant crypto precompKey overhead start s)
    (hfits : ∀ id protoCmd plaintext, a = .call id protoCmd plaintext →
      plaintext.length + overhead < 2 ^ 32)
    (hfails : ∀ id timedOut, a ≠ .writeFails id timedOut)
    (hstep : sendStep crypto precompKey s a = some t) :
    SendInvariant crypto precompKey overhead start t := by
  cases sendStep_cases hstep with
  | call id protoCmd plaintext hfresh =>
      exact hinv.of_fresh (hfits id protoCmd plaintext rfl) hfresh
  | lockNonce id call hcall _ hholder => exact hinv.lockNonce hcall hholder
  | boxFails id call e hcall hphase =>
      have hne : call.phase ≠ .waiting := by
        rw [hphase]
        exact SendPhase.noConfusion
      obtain ⟨bytes, fs, chain, hreceives, hcontent, hchain, hflight⟩ :=
        hinv.inFlight (hinv.holder hcall hne) hcall
      rw [InFlight, hphase] at hflight
      exact hinv.of_release hcall hne rfl rfl
        ⟨bytes, fs, chain, hreceives, hcontent, hchain, hflight⟩
  | boxEasy id call plainWord ciphertext hcall hphase hparts =>
      refine hinv.of_phase hcall (by rw [hphase]; exact SendPhase.noConfusion) rfl rfl rfl rfl ?_
      intro bytes chain hchain hflight
      rw [InFlight, hphase] at hflight
      rw [← hchain] at hparts
      exact ⟨hflight.1, hflight.2, hparts⟩
  | obfuscate id call plainWord ciphertext hcall hphase =>
      refine hinv.of_phase hcall (by rw [hphase]; exact SendPhase.noConfusion) rfl rfl rfl rfl ?_
      intro bytes chain hchain hflight
      rw [InFlight, hphase] at hflight
      obtain ⟨hobf, hwire, hparts⟩ := hflight
      refine ⟨plainWord, hparts, ?_, hwire, ?_, ?_⟩
      · rw [hobf]
      · rw [hobf]
        rfl
      · exact List.ne_nil_of_length_eq_add_one (List.Vector.toList_length _)
  | lockWriter id call header ciphertext hcall hphase _ =>
      refine hinv.of_phase hcall (by rw [hphase]; exact SendPhase.noConfusion) rfl rfl rfl rfl ?_
      intro bytes chain hchain hflight
      rw [InFlight, hphase] at hflight
      obtain ⟨plainWord, hparts, hobf, hwire, hframe, hheader⟩ := hflight
      refine ⟨plainWord, [], hparts, hobf, ?_, hframe, hheader⟩
      rw [List.append_nil]
      exact hwire
  | writeHeader id count call unwritten ciphertext hcall hphase =>
      refine hinv.of_phase hcall (by rw [hphase]; exact SendPhase.noConfusion) rfl rfl rfl rfl ?_
      intro bytes chain hchain hflight
      rw [InFlight, hphase] at hflight
      obtain ⟨plainWord, part, hparts, hobf, hwire, hframe, -⟩ := hflight
      have hframe' : part ++ unwritten.take count ++ unwritten.drop count ++ ciphertext =
          wireBytes chain.obf plainWord ciphertext := by
        rw [List.append_assoc part, List.take_append_drop, hframe]
      have hwire' : s.wire ++ unwritten.take count = bytes ++ (part ++ unwritten.take count) := by
        rw [hwire, List.append_assoc]
      rw [InFlight]
      dsimp only
      split_ifs with hrest
      · rw [hrest, List.append_nil] at hframe'
        exact ⟨plainWord, _, hparts, hobf, hwire', hframe'⟩
      · exact ⟨plainWord, _, hparts, hobf, hwire', hframe', hrest⟩
  | writeBody id count call unwritten ciphertext hcall hphase =>
      refine hinv.of_phase hcall (by rw [hphase]; exact SendPhase.noConfusion) rfl rfl rfl rfl ?_
      intro bytes chain hchain hflight
      rw [InFlight, hphase] at hflight
      obtain ⟨plainWord, part, hparts, hobf, hwire, hframe⟩ := hflight
      refine ⟨plainWord, part ++ unwritten.take count, hparts, hobf, ?_, ?_⟩
      · dsimp only
        rw [hwire, List.append_assoc]
      · rw [List.append_assoc, List.take_append_drop, hframe]
  | finish id call ciphertext hcall hphase => exact hinv.finish hcrypto hcall hphase
  | writeFails id timedOut _ => exact absurd rfl (hfails id timedOut)

theorem recvAll_of_receives {s' : ChannelState} {bytes part : Bytes} {fs : List ReceivedFrame}
    (hreceives : Receives crypto precompKey start bytes fs s')
    (hmore : recvFrame crypto precompKey s' part = .needsMore) :
    recvAll crypto precompKey start (bytes ++ part) = fs := by
  rw [hreceives, recvAll_of_needsMore hmore, List.append_nil]

theorem recvFrame_nil (s : ChannelState) : recvFrame crypto precompKey s [] = .needsMore :=
  rfl

theorem proper_prefix {part unwritten frame : Bytes} (hframe : part ++ unwritten = frame)
    (hne : unwritten ≠ []) : part <+: frame ∧ part.length < frame.length := by
  subst hframe
  refine ⟨List.prefix_append _ _, ?_⟩
  rw [List.length_append]
  have hpos := List.length_pos_of_ne_nil hne
  omega

theorem recvAll_of_whole {s' : ChannelState} {bytes : Bytes} {fs : List ReceivedFrame}
    (hreceives : Receives crypto precompKey start bytes fs s') :
    recvAll crypto precompKey start bytes = fs := by
  have hall := recvAll_of_receives hreceives (recvFrame_nil s')
  rwa [List.append_nil] at hall

theorem recvAll_of_cut {s' : ChannelState} {bytes part unwritten raw : Bytes}
    {fs : List ReceivedFrame} {f : PlainFrame} {plainWord : UInt32}
    (hreceives : Receives crypto precompKey start bytes fs s')
    (hparts : frameParts crypto precompKey s'.nonce f = .ok (plainWord, raw))
    (hraw : raw.length < 2 ^ 32) (hframe : part ++ unwritten = wireBytes s'.obf plainWord raw)
    (hne : unwritten ≠ []) :
    recvAll crypto precompKey start (bytes ++ part) = fs := by
  obtain ⟨hprefixes, hproper⟩ := proper_prefix hframe hne
  exact recvAll_of_receives hreceives (recvFrame_of_part hparts hraw hprefixes hproper)

theorem SendInvariant.recvAll_wire (hcrypto : SealsAndOpens crypto precompKey overhead)
    (hinv : SendInvariant crypto precompKey overhead start s) :
    (recvAll crypto precompKey start s.wire).map ReceivedFrame.content = written s := by
  cases hholder : s.nonceHolder with
  | none =>
      obtain ⟨bytes, fs, chain, hreceives, hcontent, -, hagrees⟩ := hinv.received
      rw [hholder] at hagrees
      rw [hagrees.2, recvAll_of_whole hreceives, hcontent, written, hholder]
      exact (List.append_nil _).symm
  | some id =>
      obtain ⟨call, hcall⟩ : ∃ call, s.calls.lookup id = some call := by
        obtain ⟨_, _, _, _, _, _, hagrees⟩ := hinv.received
        rw [hholder] at hagrees
        exact ⟨hagrees.choose, hagrees.choose_spec.1⟩
      obtain ⟨bytes, fs, chain, hreceives, hcontent, -, hflight⟩ := hinv.inFlight hholder hcall
      have hsame : s.wire = bytes →
          (recvAll crypto precompKey start s.wire).map ReceivedFrame.content = s.completed := by
        intro hwire
        rw [hwire, recvAll_of_whole hreceives, hcontent]
      have hpart : ∀ part unwritten plainWord ciphertext, unwritten ≠ [] →
          frameParts crypto precompKey chain.nonce (channelFrame call.protoCmd call.plaintext) =
            .ok (plainWord, ciphertext) →
          s.wire = bytes ++ part → part ++ unwritten = wireBytes chain.obf plainWord ciphertext →
          (recvAll crypto precompKey start s.wire).map ReceivedFrame.content = s.completed := by
        intro part unwritten plainWord ciphertext hne hparts hwire hframe
        have hlength := length_ciphertext_lt hcrypto hparts (hinv.fits id call hcall)
        rw [hwire, recvAll_of_cut hreceives hparts hlength hframe hne, hcontent]
      rw [written, hholder, Option.bind_some, hcall, Option.bind_some]
      rw [InFlight] at hflight
      cases hphase : call.phase with
      | waiting =>
          rw [hphase] at hflight
          exact hflight.elim
      | locked =>
          rw [hphase] at hflight
          exact (hsame hflight.2).trans (List.append_nil _).symm
      | packed plainWord ciphertext =>
          rw [hphase] at hflight
          exact (hsame hflight.2.1).trans (List.append_nil _).symm
      | obfuscated header ciphertext =>
          rw [hphase] at hflight
          obtain ⟨_, _, _, hwire, _⟩ := hflight
          exact (hsame hwire).trans (List.append_nil _).symm
      | writingHeader unwritten ciphertext =>
          rw [hphase] at hflight
          obtain ⟨plainWord, part, hparts, -, hwire, hframe, hne⟩ := hflight
          rw [List.append_assoc] at hframe
          exact (hpart part _ plainWord ciphertext (List.append_ne_nil_of_left_ne_nil hne _) hparts
            hwire hframe).trans (List.append_nil _).symm
      | writingBody unwritten ciphertext =>
          rw [hphase] at hflight
          obtain ⟨plainWord, part, hparts, -, hwire, hframe⟩ := hflight
          cases unwritten with
          | nil =>
              -- the last byte is written, but the call has not returned
              rw [List.append_nil] at hframe
              have hlength := length_ciphertext_lt hcrypto hparts (hinv.fits id call hcall)
              have hlast := receives_wireBytes hcrypto.opens hparts hlength []
              rw [List.append_nil] at hlast
              rw [hwire, hreceives, hframe, hlast, List.map_append, hcontent]
              rfl
          | cons b unwritten =>
              exact (hpart part _ plainWord ciphertext (List.cons_ne_nil b unwritten) hparts
                hwire hframe).trans (List.append_nil _).symm

theorem errors_of_sendStep {a : SendAction} (hstep : sendStep crypto precompKey s a = some t)
    (hnone : t.errors = []) : s.errors = [] ∧ ∀ id timedOut, a ≠ .writeFails id timedOut := by
  have hfail : ∀ id e, (s.fail id e).errors ≠ [] := by
    intro id e
    exact List.append_ne_nil_of_right_ne_nil _ (List.cons_ne_nil _ _)
  cases sendStep_cases hstep with
  | boxFails id call e _ _ => exact absurd hnone (hfail id e)
  | writeFails id timedOut e => exact absurd hnone (hfail id e)
  | _ => exact ⟨hnone, fun _ _ => SendAction.noConfusion⟩

end Invariant

section Runs

variable {crypto : DatumCrypto} {precompKey : ByteVec 32} {overhead : ℕ}

theorem sendInvariant_connected (start : ChannelState) :
    SendInvariant crypto precompKey overhead start (connected start) := by
  constructor
  · intro id call hcall
    cases hcall
  · intro id call hcall
    cases hcall
  · exact ⟨[], [], start, Receives.nil start, rfl, rfl, rfl, rfl⟩

/-- The calls stay within the length of a frame. -/
def fitsFrame (overhead : ℕ) : SendAction → Bool
  | .call _ protoCmd plaintext => decide (plaintext.length + overhead < 2 ^ 22 ∧ protoCmd < 32)
  | _ => true

def SoundWithoutErrors (crypto : DatumCrypto) (precompKey : ByteVec 32) (overhead : ℕ)
    (start : ChannelState) (s : Connected) : Prop :=
  s.errors = [] → SendInvariant crypto precompKey overhead start s

theorem SoundWithoutErrors.step {start : ChannelState} {s t : Connected} {a : SendAction}
    (hcrypto : SealsAndOpens crypto precompKey overhead)
    (hsound : SoundWithoutErrors crypto precompKey overhead start s)
    (hfits : fitsFrame overhead a = true) (hstep : sendStep crypto precompKey s a = some t) :
    SoundWithoutErrors crypto precompKey overhead start t := by
  intro hnone
  obtain ⟨hbefore, hfails⟩ := errors_of_sendStep hstep hnone
  refine (hsound hbefore).step hcrypto ?_ hfails hstep
  rintro id protoCmd plaintext rfl
  exact (of_decide_eq_true hfits).1.trans (by decide)

theorem receives_encodeFrames (hcrypto : SealsAndOpens crypto precompKey overhead)
    {s : ChannelState} {frames : List PlainFrame} {bytes : Bytes}
    (hfits : ∀ f ∈ frames, f.body.length + overhead < 2 ^ 22)
    (hencode : encodeFrames crypto precompKey s frames = .ok bytes) :
    ∃ fs s', Receives crypto precompKey s bytes fs s' ∧
      fs.map ReceivedFrame.content = frames.map fun f => (f.protoCmd, f.payload) := by
  induction frames generalizing s bytes with
  | nil =>
      obtain rfl := Except.ok.inj hencode
      exact ⟨[], s, Receives.nil s, rfl⟩
  | cons f frames ih =>
      rw [encodeFrames] at hencode
      split at hencode
      · cases hencode
      · rename_i plainWord raw hparts
        have hlength : raw.length < 2 ^ 32 := by
          obtain ⟨hraw, -⟩ := frameParts_eq_ok hparts
          have hbody := hfits f List.mem_cons_self
          split_ifs at hraw
          · have hadds := hcrypto.adds s.nonce f.body raw hraw
            omega
          · obtain rfl := Option.some.inj hraw
            omega
        have hfirst := receives_wireBytes hcrypto.opens hparts hlength
        cases hrest : encodeFrames crypto precompKey
            { obf := (s.obf.encrypt plainWord).2, nonce := nextNonce f s.nonce } frames with
        | error e =>
            simp only [hrest] at hencode
            cases hencode
        | ok rest =>
            simp only [hrest] at hencode
            obtain rfl := Except.ok.inj hencode
            obtain ⟨fs, s', hreceives, hcontent⟩ :=
              ih (fun f hf => hfits f (List.mem_cons_of_mem _ hf)) hrest
            refine ⟨_, s', hfirst.append hreceives, ?_⟩
            rw [List.map_append, hcontent]
            rfl

end Runs

/-- A peer that starts where the sender does receives the frames of all calls in the order in which
they are written; and what the pool sends after the handshake is received in the same way. -/
theorem recvAll_of_concurrent_sends (crypto : DatumCrypto) (precompKey : ByteVec 32)
    (overhead : ℕ) (hcrypto : SealsAndOpens crypto precompKey overhead) (nk : UInt32)
    (sessionEd25519Pub : ByteVec 32) :
    (∀ t, Reaches (sendStep crypto precompKey) (fun _ a => fitsFrame overhead a = true)
        (connected (senderStart nk sessionEd25519Pub)) t → t.errors = [] →
      (recvAll crypto precompKey (senderStart nk sessionEd25519Pub) t.wire).map
        ReceivedFrame.content = written t) ∧
    ∀ handshakeHeader frames bytes,
      (∀ f ∈ frames, f.body.length + overhead < 2 ^ 22) →
      encodeFrames crypto precompKey
        { obf := ((HeaderObfuscator.forReceiver nk).encrypt handshakeHeader).2
          nonce := (deriveSessionNonces nk sessionEd25519Pub).2 } frames = .ok bytes →
      (recvAll crypto precompKey
          (receiverStart nk sessionEd25519Pub
            ((HeaderObfuscator.forReceiver nk).encrypt handshakeHeader).1) bytes).map
        ReceivedFrame.content = frames.map fun f => (f.protoCmd, f.payload) := by
  constructor
  · intro t hreaches hnone
    have hstart : SoundWithoutErrors crypto precompKey overhead
        (senderStart nk sessionEd25519Pub) (connected (senderStart nk sessionEd25519Pub)) :=
      fun _ => sendInvariant_connected _
    have hsound :
        SoundWithoutErrors crypto precompKey overhead (senderStart nk sessionEd25519Pub) t :=
      hreaches.invariant hstart fun s a t hsound hfits hstep => hsound.step hcrypto hfits hstep
    exact (hsound hnone).recvAll_wire hcrypto
  · intro handshakeHeader frames bytes hfits hencode
    obtain ⟨fs, s', hreceives, hcontent⟩ := receives_encodeFrames hcrypto hfits hencode
    rw [← hcontent, ← recvAll_of_whole hreceives, receiverStart, HeaderObfuscator.decrypt_encrypt]

/-- A cipher that hides nothing, and has the beginning of the nonce for a tag. -/
def tagCrypto : DatumCrypto where
  boxEasyAfternm _ nonce m := some (nonce.toList.take 16 ++ m)
  boxOpenEasyAfternm _ nonce c :=
    if c.take 16 = nonce.toList.take 16 then some (c.drop 16) else none

theorem sealsAndOpens_tagCrypto (precompKey : ByteVec 32) :
    SealsAndOpens tagCrypto precompKey 16 := by
  have htag : ∀ nonce : ByteVec 24, (nonce.toList.take 16).length = 16 := by
    intro nonce
    rw [List.length_take, List.Vector.toList_length]
    rfl
  constructor
  · intro nonce m c hseal
    obtain rfl := Option.some.inj hseal
    simp only [tagCrypto]
    rw [List.take_left' (htag nonce), List.drop_left' (htag nonce), if_pos rfl]
  · intro nonce m c hseal
    obtain rfl := Option.some.inj hseal
    rw [List.length_append, htag, Nat.add_comm]

theorem recvAll_of_two_sends :
    let key := ByteVec.fill 32 0
    let start := senderStart 0 (ByteVec.fill 32 0)
    (∃ t, Reaches (sendStep tagCrypto key) (fun _ a => fitsFrame 16 a = true) (connected start) t ∧
      decide (t.errors = [] ∧ written t = [(5, [2]), (5, [1, 1])]) = true ∧
      (recvAll tagCrypto key start t.wire).map ReceivedFrame.content = written t) ∧
    ∃ bytes, encodeFrames tagCrypto key
        { obf := ((HeaderObfuscator.forReceiver 0).encrypt 7).2
          nonce := (deriveSessionNonces 0 (ByteVec.fill 32 0)).2 }
        [channelFrame 5 [3]] = .ok bytes ∧
      (recvAll tagCrypto key (receiverStart 0 (ByteVec.fill 32 0)
        ((HeaderObfuscator.forReceiver 0).encrypt 7).1) bytes).map ReceivedFrame.content =
          [(5, [3])] := by
  intro key start
  have hboth := recvAll_of_concurrent_sends tagCrypto key 16 (sealsAndOpens_tagCrypto key) 0
    (ByteVec.fill 32 0)
  constructor
  · obtain ⟨t, hreaches, hwritten⟩ := exists_reaches_of_runGuarded (sendStep tagCrypto key)
      (fun _ a => fitsFrame 16 a) (connected start)
      [.call 1 5 [1, 1], .call 2 5 [2], .lockNonce 2, .boxEasy 2, .obfuscate 2, .lockWriter 2,
        .write 2 4, .write 2 17, .finish 2, .lockNonce 1, .boxEasy 1, .obfuscate 1, .lockWriter 1,
        .write 1 3, .write 1 1, .write 1 10, .write 1 8]
      (fun t => decide (t.errors = [] ∧ written t = [(5, [2]), (5, [1, 1])])) (by decide +kernel)
    exact ⟨t, hreaches, hwritten, hboth.1 t hreaches (of_decide_eq_true hwritten).1⟩
  · cases hencode : encodeFrames tagCrypto key
        { obf := ((HeaderObfuscator.forReceiver 0).encrypt 7).2
          nonce := (deriveSessionNonces 0 (ByteVec.fill 32 0)).2 } [channelFrame 5 [3]] with
    | error e => cases hencode
    | ok bytes => exact ⟨bytes, rfl, hboth.2 7 _ bytes (by decide) hencode⟩

end DatumGateway.ConcurrentSends
