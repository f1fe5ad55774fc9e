import DatumGateway.ConcurrentSends

namespace DatumGateway.SendFailures

open DatumGateway.ByteString
open DatumGateway.ConcurrentSends
open DatumGateway.FrameHeaders
open DatumGateway.FrameSends
open DatumGateway.KeyedMaps
open DatumGateway.SessionNonces
open DatumGateway.TransitionSystem
open DatumGateway.UpstreamFrames

/-- The nonce and the header key advance together or not at all. -/
def InLockstep (e : SendError) : Prop :=
  e.after = e.before ∨ e.after = { header := e.before.header + 1, nonce := e.before.nonce + 1 }

instance (e : SendError) : Decidable (InLockstep e) :=
  inferInstanceAs (Decidable (_ ∨ _))

structure FailureSafe (crypto : DatumCrypto) (precompKey : ByteVec 32) (start : ChannelState)
    (s : Connected) : Prop where
  nonceUnique : ∀ nonce ciphertext ciphertext', (nonce, ciphertext) ∈ s.exposed →
    (nonce, ciphertext') ∈ s.exposed → ciphertext = ciphertext'
  lockstep : ∀ e ∈ s.errors, InLockstep e
  decodable : (recvAll crypto precompKey start s.wire).map ReceivedFrame.content = written s

/-- No write fails, no plaintext is too long for the length of its ciphertext to be told, and the
nonces are not used up. -/
def keepsLockstep (overhead : ℕ) (s : Connected) : SendAction → Bool
  | .call _ _ plaintext => decide (plaintext.length + overhead < 2 ^ 32)
  | .finish _ => decide (s.positions.nonce + 1 < 2 ^ 192)
  | .writeFails _ _ => false
  | _ => true

/-- The ciphertext is being written. -/
def Writing (s : Connected) (ciphertext : Bytes) : Prop :=
  ∃ id call unwritten,
    s.calls.lookup id = some call ∧ call.phase = .writingBody unwritten ciphertext

structure FailureInvariant (crypto : DatumCrypto) (precompKey : ByteVec 32) (overhead : ℕ)
    (start : ChannelState) (s : Connected) : Prop where
  sends : SendInvariant crypto precompKey overhead start s
  nonce : s.senderNonce = incrementNonce^[s.positions.nonce] start.nonce
  bound : s.positions.nonce < 2 ^ 192
  exposed : ∀ nonce ciphertext, (nonce, ciphertext) ∈ s.exposed → ∃ j ≤ s.positions.nonce,
    nonce = incrementNonce^[j] start.nonce ∧ (j = s.positions.nonce → Writing s ciphertext)
  nonceUnique : ∀ nonce ciphertext ciphertext', (nonce, ciphertext) ∈ s.exposed →
    (nonce, ciphertext') ∈ s.exposed → ciphertext = ciphertext'
  locked : ∀ id call, s.nonceHolder = some id → s.calls.lookup id = some call →
    call.phase = .locked → s.positions = s.lockedAt
  lockstep : ∀ e ∈ s.errors, InLockstep e

section Invariant

variable {crypto : DatumCrypto} {precompKey : ByteVec 32} {overhead : ℕ} {start : ChannelState}
variable {s t : Connected} {id : ℕ} {call : SendCall}

theorem FailureInvariant.of_sends
    (hinv : FailureInvariant crypto precompKey overhead start s)
    (hsends : SendInvariant crypto precompKey overhead start t)
    (hnonce : t.senderNonce = s.senderNonce) (hposition : t.positions.nonce = s.positions.nonce)
    (hexposed : t.exposed = s.exposed) (hwriting : ∀ ciphertext, Writing s ciphertext →
      Writing t ciphertext)
    (hlocked : ∀ id call, t.nonceHolder = some id → t.calls.lookup id = some call →
      call.phase = .locked → t.positions = t.lockedAt)
    (hlockstep : ∀ e ∈ t.errors, InLockstep e) :
    FailureInvariant crypto precompKey overhead start t := by
  constructor
  · exact hsends
  · rw [hnonce, hposition]
    exact hinv.nonce
  · rw [hposition]
    exact hinv.bound
  · rw [hexposed, hposition]
    intro nonce ciphertext hmem
    obtain ⟨j, hj, hnonce, hcurrent⟩ := hinv.exposed nonce ciphertext hmem
    exact ⟨j, hj, hnonce, fun h => hwriting ciphertext (hcurrent h)⟩
  · rw [hexposed]
    exact hinv.nonceUnique
  · exact hlocked
  · exact hlockstep

theorem Writing.of_insert {call' : SendCall} {ciphertext : Bytes}
    (hcalls : t.calls = s.calls.insert id call')
    (hother : ∀ call unwritten, s.calls.lookup id = some call →
      call.phase ≠ .writingBody unwritten ciphertext) (hwriting : Writing s ciphertext) :
    Writing t ciphertext := by
  obtain ⟨writer, call, unwritten, hcall, hphase⟩ := hwriting
  refine ⟨writer, call, unwritten, ?_, hphase⟩
  rw [hcalls, AList.lookup_insert_ne, hcall]
  rintro rfl
  exact hother call unwritten hcall hphase

theorem FailureInvariant.of_phase {phase : SendPhase}
    (hinv : FailureInvariant crypto precompKey overhead start s)
    (hsends : SendInvariant crypto precompKey overhead start t)
    (hcall : s.calls.lookup id = some call) (hwaiting : call.phase ≠ .waiting)
    (hbody : ∀ unwritten ciphertext, call.phase ≠ .writingBody unwritten ciphertext)
    (hphase : phase ≠ .locked)
    (hcalls : t.calls = s.calls.insert id { call with phase })
    (hnonceHolder : t.nonceHolder = s.nonceHolder)
    (hnonce : t.senderNonce = s.senderNonce) (hposition : t.positions.nonce = s.positions.nonce)
    (hexposed : t.exposed = s.exposed) (herrors : t.errors = s.errors) :
    FailureInvariant crypto precompKey overhead start t := by
  refine hinv.of_sends hsends hnonce hposition hexposed ?_ ?_ ?_
  · intro ciphertext hwriting
    refine hwriting.of_insert hcalls ?_
    intro call' unwritten hcall'
    obtain rfl := Option.some.inj (hcall.symm.trans hcall')
    exact hbody unwritten ciphertext
  · intro id' call' hholder hcall' hlocked
    rw [hnonceHolder, hinv.sends.holder hcall hwaiting] at hholder
    obtain rfl := Option.some.inj hholder
    rw [hcalls, AList.lookup_insert] at hcall'
    obtain rfl := Option.some.inj hcall'
    exact absurd hlocked hphase
  · rw [herrors]
    exact hinv.lockstep

theorem FailureInvariant.boxFails {e : ClientError}
    (hinv : FailureInvariant crypto precompKey overhead start s)
    (hsends : SendInvariant crypto precompKey overhead start (s.fail id e))
    (hcall : s.calls.lookup id = some call) (hphase : call.phase = .locked) :
    FailureInvariant crypto precompKey overhead start (s.fail id e) := by
  have hwaiting : call.phase ≠ .waiting := by
    rw [hphase]
    exact SendPhase.noConfusion
  refine hinv.of_sends hsends rfl rfl rfl ?_ ?_ ?_
  · rintro ciphertext ⟨writer, call', unwritten, hcall', hphase'⟩
    refine ⟨writer, call', unwritten, lookup_erase_eq_some_iff.mpr ⟨?_, hcall'⟩, hphase'⟩
    rintro rfl
    obtain rfl := Option.some.inj (hcall.symm.trans hcall')
    rw [hphase] at hphase'
    cases hphase'
  · intro id' call' hholder
    cases hholder
  · intro e' he'
    rcases List.mem_append.mp he' with he' | he'
    · exact hinv.lockstep e' he'
    · obtain rfl := List.mem_singleton.mp he'
      exact Or.inl (hinv.locked id call (hinv.sends.holder hcall hwaiting) hcall hphase)

theorem Writing.eq_of_phase {unwritten ciphertext ciphertext' : Bytes}
    (hwriting : Writing s ciphertext')
    (hsends : SendInvariant crypto precompKey overhead start s)
    (hcall : s.calls.lookup id = some call)
    (hphase : call.phase = .writingBody unwritten ciphertext) : ciphertext' = ciphertext := by
  obtain ⟨writer, call', unwritten', hcall', hphase'⟩ := hwriting
  have hholder := hsends.holder hcall (by rw [hphase]; exact SendPhase.noConfusion)
  have hwriter := hsends.holder hcall' (by rw [hphase']; exact SendPhase.noConfusion)
  obtain rfl := Option.some.inj (hholder.symm.trans hwriter)
  obtain rfl := Option.some.inj (hcall.symm.trans hcall')
  rw [hphase] at hphase'
  exact (SendPhase.writingBody.inj hphase').2.symm

/-- Nothing but the ciphertext being written has gone out under the nonce in force. -/
theorem FailureInvariant.exposed_current {unwritten ciphertext ciphertext' : Bytes}
    (hinv : FailureInvariant crypto precompKey overhead start s)
    (hcall : s.calls.lookup id = some call)
    (hphase : call.phase = .writingBody unwritten ciphertext)
    (hmem : (s.senderNonce, ciphertext') ∈ s.exposed) : ciphertext' = ciphertext := by
  obtain ⟨j, hj, hnonce, hwriting⟩ := hinv.exposed s.senderNonce ciphertext' hmem
  rw [hinv.nonce] at hnonce
  have hlast := iterate_incrementNonce_injOn (hj.trans_lt hinv.bound) hinv.bound hnonce.symm
  exact (hwriting hlast).eq_of_phase hinv.sends hcall hphase

theorem FailureInvariant.writeBody {count : ℕ} {unwritten ciphertext : Bytes}
    (hinv : FailureInvariant crypto precompKey overhead start s)
    (hcall : s.calls.lookup id = some call)
    (hphase : call.phase = .writingBody unwritten ciphertext)
    (hcalls : t.calls = s.calls.insert id
      { call with phase := .writingBody (unwritten.drop count) ciphertext })
    (hsends : SendInvariant crypto precompKey overhead start t)
    (hholder' : t.nonceHolder = s.nonceHolder) (hnonce' : t.senderNonce = s.senderNonce)
    (hpositions : t.positions = s.positions) (herrors : t.errors = s.errors)
    (hexposed : t.exposed = s.exposed ++ [(s.senderNonce, ciphertext)]) :
    FailureInvariant crypto precompKey overhead start t := by
  have hholder : s.nonceHolder = some id :=
    hinv.sends.holder hcall (by rw [hphase]; exact SendPhase.noConfusion)
  have hlookup := hcalls ▸ AList.lookup_insert s.calls
  have hnow : Writing t ciphertext := ⟨id, _, _, hlookup, rfl⟩
  have hwritten : ∀ nonce ciphertext', (nonce, ciphertext') ∈ t.exposed →
      (nonce, ciphertext') ∈ s.exposed ∨ nonce = s.senderNonce ∧ ciphertext' = ciphertext := by
    intro nonce ciphertext' hmem
    rw [hexposed] at hmem
    rcases List.mem_append.mp hmem with hmem | hmem
    · exact Or.inl hmem
    · exact Or.inr (Prod.mk.inj (List.mem_singleton.mp hmem))
  constructor
  · exact hsends
  · rw [hnonce', hpositions]
    exact hinv.nonce
  · rw [hpositions]
    exact hinv.bound
  · intro nonce ciphertext' hmem
    rw [hpositions]
    rcases hwritten nonce ciphertext' hmem with hmem | ⟨rfl, rfl⟩
    · obtain ⟨j, hj, hnonce, hwriting⟩ := hinv.exposed nonce ciphertext' hmem
      refine ⟨j, hj, hnonce, fun h => ?_⟩
      rw [(hwriting h).eq_of_phase hinv.sends hcall hphase]
      exact hnow
    · exact ⟨_, le_rfl, hinv.nonce, fun _ => hnow⟩
  · intro nonce c c' hc hc'
    rcases hwritten nonce c hc with hold | ⟨rfl, rfl⟩
    · rcases hwritten nonce c' hc' with hold' | ⟨rfl, rfl⟩
      · exact hinv.nonceUnique nonce c c' hold hold'
      · exact hinv.exposed_current hcall hphase hold
    · rcases hwritten _ c' hc' with hold' | ⟨-, rfl⟩
      · exact (hinv.exposed_current hcall hphase hold').symm
      · rfl
  · intro id' call' hheld hcall' hlocked
    obtain rfl := Option.some.inj (hholder.symm.trans (hholder'.symm.trans hheld))
    obtain rfl := Option.some.inj (hlookup.symm.trans hcall')
    cases hlocked
  · rw [herrors]
    exact hinv.lockstep

theorem FailureInvariant.finish (hinv : FailureInvariant crypto precompKey overhead start s)
    (hsends : SendInvariant crypto precompKey overhead start t)
    (hbound : s.positions.nonce + 1 < 2 ^ 192) (hholder : t.nonceHolder = none)
    (hnonce' : t.senderNonce = incrementNonce s.senderNonce)
    (hposition : t.positions.nonce = s.positions.nonce + 1)
    (hexposed : t.exposed = s.exposed) (herrors : t.errors = s.errors) :
    FailureInvariant crypto precompKey overhead start t := by
  constructor
  · exact hsends
  · rw [hposition, Function.iterate_succ_apply', ← hinv.nonce, hnonce']
  · rw [hposition]
    exact hbound
  · intro nonce ciphertext' hmem
    rw [hexposed] at hmem
    obtain ⟨j, hj, hnonce, -⟩ := hinv.exposed nonce ciphertext' hmem
    rw [hposition]
    refine ⟨j, Nat.le_succ_of_le hj, hnonce, ?_⟩
    rintro rfl
    exact absurd hj (Nat.not_succ_le_self _)
  · rw [hexposed]
    exact hinv.nonceUnique
  · intro id' call' hheld
    rw [hholder] at hheld
    cases hheld
  · rw [herrors]
    exact hinv.lockstep

theorem FailureInvariant.step {a : SendAction} (hcrypto : SealsAndOpens crypto precompKey overhead)
    (hinv : FailureInvariant crypto precompKey overhead start s)
    (hguard : keepsLockstep overhead s a = true)
    (hstep : sendStep crypto precompKey s a = some t) :
    FailureInvariant crypto precompKey overhead start t := by
  have hsends : SendInvariant crypto precompKey overhead start t := by
    refine hinv.sends.step hcrypto ?_ ?_ hstep
    · rintro id protoCmd plaintext rfl
      exact of_decide_eq_true hguard
    · rintro id timedOut rfl
      cases hguard
  cases sendStep_cases hstep with
  | call id protoCmd plaintext hfresh =>
      refine hinv.of_sends hsends rfl rfl rfl ?_ ?_ hinv.lockstep
      · intro ciphertext hwriting
        refine hwriting.of_insert rfl ?_
        intro call unwritten hcall
        rw [hfresh] at hcall
        cases hcall
      · intro id' call' hholder hcall' hlocked
        rcases lookup_insert_eq_some_iff.mp hcall' with ⟨-, rfl⟩ | ⟨-, hcall'⟩
        · cases hlocked
        · exact hinv.locked id' call' hholder hcall' hlocked
  | lockNonce id call hcall hphase _ =>
      refine hinv.of_sends hsends rfl rfl rfl ?_ (fun _ _ _ _ _ => rfl) hinv.lockstep
      intro ciphertext hwriting
      refine hwriting.of_insert rfl ?_
      intro call' unwritten hcall'
      obtain rfl := Option.some.inj (hcall.symm.trans hcall')
      rw [hphase]
      exact SendPhase.noConfusion
  | boxFails id call e hcall hphase => exact hinv.boxFails hsends hcall hphase
  | boxEasy id call plainWord ciphertext hcall hphase _ =>
      refine hinv.of_phase hsends hcall ?_ ?_ SendPhase.noConfusion rfl rfl rfl rfl rfl rfl
      · rw [hphase]
        exact SendPhase.noConfusion
      · rw [hphase]
        exact fun _ _ => SendPhase.noConfusion
  | obfuscate id call plainWord ciphertext hcall hphase =>
      refine hinv.of_phase hsends hcall ?_ ?_ SendPhase.noConfusion rfl rfl rfl rfl rfl rfl
      · rw [hphase]
        exact SendPhase.noConfusion
      · rw [hphase]
        exact fun _ _ => SendPhase.noConfusion
  | lockWriter id call header ciphertext hcall hphase _ =>
      refine hinv.of_phase hsends hcall ?_ ?_ SendPhase.noConfusion rfl rfl rfl rfl rfl rfl
      · rw [hphase]
        exact SendPhase.noConfusion
      · rw [hphase]
        exact fun _ _ => SendPhase.noConfusion
  | writeHeader id count call unwritten ciphertext hcall hphase =>
      refine hinv.of_phase hsends hcall ?_ ?_ ?_ rfl rfl rfl rfl rfl rfl
      · rw [hphase]
        exact SendPhase.noConfusion
      · rw [hphase]
        exact fun _ _ => SendPhase.noConfusion
      · split_ifs
        · exact SendPhase.noConfusion
        · exact SendPhase.noConfusion
  | writeBody id count call unwritten ciphertext hcall hphase =>
      exact hinv.writeBody hcall hphase rfl hsends rfl rfl rfl rfl rfl
  | finish id call ciphertext hcall hphase =>
      exact hinv.finish hsends (of_decide_eq_true hguard) rfl rfl rfl rfl rfl
  | writeFails id timedOut _ => cases hguard

theorem failureInvariant_connected (start : ChannelState) :
    FailureInvariant crypto precompKey overhead start (connected start) := by
  constructor
  · exact sendInvariant_connected start
  · rfl
  · exact Nat.two_pow_pos 192
  · intro nonce ciphertext hmem
    cases hmem
  · intro nonce ciphertext ciphertext' hmem
    cases hmem
  · intro id call hholder
    cases hholder
  · intro e he
    cases he

end Invariant

theorem reachable_failureSafe (crypto : DatumCrypto) (precompKey : ByteVec 32) (overhead : ℕ)
    (hcrypto : SealsAndOpens crypto precompKey overhead) (start : ChannelState) (t : Connected)
    (hreaches : Reaches (sendStep crypto precompKey) (fun s a => keepsLockstep overhead s a = true)
      (connected start) t) : FailureSafe crypto precompKey start t := by
  have hinv : FailureInvariant crypto precompKey overhead start t :=
    hreaches.invariant (failureInvariant_connected start)
      fun s a t hinv hguard hstep => hinv.step hcrypto hguard hstep
  constructor
  · exact hinv.nonceUnique
  · exact hinv.lockstep
  · exact hinv.sends.recvAll_wire hcrypto

/-- A call with a command that has no place in the header, and one after it. -/
theorem failureSafe_after_bad_command :
    let key := ByteVec.fill 32 0
    let start := senderStart 0 (ByteVec.fill 32 0)
    ∃ t, Reaches (sendStep tagCrypto key) (fun s a => keepsLockstep 16 s a = true)
        (connected start) t ∧
      decide (t.errors.length = 1 ∧ written t = [(5, [2])]) = true ∧
        FailureSafe tagCrypto key start t := by
  intro key start
  obtain ⟨t, hreaches, hwritten⟩ := exists_reaches_of_runGuarded (sendStep tagCrypto key)
    (keepsLockstep 16) (connected start)
    [.call 1 32 [1, 1], .call 2 5 [2], .lockNonce 1, .boxEasy 1, .lockNonce 2, .boxEasy 2,
      .obfuscate 2, .lockWriter 2, .write 2 4, .write 2 17, .finish 2]
    (fun t => decide (t.errors.length = 1 ∧ written t = [(5, [2])])) (by decide +kernel)
  exact ⟨t, hreaches, hwritten, reachable_failureSafe tagCrypto key 16 (sealsAndOpens_tagCrypto key)
    start t hreaches⟩

/-- A call times out in the middle of its ciphertext, and another one comes after it. -/
theorem nonce_reused_after_timeout :
    let key := ByteVec.fill 32 0
    let start := senderStart 0 (ByteVec.fill 32 0)
    ∃ t, Reachable (sendStep tagCrypto key) (connected start) t ∧
      ¬ FailureSafe tagCrypto key start t ∧ (∃ e ∈ t.errors, ¬ InLockstep e) ∧
      ∃ nonce ciphertext ciphertext', (nonce, ciphertext) ∈ t.exposed ∧
        (nonce, ciphertext') ∈ t.exposed ∧ ciphertext ≠ ciphertext' := by
  intro key start
  obtain ⟨t, hreachable, hbad⟩ := exists_reachable_of_runActions (sendStep tagCrypto key)
    (connected start)
    [.call 1 5 [1, 1], .call 2 5 [2], .lockNonce 1, .boxEasy 1, .obfuscate 1, .lockWriter 1,
      .write 1 4, .write 1 1, .writeFails 1 true, .lockNonce 2, .boxEasy 2, .obfuscate 2,
      .lockWriter 2, .write 2 4, .write 2 17]
    (fun t => (t.errors.any fun e => !decide (InLockstep e)) &&
      t.exposed.any fun x => t.exposed.any fun y => decide (x.1 = y.1 ∧ x.2 ≠ y.2))
    (by decide +kernel)
  rw [Bool.and_eq_true] at hbad
  obtain ⟨hlockstep, hreused⟩ := hbad
  obtain ⟨e, he, hout⟩ := List.any_eq_true.mp hlockstep
  rw [Bool.not_eq_true', decide_eq_false_iff_not] at hout
  refine ⟨t, hreachable, ?_, ⟨e, he, hout⟩, ?_⟩
  · exact fun hsafe => hout (hsafe.lockstep e he)
  · obtain ⟨⟨nonce, ciphertext⟩, hfirst, hreused⟩ := List.any_eq_true.mp hreused
    obtain ⟨⟨nonce', ciphertext'⟩, hsecond, hsame⟩ := List.any_eq_true.mp hreused
    obtain ⟨rfl, hne⟩ := of_decide_eq_true hsame
    exact ⟨nonce, ciphertext, ciphertext', hfirst, hsecond, hne⟩

end DatumGateway.SendFailures
