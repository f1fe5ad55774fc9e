import DatumGateway.Utf8Text

namespace DatumGateway.HelloPayloads

open DatumGateway.ByteString
open DatumGateway.Utf8Text

/-- The signatures of the crypto library. -/
structure Signatures (ε : Type) where
  signDetached : Bytes → ByteVec 64 → Except ε (ByteVec 64)
  verifyDetached : Bytes → ByteVec 64 → Bytes32 → Except ε Unit

structure ClientKeypairs where
  longTermEd25519Pub : Bytes32
  longTermEd25519Sec : ByteVec 64
  longTermX25519Pub : Bytes32
  sessionEd25519Pub : Bytes32
  sessionX25519Pub : Bytes32

inductive HandshakeError (ε : Type) where
  | crypto (e : ε)
  | badPaddingLen (got : ℕ)
  | versionHasNul
  | clientIdHasNul
  deriving DecidableEq, Repr

def helloSentinel : UInt8 := 0xFE

/-- All that is signed: the keys, the text up to a zero byte, the sentinel, `nk` and padding. -/
def helloFields (keys : ClientKeypairs) (version clientId : String) (nk : UInt32)
    (padding : Bytes) : Bytes :=
  keys.longTermEd25519Pub.toList ++ keys.longTermX25519Pub.toList ++
    keys.sessionEd25519Pub.toList ++ keys.sessionX25519Pub.toList ++ utf8Bytes version ++
    utf8Bytes clientId ++ [0] ++ [helloSentinel] ++ leBytes 4 nk.toNat ++ padding

section Crypto

variable {ε : Type} (crypto : Signatures ε)

def buildHelloPayload (keys : ClientKeypairs) (version clientId : String) (nk : UInt32)
    (padding : Bytes) : Except (HandshakeError ε) Bytes :=
  if 0 ∈ utf8Bytes version then .error .versionHasNul
  else if 0 ∈ utf8Bytes clientId then .error .clientIdHasNul
  else if ¬ (1 ≤ padding.length ∧ padding.length ≤ 200) then .error (.badPaddingLen padding.length)
  else
    let buf := helloFields keys version clientId nk padding
    match crypto.signDetached buf keys.longTermEd25519Sec with
    | .error e => .error (.crypto e)
    | .ok signature => .ok (buf ++ signature.toList)

/-! The pool's side. -/

/-- How far the first zero byte is from where the text starts. -/
def nulOffset (plaintext : Bytes) (textStart : ℕ) : Option ℕ :=
  (plaintext.drop textStart).findIdx? fun b => b == 0

def findNk (plaintext : Bytes) (textStart : ℕ) : Option UInt32 :=
  match nulOffset plaintext textStart with
  | none => none
  | some nulOffset =>
      let afterText := textStart + nulOffset + 1
      if plaintext[afterText]? ≠ some 0xFE then none
      else
        let nkOffset := afterText + 1
        if plaintext.length < nkOffset + 4 then none
        else some (UInt32.ofNat (leValue ((plaintext.drop nkOffset).take 4)))

structure ClientHello where
  longTermEd25519Pub : Bytes32
  longTermX25519Pub : Bytes32
  sessionEd25519Pub : Bytes32
  sessionX25519Pub : Bytes32
  nk : UInt32
  deriving DecidableEq

/-- What the pool goes on with; none if it hangs up. -/
def parseHello (plaintext : Bytes) : Option ClientHello := do
  if plaintext.length < 128 + 64 then none
  else
    let longTermEd25519Pub ← ByteVec.ofBytes? 32 (plaintext.take 32)
    let longTermX25519Pub ← ByteVec.ofBytes? 32 ((plaintext.drop 32).take 32)
    let sessionEd25519Pub ← ByteVec.ofBytes? 32 ((plaintext.drop 64).take 32)
    let sessionX25519Pub ← ByteVec.ofBytes? 32 ((plaintext.drop 96).take 32)
    let sigOffset := plaintext.length - 64
    let signedPart := plaintext.take sigOffset
    let signature ← ByteVec.ofBytes? 64 (plaintext.drop sigOffset)
    match crypto.verifyDetached signedPart signature longTermEd25519Pub with
    | .error _ => none
    | .ok () =>
        let nk ← findNk plaintext 128
        some { longTermEd25519Pub, longTermX25519Pub, sessionEd25519Pub, sessionX25519Pub, nk }

/-- The text that the pool passes over on its way to `nk`. -/
def helloText (plaintext : Bytes) : Option Bytes :=
  (nulOffset plaintext 128).map fun nulOffset => (plaintext.drop 128).take nulOffset

/-- The secret key signs, and the public one verifies what it signed. -/
def SignsFor (secret : ByteVec 64) (pub : Bytes32) : Prop :=
  ∀ message, ∃ signature, crypto.signDetached message secret = .ok signature ∧
    crypto.verifyDetached message signature pub = .ok ()

def Admissible (version clientId : String) (padding : Bytes) : Prop :=
  0 ∉ utf8Bytes version ∧ 0 ∉ utf8Bytes clientId ∧ 1 ≤ padding.length ∧ padding.length ≤ 200

/-- The pool reads what the gateway put in, and its check covers all but the last 64 bytes. -/
structure ReadsBack (keys : ClientKeypairs) (version clientId : String) (nk : UInt32)
    (payload : Bytes) : Prop where
  hello : parseHello crypto payload = some
    { longTermEd25519Pub := keys.longTermEd25519Pub
      longTermX25519Pub := keys.longTermX25519Pub
      sessionEd25519Pub := keys.sessionEd25519Pub
      sessionX25519Pub := keys.sessionX25519Pub
      nk }
  text : helloText payload = some (utf8Bytes version ++ utf8Bytes clientId)
  verified : ∃ signature,
    ByteVec.ofBytes? 64 (payload.drop (payload.length - 64)) = some signature ∧
      crypto.verifyDetached (payload.take (payload.length - 64)) signature
        keys.longTermEd25519Pub = .ok ()

end Crypto

/-! Reading at an offset. -/

theorem nulOffset_of_text {before text : Bytes} (htext : 0 ∉ text) (rest : Bytes) :
    nulOffset (before ++ (text ++ 0 :: rest)) before.length = some text.length := by
  have hnone : text.findIdx? (fun b => b == 0) = none := by
    rw [List.findIdx?_eq_none_iff]
    intro b hb
    rw [beq_eq_false_iff_ne]
    rintro rfl
    exact htext hb
  rw [nulOffset, List.drop_left, List.findIdx?_append, hnone, Option.none_or, List.findIdx?_cons]
  simp

theorem findNk_of_text {before text : Bytes} (htext : 0 ∉ text) (nk : UInt32) (rest : Bytes) :
    findNk (before ++ (text ++ 0 :: helloSentinel :: (leBytes 4 nk.toNat ++ rest)))
      before.length = some nk := by
  have hsplit : before ++ (text ++ 0 :: helloSentinel :: (leBytes 4 nk.toNat ++ rest)) =
      (before ++ (text ++ [0])) ++ helloSentinel :: (leBytes 4 nk.toNat ++ rest) := by simp
  have hlength : (before ++ (text ++ [0])).length = before.length + text.length + 1 := by
    simp [Nat.add_assoc]
  have hsentinel : (before ++ (text ++ 0 :: helloSentinel :: (leBytes 4 nk.toNat ++ rest)))[
      before.length + text.length + 1]? = some 0xFE := by
    rw [hsplit, ← hlength, List.getElem?_append_right (Nat.le_refl _), Nat.sub_self]
    rfl
  have hnk : (before ++ (text ++ 0 :: helloSentinel :: (leBytes 4 nk.toNat ++ rest))).drop
      (before.length + text.length + 1 + 1) = leBytes 4 nk.toNat ++ rest := by
    rw [hsplit, ← hlength, ← List.drop_drop, List.drop_left]
    rfl
  have hlong : ¬ (before ++ (text ++ 0 :: helloSentinel :: (leBytes 4 nk.toNat ++ rest))).length <
      before.length + text.length + 1 + 1 + 4 := by
    simp only [List.length_append, List.length_cons, length_leBytes]
    omega
  rw [findNk, nulOffset_of_text htext]
  dsimp only
  rw [if_neg (not_not.mpr hsentinel), if_neg hlong, hnk, List.take_left' (length_leBytes 4 _),
    leValue_leBytes_of_lt nk.toNat_lt, UInt32.ofNat_toNat]

theorem ofBytes?_slice {n i : ℕ} {before : Bytes} (hbefore : before.length = i) (v : ByteVec n)
    (rest : Bytes) :
    ByteVec.ofBytes? n (((before ++ (v.toList ++ rest)).drop i).take n) = some v := by
  rw [List.drop_left' hbefore, List.take_left' v.toList_length, ByteVec.ofBytes?_toList]

/-! The fields in the order in which they are read back. -/

def helloKeys (keys : ClientKeypairs) : Bytes :=
  keys.longTermEd25519Pub.toList ++ (keys.longTermX25519Pub.toList ++
    (keys.sessionEd25519Pub.toList ++ keys.sessionX25519Pub.toList))

theorem length_helloKeys (keys : ClientKeypairs) : (helloKeys keys).length = 128 := by
  simp only [helloKeys, List.length_append, List.Vector.toList_length]

theorem ofBytes?_helloKeys (keys : ClientKeypairs) (rest : Bytes) :
    ByteVec.ofBytes? 32 ((helloKeys keys ++ rest).take 32) = some keys.longTermEd25519Pub ∧
      ByteVec.ofBytes? 32 (((helloKeys keys ++ rest).drop 32).take 32) =
        some keys.longTermX25519Pub ∧
      ByteVec.ofBytes? 32 (((helloKeys keys ++ rest).drop 64).take 32) =
        some keys.sessionEd25519Pub ∧
      ByteVec.ofBytes? 32 (((helloKeys keys ++ rest).drop 96).take 32) =
        some keys.sessionX25519Pub := by
  simp only [helloKeys, List.append_assoc]
  refine ⟨?_, ?_, ?_, ?_⟩
  · rw [List.take_left' (List.Vector.toList_length _), ByteVec.ofBytes?_toList]
  · exact ofBytes?_slice (List.Vector.toList_length _) _ _
  · rw [← List.append_assoc]
    exact ofBytes?_slice (by simp) _ _
  · rw [← List.append_assoc, ← List.append_assoc]
    exact ofBytes?_slice (by simp) _ _

theorem helloFields_eq (keys : ClientKeypairs) (version clientId : String) (nk : UInt32)
    (padding : Bytes) :
    helloFields keys version clientId nk padding = helloKeys keys ++
      ((utf8Bytes version ++ utf8Bytes clientId) ++
        0 :: helloSentinel :: (leBytes 4 nk.toNat ++ padding)) := by
  simp only [helloFields, helloKeys, List.append_assoc, List.cons_append, List.nil_append]

theorem length_helloFields (keys : ClientKeypairs) (version clientId : String) (nk : UInt32)
    (padding : Bytes) : 128 ≤ (helloFields keys version clientId nk padding).length := by
  rw [helloFields_eq, List.length_append, length_helloKeys]
  exact Nat.le_add_right _ _

section Crypto

variable {ε : Type} {crypto : Signatures ε}

theorem readsBack_of_signed {keys : ClientKeypairs} {version clientId : String} {nk : UInt32}
    {padding : Bytes} {signature : ByteVec 64} (hversion : 0 ∉ utf8Bytes version)
    (hclientId : 0 ∉ utf8Bytes clientId)
    (hverify : crypto.verifyDetached (helloFields keys version clientId nk padding) signature
      keys.longTermEd25519Pub = .ok ()) :
    ReadsBack crypto keys version clientId nk
      (helloFields keys version clientId nk padding ++ signature.toList) := by
  have htext : 0 ∉ utf8Bytes version ++ utf8Bytes clientId := by
    rw [List.mem_append, not_or]
    exact ⟨hversion, hclientId⟩
  have hlong := length_helloFields keys version clientId nk padding
  generalize hpayload : helloFields keys version clientId nk padding ++ signature.toList = payload
  have hlength : payload.length = (helloFields keys version clientId nk padding).length + 64 := by
    rw [← hpayload, List.length_append, List.Vector.toList_length]
  have hsigned : payload.take (payload.length - 64) =
      helloFields keys version clientId nk padding := by
    rw [hlength, Nat.add_sub_cancel, ← hpayload, List.take_left]
  have hsignature : ByteVec.ofBytes? 64 (payload.drop (payload.length - 64)) = some signature := by
    rw [hlength, Nat.add_sub_cancel, ← hpayload, List.drop_left, ByteVec.ofBytes?_toList]
  have hsections : payload = helloKeys keys ++ ((utf8Bytes version ++ utf8Bytes clientId) ++
      0 :: helloSentinel :: (leBytes 4 nk.toNat ++ (padding ++ signature.toList))) := by
    rw [← hpayload, helloFields_eq]
    simp only [List.append_assoc, List.cons_append]
  have hnul : nulOffset payload 128 = some (utf8Bytes version ++ utf8Bytes clientId).length := by
    rw [hsections, ← length_helloKeys keys]
    exact nulOffset_of_text htext _
  have hnk : findNk payload 128 = some nk := by
    rw [hsections, ← length_helloKeys keys]
    exact findNk_of_text htext nk _
  constructor
  · have hshort : ¬ payload.length < 128 + 64 := by omega
    obtain ⟨hfirst, hsecond, hthird, hfourth⟩ := ofBytes?_helloKeys keys
      ((utf8Bytes version ++ utf8Bytes clientId) ++
        0 :: helloSentinel :: (leBytes 4 nk.toNat ++ (padding ++ signature.toList)))
    rw [← hsections] at hfirst hsecond hthird hfourth
    simp only [parseHello, if_neg hshort, hfirst, hsecond, hthird, hfourth, Option.bind_eq_bind,
      Option.bind_some, hsigned, hsignature, hverify, hnk]
  · rw [helloText, hnul, Option.map_some, hsections, ← length_helloKeys keys, List.drop_left,
      List.take_left]
  · exact ⟨signature, hsignature, by rw [hsigned, hverify]⟩

theorem hello_round_trip (keys : ClientKeypairs)
    (hsigns : SignsFor crypto keys.longTermEd25519Sec keys.longTermEd25519Pub)
    (version clientId : String) (nk : UInt32) (padding : Bytes) :
    (Admissible version clientId padding → ∃ payload,
      buildHelloPayload crypto keys version clientId nk padding = .ok payload ∧
        ReadsBack crypto keys version clientId nk payload) ∧
    ((∃ e, buildHelloPayload crypto keys version clientId nk padding = .error e) ↔
      ¬ Admissible version clientId padding) := by
  obtain ⟨signature, hsign, hverify⟩ := hsigns (helloFields keys version clientId nk padding)
  by_cases hadmissible : Admissible version clientId padding
  · have hbuild : buildHelloPayload crypto keys version clientId nk padding =
        .ok (helloFields keys version clientId nk padding ++ signature.toList) := by
      obtain ⟨hversion, hclientId, hpadding⟩ := hadmissible
      rw [buildHelloPayload, if_neg hversion, if_neg hclientId, if_neg (not_not.mpr hpadding)]
      simp only [hsign]
    constructor
    · intro _
      exact ⟨_, hbuild, readsBack_of_signed hadmissible.1 hadmissible.2.1 hverify⟩
    · rw [hbuild]
      exact iff_of_false (fun ⟨e, he⟩ => by cases he) (not_not.mpr hadmissible)
  · refine ⟨fun h => absurd h hadmissible, iff_of_true ?_ hadmissible⟩
    rw [buildHelloPayload]
    split_ifs with hversion hclientId hpadding
    · exact ⟨_, rfl⟩
    · exact ⟨_, rfl⟩
    · exact absurd ⟨hversion, hclientId, hpadding⟩ hadmissible
    · exact ⟨_, rfl⟩

end Crypto

/-- A signature that is the sum of the message, sixty-four times. -/
def sumSignatures : Signatures Unit where
  signDetached message _ := .ok (ByteVec.fill 64 message.sum)
  verifyDetached message signature _ :=
    if signature = ByteVec.fill 64 message.sum then .ok () else .error ()

def plainKeypairs : ClientKeypairs where
  longTermEd25519Pub := ByteVec.fill 32 1
  longTermEd25519Sec := ByteVec.fill 64 1
  longTermX25519Pub := ByteVec.fill 32 2
  sessionEd25519Pub := ByteVec.fill 32 3
  sessionX25519Pub := ByteVec.fill 32 4

theorem hello_round_trip_of_zero_bytes :
    ∃ payload,
      buildHelloPayload sumSignatures plainKeypairs "v1" "/probe" 0xFE00 [0] = .ok payload ∧
        ReadsBack sumSignatures plainKeypairs "v1" "/probe" 0xFE00 payload := by
  have hsigns : SignsFor sumSignatures plainKeypairs.longTermEd25519Sec
      plainKeypairs.longTermEd25519Pub := fun message => ⟨_, rfl, if_pos rfl⟩
  exact (hello_round_trip plainKeypairs hsigns "v1" "/probe" 0xFE00 [0]).1
    ⟨by decide, by decide, by decide, by decide⟩

end DatumGateway.HelloPayloads
