import DatumGateway.FrameHeaders
import DatumGateway.WordBijections

namespace DatumGateway.HeaderKeys

open DatumGateway.FrameHeaders

/-! One step of the chain. -/

theorem bijective_of_toBitVec {f : UInt32 → UInt32} {word : BitVec 32 → BitVec 32}
    (hword : Function.Bijective word) (htoBitVec : ∀ x, (f x).toBitVec = word x.toBitVec) :
    Function.Bijective f := by
  constructor
  · intro x y hxy
    apply UInt32.toBitVec_inj.mp
    apply hword.injective
    rw [← htoBitVec, hxy, htoBitVec]
  · intro y
    obtain ⟨x, hx⟩ := hword.surjective y.toBitVec
    refine ⟨UInt32.ofBitVec x, UInt32.toBitVec_inj.mp ?_⟩
    rw [htoBitVec, UInt32.toBitVec_ofBitVec, hx]

theorem mul_bijective {c : UInt32} (hodd : c.toNat.Coprime 2) :
    Function.Bijective fun x : UInt32 => x * c :=
  bijective_of_toBitVec (WordBijections.mul_bijective hodd) fun _ => UInt32.toBitVec_mul

theorem add_bijective (c : UInt32) : Function.Bijective fun x : UInt32 => x + c :=
  bijective_of_toBitVec (WordBijections.add_bijective c.toBitVec) fun _ => UInt32.toBitVec_add

theorem xor_bijective (c : UInt32) : Function.Bijective fun x : UInt32 => c ^^^ x :=
  bijective_of_toBitVec (WordBijections.xor_bijective c.toBitVec) fun _ => UInt32.toBitVec_xor c _

theorem xor_shiftRight_bijective {n : UInt32} (hn : 0 < n.toNat % 32) :
    Function.Bijective fun x : UInt32 => x ^^^ x >>> n := by
  refine bijective_of_toBitVec (WordBijections.xor_ushiftRight_bijective hn) fun x => ?_
  rw [UInt32.toBitVec_xor, UInt32.toBitVec_shiftRight, BitVec.ushiftRight_eq', BitVec.toNat_umod]
  rfl

theorem rotateLeft_bijective {n : UInt32} (hpos : 0 < n.toNat) (hn : n.toNat < 32) :
    Function.Bijective fun x : UInt32 => rotateLeft x n := by
  refine bijective_of_toBitVec (WordBijections.rotateLeft_bijective n.toNat) fun x => ?_
  have hleft : (n.toBitVec % 32).toNat = n.toNat := Nat.mod_eq_of_lt hn
  have hright : ((32 - n).toBitVec % 32).toNat = 32 - n.toNat := by
    have hsub : (32 - n).toNat = 32 - n.toNat :=
      UInt32.toNat_sub_of_le 32 n (UInt32.le_iff_toNat_le.mpr (Nat.le_of_lt hn))
    rw [BitVec.toNat_umod, UInt32.toNat_toBitVec, hsub]
    exact Nat.mod_eq_of_lt (by omega : 32 - n.toNat < 32)
  rw [rotateLeft, UInt32.toBitVec_or, UInt32.toBitVec_shiftRight, UInt32.toBitVec_shiftLeft,
    BitVec.shiftLeft_eq', BitVec.ushiftRight_eq', hleft, hright, BitVec.rotateLeft_def,
    Nat.mod_eq_of_lt hn]

theorem datumHeaderXorFeedback_bijective : Function.Bijective datumHeaderXorFeedback := by
  have hblock : Function.Bijective fun i => rotateLeft (i * m3C1) 15 * m3C2 :=
    ((mul_bijective (by decide)).comp (rotateLeft_bijective (by decide) (by decide))).comp
      (mul_bijective (by decide))
  have hmixed : Function.Bijective fun k => rotateLeft (murmurSeed ^^^ k) 13 * 5 + m3C3 :=
    (((add_bijective m3C3).comp (mul_bijective (by decide))).comp
      (rotateLeft_bijective (by decide) (by decide))).comp (xor_bijective murmurSeed)
  have hlength : Function.Bijective fun h : UInt32 => h ^^^ 4 := by
    refine bijective_of_toBitVec (WordBijections.xor_bijective 4) fun h => ?_
    rw [UInt32.toBitVec_xor]
    exact BitVec.xor_comm _ _
  have hfinal : Function.Bijective fun h : UInt32 => (h ^^^ h >>> 16) * 0x85ebca6b :=
    (mul_bijective (by decide)).comp (xor_shiftRight_bijective (by decide))
  have hfinal' : Function.Bijective fun h : UInt32 => (h ^^^ h >>> 13) * 0xc2b2ae35 :=
    (mul_bijective (by decide)).comp (xor_shiftRight_bijective (by decide))
  have hlast : Function.Bijective fun h : UInt32 => h ^^^ h >>> 16 :=
    xor_shiftRight_bijective (by decide)
  exact hlast.comp (hfinal'.comp (hfinal.comp (hlength.comp (hmixed.comp hblock))))

/-! The chain, frame by frame. -/

/-- What one frame is put through. -/
inductive KeyUse where
  | encrypt (plaintext : UInt32)
  | decrypt (wire : UInt32)

def useKey (o : HeaderObfuscator) : KeyUse → HeaderObfuscator
  | .encrypt plaintext => (o.encrypt plaintext).2
  | .decrypt wire => (o.decrypt wire).2

def keyAfter (o : HeaderObfuscator) (uses : List KeyUse) : UInt32 :=
  (uses.foldl useKey o).key

theorem key_useKey (o : HeaderObfuscator) (use : KeyUse) :
    (useKey o use).key = datumHeaderXorFeedback o.key := by
  cases use with
  | encrypt plaintext => rfl
  | decrypt wire => rfl

theorem keyAfter_eq_iterate (o : HeaderObfuscator) (uses : List KeyUse) :
    keyAfter o uses = datumHeaderXorFeedback^[uses.length] o.key := by
  induction uses generalizing o with
  | nil => rfl
  | cons use uses ih =>
      rw [List.length_cons, Function.iterate_succ_apply, ← key_useKey o use]
      exact ih (useKey o use)

theorem keyAfter_inj {o o' : HeaderObfuscator} {uses uses' : List KeyUse}
    (hlength : uses.length = uses'.length) :
    keyAfter o uses = keyAfter o' uses' ↔ o.key = o'.key := by
  rw [keyAfter_eq_iterate, keyAfter_eq_iterate, hlength]
  exact (datumHeaderXorFeedback_bijective.injective.iterate _).eq_iff

theorem ne_complement (nk : UInt32) : nk ≠ ~~~nk := by
  intro heq
  have hword := congrArg UInt32.toBitVec heq
  rw [UInt32.toBitVec_not] at hword
  have hbit := congrArg BitVec.msb hword
  rw [BitVec.msb_not] at hbit
  cases hmsb : nk.toBitVec.msb with
  | false => rw [hmsb] at hbit; cases hbit
  | true => rw [hmsb] at hbit; cases hbit

theorem headerKeys_apart :
    Function.Bijective datumHeaderXorFeedback ∧
      ∀ (nk nk' : UInt32) (n : ℕ) (uses uses' : List.Vector KeyUse n),
        keyAfter (HeaderObfuscator.forSender nk) uses.toList ≠
            keyAfter (HeaderObfuscator.forReceiver nk) uses'.toList ∧
          (keyAfter (HeaderObfuscator.forSender nk) uses.toList =
            keyAfter (HeaderObfuscator.forSender nk') uses'.toList ↔ nk = nk') ∧
          (keyAfter (HeaderObfuscator.forReceiver nk) uses.toList =
            keyAfter (HeaderObfuscator.forReceiver nk') uses'.toList ↔ nk = nk') := by
  refine ⟨datumHeaderXorFeedback_bijective, fun nk nk' n uses uses' => ?_⟩
  have hlength : uses.toList.length = uses'.toList.length := by
    rw [List.Vector.toList_length, List.Vector.toList_length]
  rw [Ne, keyAfter_inj hlength, keyAfter_inj hlength, keyAfter_inj hlength]
  refine ⟨?_, ?_, ?_⟩
  · intro hkeys
    exact ne_complement nk (datumHeaderXorFeedback_bijective.injective hkeys)
  · exact datumHeaderXorFeedback_bijective.injective.eq_iff
  · refine datumHeaderXorFeedback_bijective.injective.eq_iff.trans ?_
    exact UInt32.not_inj

end DatumGateway.HeaderKeys
