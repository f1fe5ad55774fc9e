import DatumGateway.ByteString
import Mathlib.Data.Nat.Bitwise

namespace DatumGateway.FrameHeaders

open DatumGateway.ByteString

structure FrameHeader where
  cmdLen : UInt32
  isSigned : Bool
  isEncryptedPubkey : Bool
  isEncryptedChannel : Bool
  protoCmd : UInt8
  deriving DecidableEq, Repr

inductive FrameError where
  | cmdLenTooLarge (got : UInt32)
  | protoCmdTooLarge (got : UInt8)
  deriving DecidableEq, Repr

def maxCmdLen : UInt32 := 4 * 1024 * 1024

def cmdLenMask : UInt32 := 0x3FFFFF
def signedBit : UInt32 := (1 : UInt32) <<< 24
def encryptedPubkeyBit : UInt32 := (1 : UInt32) <<< 25
def encryptedChannelBit : UInt32 := (1 : UInt32) <<< 26

def toLeBytes (word : UInt32) : ByteVec 4 :=
  ⟨leBytes 4 word.toNat, length_leBytes 4 word.toNat⟩

def fromLeBytes (bytes : ByteVec 4) : UInt32 :=
  UInt32.ofNat (leValue bytes.toList)

@[simp] theorem fromLeBytes_toLeBytes (word : UInt32) : fromLeBytes (toLeBytes word) = word := by
  have hvalue : leValue (toLeBytes word).toList = word.toNat := leValue_leBytes_of_lt word.toNat_lt
  rw [fromLeBytes, hvalue, UInt32.ofNat_toNat]

namespace FrameHeader

def word (h : FrameHeader) : UInt32 :=
  (h.cmdLen &&& cmdLenMask) ||| (if h.isSigned then signedBit else 0) |||
    (if h.isEncryptedPubkey then encryptedPubkeyBit else 0) |||
    (if h.isEncryptedChannel then encryptedChannelBit else 0) |||
    (h.protoCmd.toUInt32 &&& 0x1F) <<< 27

def pack (h : FrameHeader) : Except FrameError (ByteVec 4) :=
  if (1 : UInt32) <<< 22 ≤ h.cmdLen ∨ maxCmdLen < h.cmdLen then .error (.cmdLenTooLarge h.cmdLen)
  else if 32 ≤ h.protoCmd then .error (.protoCmdTooLarge h.protoCmd)
  else .ok (toLeBytes h.word)

def unpack (bytes : ByteVec 4) : FrameHeader :=
  let word := fromLeBytes bytes
  { cmdLen := word &&& cmdLenMask
    isSigned := word &&& signedBit != 0
    isEncryptedPubkey := word &&& encryptedPubkeyBit != 0
    isEncryptedChannel := word &&& encryptedChannelBit != 0
    protoCmd := ((word >>> 27) &&& 0x1F).toUInt8 }

theorem pack_eq_ok_iff {h : FrameHeader} {bytes : ByteVec 4} :
    h.pack = .ok bytes ↔
      h.cmdLen.toNat < 2 ^ 22 ∧ h.protoCmd.toNat < 32 ∧ bytes = toLeBytes h.word := by
  have hlen :
      ((1 : UInt32) <<< 22 ≤ h.cmdLen ∨ maxCmdLen < h.cmdLen) ↔ 2 ^ 22 ≤ h.cmdLen.toNat := by
    have hshift : ((1 : UInt32) <<< 22).toNat = 2 ^ 22 := rfl
    have hmax : maxCmdLen.toNat = 2 ^ 22 := rfl
    rw [UInt32.le_iff_toNat_le, UInt32.lt_iff_toNat_lt, hshift, hmax]
    omega
  have hcmd : 32 ≤ h.protoCmd ↔ 32 ≤ h.protoCmd.toNat := UInt8.le_iff_toNat_le
  rw [pack]
  split_ifs with hlarge hcmdLarge
  · constructor
    · intro hpack
      cases hpack
    · rintro ⟨hsmall, -, -⟩
      exact absurd (hlen.mp hlarge) (not_le.mpr hsmall)
  · constructor
    · intro hpack
      cases hpack
    · rintro ⟨-, hsmall, -⟩
      exact absurd (hcmd.mp hcmdLarge) (not_le.mpr hsmall)
  · rw [hlen, not_le] at hlarge
    rw [hcmd, not_le] at hcmdLarge
    constructor
    · intro hpack
      exact ⟨hlarge, hcmdLarge, (Except.ok.inj hpack).symm⟩
    · rintro ⟨-, -, rfl⟩
      rfl

theorem or_shiftLeft_of_lt {x i : ℕ} (hx : x < 2 ^ i) (a : ℕ) :
    x ||| 2 ^ i * a = x + 2 ^ i * a := by
  rw [Nat.or_comm, ← Nat.two_pow_add_eq_or_of_lt hx, Nat.add_comm]

theorem toNat_word {h : FrameHeader} (hlen : h.cmdLen.toNat < 2 ^ 22)
    (hcmd : h.protoCmd.toNat < 32) :
    h.word.toNat = h.cmdLen.toNat + 2 ^ 24 * h.isSigned.toNat + 2 ^ 25 * h.isEncryptedPubkey.toNat +
      2 ^ 26 * h.isEncryptedChannel.toNat + 2 ^ 27 * h.protoCmd.toNat := by
  have hflag : ∀ (b : Bool) (flag : UInt32),
      (if b then flag else 0).toNat = flag.toNat * b.toNat := by
    intro b flag
    cases b with
    | false => simp
    | true => simp
  have hcmdLen : (h.cmdLen &&& cmdLenMask).toNat = h.cmdLen.toNat := by
    rw [UInt32.toNat_and]
    exact (Nat.and_two_pow_sub_one_eq_mod _ 22).trans (Nat.mod_eq_of_lt hlen)
  have hprotoCmd : ((h.protoCmd.toUInt32 &&& 0x1F) <<< 27).toNat = 2 ^ 27 * h.protoCmd.toNat := by
    have hmask : (h.protoCmd.toUInt32 &&& 0x1F).toNat = h.protoCmd.toNat := by
      rw [UInt32.toNat_and, UInt8.toNat_toUInt32]
      exact (Nat.and_two_pow_sub_one_eq_mod _ 5).trans (Nat.mod_eq_of_lt hcmd)
    rw [UInt32.toNat_shiftLeft, hmask]
    have hshift : h.protoCmd.toNat <<< 27 = 2 ^ 27 * h.protoCmd.toNat := by
      rw [Nat.shiftLeft_eq, Nat.mul_comm]
    exact (congrArg (· % 2 ^ 32) hshift).trans (Nat.mod_eq_of_lt (by omega))
  have hsigned : h.isSigned.toNat ≤ 1 := Bool.toNat_le _
  have hpubkey : h.isEncryptedPubkey.toNat ≤ 1 := Bool.toNat_le _
  have hchannel : h.isEncryptedChannel.toNat ≤ 1 := Bool.toNat_le _
  have h24 : signedBit.toNat = 2 ^ 24 := rfl
  have h25 : encryptedPubkeyBit.toNat = 2 ^ 25 := rfl
  have h26 : encryptedChannelBit.toNat = 2 ^ 26 := rfl
  rw [word, UInt32.toNat_or, UInt32.toNat_or, UInt32.toNat_or, UInt32.toNat_or, hflag, hflag, hflag,
    hcmdLen, hprotoCmd, h24, h25, h26, or_shiftLeft_of_lt (i := 24) (by omega),
    or_shiftLeft_of_lt (i := 25) (by omega), or_shiftLeft_of_lt (i := 26) (by omega),
    or_shiftLeft_of_lt (i := 27) (by omega)]

theorem unpack_of_pack {h : FrameHeader} {bytes : ByteVec 4} (hpack : h.pack = .ok bytes) :
    unpack bytes = h := by
  obtain ⟨hlen, hcmd, rfl⟩ := pack_eq_ok_iff.mp hpack
  have hword := toNat_word hlen hcmd
  have hsigned : h.isSigned.toNat ≤ 1 := Bool.toNat_le _
  have hpubkey : h.isEncryptedPubkey.toNat ≤ 1 := Bool.toNat_le _
  have hchannel : h.isEncryptedChannel.toNat ≤ 1 := Bool.toNat_le _
  have hflag : ∀ (i : ℕ) (flag : UInt32) (b : Bool), flag.toNat = 2 ^ i →
      h.word.toNat / 2 ^ i % 2 = b.toNat → (h.word &&& flag != 0) = b := by
    intro i flag b hflag hbit
    have hand : (h.word &&& flag).toNat = b.toNat * 2 ^ i := by
      rw [UInt32.toNat_and, hflag, Nat.and_two_pow, Nat.testBit_eq_decide_div_mod_eq, hbit]
      cases b with
      | false => rfl
      | true => rfl
    rw [Bool.eq_iff_iff, bne_iff_ne, ne_eq, ← UInt32.toNat_inj, hand]
    cases b with
    | false => simp
    | true => simp
  have hcmdLen : h.word &&& cmdLenMask = h.cmdLen := by
    rw [← UInt32.toNat_inj, UInt32.toNat_and]
    refine (Nat.and_two_pow_sub_one_eq_mod _ 22).trans ?_
    omega
  have hprotoCmd : ((h.word >>> 27) &&& 0x1F).toUInt8 = h.protoCmd := by
    have hshift : (h.word >>> 27).toNat = h.protoCmd.toNat := by
      rw [UInt32.toNat_shiftRight]
      refine (Nat.shiftRight_eq_div_pow _ 27).trans ?_
      omega
    rw [← UInt8.toNat_inj, UInt32.toNat_toUInt8, UInt32.toNat_and, hshift]
    refine (congrArg (· % 2 ^ 8) (Nat.and_two_pow_sub_one_eq_mod _ 5)).trans ?_
    omega
  rw [unpack]
  simp only [fromLeBytes_toLeBytes]
  rw [hcmdLen, hprotoCmd, hflag 24 _ h.isSigned rfl (by omega),
    hflag 25 _ h.isEncryptedPubkey rfl (by omega), hflag 26 _ h.isEncryptedChannel rfl (by omega)]

end FrameHeader

def rotateLeft (k n : UInt32) : UInt32 :=
  k <<< n ||| k >>> (32 - n)

def murmurSeed : UInt32 := 0xb10cfeed
def m3C1 : UInt32 := 0xcc9e2d51
def m3C2 : UInt32 := 0x1b873593
def m3C3 : UInt32 := 0xe6546b64

def datumHeaderXorFeedback (i : UInt32) : UInt32 :=
  let k := rotateLeft (i * m3C1) 15 * m3C2
  let h := rotateLeft (murmurSeed ^^^ k) 13 * 5 + m3C3
  let h := h ^^^ 4
  let h := (h ^^^ h >>> 16) * 0x85ebca6b
  let h := (h ^^^ h >>> 13) * 0xc2b2ae35
  h ^^^ h >>> 16

structure HeaderObfuscator where
  key : UInt32
  deriving DecidableEq, Repr

namespace HeaderObfuscator

def initialSendingHeaderKey : UInt32 := 0xDC871829

def initialSender : HeaderObfuscator := ⟨initialSendingHeaderKey⟩

def forSender (nk : UInt32) : HeaderObfuscator := ⟨datumHeaderXorFeedback nk⟩

def forReceiver (nk : UInt32) : HeaderObfuscator := ⟨datumHeaderXorFeedback (~~~nk)⟩

def encrypt (o : HeaderObfuscator) (plaintext : UInt32) : UInt32 × HeaderObfuscator :=
  (plaintext ^^^ o.key, ⟨datumHeaderXorFeedback o.key⟩)

def decrypt (o : HeaderObfuscator) (wire : UInt32) : UInt32 × HeaderObfuscator :=
  (wire ^^^ o.key, ⟨datumHeaderXorFeedback o.key⟩)

theorem decrypt_encrypt (o : HeaderObfuscator) (plaintext : UInt32) :
    o.decrypt (o.encrypt plaintext).1 = (plaintext, (o.encrypt plaintext).2) := by
  rw [decrypt, encrypt, UInt32.xor_assoc, UInt32.xor_self, UInt32.xor_zero]

end HeaderObfuscator

end DatumGateway.FrameHeaders
