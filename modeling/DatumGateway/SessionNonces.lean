import DatumGateway.FrameHeaders
import Mathlib.Algebra.Order.Ring.Nat
import Mathlib.Logic.Function.Iterate

namespace DatumGateway.SessionNonces

open DatumGateway.ByteString
open DatumGateway.FrameHeaders

/-- The words that a starting nonce is made of. -/
def nonceWords : ℕ → UInt32 → List UInt32
  | 0, _ => []
  | n + 1, nk =>
      let word := datumHeaderXorFeedback (nk - 42)
      word :: nonceWords n (~~~word)

theorem length_nonceWords (n : ℕ) (nk : UInt32) : (nonceWords n nk).length = n := by
  induction n generalizing nk with
  | zero => rfl
  | succ n ih => rw [nonceWords, List.length_cons, ih]

def nonceBytes (words : List UInt32) : Bytes :=
  words.flatMap fun word => leBytes 4 word.toNat

theorem length_nonceBytes (words : List UInt32) :
    (nonceBytes words).length = 4 * words.length := by
  induction words with
  | nil => rfl
  | cons word words ih =>
      rw [nonceBytes, List.flatMap_cons, List.length_append, length_leBytes, List.length_cons]
      rw [nonceBytes] at ih
      omega

def receiverWords (nk : UInt32) (sessionEd25519Pub : ByteVec 32) : List UInt32 :=
  let pubWordAt7 := UInt32.ofNat (leValue ((sessionEd25519Pub.toList.drop 7).take 4))
  nonceWords 6 (nk - 42 ^^^ pubWordAt7)

theorem length_receiverWords (nk : UInt32) (sessionEd25519Pub : ByteVec 32) :
    (receiverWords nk sessionEd25519Pub).length = 6 :=
  length_nonceWords 6 _

def senderWords (words : List UInt32) : List UInt32 :=
  words.map fun word => word ^^^ 0x57575757

/-- The sender's and the receiver's starting nonce. -/
def deriveSessionNonces (nk : UInt32) (sessionEd25519Pub : ByteVec 32) :
    ByteVec 24 × ByteVec 24 :=
  let words := receiverWords nk sessionEd25519Pub
  (⟨nonceBytes (senderWords words), by
      rw [length_nonceBytes, senderWords, List.length_map, length_receiverWords]⟩,
    ⟨nonceBytes words, by rw [length_nonceBytes, length_receiverWords]⟩)

def incrementWords : ℕ → Bytes → Bytes
  | 0, n => n
  | words + 1, n =>
      let word := UInt32.ofNat (leValue (n.take 4)) + 1
      leBytes 4 word.toNat ++ if word ≠ 0 then n.drop 4 else incrementWords words (n.drop 4)

theorem length_incrementWords {words : ℕ} {n : Bytes} (hn : n.length = 4 * words) :
    (incrementWords words n).length = 4 * words := by
  induction words generalizing n with
  | zero => exact hn
  | succ words ih =>
      have hdrop : (n.drop 4).length = 4 * words := by rw [List.length_drop]; omega
      rw [incrementWords, List.length_append, length_leBytes]
      split_ifs
      · omega
      · rw [ih hdrop]
        omega

def incrementNonce (n : ByteVec 24) : ByteVec 24 :=
  ⟨incrementWords 6 n.toList, length_incrementWords n.toList_length⟩

theorem leValue_incrementWords {words : ℕ} {n : Bytes} (hn : n.length = 4 * words) :
    leValue (incrementWords words n) = (leValue n + 1) % 256 ^ (4 * words) := by
  induction words generalizing n with
  | zero =>
      obtain rfl := List.length_eq_zero_iff.mp hn
      rfl
  | succ words ih =>
      have htake : (n.take 4).length = 4 := by rw [List.length_take]; omega
      have hdrop : (n.drop 4).length = 4 * words := by rw [List.length_drop]; omega
      have hlow : leValue (n.take 4) < 2 ^ 32 := by
        simpa [htake] using leValue_lt_pow (n.take 4)
      have hhigh : leValue (n.drop 4) < 256 ^ (4 * words) := by
        simpa [hdrop] using leValue_lt_pow (n.drop 4)
      have hsplit : leValue n = leValue (n.take 4) + 2 ^ 32 * leValue (n.drop 4) := by
        have h := leValue_append (n.take 4) (n.drop 4)
        rwa [List.take_append_drop, htake] at h
      let word := UInt32.ofNat (leValue (n.take 4)) + 1
      have hword : leValue (leBytes 4 word.toNat) = (leValue (n.take 4) + 1) % 2 ^ 32 := by
        rw [leValue_leBytes_of_lt word.toNat_lt]
        simp [word]
      have hpow : (256 : ℕ) ^ (4 * (words + 1)) = 2 ^ 32 * 256 ^ (4 * words) := by
        rw [Nat.mul_succ, pow_add, Nat.mul_comm]
        norm_num
      have hbase : (256 : ℕ) ^ 4 = 2 ^ 32 := by norm_num
      rw [incrementWords, leValue_append, length_leBytes, hword, hpow, hbase, hsplit]
      split_ifs with hzero
      · have hnocarry : leValue (n.take 4) + 1 < 2 ^ 32 := by
          refine lt_of_le_of_ne hlow fun hcarry => hzero ?_
          apply UInt32.toNat_inj.mp
          simp [hcarry]
        have hbound : 2 ^ 32 * (leValue (n.drop 4) + 1) ≤ 2 ^ 32 * 256 ^ (4 * words) :=
          Nat.mul_le_mul_left _ hhigh
        rw [Nat.mod_eq_of_lt hnocarry, Nat.mod_eq_of_lt (by omega)]
        omega
      · have hcarry : leValue (n.take 4) + 1 = 2 ^ 32 := by
          have hmod : (leValue (n.take 4) + 1) % 2 ^ 32 = 0 := by
            have hword0 : word = 0 := not_not.mp hzero
            rw [← hword, hword0]
            rfl
          omega
        have hnext : leValue (n.take 4) + 2 ^ 32 * leValue (n.drop 4) + 1 =
            2 ^ 32 * (leValue (n.drop 4) + 1) := by omega
        rw [hcarry, hnext, Nat.mul_mod_mul_left, Nat.mod_self, Nat.zero_add, ih hdrop]

/-- The little-endian value of a nonce. -/
def nonceValue (n : ByteVec 24) : ℕ :=
  leValue n.toList

theorem nonceValue_lt (n : ByteVec 24) : nonceValue n < 2 ^ 192 := by
  have h := leValue_lt_pow n.toList
  rw [n.toList_length] at h
  exact h.trans_eq (by norm_num)

theorem nonceValue_incrementNonce (n : ByteVec 24) :
    nonceValue (incrementNonce n) = (nonceValue n + 1) % 2 ^ 192 := by
  have hpow : (256 : ℕ) ^ (4 * 6) = 2 ^ 192 := by norm_num
  rw [← hpow]
  exact leValue_incrementWords n.toList_length

theorem nonceValue_iterate (k : ℕ) (n : ByteVec 24) :
    nonceValue (incrementNonce^[k] n) = (nonceValue n + k) % 2 ^ 192 := by
  induction k with
  | zero => exact (Nat.mod_eq_of_lt (nonceValue_lt n)).symm
  | succ k ih =>
      rw [Function.iterate_succ_apply', nonceValue_incrementNonce, ih, Nat.mod_add_mod,
        Nat.add_assoc]

theorem iterate_incrementNonce_injOn {n : ByteVec 24} {k m : ℕ} (hk : k < 2 ^ 192)
    (hm : m < 2 ^ 192) (heq : incrementNonce^[k] n = incrementNonce^[m] n) : k = m := by
  have hvalue : (nonceValue n + k) % 2 ^ 192 = (nonceValue n + m) % 2 ^ 192 := by
    rw [← nonceValue_iterate, heq, nonceValue_iterate]
  have hlt := nonceValue_lt n
  omega

theorem leValue_nonceBytes_concat (words : List UInt32) (word : UInt32) :
    leValue (nonceBytes (words ++ [word])) =
      leValue (nonceBytes words) + 256 ^ (4 * words.length) * word.toNat := by
  have hword : nonceBytes [word] = leBytes 4 word.toNat := List.append_nil _
  have happend : nonceBytes (words ++ [word]) = nonceBytes words ++ nonceBytes [word] :=
    List.flatMap_append
  rw [happend, leValue_append, length_nonceBytes, hword, leValue_leBytes_of_lt word.toNat_lt]

/-- Of the three highest bits of a word, the constant flips the middle one. -/
theorem xor_top_cases {r : ℕ} (hr : r < 2 ^ 32) :
    (r ^^^ 0x57575757) / 2 ^ 29 = r / 2 ^ 29 + 2 ∨
      r / 2 ^ 29 = (r ^^^ 0x57575757) / 2 ^ 29 + 2 := by
  have hflip : ∀ top < 8, top ^^^ 2 = top + 2 ∨ top = (top ^^^ 2) + 2 := by decide
  have htop : (r ^^^ 0x57575757) / 2 ^ 29 = r / 2 ^ 29 ^^^ 2 := Nat.xor_div_two_pow
  rw [htop]
  exact hflip _ (by omega)

theorem counters_apart {r low low' k m : ℕ} (hr : r < 2 ^ 32) (hlow : low < 2 ^ 160)
    (hlow' : low' < 2 ^ 160) (hk : k < 2 ^ 160) (hm : m < 2 ^ 160) :
    (low + 2 ^ 160 * (r ^^^ 0x57575757) + k) % 2 ^ 192 ≠ (low' + 2 ^ 160 * r + m) % 2 ^ 192 := by
  have hxor : r ^^^ 0x57575757 < 2 ^ 32 := Nat.xor_lt_two_pow hr (by decide)
  have htop := xor_top_cases hr
  generalize r ^^^ 0x57575757 = s at hxor htop
  omega

theorem deriveSessionNonces_value (nk : UInt32) (sessionEd25519Pub : ByteVec 32) :
    ∃ r low low', r < 2 ^ 32 ∧ low < 2 ^ 160 ∧ low' < 2 ^ 160 ∧
      nonceValue (deriveSessionNonces nk sessionEd25519Pub).1 =
        low + 2 ^ 160 * (r ^^^ 0x57575757) ∧
      nonceValue (deriveSessionNonces nk sessionEd25519Pub).2 = low' + 2 ^ 160 * r := by
  have hlength := length_receiverWords nk sessionEd25519Pub
  have hsender : nonceValue (deriveSessionNonces nk sessionEd25519Pub).1 =
      leValue (nonceBytes (senderWords (receiverWords nk sessionEd25519Pub))) := rfl
  have hreceiver : nonceValue (deriveSessionNonces nk sessionEd25519Pub).2 =
      leValue (nonceBytes (receiverWords nk sessionEd25519Pub)) := rfl
  rcases List.eq_nil_or_concat' (receiverWords nk sessionEd25519Pub) with
    hnil | ⟨words, top, hwords⟩
  · rw [hnil] at hlength
    cases hlength
  · rw [hwords] at hlength hsender hreceiver
    have hfive : words.length = 5 := by
      rw [List.length_append, List.length_singleton] at hlength
      exact Nat.succ_injective hlength
    have hflipped : (senderWords words).length = 5 := by rw [senderWords, List.length_map, hfive]
    have hpow : (256 : ℕ) ^ (4 * 5) = 2 ^ 160 := by norm_num
    have hbound : ∀ ws : List UInt32, ws.length = 5 → leValue (nonceBytes ws) < 2 ^ 160 := by
      intro ws hws
      have h := leValue_lt_pow (nonceBytes ws)
      rwa [length_nonceBytes, hws, hpow] at h
    refine ⟨top.toNat, leValue (nonceBytes (senderWords words)), leValue (nonceBytes words),
      top.toNat_lt, hbound _ hflipped, hbound words hfive, ?_, ?_⟩
    · have hsplit : senderWords (words ++ [top]) = senderWords words ++ [top ^^^ 0x57575757] :=
        List.map_append
      rw [hsender, hsplit, leValue_nonceBytes_concat, hflipped, hpow, UInt32.toNat_xor]
      rfl
    · rw [hreceiver, leValue_nonceBytes_concat, hfive, hpow]

theorem incrementNonce_iterate_ne (nk : UInt32) (sessionEd25519Pub : ByteVec 32) :
    (∀ n, nonceValue (incrementNonce n) = (nonceValue n + 1) % 2 ^ 192) ∧
      ∀ k < 2 ^ 160, ∀ m < 2 ^ 160,
        incrementNonce^[k] (deriveSessionNonces nk sessionEd25519Pub).1 ≠
          incrementNonce^[m] (deriveSessionNonces nk sessionEd25519Pub).2 := by
  constructor
  · exact nonceValue_incrementNonce
  · intro k hk m hm heq
    obtain ⟨r, low, low', hr, hlow, hlow', hsender, hreceiver⟩ :=
      deriveSessionNonces_value nk sessionEd25519Pub
    have hvalue := congrArg nonceValue heq
    rw [nonceValue_iterate, nonceValue_iterate, hsender, hreceiver] at hvalue
    exact counters_apart hr hlow hlow' hk hm hvalue

theorem starting_nonces_ne :
    incrementNonce^[0] (deriveSessionNonces 0xDEADBEEF (ByteVec.fill 32 0x42)).1 ≠
      incrementNonce^[1] (deriveSessionNonces 0xDEADBEEF (ByteVec.fill 32 0x42)).2 :=
  (incrementNonce_iterate_ne 0xDEADBEEF (ByteVec.fill 32 0x42)).2 0 (by norm_num) 1 (by norm_num)

end DatumGateway.SessionNonces
