import DatumGateway.Utf8Text

namespace DatumGateway.Utf8Encodings

open DatumGateway.ByteString
open DatumGateway.Utf8Text

theorem isContinuation_ofNat (n : ℕ) : isContinuation (UInt8.ofNat (n % 64 + 0x80)) = true := by
  have hall : ∀ m < 64, isContinuation (UInt8.ofNat (m + 0x80)) = true := by decide
  exact hall _ (Nat.mod_lt _ (by omega))

theorem sequenceWidth_one {n : ℕ} (hn : n < 0x80) : sequenceWidth (UInt8.ofNat n) = 1 := by
  rw [sequenceWidth, if_pos]
  rw [UInt8.lt_iff_toNat_lt, UInt8.toNat_ofNat']
  exact (Nat.mod_le _ _).trans_lt hn

theorem sequenceWidth_two {n : ℕ} (hn : 2 ≤ n) (hn' : n < 32) :
    sequenceWidth (UInt8.ofNat (n + 0xC0)) = 2 := by
  have hall : ∀ m < 32, 2 ≤ m → sequenceWidth (UInt8.ofNat (m + 0xC0)) = 2 := by decide
  exact hall n hn' hn

theorem sequenceWidth_three {n : ℕ} (hn : n < 16) :
    sequenceWidth (UInt8.ofNat (n + 0xE0)) = 3 := by
  have hall : ∀ m < 16, sequenceWidth (UInt8.ofNat (m + 0xE0)) = 3 := by decide
  exact hall n hn

theorem sequenceWidth_four {n : ℕ} (hn : n < 5) :
    sequenceWidth (UInt8.ofNat (n + 0xF0)) = 4 := by
  have hall : ∀ m < 5, sequenceWidth (UInt8.ofNat (m + 0xF0)) = 4 := by decide
  exact hall n hn

/-- A sequence of three bytes is the shortest for its code point, which is no surrogate. -/
theorem secondFits_three {n m : ℕ} (hn : n < 16) (hm : m < 64) (hshortest : n = 0 → 32 ≤ m)
    (hsurrogate : n = 13 → m < 32) :
    secondFits (UInt8.ofNat (n + 0xE0)) (UInt8.ofNat (m + 0x80)) = true := by
  have hall : ∀ n < 16, ∀ m < 64, (n = 0 → 32 ≤ m) → (n = 13 → m < 32) →
      secondFits (UInt8.ofNat (n + 0xE0)) (UInt8.ofNat (m + 0x80)) = true := by
    decide +kernel
  exact hall n hn m hm hshortest hsurrogate

theorem secondFits_four {n m : ℕ} (hn : n < 5) (hm : m < 64) (hshortest : n = 0 → 16 ≤ m)
    (hlast : n = 4 → m < 16) :
    secondFits (UInt8.ofNat (n + 0xF0)) (UInt8.ofNat (m + 0x80)) = true := by
  have hall : ∀ n < 5, ∀ m < 64, (n = 0 → 16 ≤ m) → (n = 4 → m < 16) →
      secondFits (UInt8.ofNat (n + 0xF0)) (UInt8.ofNat (m + 0x80)) = true := by
    decide +kernel
  exact hall n hn m hm hshortest hlast

/-- The bytes of the character with the code point `v`. -/
def encodeCodePoint (v : ℕ) : Bytes :=
  if v ≤ 0x7f then [UInt8.ofNat v]
  else if v ≤ 0x7ff then [UInt8.ofNat (v / 64 % 0x20 + 0xc0), UInt8.ofNat (v % 64 + 0x80)]
  else if v ≤ 0xffff then
    [UInt8.ofNat (v / 4096 % 0x10 + 0xe0), UInt8.ofNat (v / 64 % 64 + 0x80),
      UInt8.ofNat (v % 64 + 0x80)]
  else
    [UInt8.ofNat (v / 262144 % 0x08 + 0xf0), UInt8.ofNat (v / 4096 % 64 + 0x80),
      UInt8.ofNat (v / 64 % 64 + 0x80), UInt8.ofNat (v % 64 + 0x80)]

theorem utf8EncodeChar_eq (c : Char) : String.utf8EncodeChar c = encodeCodePoint c.toNat := rfl

theorem scanSequence_encodeCodePoint {v : ℕ} (hvalid : v < 0xD800 ∨ 0xDFFF < v ∧ v < 0x110000)
    (rest : Bytes) :
    ∃ first others, encodeCodePoint v = first :: others ∧
      scanSequence first (others ++ rest) = (others.length + 1, true) := by
  rw [encodeCodePoint]
  split_ifs with hone htwo hthree
  · exact ⟨_, [], rfl, by rw [scanSequence, sequenceWidth_one (by omega)]; rfl⟩
  · refine ⟨_, [_], rfl, ?_⟩
    rw [scanSequence, sequenceWidth_two (by omega) (by omega)]
    simp only [List.cons_append, List.getD_cons_zero, isContinuation_ofNat, if_true,
      List.length_singleton]
  · refine ⟨_, [_, _], rfl, ?_⟩
    have hsecond := @secondFits_three (v / 4096 % 16) (v / 64 % 64) (by omega) (by omega)
      (by omega) (by omega)
    rw [scanSequence, sequenceWidth_three (by omega)]
    simp only [List.cons_append, List.getD_cons_zero, List.getD_cons_succ, hsecond,
      isContinuation_ofNat, Bool.not_true, Bool.false_eq_true, if_false, List.length_cons,
      List.length_nil]
  · refine ⟨_, [_, _, _], rfl, ?_⟩
    have hsecond := @secondFits_four (v / 262144 % 8) (v / 4096 % 64) (by omega) (by omega)
      (by omega) (by omega)
    rw [scanSequence, sequenceWidth_four (by omega)]
    simp only [List.cons_append, List.getD_cons_zero, List.getD_cons_succ, hsecond,
      isContinuation_ofNat, Bool.not_true, Bool.false_eq_true, if_false, List.length_cons,
      List.length_nil]

theorem codePoint_encodeCodePoint {v : ℕ} (hv : v < 0x110000) :
    codePoint (encodeCodePoint v) = v := by
  rw [encodeCodePoint]
  split_ifs with hone htwo hthree
  · simp only [codePoint, List.length_singleton, List.getD_cons_zero, UInt8.toNat_ofNat']
    omega
  · simp only [codePoint, List.length_cons, List.length_nil, List.getD_cons_zero,
      List.getD_cons_succ, UInt8.toNat_ofNat']
    omega
  · simp only [codePoint, List.length_cons, List.length_nil, List.getD_cons_zero,
      List.getD_cons_succ, UInt8.toNat_ofNat']
    omega
  · simp only [codePoint, List.length_cons, List.length_nil, List.getD_cons_zero,
      List.getD_cons_succ, UInt8.toNat_ofNat']
    omega

theorem decodeLossyChars_utf8EncodeChar (c : Char) (rest : Bytes) :
    decodeLossyChars (String.utf8EncodeChar c ++ rest) = c :: decodeLossyChars rest := by
  have hvalid : c.toNat < 0xD800 ∨ 0xDFFF < c.toNat ∧ c.toNat < 0x110000 := c.valid
  obtain ⟨first, others, hencode, hscan⟩ := scanSequence_encodeCodePoint hvalid rest
  have hpoint : codePoint (first :: others) = c.toNat := by
    rw [← hencode]
    exact codePoint_encodeCodePoint (by omega)
  rw [utf8EncodeChar_eq, hencode, List.cons_append, decodeLossyChars, hscan]
  dsimp only
  rw [if_pos rfl, List.take_succ_cons, List.take_left, hpoint, Char.ofNat_toNat,
    Nat.add_sub_cancel, List.drop_left]

theorem decodeLossyChars_flatMap (chars : List Char) :
    decodeLossyChars (chars.flatMap String.utf8EncodeChar) = chars := by
  induction chars with
  | nil => rw [List.flatMap_nil, decodeLossyChars]
  | cons c chars ih => rw [List.flatMap_cons, decodeLossyChars_utf8EncodeChar, ih]

@[simp] theorem decodeLossy_utf8Bytes (s : String) : decodeLossy (utf8Bytes s) = s := by
  rw [decodeLossy, utf8Bytes, decodeLossyChars_flatMap, String.ofList_toList]

theorem utf8Bytes_injective : Function.Injective utf8Bytes := by
  intro s t hbytes
  rw [← decodeLossy_utf8Bytes s, hbytes, decodeLossy_utf8Bytes]

theorem ascii_mem_utf8EncodeChar {c : Char} {b : UInt8} (hascii : b.toNat < 0x80)
    (hb : b ∈ String.utf8EncodeChar c) : c = Char.ofNat b.toNat := by
  have hvalue : c.toNat = b.toNat := by
    rw [utf8EncodeChar_eq, encodeCodePoint] at hb
    have hbyte : ∀ n, b = UInt8.ofNat n → n % 256 = b.toNat := by
      intro n hn
      rw [← UInt8.toNat_ofNat', ← hn]
    split_ifs at hb <;> simp only [List.mem_cons, List.not_mem_nil, or_false] at hb
    · have := hbyte _ hb
      omega
    · rcases hb with h | h <;> have := hbyte _ h <;> omega
    · rcases hb with h | h | h <;> have := hbyte _ h <;> omega
    · rcases hb with h | h | h | h <;> have := hbyte _ h <;> omega
  rw [← Char.ofNat_toNat c, hvalue]

theorem takeWhile_utf8Bytes (s : String) (rest : Bytes) :
    (utf8Bytes s ++ 0 :: rest).takeWhile (· != 0) =
      utf8Bytes (String.ofList (s.toList.takeWhile (· != Char.ofNat 0))) := by
  rw [utf8Bytes, utf8Bytes, String.toList_ofList]
  induction s.toList with
  | nil => rfl
  | cons c chars ih =>
      rw [List.flatMap_cons, List.append_assoc, List.takeWhile_cons]
      by_cases hc : c = Char.ofNat 0
      · subst hc
        rfl
      · have hnonzero : ∀ b ∈ String.utf8EncodeChar c, (b != 0) = true := by
          intro b hb
          rw [bne_iff_ne]
          rintro rfl
          exact hc (ascii_mem_utf8EncodeChar (by decide) hb)
        rw [List.takeWhile_append_of_pos hnonzero, ih, if_pos (bne_iff_ne.mpr hc),
          List.flatMap_cons]

end DatumGateway.Utf8Encodings
