import DatumGateway.ByteString
import Mathlib.Algebra.Order.BigOperators.Group.List

namespace DatumGateway.Utf8Text

open DatumGateway.ByteString

def utf8Bytes (s : String) : Bytes :=
  s.toList.flatMap String.utf8EncodeChar

def isContinuation (b : UInt8) : Bool :=
  b &&& 0xC0 == 0x80

def sequenceWidth (b : UInt8) : ℕ :=
  if b < 0x80 then 1
  else if 0xC2 ≤ b ∧ b ≤ 0xDF then 2
  else if 0xE0 ≤ b ∧ b ≤ 0xEF then 3
  else if 0xF0 ≤ b ∧ b ≤ 0xF4 then 4
  else 0

/-- Whether the second byte of a sequence of three or four bytes fits the first. -/
def secondFits (first second : UInt8) : Bool :=
  if first = 0xE0 then decide (0xA0 ≤ second ∧ second ≤ 0xBF)
  else if first = 0xED then decide (0x80 ≤ second ∧ second ≤ 0x9F)
  else if first = 0xF0 then decide (0x90 ≤ second ∧ second ≤ 0xBF)
  else if first = 0xF4 then decide (0x80 ≤ second ∧ second ≤ 0x8F)
  else isContinuation second

/-- The length of the sequence at the front, and whether it is well-formed. -/
def scanSequence (first : UInt8) (rest : Bytes) : ℕ × Bool :=
  match sequenceWidth first with
  | 1 => (1, true)
  | 2 => if isContinuation (rest.getD 0 0) then (2, true) else (1, false)
  | 3 =>
      if !secondFits first (rest.getD 0 0) then (1, false)
      else if !isContinuation (rest.getD 1 0) then (2, false)
      else (3, true)
  | 4 =>
      if !secondFits first (rest.getD 0 0) then (1, false)
      else if !isContinuation (rest.getD 1 0) then (2, false)
      else if !isContinuation (rest.getD 2 0) then (3, false)
      else (4, true)
  | _ => (1, false)

/-- The code point that a well-formed sequence spells. -/
def codePoint (sequence : Bytes) : ℕ :=
  let payload := fun i => (sequence.getD i 0).toNat % 64
  match sequence.length with
  | 1 => (sequence.getD 0 0).toNat
  | 2 => ((sequence.getD 0 0).toNat % 32) * 64 + payload 1
  | 3 => (((sequence.getD 0 0).toNat % 16) * 64 + payload 1) * 64 + payload 2
  | _ => ((((sequence.getD 0 0).toNat % 8) * 64 + payload 1) * 64 + payload 2) * 64 + payload 3

def replacement : Char := Char.ofNat 0xFFFD

def decodeLossyChars : Bytes → List Char
  | [] => []
  | first :: rest =>
      let (width, wellFormed) := scanSequence first rest
      let char :=
        if wellFormed then Char.ofNat (codePoint ((first :: rest).take width)) else replacement
      char :: decodeLossyChars (rest.drop (width - 1))
termination_by bs => bs.length
decreasing_by
  simp only [List.length_drop, List.length_cons]
  omega

def decodeLossy (bs : Bytes) : String :=
  String.ofList (decodeLossyChars bs)

def decodeStrictChars : Bytes → Option (List Char)
  | [] => some []
  | first :: rest =>
      let (width, wellFormed) := scanSequence first rest
      if wellFormed then
        (decodeStrictChars (rest.drop (width - 1))).map fun chars =>
          Char.ofNat (codePoint ((first :: rest).take width)) :: chars
      else none
termination_by bs => bs.length
decreasing_by
  simp only [List.length_drop, List.length_cons]
  omega

/-- The text that well-formed bytes spell. -/
def decodeStrict (bs : Bytes) : Option String :=
  (decodeStrictChars bs).map String.ofList

theorem length_decodeLossyChars_le (bs : Bytes) : (decodeLossyChars bs).length ≤ bs.length := by
  induction bs using decodeLossyChars.induct with
  | case1 => simp [decodeLossyChars]
  | case2 first rest width wellFormed hscan ih =>
      rw [decodeLossyChars, hscan]
      simp only [List.length_cons, List.length_drop] at ih ⊢
      omega

theorem length_utf8Bytes_decodeLossy_le (bs : Bytes) :
    (utf8Bytes (decodeLossy bs)).length ≤ 4 * bs.length := by
  have hchar : ∀ c ∈ decodeLossyChars bs, (String.utf8EncodeChar c).length ≤ 4 := by
    intro c _
    rw [String.length_utf8EncodeChar]
    exact Char.utf8Size_le_four c
  rw [utf8Bytes, decodeLossy, String.toList_ofList, List.length_flatMap]
  calc
    ((decodeLossyChars bs).map fun c => (String.utf8EncodeChar c).length).sum
        ≤ ((decodeLossyChars bs).map fun c => (String.utf8EncodeChar c).length).length * 4 := by
          apply List.sum_le_card_nsmul
          simpa using hchar
    _ ≤ 4 * bs.length := by
          rw [List.length_map, Nat.mul_comm]
          exact Nat.mul_le_mul_left 4 (length_decodeLossyChars_le bs)

end DatumGateway.Utf8Text
