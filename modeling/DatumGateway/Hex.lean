import DatumGateway.ByteString

namespace DatumGateway.Hex

open DatumGateway.ByteString

def digitChar (n : ℕ) : Char :=
  if n < 10 then Char.ofNat (48 + n) else Char.ofNat (87 + n)

def digitValue (c : Char) : Option ℕ :=
  if 48 ≤ c.toNat ∧ c.toNat ≤ 57 then some (c.toNat - 48)
  else if 97 ≤ c.toNat ∧ c.toNat ≤ 102 then some (c.toNat - 87)
  else if 65 ≤ c.toNat ∧ c.toNat ≤ 70 then some (c.toNat - 55)
  else none

def encodeChars : Bytes → List Char
  | [] => []
  | b :: bs => digitChar (b.toNat / 16) :: digitChar (b.toNat % 16) :: encodeChars bs

def decodeChars : List Char → Option Bytes
  | [] => some []
  | [_] => none
  | hi :: lo :: rest =>
      match digitValue hi, digitValue lo, decodeChars rest with
      | some h, some l, some bs => some (UInt8.ofNat (16 * h + l) :: bs)
      | _, _, _ => none

def encode (bs : Bytes) : String :=
  String.ofList (encodeChars bs)

def decode (s : String) : Option Bytes :=
  decodeChars s.toList

def fromStrRadix16 (cs : List Char) : Option UInt32 :=
  let digits :=
    match cs with
    | '+' :: rest => rest
    | _ => cs
  if digits = [] then none
  else
    (digits.foldlM
      (fun n c => do
        let d ← digitValue c
        if 16 * n + d < 2 ^ 32 then some (16 * n + d) else none)
      0).map UInt32.ofNat

def stripPrefix0x : List Char → List Char
  | '0' :: 'x' :: rest => rest
  | cs => cs

def trimStart0x : List Char → List Char
  | '0' :: 'x' :: rest => trimStart0x rest
  | cs => cs

theorem digitValue_digitChar {n : ℕ} (hn : n < 16) : digitValue (digitChar n) = some n := by
  have hdigits : ∀ m < 16, digitValue (digitChar m) = some m := by decide
  exact hdigits n hn

theorem decodeChars_encodeChars (bs : Bytes) : decodeChars (encodeChars bs) = some bs := by
  induction bs with
  | nil => rfl
  | cons b bs ih =>
      have hb : b.toNat < 256 := b.toNat_lt
      have hhi := digitValue_digitChar (n := b.toNat / 16) (by omega)
      have hlo := digitValue_digitChar (n := b.toNat % 16) (by omega)
      have hbyte : UInt8.ofNat (16 * (b.toNat / 16) + b.toNat % 16) = b := by
        rw [Nat.div_add_mod]
        simp
      simp only [encodeChars, decodeChars, hhi, hlo, ih, hbyte]

@[simp] theorem decode_encode (bs : Bytes) : decode (encode bs) = some bs := by
  rw [decode, encode, String.toList_ofList, decodeChars_encodeChars]

theorem decodeChars_eq_none {hi lo : Char} {cs : List Char}
    (hnone : ∀ h l tail, digitValue hi = some h → digitValue lo = some l →
      decodeChars cs = some tail → False) : decodeChars (hi :: lo :: cs) = none := by
  rw [decodeChars]
  split
  · rename_i h l tail hhi hlo htail
    exact (hnone h l tail hhi hlo htail).elim
  · rfl

theorem decodeChars_append {cs : List Char} {bs : Bytes} (hcs : decodeChars cs = some bs)
    (rest : List Char) : decodeChars (cs ++ rest) = (decodeChars rest).map (bs ++ ·) := by
  induction cs using decodeChars.induct generalizing bs with
  | case1 =>
      obtain rfl := Option.some.inj hcs
      rw [List.nil_append]
      cases decodeChars rest with
      | none => rfl
      | some bs => rfl
  | case2 c => cases hcs
  | case3 hi lo cs h l tail htail hlo hhi ih =>
      rw [decodeChars, hhi, hlo, htail] at hcs
      obtain rfl := Option.some.inj hcs
      rw [List.cons_append, List.cons_append, decodeChars, hhi, hlo, ih htail]
      cases decodeChars rest with
      | none => rfl
      | some bs => rfl
  | case4 hi lo cs hnone ih =>
      rw [decodeChars_eq_none hnone] at hcs
      cases hcs

theorem decode_append {s t : String} {xs ys : Bytes} (hs : decode s = some xs)
    (ht : decode t = some ys) : decode (s ++ t) = some (xs ++ ys) := by
  rw [decode, String.toList_append, decodeChars_append hs]
  exact congrArg (Option.map (xs ++ ·)) ht

theorem decode_foldl_append {texts : List String} {parts : List Bytes}
    (hparts : texts.map decode = parts.map some) {s : String} {xs : Bytes}
    (hs : decode s = some xs) :
    decode (texts.foldl (· ++ ·) s) = some (xs ++ parts.flatten) := by
  induction texts generalizing s xs parts with
  | nil =>
      obtain rfl := List.map_eq_nil_iff.mp hparts.symm
      rw [List.flatten_nil, List.append_nil]
      exact hs
  | cons text texts ih =>
      cases parts with
      | nil => cases hparts
      | cons part parts =>
          obtain ⟨htext, htexts⟩ := List.cons.inj hparts
          rw [List.foldl_cons, ih htexts (decode_append hs htext), List.flatten_cons,
            List.append_assoc]

theorem decode_join {texts : List String} {parts : List Bytes}
    (hparts : texts.map decode = parts.map some) :
    decode (String.join texts) = some parts.flatten := by
  have hdecode : decode (texts.foldl (· ++ ·) "") = some ([] ++ parts.flatten) :=
    decode_foldl_append hparts rfl
  rw [List.nil_append] at hdecode
  exact hdecode

end DatumGateway.Hex
