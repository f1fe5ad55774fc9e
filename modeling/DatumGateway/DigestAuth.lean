import DatumGateway.Hex
import DatumGateway.ListPrefixes
import DatumGateway.Utf8Encodings

namespace DatumGateway.DigestAuth

open DatumGateway.ByteString
open DatumGateway.ListPrefixes
open DatumGateway.Utf8Encodings
open DatumGateway.Utf8Text

inductive DigestAlgorithm where
  | sha256
  | md5
  deriving DecidableEq, Repr

/-- The request line and the header fields that the token is computed from. -/
@[ext]
structure DigestRequest where
  username : String
  realm : String
  method : String
  uri : String
  nonce : String
  nc : String
  cnonce : String
  qop : String
  deriving DecidableEq

def colon : Bytes := [0x3A]

def ha1Parts (username realm password : String) : List Bytes :=
  [utf8Bytes username, colon, utf8Bytes realm, colon, utf8Bytes password]

def ha2Parts (method uri : String) : List Bytes :=
  [utf8Bytes method, colon, utf8Bytes uri]

def responseParts (ha1 nonce nc cnonce qop ha2 : String) : List Bytes :=
  [utf8Bytes ha1, colon, utf8Bytes nonce, colon, utf8Bytes nc, colon, utf8Bytes cnonce, colon,
    utf8Bytes qop, colon, utf8Bytes ha2]

/-- All bytes are looked at, wherever the first difference is. -/
def constantTimeEq (a b : Bytes) : Bool :=
  if a.length ≠ b.length then false
  else (a.zip b).foldl (fun diff (x, y) => diff ||| (x ^^^ y)) 0 == 0

section Hashes

variable (digest : DigestAlgorithm → Bytes → Bytes) (algo : DigestAlgorithm)

def hashHex (parts : List Bytes) : String :=
  Hex.encode (digest algo parts.flatten)

def ha1 (username realm password : String) : String :=
  hashHex digest algo (ha1Parts username realm password)

def ha2 (method uri : String) : String :=
  hashHex digest algo (ha2Parts method uri)

def responseHash (ha1 nonce nc cnonce qop ha2 : String) : String :=
  hashHex digest algo (responseParts ha1 nonce nc cnonce qop ha2)

def verifyDigestResponse (expectedResponse password : String) (r : DigestRequest) : Bool :=
  let h1 := ha1 digest algo r.username r.realm password
  let h2 := ha2 digest algo r.method r.uri
  let computed := responseHash digest algo h1 r.nonce r.nc r.cnonce r.qop h2
  constantTimeEq (utf8Bytes computed) (utf8Bytes expectedResponse)

/-- All that is hashed on the way to the token. -/
def hashed (password : String) (r : DigestRequest) : List Bytes :=
  [(ha1Parts r.username r.realm password).flatten, (ha2Parts r.method r.uri).flatten,
    (responseParts (ha1 digest algo r.username r.realm password) r.nonce r.nc r.cnonce r.qop
      (ha2 digest algo r.method r.uri)).flatten]

end Hashes

theorem foldl_diff_eq_zero_iff {a b : Bytes} (hlength : a.length = b.length) (diff : UInt8) :
    (a.zip b).foldl (fun diff (x, y) => diff ||| (x ^^^ y)) diff = 0 ↔ diff = 0 ∧ a = b := by
  induction a generalizing b diff with
  | nil =>
      obtain rfl := List.length_eq_zero_iff.mp hlength.symm
      simp
  | cons x a ih =>
      obtain ⟨y, b, rfl⟩ := List.exists_cons_of_length_eq_add_one hlength.symm
      rw [List.zip_cons_cons, List.foldl_cons, ih (Nat.succ.inj hlength), UInt8.or_eq_zero_iff,
        UInt8.xor_eq_zero_iff, List.cons.injEq, and_assoc]

theorem constantTimeEq_iff (a b : Bytes) : constantTimeEq a b = true ↔ a = b := by
  rw [constantTimeEq]
  split_ifs with hlength
  · refine iff_of_false id ?_
    rintro rfl
    exact hlength rfl
  · rw [beq_iff_eq, foldl_diff_eq_zero_iff (not_not.mp hlength)]
    simp

theorem colon_notMem_encodeChars (bs : Bytes) : ':' ∉ Hex.encodeChars bs := by
  have hdigit : ∀ n < 16, ':' ≠ Hex.digitChar n := by decide
  induction bs with
  | nil => exact List.not_mem_nil
  | cons b bs ih =>
      have hb : b.toNat < 256 := b.toNat_lt
      rw [Hex.encodeChars, List.mem_cons, List.mem_cons]
      rintro (hhi | hlo | hrest)
      · exact hdigit _ (by omega) hhi
      · exact hdigit _ (by omega) hlo
      · exact ih hrest

theorem colon_notMem_utf8Bytes {s : String} (hs : ':' ∉ s.toList) : 0x3A ∉ utf8Bytes s := by
  intro hmem
  obtain ⟨c, hc, hbyte⟩ := List.mem_flatMap.mp hmem
  have hcolon : c = ':' := ascii_mem_utf8EncodeChar (by decide) hbyte
  exact hs (hcolon ▸ hc)

theorem encode_injective : Function.Injective Hex.encode := by
  intro xs ys hequal
  have hdecode := congrArg Hex.decode hequal
  rwa [Hex.decode_encode, Hex.decode_encode, Option.some.injEq] at hdecode

/-- The fields with a separator behind them do not hold it. -/
def DigestRequest.Separable (r : DigestRequest) : Prop :=
  ∀ s ∈ [r.username, r.realm, r.method, r.nonce, r.nc, r.cnonce, r.qop], ':' ∉ s.toList

theorem texts_injective {texts texts' : List String} (hlength : texts.length = texts'.length)
    (htexts : ∀ s ∈ texts.dropLast, ':' ∉ s.toList)
    (htexts' : ∀ s ∈ texts'.dropLast, ':' ∉ s.toList)
    (hequal : colon.intercalate (texts.map utf8Bytes) =
      colon.intercalate (texts'.map utf8Bytes)) : texts = texts' := by
  have hfields : ∀ {ss : List String}, (∀ s ∈ ss.dropLast, ':' ∉ s.toList) →
      ∀ field ∈ (ss.map utf8Bytes).dropLast, 0x3A ∉ field := by
    intro ss hss field hfield
    rw [← List.map_dropLast] at hfield
    obtain ⟨s, hs, rfl⟩ := List.mem_map.mp hfield
    exact colon_notMem_utf8Bytes (hss s hs)
  apply List.map_injective_iff.mpr utf8Bytes_injective
  exact intercalate_injective (by simpa using hlength) (hfields htexts) (hfields htexts') hequal

section Binding

variable {digest : DigestAlgorithm → Bytes → Bytes} {algo : DigestAlgorithm}

theorem flatten_ha1Parts (username realm password : String) :
    (ha1Parts username realm password).flatten =
      colon.intercalate ([username, realm, password].map utf8Bytes) := by
  simp [ha1Parts, colon]

theorem flatten_ha2Parts (method uri : String) :
    (ha2Parts method uri).flatten = colon.intercalate ([method, uri].map utf8Bytes) := by
  simp [ha2Parts, colon]

theorem flatten_responseParts (ha1 nonce nc cnonce qop ha2 : String) :
    (responseParts ha1 nonce nc cnonce qop ha2).flatten =
      colon.intercalate ([ha1, nonce, nc, cnonce, qop, ha2].map utf8Bytes) := by
  simp [responseParts, colon]

theorem colon_notMem_hashHex (parts : List Bytes) : ':' ∉ (hashHex digest algo parts).toList := by
  rw [hashHex, Hex.encode, String.toList_ofList]
  exact colon_notMem_encodeChars _

variable (digest algo) in
/-- Two different inputs at the same place of two computations, with the same digest. -/
def Collides (password password' : String) (r r' : DigestRequest) : Prop :=
  ∃ inputs ∈ (hashed digest algo password r).zip (hashed digest algo password' r'),
    inputs.1 ≠ inputs.2 ∧ digest algo inputs.1 = digest algo inputs.2

theorem inputs_eq_of_not_collides {password password' : String} {r r' : DigestRequest}
    (hnone : ¬ Collides digest algo password password' r r') {parts parts' : List Bytes}
    (hmem : (parts.flatten, parts'.flatten) ∈
      (hashed digest algo password r).zip (hashed digest algo password' r'))
    (hequal : hashHex digest algo parts = hashHex digest algo parts') :
    parts.flatten = parts'.flatten := by
  by_contra hne
  exact hnone ⟨_, hmem, hne, encode_injective hequal⟩

/-- A token is taken for at most one request and password, if it does not show a collision of the
hash.  It cannot be replayed for another method, URI, nonce or counter. -/
theorem digest_binds_request {password password' token : String} {r r' : DigestRequest}
    (hr : r.Separable) (hr' : r'.Separable)
    (hverify : verifyDigestResponse digest algo token password r = true)
    (hverify' : verifyDigestResponse digest algo token password' r' = true) :
    (r = r' ∧ password = password') ∨ Collides digest algo password password' r r' := by
  by_cases hcollides : Collides digest algo password password' r r'
  · exact Or.inr hcollides
  left
  simp only [DigestRequest.Separable, List.forall_mem_cons] at hr hr'
  obtain ⟨husername, hrealm, hmethod, hnonce, hnc, hcnonce, hqop, -⟩ := hr
  obtain ⟨husername', hrealm', hmethod', hnonce', hnc', hcnonce', hqop', -⟩ := hr'
  have htokens := utf8Bytes_injective
    (((constantTimeEq_iff _ _).mp hverify).trans ((constantTimeEq_iff _ _).mp hverify').symm)
  have hresponses := inputs_eq_of_not_collides hcollides (by simp [hashed]) htokens
  rw [flatten_responseParts, flatten_responseParts] at hresponses
  have hfields := texts_injective (by rfl) (by simp [*, ha1, colon_notMem_hashHex])
    (by simp [*, ha1, colon_notMem_hashHex]) hresponses
  simp only [List.cons.injEq] at hfields
  obtain ⟨hha1, hnonces, hncs, hcnonces, hqops, hha2, -⟩ := hfields
  have huris := inputs_eq_of_not_collides hcollides (by simp [hashed]) hha2
  rw [flatten_ha2Parts, flatten_ha2Parts] at huris
  have hline := texts_injective (by rfl) (by simp [*]) (by simp [*]) huris
  have husers := inputs_eq_of_not_collides hcollides (by simp [hashed]) hha1
  rw [flatten_ha1Parts, flatten_ha1Parts] at husers
  have huser := texts_injective (by rfl) (by simp [*]) (by simp [*]) husers
  simp only [List.cons.injEq, and_true] at hline huser
  exact ⟨DigestRequest.ext huser.1 huser.2.1 hline.1 hline.2 hnonces hncs hcnonces hqops,
    huser.2.2⟩

end Binding

def adminRequest : DigestRequest where
  username := "admin"
  realm := "DATUM Gateway"
  method := "GET"
  uri := "/clients?sort=a:b"
  nonce := "00ff"
  nc := "00000001"
  cnonce := "0a4f"
  qop := "auth"

/-- A digest that is the length alone takes one token for two requests. -/
theorem digest_binds_admin_request :
    let digest : DigestAlgorithm → Bytes → Bytes := fun _ bytes => [UInt8.ofNat bytes.length]
    let token := responseHash digest .sha256 (ha1 digest .sha256 "admin" "DATUM Gateway" "secret")
      "00ff" "00000001" "0a4f" "auth" (ha2 digest .sha256 "GET" "/clients?sort=a:b")
    let replayed := { adminRequest with method := "PUT", uri := "/clients?drop=a:b" }
    verifyDigestResponse digest .sha256 token "secret" adminRequest = true ∧
      verifyDigestResponse digest .sha256 token "secret" replayed = true ∧
      adminRequest ≠ replayed ∧
      Collides digest .sha256 "secret" "secret" adminRequest replayed := by
  intro digest token replayed
  have hverify : verifyDigestResponse digest .sha256 token "secret" adminRequest = true :=
    (constantTimeEq_iff _ _).mpr rfl
  have hverify' : verifyDigestResponse digest .sha256 token "secret" replayed = true :=
    (constantTimeEq_iff _ _).mpr (by decide +kernel)
  have hseparable : adminRequest.Separable := by
    unfold DigestRequest.Separable
    decide
  have hseparable' : replayed.Separable := by
    unfold DigestRequest.Separable
    decide
  have hne : adminRequest ≠ replayed := by decide
  refine ⟨hverify, hverify', hne, ?_⟩
  exact (digest_binds_request hseparable hseparable' hverify hverify').resolve_left
    fun hsame => hne hsame.1

end DatumGateway.DigestAuth
