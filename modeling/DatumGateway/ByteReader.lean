import DatumGateway.ByteString
import Mathlib.Control.Basic

/-!
Readers that take a value off the front of a byte string, and the relation
between a reader and the bytes it reads.
-/

namespace DatumGateway.ByteReader

open DatumGateway.ByteString

abbrev Reader (α : Type) := StateT Bytes Option α

/-- The reader takes exactly `bs` off the front and returns `x`. -/
def Reads {α : Type} (reader : Reader α) (bs : Bytes) (x : α) : Prop :=
  ∀ rest, reader.run (bs ++ rest) = some (x, rest)

/-- Whatever the reader returns has the property. -/
def Yields {α : Type} (reader : Reader α) (p : α → Prop) : Prop :=
  ∀ bs x rest, reader.run bs = some (x, rest) → p x

def readAll {α : Type} (reader : Reader α) (bs : Bytes) : Option α :=
  match reader.run bs with
  | some (x, []) => some x
  | _ => none

def readBytes (n : ℕ) : Reader Bytes :=
  fun bs => if n ≤ bs.length then some (bs.take n, bs.drop n) else none

def readLe (k : ℕ) : Reader ℕ := do
  let bs ← readBytes k
  return leValue bs

def readVec (n : ℕ) : Reader (ByteVec n) :=
  fun bs =>
    if h : n ≤ bs.length then some (⟨bs.take n, List.length_take_of_le h⟩, bs.drop n) else none

def readUInt8 : Reader UInt8 := do
  let n ← readLe 1
  return UInt8.ofNat n

def readUInt16 : Reader UInt16 := do
  let n ← readLe 2
  return UInt16.ofNat n

def readUInt32 : Reader UInt32 := do
  let n ← readLe 4
  return UInt32.ofNat n

def readUInt64 : Reader UInt64 := do
  let n ← readLe 8
  return UInt64.ofNat n

/-- The bytes before the next zero byte, which is taken off as well. -/
def readUntilNul : Reader Bytes
  | [] => none
  | b :: bs =>
      if b = 0 then some ([], bs)
      else (readUntilNul bs).map fun (name, rest) => (b :: name, rest)

/-- Takes exactly the given bytes off the front. -/
def readLiteral (literal : Bytes) : Reader Unit :=
  fun bs => if literal.isPrefixOf bs then some ((), bs.drop literal.length) else none

/-- A part that is there exactly if the next byte is its tag. -/
def readTagged {α : Type} (tag : UInt8) (reader : Reader α) : Reader (Option α)
  | [] => some (none, [])
  | b :: bs => if b = tag then (some <$> reader).run bs else some (none, b :: bs)

def taggedBytes {α : Type} (tag : UInt8) (encode : α → Bytes) : Option α → Bytes
  | some x => tag :: encode x
  | none => []

/-- A variable-length count; only the shortest form of a number is accepted. -/
def readCompactSize : Reader ℕ := do
  let marker ← readLe 1
  if marker < 0xFD then return marker
  let (width, least) :=
    if marker = 0xFD then (2, 0xFD) else if marker = 0xFE then (4, 0x10000) else (8, 0x100000000)
  let n ← readLe width
  if least ≤ n then return n else failure

def readMany {α : Type} (reader : Reader α) : ℕ → Reader (List α)
  | 0 => return []
  | n + 1 => do
      let x ← reader
      let xs ← readMany reader n
      return x :: xs

def compactSize (n : ℕ) : Bytes :=
  if n < 0xFD then leBytes 1 n
  else if n ≤ 0xFFFF then 0xFD :: leBytes 2 n
  else if n ≤ 0xFFFFFFFF then 0xFE :: leBytes 4 n
  else 0xFF :: leBytes 8 n

theorem Reads.pure {α : Type} (x : α) : Reads (Pure.pure x) [] x :=
  fun _ => rfl

theorem Reads.bind {α β : Type} {reader : Reader α} {next : α → Reader β} {bs cs : Bytes}
    {x : α} {y : β} (hreader : Reads reader bs x) (hnext : Reads (next x) cs y) :
    Reads (reader >>= next) (bs ++ cs) y := by
  intro rest
  rw [List.append_assoc, StateT.run_bind, hreader (cs ++ rest)]
  exact hnext rest

theorem Reads.bind_pure {α β : Type} {reader : Reader α} {f : α → β} {bs : Bytes} {x : α}
    (hreader : Reads reader bs x) : Reads (reader >>= fun x => Pure.pure (f x)) bs (f x) := by
  rw [← List.append_nil bs]
  exact hreader.bind (Reads.pure (f x))

theorem Yields.pure {α : Type} {p : α → Prop} {x : α} (hx : p x) : Yields (Pure.pure x) p := by
  intro bs y rest hrun
  obtain ⟨rfl, -⟩ := Prod.mk.inj (Option.some.inj hrun)
  exact hx

theorem Yields.trivial {α : Type} (reader : Reader α) : Yields reader fun _ => True :=
  fun _ _ _ _ => True.intro

theorem Yields.bind {α β : Type} {reader : Reader α} {next : α → Reader β} {p : α → Prop}
    {q : β → Prop} (hreader : Yields reader p) (hnext : ∀ x, p x → Yields (next x) q) :
    Yields (reader >>= next) q := by
  intro bs y rest hrun
  rw [StateT.run_bind, Option.bind_eq_bind, Option.bind_eq_some_iff] at hrun
  obtain ⟨⟨x, cs⟩, hx, hy⟩ := hrun
  exact hnext x (hreader bs x cs hx) cs y rest hy

theorem Yields.bind_right {α β : Type} {reader : Reader α} {next : α → Reader β}
    {q : β → Prop} (hnext : ∀ x, Yields (next x) q) : Yields (reader >>= next) q :=
  (Yields.trivial reader).bind fun x _ => hnext x

theorem Reads.readAll {α : Type} {reader : Reader α} {bs : Bytes} {x : α}
    (hreader : Reads reader bs x) : readAll reader bs = some x := by
  have h := hreader []
  rw [List.append_nil] at h
  rw [ByteReader.readAll, h]

theorem reads_readBytes (bs : Bytes) : Reads (readBytes bs.length) bs bs := by
  intro rest
  simp [readBytes, StateT.run]

theorem reads_readLe {k n : ℕ} (hn : n < 256 ^ k) : Reads (readLe k) (leBytes k n) n := by
  have h := (reads_readBytes (leBytes k n)).bind_pure (f := leValue)
  rwa [length_leBytes, leValue_leBytes_of_lt hn] at h

theorem reads_readVec {n : ℕ} (v : ByteVec n) : Reads (readVec n) v.toList v := by
  intro rest
  have hlen : v.toList.length = n := v.toList_length
  have hle : n ≤ (v.toList ++ rest).length := by
    rw [List.length_append, hlen]
    exact Nat.le_add_right n rest.length
  simp only [readVec, StateT.run, dif_pos hle, Option.some.injEq]
  apply Prod.ext
  · apply List.Vector.toList_injective
    exact List.take_left' hlen
  · exact List.drop_left' hlen

theorem reads_readUInt8 (x : UInt8) : Reads readUInt8 [x] x := by
  have hread := (reads_readLe (k := 1) (n := x.toNat) x.toNat_lt).bind_pure (f := UInt8.ofNat)
  have hbytes : leBytes 1 x.toNat = [x] := by simp [leBytes]
  rwa [hbytes, UInt8.ofNat_toNat] at hread

theorem reads_readUInt16 (x : UInt16) : Reads readUInt16 (leBytes 2 x.toNat) x := by
  have hread := (reads_readLe (k := 2) (n := x.toNat) x.toNat_lt).bind_pure (f := UInt16.ofNat)
  rwa [UInt16.ofNat_toNat] at hread

theorem reads_readUInt32 (x : UInt32) : Reads readUInt32 (leBytes 4 x.toNat) x := by
  have hread := (reads_readLe (k := 4) (n := x.toNat) x.toNat_lt).bind_pure (f := UInt32.ofNat)
  rwa [UInt32.ofNat_toNat] at hread

theorem reads_readUInt64 (x : UInt64) : Reads readUInt64 (leBytes 8 x.toNat) x := by
  have hread := (reads_readLe (k := 8) (n := x.toNat) x.toNat_lt).bind_pure (f := UInt64.ofNat)
  rwa [UInt64.ofNat_toNat] at hread

theorem reads_readUntilNul {name : Bytes} (hname : 0 ∉ name) :
    Reads readUntilNul (name ++ [0]) name := by
  intro rest
  induction name with
  | nil => rfl
  | cons b name ih =>
      rw [List.mem_cons, not_or] at hname
      obtain ⟨hb, hrest⟩ := hname
      have htail : readUntilNul (name ++ [0] ++ rest) = some (name, rest) := ih hrest
      simp only [List.cons_append, StateT.run, readUntilNul, if_neg (Ne.symm hb), htail,
        Option.map_some]

theorem yields_readUntilNul : Yields readUntilNul fun name => 0 ∉ name := by
  intro bs
  induction bs with
  | nil =>
      intro name rest hread
      exact absurd hread (by simp [StateT.run, readUntilNul])
  | cons b bs ih =>
      intro name rest hread
      simp only [StateT.run, readUntilNul] at hread
      split_ifs at hread with hb
      · obtain ⟨rfl, -⟩ := Prod.mk.inj (Option.some.inj hread)
        exact List.not_mem_nil
      · obtain ⟨⟨tail, rest'⟩, htail, heq⟩ := Option.map_eq_some_iff.mp hread
        obtain ⟨rfl, rfl⟩ := Prod.mk.inj heq
        exact List.not_mem_cons_of_ne_of_not_mem (Ne.symm hb) (ih tail rest' htail)

theorem yields_readBytes (n : ℕ) : Yields (readBytes n) fun bs => bs.length = n := by
  intro bs taken rest hread
  simp only [StateT.run, readBytes, Option.ite_none_right_eq_some, Option.some.injEq] at hread
  obtain ⟨hle, heq⟩ := hread
  obtain ⟨rfl, -⟩ := Prod.mk.inj heq
  exact List.length_take_of_le hle

theorem yields_readMany {α : Type} (reader : Reader α) (n : ℕ) :
    Yields (readMany reader n) fun xs => xs.length = n := by
  induction n with
  | zero => exact Yields.pure rfl
  | succ n ih =>
      refine Yields.bind_right fun x => ih.bind fun xs hxs => Yields.pure ?_
      rw [List.length_cons, hxs]

theorem reads_readLiteral (literal : Bytes) : Reads (readLiteral literal) literal () := by
  intro rest
  simp [readLiteral, StateT.run]

theorem reads_readTagged {α : Type} {reader : Reader α} {bs : Bytes} {x : α} (tag : UInt8)
    (hreader : Reads reader bs x) : Reads (readTagged tag reader) (tag :: bs) (some x) := by
  intro rest
  have hrun : (some <$> reader).run (bs ++ rest) = some (some x, rest) := by
    rw [StateT.run_map, hreader rest]
    rfl
  simpa only [List.cons_append, StateT.run, readTagged, if_true] using hrun

theorem yields_readTagged {α : Type} {reader : Reader α} {p : α → Prop} (tag : UInt8)
    (hreader : Yields reader p) :
    Yields (readTagged tag reader) fun found => ∀ x, found = some x → p x := by
  rintro bs found rest hread x rfl
  cases bs with
  | nil => simp [StateT.run, readTagged] at hread
  | cons b bs =>
      simp only [StateT.run, readTagged] at hread
      split_ifs at hread
      · have hrun : (some <$> reader).run bs = some (some x, rest) := hread
        rw [StateT.run_map, Option.map_eq_map, Option.map_eq_some_iff] at hrun
        obtain ⟨⟨y, rest'⟩, hy, heq⟩ := hrun
        obtain ⟨hxy, -⟩ := Prod.mk.inj heq
        obtain rfl := Option.some.inj hxy
        exact hreader bs y rest' hy
      · simp at hread

/-- What follows a tagged part must not start with the tag, since the part may be absent. -/
theorem Reads.bind_readTagged {α β : Type} {reader : Reader α} {encode : α → Bytes}
    {next : Option α → Reader β} {tag b : UInt8} {found : Option α} {cs : Bytes} {y : β}
    (hreader : ∀ x, found = some x → Reads reader (encode x) x)
    (hnext : Reads (next found) cs y) (hhead : cs.head? = some b) (hne : b ≠ tag) :
    Reads (readTagged tag reader >>= next) (taggedBytes tag encode found ++ cs) y := by
  cases found with
  | some x => exact (reads_readTagged tag (hreader x rfl)).bind hnext
  | none =>
      intro rest
      obtain ⟨bs, rfl⟩ := List.head?_eq_some_iff.mp hhead
      have hrun : (readTagged tag reader).run (b :: bs ++ rest) = some (none, b :: bs ++ rest) := by
        simp only [List.cons_append, StateT.run, readTagged, if_neg hne]
      rw [taggedBytes, List.nil_append, StateT.run_bind, hrun]
      exact hnext rest

theorem reads_readCompactSize_marker (marker : ℕ) {width least n : ℕ} (hmarker : 0xFD ≤ marker)
    (hbyte : marker < 256)
    (hform : (if marker = 0xFD then (2, 0xFD)
      else if marker = 0xFE then (4, 0x10000) else (8, 0x100000000)) = (width, least))
    (hleast : least ≤ n) (hn : n < 256 ^ width) :
    Reads readCompactSize (leBytes 1 marker ++ leBytes width n) n := by
  have hread : Reads (readLe 1) (leBytes 1 marker) marker :=
    reads_readLe (by rw [pow_one]; exact hbyte)
  refine hread.bind ?_
  simp only [if_neg (not_lt.mpr hmarker), hform]
  intro rest
  have hn' := reads_readLe hn rest
  simp only [StateT.run_bind, hn', Option.bind_eq_bind, Option.bind_some, if_pos hleast]
  rfl

theorem reads_readCompactSize {n : ℕ} (hn : n < 2 ^ 64) :
    Reads readCompactSize (compactSize n) n := by
  unfold compactSize
  split_ifs with hone htwo hfour
  · intro rest
    have hread := reads_readLe (k := 1) (n := n) (by omega) rest
    simp only [readCompactSize, StateT.run_bind, hread, Option.bind_eq_bind, Option.bind_some,
      if_pos hone]
    rfl
  · exact reads_readCompactSize_marker 0xFD le_rfl (by decide) rfl
      (not_lt.mp hone) (Nat.lt_succ_of_le htwo)
  · exact reads_readCompactSize_marker 0xFE (by decide) (by decide) rfl
      (not_le.mp htwo) (Nat.lt_succ_of_le hfour)
  · exact reads_readCompactSize_marker 0xFF (by decide) (by decide) rfl
      (not_le.mp hfour) (lt_of_lt_of_eq hn (by norm_num))

theorem reads_readMany {α : Type} {reader : Reader α} {encode : α → Bytes} {xs : List α}
    (hreader : ∀ x ∈ xs, Reads reader (encode x) x) :
    Reads (readMany reader xs.length) (xs.flatMap encode) xs := by
  induction xs with
  | nil => exact Reads.pure []
  | cons x xs ih =>
      have hhead := hreader x (by simp)
      have htail := ih fun y hy => hreader y (by simp [hy])
      exact hhead.bind htail.bind_pure

end DatumGateway.ByteReader
