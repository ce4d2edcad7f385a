/-
  Byte encoders. Fixed-width integers are written big endian; a byte string is written after its
  `u32` length. An encoder may fail, and a record is written by concatenating the encodings of
  its fields (`concat`).

  What is proved: an encoder is `PrefixFree` when two encodings that start one byte string belong
  to one value and leave one rest. The fixed-width writers, length-prefixed bytes, options and
  counted lists are prefix free, and a record is when its fields are and determine it
  (`Reads.cons`, `Reads.nil`); so a concatenation of such fields can be taken apart again.
-/
import CryptoIntelligence.Lib.Checked

namespace CryptoIntelligence.Lib

open List hiding Vector

abbrev Bytes := List UInt8

/-! ## Big-endian integers -/

/-- The `width` least significant bytes of a number, most significant first. -/
def beBytes : Nat → Nat → Bytes
  | 0, _ => []
  | width + 1, n => beBytes width (n / 256) ++ [UInt8.ofNat (n % 256)]

/-- The number a big-endian byte string denotes. -/
def beValue (bytes : Bytes) : Nat := bytes.foldl (fun acc b => acc * 256 + b.toNat) 0

@[simp] theorem beBytes_length (width n : Nat) : (beBytes width n).length = width := by
  induction width generalizing n with
  | zero => rfl
  | succ width ih => simp [beBytes, ih]

theorem beValue_append_singleton (bytes : Bytes) (b : UInt8) :
    beValue (bytes ++ [b]) = beValue bytes * 256 + b.toNat := by
  simp [beValue]

theorem beValue_beBytes (width n : Nat) : beValue (beBytes width n) = n % 256 ^ width := by
  induction width generalizing n with
  | zero => simp [beBytes, beValue, Nat.mod_one]
  | succ width ih =>
    rw [beBytes, beValue_append_singleton, ih, pow_succ, Nat.mul_comm (256 ^ width),
      Nat.mod_mul, UInt8.toNat_ofNat']
    have := Nat.mod_lt n (show 0 < 256 by decide)
    omega

variable {width offset length : Nat} {bytes : Bytes}

theorem beBytes_inj {m n : Nat} (hm : m < 256 ^ width) (hn : n < 256 ^ width)
    (h : beBytes width m = beBytes width n) : m = n := by
  have hv := congrArg beValue h
  rwa [beValue_beBytes, beValue_beBytes, Nat.mod_eq_of_lt hm, Nat.mod_eq_of_lt hn] at hv

theorem beValue_lt (bytes : Bytes) : beValue bytes < 256 ^ bytes.length := by
  induction bytes using List.reverseRecOn with
  | nil => simp [beValue]
  | append_singleton bytes b ih =>
    have hb := b.toNat_lt
    rw [beValue_append_singleton, length_append, length_singleton, pow_succ]
    omega

/-- Byte strings of a given width are exactly the encodings of their values. -/
theorem beBytes_beValue (bytes : Bytes) : beBytes bytes.length (beValue bytes) = bytes := by
  induction bytes using List.reverseRecOn with
  | nil => rfl
  | append_singleton bytes b ih =>
    have hb := b.toNat_lt
    have hdiv : (beValue bytes * 256 + b.toNat) / 256 = beValue bytes := by omega
    have hmod : (beValue bytes * 256 + b.toNat) % 256 = b.toNat := by omega
    rw [length_append, length_singleton, beBytes, beValue_append_singleton, hdiv, hmod,
      ih, UInt8.ofNat_toNat]

def u16be (n : UInt16) : Bytes := beBytes 2 n.toNat

def u32be (n : UInt32) : Bytes := beBytes 4 n.toNat

def u64be (n : UInt64) : Bytes := beBytes 8 n.toNat

/-- Two's complement, as `i64::to_be_bytes`. -/
def i64be (n : Int64) : Bytes := u64be n.toUInt64

@[simp] theorem u16be_length (n : UInt16) : (u16be n).length = 2 := beBytes_length _ _

@[simp] theorem u32be_length (n : UInt32) : (u32be n).length = 4 := beBytes_length _ _

@[simp] theorem u64be_length (n : UInt64) : (u64be n).length = 8 := beBytes_length _ _

@[simp] theorem i64be_length (n : Int64) : (i64be n).length = 8 := beBytes_length _ _

theorem u32be_injective : Function.Injective u32be := fun a b h =>
  UInt32.toNat_inj.mp (beBytes_inj a.toNat_lt b.toNat_lt h)

theorem u64be_injective : Function.Injective u64be := fun a b h =>
  UInt64.toNat_inj.mp (beBytes_inj a.toNat_lt b.toNat_lt h)

theorem i64be_injective : Function.Injective i64be := by
  intro a b h
  have hbits : a.toUInt64 = b.toUInt64 := u64be_injective h
  exact congrArg Int64.ofUInt64 hbits

/-! ## Fields at an offset -/

/-- `bytes[offset..offset + length]`. -/
def slice (bytes : Bytes) (offset length : Nat) : Bytes := (bytes.drop offset).take length

def readU16 (bytes : Bytes) (offset : Nat) : UInt16 := UInt16.ofNat (beValue (slice bytes offset 2))

def readU32 (bytes : Bytes) (offset : Nat) : UInt32 := UInt32.ofNat (beValue (slice bytes offset 4))

def readU64 (bytes : Bytes) (offset : Nat) : UInt64 := UInt64.ofNat (beValue (slice bytes offset 8))

def readI64 (bytes : Bytes) (offset : Nat) : Int64 := (readU64 bytes offset).toInt64

/-- `width` bytes, zeros where the bytes end. -/
def readVector (bytes : Bytes) (offset width : Nat) : Vector UInt8 width :=
  Vector.ofFn fun i => (bytes[offset + i.val]?).getD 0

/-- A slice inside a prefix does not see what follows the prefix. -/
theorem slice_take {n : Nat} (h : offset + length ≤ n) :
    slice (bytes.take n) offset length = slice bytes offset length := by
  rw [slice, slice, drop_take, take_take, Nat.min_eq_left (by omega)]

theorem slice_append_right {a b : Bytes} (h : a.length ≤ offset) :
    slice (a ++ b) offset length = slice b (offset - a.length) length := by
  rw [slice, slice, drop_append, drop_eq_nil_of_le h, nil_append]

theorem slice_length (h : offset + length ≤ bytes.length) :
    (slice bytes offset length).length = length := by
  rw [slice, length_take, length_drop]
  omega

theorem slice_add (bytes : Bytes) (offset a b : Nat) :
    slice bytes offset a ++ slice bytes (offset + a) b = slice bytes offset (a + b) := by
  rw [slice, slice, slice, take_add, drop_drop]

theorem slice_slice {inner n : Nat} (h : inner + n ≤ length) :
    slice (slice bytes offset length) inner n = slice bytes (offset + inner) n := by
  rw [slice, slice, slice, drop_take, take_take, drop_drop,
    Nat.min_eq_left (by omega)]

theorem readU16_take {n : Nat} (h : offset + 2 ≤ n) :
    readU16 (bytes.take n) offset = readU16 bytes offset := by
  rw [readU16, slice_take h, readU16]

theorem readU32_take {n : Nat} (h : offset + 4 ≤ n) :
    readU32 (bytes.take n) offset = readU32 bytes offset := by
  rw [readU32, slice_take h, readU32]

theorem readU64_take {n : Nat} (h : offset + 8 ≤ n) :
    readU64 (bytes.take n) offset = readU64 bytes offset := by
  rw [readU64, slice_take h, readU64]

theorem readI64_take {n : Nat} (h : offset + 8 ≤ n) :
    readI64 (bytes.take n) offset = readI64 bytes offset := by
  rw [readI64, readU64_take h, readI64]

/-! A field that was read is the slice it was read from. -/

theorem beBytes_slice (h : offset + width ≤ bytes.length) :
    beBytes width (beValue (slice bytes offset width)) = slice bytes offset width := by
  have hbytes := beBytes_beValue (slice bytes offset width)
  rwa [slice_length h] at hbytes

theorem beValue_slice_lt (h : offset + width ≤ bytes.length) :
    beValue (slice bytes offset width) < 256 ^ width := by
  have hlt := beValue_lt (slice bytes offset width)
  rwa [slice_length h] at hlt

theorem readVector_toList (h : offset + width ≤ bytes.length) :
    (readVector bytes offset width).toList = slice bytes offset width := by
  refine ext_getElem (by rw [Vector.length_toList, slice_length h]) ?_
  intro i hi hslice
  rw [Vector.length_toList] at hi
  simp only [readVector, Vector.getElem_toList, Vector.getElem_ofFn, slice, getElem_take,
    getElem_drop]
  rw [getElem?_eq_getElem (by omega), Option.getD_some]

/-! ## Chunks at an offset -/

/-- The chunk stands in the bytes at the offset. -/
def HoldsAt (bytes : Bytes) (offset : Nat) (chunk : Bytes) : Prop :=
  offset + chunk.length ≤ bytes.length ∧ slice bytes offset chunk.length = chunk

theorem holdsAt_slice (h : offset + length ≤ bytes.length) :
    HoldsAt bytes offset (slice bytes offset length) := by
  rw [HoldsAt, slice_length h]
  exact ⟨h, rfl⟩

theorem holdsAt_append {x y : Bytes} :
    HoldsAt bytes offset (x ++ y) ↔
      HoldsAt bytes offset x ∧ HoldsAt bytes (offset + x.length) y := by
  simp only [HoldsAt, length_append, ← slice_add]
  constructor
  · rintro ⟨hbound, heq⟩
    obtain ⟨hx, hy⟩ := append_inj heq (slice_length (by omega))
    exact ⟨⟨by omega, hx⟩, by omega, hy⟩
  · rintro ⟨⟨-, hx⟩, hbound, hy⟩
    exact ⟨by omega, by rw [hx, hy]⟩

theorem holdsAt_zero {chunk : Bytes} :
    HoldsAt bytes 0 chunk ↔ ∃ rest, bytes = chunk ++ rest := by
  constructor
  · rintro ⟨-, heq⟩
    have hsplit := take_append_drop chunk.length bytes
    have htake : bytes.take chunk.length = chunk := heq
    rw [htake] at hsplit
    exact ⟨bytes.drop chunk.length, hsplit.symm⟩
  · rintro ⟨rest, rfl⟩
    exact ⟨by simp, take_left⟩

theorem holdsAt_take {chunk : Bytes} {n : Nat} (h : offset + chunk.length ≤ n) :
    HoldsAt (bytes.take n) offset chunk ↔ HoldsAt bytes offset chunk := by
  rw [HoldsAt, slice_take h, length_take, le_min_iff, HoldsAt]
  simp only [h, true_and]

/-- A number stands at the offset exactly where it is read there. -/
theorem holdsAt_beBytes {n : Nat} (h : n < 256 ^ width) :
    HoldsAt bytes offset (beBytes width n) ↔
      offset + width ≤ bytes.length ∧ beValue (slice bytes offset width) = n := by
  rw [HoldsAt, beBytes_length]
  refine and_congr_right fun hbound => ?_
  constructor
  · intro heq
    rw [heq, beValue_beBytes, Nat.mod_eq_of_lt h]
  · intro heq
    rw [← heq, beBytes_slice hbound]

theorem holdsAt_u16be {v : UInt16} :
    HoldsAt bytes offset (u16be v) ↔ offset + 2 ≤ bytes.length ∧ readU16 bytes offset = v := by
  rw [u16be, holdsAt_beBytes v.toNat_lt]
  refine and_congr_right fun hbound => ?_
  rw [readU16, ← UInt16.toNat_inj, UInt16.toNat_ofNat_of_lt' (beValue_slice_lt hbound)]

theorem holdsAt_u32be {v : UInt32} :
    HoldsAt bytes offset (u32be v) ↔ offset + 4 ≤ bytes.length ∧ readU32 bytes offset = v := by
  rw [u32be, holdsAt_beBytes v.toNat_lt]
  refine and_congr_right fun hbound => ?_
  rw [readU32, ← UInt32.toNat_inj, UInt32.toNat_ofNat_of_lt' (beValue_slice_lt hbound)]

theorem holdsAt_u64be {v : UInt64} :
    HoldsAt bytes offset (u64be v) ↔ offset + 8 ≤ bytes.length ∧ readU64 bytes offset = v := by
  rw [u64be, holdsAt_beBytes v.toNat_lt]
  refine and_congr_right fun hbound => ?_
  rw [readU64, ← UInt64.toNat_inj, UInt64.toNat_ofNat_of_lt' (beValue_slice_lt hbound)]

theorem holdsAt_i64be {v : Int64} :
    HoldsAt bytes offset (i64be v) ↔ offset + 8 ≤ bytes.length ∧ readI64 bytes offset = v := by
  rw [i64be, holdsAt_u64be, readI64]
  refine and_congr_right fun _ => ⟨fun h => by rw [h]; rfl, fun h => by rw [← h]; rfl⟩

theorem holdsAt_vector {v : Vector UInt8 width} :
    HoldsAt bytes offset v.toList ↔
      offset + width ≤ bytes.length ∧ readVector bytes offset width = v := by
  rw [HoldsAt, Vector.length_toList]
  refine and_congr_right fun hbound => ?_
  rw [← readVector_toList hbound, Vector.toList_inj]

/-! ## Prefix-free encoders -/

variable {ε α β : Type} {known learned : α → α → Prop}

/-- Of two values known to be related, encodings that start one byte string show a further
    relation and leave one rest. -/
def Reads (known : α → α → Prop) (encode : α → Except ε Bytes) (learned : α → α → Prop) : Prop :=
  ∀ a b x y r s, known a b → encode a = .ok x → encode b = .ok y → x ++ r = y ++ s →
    learned a b ∧ r = s

/-- Two encodings that start one byte string are of one value and leave one rest. -/
def PrefixFree (encode : α → Except ε Bytes) : Prop := Reads (fun _ _ => True) encode Eq

/-- Concatenate the encodings of the fields of a record; the first failure is returned. -/
def concat : List (Except ε Bytes) → Except ε Bytes
  | [] => .ok []
  | field :: fields => do
    let x ← field
    let y ← concat fields
    return x ++ y

theorem concat_cons_eq_ok {field : Except ε Bytes} {fields : List (Except ε Bytes)} {z : Bytes} :
    concat (field :: fields) = .ok z ↔
      ∃ x y, field = .ok x ∧ concat fields = .ok y ∧ z = x ++ y := by
  simp only [concat, bind_eq_ok, pure_eq_ok]
  constructor
  · rintro ⟨x, hx, y, hy, rfl⟩
    exact ⟨x, y, hx, hy, rfl⟩
  · rintro ⟨x, y, hx, hy, rfl⟩
    exact ⟨x, hx, y, hy, rfl⟩

/-- Reading a field relates it; the rest of the record continues with that known. -/
theorem Reads.cons {field : β → Except ε Bytes}
    {rel : β → β → Prop} (hfield : Reads (fun _ _ => True) field rel) {get : α → β}
    {fields : α → List (Except ε Bytes)}
    (hrest : Reads (fun a b => known a b ∧ rel (get a) (get b)) (fun a => concat (fields a))
      learned) :
    Reads known (fun a => concat (field (get a) :: fields a)) learned := by
  intro a b x y r s hknown hx hy hxy
  obtain ⟨x₁, x₂, hx₁, hx₂, rfl⟩ := concat_cons_eq_ok.mp hx
  obtain ⟨y₁, y₂, hy₁, hy₂, rfl⟩ := concat_cons_eq_ok.mp hy
  rw [append_assoc, append_assoc] at hxy
  obtain ⟨hrel, hrs⟩ := hfield _ _ _ _ _ _ trivial hx₁ hy₁ hxy
  exact hrest a b x₂ y₂ r s ⟨hknown, hrel⟩ hx₂ hy₂ hrs

/-- At the end of a record what was read gives the relation. -/
theorem Reads.nil (h : ∀ a b, known a b → learned a b) :
    Reads known (fun _ : α => concat ([] : List (Except ε Bytes))) learned := by
  intro a b x y r s hknown hx hy hxy
  cases hx
  cases hy
  exact ⟨h a b hknown, hxy⟩

theorem Reads.mono {learned' : α → α → Prop} {encode : α → Except ε Bytes}
    (h : Reads known encode learned) (hl : ∀ a b, learned a b → learned' a b) :
    Reads known encode learned' := by
  intro a b x y r s hknown hx hy hxy
  obtain ⟨hab, hrs⟩ := h a b x y r s hknown hx hy hxy
  exact ⟨hl a b hab, hrs⟩

theorem PrefixFree.comp {encode : β → Except ε Bytes} (h : PrefixFree encode) {f : α → β}
    (hf : Function.Injective f) : PrefixFree fun a => encode (f a) := by
  intro a b x y r s _ hx hy hxy
  obtain ⟨hab, hrs⟩ := h _ _ _ _ _ _ trivial hx hy hxy
  exact ⟨hf hab, hrs⟩

/-- A total encoder of constant width is prefix free when it is injective. -/
theorem prefixFree_of_width {encode : α → Bytes} (width : Nat) (hinj : Function.Injective encode)
    (hlen : ∀ a, (encode a).length = width) :
    PrefixFree fun a => (.ok (encode a) : Except ε Bytes) := by
  intro a b x y r s _ hx hy hxy
  cases hx
  cases hy
  obtain ⟨hab, hrs⟩ := append_inj hxy ((hlen a).trans (hlen b).symm)
  exact ⟨hinj hab, hrs⟩

/-- Bytes after their `u32` length. -/
def lengthPrefixed (tooLarge : ε) (value : Bytes) : Except ε Bytes :=
  if value.length < 2 ^ 32 then .ok (beBytes 4 value.length ++ value) else .error tooLarge

theorem lengthPrefixed_prefixFree (tooLarge : ε) : PrefixFree (lengthPrefixed tooLarge) := by
  intro a b x y r s _ hx hy hxy
  unfold lengthPrefixed at hx hy
  split at hx
  · rename_i ha
    split at hy
    · rename_i hb
      cases hx
      cases hy
      rw [append_assoc, append_assoc] at hxy
      obtain ⟨hlen, hrest⟩ := append_inj hxy (by simp)
      exact append_inj hrest (beBytes_inj ha hb hlen)
    · cases hy
  · cases hx

/-- An option: a `1` byte before the value, or a `0` byte. -/
def optional (encode : α → Except ε Bytes) : Option α → Except ε Bytes
  | some value => concat [.ok [1], encode value]
  | none => .ok [0]

theorem optional_reads {encode : α → Except ε Bytes} {rel : α → α → Prop}
    (h : Reads (fun _ _ => True) encode rel) :
    Reads (fun _ _ => True) (optional encode) (Option.Rel rel) := by
  intro a b x y r s _ hx hy hxy
  cases a with
  | none =>
    cases b with
    | none =>
      cases hx
      cases hy
      exact ⟨.none, by simpa using hxy⟩
    | some b =>
      obtain ⟨_, _, ho, _, rfl⟩ := concat_cons_eq_ok.mp hy
      cases hx
      cases ho
      simp at hxy
  | some a =>
    obtain ⟨_, x', ho, hx', rfl⟩ := concat_cons_eq_ok.mp hx
    cases ho
    cases b with
    | none =>
      cases hy
      simp at hxy
    | some b =>
      obtain ⟨_, y', ho, hy', rfl⟩ := concat_cons_eq_ok.mp hy
      cases ho
      obtain ⟨x'', _, ha, ho, rfl⟩ := concat_cons_eq_ok.mp hx'
      cases ho
      obtain ⟨y'', _, hb, ho, rfl⟩ := concat_cons_eq_ok.mp hy'
      cases ho
      obtain ⟨hab, hrs⟩ := h a b x'' y'' r s trivial ha hb (by simpa using hxy)
      exact ⟨.some hab, hrs⟩

theorem eq_of_option_rel {a b : Option α} (h : Option.Rel Eq a b) : a = b := by
  cases h with
  | none => rfl
  | some h => rw [h]

theorem optional_prefixFree {encode : α → Except ε Bytes} (h : PrefixFree encode) :
    PrefixFree (optional encode) := (optional_reads h).mono fun _ _ => eq_of_option_rel

/-- A list after its `u32` count. -/
def counted (tooLarge : ε) (encode : α → Except ε Bytes) (values : List α) : Except ε Bytes :=
  if values.length < 2 ^ 32 then concat (.ok (beBytes 4 values.length) :: values.map encode)
  else .error tooLarge

/-- Lists of one length are read element by element. -/
theorem concat_map_inj {encode : α → Except ε Bytes} (h : PrefixFree encode) :
    ∀ (as bs : List α) (x y r s : Bytes), as.length = bs.length →
      concat (as.map encode) = .ok x → concat (bs.map encode) = .ok y → x ++ r = y ++ s →
      as = bs ∧ r = s
  | [], [], x, y, r, s, _, hx, hy, hxy => by
    cases hx
    cases hy
    exact ⟨rfl, hxy⟩
  | a :: as, b :: bs, x, y, r, s, hlen, hx, hy, hxy => by
    obtain ⟨x₁, x₂, hx₁, hx₂, rfl⟩ := concat_cons_eq_ok.mp hx
    obtain ⟨y₁, y₂, hy₁, hy₂, rfl⟩ := concat_cons_eq_ok.mp hy
    rw [append_assoc, append_assoc] at hxy
    obtain ⟨rfl, hrest⟩ := h _ _ _ _ _ _ trivial hx₁ hy₁ hxy
    obtain ⟨rfl, hrs⟩ := concat_map_inj h as bs x₂ y₂ r s (by simpa using hlen) hx₂ hy₂ hrest
    exact ⟨rfl, hrs⟩

theorem counted_prefixFree (tooLarge : ε) {encode : α → Except ε Bytes} (h : PrefixFree encode) :
    PrefixFree (counted tooLarge encode) := by
  intro as bs x y r s _ hx hy hxy
  unfold counted at hx hy
  split at hx
  · rename_i ha
    split at hy
    · rename_i hb
      obtain ⟨_, x', ho, hx', rfl⟩ := concat_cons_eq_ok.mp hx
      cases ho
      obtain ⟨_, y', ho, hy', rfl⟩ := concat_cons_eq_ok.mp hy
      cases ho
      rw [append_assoc, append_assoc] at hxy
      obtain ⟨hlen, hrest⟩ := append_inj hxy (by simp)
      exact concat_map_inj h as bs x' y' r s (beBytes_inj ha hb hlen) hx' hy' hrest
    · cases hy
  · cases hx

end CryptoIntelligence.Lib
