import Mathlib.Data.List.Basic
import Mathlib.Tactic.Ring

/-!
# The tag-length-value wire format of protocol buffers

A message is a sequence of fields.  A field is a varint or a length-delimited
string of bytes, preceded by a varint tag that holds the field number and the
wire type.  Serialisation omits default values.  Parsing reads one field after
another, skips the wire types that no schema here uses, and on malformed input
leaves the fields read so far in place.
-/

namespace Foundation.Wire

abbrev Bytes := List UInt8

/-! ## Varints -/

def varint (n : Nat) : Bytes :=
  if n < 128 then [UInt8.ofNat n]
  else UInt8.ofNat (n % 128 + 128) :: varint (n / 128)
termination_by n
decreasing_by omega

def varintSize (n : Nat) : Nat :=
  if n < 128 then 1 else varintSize (n / 128) + 1
termination_by n
decreasing_by omega

/-- Read a varint of at most `limit` bytes. -/
def readVarint : (limit : Nat) → Bytes → Option (Nat × Bytes)
  | 0, _ => none
  | _ + 1, [] => none
  | limit + 1, byte :: bytes =>
    if byte.toNat < 128 then some (byte.toNat, bytes)
    else do
      let (high, rest) ← readVarint limit bytes
      some (byte.toNat - 128 + 128 * high, rest)

theorem varint_length (n : Nat) : (varint n).length = varintSize n := by
  induction n using Nat.strongRecOn with
  | ind n ih =>
    rw [varint, varintSize]
    split
    · rfl
    · rw [List.length_cons, ih (n / 128) (by omega)]

theorem varintSize_pos (n : Nat) : 0 < varintSize n := by
  rw [varintSize]
  split <;> omega

theorem varintSize_le_succ_iff (n limit : Nat) :
    varintSize n ≤ limit + 1 ↔ n < 128 ^ (limit + 1) := by
  induction limit generalizing n with
  | zero =>
    rw [varintSize]
    have hpos := varintSize_pos (n / 128)
    split <;> simp <;> omega
  | succ limit ih =>
    rw [varintSize]
    split
    · next hsmall =>
      have hpow : 1 ≤ 128 ^ (limit + 1) := Nat.one_le_pow _ _ (by omega)
      rw [Nat.pow_succ]
      constructor <;> intro <;> omega
    · rw [Nat.add_le_add_iff_right, ih, Nat.pow_succ _ (limit + 1)]
      exact Nat.div_lt_iff_lt_mul (by omega)

private theorem byte_toNat {n : Nat} (hn : n < 256) : (UInt8.ofNat n).toNat = n :=
  UInt8.toNat_ofNat_of_lt' hn

theorem readVarint_varint (limit n : Nat) (rest : Bytes) (hn : n < 128 ^ (limit + 1)) :
    readVarint (limit + 1) (varint n ++ rest) = some (n, rest) := by
  induction limit generalizing n with
  | zero =>
    have hsmall : n < 128 := by simpa using hn
    have hbyte : (UInt8.ofNat n).toNat = n := byte_toNat (by omega)
    rw [varint, if_pos hsmall]
    simp [readVarint, hbyte, hsmall]
  | succ limit ih =>
    rw [varint]
    split
    · next hsmall =>
      have hbyte : (UInt8.ofNat n).toNat = n := byte_toNat (by omega)
      simp [readVarint, hbyte, hsmall]
    · have hbyte : (UInt8.ofNat (n % 128 + 128)).toNat = n % 128 + 128 := byte_toNat (by omega)
      have hhigh : n / 128 < 128 ^ (limit + 1) := by
        rw [Nat.pow_succ] at hn
        exact (Nat.div_lt_iff_lt_mul (by omega)).mpr hn
      rw [List.cons_append, readVarint, hbyte, if_neg (by omega),
        ih (n / 128) hhigh]
      simp only [Option.bind_eq_bind, Option.bind_some, Option.some.injEq, Prod.mk.injEq, and_true]
      omega

/-! ## Fields -/

inductive Field where
  | varint (number : Nat) (value : Nat)
  | bytes (number : Nat) (value : Bytes)
  deriving DecidableEq, Repr

/-- The field number and the payload fit the format. -/
def Field.WellFormed : Field → Prop
  | .varint number value => 0 < number ∧ number < 2 ^ 29 ∧ value < 2 ^ 64
  | .bytes number value => 0 < number ∧ number < 2 ^ 29 ∧ value.length < 2 ^ 31

def Field.encode : Field → Bytes
  | .varint number value => Wire.varint (8 * number) ++ Wire.varint value
  | .bytes number value => Wire.varint (8 * number + 2) ++ Wire.varint value.length ++ value

def Field.size : Field → Nat
  | .varint number value => varintSize (8 * number) + varintSize value
  | .bytes number value => varintSize (8 * number + 2) + varintSize value.length + value.length

theorem Field.encode_length (field : Field) : field.encode.length = field.size := by
  cases field with
  | varint number value => simp [Field.encode, Field.size, varint_length]
  | bytes number value => simp [Field.encode, Field.size, varint_length, Nat.add_assoc]

def encode (fields : List Field) : Bytes := fields.flatMap Field.encode

def size (fields : List Field) : Nat := (fields.map Field.size).sum

@[simp] theorem size_nil : size [] = 0 := rfl

@[simp] theorem size_cons (field : Field) (fields : List Field) :
    size (field :: fields) = field.size + size fields := by
  simp [size]

@[simp] theorem size_append (first second : List Field) :
    size (first ++ second) = size first + size second := by
  simp [size]

theorem encode_length (fields : List Field) : (encode fields).length = size fields := by
  induction fields with
  | nil => rfl
  | cons field fields ih =>
    simp only [encode, List.flatMap_cons, List.length_append] at ih ⊢
    rw [ih, field.encode_length, size_cons]

/-! ## Reading fields -/

/-- A tag: the field number and the wire type.  Field number zero is refused. -/
def readTag (bytes : Bytes) : Option (Nat × Nat × Bytes) := do
  let (tag, rest) ← readVarint 5 bytes
  let number := tag % 2 ^ 32 / 8
  if number = 0 then none else some (number, tag % 8, rest)

def readLength (bytes : Bytes) : Option (Nat × Bytes) := do
  let (length, rest) ← readVarint 5 bytes
  if length < 2 ^ 31 ∧ length ≤ rest.length then some (length, rest) else none

/-- Skip a value of one of the wire types that are not groups. -/
def skipValue (wireType : Nat) (bytes : Bytes) : Option Bytes :=
  match wireType with
  | 0 => (readVarint 10 bytes).map Prod.snd
  | 1 => if 8 ≤ bytes.length then some (bytes.drop 8) else none
  | 2 => (readLength bytes).map fun (length, rest) => rest.drop length
  | 5 => if 4 ≤ bytes.length then some (bytes.drop 4) else none
  | _ => none

/-- Skip to the end of the group `number`; nested groups are skipped whole. -/
def skipGroup : (fuel : Nat) → (number : Nat) → Bytes → Option Bytes
  | 0, _, _ => none
  | fuel + 1, number, bytes => do
      let (inner, wireType, rest) ← readTag bytes
      if wireType = 4 then
        if inner = number then some rest else none
      else if wireType = 3 then
        skipGroup fuel inner rest >>= skipGroup fuel number
      else
        skipValue wireType rest >>= skipGroup fuel number

/-- Read one field; a skipped wire type yields no field. -/
def readField (bytes : Bytes) : Option (Option Field × Bytes) := do
  let (number, wireType, rest) ← readTag bytes
  if wireType = 0 then
    let (value, rest) ← readVarint 10 rest
    some (some (.varint number (value % 2 ^ 64)), rest)
  else if wireType = 2 then
    let (length, rest) ← readLength rest
    some (some (.bytes number (rest.take length)), rest.drop length)
  else if wireType = 3 then
    let rest ← skipGroup rest.length number rest
    some (none, rest)
  else
    let rest ← skipValue wireType rest
    some (none, rest)

theorem readTag_varint (number wireType : Nat) (rest : Bytes)
    (hpos : 0 < number) (hbound : number < 2 ^ 29) (htype : wireType < 8) :
    readTag (varint (8 * number + wireType) ++ rest) = some (number, wireType, rest) := by
  have hread : readVarint 5 (varint (8 * number + wireType) ++ rest) =
      some (8 * number + wireType, rest) :=
    readVarint_varint 4 _ rest (by omega)
  have hnumber : (8 * number + wireType) % 2 ^ 32 / 8 = number := by omega
  have hwire : (8 * number + wireType) % 8 = wireType := by omega
  simp only [readTag, hread, hnumber, hwire, Option.bind_eq_bind,
    Option.bind_some, if_neg (Nat.ne_of_gt hpos)]

theorem readField_encode (field : Field) (rest : Bytes) (hfield : field.WellFormed) :
    readField (field.encode ++ rest) = some (some field, rest) := by
  cases field with
  | varint number value =>
    obtain ⟨hpos, hbound, hvalue⟩ := hfield
    have htag := readTag_varint number 0 (Wire.varint value ++ rest) hpos hbound (by omega)
    have hread := readVarint_varint 9 value rest (by omega)
    rw [Nat.add_zero] at htag
    simp only [readField, Field.encode, List.append_assoc, htag, hread,
      Option.bind_eq_bind, Option.bind_some, if_true,
      Nat.mod_eq_of_lt hvalue]
  | bytes number value =>
    obtain ⟨hpos, hbound, hlength⟩ := hfield
    have htag := readTag_varint number 2
      (Wire.varint value.length ++ (value ++ rest)) hpos hbound (by omega)
    have hread := readVarint_varint 4 value.length (value ++ rest) (by omega)
    have hlen : readLength (Wire.varint value.length ++ (value ++ rest)) =
        some (value.length, value ++ rest) := by
      simp only [readLength, hread, Option.bind_eq_bind, Option.bind_some, List.length_append]
      exact if_pos ⟨hlength, by omega⟩
    simp [readField, Field.encode, List.append_assoc, htag, hlen]

/-- The fields read before the input ends or turns out to be malformed. -/
def decodeFuel : (fuel : Nat) → Bytes → List Field × Bool
  | _, [] => ([], true)
  | 0, _ :: _ => ([], false)
  | fuel + 1, byte :: bytes =>
    match readField (byte :: bytes) with
    | none => ([], false)
    | some (field, rest) =>
      let (fields, complete) := decodeFuel fuel rest
      (field.toList ++ fields, complete)

/-- Every field takes at least one byte, so the length is fuel enough. -/
def decode (bytes : Bytes) : List Field × Bool := decodeFuel bytes.length bytes

theorem varint_ne_nil (n : Nat) : varint n ≠ [] := by
  intro h
  have hlength := varint_length n
  have hpos := varintSize_pos n
  rw [h, List.length_nil] at hlength
  omega

theorem Field.encode_ne_nil (field : Field) : field.encode ≠ [] := by
  cases field <;> simp [Field.encode, varint_ne_nil]

theorem decodeFuel_encode (fields : List Field) (fuel : Nat)
    (hfields : ∀ field ∈ fields, field.WellFormed) (hfuel : fields.length ≤ fuel) :
    decodeFuel fuel (encode fields) = (fields, true) := by
  induction fields generalizing fuel with
  | nil => cases fuel <;> rfl
  | cons field fields ih =>
    obtain ⟨fuel, rfl⟩ : ∃ n, fuel = n + 1 :=
      Nat.exists_eq_succ_of_ne_zero (by simp at hfuel; omega)
    have hrest := ih fuel (fun f hf => hfields f (List.mem_cons_of_mem _ hf)) (by simpa using hfuel)
    have hread := readField_encode field (encode fields) (hfields field List.mem_cons_self)
    change decodeFuel (fuel + 1) (field.encode ++ encode fields) = _
    cases hbytes : field.encode ++ encode fields with
    | nil => simp [field.encode_ne_nil] at hbytes
    | cons byte bytes =>
      rw [hbytes] at hread
      simp [decodeFuel, hread, hrest]

theorem length_le_encode_length (fields : List Field) : fields.length ≤ (encode fields).length := by
  induction fields with
  | nil => simp
  | cons field fields ih =>
    have hpos : 0 < field.encode.length := List.length_pos_of_ne_nil field.encode_ne_nil
    simp only [encode, List.flatMap_cons, List.length_append, List.length_cons] at ih ⊢
    omega

theorem decode_encode (fields : List Field) (hfields : ∀ field ∈ fields, field.WellFormed) :
    decode (encode fields) = (fields, true) :=
  decodeFuel_encode fields _ hfields (length_le_encode_length fields)

/-! ## Schemas

Scalars equal to their default are not written, an absent submessage is not
written, and a present one is written even when it is empty.
-/

def uint (number value : Nat) : List Field :=
  if value = 0 then [] else [.varint number value]

def text (number : Nat) (value : Bytes) : List Field :=
  if value = [] then [] else [.bytes number value]

def message (number : Nat) (fields : Option (List Field)) : List Field :=
  (fields.map fun inner => Field.bytes number (encode inner)).toList

def textSize (number length : Nat) : Nat :=
  if length = 0 then 0
  else varintSize (8 * number + 2) + varintSize length + length

theorem size_text (number : Nat) (value : Bytes) :
    size (text number value) = textSize number value.length := by
  cases value with
  | nil => rfl
  | cons byte bytes => simp [text, textSize, Field.size]

theorem size_message_some (number : Nat) (fields : List Field) :
    size (message number (some fields)) =
      varintSize (8 * number + 2) + varintSize (size fields) + size fields := by
  simp [message, Field.size, encode_length]

/-- Assign the fields in order until one is refused. -/
def assign {M : Type} (set : M → Field → M × Bool) : M → List Field → M × Bool
  | value, [] => (value, true)
  | value, field :: fields =>
    let (next, accepted) := set value field
    if accepted then assign set next fields else (next, false)

def parse {M : Type} (set : M → Field → M × Bool) (start : M) (bytes : Bytes) : M × Bool :=
  let (fields, complete) := decode bytes
  let (value, accepted) := assign set start fields
  (value, accepted && complete)

theorem parse_encode {M : Type} (set : M → Field → M × Bool) (start : M)
    (fields : List Field) (hfields : ∀ field ∈ fields, field.WellFormed) :
    parse set start (encode fields) = assign set start fields := by
  simp [parse, decode_encode fields hfields]

/-! ### What every parsed value satisfies -/

/-- The bytes of the field are below 2 GiB. -/
def Field.Short : Field → Prop
  | .varint _ _ => True
  | .bytes _ value => value.length < 2 ^ 31

theorem readField_short {bytes rest : Bytes} {field : Field}
    (h : readField bytes = some (some field, rest)) : field.Short := by
  simp only [readField, Option.bind_eq_bind, Option.bind_eq_some_iff] at h
  obtain ⟨⟨number, wireType, tail⟩, _, h⟩ := h
  split at h
  · obtain ⟨_, _, h⟩ := Option.bind_eq_some_iff.mp h
    cases h
    trivial
  split at h
  · obtain ⟨⟨length, after⟩, hlength, h⟩ := Option.bind_eq_some_iff.mp h
    obtain ⟨⟨read, _⟩, _, hread⟩ := Option.bind_eq_some_iff.mp hlength
    simp only [Option.ite_none_right_eq_some] at hread
    cases h
    obtain ⟨⟨hlt, _⟩, heq⟩ := hread
    cases heq
    exact Nat.lt_of_le_of_lt (List.length_take_le _ _) hlt
  split at h <;>
  · obtain ⟨_, _, h⟩ := Option.bind_eq_some_iff.mp h
    cases h

theorem decodeFuel_short (fuel : Nat) (bytes : Bytes) :
    ∀ field ∈ (decodeFuel fuel bytes).1, field.Short := by
  induction fuel generalizing bytes with
  | zero => cases bytes <;> exact fun _ hmem => absurd hmem List.not_mem_nil
  | succ fuel ih =>
    cases bytes with
    | nil => exact fun _ hmem => absurd hmem List.not_mem_nil
    | cons byte bytes =>
      intro field hmem
      rw [decodeFuel] at hmem
      split at hmem
      · cases hmem
      · next found rest hread =>
        rcases List.mem_append.mp hmem with hfield | hlater
        · rw [Option.mem_toList.mp hfield] at hread
          exact readField_short hread
        · exact ih rest field hlater

theorem parse_keeps {M : Type} {set : M → Field → M × Bool} {p : M → Prop}
    (hset : ∀ value field, field.Short → p value → (set value field).2 = true →
      p (set value field).1) {start value : M} (hstart : p start) {bytes : Bytes}
    (h : parse set start bytes = (value, true)) : p value := by
  have hassign (fields : List Field) (hfields : ∀ field ∈ fields, field.Short)
      (start : M) (hstart : p start) (haccepted : (assign set start fields).2 = true) :
      p (assign set start fields).1 := by
    induction fields generalizing start with
    | nil => exact hstart
    | cons field fields ih =>
      simp only [assign] at haccepted ⊢
      split at haccepted
      · next hok =>
        rw [if_pos hok]
        exact ih (fun other hmem => hfields other (List.mem_cons_of_mem _ hmem)) _
          (hset start field (hfields field List.mem_cons_self) hstart hok)
          haccepted
      · cases haccepted
  obtain ⟨hvalue, hok⟩ := Prod.mk.inj h
  rw [← hvalue]
  exact hassign _ (decodeFuel_short _ bytes) start hstart (Bool.and_eq_true_iff.mp hok).1

section Assign

variable {M : Type} {set : M → Field → M × Bool} {value next : M}

theorem assign_uint (number n : Nat) (rest : List Field)
    (hset : set value (.varint number n) = (next, true)) (hdefault : n = 0 → next = value) :
    assign set value (uint number n ++ rest) = assign set next rest := by
  by_cases hn : n = 0
  · simp [uint, hn, hdefault hn]
  · simp [uint, hn, assign, hset]

theorem assign_text (number : Nat) (bytes : Bytes) (rest : List Field)
    (hset : set value (.bytes number bytes) = (next, true)) (hdefault : bytes = [] → next = value) :
    assign set value (text number bytes ++ rest) = assign set next rest := by
  by_cases hbytes : bytes = []
  · simp [text, hbytes, hdefault hbytes]
  · simp [text, hbytes, assign, hset]

end Assign

/-! ## Text -/

/-- The admissible ranges of the bytes that follow a leading byte. -/
def continuation (byte : UInt8) : Option (List (UInt8 × UInt8)) :=
  if byte < 0x80 then some []
  else if 0xC2 ≤ byte && byte ≤ 0xDF then some [(0x80, 0xBF)]
  else if byte = 0xE0 then some [(0xA0, 0xBF), (0x80, 0xBF)]
  else if byte = 0xED then some [(0x80, 0x9F), (0x80, 0xBF)]
  else if 0xE1 ≤ byte && byte ≤ 0xEF then some [(0x80, 0xBF), (0x80, 0xBF)]
  else if byte = 0xF0 then some [(0x90, 0xBF), (0x80, 0xBF), (0x80, 0xBF)]
  else if byte = 0xF4 then some [(0x80, 0x8F), (0x80, 0xBF), (0x80, 0xBF)]
  else if 0xF1 ≤ byte && byte ≤ 0xF3 then
    some [(0x80, 0xBF), (0x80, 0xBF), (0x80, 0xBF)]
  else none

def utf8From : (pending : List (UInt8 × UInt8)) → Bytes → Bool
  | [], [] => true
  | _ :: _, [] => false
  | [], byte :: bytes =>
    match continuation byte with
    | none => false
    | some pending => utf8From pending bytes
  | (low, high) :: pending, byte :: bytes => low ≤ byte && byte ≤ high && utf8From pending bytes

def utf8 (bytes : Bytes) : Bool := utf8From [] bytes

theorem utf8_of_ascii (bytes : Bytes) (hbytes : ∀ byte ∈ bytes, byte < 0x80) :
    utf8 bytes = true := by
  induction bytes with
  | nil => rfl
  | cons byte bytes ih =>
    have hbyte : continuation byte = some [] := if_pos (hbytes byte List.mem_cons_self)
    have hrest := ih fun b hb => hbytes b (List.mem_cons_of_mem _ hb)
    simpa [utf8, utf8From, hbyte] using hrest

end Foundation.Wire
