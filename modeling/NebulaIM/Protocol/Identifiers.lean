import NebulaIM.Protocol.Messages

/-!
# Identifiers shared by the services

Trace ids, conversation ids and the texts built from numbers.
-/

namespace NebulaIM.Protocol

open Foundation.Wire

/-- `std::to_string` of an unsigned integer. -/
def decimal (n : Nat) : Bytes := lit (toString n)

theorem lit_injective : Function.Injective lit := by
  intro first second h
  exact String.toByteArray_inj.mp (ByteArray.ext (Array.ext' h))

theorem decimal_injective : Function.Injective decimal := by
  intro first second h
  have hrepr : first.repr = second.repr := lit_injective h
  have hdigits : Nat.toDigits 10 first = Nat.toDigits 10 second := by
    rw [← Nat.toList_repr, ← Nat.toList_repr, hrepr]
  have hvalue := congrArg (fun digits => Nat.ofDigitChars 10 digits 0) hdigits
  simpa only [Nat.ofDigitChars_ten_toDigits] using hvalue

theorem decimal_eq_digits (n : Nat) :
    decimal n = (Nat.toDigits 10 n).flatMap String.utf8EncodeChar := by
  have hbytes : (toString n).toByteArray = (toString n).toList.utf8Encode :=
    String.utf8Encode_toList.symm
  rw [decimal, lit, String.toUTF8, hbytes, List.utf8Encode]
  simp

theorem digit_of_mem_decimal {n : Nat} {byte : UInt8} (h : byte ∈ decimal n) :
    48 ≤ byte ∧ byte ≤ 57 := by
  rw [decimal_eq_digits, List.mem_flatMap] at h
  obtain ⟨digit, hdigit, hbyte⟩ := h
  have hrange := Nat.isDigit_of_mem_toDigits (by decide) (by decide) hdigit
  simp only [Char.isDigit, Bool.and_eq_true, decide_eq_true_eq] at hrange
  have hlower : 48 ≤ digit.val.toNat := hrange.1
  have hupper : digit.val.toNat ≤ 57 := hrange.2
  -- a digit is encoded as itself
  have hencoded : String.utf8EncodeChar digit = [UInt8.ofNat digit.val.toNat] :=
    if_pos (hupper.trans (by decide))
  rw [hencoded, List.mem_singleton] at hbyte
  have hvalue : byte.toNat = digit.val.toNat := by
    rw [hbyte, UInt8.toNat_ofNat']
    omega
  exact ⟨UInt8.le_iff_toNat_le.mpr (hvalue ▸ hlower), UInt8.le_iff_toNat_le.mpr (hvalue ▸ hupper)⟩

def isSpace (byte : UInt8) : Bool := byte == 32 || (9 ≤ byte && byte ≤ 13)

private def isDigit (byte : UInt8) : Bool := 48 ≤ byte && byte ≤ 57

/-- `std::stoull`, with `none` where it throws. -/
def stoull (text : Bytes) : Option UInt64 :=
  let text := text.dropWhile isSpace
  let (negative, rest) :=
    match text with
    | 45 :: rest => (true, rest)
    | 43 :: rest => (false, rest)
    | _ => (false, text)
  let digits := rest.takeWhile isDigit
  let value := digits.foldl (fun n digit => 10 * n + (digit.toNat - 48)) 0
  if digits.isEmpty || 2 ^ 64 ≤ value then none
  else some (if negative then 0 - UInt64.ofNat value else UInt64.ofNat value)

/-! ## Trace ids -/

def isTraceByte (byte : UInt8) : Bool :=
  (48 ≤ byte && byte ≤ 57) || (97 ≤ byte && byte ≤ 102) ||
    (65 ≤ byte && byte ≤ 70) || byte == 45

/-- `TraceId::isValid` -/
def isValidTraceId (bytes : Bytes) : Bool :=
  16 ≤ bytes.length && bytes.length ≤ 64 && bytes.all isTraceByte

@[ext] structure TraceId where
  bytes : Bytes
  valid : isValidTraceId bytes = true
  deriving DecidableEq, Repr

instance : Inhabited TraceId := ⟨⟨List.replicate 32 48, by decide⟩⟩

theorem TraceId.length_le (id : TraceId) : id.bytes.length ≤ 64 := by
  have hvalid := id.valid
  simp only [isValidTraceId, Bool.and_eq_true, decide_eq_true_eq] at hvalid
  exact hvalid.1.2

theorem TraceId.utf8 (id : TraceId) : utf8 id.bytes = true := by
  apply utf8_of_ascii
  intro byte hbyte
  have hvalid := id.valid
  simp only [isValidTraceId, Bool.and_eq_true, List.all_eq_true] at hvalid
  have htrace := hvalid.2 byte hbyte
  simp only [isTraceByte, Bool.or_eq_true, Bool.and_eq_true, decide_eq_true_eq,
    beq_iff_eq] at htrace
  rcases htrace with ((⟨_, h⟩ | ⟨_, h⟩) | ⟨_, h⟩) | h
  · exact UInt8.lt_of_le_of_lt h (by decide)
  · exact UInt8.lt_of_le_of_lt h (by decide)
  · exact UInt8.lt_of_le_of_lt h (by decide)
  · subst h
    decide

/-! ## Conversation ids -/

def fnv1a64 (input : Bytes) : UInt64 :=
  input.foldl (fun hash byte => (hash ^^^ byte.toUInt64) * 1099511628211) 1469598103934665603

namespace ConversationId

def single (userA userB : UInt64) : UInt64 :=
  let a := min userA userB
  let b := max userA userB
  fnv1a64 (lit "single:" ++ decimal a.toNat ++ lit ":" ++ decimal b.toNat)

def group (groupId : UInt64) : UInt64 := fnv1a64 (lit "group:" ++ decimal groupId.toNat)

end ConversationId

/-! ## Previews -/

/-- The length of the lead byte's sequence; `none` for a byte that leads
nothing longer than itself. -/
def leadLength (lead : UInt8) : Option Nat :=
  if lead &&& 0xE0 == 0xC0 then some 2
  else if lead &&& 0xF0 == 0xE0 then some 3
  else if lead &&& 0xF8 == 0xF0 then some 4
  else none

/-- The last position, from the given one down, without a continuation byte. -/
def backUp (value : Bytes) : Nat → Nat
  | 0 => 0
  | end_ + 1 =>
    if (value[end_ + 1]?.getD 0) &&& 0xC0 == 0x80 then backUp value end_
    else end_ + 1

def utf8SafePrefixLength (value : Bytes) (maxLen : Nat) : Nat :=
  if value.length ≤ maxLen then value.length
  else
    let end_ := backUp value maxLen
    if end_ = maxLen then end_
    else
      match leadLength (value[end_]?.getD 0) with
      | none => end_
      | some expected =>
        if end_ + expected ≤ maxLen then end_ + expected else end_

/-- `ConversationServiceHelper::buildPreview` with its default of 120 bytes. -/
def buildPreview (content : Bytes) : Bytes :=
  if content.length ≤ 120 then content
  else content.take (utf8SafePrefixLength content 120)

end NebulaIM.Protocol
