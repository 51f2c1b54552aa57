import NebulaIM.Protocol.WebSocket
import Mathlib.Data.Nat.Digits.Defs

/-!
# The spelling of a WebSocket frame

What `decode` accepts is spelled out byte by byte and compared with what `encode`
writes for the frame that was found.  The two can differ only in the form of the
payload length.
-/

namespace NebulaIM.Protocol

open Foundation.Framing
open Foundation.Wire (Bytes)

variable {data input rest : Bytes} {b1 : UInt8} {opcode : WebSocketOpCode}
variable {frame : WebSocketFrame}

/-! ## Big-endian numbers -/

theorem readBigEndian_eq_ofDigits (data : Bytes) :
    readBigEndian data = Nat.ofDigits 256 (data.reverse.map UInt8.toNat) := by
  unfold readBigEndian
  induction data using List.reverseRecOn with
  | nil => rfl
  | append_singleton data byte ih =>
    rw [List.foldl_append, ih, List.reverse_append, List.reverse_singleton,
      List.singleton_append, List.map_cons, Nat.ofDigits_cons, List.foldl_cons,
      List.foldl_nil]
    omega

theorem digit_lt (data : Bytes) : ∀ digit ∈ data.reverse.map UInt8.toNat, digit < 256 := by
  intro digit hdigit
  obtain ⟨byte, _, rfl⟩ := List.mem_map.mp hdigit
  exact byte.toNat_lt

theorem readBigEndian_lt (data : Bytes) : readBigEndian data < 2 ^ (8 * data.length) := by
  have hlt := Nat.ofDigits_lt_base_pow_length (by decide) (digit_lt data)
  rw [← readBigEndian_eq_ofDigits, List.length_map, List.length_reverse] at hlt
  rwa [Nat.pow_mul]

theorem readBigEndian_injective {other : Bytes} (hlength : data.length = other.length)
    (h : readBigEndian data = readBigEndian other) : data = other := by
  rw [readBigEndian_eq_ofDigits, readBigEndian_eq_ofDigits] at h
  have hdigits := Nat.ofDigits_inj_of_len_eq (by decide) (by simp [hlength])
    (digit_lt data) (digit_lt other) h
  have hreverse := List.map_injective_iff.mpr (fun _ _ => UInt8.toNat_inj.mp) hdigits
  exact List.reverse_injective hreverse

theorem appendBigEndian_readBigEndian (data : Bytes) :
    appendBigEndian (readBigEndian data) data.length = data :=
  readBigEndian_injective (by simp)
    (readBigEndian_appendBigEndian (readBigEndian_lt data))

/-! ## The bytes of an accepted frame -/

/-- The number of bytes that extend the length in the second byte. -/
def extendedLength (b1 : UInt8) : Nat :=
  if (b1 &&& 0x7F).toNat = 126 then 2
  else if (b1 &&& 0x7F).toNat = 127 then 8
  else 0

/-- The payload length, as it is spelled. -/
def spelledLength (b1 : UInt8) (extended : Bytes) : Nat :=
  if (b1 &&& 0x7F).toNat = 126 ∨ (b1 &&& 0x7F).toNat = 127 then readBigEndian extended
  else (b1 &&& 0x7F).toNat

/-- The key that stands after the payload length of a masked frame. -/
def spelledKey : Bytes → Option MaskKey
  | _ :: b1 :: data =>
    if b1 &&& 0x80 != 0 then
      match data.drop (extendedLength b1) with
      | k0 :: k1 :: k2 :: k3 :: _ => some (MaskKey.of k0 k1 k2 k3)
      | _ => none
    else none
  | _ => none

/-- No shorter form of the payload length would do. -/
def ShortestLength : Bytes → Prop
  | _ :: b1 :: data =>
    ((b1 &&& 0x7F).toNat = 126 → 125 < readBigEndian (data.take 2)) ∧
      ((b1 &&& 0x7F).toNat = 127 → 0xFFFF < readBigEndian (data.take 8))
  | _ => True

/-- How a frame is spelled at the front of `data`. -/
structure Spelling (b1 : UInt8) (extended : Bytes) (key : Option MaskKey)
    (data : Bytes) (frame : WebSocketFrame) (rest : Bytes) : Prop where
  split : data = (0x80 ||| frame.opcode.toUint8) :: b1 :: (extended ++
    ((key.elim frame.payload fun key => key.toList ++ applyMask key frame.payload) ++ rest))
  extended_length : extended.length = extendedLength b1
  length : spelledLength b1 extended = frame.payload.length
  masked : (b1 &&& 0x80 != 0) = key.isSome
  frame_masked : frame.masked = key.isSome

theorem run_decodePayloadLength_eq_frame {length : Nat}
    (h : (decodePayloadLength (b1 &&& 0x7F)).run input = .frame length rest) :
    ∃ extended, input = extended ++ rest ∧ extended.length = extendedLength b1 ∧
      spelledLength b1 extended = length := by
  unfold decodePayloadLength at h
  unfold extendedLength spelledLength
  by_cases h126 : (b1 &&& 0x7F).toNat = 126
  · rw [if_pos h126] at h
    obtain ⟨extended, middle, htake, hret⟩ := Parser.run_bind_eq_frame h
    obtain ⟨rfl, hlength⟩ := Parser.run_take_eq_frame htake
    cases hret
    exact ⟨extended, rfl, by rw [if_pos h126, hlength], if_pos (.inl h126)⟩
  · rw [if_neg h126] at h ⊢
    by_cases h127 : (b1 &&& 0x7F).toNat = 127
    · rw [if_pos h127] at h ⊢
      obtain ⟨extended, middle, htake, hret⟩ := Parser.run_bind_eq_frame h
      obtain ⟨rfl, hlength⟩ := Parser.run_take_eq_frame htake
      split at hret
      · cases hret
      · cases hret
        exact ⟨extended, rfl, hlength, if_pos (.inr h127)⟩
    · rw [if_neg h127] at h ⊢
      cases h
      exact ⟨[], rfl, rfl, if_neg (not_or.mpr ⟨h126, h127⟩)⟩

theorem run_decodeMaskKey_eq_frame {key : MaskKey}
    (h : (decodeMaskKey true).run input = .frame key rest) :
    input = key.toList ++ rest := by
  unfold decodeMaskKey at h
  rw [if_pos rfl] at h
  obtain ⟨k0, r0, h0, h⟩ := Parser.run_bind_eq_frame h
  obtain ⟨k1, r1, h1, h⟩ := Parser.run_bind_eq_frame h
  obtain ⟨k2, r2, h2, h⟩ := Parser.run_bind_eq_frame h
  obtain ⟨k3, r3, h3, h⟩ := Parser.run_bind_eq_frame h
  cases h
  rw [Parser.run_next_eq_frame h0, Parser.run_next_eq_frame h1,
    Parser.run_next_eq_frame h2, Parser.run_next_eq_frame h3]
  rfl

theorem byte_bits : ∀ value : Fin 256,
    ((UInt8.ofNat value &&& 0x80 != 0) = true → (UInt8.ofNat value &&& 0x70 != 0) = false →
        UInt8.ofNat value = 0x80 ||| (UInt8.ofNat value &&& 0x0F)) ∧
      UInt8.ofNat value = (if UInt8.ofNat value &&& 0x80 != 0 then 0x80 else 0x00) |||
          UInt8.ofNat (UInt8.ofNat value &&& 0x7F).toNat := by
  decide +kernel

theorem toUint8_of_ofUint8 {raw : UInt8} (h : WebSocketOpCode.ofUint8 raw = some opcode) :
    opcode.toUint8 = raw := by
  have hfound := List.find?_some h
  exact eq_of_beq hfound

theorem first_byte_eq {b0 : UInt8} (hopcode : WebSocketOpCode.ofUint8 (b0 &&& 0x0F) = some opcode)
    (hrsv : (b0 &&& 0x70 != 0) = false) (hfin : (b0 &&& 0x80 != 0) = true) :
    b0 = 0x80 ||| opcode.toUint8 := by
  have hbits := (byte_bits ⟨b0.toNat, b0.toNat_lt⟩).1
  simp only [UInt8.ofNat_toNat] at hbits
  rw [toUint8_of_ofUint8 hopcode]
  exact hbits hfin hrsv

theorem second_byte_eq (b1 : UInt8) : b1 = (if b1 &&& 0x80 != 0 then 0x80 else 0x00) |||
      UInt8.ofNat (b1 &&& 0x7F).toNat := by
  have hbits := (byte_bits ⟨b1.toNat, b1.toNat_lt⟩).2
  simp only [UInt8.ofNat_toNat] at hbits
  simpa only [UInt8.ofNat_toNat] using hbits

theorem run_decodeFrameBody_eq_frame {masked : Bool}
    (h : (decodeFrameBody opcode masked (b1 &&& 0x7F)).run input = .frame frame rest) :
    frame.opcode = opcode ∧ ∃ extended key, input = extended ++
        ((Option.elim key frame.payload fun key =>
          key.toList ++ applyMask key frame.payload) ++ rest) ∧
      extended.length = extendedLength b1 ∧
      spelledLength b1 extended = frame.payload.length ∧
      key.isSome = masked ∧ frame.masked = masked := by
  obtain ⟨length, middle, hlength, hrest⟩ := Parser.run_bind_eq_frame h
  obtain ⟨extended, rfl, hextended, hspelled⟩ := run_decodePayloadLength_eq_frame hlength
  split at hrest
  · cases hrest
  · obtain ⟨key, afterKey, hkey, hpayload⟩ := Parser.run_bind_eq_frame hrest
    obtain ⟨bytes, afterBytes, htake, hret⟩ := Parser.run_bind_eq_frame hpayload
    obtain ⟨rfl, hbytes⟩ := Parser.run_take_eq_frame htake
    cases hret
    cases masked with
    | false =>
      cases hkey
      exact ⟨rfl, extended, none, rfl, hextended, hspelled.trans hbytes.symm, rfl, rfl⟩
    | true =>
      rw [run_decodeMaskKey_eq_frame hkey]
      refine ⟨rfl, extended, some key, ?_, hextended, ?_, rfl, rfl⟩
      · simp
      · simp [hspelled, hbytes]

theorem Spelling.of_front {requireMask : Bool}
    (h : (codecFrames requireMask).front data = .frame frame rest) :
    ∃ b1 extended key, Spelling b1 extended key data frame rest := by
  cases data with
  | nil => cases h
  | cons b0 data =>
    rw [codecFrames, Parser.toDecoder_front_cons] at h
    obtain ⟨b1, middle, hnext, hchecked⟩ := Parser.run_bind_eq_frame h
    obtain rfl := Parser.run_next_eq_frame hnext
    split at hchecked
    · cases hchecked
    · next opcode hopcode =>
      dsimp only at hchecked
      split_ifs at hchecked with hrsv hfin hmask
      · cases hchecked
      · cases hchecked
      · cases hchecked
      obtain ⟨hframe, extended, key, hinput, hextended, hlength, hkey, hmasked⟩ :=
        run_decodeFrameBody_eq_frame hchecked
      have hfirst : b0 = 0x80 ||| opcode.toUint8 := by
        refine first_byte_eq hopcode (by simpa using hrsv) ?_
        simp only [Bool.or_eq_true, not_or] at hfin
        simpa using hfin.1
      refine ⟨b1, extended, key, ?_, hextended, hlength, hkey.symm, hmasked.trans hkey.symm⟩
      rw [hframe, ← hfirst, hinput]

/-! ## Canonical frames -/

theorem shortestLength_iff {extended : Bytes}
    (hextended : extended.length = extendedLength b1) (b0 : UInt8) (tail : Bytes) :
    ShortestLength (b0 :: b1 :: (extended ++ tail)) ↔
      b1 :: extended = appendPayloadLength (if b1 &&& 0x80 != 0 then 0x80 else 0x00)
        (spelledLength b1 extended) := by
  have hbyte := second_byte_eq b1
  have hread := appendBigEndian_readBigEndian extended
  have hbound := readBigEndian_lt extended
  rw [ShortestLength, spelledLength, appendPayloadLength]
  unfold extendedLength at hextended
  by_cases h126 : (b1 &&& 0x7F).toNat = 126
  · rw [if_pos h126] at hextended
    rw [h126] at hbyte
    rw [hextended] at hread hbound
    rw [List.take_append_of_le_length hextended.ge, List.take_of_length_le hextended.le]
    simp only [h126, true_or, if_true, forall_const, Nat.reduceEqDiff, false_imp_iff, and_true]
    by_cases hshort : readBigEndian extended ≤ 125
    · rw [if_pos hshort]
      refine iff_of_false (by omega) fun heq => ?_
      have hlengths := congrArg List.length heq
      simp [hextended] at hlengths
    · rw [if_neg hshort, if_pos (by omega), hread]
      exact iff_of_true (by omega) (congrArg (· :: extended) hbyte)
  · rw [if_neg h126] at hextended
    by_cases h127 : (b1 &&& 0x7F).toNat = 127
    · rw [if_pos h127] at hextended
      rw [h127] at hbyte
      rw [hextended] at hread
      rw [List.take_append_of_le_length hextended.ge, List.take_of_length_le hextended.le]
      simp only [h127, or_true, if_true, forall_const, Nat.reduceEqDiff, false_imp_iff, true_and]
      by_cases hshort : readBigEndian extended ≤ 0xFFFF
      · refine iff_of_false (by omega) fun heq => ?_
        have hlengths := congrArg List.length heq
        split_ifs at hlengths <;> simp [hextended] at hlengths
      · rw [if_neg (by omega), if_neg hshort, hread]
        exact iff_of_true (by omega) (congrArg (· :: extended) hbyte)
    · rw [if_neg h127] at hextended
      obtain rfl := List.length_eq_zero_iff.mp hextended
      have hsmall : (b1 &&& 0x7F).toNat ≤ 125 := by
        have hlt : (b1 &&& 0x7F).toNat < 2 ^ 7 := by
          rw [UInt8.toNat_and]
          exact Nat.and_lt_two_pow _ (by decide : (127 : Nat) < 2 ^ 7)
        omega
      simp only [h126, h127, or_false, if_false, hsmall, if_true, false_imp_iff, and_true, true_iff]
      exact congrArg (fun byte => [byte]) hbyte

theorem Spelling.spelledKey_eq {extended : Bytes} {key : Option MaskKey}
    (s : Spelling b1 extended key data frame rest) : spelledKey data = key := by
  rw [s.split, spelledKey, s.masked]
  cases key with
  | none => rfl
  | some key =>
    rw [← s.extended_length, List.drop_left]
    obtain ⟨⟨bytes⟩, hsize⟩ := key
    match bytes, hsize with
    | [k0, k1, k2, k3], _ => rfl

/--
The bytes of an accepted frame are those that `encode` writes for it, under the same
mask key, exactly when its payload length is spelled in the shortest form.
-/
theorem decoded_canonical_iff {requireMask : Bool} {data : Bytes}
    {frame : WebSocketFrame} {consumed : Nat}
    (h : WebSocketFrameCodec.decode requireMask data = (.ok, some frame, consumed)) :
    (spelledKey data).isSome = frame.masked ∧
      (data.take consumed = encodeFrame frame.opcode frame.payload (spelledKey data) ↔
        ShortestLength data) := by
  unfold WebSocketFrameCodec.decode at h
  split at h
  · cases h
  · cases h
  · next found rest hfront =>
    obtain ⟨b1, extended, key, s⟩ := Spelling.of_front hfront
    cases h
    rw [s.spelledKey_eq]
    refine ⟨s.frame_masked.symm, ?_⟩
    rw [encodeFrame_eq, ← s.masked, ← s.length]
    have hsplit := s.split
    rw [← List.append_assoc, ← List.cons_append, ← List.cons_append] at hsplit
    rw [hsplit, List.length_append, Nat.add_sub_cancel, List.take_left]
    have hshortest := shortestLength_iff s.extended_length (0x80 ||| frame.opcode.toUint8)
      ((key.elim frame.payload fun key => key.toList ++ applyMask key frame.payload) ++ rest)
    simp only [List.cons_append, List.append_assoc, hshortest, List.cons.injEq, true_and]
    rw [← List.cons_append, List.append_left_inj]

/-! The byte 7 in a frame of a client, with its length in one byte and in three. -/

def oneByteFrame : Bytes := [0x82, 0x81, 1, 2, 3, 4, 6]

def longOneByteFrame : Bytes := [0x82, 0xFE, 0, 1, 1, 2, 3, 4, 6]

theorem oneByteFrame_canonical : WebSocketFrameCodec.decode true oneByteFrame =
        (.ok, some ⟨true, .binary, true, [7]⟩, 7) ∧
      oneByteFrame.take 7 = encodeFrame .binary [7] (some (MaskKey.of 1 2 3 4)) :=
  ⟨by decide +kernel,
    (@decoded_canonical_iff true oneByteFrame ⟨true, .binary, true, [7]⟩ 7
      (by decide +kernel)).2.mpr ⟨by decide, by decide⟩⟩

/-- Two different texts decode to one frame under one key. -/
theorem longOneByteFrame_decoded : WebSocketFrameCodec.decode true longOneByteFrame =
        (.ok, some ⟨true, .binary, true, [7]⟩, 9) ∧
      spelledKey longOneByteFrame = spelledKey oneByteFrame ∧
      longOneByteFrame.take 9 ≠ encodeFrame .binary [7] (spelledKey longOneByteFrame) ∧
      WebSocketFrameCodec.decode true oneByteFrame = (.ok, some ⟨true, .binary, true, [7]⟩, 7) := by
  decide +kernel

end NebulaIM.Protocol
