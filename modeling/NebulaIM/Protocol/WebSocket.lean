import NebulaIM.Foundation.Framing
import NebulaIM.Foundation.Wire

/-!
# WebSocket frames

`WebSocketFrameCodec` reads and writes single frames: no extensions, no
fragmentation, three encodings of the payload length, and a mask on what a
client sends.
-/

namespace NebulaIM.Protocol

open Foundation.Framing
open Foundation.Wire (Bytes)

inductive WebSocketOpCode where
  | continuation
  | text
  | binary
  | close
  | ping
  | pong
  deriving DecidableEq, Repr

namespace WebSocketOpCode

def toUint8 : WebSocketOpCode → UInt8
  | .continuation => 0x0
  | .text => 0x1
  | .binary => 0x2
  | .close => 0x8
  | .ping => 0x9
  | .pong => 0xA

/-- `isKnownOpCode` and the cast that follows it. -/
def ofUint8 (raw : UInt8) : Option WebSocketOpCode :=
  [continuation, text, binary, close, ping, pong].find? fun opcode => opcode.toUint8 == raw

def isControlOpCode : WebSocketOpCode → Bool
  | .close | .ping | .pong => true
  | _ => false

end WebSocketOpCode

structure WebSocketFrame where
  fin : Bool := true
  opcode : WebSocketOpCode := .binary
  masked : Bool := false
  payload : Bytes := []
  deriving DecidableEq, Repr

/-- `std::array<unsigned char, 4>` -/
abbrev MaskKey := Vector UInt8 4

def MaskKey.of (k0 k1 k2 k3 : UInt8) : MaskKey := ⟨#[k0, k1, k2, k3], rfl⟩

def applyMask (maskKey : MaskKey) (payload : Bytes) : Bytes :=
  payload.mapIdx fun i byte => byte ^^^ maskKey[i % 4]

/-- At most eight bytes are read, so that the value fits in `uint64_t`. -/
def readBigEndian (data : Bytes) : Nat :=
  data.foldl (fun value byte => value * 2 ^ 8 + byte.toNat) 0

def appendBigEndian (value : Nat) : (len : Nat) → Bytes
  | 0 => []
  | len + 1 => UInt8.ofNat (value / 2 ^ (8 * len)) :: appendBigEndian value len

/-! ## Decoding -/

/-- `WebSocketFrameStatus::PROTOCOL_ERROR` -/
inductive WebSocketFrameError where
  | protocolError
  deriving DecidableEq, Repr

/-- A step of the frame decoder: it runs out of data with `INCOMPLETE`. -/
abbrev FrameParser := Parser UInt8 WebSocketFrameError

/-- The payload length and its extension by two or eight bytes. -/
def decodePayloadLength (short : UInt8) : FrameParser Nat :=
  if short.toNat = 126 then do
    let extended ← Parser.take 2
    return readBigEndian extended
  else if short.toNat = 127 then do
    let extended ← Parser.take 8
    if 2 ^ 63 ≤ readBigEndian extended then
      Parser.fail .protocolError
    else
      return readBigEndian extended
  else
    return short.toNat

def decodeMaskKey (masked : Bool) : FrameParser MaskKey :=
  if masked then do
    let k0 ← Parser.next
    let k1 ← Parser.next
    let k2 ← Parser.next
    let k3 ← Parser.next
    return MaskKey.of k0 k1 k2 k3
  else
    return MaskKey.of 0 0 0 0

/-- The frame after its first two bytes have passed their checks. -/
def decodeFrameBody (opcode : WebSocketOpCode) (masked : Bool) (short : UInt8) :
    FrameParser WebSocketFrame := do
  let payloadLen ← decodePayloadLength short
  if opcode.isControlOpCode ∧ 125 < payloadLen then
    Parser.fail .protocolError
  else
    let maskKey ← decodeMaskKey masked
    let payload ← Parser.take payloadLen
    return {
      fin := true
      opcode
      masked
      payload := if masked then applyMask maskKey payload else payload }

/-- `WebSocketFrameCodec::decode`, from the first byte on. -/
def decodeFrame (requireMask : Bool) (b0 : UInt8) :
    FrameParser WebSocketFrame := do
  let b1 ← Parser.next
  let fin := b0 &&& 0x80 != 0
  let rsv := b0 &&& 0x70 != 0
  let masked := b1 &&& 0x80 != 0
  match WebSocketOpCode.ofUint8 (b0 &&& 0x0F) with
  | none => Parser.fail .protocolError
  | some opcode =>
    if rsv then Parser.fail .protocolError
    else if !fin || opcode == .continuation then Parser.fail .protocolError
    else if requireMask && !masked then Parser.fail .protocolError
    else decodeFrameBody opcode masked (b1 &&& 0x7F)

theorem decodePayloadLength_stable (short : UInt8) : (decodePayloadLength short).Stable := by
  apply Parser.Stable.ite
  · exact (Parser.Stable.take 2).bind fun _ => .pure _
  · apply Parser.Stable.ite
    · apply (Parser.Stable.take 8).bind
      intro extended
      exact .ite (.fail _) (.pure _)
    · exact .pure _

theorem decodeMaskKey_stable (masked : Bool) : (decodeMaskKey masked).Stable := by
  apply Parser.Stable.ite
  · exact Parser.Stable.next.bind fun _ => Parser.Stable.next.bind fun _ =>
      Parser.Stable.next.bind fun _ => Parser.Stable.next.bind fun _ => .pure _
  · exact .pure _

theorem decodeFrame_stable (requireMask : Bool) (b0 : UInt8) :
    (decodeFrame requireMask b0).Stable := by
  apply Parser.Stable.next.bind
  intro b1
  dsimp only
  split
  · exact .fail _
  · next opcode _ =>
    apply Parser.Stable.ite (.fail _)
    apply Parser.Stable.ite (.fail _)
    apply Parser.Stable.ite (.fail _)
    apply (decodePayloadLength_stable _).bind
    intro payloadLen
    apply Parser.Stable.ite (.fail _)
    apply (decodeMaskKey_stable _).bind
    intro maskKey
    exact (Parser.Stable.take payloadLen).bind fun _ => .pure _

/-- The frames that `decode` finds. -/
def codecFrames (requireMask : Bool) :
    Decoder UInt8 WebSocketFrame WebSocketFrameError :=
  Parser.toDecoder (decodeFrame requireMask) (decodeFrame_stable requireMask)

/-- `WebSocketCodec::decodeFrame` on the frames of a client. -/
def frameDecoder : Decoder UInt8 WebSocketFrame WebSocketFrameError := codecFrames true

inductive WebSocketFrameStatus where
  | ok
  | incomplete
  | protocolError
  deriving DecidableEq, Repr

/-- `WebSocketFrameCodec::decode`: the status, the frame and the number of bytes
that were consumed. -/
def WebSocketFrameCodec.decode (requireMask : Bool) (data : Bytes) :
    WebSocketFrameStatus × Option WebSocketFrame × Nat :=
  match (codecFrames requireMask).front data with
  | .incomplete => (.incomplete, none, 0)
  | .bad .protocolError => (.protocolError, none, 0)
  | .frame frame rest => (.ok, some frame, data.length - rest.length)

/-! ## Encoding -/

def appendPayloadLength (maskBit : UInt8) (length : Nat) : Bytes :=
  if length ≤ 125 then [maskBit ||| UInt8.ofNat length]
  else if length ≤ 0xFFFF then (maskBit ||| 126) :: appendBigEndian length 2
  else (maskBit ||| 127) :: appendBigEndian length 8

/-- `WebSocketFrameCodec::encode`; a masked payload comes with the key that
`randomMask` has drawn. -/
def encodeFrame (opcode : WebSocketOpCode) (payload : Bytes) (maskKey : Option MaskKey) : Bytes :=
  (0x80 ||| opcode.toUint8) ::
    match maskKey with
    | none => appendPayloadLength 0x00 payload.length ++ payload
    | some key =>
      appendPayloadLength 0x80 payload.length ++ key.toList ++
        applyMask key payload

/-! ## Round trip -/

@[simp] theorem length_applyMask (key : MaskKey) (payload : Bytes) :
    (applyMask key payload).length = payload.length := by
  simp [applyMask]

@[simp] theorem applyMask_applyMask (key : MaskKey) (payload : Bytes) :
    applyMask key (applyMask key payload) = payload := by
  apply List.ext_getElem
  · simp
  · intro i _ _
    simp only [applyMask, List.getElem_mapIdx]
    rw [UInt8.xor_assoc, UInt8.xor_self, UInt8.xor_zero]

@[simp] theorem length_appendBigEndian (value len : Nat) :
    (appendBigEndian value len).length = len := by
  induction len with
  | zero => rfl
  | succ len ih => simp [appendBigEndian, ih]

theorem foldl_appendBigEndian (value len high : Nat) : (appendBigEndian value len).foldl
        (fun value byte => value * 2 ^ 8 + byte.toNat) high =
      high * 2 ^ (8 * len) + value % 2 ^ (8 * len) := by
  induction len generalizing high with
  | zero => simp [appendBigEndian, Nat.mod_one]
  | succ len ih =>
    have hsplit : value % 2 ^ (8 * (len + 1)) =
        value % 2 ^ (8 * len) + 2 ^ (8 * len) * (value / 2 ^ (8 * len) % 2 ^ 8) := by
      rw [Nat.mul_succ, Nat.pow_add, Nat.mod_mul]
    rw [appendBigEndian, List.foldl_cons, ih, hsplit, UInt8.toNat_ofNat', Nat.mul_succ, Nat.pow_add]
    ring

theorem readBigEndian_appendBigEndian {value len : Nat} (h : value < 2 ^ (8 * len)) :
    readBigEndian (appendBigEndian value len) = value := by
  rw [readBigEndian, foldl_appendBigEndian, Nat.zero_mul, Nat.zero_add, Nat.mod_eq_of_lt h]

theorem second_byte : ∀ (masked : Bool) (length : Fin 128),
    (((if masked then 0x80 else 0x00) ||| UInt8.ofNat length) &&& 0x80 != 0) = masked ∧
      (((if masked then 0x80 else 0x00) ||| UInt8.ofNat length) &&& 0x7F).toNat =
        length := by
  decide

theorem run_decodePayloadLength (masked : Bool) {length : Nat} (hfits : length < 2 ^ 63) :
    ∃ b1 extended, appendPayloadLength (if masked then 0x80 else 0x00) length = b1 :: extended ∧
      (b1 &&& 0x80 != 0) = masked ∧
      ∀ rest, (decodePayloadLength (b1 &&& 0x7F)).run (extended ++ rest) =
        .frame length rest := by
  by_cases hshort : length ≤ 125
  · obtain ⟨hmask, hvalue⟩ := second_byte masked ⟨length, by omega⟩
    refine ⟨_, [], if_pos hshort, hmask, fun rest => ?_⟩
    simp only at hvalue
    rw [decodePayloadLength, hvalue, if_neg (by omega), if_neg (by omega)]
    rfl
  by_cases hmedium : length ≤ 0xFFFF
  · obtain ⟨hmask, hlow⟩ := second_byte masked 126
    have hvalue : (((if masked then 0x80 else 0x00) ||| 126) &&& 0x7F : UInt8).toNat =
        126 := hlow
    refine ⟨_, _, (if_neg hshort).trans (if_pos hmedium), hmask, fun rest => ?_⟩
    rw [decodePayloadLength, if_pos hvalue, Parser.run_bind (Parser.run_take rest (by simp)),
      readBigEndian_appendBigEndian (by omega)]
    rfl
  · obtain ⟨hmask, hlow⟩ := second_byte masked 127
    have hvalue : (((if masked then 0x80 else 0x00) ||| 127) &&& 0x7F : UInt8).toNat =
        127 := hlow
    refine ⟨_, _, (if_neg hshort).trans (if_neg hmedium), hmask, fun rest => ?_⟩
    rw [decodePayloadLength, if_neg (by omega), if_pos hvalue,
      Parser.run_bind (Parser.run_take rest (by simp)),
      readBigEndian_appendBigEndian (by omega), if_neg (by omega)]
    rfl

theorem run_decodeMaskKey (key : MaskKey) (rest : Bytes) :
    (decodeMaskKey true).run (key.toList ++ rest) = .frame key rest := by
  obtain ⟨⟨bytes⟩, hsize⟩ := key
  match bytes, hsize with
  | [k0, k1, k2, k3], _ => rfl

/-- The payload length that `decode` accepts for an opcode. -/
def PayloadFits (opcode : WebSocketOpCode) (payload : Bytes) : Prop :=
  opcode ≠ .continuation ∧ payload.length < 2 ^ 63 ∧
    (opcode.isControlOpCode = true → payload.length ≤ 125)

instance (opcode : WebSocketOpCode) (payload : Bytes) : Decidable (PayloadFits opcode payload) :=
  inferInstanceAs (Decidable (_ ∧ _))

theorem first_byte (opcode : WebSocketOpCode) : (0x80 ||| opcode.toUint8) &&& 0x80 ≠ 0 ∧
      (0x80 ||| opcode.toUint8) &&& 0x70 = 0 ∧
      WebSocketOpCode.ofUint8 ((0x80 ||| opcode.toUint8) &&& 0x0F) = some opcode := by
  cases opcode <;> decide

theorem encodeFrame_eq (opcode : WebSocketOpCode) (payload : Bytes) (maskKey : Option MaskKey) :
    encodeFrame opcode payload maskKey = (0x80 ||| opcode.toUint8) ::
      (appendPayloadLength (if maskKey.isSome then 0x80 else 0x00) payload.length ++
        (maskKey.elim payload fun key => key.toList ++ applyMask key payload)) := by
  cases maskKey <;> simp [encodeFrame]

theorem run_masked (opcode : WebSocketOpCode) (payload : Bytes)
    (maskKey : Option MaskKey) (rest : Bytes) :
    (do
      let maskKey' ← decodeMaskKey maskKey.isSome
      let bytes ← Parser.take payload.length
      return (⟨true, opcode, maskKey.isSome, if maskKey.isSome then
        applyMask maskKey' bytes else bytes⟩ : WebSocketFrame) :
        FrameParser WebSocketFrame).run
      ((maskKey.elim payload fun key => key.toList ++ applyMask key payload) ++ rest) =
        .frame ⟨true, opcode, maskKey.isSome, payload⟩ rest := by
  cases maskKey with
  | none =>
    have hnone : (decodeMaskKey false).run (payload ++ rest) =
        .frame (MaskKey.of 0 0 0 0) (payload ++ rest) := rfl
    simp only [Option.isSome_none, Option.elim_none]
    rw [Parser.run_bind hnone, Parser.run_bind (Parser.run_take rest rfl)]
    rfl
  | some key =>
    simp only [Option.isSome_some, Option.elim_some, List.append_assoc]
    rw [Parser.run_bind (run_decodeMaskKey key _),
      Parser.run_bind (Parser.run_take rest (length_applyMask key payload))]
    simp

theorem codecFrames_encodeFrame {opcode : WebSocketOpCode} {payload : Bytes}
    (hfits : PayloadFits opcode payload) {maskKey : Option MaskKey} {requireMask : Bool}
    (hrequired : requireMask = true → maskKey.isSome = true) (rest : Bytes) :
    (codecFrames requireMask).front (encodeFrame opcode payload maskKey ++ rest) =
      .frame ⟨true, opcode, maskKey.isSome, payload⟩ rest := by
  obtain ⟨hopcode, hlength, hcontrol⟩ := hfits
  obtain ⟨b1, extended, happend, hmask, hrun⟩ := run_decodePayloadLength maskKey.isSome hlength
  obtain ⟨hfin, hrsv, hknown⟩ := first_byte opcode
  have hbody : (decodeFrameBody opcode maskKey.isSome (b1 &&& 0x7F)).run
      (extended ++ ((maskKey.elim payload fun key =>
        key.toList ++ applyMask key payload) ++ rest)) =
        .frame ⟨true, opcode, maskKey.isSome, payload⟩ rest := by
    rw [decodeFrameBody, Parser.run_bind (hrun _), if_neg (by grind)]
    exact run_masked opcode payload maskKey rest
  have hallowed : (requireMask && !maskKey.isSome) = false := by
    cases requireMask with
    | false => rfl
    | true => simp [hrequired rfl]
  simp only [encodeFrame_eq, happend, List.cons_append, List.append_assoc,
    codecFrames, Parser.toDecoder_front_cons, decodeFrame, Parser.run_next_bind,
    hknown, hrsv, hmask, hallowed]
  simp [hfin, hopcode, hbody]

theorem front_encodeFrame {opcode : WebSocketOpCode} {payload : Bytes}
    (hfits : PayloadFits opcode payload) (key : MaskKey) (rest : Bytes) :
    frameDecoder.front (encodeFrame opcode payload (some key) ++ rest) =
      .frame ⟨true, opcode, true, payload⟩ rest :=
  codecFrames_encodeFrame hfits (fun _ => rfl) rest

/-- What was encoded is decoded again, whatever follows it, and no sooner than its
last byte is there. -/
theorem decode_encodeFrame {opcode : WebSocketOpCode} {payload : Bytes}
    (hfits : PayloadFits opcode payload) (maskKey : Option MaskKey) {requireMask : Bool}
    (hrequired : requireMask = true → maskKey.isSome = true) (rest : Bytes) :
    WebSocketFrameCodec.decode requireMask (encodeFrame opcode payload maskKey ++ rest) =
      (.ok, some ⟨true, opcode, maskKey.isSome, payload⟩,
        (encodeFrame opcode payload maskKey).length) ∧
      ∀ part more, part ++ more = encodeFrame opcode payload maskKey → more ≠ [] →
        WebSocketFrameCodec.decode requireMask part = (.incomplete, none, 0) := by
  have hwhole := codecFrames_encodeFrame hfits hrequired
  constructor
  · rw [WebSocketFrameCodec.decode, hwhole rest]
    simp
  · intro part more hsplit hmore
    have hfront : (codecFrames requireMask).front (part ++ more) =
        .frame ⟨true, opcode, maskKey.isSome, payload⟩ [] := by
      rw [hsplit]
      simpa using hwhole []
    rw [WebSocketFrameCodec.decode, Decoder.front_part hfront hmore]

theorem pong_decoded : PayloadFits .pong [104, 105] ∧ WebSocketFrameCodec.decode true
        (encodeFrame .pong [104, 105] (some (MaskKey.of 1 2 3 4)) ++ [7]) =
      (.ok, some ⟨true, .pong, true, [104, 105]⟩, 8) :=
  ⟨by decide, (decode_encodeFrame (by decide) (some (MaskKey.of 1 2 3 4))
    (fun _ => rfl) [7]).1⟩

end NebulaIM.Protocol
