import NebulaIM.Foundation.Wire

/-!
# Packets of the gateway protocol

`PacketCodec` frames a protobuf body with a sixteen-byte big-endian header.
-/

namespace NebulaIM.Protocol

open Foundation.Wire (Bytes)

inductive MessageType where
  | unknown
  | loginReq | loginResp
  | registerReq | registerResp
  | resumeSessionReq | resumeSessionResp
  | heartbeatReq | heartbeatResp
  | sendSingleMsgReq | sendSingleMsgResp
  | sendGroupMsgReq | sendGroupMsgResp
  | pushMsg
  | ackReq | ackResp
  | pullOfflineMsgReq | pullOfflineMsgResp
  | errorResp
  deriving DecidableEq, Repr

def MessageType.toUint16 : MessageType → UInt16
  | .unknown => 0
  | .loginReq => 1001
  | .loginResp => 1002
  | .registerReq => 1003
  | .registerResp => 1004
  | .resumeSessionReq => 1005
  | .resumeSessionResp => 1006
  | .heartbeatReq => 1101
  | .heartbeatResp => 1102
  | .sendSingleMsgReq => 2001
  | .sendSingleMsgResp => 2002
  | .sendGroupMsgReq => 2101
  | .sendGroupMsgResp => 2102
  | .pushMsg => 3001
  | .ackReq => 4001
  | .ackResp => 4002
  | .pullOfflineMsgReq => 5001
  | .pullOfflineMsgResp => 5002
  | .errorResp => 9001

def knownMessageTypes : List MessageType :=
  [.loginReq, .loginResp, .registerReq, .registerResp, .resumeSessionReq,
    .resumeSessionResp, .heartbeatReq, .heartbeatResp, .sendSingleMsgReq,
    .sendSingleMsgResp, .sendGroupMsgReq, .sendGroupMsgResp, .pushMsg, .ackReq,
    .ackResp, .pullOfflineMsgReq, .pullOfflineMsgResp, .errorResp]

def messageTypeFromUint16 (type : UInt16) : MessageType :=
  (knownMessageTypes.find? fun known => known.toUint16 == type).getD .unknown

def isValidMessageType (type : UInt16) : Bool := messageTypeFromUint16 type != .unknown

theorem messageTypeFromUint16_toUint16 (type : MessageType) :
    messageTypeFromUint16 type.toUint16 = type := by
  cases type <;> decide

/-! ## Header -/

def kProtocolMagic : UInt32 := 0x4E494D42
def kProtocolVersion : UInt16 := 1
def kMaxBodyLength : Nat := 1024 * 1024
def kPacketHeaderLength : Nat := 16

structure PacketHeader where
  magic : UInt32 := kProtocolMagic
  version : UInt16 := kProtocolVersion
  type : UInt16 := 0
  sequenceId : UInt32 := 0
  bodyLength : UInt32 := 0
  deriving DecidableEq, Repr

def appendUint16 (value : UInt16) : Bytes :=
  [UInt8.ofNat (value.toNat / 2 ^ 8), UInt8.ofNat value.toNat]

def appendUint32 (value : UInt32) : Bytes :=
  [UInt8.ofNat (value.toNat / 2 ^ 24), UInt8.ofNat (value.toNat / 2 ^ 16),
    UInt8.ofNat (value.toNat / 2 ^ 8), UInt8.ofNat value.toNat]

def readUint16 (b1 b0 : UInt8) : UInt16 := UInt16.ofNat (b1.toNat * 2 ^ 8 + b0.toNat)

def readUint32 (b3 b2 b1 b0 : UInt8) : UInt32 :=
  UInt32.ofNat (b3.toNat * 2 ^ 24 + b2.toNat * 2 ^ 16 + b1.toNat * 2 ^ 8 + b0.toNat)

def encodeHeader (header : PacketHeader) : Bytes :=
  appendUint32 header.magic ++ appendUint16 header.version ++
    appendUint16 header.type ++ appendUint32 header.sequenceId ++
    appendUint32 header.bodyLength

/-- The header at the front of the bytes and what follows it. -/
def decodeHeader : Bytes → Option (PacketHeader × Bytes)
  | m3 :: m2 :: m1 :: m0 :: v1 :: v0 :: t1 :: t0 :: s3 :: s2 :: s1 :: s0 ::
      l3 :: l2 :: l1 :: l0 :: rest =>
      some
        ({ magic := readUint32 m3 m2 m1 m0
           version := readUint16 v1 v0
           type := readUint16 t1 t0
           sequenceId := readUint32 s3 s2 s1 s0
           bodyLength := readUint32 l3 l2 l1 l0 }, rest)
  | _ => none

theorem decodeHeader_encodeHeader (header : PacketHeader) (rest : Bytes) :
    decodeHeader (encodeHeader header ++ rest) = some (header, rest) := by
  have h16 (value : UInt16) :
      readUint16 (UInt8.ofNat (value.toNat / 2 ^ 8)) (UInt8.ofNat value.toNat) =
        value := by
    apply UInt16.toNat_inj.mp
    have hvalue := value.toNat_lt
    simp only [readUint16, UInt16.toNat_ofNat', UInt8.toNat_ofNat']
    omega
  have h32 (value : UInt32) : readUint32 (UInt8.ofNat (value.toNat / 2 ^ 24))
        (UInt8.ofNat (value.toNat / 2 ^ 16)) (UInt8.ofNat (value.toNat / 2 ^ 8))
        (UInt8.ofNat value.toNat) = value := by
    apply UInt32.toNat_inj.mp
    have hvalue := value.toNat_lt
    simp only [readUint32, UInt32.toNat_ofNat', UInt8.toNat_ofNat']
    omega
  simp only [encodeHeader, appendUint32, appendUint16, List.cons_append,
    List.nil_append, decodeHeader, h16, h32]

/-! ## Codec -/

inductive ProtocolError where
  | incompletePacket
  | invalidMagic
  | invalidVersion
  | invalidMessageType
  | bodyTooLarge
  deriving DecidableEq, Repr

structure Packet where
  type : MessageType := .unknown
  sequenceId : UInt32 := 0
  body : Bytes := []
  deriving DecidableEq, Repr

/-- The two `std::invalid_argument` that `PacketCodec::encode` throws. -/
inductive InvalidArgument where
  | invalidMessageType
  | packetBodyTooLarge
  deriving DecidableEq, Repr

def encode (packet : Packet) : Except InvalidArgument Bytes :=
  if packet.type = .unknown ∨ ¬ isValidMessageType packet.type.toUint16 then
    .error .invalidMessageType
  else if packet.body.length > kMaxBodyLength then
    .error .packetBodyTooLarge
  else
    let header : PacketHeader :=
      { type := packet.type.toUint16
        sequenceId := packet.sequenceId
        bodyLength := UInt32.ofNat packet.body.length }
    .ok (encodeHeader header ++ packet.body)

def validateHeader (header : PacketHeader) : Option ProtocolError :=
  if header.magic ≠ kProtocolMagic then some .invalidMagic
  else if header.version ≠ kProtocolVersion then some .invalidVersion
  else if header.bodyLength.toNat > kMaxBodyLength then some .bodyTooLarge
  else if ¬ isValidMessageType header.type then some .invalidMessageType
  else none

/-- The outcome of `PacketCodec::decode` and the bytes left in the buffer. -/
def decode (buffer : Bytes) : Except ProtocolError Packet × Bytes :=
  match decodeHeader buffer with
  | none => (.error .incompletePacket, buffer)
  | some (header, rest) =>
    match validateHeader header with
    | some error => (.error error, [])
    | none =>
      if rest.length < header.bodyLength.toNat then
        (.error .incompletePacket, buffer)
      else
        (.ok
          { type := messageTypeFromUint16 header.type
            sequenceId := header.sequenceId
            body := rest.take header.bodyLength.toNat },
          rest.drop header.bodyLength.toNat)

/-- The precondition of `PacketCodec::encode`. -/
def CanEncode (packet : Packet) : Prop :=
  packet.type ≠ .unknown ∧ packet.body.length ≤ kMaxBodyLength

instance (packet : Packet) : Decidable (CanEncode packet) :=
  inferInstanceAs (Decidable (_ ∧ _))

theorem isValidMessageType_toUint16 (type : MessageType) :
    isValidMessageType type.toUint16 = true ↔ type ≠ .unknown := by
  simp [isValidMessageType, messageTypeFromUint16_toUint16]

theorem encode_ok_iff (packet : Packet) :
    (∃ bytes, encode packet = .ok bytes) ↔ CanEncode packet := by
  simp only [encode, CanEncode, isValidMessageType_toUint16]
  by_cases htype : packet.type = .unknown
  · simp [htype]
  · by_cases hbody : packet.body.length > kMaxBodyLength
    · simp [htype, hbody]
    · simp [htype, hbody, Nat.le_of_not_lt hbody]

theorem encode_error_of_not_canEncode {packet : Packet}
    (htype : packet.type ≠ .unknown) (hlarge : ¬ CanEncode packet) :
    encode packet = .error .packetBodyTooLarge := by
  have hbody : kMaxBodyLength < packet.body.length := Nat.lt_of_not_le fun h => hlarge ⟨htype, h⟩
  have hknown := (isValidMessageType_toUint16 packet.type).mpr htype
  rw [encode, if_neg (by simp [htype, hknown]), if_pos hbody]

theorem decode_encode {packet : Packet} {bytes : Bytes} (rest : Bytes)
    (hencode : encode packet = .ok bytes) :
    decode (bytes ++ rest) = (.ok packet, rest) := by
  obtain ⟨htype, hbody⟩ := (encode_ok_iff packet).mp ⟨bytes, hencode⟩
  have hknown := (isValidMessageType_toUint16 packet.type).mpr htype
  have hlength : (UInt32.ofNat packet.body.length).toNat =
      packet.body.length := by
    have hsize : kMaxBodyLength < 2 ^ 32 := by decide
    rw [UInt32.toNat_ofNat', Nat.mod_eq_of_lt (by omega)]
  rw [encode, if_neg (by simp [htype, hknown]),
    if_neg (Nat.not_lt.mpr hbody)] at hencode
  cases hencode
  have hvalid : validateHeader
      { type := packet.type.toUint16
        sequenceId := packet.sequenceId
        bodyLength := UInt32.ofNat packet.body.length } = none := by
    rw [validateHeader, if_neg (not_not.mpr rfl), if_neg (not_not.mpr rfl),
      hlength, if_neg (Nat.not_lt.mpr hbody), if_neg (not_not.mpr hknown)]
  rw [List.append_assoc, decode, decodeHeader_encodeHeader]
  simp only [hvalid, hlength, messageTypeFromUint16_toUint16]
  rw [if_neg (by rw [List.length_append]; omega), List.take_left,
    List.drop_left]

end NebulaIM.Protocol
