import NebulaIM.Foundation.Framing
import NebulaIM.Protocol.Packet

/-!
# Packets on a stream

`PacketCodec::decode` reads one packet from the front of a buffer.  Every
packet it returns stands there in the encoding of `PacketCodec::encode`, and a
rejected header stays rejected whatever follows, so that the codec is one of
`Foundation.Framing`.
-/

namespace NebulaIM.Protocol

open Foundation.Wire (Bytes)
open Foundation.Framing (Codec Front)

variable {input rest : Bytes} {header : PacketHeader}

/-! ## Headers -/

theorem appendUint16_readUint16 (b1 b0 : UInt8) : appendUint16 (readUint16 b1 b0) = [b1, b0] := by
  have h1 := b1.toNat_lt
  have h0 := b0.toNat_lt
  have hvalue : (readUint16 b1 b0).toNat = b1.toNat * 2 ^ 8 + b0.toNat := by
    rw [readUint16, UInt16.toNat_ofNat', Nat.mod_eq_of_lt (by omega)]
  simp only [appendUint16, hvalue, List.cons.injEq, and_true, ← UInt8.toNat_inj, UInt8.toNat_ofNat']
  omega

theorem appendUint32_readUint32 (b3 b2 b1 b0 : UInt8) :
    appendUint32 (readUint32 b3 b2 b1 b0) = [b3, b2, b1, b0] := by
  have h3 := b3.toNat_lt
  have h2 := b2.toNat_lt
  have h1 := b1.toNat_lt
  have h0 := b0.toNat_lt
  have hvalue : (readUint32 b3 b2 b1 b0).toNat =
      b3.toNat * 2 ^ 24 + b2.toNat * 2 ^ 16 + b1.toNat * 2 ^ 8 + b0.toNat := by
    rw [readUint32, UInt32.toNat_ofNat', Nat.mod_eq_of_lt (by omega)]
  simp only [appendUint32, hvalue, List.cons.injEq, and_true, ← UInt8.toNat_inj, UInt8.toNat_ofNat']
  omega

theorem encodeHeader_of_decodeHeader (h : decodeHeader input = some (header, rest)) :
    input = encodeHeader header ++ rest := by
  unfold decodeHeader at h
  split at h
  · cases h
    simp [encodeHeader, appendUint16_readUint16, appendUint32_readUint32]
  · cases h

@[simp] theorem length_encodeHeader (header : PacketHeader) :
    (encodeHeader header).length = kPacketHeaderLength := rfl

theorem exists_decodeHeader : ∀ {input : Bytes}, kPacketHeaderLength ≤ input.length →
    ∃ header rest, decodeHeader input = some (header, rest)
  | _ :: _ :: _ :: _ :: _ :: _ :: _ :: _ :: _ :: _ :: _ :: _ :: _ :: _ :: _ :: _ ::
      _, _ => ⟨_, _, rfl⟩

theorem decodeHeader_eq_none_iff (input : Bytes) :
    decodeHeader input = none ↔ input.length < kPacketHeaderLength := by
  constructor
  · intro h
    by_contra hlong
    obtain ⟨header, rest, hheader⟩ := exists_decodeHeader (Nat.le_of_not_lt hlong)
    simp [h] at hheader
  · intro h
    cases hheader : decodeHeader input with
    | none => rfl
    | some found =>
      have hinput := encodeHeader_of_decodeHeader hheader
      rw [hinput, List.length_append, length_encodeHeader] at h
      omega

theorem decodeHeader_append (h : decodeHeader input = some (header, rest))
    (more : Bytes) : decodeHeader (input ++ more) = some (header, rest ++ more) := by
  rw [encodeHeader_of_decodeHeader h, List.append_assoc, decodeHeader_encodeHeader]

/-! ## Packets -/

theorem toUint16_messageTypeFromUint16 {type : UInt16} (h : isValidMessageType type = true) :
    (messageTypeFromUint16 type).toUint16 = type := by
  rw [isValidMessageType, bne_iff_ne] at h
  unfold messageTypeFromUint16 at h ⊢
  cases hfind : knownMessageTypes.find? fun known => known.toUint16 == type with
  | none => simp [hfind] at h
  | some known => simpa using List.find?_some hfind

/-- The bytes of a packet that may be encoded. -/
def packetBytes (packet : Packet) : Bytes :=
  encodeHeader
    { type := packet.type.toUint16
      sequenceId := packet.sequenceId
      bodyLength := UInt32.ofNat packet.body.length } ++ packet.body

theorem encode_eq_packetBytes {packet : Packet} (h : CanEncode packet) :
    encode packet = .ok (packetBytes packet) := by
  have hknown := (isValidMessageType_toUint16 packet.type).mpr h.1
  rw [encode, if_neg (by simp [h.1, hknown]), if_neg (Nat.not_lt.mpr h.2)]
  rfl

theorem validateHeader_eq_none_iff (header : PacketHeader) : validateHeader header = none ↔
      header.magic = kProtocolMagic ∧ header.version = kProtocolVersion ∧
        header.bodyLength.toNat ≤ kMaxBodyLength ∧
        isValidMessageType header.type = true := by
  unfold validateHeader
  split_ifs <;> simp_all

theorem validateHeader_ne_incompletePacket (header : PacketHeader) :
    validateHeader header ≠ some .incompletePacket := by
  unfold validateHeader
  split_ifs <;> simp

theorem packetBytes_of_header (hvalid : validateHeader header = none) {body : Bytes}
    (hbody : body.length = header.bodyLength.toNat) :
    CanEncode ⟨messageTypeFromUint16 header.type, header.sequenceId, body⟩ ∧
      packetBytes ⟨messageTypeFromUint16 header.type, header.sequenceId, body⟩ =
        encodeHeader header ++ body := by
  obtain ⟨hmagic, hversion, hlength, htype⟩ := (validateHeader_eq_none_iff header).mp hvalid
  refine ⟨⟨?_, hbody ▸ hlength⟩, ?_⟩
  · simpa [isValidMessageType] using htype
  · rw [packetBytes, toUint16_messageTypeFromUint16 htype, hbody,
      UInt32.ofNat_toNat, ← hmagic, ← hversion]

/-- What `decode` can find at the front of the buffer. -/
theorem decode_cases (input : Bytes) :
    (input.length < kPacketHeaderLength ∧ decode input = (.error .incompletePacket, input)) ∨
    (∃ header rest error, decodeHeader input = some (header, rest) ∧
      validateHeader header = some error ∧ decode input = (.error error, [])) ∨
    (∃ header rest, decodeHeader input = some (header, rest) ∧
      validateHeader header = none ∧ rest.length < header.bodyLength.toNat ∧
      decode input = (.error .incompletePacket, input)) ∨
    ∃ packet rest, CanEncode packet ∧ input = packetBytes packet ++ rest ∧
      decode input = (.ok packet, rest) := by
  cases hheader : decodeHeader input with
  | none =>
    left
    exact ⟨(decodeHeader_eq_none_iff input).mp hheader, by simp [decode, hheader]⟩
  | some found =>
    obtain ⟨header, rest⟩ := found
    right
    cases hvalid : validateHeader header with
    | some error =>
      left
      exact ⟨header, rest, error, rfl, hvalid, by simp [decode, hheader, hvalid]⟩
    | none =>
      right
      by_cases hshort : rest.length < header.bodyLength.toNat
      · left
        exact ⟨header, rest, rfl, hvalid, hshort,
          by simp [decode, hheader, hvalid, hshort]⟩
      · right
        have hdecode : decode input =
            (.ok
              { type := messageTypeFromUint16 header.type
                sequenceId := header.sequenceId
                body := rest.take header.bodyLength.toNat },
              rest.drop header.bodyLength.toNat) := by
          simp [decode, hheader, hvalid, hshort]
        have htake : (rest.take header.bodyLength.toNat).length =
            header.bodyLength.toNat := by
          rw [List.length_take]
          omega
        obtain ⟨hcan, hbytes⟩ := packetBytes_of_header hvalid htake
        refine ⟨_, _, hcan, ?_, hdecode⟩
        rw [hbytes, List.append_assoc, List.take_append_drop]
        exact encodeHeader_of_decodeHeader hheader

theorem packetBytes_ne_nil (packet : Packet) : packetBytes packet ≠ [] := by
  simp [packetBytes, encodeHeader, appendUint32]

/-! ## The codec -/

/-- What `PacketCodec::decode` finds at the front of the buffer. -/
def packetFront (input : Bytes) : Front UInt8 Packet ProtocolError :=
  match decode input with
  | (.ok packet, rest) => .frame packet rest
  | (.error .incompletePacket, _) => .incomplete
  | (.error error, _) => .bad error

theorem packetFront_of_rejected {error : ProtocolError}
    (hheader : decodeHeader input = some (header, rest))
    (hvalid : validateHeader header = some error) : packetFront input = .bad error := by
  have hne : error ≠ .incompletePacket := by
    rintro rfl
    exact validateHeader_ne_incompletePacket header hvalid
  simp only [packetFront, decode, hheader, hvalid]

theorem packetFront_eq_frame_iff (input : Bytes) (packet : Packet) (rest : Bytes) :
    packetFront input = .frame packet rest ↔
      CanEncode packet ∧ input = packetBytes packet ++ rest := by
  constructor
  · intro h
    rcases decode_cases input with ⟨_, hdecode⟩ |
      ⟨header, tail, error, hheader, hvalid, _⟩ | ⟨_, _, _, _, _, hdecode⟩ |
      ⟨found, tail, hcan, hinput, hdecode⟩
    · simp [packetFront, hdecode] at h
    · simp [packetFront_of_rejected hheader hvalid] at h
    · simp [packetFront, hdecode] at h
    · simp only [packetFront, hdecode, Front.frame.injEq] at h
      obtain ⟨rfl, rfl⟩ := h
      exact ⟨hcan, hinput⟩
  · rintro ⟨hcan, rfl⟩
    rw [packetFront, decode_encode rest (encode_eq_packetBytes hcan)]

theorem packetFront_eq_bad_iff (input : Bytes) (error : ProtocolError) :
    packetFront input = .bad error ↔ ∃ header rest, decodeHeader input = some (header, rest) ∧
        validateHeader header = some error := by
  constructor
  · intro h
    rcases decode_cases input with ⟨_, hdecode⟩ |
      ⟨header, rest, found, hheader, hvalid, _⟩ | ⟨_, _, _, _, _, hdecode⟩ |
      ⟨_, _, _, _, hdecode⟩
    · simp [packetFront, hdecode] at h
    · rw [packetFront_of_rejected hheader hvalid] at h
      cases h
      exact ⟨header, rest, hheader, hvalid⟩
    · simp [packetFront, hdecode] at h
    · simp [packetFront, hdecode] at h
  · rintro ⟨header, rest, hheader, hvalid⟩
    exact packetFront_of_rejected hheader hvalid

/-- `PacketCodec` as the codec of a stream. -/
def packetCodec : Codec UInt8 Packet ProtocolError :=
  .ofFront packetFront CanEncode packetBytes packetBytes_ne_nil rfl
    (fun rest h => (packetFront_eq_frame_iff _ _ rest).mpr ⟨h, rfl⟩)
    (fun h => (packetFront_eq_frame_iff _ _ _).mp h)
    (by
      intro input error more h
      obtain ⟨header, rest, hheader, hvalid⟩ := (packetFront_eq_bad_iff input error).mp h
      exact packetFront_of_rejected (decodeHeader_append hheader more) hvalid)

theorem packetCodec_encode (packet : Packet) : packetCodec.encode packet = packetBytes packet := rfl

theorem packetCodec_front (input : Bytes) : packetCodec.front input = packetFront input := rfl

end NebulaIM.Protocol
