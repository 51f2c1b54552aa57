import NebulaIM.Gateway.Server

/-!
# Packets from a stream

What the server makes of the bytes of a connection, however they are split into
reads.  On the native transport the loop of `onTcpMessage` is the scan of the
packet codec; on WebSocket the same packets come out of the binary frames.
-/

namespace NebulaIM.Gateway

open NebulaIM.Protocol
open Foundation.Framing
open Foundation.Wire (Bytes)

variable {input : Bytes} {error : ProtocolError} {c : Connection}

/-! ## What the server does with one packet -/

section Packets

variable (allow : Nat → Bool)

def answers (websocket : Bool) : (asked : Nat) → List Packet → List Event
  | _, [] => []
  | asked, packet :: packets =>
    .decoded packet ::
      (if allow asked then .handlePacket packet
      else .send (wrapped websocket (rateLimitedResponse packet.sequenceId))) ::
      answers websocket (asked + 1) packets

def Connection.after (c : Connection) (packets : List Packet) (rest : Bytes) :
    Connection :=
  { c with
    buffer := rest
    asked := c.asked + packets.length
    log := c.log ++ answers allow c.websocket c.asked packets }

variable {allow}

@[simp] theorem Connection.after_nil (c : Connection) :
    c.after allow [] c.buffer = c := by
  simp [Connection.after, answers]

@[simp] theorem Connection.after_buffer (c : Connection) (packets : List Packet)
    (rest : Bytes) : (c.after allow packets rest).buffer = rest := rfl

theorem Connection.after_cons (c : Connection) (packet : Packet)
    (packets : List Packet) (middle rest : Bytes) :
    (c.after allow [packet] middle).after allow packets rest =
      c.after allow (packet :: packets) rest := by
  simp [Connection.after, answers, Nat.add_comm, Nat.add_left_comm]

theorem answers_append (websocket : Bool) (asked : Nat) (packets more : List Packet) :
    answers allow websocket asked (packets ++ more) = answers allow websocket asked packets ++
        answers allow websocket (asked + packets.length) more := by
  induction packets generalizing asked with
  | nil => rfl
  | cons packet packets ih => simp [answers, ih, Nat.add_comm, Nat.add_left_comm]

theorem Connection.after_append (c : Connection) (packets more : List Packet)
    (middle rest : Bytes) :
    (c.after allow packets middle).after allow more rest =
      c.after allow (packets ++ more) rest := by
  simp [Connection.after, answers_append, Nat.add_assoc]

/-! ## One turn of the native loop -/

theorem header_le_of_front (h : packetFront input ≠ .incomplete) :
    kPacketHeaderLength ≤ input.length := by
  by_contra hshort
  apply h
  have hheader := (decodeHeader_eq_none_iff input).mpr (Nat.lt_of_not_le hshort)
  simp [packetFront, decode, hheader]

theorem decode_eq_of_frame {packet : Packet} {rest : Bytes}
    (h : packetFront input = .frame packet rest) :
    decode input = (.ok packet, rest) := by
  obtain ⟨hcan, rfl⟩ := (packetFront_eq_frame_iff _ _ _).mp h
  exact decode_encode rest (encode_eq_packetBytes hcan)

theorem decode_eq_of_incomplete (h : packetFront input = .incomplete) :
    decode input = (.error .incompletePacket, input) := by
  rcases decode_cases input with ⟨_, hdecode⟩ |
    ⟨header, tail, error, hheader, hvalid, _⟩ | ⟨_, _, _, _, _, hdecode⟩ |
    ⟨packet, rest, hcan, hinput, _⟩
  · exact hdecode
  · simp [packetFront_of_rejected hheader hvalid] at h
  · exact hdecode
  · simp [(packetFront_eq_frame_iff input packet rest).mpr ⟨hcan, hinput⟩] at h

theorem decode_eq_of_bad (h : packetFront input = .bad error) :
    decode input = (.error error, []) ∧ error ≠ .incompletePacket := by
  obtain ⟨header, rest, hheader, hvalid⟩ := (packetFront_eq_bad_iff _ _).mp h
  refine ⟨by simp [decode, hheader, hvalid], ?_⟩
  rintro rfl
  exact validateHeader_ne_incompletePacket header hvalid

theorem onTcpMessage_frame {packet : Packet} {rest : Bytes}
    (h : packetFront c.buffer = .frame packet rest) :
    onTcpMessage allow c =
      if allow c.asked then onTcpMessage allow (c.after allow [packet] rest)
      else c.after allow [packet] [] := by
  rw [onTcpMessage, if_pos (header_le_of_front (by simp [h]))]
  split
  · next found tail hdecode =>
    rw [decode_eq_of_frame h] at hdecode
    cases hdecode
    by_cases hallow : allow c.asked = true
    · simp [allowPacket, Connection.takePacket, Connection.record, hallow,
        Connection.after, answers]
    · simp [allowPacket, Connection.takePacket, Connection.record, hallow,
        Connection.after, answers, Connection.sendPacket, Connection.send]
  · next hdecode => simp [decode_eq_of_frame h] at hdecode
  · next hdecode => simp [decode_eq_of_frame h] at hdecode

theorem onTcpMessage_short (h : c.buffer.length < kPacketHeaderLength) :
    onTcpMessage allow c = c := by
  rw [onTcpMessage, if_neg (Nat.not_le.mpr h)]

theorem onTcpMessage_incomplete (h : packetFront c.buffer = .incomplete) :
    onTcpMessage allow c = c := by
  rw [onTcpMessage]
  split
  · split
    · next hdecode => simp [decode_eq_of_incomplete h] at hdecode
    · next hdecode =>
      rw [decode_eq_of_incomplete h] at hdecode
      cases hdecode
      rfl
    · next hne hdecode =>
      rw [decode_eq_of_incomplete h] at hdecode
      cases hdecode
      exact absurd rfl hne
  · rfl

def Connection.rejected (c : Connection) (error : ProtocolError) : Connection :=
  ({ c with buffer := [] }.send (packetBytes (protocolErrorResponse error))).forceClose

theorem onTcpMessage_bad (h : packetFront c.buffer = .bad error) :
    onTcpMessage allow c = c.rejected error := by
  obtain ⟨hbad, hne⟩ := decode_eq_of_bad h
  rw [onTcpMessage, if_pos (header_le_of_front (by simp [h]))]
  split
  · next hdecode => simp [hbad] at hdecode
  · next hdecode =>
    rw [hbad] at hdecode
    cases hdecode
    exact absurd rfl hne
  · next hdecode =>
    rw [hbad] at hdecode
    cases hdecode
    rfl

end Packets

/-! ## The native loop -/

/-- A rejected header at the front of the buffer closes the connection. -/
def Connection.settled (c : Connection) : Connection :=
  match packetFront c.buffer with
  | .bad error => c.rejected error
  | _ => c

theorem onTcpMessage_scan {allow : Nat → Bool} (hallow : ∀ asked, allow asked = true)
    (c : Connection) :
    onTcpMessage allow c =
      (c.after allow (packetCodec.scan c.buffer).1 (packetCodec.scan c.buffer).2).settled := by
  induction hbuffer : c.buffer using Decoder.scan_induction
      (d := packetCodec.toDecoder) generalizing c with
  | @frame _ packet rest hframe ih =>
    rw [onTcpMessage_frame (hbuffer ▸ hframe), if_pos (hallow _),
      Decoder.scan_frame hframe, ih _ rfl, Connection.after_cons]
  | @stop input hstop =>
    rw [Decoder.scan_of_not_frame hstop, ← hbuffer, Connection.after_nil, Connection.settled]
    cases hfront : packetFront c.buffer with
    | incomplete => exact onTcpMessage_incomplete hfront
    | bad error => exact onTcpMessage_bad hfront
    | frame packet rest => exact absurd (hbuffer ▸ hfront) (hstop packet rest)

section Always

def always : Nat → Bool := fun _ => true

def Connection.readTcp (c : Connection) (bytes : Bytes) : Connection :=
  c.read (onTcpMessage always) bytes

theorem readTcp_of_connected (hconnected : c.connected = true) (bytes : Bytes) : c.readTcp bytes =
      (c.after always (packetCodec.scan (c.buffer ++ bytes)).1
        (packetCodec.scan (c.buffer ++ bytes)).2).settled := by
  rw [Connection.readTcp, Connection.read, if_pos hconnected,
    @onTcpMessage_scan always fun _ => rfl]
  rfl

theorem settled_of_bad (h : packetFront c.buffer = .bad error) : c.settled = c.rejected error := by
  simp only [Connection.settled, h]

theorem settled_of_not_bad (h : ∀ error, packetFront c.buffer ≠ .bad error) : c.settled = c := by
  rw [Connection.settled]
  split
  · next error hbad => exact absurd hbad (h error)
  · rfl

/-- Two reads are one read of both. -/
theorem readTcp_append (c : Connection) (first second : Bytes) :
    (c.readTcp first).readTcp second = c.readTcp (first ++ second) := by
  by_cases hconnected : c.connected = true
  · rw [readTcp_of_connected hconnected, readTcp_of_connected hconnected,
      ← List.append_assoc, Decoder.scan_append (c.buffer ++ first)]
    generalize packetCodec.scan (c.buffer ++ first) = found
    obtain ⟨packets, rest⟩ := found
    by_cases hbad : ∃ error, packetFront rest = .bad error
    · -- the connection is closed and the second read does not happen
      obtain ⟨error, hbad⟩ := hbad
      have hlater : packetFront (rest ++ second) = .bad error := packetCodec.bad_append second hbad
      have hscan : packetCodec.scan (rest ++ second) = ([], rest ++ second) :=
        Decoder.scan_of_not_frame (by simp [packetCodec_front, hlater])
      rw [settled_of_bad hbad, hscan, List.append_nil, settled_of_bad hlater]
      rfl
    · simp only [not_exists] at hbad
      have hopen : (c.after always packets rest).connected = true := hconnected
      rw [settled_of_not_bad hbad, readTcp_of_connected hopen, Connection.after_append]
      rfl
  · simp [Connection.readTcp, Connection.read, hconnected]

/-- What the native transport makes of a stream does not depend on its reads. -/
theorem reads_eq_readTcp (chunks : List Bytes) :
    ({} : Connection).reads (onTcpMessage always) chunks =
      ({} : Connection).readTcp chunks.flatten := by
  have hreads (c : Connection) (front : Bytes) :
      (c.readTcp front).reads (onTcpMessage always) chunks =
        c.readTcp (front ++ chunks.flatten) := by
    induction chunks generalizing front with
    | nil => simp [Connection.reads]
    | cons chunk chunks ih =>
      rw [Connection.reads, List.foldl_cons]
      change ((c.readTcp front).readTcp chunk).reads _ chunks = _
      rw [readTcp_append, ih, List.flatten_cons, List.append_assoc]
  have hempty : ({} : Connection).readTcp [] = {} := by decide +kernel
  simpa [hempty] using hreads {} []

end Always

/-! ## The packets of a stream -/

/-- The concatenation of what `PacketCodec::encode` returns. -/
def encodeStream : List Packet → Except InvalidArgument Bytes
  | [] => .ok []
  | packet :: packets => do
      let first ← encode packet
      let rest ← encodeStream packets
      return first ++ rest

theorem encodeStream_eq_ok_iff (packets : List Packet) (bytes : Bytes) :
    encodeStream packets = .ok bytes ↔ (∀ packet ∈ packets, CanEncode packet) ∧
        packetCodec.encodeAll packets = bytes := by
  induction packets generalizing bytes with
  | nil => simp [encodeStream]
  | cons packet packets ih =>
    rw [List.forall_mem_cons, Codec.encodeAll_cons, encodeStream]
    by_cases hcan : CanEncode packet
    · rw [encode_eq_packetBytes hcan]
      cases hrest : encodeStream packets with
      | error error =>
        have hfail (h : ∀ packet ∈ packets, CanEncode packet) : False := by
          simpa [hrest] using (ih _).mpr ⟨h, rfl⟩
        simpa [bind, Except.bind, hcan] using fun h => absurd h hfail
      | ok rest =>
        obtain ⟨hpackets, rfl⟩ := (ih rest).mp hrest
        simpa [bind, Except.bind, pure, Except.pure, packetCodec_encode, hcan] using
          fun _ => hpackets
    · cases hencode : encode packet with
      | error error => simp [bind, Except.bind, hcan]
      | ok first => exact absurd ((encode_ok_iff packet).mp ⟨first, hencode⟩) hcan

/-- The packets at the front of a stream: no longer run of encodings is one. -/
structure LongestPackets (stream : Bytes) (packets : List Packet) (rest : Bytes) : Prop where
  split : ∃ front, encodeStream packets = .ok front ∧ front ++ rest = stream
  longest : ∀ others front, encodeStream others = .ok front → front <+: stream → others <+: packets

theorem longestPackets_scan (stream : Bytes) : LongestPackets stream (packetCodec.scan stream).1
      (packetCodec.scan stream).2 := by
  obtain ⟨hvalid, hsplit⟩ := packetCodec.encodeAll_scan stream
  constructor
  · exact ⟨_, (encodeStream_eq_ok_iff _ _).mpr ⟨hvalid, rfl⟩, hsplit⟩
  · intro others front hencode hinitial
    obtain ⟨hothers, rfl⟩ := (encodeStream_eq_ok_iff _ _).mp hencode
    exact packetCodec.prefix_scan hothers hinitial

/-- The first sixteen bytes are a header that `validateHeader` rejects. -/
def HeaderRejected (rest : Bytes) (error : ProtocolError) : Prop :=
  ∃ header tail, decodeHeader rest = some (header, tail) ∧ validateHeader header = some error

theorem headerRejected_iff (rest : Bytes) (error : ProtocolError) :
    HeaderRejected rest error ↔ packetFront rest = .bad error :=
  (packetFront_eq_bad_iff rest error).symm

/-- Some bytes are missing at the end of one packet. -/
def CutPacket (bytes : Bytes) : Prop :=
  ∃ packet whole, encode packet = .ok whole ∧ bytes <+: whole ∧ bytes ≠ whole

/-- An incomplete packet with its header is the beginning of a packet. -/
theorem cutPacket_of_incomplete (h : packetFront input = .incomplete)
    (hlong : kPacketHeaderLength ≤ input.length) :
    CutPacket input ∧ input.length < kPacketHeaderLength + kMaxBodyLength := by
  rcases decode_cases input with ⟨hshort, _⟩ |
    ⟨header, tail, error, hheader, hvalid, _⟩ |
    ⟨header, tail, hheader, hvalid, hshort, _⟩ | ⟨packet, rest, hcan, hinput, _⟩
  · omega
  · simp [packetFront_of_rejected hheader hvalid] at h
  · have hinput := encodeHeader_of_decodeHeader hheader
    obtain ⟨_, _, hlength, _⟩ := (validateHeader_eq_none_iff header).mp hvalid
    let missing := List.replicate (header.bodyLength.toNat - tail.length) (0 : UInt8)
    have hmissing : missing.length = header.bodyLength.toNat - tail.length := List.length_replicate
    have hbody : (tail ++ missing).length = header.bodyLength.toNat := by
      rw [List.length_append]
      omega
    obtain ⟨hcan, hbytes⟩ := packetBytes_of_header hvalid hbody
    have hwhole : encodeHeader header ++ (tail ++ missing) = input ++ missing := by
      rw [hinput, List.append_assoc]
    constructor
    · refine ⟨_, _, encode_eq_packetBytes hcan, ?_, ?_⟩
      · rw [hbytes, hwhole]
        exact List.prefix_append input missing
      · rw [hbytes, hwhole]
        intro hsame
        have := congrArg List.length hsame
        rw [List.length_append] at this
        omega
    · rw [hinput, List.length_append, length_encodeHeader]
      omega
  · simp [(packetFront_eq_frame_iff input packet rest).mpr ⟨hcan, hinput⟩] at h

def Event.handed : Event → Option Packet
  | .handlePacket packet => some packet
  | _ => none

def Connection.handed (c : Connection) : List Packet := c.log.filterMap Event.handed

theorem handed_answers (websocket : Bool) (asked : Nat) (packets : List Packet) :
    (answers always websocket asked packets).filterMap Event.handed = packets := by
  induction packets generalizing asked with
  | nil => rfl
  | cons packet packets ih => simp [answers, always, List.filterMap_cons, Event.handed, ih]

theorem handed_after (c : Connection) (packets : List Packet) (rest : Bytes) :
    (c.after always packets rest).handed = c.handed ++ packets := by
  simp [Connection.handed, Connection.after, handed_answers]

theorem handed_settled (c : Connection) : c.settled.handed = c.handed := by
  rw [Connection.settled]
  split
  · simp [Connection.rejected, Connection.forceClose, Connection.send,
      Connection.record, Connection.handed, Event.handed]
  · rfl

theorem connected_settled (hconnected : c.connected = true) :
    c.settled.connected = false ↔ ∃ error, HeaderRejected c.buffer error := by
  simp only [headerRejected_iff]
  constructor
  · intro hclosed
    by_contra hnone
    rw [settled_of_not_bad (not_exists.mp hnone), hconnected] at hclosed
    cases hclosed
  · rintro ⟨error, hbad⟩
    rw [settled_of_bad hbad]
    rfl

/-- The native transport hands over the longest run of packets at the front of
the stream.  It fails exactly on a rejected header behind them, and otherwise
keeps less than one packet, in whatever way the stream was read. -/
theorem tcp_stream_packets (chunks : List Bytes) :
    let c := ({} : Connection).reads (onTcpMessage always) chunks
    ∃ packets rest, LongestPackets chunks.flatten packets rest ∧ c.handed = packets ∧
      (c.connected = false ↔
        kPacketHeaderLength ≤ rest.length ∧ ∃ error, HeaderRejected rest error) ∧
      (∀ error, HeaderRejected rest error →
        [.send (packetBytes (protocolErrorResponse error)), .forceClose] <:+ c.log) ∧
      (c.connected = true → c.buffer = rest ∧ (rest.length < kPacketHeaderLength ∨ CutPacket rest) ∧
        rest.length < kPacketHeaderLength + kMaxBodyLength) ∧
      ∀ others : List Bytes, others.flatten = chunks.flatten →
        ({} : Connection).reads (onTcpMessage always) others = c := by
  intro c
  have hc : c = ((({} : Connection).after always (packetCodec.scan chunks.flatten).1
      (packetCodec.scan chunks.flatten).2)).settled := by
    rw [show c = _ from reads_eq_readTcp chunks]
    exact readTcp_of_connected rfl chunks.flatten
  have hlongest := longestPackets_scan chunks.flatten
  have hstop := Decoder.front_scan (d := packetCodec.toDecoder) chunks.flatten
  revert hc hlongest hstop
  generalize packetCodec.scan chunks.flatten = found
  obtain ⟨packets, rest⟩ := found
  intro hc hlongest hstop
  refine ⟨packets, rest, hlongest, ?_, ?_, ?_, ?_, ?_⟩
  · rw [hc, handed_settled, handed_after]
    rfl
  · rw [hc, connected_settled rfl]
    constructor
    · rintro ⟨error, hrejected⟩
      refine ⟨?_, error, hrejected⟩
      apply header_le_of_front
      simp [(headerRejected_iff rest error).mp hrejected]
    · exact And.right
  · intro error hrejected
    have hbad := (headerRejected_iff rest error).mp hrejected
    rw [hc, settled_of_bad hbad]
    simp [Connection.rejected, Connection.forceClose, Connection.send,
      Connection.record, List.append_assoc]
  · intro hopen
    have hincomplete : packetFront rest = .incomplete := by
      cases hfront : packetFront rest with
      | incomplete => rfl
      | frame packet more => exact absurd hfront (hstop packet more)
      | bad error =>
        rw [hc, settled_of_bad hfront] at hopen
        cases hopen
    refine ⟨?_, ?_⟩
    · rw [hc, settled_of_not_bad (by simp [Connection.after, hincomplete])]
      rfl
    · by_cases hshort : rest.length < kPacketHeaderLength
      · exact ⟨.inl hshort, by omega⟩
      · obtain ⟨hcut, hbound⟩ := cutPacket_of_incomplete hincomplete (Nat.le_of_not_lt hshort)
        exact ⟨.inr hcut, hbound⟩
  · intro others hothers
    rw [reads_eq_readTcp, hothers, ← reads_eq_readTcp]

/-- One stray byte is kept although no packet begins with it. -/
theorem strayByte_kept :
    let c := ({} : Connection).reads (onTcpMessage always) [[0]]
    c.connected = true ∧ ¬ CutPacket c.buffer := by
  have hrun : ({} : Connection).reads (onTcpMessage always) [[0]] =
      { buffer := [0] } := by decide +kernel
  rw [hrun]
  refine ⟨rfl, ?_⟩
  rintro ⟨packet, whole, hencode, hinitial, _⟩
  have hcan := (encode_ok_iff packet).mp ⟨whole, hencode⟩
  rw [encode_eq_packetBytes hcan] at hencode
  cases hencode
  obtain ⟨tail, hbytes⟩ := hinitial
  have hhead : (packetBytes packet).head? = some 0x4E := by
    simp only [packetBytes, encodeHeader, appendUint32, List.cons_append, List.head?_cons]
    decide
  rw [← hbytes, List.cons_append, List.head?_cons] at hhead
  exact absurd hhead (by decide)

end NebulaIM.Gateway
