import NebulaIM.Gateway.Streams

/-!
# Packets in WebSocket frames

The loop of `onWebSocketMessage` over the frames of a client: binary frames that
hold whole packets, pings and pongs.  With a rate limiter that allows
everything it hands the router the packets that the native transport would.
-/

namespace NebulaIM.Gateway

open NebulaIM.Protocol
open Foundation.Framing
open Foundation.Wire (Bytes)

variable {c : Connection} {rest : Bytes}

section Turns

variable (allow : Nat → Bool)

/-- The packets up to the first refused one, and whether there is none. -/
def served : (asked : Nat) → List Packet → List Packet × Bool
  | _, [] => ([], true)
  | asked, packet :: packets =>
    if allow asked then
      (packet :: (served (asked + 1) packets).1, (served (asked + 1) packets).2)
    else ([packet], false)

variable {allow}

theorem handleBinaryFrame_frame {input : Bytes} {packet : Packet}
    (h : packetFront input = .frame packet rest) :
    handleBinaryFrame allow c input =
      if allow c.asked then
        handleBinaryFrame allow (c.after allow [packet] c.buffer) rest
      else (false, c.after allow [packet] c.buffer) := by
  rw [handleBinaryFrame, if_pos (header_le_of_front (by simp [h]))]
  split
  · next found tail hdecode =>
    rw [decode_eq_of_frame h] at hdecode
    cases hdecode
    by_cases hallow : allow c.asked = true
    · simp [allowPacket, Connection.record, hallow, Connection.after, answers]
    · simp [allowPacket, Connection.record, hallow, Connection.after, answers,
        Connection.sendPacket, Connection.send]
  · next hdecode => simp [decode_eq_of_frame h] at hdecode
  · next hdecode => simp [decode_eq_of_frame h] at hdecode

theorem handleBinaryFrame_whole {payload : Bytes} (hwhole : (packetCodec.scan payload).2 = []) :
    handleBinaryFrame allow c payload =
      ((served allow c.asked (packetCodec.scan payload).1).2,
        c.after allow (served allow c.asked (packetCodec.scan payload).1).1 c.buffer) := by
  induction payload using Decoder.scan_induction (d := packetCodec.toDecoder) generalizing c with
  | @frame _ packet rest hframe ih =>
    rw [Decoder.scan_frame hframe] at hwhole ⊢
    rw [handleBinaryFrame_frame hframe, served]
    split
    · rw [ih hwhole, Connection.after_cons]
      rfl
    · rfl
  | @stop input hstop =>
    rw [Decoder.scan_of_not_frame hstop] at hwhole ⊢
    obtain rfl : input = [] := hwhole
    rw [handleBinaryFrame, if_neg (by decide)]
    simp [served]

/-! ## One turn of the loop over the frames -/

theorem onWebSocketMessage_incomplete (h : frameDecoder.front c.buffer = .incomplete) :
    onWebSocketMessage allow c = c := by
  rw [onWebSocketMessage]
  split
  · split
    · rfl
    · next hfront => simp [h] at hfront
    · next hfront => simp [h] at hfront
  · rfl

theorem onWebSocketMessage_frame {frame : WebSocketFrame}
    (h : frameDecoder.front c.buffer = .frame frame rest) :
    onWebSocketMessage allow c =
      match frame.opcode with
      | .ping =>
        onWebSocketMessage allow
          ({ c with buffer := rest }.send (encodeFrame .pong frame.payload none))
      | .pong => onWebSocketMessage allow { c with buffer := rest }
      | .close => ({ c with buffer := rest }.send (encodeFrame .close [] none)).forceClose
      | .binary =>
        let outcome := handleBinaryFrame allow { c with buffer := rest } frame.payload
        if outcome.1 then onWebSocketMessage allow outcome.2 else outcome.2
      | _ =>
        ({ c with buffer := rest }.send
          (encodeFrame .close (lit "binary frame required") none)).forceClose := by
  have hlong : 0 < c.buffer.length := by
    by_contra hempty
    rw [List.length_eq_zero_iff.mp (Nat.eq_zero_of_not_pos hempty), frameDecoder.front_nil] at h
    cases h
  rw [onWebSocketMessage, if_pos hlong]
  split
  · next hfront => simp [h] at hfront
  · next hfront => simp [h] at hfront
  · next found tail hfront =>
    rw [h] at hfront
    cases hfront
    rfl

end Turns

/-! ## Frames of a client -/

/-- A frame that a client sends: whole packets, a ping or a pong. -/
inductive ClientFrame where
  | binary (packets : List Packet) (maskKey : MaskKey)
  | ping (payload : Bytes) (maskKey : MaskKey)
  | pong (payload : Bytes) (maskKey : MaskKey)

namespace ClientFrame

def opcode : ClientFrame → WebSocketOpCode
  | .binary _ _ => .binary
  | .ping _ _ => .ping
  | .pong _ _ => .pong

def payload : ClientFrame → Bytes
  | .binary packets _ => packetCodec.encodeAll packets
  | .ping payload _ => payload
  | .pong payload _ => payload

def maskKey : ClientFrame → MaskKey
  | .binary _ key => key
  | .ping _ key => key
  | .pong _ key => key

def packets : ClientFrame → List Packet
  | .binary packets _ => packets
  | _ => []

def pongs : ClientFrame → List Bytes
  | .ping payload _ => [encodeFrame .pong payload none]
  | _ => []

def bytes (frame : ClientFrame) : Bytes :=
  encodeFrame frame.opcode frame.payload (some frame.maskKey)

/-- The packets may be encoded and the payload has a length that a frame can
announce: at most 125 bytes in a ping or pong. -/
def Valid (frame : ClientFrame) : Prop :=
  (∀ packet ∈ frame.packets, CanEncode packet) ∧ PayloadFits frame.opcode frame.payload

instance (frame : ClientFrame) : Decidable frame.Valid :=
  inferInstanceAs (Decidable (_ ∧ _))

end ClientFrame

def framesBytes (frames : List ClientFrame) : Bytes := frames.flatMap ClientFrame.bytes

theorem framesBytes_cons (frame : ClientFrame) (frames : List ClientFrame) :
    framesBytes (frame :: frames) = frame.bytes ++ framesBytes frames := rfl

def ClientFrame.received (frame : ClientFrame) : WebSocketFrame :=
  ⟨true, frame.opcode, true, frame.payload⟩

theorem ClientFrame.front_bytes {frame : ClientFrame} (hvalid : frame.Valid) (rest : Bytes) :
    frameDecoder.front (frame.bytes ++ rest) = .frame frame.received rest :=
  front_encodeFrame hvalid.2 frame.maskKey rest

theorem scan_framesBytes {frames : List ClientFrame} (hvalid : ∀ frame ∈ frames, frame.Valid) :
    frameDecoder.scan (framesBytes frames) = (frames.map ClientFrame.received, []) := by
  induction frames with
  | nil => exact Decoder.scan_nil
  | cons frame frames ih =>
    obtain ⟨hframe, hframes⟩ := List.forall_mem_cons.mp hvalid
    rw [framesBytes_cons, Decoder.scan_frame (ClientFrame.front_bytes hframe _), ih hframes]
    rfl

def framePackets (frame : WebSocketFrame) : List Packet :=
  if frame.opcode = .binary then (packetCodec.scan frame.payload).1 else []

/-- A binary frame with nothing behind its packets, a ping or a pong. -/
def WholeFrame (frame : WebSocketFrame) : Prop :=
  (frame.opcode = .binary ∧ (packetCodec.scan frame.payload).2 = []) ∨
    frame.opcode = .ping ∨ frame.opcode = .pong

theorem scan_encodeAll_nil {packets : List Packet} (hcan : ∀ packet ∈ packets, CanEncode packet) :
    packetCodec.scan (packetCodec.encodeAll packets) = (packets, []) := by
  have hscan := packetCodec.scan_encodeAll [] hcan
  rwa [List.append_nil, Decoder.scan_nil, List.append_nil] at hscan

namespace ClientFrame

variable {frame : ClientFrame} (hvalid : frame.Valid)

include hvalid

theorem framePackets_received : framePackets frame.received = frame.packets := by
  cases frame with
  | binary packets key => exact congrArg Prod.fst (scan_encodeAll_nil hvalid.1)
  | ping payload key => rfl
  | pong payload key => rfl

theorem wholeFrame_received : WholeFrame frame.received := by
  cases frame with
  | binary packets key => exact .inl ⟨rfl, congrArg Prod.snd (scan_encodeAll_nil hvalid.1)⟩
  | ping payload key => exact .inr (.inl rfl)
  | pong payload key => exact .inr (.inr rfl)

end ClientFrame

/-! ## The loop over the frames -/

theorem served_always (asked : Nat) (packets : List Packet) :
    served always asked packets = (packets, true) := by
  induction packets generalizing asked with
  | nil => rfl
  | cons packet packets ih => simp [served, always, ih]

/-- What is done with a frame when nothing is refused. -/
def Connection.afterFrame (c : Connection) (frame : WebSocketFrame) :
    Connection :=
  if frame.opcode = .ping then c.send (encodeFrame .pong frame.payload none)
  else c.after always (framePackets frame) c.buffer

def Connection.afterFrames (c : Connection) (frames : List WebSocketFrame) :
    Connection :=
  frames.foldl Connection.afterFrame c

theorem afterFrame_buffer (c : Connection) (frame : WebSocketFrame) (buffer : Bytes) :
    { c with buffer }.afterFrame frame = { c.afterFrame frame with buffer } := by
  unfold Connection.afterFrame
  split <;> rfl

theorem afterFrames_buffer (c : Connection) (frames : List WebSocketFrame) (buffer : Bytes) :
    { c with buffer }.afterFrames frames = { c.afterFrames frames with buffer } := by
  induction frames generalizing c with
  | nil => rfl
  | cons frame frames ih =>
    simp only [Connection.afterFrames, List.foldl_cons, afterFrame_buffer]
    exact ih _

theorem onWebSocketMessage_wholeFrame {frame : WebSocketFrame}
    (hfront : frameDecoder.front c.buffer = .frame frame rest) (hwhole : WholeFrame frame) :
    onWebSocketMessage always c =
      onWebSocketMessage always ({ c with buffer := rest }.afterFrame frame) := by
  rw [onWebSocketMessage_frame hfront]
  rcases hwhole with ⟨hopcode, hwhole⟩ | hopcode | hopcode
  · simp only [hopcode]
    rw [handleBinaryFrame_whole hwhole, served_always]
    simp [Connection.afterFrame, framePackets, hopcode]
  · simp [Connection.afterFrame, hopcode]
  · simp [Connection.afterFrame, hopcode, framePackets, Connection.after, answers]

theorem onWebSocketMessage_scan
    (hwhole : ∀ frame ∈ (frameDecoder.scan c.buffer).1, WholeFrame frame)
    (hrest : frameDecoder.front (frameDecoder.scan c.buffer).2 = .incomplete) :
    onWebSocketMessage always c =
      { c.afterFrames (frameDecoder.scan c.buffer).1 with
        buffer := (frameDecoder.scan c.buffer).2 } := by
  induction hbuffer : c.buffer using Decoder.scan_induction (d := frameDecoder) generalizing c with
  | @frame _ frame rest hframe ih =>
    rw [hbuffer, Decoder.scan_frame hframe] at hwhole hrest
    obtain ⟨hfirst, hothers⟩ := List.forall_mem_cons.mp hwhole
    rw [onWebSocketMessage_wholeFrame (hbuffer ▸ hframe) hfirst,
      Decoder.scan_frame hframe, afterFrame_buffer,
      ih hothers hrest rfl, afterFrames_buffer]
    rfl
  | @stop input hstop =>
    rw [hbuffer, Decoder.scan_of_not_frame hstop] at hrest
    rw [onWebSocketMessage_incomplete (hbuffer ▸ hrest), Decoder.scan_of_not_frame hstop, ← hbuffer]
    rfl

theorem afterFrames_append (c : Connection) (frames more : List WebSocketFrame) :
    (c.afterFrames frames).afterFrames more = c.afterFrames (frames ++ more) :=
  List.foldl_append.symm

theorem afterFrames_connected (c : Connection) (frames : List WebSocketFrame) :
    (c.afterFrames frames).connected = c.connected := by
  induction frames generalizing c with
  | nil => rfl
  | cons frame frames ih =>
    refine (ih _).trans ?_
    unfold Connection.afterFrame
    split <;> rfl

theorem reads_wholeFrames {chunks : List Bytes} {frames : List WebSocketFrame}
    (hconnected : c.connected = true) (hbuffer : frameDecoder.scan c.buffer = ([], c.buffer))
    (hscan : frameDecoder.scan (c.buffer ++ chunks.flatten) = (frames, []))
    (hwhole : ∀ frame ∈ frames, WholeFrame frame) :
    c.reads (onWebSocketMessage always) chunks = { c.afterFrames frames with buffer := [] } := by
  induction chunks generalizing c frames with
  | nil =>
    rw [List.flatten_nil, List.append_nil, hbuffer] at hscan
    obtain ⟨rfl, hempty⟩ := Prod.mk.inj hscan
    rw [← hempty]
    rfl
  | cons chunk chunks ih =>
    rw [List.flatten_cons, ← List.append_assoc] at hscan
    obtain ⟨hrest, rfl, hlater⟩ := Decoder.scan_part hscan
    obtain ⟨hfirst, hothers⟩ := List.forall_mem_append.mp hwhole
    have hstep : c.read (onWebSocketMessage always) chunk =
        { c.afterFrames (frameDecoder.scan (c.buffer ++ chunk)).1 with
          buffer := (frameDecoder.scan (c.buffer ++ chunk)).2 } := by
      rw [Connection.read, if_pos hconnected, onWebSocketMessage_scan hfirst hrest, Connection.fill,
        afterFrames_buffer]
    rw [Connection.reads, List.foldl_cons, hstep]
    refine (ih ?_ ?_ (Prod.ext rfl hlater) hothers).trans ?_
    · exact (afterFrames_connected c _).trans hconnected
    · exact Decoder.scan_of_not_frame (by simp [hrest])
    · rw [afterFrames_buffer, afterFrames_append]

/-! ## What the router and the client see -/

def Event.sent : Event → Option Bytes
  | .send message => some message
  | _ => none

/-- The messages that the server has sent, in order. -/
def Connection.sent (c : Connection) : List Bytes := c.log.filterMap Event.sent

theorem sent_answers (websocket : Bool) (asked : Nat) (packets : List Packet) :
    (answers always websocket asked packets).filterMap Event.sent = [] := by
  induction packets generalizing asked with
  | nil => rfl
  | cons packet packets ih => simp [answers, always, List.filterMap_cons, Event.sent, ih]

theorem handed_afterFrames {frames : List ClientFrame} (hvalid : ∀ frame ∈ frames, frame.Valid) :
    (c.afterFrames (frames.map ClientFrame.received)).handed =
      c.handed ++ frames.flatMap ClientFrame.packets := by
  induction frames generalizing c with
  | nil => simp [Connection.afterFrames]
  | cons frame frames ih =>
    obtain ⟨hframe, hframes⟩ := List.forall_mem_cons.mp hvalid
    have hfirst : (c.afterFrame frame.received).handed = c.handed ++ frame.packets := by
      rw [← ClientFrame.framePackets_received hframe, Connection.afterFrame]
      split
      · next hping =>
        simp [Connection.send, Connection.record, Connection.handed,
          Event.handed, framePackets, hping]
      · exact handed_after c _ _
    rw [List.map_cons, Connection.afterFrames, List.foldl_cons]
    refine (ih hframes).trans ?_
    rw [hfirst, List.flatMap_cons, List.append_assoc]

theorem sent_afterFrames (c : Connection) (frames : List ClientFrame) :
    (c.afterFrames (frames.map ClientFrame.received)).sent =
      c.sent ++ frames.flatMap ClientFrame.pongs := by
  induction frames generalizing c with
  | nil => simp [Connection.afterFrames]
  | cons frame frames ih =>
    have hfirst : (c.afterFrame frame.received).sent = c.sent ++ frame.pongs := by
      cases frame with
      | ping payload key =>
        simp [Connection.afterFrame, ClientFrame.received, ClientFrame.opcode,
          ClientFrame.payload, ClientFrame.pongs, Connection.send,
          Connection.record, Connection.sent, Event.sent]
      | _ =>
        simp [Connection.afterFrame, ClientFrame.received, ClientFrame.opcode,
          ClientFrame.pongs, Connection.after, Connection.sent, sent_answers]
    rw [List.map_cons, Connection.afterFrames, List.foldl_cons]
    refine (ih _).trans ?_
    rw [hfirst, List.flatMap_cons, List.append_assoc]

/-- On WebSocket the router is given the packets of the binary frames, as the
native transport would give them; every ping gets its pong. -/
theorem websocket_stream_packets {frames : List ClientFrame}
    (hvalid : ∀ frame ∈ frames, frame.Valid) {chunks : List Bytes}
    (hchunks : chunks.flatten = framesBytes frames) {native : List Bytes}
    (hnative : encodeStream (frames.flatMap ClientFrame.packets) = .ok native.flatten) :
    let c := ({ websocket := true } : Connection).reads (onWebSocketMessage always) chunks
    c.handed = frames.flatMap ClientFrame.packets ∧ c.handed =
        (({} : Connection).reads (onTcpMessage always) native).handed ∧
      c.sent = frames.flatMap ClientFrame.pongs ∧
      c.connected = true := by
  intro c
  have hc : c = { ({ websocket := true } : Connection).afterFrames
      (frames.map ClientFrame.received) with buffer := [] } := by
    apply reads_wholeFrames rfl Decoder.scan_nil
    · rw [List.nil_append, hchunks]
      exact scan_framesBytes hvalid
    · intro frame hframe
      obtain ⟨source, hsource, rfl⟩ := List.mem_map.mp hframe
      exact ClientFrame.wholeFrame_received (hvalid source hsource)
  have hhanded : c.handed = frames.flatMap ClientFrame.packets := by
    rw [hc]
    exact handed_afterFrames hvalid
  obtain ⟨hcan, hbytes⟩ := (encodeStream_eq_ok_iff _ _).mp hnative
  refine ⟨hhanded, ?_, ?_, ?_⟩
  · rw [reads_eq_readTcp, readTcp_of_connected rfl, handed_settled, handed_after, hhanded, ← hbytes]
    exact (congrArg Prod.fst (scan_encodeAll_nil hcan)).symm
  · rw [hc]
    exact sent_afterFrames _ frames
  · rw [hc]
    exact afterFrames_connected _ _

def heartbeat (sequenceId : UInt32) : Packet := { type := .heartbeatReq, sequenceId }

def heartbeatFrames : List ClientFrame :=
  [.ping [7] (.of 1 2 3 4), .binary [heartbeat 1, heartbeat 2] (.of 0 9 0 9),
    .binary [] (.of 0 0 0 0)]

theorem heartbeatFrames_handed :
    let c := ({ websocket := true } : Connection).reads (onWebSocketMessage always)
      [(framesBytes heartbeatFrames).take 9, (framesBytes heartbeatFrames).drop 9]
    c.handed = [heartbeat 1, heartbeat 2] ∧ c.handed =
        (({} : Connection).reads (onTcpMessage always)
          [packetBytes (heartbeat 1) ++ packetBytes (heartbeat 2)]).handed ∧
      c.sent = [encodeFrame .pong [7] none] ∧ c.connected = true := by
  have hvalid : ∀ frame ∈ heartbeatFrames, frame.Valid := by decide +kernel
  have hnative : encodeStream (heartbeatFrames.flatMap ClientFrame.packets) =
      .ok [packetBytes (heartbeat 1) ++ packetBytes (heartbeat 2)].flatten := by
    decide +kernel
  exact websocket_stream_packets hvalid (by simp) hnative

end NebulaIM.Gateway
