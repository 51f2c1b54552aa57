import NebulaIM.Gateway.Frames

/-!
# Refused packets

What happens to a stream of packets when the rate limiter refuses some of them.
The native loop throws the rest of its buffer away, the loop over the frames
leaves it where it is; either way a refused packet stops the serving of what
the same read has brought behind it.
-/

namespace NebulaIM.Gateway

open NebulaIM.Protocol
open Foundation.Framing
open Foundation.Wire (Bytes)

variable {packets : List Packet} {c : Connection} {chunk : Bytes} {chunks : List Bytes}
variable {allow : Nat → Bool}

/-! ## Serving up to the first refused packet -/

theorem served_append (asked : Nat) (packets more : List Packet) :
    served allow asked (packets ++ more) =
      if (served allow asked packets).2 then
        (packets ++ (served allow (asked + packets.length) more).1,
          (served allow (asked + packets.length) more).2)
      else served allow asked packets := by
  induction packets generalizing asked with
  | nil => simp [served]
  | cons packet packets ih =>
    by_cases hallow : allow asked = true
    · simp only [List.cons_append, served, hallow, if_true, ih]
      split <;> simp [Nat.add_comm, Nat.add_left_comm]
    · simp [served, hallow]

theorem served_of_all {asked : Nat} (h : (served allow asked packets).2 = true) :
    (served allow asked packets).1 = packets := by
  induction packets generalizing asked with
  | nil => rfl
  | cons packet packets ih =>
    simp only [served] at h ⊢
    split at h
    · next hallow => simp [hallow, ih h]
    · cases h

theorem served_initial (asked : Nat) (packets : List Packet) :
    (served allow asked packets).1 <+: packets := by
  induction packets generalizing asked with
  | nil => exact List.prefix_refl []
  | cons packet packets ih =>
    simp only [served]
    split
    · exact List.cons_prefix_cons.mpr ⟨rfl, ih (asked + 1)⟩
    · exact ⟨packets, rfl⟩

/-- Of the packets from `first` up to `last`, only the last one may be refused,
and only where `atEnd` holds. -/
def RefusesOnlyLast (allow : Nat → Bool) (first last : Nat) (atEnd : Prop) :
    Prop :=
  ∀ k, first ≤ k → k < last → allow k = false → k + 1 = last ∧ atEnd

theorem refusesOnlyLast_succ {first : Nat} (hallow : allow first = true)
    (last : Nat) (atEnd : Prop) :
    RefusesOnlyLast allow first last atEnd ↔ RefusesOnlyLast allow (first + 1) last atEnd := by
  constructor
  · intro h k hle hlt hrefused
    exact h k (by omega) hlt hrefused
  · intro h k hle hlt hrefused
    have hne : k ≠ first := by
      rintro rfl
      simp [hallow] at hrefused
    exact h k (by omega) hlt hrefused

theorem served_eq_iff (asked : Nat) (packets : List Packet) (atEnd : Prop) :
    ((served allow asked packets).1.length = packets.length ∧
        ((served allow asked packets).2 = false → atEnd)) ↔
      RefusesOnlyLast allow asked (asked + packets.length) atEnd := by
  induction packets generalizing asked with
  | nil =>
    simp [served, RefusesOnlyLast]
    omega
  | cons packet packets ih =>
    by_cases hallow : allow asked = true
    · have hlast : asked + (packet :: packets).length = asked + 1 + packets.length := by
        rw [List.length_cons]
        omega
      rw [refusesOnlyLast_succ hallow, hlast, ← ih (asked + 1)]
      simp [served, hallow]
    · have hrefused : allow asked = false := Bool.eq_false_iff.mpr hallow
      have hserved : served allow asked (packet :: packets) = ([packet], false) := by
        simp [served, hallow]
      rw [hserved, List.length_singleton, List.length_cons]
      constructor
      · rintro ⟨hlength, hend⟩ k hle hlt _
        exact ⟨by omega, hend rfl⟩
      · intro h
        obtain ⟨hlast, hend⟩ := h asked (by omega) (by omega) hrefused
        exact ⟨by omega, fun _ => hend⟩

/-! ## The native loop -/

/-- The native loop serves up to the first refused packet and then drops what
is left. -/
theorem onTcpMessage_served (c : Connection)
    (hrest : packetFront (packetCodec.scan c.buffer).2 = .incomplete) :
    onTcpMessage allow c = c.after allow (served allow c.asked (packetCodec.scan c.buffer).1).1
        (if (served allow c.asked (packetCodec.scan c.buffer).1).2 then
          (packetCodec.scan c.buffer).2 else []) := by
  induction hbuffer : c.buffer using Decoder.scan_induction
      (d := packetCodec.toDecoder) generalizing c with
  | @frame _ packet rest hframe ih =>
    rw [hbuffer, Decoder.scan_frame hframe] at hrest
    rw [onTcpMessage_frame (hbuffer ▸ hframe), Decoder.scan_frame hframe]
    by_cases hallow : allow c.asked = true
    · rw [if_pos hallow, ih (c.after allow [packet] rest) hrest rfl]
      simp only [served, hallow, if_true, Connection.after_cons]
      rfl
    · simp [served, hallow]
  | @stop input hstop =>
    rw [hbuffer, Decoder.scan_of_not_frame hstop] at hrest
    rw [Decoder.scan_of_not_frame hstop, onTcpMessage_incomplete (hbuffer ▸ hrest)]
    simp [served, ← hbuffer]

/-- Every packet received so far has been handed over or answered, and the
buffer holds what has come of the next one. -/
def TcpAccounted (allow : Nat → Bool) (chunks : List Bytes) : Prop :=
  ({} : Connection).reads (onTcpMessage allow) chunks =
    ({} : Connection).after allow (packetCodec.scan chunks.flatten).1
      (packetCodec.scan chunks.flatten).2

theorem after_eq_after_iff {rest : Bytes} {part : List Packet} {left : Bytes}
    (hpart : part <+: packets) :
    c.after allow part left = c.after allow packets rest ↔
      part.length = packets.length ∧ left = rest := by
  constructor
  · intro h
    obtain ⟨hbuffer, -, -, hasked, -⟩ := Connection.mk.inj h
    exact ⟨by omega, hbuffer⟩
  · rintro ⟨hlength, rfl⟩
    rw [hpart.eq_of_length hlength]

theorem read_served (hconnected : c.connected = true)
    (hrest : packetFront (packetCodec.scan (c.buffer ++ chunk)).2 = .incomplete) :
    c.read (onTcpMessage allow) chunk =
      c.after allow (served allow c.asked (packetCodec.scan (c.buffer ++ chunk)).1).1
        (if (served allow c.asked (packetCodec.scan (c.buffer ++ chunk)).1).2 then
          (packetCodec.scan (c.buffer ++ chunk)).2 else []) := by
  rw [Connection.read, if_pos hconnected]
  exact onTcpMessage_served _ hrest

theorem tcpAccounted_snoc (hchunks : TcpAccounted allow chunks)
    (hrest : packetFront (packetCodec.scan (chunks.flatten ++ chunk)).2 = .incomplete) :
    TcpAccounted allow (chunks ++ [chunk]) ↔
      RefusesOnlyLast allow (packetCodec.scan chunks.flatten).1.length
        (packetCodec.scan (chunks.flatten ++ chunk)).1.length
        ((packetCodec.scan (chunks.flatten ++ chunk)).2 = []) := by
  rw [TcpAccounted, reads_snoc, hchunks, List.flatten_append, List.flatten_singleton]
  rw [Decoder.scan_append] at hrest ⊢
  generalize packetCodec.scan chunks.flatten = before at hrest ⊢
  obtain ⟨packets, kept⟩ := before
  rw [read_served rfl hrest, Connection.after_append]
  have hbuffer : (({} : Connection).after allow packets kept).buffer = kept := rfl
  have hasked : (({} : Connection).after allow packets kept).asked = packets.length :=
    Nat.zero_add _
  simp only [hbuffer, hasked]
  obtain ⟨more, rest⟩ := packetCodec.scan (kept ++ chunk)
  have hinitial : (served allow packets.length more).1 <+: more := served_initial _ _
  rw [after_eq_after_iff ((List.prefix_append_right_inj packets).mpr hinitial),
    List.length_append, List.length_append, ← served_eq_iff]
  constructor
  · rintro ⟨hlength, hleft⟩
    refine ⟨by omega, fun hstop => ?_⟩
    simpa [hstop] using hleft.symm
  · rintro ⟨hlength, hleft⟩
    refine ⟨by omega, ?_⟩
    split
    · rfl
    · next hstop => exact (hleft (by simpa using hstop)).symm

/-! ## The loop over the frames -/

/-- A binary frame that holds whole packets. -/
def BinaryFrame (frame : WebSocketFrame) : Prop :=
  frame.opcode = .binary ∧ (packetCodec.scan frame.payload).2 = []

/-- The packets in the frames at the front of the bytes. -/
def packetsInFrames (bytes : Bytes) : List Packet :=
  (frameDecoder.scan bytes).1.flatMap framePackets

theorem packetsInFrames_append (bytes more : Bytes) : packetsInFrames (bytes ++ more) =
      packetsInFrames bytes ++ packetsInFrames ((frameDecoder.scan bytes).2 ++ more) := by
  simp only [packetsInFrames]
  rw [Decoder.scan_append, List.flatMap_append]

theorem onWebSocketMessage_binaryFrame {frame : WebSocketFrame} {rest : Bytes}
    (hfront : frameDecoder.front c.buffer = .frame frame rest) (hbinary : BinaryFrame frame) :
    onWebSocketMessage allow c =
      if (served allow c.asked (framePackets frame)).2 then
        onWebSocketMessage allow (c.after allow (framePackets frame) rest)
      else
        c.after allow (served allow c.asked (framePackets frame)).1 rest := by
  rw [onWebSocketMessage_frame hfront]
  simp only [hbinary.1]
  rw [handleBinaryFrame_whole hbinary.2, framePackets, if_pos hbinary.1]
  by_cases hall : (served allow c.asked (packetCodec.scan frame.payload).1).2 = true
  · simp only [hall, if_true, served_of_all hall]
    rfl
  · simp only [hall]
    rfl

/-- The loop over the frames serves up to the first refused packet; the frames
behind it stay in the buffer. -/
theorem onWebSocketMessage_served (c : Connection)
    (hbinary : ∀ frame ∈ (frameDecoder.scan c.buffer).1, BinaryFrame frame)
    (hrest : frameDecoder.front (frameDecoder.scan c.buffer).2 = .incomplete) :
    ∃ left, onWebSocketMessage allow c =
        c.after allow (served allow c.asked (packetsInFrames c.buffer)).1 left ∧
      (frameDecoder.scan left).2 = (frameDecoder.scan c.buffer).2 ∧
      (frameDecoder.scan left).1 <:+ (frameDecoder.scan c.buffer).1 ∧
      ((served allow c.asked (packetsInFrames c.buffer)).1.length =
          (packetsInFrames c.buffer).length → packetsInFrames left = []) := by
  induction hbuffer : c.buffer using Decoder.scan_induction (d := frameDecoder) generalizing c with
  | @frame input frame rest hframe ih =>
    rw [hbuffer, Decoder.scan_frame hframe] at hbinary hrest
    obtain ⟨hfirst, hothers⟩ := List.forall_mem_cons.mp hbinary
    rw [onWebSocketMessage_binaryFrame (hbuffer ▸ hframe) hfirst]
    have hpackets : packetsInFrames input = framePackets frame ++ packetsInFrames rest := by
      rw [packetsInFrames, Decoder.scan_frame hframe]
      rfl
    rw [hpackets, Decoder.scan_frame hframe, served_append]
    by_cases hgo : (served allow c.asked (framePackets frame)).2 = true
    · obtain ⟨left, hrun, hkept, hwaiting, hall⟩ :=
        ih (c.after allow (framePackets frame) rest) hothers hrest rfl
      simp only [hgo, if_true]
      refine ⟨left, ?_, hkept, hwaiting.trans (List.suffix_cons ..), ?_⟩
      · rw [hrun, Connection.after_append]
        rfl
      · intro hlength
        apply hall
        simp only [List.length_append] at hlength
        exact Nat.add_left_cancel hlength
    · -- the frame is given up at the refused packet, the others wait
      simp only [hgo]
      refine ⟨rest, rfl, rfl, List.suffix_cons .., ?_⟩
      intro hlength
      have hinitial : (served allow c.asked (framePackets frame)).1 <+:
          framePackets frame := served_initial _ _
      have hle := hinitial.length_le
      simp only [Bool.false_eq_true, if_false, List.length_append] at hlength
      exact List.length_eq_zero_iff.mp (by omega)
  | @stop input hstop =>
    rw [hbuffer, Decoder.scan_of_not_frame hstop] at hrest
    refine ⟨input, ?_, rfl, List.suffix_refl _, ?_⟩
    · rw [onWebSocketMessage_incomplete (hbuffer ▸ hrest), packetsInFrames,
        Decoder.scan_of_not_frame hstop, ← hbuffer]
      simp [served]
    · intro _
      rw [packetsInFrames, Decoder.scan_of_not_frame hstop]
      rfl

theorem readFrames_served (hconnected : c.connected = true)
    (hbinary : ∀ frame ∈ (frameDecoder.scan (c.buffer ++ chunk)).1, BinaryFrame frame)
    (hrest : frameDecoder.front (frameDecoder.scan (c.buffer ++ chunk)).2 = .incomplete) :
    ∃ left, c.read (onWebSocketMessage allow) chunk = c.after allow
          (served allow c.asked (packetsInFrames (c.buffer ++ chunk))).1 left ∧
      (frameDecoder.scan left).2 = (frameDecoder.scan (c.buffer ++ chunk)).2 ∧
      (frameDecoder.scan left).1 <:+ (frameDecoder.scan (c.buffer ++ chunk)).1 ∧
      ((served allow c.asked (packetsInFrames (c.buffer ++ chunk))).1.length =
          (packetsInFrames (c.buffer ++ chunk)).length →
        packetsInFrames left = []) := by
  rw [Connection.read, if_pos hconnected]
  exact onWebSocketMessage_served { c with buffer := c.buffer ++ chunk } hbinary hrest

/-- Every packet in a frame received so far has been handed over or answered,
none waits in the buffer, and the framing is kept. -/
def WebSocketAccounted (allow : Nat → Bool) (chunks : List Bytes) : Prop :=
  let c := ({ websocket := true } : Connection).reads (onWebSocketMessage allow) chunks
  c = ({ websocket := true } : Connection).after allow (packetsInFrames chunks.flatten) c.buffer ∧
    packetsInFrames c.buffer = [] ∧
    (frameDecoder.scan c.buffer).2 = (frameDecoder.scan chunks.flatten).2

theorem webSocketAccounted_snoc (hchunks : WebSocketAccounted allow chunks)
    (hwaiting : ∀ frame ∈ (frameDecoder.scan
      (({ websocket := true } : Connection).reads
        (onWebSocketMessage allow) chunks).buffer).1, BinaryFrame frame)
    (hbinary : ∀ frame ∈ (frameDecoder.scan (chunks.flatten ++ chunk)).1,
      BinaryFrame frame) (hrest : frameDecoder.front
      (frameDecoder.scan (chunks.flatten ++ chunk)).2 = .incomplete) :
    (WebSocketAccounted allow (chunks ++ [chunk]) ↔
      RefusesOnlyLast allow (packetsInFrames chunks.flatten).length
        (packetsInFrames (chunks.flatten ++ chunk)).length True) ∧
    ∀ frame ∈ (frameDecoder.scan
      (({ websocket := true } : Connection).reads
        (onWebSocketMessage allow) (chunks ++ [chunk])).buffer).1,
      BinaryFrame frame := by
  rw [WebSocketAccounted] at hchunks
  rw [WebSocketAccounted, reads_snoc]
  generalize ({ websocket := true } : Connection).reads
    (onWebSocketMessage allow) chunks = c at hchunks hwaiting ⊢
  obtain ⟨hc, hnone, hkept⟩ := hchunks
  have hconnected : c.connected = true := by rw [hc]; rfl
  have hasked : c.asked = (packetsInFrames chunks.flatten).length := by
    rw [hc]
    exact Nat.zero_add _
  -- the buffer and the stream end in the same beginning of a frame
  have hscan := Decoder.scan_append (d := frameDecoder) c.buffer chunk
  rw [hkept] at hscan
  rw [Decoder.scan_append] at hbinary hrest
  have hall : ∀ frame ∈ (frameDecoder.scan (c.buffer ++ chunk)).1,
      BinaryFrame frame := by
    rw [hscan]
    exact List.forall_mem_append.mpr ⟨hwaiting, (List.forall_mem_append.mp hbinary).2⟩
  obtain ⟨left, hrun, hleft, hsuffix, hnothing⟩ :=
    readFrames_served hconnected hall (by rw [hscan]; exact hrest)
  have hpackets : packetsInFrames (c.buffer ++ chunk) =
      packetsInFrames ((frameDecoder.scan chunks.flatten).2 ++ chunk) := by
    rw [packetsInFrames_append, hnone, hkept, List.nil_append]
  rw [hpackets, hasked] at hrun hnothing
  generalize hmore : packetsInFrames
    ((frameDecoder.scan chunks.flatten).2 ++ chunk) = more at hrun hnothing
  have hinitial : (served allow (packetsInFrames chunks.flatten).length more).1 <+: more :=
    served_initial _ _
  rw [hc, Connection.after_append, ← hc] at hrun
  rw [hrun]
  constructor
  · rw [List.flatten_append, List.flatten_singleton, packetsInFrames_append, hmore,
      List.length_append, ← served_eq_iff, Decoder.scan_append,
      Connection.after_buffer, hleft, hscan,
      after_eq_after_iff ((List.prefix_append_right_inj _).mpr hinitial),
      List.length_append, List.length_append]
    constructor
    · rintro ⟨⟨hlength, _⟩, _⟩
      exact ⟨by omega, fun _ => trivial⟩
    · rintro ⟨hlength, _⟩
      exact ⟨⟨by omega, rfl⟩, hnothing hlength, rfl⟩
  · intro frame hframe
    exact hall frame (hsuffix.subset hframe)

/-! ## Whole streams -/

theorem flatten_snoc_initial {reads : List Bytes} {stream : Bytes}
    (hchunks : chunks.flatten <+: stream) (hreads : reads ++ [chunk] <+: chunks) :
    reads.flatten ++ chunk <+: stream := by
  obtain ⟨later, rfl⟩ := hreads
  refine List.IsPrefix.trans ?_ hchunks
  simp

theorem tcpAccounted_nil : TcpAccounted allow [] := by
  rw [TcpAccounted, List.flatten_nil, Decoder.scan_nil]
  exact (Connection.after_nil {}).symm

theorem tcpAccounted_iff (hcan : ∀ packet ∈ packets, CanEncode packet)
    (hchunks : chunks.flatten <+: packetCodec.encodeAll packets) :
    (∀ reads, reads <+: chunks → TcpAccounted allow reads) ↔
      ∀ reads chunk, reads ++ [chunk] <+: chunks →
        RefusesOnlyLast allow (packetCodec.scan reads.flatten).1.length
          (packetCodec.scan (reads.flatten ++ chunk)).1.length
          ((packetCodec.scan (reads.flatten ++ chunk)).2 = []) := by
  refine @forall_prefix_iff _ _ (TcpAccounted allow) (TcpAccounted allow) _ tcpAccounted_nil id ?_
  intro reads chunk hreads haccounted
  obtain ⟨more, hmore⟩ := flatten_snoc_initial hchunks hreads
  have hscan := scan_encodeAll_nil hcan
  rw [← hmore] at hscan
  have hstep := tcpAccounted_snoc haccounted (Decoder.scan_part hscan).1
  exact ⟨hstep.mp, hstep.mpr⟩

/-- The frames that wait in the buffer are binary frames. -/
def WaitingBinary (allow : Nat → Bool) (chunks : List Bytes) : Prop :=
  ∀ frame ∈ (frameDecoder.scan (({ websocket := true } : Connection).reads
    (onWebSocketMessage allow) chunks).buffer).1, BinaryFrame frame

theorem webSocketAccounted_nil : WebSocketAccounted allow [] ∧ WaitingBinary allow [] := by
  have hnone : packetsInFrames [] = [] := by
    rw [packetsInFrames, Decoder.scan_nil]
    rfl
  refine ⟨⟨?_, hnone, rfl⟩, ?_⟩
  · rw [List.flatten_nil, hnone]
    exact (Connection.after_nil _).symm
  · intro frame hframe
    have hscan : frameDecoder.scan [] = ([], []) := Decoder.scan_nil
    change frame ∈ (frameDecoder.scan []).1 at hframe
    rw [hscan] at hframe
    cases hframe

theorem webSocketAccounted_iff {frames : List ClientFrame}
    (hvalid : ∀ frame ∈ frames, frame.Valid ∧ frame.opcode = .binary)
    (hchunks : chunks.flatten <+: framesBytes frames) :
    (∀ reads, reads <+: chunks → WebSocketAccounted allow reads) ↔
      ∀ reads chunk, reads ++ [chunk] <+: chunks →
        RefusesOnlyLast allow (packetsInFrames reads.flatten).length
          (packetsInFrames (reads.flatten ++ chunk)).length True := by
  refine @forall_prefix_iff _ _ (WebSocketAccounted allow)
    (fun reads => WebSocketAccounted allow reads ∧ WaitingBinary allow reads) _
    webSocketAccounted_nil And.left ?_
  rintro reads chunk hreads ⟨haccounted, hwaiting⟩
  obtain ⟨more, hmore⟩ := flatten_snoc_initial hchunks hreads
  have hscan := scan_framesBytes fun frame hframe => (hvalid frame hframe).1
  rw [← hmore] at hscan
  obtain ⟨hrest, hframes, _⟩ := Decoder.scan_part hscan
  have hbinary : ∀ frame ∈ (frameDecoder.scan (reads.flatten ++ chunk)).1,
      BinaryFrame frame := by
    intro frame hframe
    have hmem : frame ∈ frames.map ClientFrame.received := by
      rw [hframes]
      exact List.mem_append_left _ hframe
    obtain ⟨source, hsource, rfl⟩ := List.mem_map.mp hmem
    obtain ⟨hsourceValid, hopcode⟩ := hvalid source hsource
    refine ⟨hopcode, ?_⟩
    rcases ClientFrame.wholeFrame_received hsourceValid with hwhole | hping | hpong
    · exact hwhole.2
    · cases hopcode.symm.trans hping
    · cases hopcode.symm.trans hpong
  obtain ⟨hstep, hbinary'⟩ := webSocketAccounted_snoc haccounted hwaiting hbinary hrest
  exact ⟨hstep.mp, fun hlast => ⟨hstep.mpr hlast, hbinary'⟩⟩

/-- What the verdicts of the rate limiter do to a stream of packets.  On either
transport every packet is accounted for after every read exactly if a read
brings nothing behind a refused packet: no further byte on the native transport,
no further packet on WebSocket. -/
theorem packets_accounted_iff (allow : Nat → Bool) :
    (∀ packets stream chunks, encodeStream packets = .ok stream → chunks.flatten <+: stream →
      ((∀ reads, reads <+: chunks → TcpAccounted allow reads) ↔
        ∀ reads chunk, reads ++ [chunk] <+: chunks →
          RefusesOnlyLast allow (packetCodec.scan reads.flatten).1.length
            (packetCodec.scan (reads.flatten ++ chunk)).1.length
            ((packetCodec.scan (reads.flatten ++ chunk)).2 = []))) ∧
    ∀ (frames : List ClientFrame) chunks, (∀ frame ∈ frames, frame.Valid ∧ frame.opcode = .binary) →
      chunks.flatten <+: framesBytes frames →
      ((∀ reads, reads <+: chunks → WebSocketAccounted allow reads) ↔
        ∀ reads chunk, reads ++ [chunk] <+: chunks →
          RefusesOnlyLast allow (packetsInFrames reads.flatten).length
            (packetsInFrames (reads.flatten ++ chunk)).length True) := by
  constructor
  · intro packets stream chunks hencode hchunks
    obtain ⟨hcan, rfl⟩ := (encodeStream_eq_ok_iff packets stream).mp hencode
    exact tcpAccounted_iff hcan hchunks
  · intro frames chunks hvalid hchunks
    exact webSocketAccounted_iff hvalid hchunks

/-- The rate limiter refuses the first packet only. -/
def refusesFirst (asked : Nat) : Bool := asked != 0

/-- A refused heartbeat in a read of its own is answered. -/
theorem loneHeartbeat_accounted : ∀ reads, reads <+: [packetBytes (heartbeat 1)] →
      TcpAccounted refusesFirst reads := by
  have hencode : encodeStream [heartbeat 1] = .ok [packetBytes (heartbeat 1)].flatten := by
    decide +kernel
  have hscan : packetCodec.scan (packetBytes (heartbeat 1)) = ([heartbeat 1], []) := by
    decide +kernel
  refine ((packets_accounted_iff refusesFirst).1 _ _ _ hencode (List.prefix_refl _)).mpr ?_
  intro reads chunk hreads
  obtain rfl : reads = [] := by
    have hlength := hreads.length_le
    simpa using hlength
  obtain rfl : chunk = packetBytes (heartbeat 1) := by
    simpa using hreads
  intro k _ hlt _
  simp only [List.flatten_nil, List.nil_append, hscan, List.length_singleton] at hlt ⊢
  exact ⟨by omega, trivial⟩

/-- Two heartbeats in one read: the second is thrown away with the first. -/
theorem heartbeatBehindRefused_lost : encodeStream [heartbeat 1, heartbeat 2] =
        .ok (packetBytes (heartbeat 1) ++ packetBytes (heartbeat 2)) ∧
      ({} : Connection).reads (onTcpMessage refusesFirst)
          [packetBytes (heartbeat 1) ++ packetBytes (heartbeat 2)] =
        { asked := 1
          log := [.decoded (heartbeat 1), .send (packetBytes (rateLimitedResponse 1))] } ∧
      ¬ TcpAccounted refusesFirst [packetBytes (heartbeat 1) ++ packetBytes (heartbeat 2)] := by
  unfold TcpAccounted
  decide +kernel

end NebulaIM.Gateway
