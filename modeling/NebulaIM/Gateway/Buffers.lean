import NebulaIM.Gateway.Detection
import NebulaIM.Protocol.Canonical
import Mathlib.Data.List.Infix

/-!
# What waits in the input buffer

After an upgrade the loop of `onWebSocketMessage` leaves the beginning of the next
frame in the input buffer, and all the frames behind a refused packet.  The first is
as long as its header declares, the second has no bound.
-/

namespace NebulaIM.Gateway

open NebulaIM.Protocol
open Foundation.Framing
open Foundation.Wire (Bytes)

variable {masked : Bool} {input rest : Bytes} {b1 : UInt8}

/-- The payload length that the frame at the front of `data` declares, as far as its
header is there. -/
def declaredLength : Bytes → Nat
  | _ :: b1 :: data =>
    if data.length < extendedLength b1 then 0
    else spelledLength b1 (data.take (extendedLength b1))
  | _ => 0

/-- Each frame that the stream begins declares at most `limit` bytes of payload. -/
def DeclaresAtMost (limit : Nat) (stream : Bytes) : Prop :=
  ∀ part, part <+: stream → declaredLength (frameDecoder.scan part).2 ≤ limit

/-! ## The beginning of a frame -/

theorem run_decodeMaskKey_incomplete
    (h : (decodeMaskKey masked).run input = .incomplete) : input.length < 4 := by
  cases masked with
  | false => cases h
  | true =>
    match input with
    | [] | [_] | [_, _] | [_, _, _] => simp
    | _ :: _ :: _ :: _ :: _ => cases h

theorem length_run_decodeMaskKey {key : MaskKey}
    (h : (decodeMaskKey masked).run input = .frame key rest) :
    input.length ≤ rest.length + 4 := by
  cases masked with
  | false =>
    cases h
    omega
  | true =>
    rw [run_decodeMaskKey_eq_frame h]
    simp [Nat.add_comm]

theorem extendedLength_le (b1 : UInt8) : extendedLength b1 ≤ 8 := by
  unfold extendedLength
  split_ifs <;> omega

theorem run_decodePayloadLength_incomplete
    (h : (decodePayloadLength (b1 &&& 0x7F)).run input = .incomplete) :
    input.length < extendedLength b1 := by
  unfold decodePayloadLength at h
  unfold extendedLength
  by_cases h126 : (b1 &&& 0x7F).toNat = 126
  · rw [if_pos h126] at h ⊢
    obtain hshort | ⟨_, _, _, hret⟩ := Parser.run_bind_eq_incomplete h
    · exact Parser.run_take_eq_incomplete hshort
    · cases hret
  · rw [if_neg h126] at h ⊢
    by_cases h127 : (b1 &&& 0x7F).toNat = 127
    · rw [if_pos h127] at h ⊢
      obtain hshort | ⟨_, _, _, hret⟩ := Parser.run_bind_eq_incomplete h
      · exact Parser.run_take_eq_incomplete hshort
      · split at hret <;> cases hret
    · rw [if_neg h127] at h
      cases h

theorem declaredLength_eq {b0 : UInt8} {extended : Bytes}
    (h : extended.length = extendedLength b1) :
    declaredLength (b0 :: b1 :: (extended ++ rest)) = spelledLength b1 extended := by
  rw [declaredLength, if_neg (by simp [h]), ← h, List.take_left]

theorem run_decodeFrameBody_incomplete {opcode : WebSocketOpCode}
    (h : (decodeFrameBody opcode masked (b1 &&& 0x7F)).run input = .incomplete)
    (b0 : UInt8) : input.length ≤ declaredLength (b0 :: b1 :: input) + 11 := by
  have hle := extendedLength_le b1
  obtain hshort | ⟨length, middle, hlength, hbody⟩ := Parser.run_bind_eq_incomplete h
  · have hlt := run_decodePayloadLength_incomplete hshort
    omega
  · obtain ⟨extended, rfl, hextended, hspelled⟩ := run_decodePayloadLength_eq_frame hlength
    rw [declaredLength_eq hextended, hspelled, List.length_append, hextended]
    split at hbody
    · cases hbody
    · obtain hshort | ⟨key, rest, hkey, hpayload⟩ := Parser.run_bind_eq_incomplete hbody
      · have hlt := run_decodeMaskKey_incomplete hshort
        omega
      · have hmask := length_run_decodeMaskKey hkey
        obtain hshort | ⟨_, _, _, hret⟩ := Parser.run_bind_eq_incomplete hpayload
        · have hlt := Parser.run_take_eq_incomplete hshort
          omega
        · cases hret

theorem length_of_incomplete {data : Bytes} (h : frameDecoder.front data = .incomplete) :
    data.length ≤ declaredLength data + 13 := by
  match data with
  | [] | [_] => simp
  | b0 :: b1 :: input =>
    rw [frameDecoder, codecFrames, Parser.toDecoder_front_cons] at h
    obtain hshort | ⟨second, middle, hnext, hchecked⟩ := Parser.run_bind_eq_incomplete h
    · cases hshort
    · cases hnext
      split at hchecked
      · cases hchecked
      · dsimp only at hchecked
        split_ifs at hchecked
        · cases hchecked
        · cases hchecked
        · cases hchecked
        have hbody := run_decodeFrameBody_incomplete hchecked b0
        simp only [List.length_cons]
        omega

/-! ## One call -/

section Calls

variable {allow : Nat → Bool}

theorem handleBinaryFrame_continues (hallow : ∀ n, allow n = true) (c : Connection)
    (packetBuffer : Bytes) :
    (handleBinaryFrame allow c packetBuffer).1 = true ∨
      (handleBinaryFrame allow c packetBuffer).2.connected = false := by
  fun_induction handleBinaryFrame allow c packetBuffer with
  | case1 _ _ _ _ _ _ _ _ ih => exact ih
  | case2 c _ _ packet _ _ verdict hrefused =>
    refine absurd ?_ hrefused
    simp [verdict, allowPacket, hallow]
  | case3 => exact .inl rfl
  | case4 => exact .inr rfl
  | case5 => exact .inl rfl

theorem onWebSocketMessage_pending (hallow : ∀ n, allow n = true) (c : Connection)
    (hopen : (onWebSocketMessage allow c).connected = true) :
    (onWebSocketMessage allow c).buffer = (frameDecoder.scan c.buffer).2 ∧
      frameDecoder.front (onWebSocketMessage allow c).buffer = .incomplete := by
  fun_induction onWebSocketMessage allow c with
  | case1 c _ hfront =>
    rw [Decoder.scan_of_not_frame (by simp [hfront])]
    exact ⟨rfl, hfront⟩
  | case2 => cases hopen
  | case3 c _ frame rest hfront _ _ ih | case4 c _ frame rest hfront _ _ ih =>
    rw [Decoder.scan_frame hfront]
    exact ih hopen
  | case5 => cases hopen
  | case6 c _ frame rest hfront _ _ outcome _ ih =>
    rw [Decoder.scan_frame hfront]
    have hbuffer : outcome.2.buffer = rest := handleBinaryFrame_buffer allow ..
    rw [← hbuffer]
    exact ih hopen
  | case7 c _ frame rest hfront _ _ outcome hstops =>
    have hclosed := (handleBinaryFrame_continues hallow _ _).resolve_left hstops
    rw [hclosed] at hopen
    cases hopen
  | case8 => cases hopen
  | case9 c hempty =>
    have hnil : c.buffer = [] := List.eq_nil_of_length_eq_zero (by omega)
    rw [hnil, Decoder.scan_nil]
    exact ⟨rfl, frameDecoder.front_nil⟩

/-! ## Whole streams -/

variable {computeAcceptKey : Bytes → Bytes}

theorem onMessage_keeps_websocket {c : Connection} (h : c.websocket = true) :
    (onMessage allow computeAcceptKey c).websocket = true := by
  rw [onMessage_websocket h, onWebSocketMessage_websocket, h]

theorem reads_pending (hallow : ∀ n, allow n = true) {c : Connection}
    (hwebsocket : c.websocket = true) (hbuffer : c.buffer = []) (chunks : List Bytes) :
    (c.reads (onMessage allow computeAcceptKey) chunks).websocket = true ∧
      ((c.reads (onMessage allow computeAcceptKey) chunks).connected = true →
        (c.reads (onMessage allow computeAcceptKey) chunks).buffer =
            (frameDecoder.scan chunks.flatten).2 ∧
          frameDecoder.front
            (c.reads (onMessage allow computeAcceptKey) chunks).buffer = .incomplete) := by
  induction chunks using List.reverseRecOn with
  | nil =>
    refine ⟨hwebsocket, fun _ => ?_⟩
    rw [List.flatten_nil, Decoder.scan_nil]
    change c.buffer = [] ∧ frameDecoder.front c.buffer = .incomplete
    rw [hbuffer]
    exact ⟨rfl, frameDecoder.front_nil⟩
  | append_singleton chunks chunk ih =>
    rw [reads_snoc, flatten_snoc, Decoder.scan_append]
    generalize c.reads (onMessage allow computeAcceptKey) chunks = before at ih ⊢
    obtain ⟨hsocket, hpending⟩ := ih
    unfold Connection.read
    by_cases hconnected : before.connected = true
    · rw [if_pos hconnected]
      have hfill : (before.fill chunk).websocket = true := hsocket
      refine ⟨onMessage_keeps_websocket hfill, fun hopen => ?_⟩
      rw [onMessage_websocket hfill] at hopen ⊢
      rw [← (hpending hconnected).1]
      exact onWebSocketMessage_pending hallow (before.fill chunk) hopen
    · rw [if_neg hconnected]
      exact ⟨hsocket, fun hopen => absurd hopen hconnected⟩

/--
As long as an upgraded connection is open and no packet of it is refused, its input
buffer holds at most 13 bytes more than the largest payload length that the client has
declared.
-/
theorem webSocket_buffer_bounded (limit : Nat) {allow : Nat → Bool}
    (hallow : ∀ n, allow n = true) (computeAcceptKey : Bytes → Bytes) {c : Connection}
    (hwebsocket : c.websocket = true) (hbuffer : c.buffer = []) {chunks : List Bytes}
    (hdeclares : DeclaresAtMost limit chunks.flatten) (reads : List Bytes)
    (hreads : reads <+: chunks)
    (hopen : (c.reads (onMessage allow computeAcceptKey) reads).connected = true) :
    (c.reads (onMessage allow computeAcceptKey) reads).buffer.length ≤ limit + 13 := by
  obtain ⟨hpending, hfront⟩ := (reads_pending hallow hwebsocket hbuffer reads).2 hopen
  obtain ⟨later, rfl⟩ := hreads
  have hdeclared := hdeclares reads.flatten
    (by rw [List.flatten_append]; exact List.prefix_append _ _)
  have hlength := length_of_incomplete hfront
  rw [← hpending] at hdeclared
  omega

end Calls

/-! A heartbeat in a binary frame, and the header of a frame that declares a payload of
`2 ^ 62` bytes. -/

def heartbeatFrame : Bytes :=
  encodeFrame .binary (packetBytes (heartbeat 1)) (some (MaskKey.of 1 2 3 4))

def hugeHeader : Bytes := [0x82, 0xFF, 0x40, 0, 0, 0, 0, 0, 0, 0, 1, 2, 3, 4]

theorem heartbeatFrame_bounded :
    (({ websocket := true } : Connection).reads (onMessage (fun _ => true) id)
      [heartbeatFrame.take 5]).buffer.length ≤ 20 + 13 := by
  have hdeclares : DeclaresAtMost 20 [heartbeatFrame.take 5].flatten := by
    intro part hpart
    have hparts : ∀ part ∈ [heartbeatFrame.take 5].flatten.inits,
        declaredLength (frameDecoder.scan part).2 ≤ 20 := by decide +kernel
    exact hparts part ((List.mem_inits _ _).mpr hpart)
  exact webSocket_buffer_bounded 20 (fun _ => rfl) id rfl rfl hdeclares _
    (List.prefix_refl _) (by decide +kernel)

theorem front_heartbeatFrame (rest : Bytes) : frameDecoder.front (heartbeatFrame ++ rest) =
      .frame ⟨true, .binary, true, packetBytes (heartbeat 1)⟩ rest :=
  front_encodeFrame (by decide +kernel) _ rest

theorem front_hugeHeader (h : rest.length < 2 ^ 62) :
    frameDecoder.front (hugeHeader ++ rest) = .incomplete := by
  have hlength : (decodePayloadLength 127).run
      ([0x40, 0, 0, 0, 0, 0, 0, 0] ++ (1 :: 2 :: 3 :: 4 :: rest)) =
        .frame (2 ^ 62) (1 :: 2 :: 3 :: 4 :: rest) := by
    have hextended : (Parser.take 8 : FrameParser Bytes).run
        ([0x40, 0, 0, 0, 0, 0, 0, 0] ++ (1 :: 2 :: 3 :: 4 :: rest)) =
          .frame [0x40, 0, 0, 0, 0, 0, 0, 0] (1 :: 2 :: 3 :: 4 :: rest) :=
      Parser.run_take _ rfl
    rw [decodePayloadLength, if_neg (by decide), if_pos (by decide),
      Parser.run_bind hextended, if_neg (by decide)]
    rfl
  have hkey : (decodeMaskKey true).run (1 :: 2 :: 3 :: 4 :: rest) =
      .frame (MaskKey.of 1 2 3 4) rest := rfl
  have htake : (Parser.take (2 ^ 62) : FrameParser Bytes).run rest = .incomplete := if_pos h
  change (decodeFrameBody .binary true 127).run
    ([0x40, 0, 0, 0, 0, 0, 0, 0] ++ (1 :: 2 :: 3 :: 4 :: rest)) = .incomplete
  rw [decodeFrameBody, Parser.run_bind hlength, if_neg (by decide),
    Parser.run_bind hkey]
  simp only [Bind.bind, htake]

/--
Behind one refused packet any number of bytes stay in the buffer, and any number of
bytes of a frame that declares enough of them, while the connection is open.
-/
theorem buffer_unbounded :
    (∀ bound, ∃ chunk, (({ websocket := true } : Connection).reads
        (onMessage (fun _ => false) id) [chunk]).connected = true ∧
      bound < (({ websocket := true } : Connection).reads
        (onMessage (fun _ => false) id) [chunk]).buffer.length) ∧
      (∀ bound, bound + 1 < 2 ^ 62 →
        ∃ chunk, (({ websocket := true } : Connection).reads
            (onMessage (fun _ => true) id) [chunk]).connected = true ∧
          bound < (({ websocket := true } : Connection).reads
            (onMessage (fun _ => true) id) [chunk]).buffer.length) := by
  constructor
  · intro bound
    refine ⟨heartbeatFrame ++ List.replicate (bound + 1) 0, ?_⟩
    have hfront := front_heartbeatFrame (List.replicate (bound + 1) 0)
    have hpacket : packetFront (packetBytes (heartbeat 1)) = .frame (heartbeat 1) [] :=
      (packetFront_eq_frame_iff _ _ _).mpr ⟨by decide +kernel, by simp⟩
    have hread : ({ websocket := true } : Connection).reads (onMessage (fun _ => false) id)
        [heartbeatFrame ++ List.replicate (bound + 1) 0] =
        Connection.after (fun _ => false)
          { websocket := true, buffer := List.replicate (bound + 1) 0 } [heartbeat 1]
          (List.replicate (bound + 1) 0) := by
      change onMessage _ id { websocket := true, buffer := _ } = _
      rw [onMessage_websocket rfl, onWebSocketMessage_frame hfront]
      simp only
      rw [handleBinaryFrame_frame hpacket]
      rfl
    rw [hread]
    exact ⟨rfl, by simp⟩
  · intro bound hsmall
    refine ⟨hugeHeader ++ List.replicate (bound + 1) 0, ?_⟩
    have hfront := @front_hugeHeader (List.replicate (bound + 1) 0) (by simpa)
    have hread : ({ websocket := true } : Connection).reads (onMessage (fun _ => true) id)
        [hugeHeader ++ List.replicate (bound + 1) 0] =
        { websocket := true, buffer := hugeHeader ++ List.replicate (bound + 1) 0 } := by
      change onMessage _ id { websocket := true, buffer := _ } = _
      rw [onMessage_websocket rfl]
      exact onWebSocketMessage_incomplete hfront
    rw [hread]
    refine ⟨rfl, ?_⟩
    simp only [List.length_append, List.length_replicate]
    omega

end NebulaIM.Gateway
