import NebulaIM.Gateway.Frames

/-!
# Detection of the transport

`onMessage` looks for an HTTP request at the front of the buffer whenever it is
called, and bounds the head of the request only while its end is missing.  This
file compares that with the decision it stands for: the transport is chosen
once, from the first bytes of the stream.
-/

namespace NebulaIM.Gateway

open NebulaIM.Protocol
open Foundation.Framing
open Foundation.Wire (Bytes)

/-! ## The head of a request -/

theorem startsWithGet_iff (bytes : Bytes) : startsWithGet bytes = true ↔ lit "GET " <+: bytes := by
  have hlength : (lit "GET ").length = 4 := by decide +kernel
  rw [startsWithGet, Bool.and_eq_true, decide_eq_true_eq, beq_iff_eq,
    List.prefix_iff_eq_take, hlength]
  constructor
  · exact fun h => h.2.symm
  · intro h
    refine ⟨?_, h.symm⟩
    have := congrArg List.length h
    rw [hlength, List.length_take] at this
    omega

theorem startsWithGet_append {bytes : Bytes} (h : startsWithGet bytes = true)
    (more : Bytes) : startsWithGet (bytes ++ more) = true := by
  rw [startsWithGet_iff] at h ⊢
  exact h.trans (List.prefix_append bytes more)

theorem startsWithGet_of_append {bytes more : Bytes}
    (h : startsWithGet (bytes ++ more) = true) (hlong : 4 ≤ bytes.length) :
    startsWithGet bytes = true := by
  simp only [startsWithGet, Bool.and_eq_true, decide_eq_true_eq, beq_iff_eq] at h ⊢
  rw [List.take_append_of_le_length hlong] at h
  exact ⟨hlong, h.2⟩

variable {pos : Nat}

theorem findHeadEnd_le {bytes : Bytes}
    (h : findHeadEnd bytes = some pos) : pos + 4 ≤ bytes.length := by
  induction bytes generalizing pos with
  | nil => simp [findHeadEnd] at h
  | cons byte rest ih =>
    rw [findHeadEnd] at h
    split at h
    · next hend =>
      cases h
      have := congrArg List.length hend
      rw [List.length_take] at this
      simp only [List.length_cons, List.length_nil] at this ⊢
      omega
    · obtain ⟨found, hfound, rfl⟩ := Option.map_eq_some_iff.mp h
      have := ih hfound
      rw [List.length_cons]
      omega

theorem findHeadEnd_append {bytes : Bytes} (h : findHeadEnd bytes = some pos) (more : Bytes) :
    findHeadEnd (bytes ++ more) = some pos := by
  induction bytes generalizing pos with
  | nil => simp [findHeadEnd] at h
  | cons byte rest ih =>
    have hlong := findHeadEnd_le h
    have htake : ((byte :: rest) ++ more).take 4 = (byte :: rest).take 4 :=
      List.take_append_of_le_length (by omega)
    rw [findHeadEnd] at h
    rw [List.cons_append, findHeadEnd, ← List.cons_append, htake]
    split at h
    · next hend => rw [if_pos hend]; exact h
    · next hend =>
      obtain ⟨found, hfound, rfl⟩ := Option.map_eq_some_iff.mp h
      rw [if_neg hend, ih hfound]
      rfl

theorem findHeadEnd_beyond {bytes more : Bytes} (hnone : findHeadEnd bytes = none)
    (h : findHeadEnd (bytes ++ more) = some pos) : bytes.length < pos + 4 := by
  induction bytes generalizing pos with
  | nil => simp
  | cons byte rest ih =>
    rw [findHeadEnd] at hnone
    split at hnone
    · cases hnone
    · next hend =>
      rw [List.cons_append, findHeadEnd] at h
      split at h
      · next hfound =>
        cases h
        by_contra hlong
        apply hend
        rw [← hfound, ← List.cons_append, List.take_append_of_le_length (by omega)]
      · obtain ⟨found, hfound, rfl⟩ := Option.map_eq_some_iff.mp h
        have := ih (Option.map_eq_none_iff.mp hnone) hfound
        rw [List.length_cons]
        omega

/-! ## The loops keep the transport -/

variable {allow : Nat → Bool} {computeAcceptKey : Bytes → Bytes}

theorem onTcpMessage_websocket (c : Connection) :
    (onTcpMessage allow c).websocket = c.websocket := by
  induction hbuffer : c.buffer using Decoder.scan_induction
      (d := packetCodec.toDecoder) generalizing c with
  | frame hframe ih =>
    rw [onTcpMessage_frame (hbuffer ▸ hframe)]
    split
    · exact ih _ rfl
    · rfl
  | stop hstop =>
    cases hfront : packetFront c.buffer with
    | incomplete => rw [onTcpMessage_incomplete hfront]
    | bad error => rw [onTcpMessage_bad hfront]; rfl
    | frame packet rest => exact absurd (hbuffer ▸ hfront) (hstop packet rest)

theorem allowPacket_websocket (c : Connection) (sequenceId : UInt32) :
    (allowPacket allow c sequenceId).2.websocket = c.websocket := by
  simp only [allowPacket]
  split <;> rfl

theorem handleBinaryFrame_websocket (c : Connection) (packetBuffer : Bytes) :
    (handleBinaryFrame allow c packetBuffer).2.websocket = c.websocket := by
  fun_induction handleBinaryFrame allow c packetBuffer with
  | case1 _ _ _ _ _ _ _ _ ih => exact ih.trans (allowPacket_websocket ..)
  | case2 => exact allowPacket_websocket ..
  | case3 => rfl
  | case4 => rfl
  | case5 => rfl

theorem onWebSocketMessage_websocket (c : Connection) :
    (onWebSocketMessage allow c).websocket = c.websocket := by
  fun_induction onWebSocketMessage allow c with
  | case6 c _ frame rest _ _ _ outcome _ ih => exact ih.trans (handleBinaryFrame_websocket ..)
  | case7 => exact handleBinaryFrame_websocket ..
  | case3 _ _ _ _ _ _ _ ih => exact ih
  | case4 _ _ _ _ _ _ _ ih => exact ih
  | _ => rfl

/-! ## The decision -/

/-- The stream begins with a request head within the limit that
`buildServerResponse` accepts. -/
def Upgrades (computeAcceptKey : Bytes → Bytes) (stream : Bytes) : Prop :=
  startsWithGet stream = true ∧ ∃ pos, findHeadEnd stream = some pos ∧ pos + 4 ≤ maxHeadLength ∧
      (buildServerResponse computeAcceptKey (stream.take (pos + 4))).ok = true

/-- The stream begins with a request whose head exceeds the limit. -/
def Oversized (stream : Bytes) : Prop :=
  startsWithGet stream = true ∧ maxHeadLength < stream.length ∧
    ∀ pos, findHeadEnd stream = some pos → maxHeadLength < pos + 4

def detected (allow : Nat → Bool) (computeAcceptKey : Bytes → Bytes)
    (reads : List Bytes) : Connection :=
  ({} : Connection).reads (onMessage allow computeAcceptKey) reads

/-- The transport has been chosen by the beginning of the stream: WebSocket for
an acceptable request, a closed connection for an oversized one, and native
packets for whatever is no request. -/
structure DecidesOnce (allow : Nat → Bool) (computeAcceptKey : Bytes → Bytes)
    (reads : List Bytes) : Prop where
  upgrade : (detected allow computeAcceptKey reads).websocket = true ↔
    Upgrades computeAcceptKey reads.flatten
  oversized : Oversized reads.flatten → (detected allow computeAcceptKey reads).connected = false
  native : startsWithGet reads.flatten = false → detected allow computeAcceptKey reads =
      ({} : Connection).reads (onTcpMessage allow) reads

/-- The next read does not mislead the detection: behind native packets it
shows no request head, and it does not complete an acceptable head beyond the
limit. -/
def ReadsPlainly (allow : Nat → Bool) (computeAcceptKey : Bytes → Bytes)
    (reads : List Bytes) (chunk : Bytes) : Prop :=
  let c := detected allow computeAcceptKey reads
  c.connected = true → c.websocket = false →
    (startsWithGet (reads.flatten ++ chunk) = false → startsWithGet (c.buffer ++ chunk) = true →
      (c.buffer ++ chunk).length < kPacketHeaderLength ∧ findHeadEnd (c.buffer ++ chunk) = none) ∧
    (startsWithGet (reads.flatten ++ chunk) = true →
      ∀ pos, findHeadEnd (reads.flatten ++ chunk) = some pos →
        (buildServerResponse computeAcceptKey ((reads.flatten ++ chunk).take (pos + 4))).ok = true →
        pos + 4 ≤ maxHeadLength)

theorem Upgrades.append {stream : Bytes} (h : Upgrades computeAcceptKey stream)
    (more : Bytes) : Upgrades computeAcceptKey (stream ++ more) := by
  obtain ⟨hget, pos, hend, hlimit, hok⟩ := h
  refine ⟨startsWithGet_append hget more, pos, findHeadEnd_append hend more, hlimit, ?_⟩
  rwa [List.take_append_of_le_length (findHeadEnd_le hend)]

theorem not_upgrades_of_end {stream : Bytes} (hend : findHeadEnd stream = some pos)
    (hbad : (buildServerResponse computeAcceptKey (stream.take (pos + 4))).ok = false)
    (more : Bytes) : ¬ Upgrades computeAcceptKey (stream ++ more) := by
  rintro ⟨_, found, hfound, _, hok⟩
  obtain rfl : pos = found := Option.some.inj ((findHeadEnd_append hend more).symm.trans hfound)
  rw [List.take_append_of_le_length (findHeadEnd_le hend), hbad] at hok
  cases hok

theorem not_upgrades_of_long {stream : Bytes} (hnone : findHeadEnd stream = none)
    (hlong : maxHeadLength < stream.length) (more : Bytes) :
    ¬ Upgrades computeAcceptKey (stream ++ more) := by
  rintro ⟨_, pos, hpos, hlimit, _⟩
  have := findHeadEnd_beyond hnone hpos
  omega

/-- The state of the detection after these reads. -/
inductive Detection (allow : Nat → Bool) (computeAcceptKey : Bytes → Bytes)
    (reads : List Bytes) : Prop where
  | native (hget : startsWithGet reads.flatten = false)
      (htcp : detected allow computeAcceptKey reads =
        ({} : Connection).reads (onTcpMessage allow) reads)
  | waiting (hget : startsWithGet reads.flatten = true)
      (hbuffer : detected allow computeAcceptKey reads = { buffer := reads.flatten })
      (hnone : findHeadEnd reads.flatten = none)
      (hshort : reads.flatten.length ≤ maxHeadLength)
  | upgraded (hwebsocket : (detected allow computeAcceptKey reads).websocket = true)
      (hupgrades : Upgrades computeAcceptKey reads.flatten)
  | refused (hget : startsWithGet reads.flatten = true)
      (hclosed : (detected allow computeAcceptKey reads).connected = false)
      (hwebsocket : (detected allow computeAcceptKey reads).websocket = false)
      (hnever : ∀ more, ¬ Upgrades computeAcceptKey (reads.flatten ++ more))

theorem reads_tcp_websocket (reads : List Bytes) :
    (({} : Connection).reads (onTcpMessage allow) reads).websocket = false := by
  induction reads using List.reverseRecOn with
  | nil => rfl
  | append_singleton reads chunk ih =>
    rw [reads_snoc, Connection.read]
    split
    · rw [onTcpMessage_websocket]
      exact ih
    · exact ih

variable {reads : List Bytes}

theorem Detection.decidesOnce (h : Detection allow computeAcceptKey reads) :
    DecidesOnce allow computeAcceptKey reads := by
  cases h with
  | native hget htcp =>
    have hwebsocket : (detected allow computeAcceptKey reads).websocket = false := by
      rw [htcp]
      exact reads_tcp_websocket reads
    refine ⟨?_, ?_, fun _ => htcp⟩
    · simp [hwebsocket, Upgrades, hget]
    · simp [Oversized, hget]
  | waiting hget hbuffer hnone hshort =>
    refine ⟨?_, ?_, ?_⟩
    · simp [hbuffer, Upgrades, hnone]
    · rintro ⟨_, hlong, _⟩
      omega
    · simp [hget]
  | upgraded hwebsocket hupgrades =>
    have ⟨hget, pos, hend, hlimit, _⟩ := hupgrades
    refine ⟨⟨fun _ => hupgrades, fun _ => hwebsocket⟩, ?_, ?_⟩
    · rintro ⟨_, _, hbeyond⟩
      have := hbeyond pos hend
      omega
    · simp [hget]
  | refused hget hclosed hwebsocket hnever =>
    refine ⟨?_, fun _ => hclosed, ?_⟩
    · have := hnever []
      rw [List.append_nil] at this
      simp [hwebsocket, this]
    · simp [hget]

/-! ## One more read -/

variable {c : Connection}

theorem onMessage_native (hwebsocket : c.websocket = false)
    (hget : startsWithGet c.buffer = false) :
    onMessage allow computeAcceptKey c = onTcpMessage allow c := by
  simp [onMessage, hwebsocket, hget]

theorem onMessage_websocket (hwebsocket : c.websocket = true) :
    onMessage allow computeAcceptKey c = onWebSocketMessage allow c := by
  simp [onMessage, hwebsocket]

section Requests

variable (hwebsocket : c.websocket = false) (hget : startsWithGet c.buffer = true)

include hwebsocket hget

theorem onMessage_waits (hnone : findHeadEnd c.buffer = none)
    (hshort : c.buffer.length ≤ maxHeadLength) :
    onMessage allow computeAcceptKey c = c := by
  simp [onMessage, hwebsocket, hget, tryHandleWebSocketHandshake, hnone, Nat.not_lt.mpr hshort]

theorem onMessage_tooLarge (hnone : findHeadEnd c.buffer = none)
    (hlong : maxHeadLength < c.buffer.length) :
    onMessage allow computeAcceptKey c =
      (c.send (badRequestResponse .headerTooLarge)).forceClose := by
  simp [onMessage, hwebsocket, hget, tryHandleWebSocketHandshake, hnone, hlong]

theorem onMessage_accepts (hend : findHeadEnd c.buffer = some pos)
    (hok : (buildServerResponse computeAcceptKey (c.buffer.take (pos + 4))).ok = true) :
    (onMessage allow computeAcceptKey c).websocket = true := by
  simp [onMessage, hwebsocket, hget, tryHandleWebSocketHandshake, hend, hok,
    onWebSocketMessage_websocket]

theorem onMessage_refuses (hend : findHeadEnd c.buffer = some pos)
    (hbad : (buildServerResponse computeAcceptKey (c.buffer.take (pos + 4))).ok = false) :
    onMessage allow computeAcceptKey c =
      { c.send (buildServerResponse computeAcceptKey
          (c.buffer.take (pos + 4))).response with
        buffer := c.buffer.drop (pos + 4) }.forceClose := by
  simp [onMessage, hwebsocket, hget, tryHandleWebSocketHandshake, hend, hbad]

end Requests

theorem detected_snoc (reads : List Bytes) (chunk : Bytes) :
    detected allow computeAcceptKey (reads ++ [chunk]) =
      (detected allow computeAcceptKey reads).read (onMessage allow computeAcceptKey) chunk :=
  reads_snoc ..

theorem flatten_snoc (reads : List Bytes) (chunk : Bytes) :
    (reads ++ [chunk]).flatten = reads.flatten ++ chunk := by
  simp

theorem detection_request {chunk : Bytes}
    (hbuffer : detected allow computeAcceptKey reads = { buffer := reads.flatten })
    (hget : startsWithGet (reads.flatten ++ chunk) = true) :
    (DecidesOnce allow computeAcceptKey (reads ++ [chunk]) →
        ReadsPlainly allow computeAcceptKey reads chunk) ∧
      (ReadsPlainly allow computeAcceptKey reads chunk →
        Detection allow computeAcceptKey (reads ++ [chunk])) := by
  have hnext : detected allow computeAcceptKey (reads ++ [chunk]) =
      onMessage allow computeAcceptKey { buffer := reads.flatten ++ chunk } := by
    rw [detected_snoc, hbuffer]
    rfl
  have hplain (h : ∀ pos, findHeadEnd (reads.flatten ++ chunk) = some pos →
      (buildServerResponse computeAcceptKey ((reads.flatten ++ chunk).take (pos + 4))).ok = true →
      pos + 4 ≤ maxHeadLength) : ReadsPlainly allow computeAcceptKey reads chunk := by
    intro _ _
    exact ⟨fun hnot => by simp [hget] at hnot, fun _ => h⟩
  have hget' : startsWithGet (reads ++ [chunk]).flatten = true := by
    rwa [flatten_snoc]
  cases hend : findHeadEnd (reads.flatten ++ chunk) with
  | none =>
    refine ⟨fun _ => hplain (by simp [hend]), fun _ => ?_⟩
    by_cases hlong : maxHeadLength < (reads.flatten ++ chunk).length
    · have hclosed := hnext.trans (onMessage_tooLarge rfl hget hend hlong)
      refine .refused hget' (by rw [hclosed]; rfl) (by rw [hclosed]; rfl) ?_
      rw [flatten_snoc]
      exact not_upgrades_of_long hend hlong
    · have hshort := Nat.le_of_not_lt hlong
      refine .waiting hget' ?_ (by rwa [flatten_snoc]) (by rwa [flatten_snoc])
      rw [hnext, onMessage_waits rfl hget hend hshort, flatten_snoc]
  | some pos =>
    cases hok : (buildServerResponse computeAcceptKey
        ((reads.flatten ++ chunk).take (pos + 4))).ok with
    | false =>
      refine ⟨fun _ => hplain (by simp [hend, hok]), fun _ => ?_⟩
      have hclosed := hnext.trans (onMessage_refuses rfl hget hend hok)
      refine .refused hget' (by rw [hclosed]; rfl) (by rw [hclosed]; rfl) ?_
      rw [flatten_snoc]
      exact not_upgrades_of_end hend hok
    | true =>
      have hwebsocket : (detected allow computeAcceptKey (reads ++ [chunk])).websocket = true := by
        rw [hnext]
        exact onMessage_accepts rfl hget hend hok
      constructor
      · intro hdecides
        obtain ⟨_, found, hfound, hlimit, _⟩ := hdecides.upgrade.mp hwebsocket
        rw [flatten_snoc, hend] at hfound
        cases hfound
        exact hplain (by simpa [hend] using fun _ => hlimit)
      · intro hplainly
        have hlimit : pos + 4 ≤ maxHeadLength :=
          (hplainly (by rw [hbuffer]) (by rw [hbuffer])).2 hget pos hend hok
        refine .upgraded hwebsocket ?_
        rw [flatten_snoc]
        exact ⟨hget, pos, hend, hlimit, hok⟩

/-! ### Behind native packets -/

theorem reads_tcp_short (hshort : reads.flatten.length < kPacketHeaderLength) :
    ({} : Connection).reads (onTcpMessage allow) reads = { buffer := reads.flatten } := by
  induction reads using List.reverseRecOn with
  | nil => rfl
  | append_singleton reads chunk ih =>
    rw [flatten_snoc, List.length_append] at hshort
    rw [reads_snoc, ih (by omega), flatten_snoc]
    apply onTcpMessage_short
    rw [Connection.fill, List.length_append]
    exact hshort

theorem packetFront_of_get {bytes : Bytes} (hget : startsWithGet bytes = true)
    (hlong : kPacketHeaderLength ≤ bytes.length) :
    packetFront bytes = .bad .invalidMagic := by
  obtain ⟨header, rest, hheader⟩ := exists_decodeHeader hlong
  apply packetFront_of_rejected hheader
  have hmagic : header.magic ≠ kProtocolMagic := by
    intro hmagic
    have hbytes := encodeHeader_of_decodeHeader hheader
    have hhead : bytes.head? = some 0x4E := by
      rw [hbytes, encodeHeader, hmagic]
      simp only [appendUint32, List.cons_append, List.head?_cons]
      decide
    obtain ⟨more, rfl⟩ := (startsWithGet_iff bytes).mp hget
    have hfirst : (lit "GET ").head? = some 0x47 := by decide +kernel
    rw [List.head?_append, hfirst, Option.some_or] at hhead
    exact absurd hhead (by decide)
  rw [validateHeader, if_pos hmagic]

theorem response_of_not_ok {request : Bytes}
    (h : (buildServerResponse computeAcceptKey request).ok = false) :
    ∃ error, (buildServerResponse computeAcceptKey request).response =
      badRequestResponse error := by
  unfold buildServerResponse at h ⊢
  split
  · exact ⟨_, rfl⟩
  · next hparse =>
    rw [hparse] at h
    dsimp only at h ⊢
    split
    · exact ⟨_, rfl⟩
    · next hcheck => simp [hcheck] at h

theorem badRequestResponse_ne_packetBytes (error : HandshakeError)
    (packet : Packet) : badRequestResponse error ≠ packetBytes packet := by
  intro h
  have hpacket : (packetBytes packet).head? = some 0x4E := by
    simp only [packetBytes, encodeHeader, appendUint32, List.cons_append, List.head?_cons]
    decide
  have hbad : (badRequestResponse error).head? = some 0x48 := by
    cases error <;> decide +kernel
  rw [h, hpacket] at hbad
  exact absurd hbad (by decide)

theorem onMessage_ne_onTcpMessage (hconnected : c.connected = true)
    (hwebsocket : c.websocket = false) (hget : startsWithGet c.buffer = true)
    (hhead : ¬ (c.buffer.length < kPacketHeaderLength ∧ findHeadEnd c.buffer = none)) :
    onMessage allow computeAcceptKey c ≠ onTcpMessage allow c := by
  intro hsame
  have hrejected (hlong : kPacketHeaderLength ≤ c.buffer.length) :
      onTcpMessage allow c = c.rejected .invalidMagic :=
    onTcpMessage_bad (packetFront_of_get hget hlong)
  have hlog : (onTcpMessage allow c).log = c.log ∨ (onTcpMessage allow c).log = c.log ++
        [.send (packetBytes (protocolErrorResponse .invalidMagic)), .forceClose] := by
    by_cases hlong : kPacketHeaderLength ≤ c.buffer.length
    · right
      rw [hrejected hlong]
      simp [Connection.rejected, Connection.send, Connection.record, Connection.forceClose]
    · left
      rw [onTcpMessage_short (Nat.lt_of_not_le hlong)]
  have hanswered (error : HandshakeError)
      (h : (onMessage allow computeAcceptKey c).log =
        c.log ++ [.send (badRequestResponse error), .forceClose]) : False := by
    rw [hsame] at h
    rcases hlog with hquiet | herror
    · simp [hquiet] at h
    · rw [herror] at h
      simp only [List.append_cancel_left_eq, List.cons.injEq, Event.send.injEq, and_true] at h
      exact badRequestResponse_ne_packetBytes _ _ h.symm
  cases hend : findHeadEnd c.buffer with
  | none =>
    have hlong : kPacketHeaderLength ≤ c.buffer.length := by
      by_contra hshort
      exact hhead ⟨Nat.lt_of_not_le hshort, hend⟩
    by_cases hlimit : c.buffer.length ≤ maxHeadLength
    · rw [onMessage_waits hwebsocket hget hend hlimit, hrejected hlong] at hsame
      rw [hsame] at hconnected
      cases hconnected
    · apply hanswered .headerTooLarge
      rw [onMessage_tooLarge hwebsocket hget hend (Nat.lt_of_not_le hlimit)]
      simp [Connection.send, Connection.record, Connection.forceClose]
  | some pos =>
    cases hok : (buildServerResponse computeAcceptKey (c.buffer.take (pos + 4))).ok with
    | true =>
      have hupgraded : (onMessage allow computeAcceptKey c).websocket = true :=
        onMessage_accepts hwebsocket hget hend hok
      rw [hsame, onTcpMessage_websocket, hwebsocket] at hupgraded
      cases hupgraded
    | false =>
      obtain ⟨error, herror⟩ := response_of_not_ok hok
      apply hanswered error
      rw [onMessage_refuses hwebsocket hget hend hok, herror]
      simp [Connection.send, Connection.record, Connection.forceClose]

theorem detection_native {chunk : Bytes}
    (htcp : detected allow computeAcceptKey reads =
      ({} : Connection).reads (onTcpMessage allow) reads)
    (hget : startsWithGet (reads.flatten ++ chunk) = false) :
    (DecidesOnce allow computeAcceptKey (reads ++ [chunk]) →
        ReadsPlainly allow computeAcceptKey reads chunk) ∧
      (ReadsPlainly allow computeAcceptKey reads chunk →
        Detection allow computeAcceptKey (reads ++ [chunk])) := by
  have hwebsocket : (detected allow computeAcceptKey reads).websocket = false := by
    rw [htcp]
    exact reads_tcp_websocket reads
  have hnative : ({} : Connection).reads (onTcpMessage allow) (reads ++ [chunk]) =
      (detected allow computeAcceptKey reads).read (onTcpMessage allow) chunk := by
    rw [htcp]
    exact reads_snoc ..
  have hget' : startsWithGet (reads ++ [chunk]).flatten = false := by
    rwa [flatten_snoc]
  have hdetection (h : (detected allow computeAcceptKey reads).read
        (onMessage allow computeAcceptKey) chunk =
      (detected allow computeAcceptKey reads).read (onTcpMessage allow) chunk) :
      Detection allow computeAcceptKey (reads ++ [chunk]) :=
    .native hget' (((detected_snoc ..).trans h).trans hnative.symm)
  by_cases hconnected : (detected allow computeAcceptKey reads).connected = true
  · by_cases hbuffer : startsWithGet
        ((detected allow computeAcceptKey reads).buffer ++ chunk) = true
    · by_cases hhead : ((detected allow computeAcceptKey reads).buffer ++ chunk).length <
              kPacketHeaderLength ∧
            findHeadEnd ((detected allow computeAcceptKey reads).buffer ++ chunk) = none
      · -- too little for either transport
        refine ⟨fun _ _ _ => ⟨fun _ _ => hhead, by simp [hget]⟩, fun _ => ?_⟩
        apply hdetection
        have hlimit : kPacketHeaderLength ≤ maxHeadLength := by decide
        have hwaits := @onMessage_waits allow computeAcceptKey
          ((detected allow computeAcceptKey reads).fill chunk) hwebsocket hbuffer
          hhead.2 (Nat.le_trans (Nat.le_of_lt hhead.1) hlimit)
        rw [Connection.read, Connection.read, if_pos hconnected, if_pos hconnected, hwaits]
        exact (onTcpMessage_short hhead.1).symm
      · constructor
        · intro hdecides
          have hsame := hdecides.native hget'
          rw [detected_snoc, hnative, Connection.read, Connection.read, if_pos hconnected,
            if_pos hconnected] at hsame
          exact absurd hsame (onMessage_ne_onTcpMessage hconnected hwebsocket hbuffer hhead)
        · intro hplain
          exact absurd ((hplain hconnected hwebsocket).1 hget hbuffer) hhead
    · refine ⟨fun _ _ _ => ⟨fun _ h => absurd h hbuffer, by simp [hget]⟩,
        fun _ => ?_⟩
      apply hdetection
      have hsame := @onMessage_native allow computeAcceptKey
        ((detected allow computeAcceptKey reads).fill chunk) hwebsocket
        (Bool.eq_false_iff.mpr hbuffer)
      rw [Connection.read, Connection.read, if_pos hconnected, if_pos hconnected, hsame]
  · refine ⟨fun _ h => absurd h hconnected, fun _ => ?_⟩
    apply hdetection
    rw [Connection.read, Connection.read, if_neg hconnected, if_neg hconnected]

theorem Detection.step {chunk : Bytes} (h : Detection allow computeAcceptKey reads) :
    (DecidesOnce allow computeAcceptKey (reads ++ [chunk]) →
        ReadsPlainly allow computeAcceptKey reads chunk) ∧
      (ReadsPlainly allow computeAcceptKey reads chunk →
        Detection allow computeAcceptKey (reads ++ [chunk])) := by
  cases h with
  | native hget htcp =>
    cases hnext : startsWithGet (reads.flatten ++ chunk) with
    | false => exact detection_native htcp hnext
    | true =>
      -- the first four bytes are complete only now
      have hshort : reads.flatten.length < 4 := by
        by_contra hlong
        have := startsWithGet_of_append hnext (Nat.le_of_not_lt hlong)
        simp [hget] at this
      have hheader : 4 ≤ kPacketHeaderLength := by decide
      exact detection_request (htcp.trans (reads_tcp_short (by omega))) hnext
  | waiting hget hbuffer hnone hshort =>
    exact detection_request hbuffer (startsWithGet_append hget chunk)
  | upgraded hwebsocket hupgrades =>
    constructor
    · intro _ _ hnot
      rw [hwebsocket] at hnot
      cases hnot
    · intro _
      refine .upgraded ?_ (by rw [flatten_snoc]; exact hupgrades.append chunk)
      rw [detected_snoc, Connection.read]
      split
      · have hsame := @onMessage_websocket allow computeAcceptKey
          ((detected allow computeAcceptKey reads).fill chunk) hwebsocket
        rw [hsame, onWebSocketMessage_websocket]
        exact hwebsocket
      · exact hwebsocket
  | refused hget hclosed hwebsocket hnever =>
    have hsame : detected allow computeAcceptKey (reads ++ [chunk]) =
        detected allow computeAcceptKey reads := by
      rw [detected_snoc, Connection.read, if_neg (by simp [hclosed])]
    constructor
    · intro _ hopen
      rw [hclosed] at hopen
      cases hopen
    · intro _
      refine .refused ?_ (hsame ▸ hclosed) (hsame ▸ hwebsocket) ?_
      · rw [flatten_snoc]
        exact startsWithGet_append hget chunk
      · intro more
        rw [flatten_snoc, List.append_assoc]
        exact hnever (chunk ++ more)

/-- The transport is decided once, after every read of the stream, exactly if
no read shows a request behind native packets or completes an acceptable head
beyond the limit. -/
theorem decidesOnce_iff (allow : Nat → Bool) (computeAcceptKey : Bytes → Bytes)
    (chunks : List Bytes) :
    (∀ reads, reads <+: chunks → DecidesOnce allow computeAcceptKey reads) ↔
      ∀ reads chunk, reads ++ [chunk] <+: chunks →
        ReadsPlainly allow computeAcceptKey reads chunk := by
  refine @forall_prefix_iff _ _ (DecidesOnce allow computeAcceptKey)
    (Detection allow computeAcceptKey) _ ?_ Detection.decidesOnce ?_
  · exact .native rfl rfl
  · intro reads chunk _ h
    exact h.step

def upgradeRequest : Bytes :=
  lit "GET / HTTP/1.1\r\nUpgrade: websocket\r\nConnection: Upgrade\r\nSec-WebSocket-Version: 13\r\nSec-WebSocket-Key: key\r\n\r\n"

/-- The first read ends in the middle of a request behind a heartbeat. -/
def requestBehindHeartbeat : List Bytes :=
  [packetBytes (heartbeat 1) ++ upgradeRequest.take 4, upgradeRequest.drop 4]

/-- The connection has handed over a native packet and switches to WebSocket;
the same bytes in one read would have closed it. -/
theorem requestBehindHeartbeat_upgrades :
    (detected always id requestBehindHeartbeat).handed = [heartbeat 1] ∧
      (detected always id requestBehindHeartbeat).websocket = true ∧
      (detected always id [requestBehindHeartbeat.flatten]).connected = false ∧
      ¬ DecidesOnce always id requestBehindHeartbeat := by
  have hwebsocket : (detected always id requestBehindHeartbeat).websocket = true := by
    decide +kernel
  refine ⟨by decide +kernel, hwebsocket, by decide +kernel, ?_⟩
  intro h
  have hget := (h.upgrade.mp hwebsocket).1
  exact absurd hget (by decide +kernel)

end NebulaIM.Gateway
