import NebulaIM.Gateway.Handshake
import NebulaIM.Gateway.Router
import NebulaIM.Protocol.PacketStream
import NebulaIM.Protocol.WebSocket

/-!
# The gateway server

`GatewayServer` takes the bytes that a connection has read: it detects the
transport, cuts the stream into packets and hands them to the router.  A
connection is its input buffer, its transport and what has been done with it,
in order.  The rate limiter answers its `n`-th question with `allow n`.

A forced close disables the channel before the loop polls again
(`forceCloseInLoop`), so that a closed connection reads nothing more.
-/

namespace NebulaIM.Gateway

open NebulaIM.Protocol
open Foundation.Wire (Bytes)

/-- What the server does with a connection. -/
inductive Event where
  /-- `codec_.decode` has returned a packet. -/
  | decoded (packet : Packet)
  | handlePacket (packet : Packet)
  | send (message : Bytes)
  | forceClose
  deriving DecidableEq, Repr

structure Connection where
  buffer : Bytes := []
  websocket : Bool := false
  connected : Bool := true
  /-- How often the rate limiter has been asked. -/
  asked : Nat := 0
  log : List Event := []
  deriving DecidableEq, Repr

def protocolErrorToString : ProtocolError → String
  | .incompletePacket => "INCOMPLETE_PACKET"
  | .invalidMagic => "INVALID_MAGIC"
  | .invalidVersion => "INVALID_VERSION"
  | .invalidMessageType => "INVALID_MESSAGE_TYPE"
  | .bodyTooLarge => "BODY_TOO_LARGE"

/-- The error response to a packet that does not decode. -/
def protocolErrorResponse (error : ProtocolError) : Packet :=
  makeErrorResponse 0 .gatewayInvalidPacket (lit (protocolErrorToString error)) []

def rateLimitedResponse (sequenceId : UInt32) : Packet :=
  makeErrorResponse sequenceId .rateLimited (lit "rate limited") []

/-- The bytes of a packet, wrapped for the transport of the connection. -/
def wrapped (websocket : Bool) (packet : Packet) : Bytes :=
  if websocket then encodeFrame .binary (packetBytes packet) none
  else packetBytes packet

namespace Connection

variable (c : Connection)

def record (event : Event) : Connection := { c with log := c.log ++ [event] }

def send (message : Bytes) : Connection := c.record (.send message)

def forceClose : Connection := { c.record .forceClose with connected := false }

def sendPacket (packet : Packet) : Connection := c.send (wrapped c.websocket packet)

end Connection

section Server

variable (allow : Nat → Bool)

def allowPacket (c : Connection) (sequenceId : UInt32) : Bool × Connection :=
  let asked := { c with asked := c.asked + 1 }
  if allow c.asked then (true, asked)
  else (false, asked.sendPacket (rateLimitedResponse sequenceId))

@[simp] theorem allowPacket_buffer (c : Connection) (sequenceId : UInt32) :
    (allowPacket allow c sequenceId).2.buffer = c.buffer := by
  simp only [allowPacket]
  split <;> rfl

/-- The packet is taken out of the buffer. -/
def Connection.takePacket (c : Connection) (packet : Packet) (rest : Bytes) :
    Connection :=
  { c.record (.decoded packet) with buffer := rest }

theorem decode_ok_length {input rest : Bytes} {packet : Packet}
    (h : decode input = (.ok packet, rest)) : rest.length < input.length :=
  packetCodec.frame_shrinks (by
    change packetFront input = _
    rw [packetFront, h])

/-! ## Native packets -/

def onTcpMessage (c : Connection) : Connection :=
  if kPacketHeaderLength ≤ c.buffer.length then
    match _h : decode c.buffer with
    | (.ok packet, rest) =>
      let verdict := allowPacket allow (c.takePacket packet rest) packet.sequenceId
      if verdict.1 then
        onTcpMessage (verdict.2.record (.handlePacket packet))
      else
        -- everything behind the refused packet is thrown away
        { verdict.2 with buffer := [] }
    | (.error .incompletePacket, rest) => { c with buffer := rest }
    | (.error error, rest) =>
      ({ c with buffer := rest }.send (packetBytes (protocolErrorResponse error))).forceClose
  else c
termination_by c.buffer.length
decreasing_by
  simpa [Connection.record, Connection.takePacket] using decode_ok_length _h

/-! ## WebSocket frames -/

/-- The packets of one binary frame.  The answer says whether the loop over the
frames goes on. -/
def handleBinaryFrame (c : Connection) (packetBuffer : Bytes) : Bool × Connection :=
  if kPacketHeaderLength ≤ packetBuffer.length then
    match _h : decode packetBuffer with
    | (.ok packet, rest) =>
      let verdict := allowPacket allow (c.record (.decoded packet)) packet.sequenceId
      if verdict.1 then
        handleBinaryFrame (verdict.2.record (.handlePacket packet)) rest
      else
        (false, verdict.2)
    | (.error .incompletePacket, _) => (true, c)
    | (.error error, _) => (false, (c.sendPacket (protocolErrorResponse error)).forceClose)
  else (true, c)
termination_by packetBuffer.length
decreasing_by exact decode_ok_length _h

theorem handleBinaryFrame_buffer (c : Connection) (packetBuffer : Bytes) :
    (handleBinaryFrame allow c packetBuffer).2.buffer = c.buffer := by
  fun_induction handleBinaryFrame allow c packetBuffer with
  | case1 _ _ _ _ _ _ _ _ ih => exact ih.trans (allowPacket_buffer allow ..)
  | case2 => exact allowPacket_buffer allow ..
  | case3 => rfl
  | case4 => rfl
  | case5 => rfl

def onWebSocketMessage (c : Connection) : Connection :=
  if 0 < c.buffer.length then
    match _h : frameDecoder.front c.buffer with
    | .incomplete => c
    | .bad _ =>
      ({ c with buffer := [] }.send (encodeFrame .close (lit "protocol error") none)).forceClose
    | .frame frame rest =>
      let c := { c with buffer := rest }
      match frame.opcode with
      | .ping => onWebSocketMessage (c.send (encodeFrame .pong frame.payload none))
      | .pong => onWebSocketMessage c
      | .close => (c.send (encodeFrame .close [] none)).forceClose
      | .binary =>
        let outcome := handleBinaryFrame allow c frame.payload
        if outcome.1 then onWebSocketMessage outcome.2 else outcome.2
      | _ =>
        (c.send (encodeFrame .close (lit "binary frame required") none)).forceClose
  else c
termination_by c.buffer.length
decreasing_by
  · exact frameDecoder.frame_shrinks _h
  · exact frameDecoder.frame_shrinks _h
  · rw [handleBinaryFrame_buffer]
    exact frameDecoder.frame_shrinks _h

/-! ## Detection of the transport -/

def startsWithGet (buffer : Bytes) : Bool := 4 ≤ buffer.length && buffer.take 4 == lit "GET "

/-- `request.find("\r\n\r\n")` -/
def findHeadEnd : Bytes → Option Nat
  | [] => none
  | byte :: rest =>
    if (byte :: rest).take 4 = [13, 10, 13, 10] then some 0
    else (findHeadEnd rest).map (· + 1)

def maxHeadLength : Nat := 8192

variable (computeAcceptKey : Bytes → Bytes)

def tryHandleWebSocketHandshake (c : Connection) : Bool × Connection :=
  match findHeadEnd c.buffer with
  | none =>
    if maxHeadLength < c.buffer.length then
      (false, (c.send (badRequestResponse .headerTooLarge)).forceClose)
    else (false, c)
  | some pos =>
    let result := buildServerResponse computeAcceptKey (c.buffer.take (pos + 4))
    let c := { c.send result.response with buffer := c.buffer.drop (pos + 4) }
    if result.ok then (true, c) else (false, c.forceClose)

def onMessage (c : Connection) : Connection :=
  if !c.websocket && startsWithGet c.buffer then
    let (ok, c) := tryHandleWebSocketHandshake computeAcceptKey c
    if ok then onWebSocketMessage allow { c with websocket := true } else c
  else if c.websocket then onWebSocketMessage allow c
  else onTcpMessage allow c

end Server

/-! ## Reads -/

/-- The input buffer takes what `readFd` has read. -/
def Connection.fill (c : Connection) (bytes : Bytes) : Connection :=
  { c with buffer := c.buffer ++ bytes }

/-- The loop reads into the input buffer and calls back, while the connection
is open. -/
def Connection.read (callback : Connection → Connection) (c : Connection)
    (bytes : Bytes) : Connection :=
  if c.connected then callback (c.fill bytes) else c

def Connection.reads (callback : Connection → Connection) (c : Connection)
    (chunks : List Bytes) : Connection :=
  chunks.foldl (Connection.read callback) c

theorem reads_snoc (callback : Connection → Connection) (c : Connection)
    (chunks : List Bytes) (chunk : Bytes) :
    c.reads callback (chunks ++ [chunk]) = (c.reads callback chunks).read callback chunk := by
  simp [Connection.reads]

end NebulaIM.Gateway
