import NebulaIM.Protocol.Identifiers

/-!
# The WebSocket handshake

`WebSocketHandshake::buildServerResponse` answers the head of an HTTP request:
the request line, the header fields up to the first empty line, and the checks
of an upgrade to WebSocket.  The digest of `Sec-WebSocket-Accept` is OpenSSL's.
-/

namespace NebulaIM.Gateway

open NebulaIM.Protocol
open Foundation.Wire (Bytes)

/-! ## Text -/

def trim (input : Bytes) : Bytes := ((input.dropWhile isSpace).reverse.dropWhile isSpace).reverse

def lowerByte (byte : UInt8) : UInt8 :=
  if 65 ≤ byte && byte ≤ 90 then byte + 32 else byte

def lower (value : Bytes) : Bytes := value.map lowerByte

/-- What successive calls of `std::getline` read: the pieces between the
delimiters, without an empty piece at the end. -/
def getlines (delimiter : UInt8) (text : Bytes) : List Bytes :=
  let pieces := text.splitOn delimiter
  if pieces.getLast? = some [] then pieces.dropLast else pieces

/-- A line without its carriage return. -/
def chomp (line : Bytes) : Bytes :=
  if line.getLast? = some 13 then line.dropLast else line

/-- What `operator>>` reads from a stream, word by word. -/
def words (line : Bytes) : List Bytes := (line.splitOnP isSpace).filter (· ≠ [])

def containsToken (value token : Bytes) : Bool :=
  (getlines 44 value).any fun part => lower (trim part) == lower token

/-! ## Requests -/

structure HandshakeRequest where
  method : Bytes := []
  path : Bytes := []
  headers : List (Bytes × Bytes) := []
  deriving DecidableEq, Repr

/-- A missing header reads as the empty string. -/
def HandshakeRequest.header (request : HandshakeRequest) (name : Bytes) : Bytes :=
  (request.headers.lookup (lower name)).getD []

inductive HandshakeError where
  | emptyRequest
  | invalidRequestLine
  | headerTooLarge
  | methodMustBeGet
  | upgradeMustBeWebsocket
  | connectionMustContainUpgrade
  | versionMustBe13
  | keyIsRequired
  deriving DecidableEq, Repr

def HandshakeError.text : HandshakeError → String
  | .emptyRequest => "empty request"
  | .invalidRequestLine => "invalid request line"
  | .headerTooLarge => "header too large"
  | .methodMustBeGet => "method must be GET"
  | .upgradeMustBeWebsocket => "Upgrade must be websocket"
  | .connectionMustContainUpgrade => "Connection must contain Upgrade"
  | .versionMustBe13 => "Sec-WebSocket-Version must be 13"
  | .keyIsRequired => "Sec-WebSocket-Key is required"

/-- The header fields up to the first empty line; a later field replaces an
earlier one of the same name, and a line without a colon is skipped. -/
def parseHeaders (headers : List (Bytes × Bytes)) : List Bytes → List (Bytes × Bytes)
  | [] => headers
  | line :: lines =>
    let line := chomp line
    if line = [] then headers
    else if 58 ∈ line then
      let name := lower (trim (line.takeWhile (· ≠ 58)))
      let value := trim ((line.dropWhile (· ≠ 58)).drop 1)
      parseHeaders ((name, value) :: headers) lines
    else parseHeaders headers lines

def parseRequest (httpRequest : Bytes) :
    Except HandshakeError HandshakeRequest :=
  match getlines 10 httpRequest with
  | [] => .error .emptyRequest
  | line :: lines =>
    match words (chomp line) with
    | method :: path :: version :: _ =>
      if version = lit "HTTP/1.1" then
        .ok { method, path, headers := parseHeaders [] lines }
      else
        .error .invalidRequestLine
    | _ => .error .invalidRequestLine

/-! ## Responses -/

def badRequestResponse (reason : HandshakeError) : Bytes :=
  let body := lit "Bad Request: " ++ lit reason.text ++ lit "\n"
  lit "HTTP/1.1 400 Bad Request\r\nConnection: close\r\nContent-Type: text/plain\r\nContent-Length: " ++
    decimal body.length ++ lit "\r\n\r\n" ++ body

/-- The checks of an upgrade, in order. -/
def checkUpgrade (request : HandshakeRequest) : Option HandshakeError :=
  if request.method ≠ lit "GET" then some .methodMustBeGet
  else if lower (request.header (lit "Upgrade")) ≠ lit "websocket" then
    some .upgradeMustBeWebsocket
  else if ¬ containsToken (request.header (lit "Connection")) (lit "Upgrade") then
    some .connectionMustContainUpgrade
  else if trim (request.header (lit "Sec-WebSocket-Version")) ≠ lit "13" then
    some .versionMustBe13
  else if trim (request.header (lit "Sec-WebSocket-Key")) = [] then
    some .keyIsRequired
  else none

structure HandshakeResult where
  ok : Bool
  response : Bytes
  deriving DecidableEq, Repr

/-- `computeAcceptKey` is SHA-1 and Base64 of the key and the protocol's GUID. -/
def buildServerResponse (computeAcceptKey : Bytes → Bytes)
    (httpRequest : Bytes) : HandshakeResult :=
  match parseRequest httpRequest with
  | .error error => ⟨false, badRequestResponse error⟩
  | .ok request =>
    match checkUpgrade request with
    | some error => ⟨false, badRequestResponse error⟩
    | none =>
      let key := trim (request.header (lit "Sec-WebSocket-Key"))
      ⟨true, lit "HTTP/1.1 101 Switching Protocols\r\nUpgrade: websocket\r\nConnection: Upgrade\r\nSec-WebSocket-Accept: " ++
        computeAcceptKey key ++ lit "\r\n\r\n"⟩

end NebulaIM.Gateway
