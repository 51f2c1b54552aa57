import NebulaIM.Foundation.Wire

/-!
# Protobuf messages and error codes

The messages of `src/proto` that the modelled services exchange.  `fields` lists
what `SerializeToString` writes; `set` is what `ParseFromString` does with one
field, refusing a `string` that is not UTF-8.
-/

namespace NebulaIM.Protocol

open Foundation.Wire

/-- The bytes of a string literal of the source. -/
def lit (s : String) : Bytes := s.toUTF8.data.toList

inductive ErrorCode where
  | ok
  | unknownError | invalidArgument | configLoadFailed | internalError
  | authFailed | tokenInvalid | userNotFound | userAlreadyExists
  | usernameEmpty | passwordEmpty
  | dbError | redisError | kafkaError
  | groupNotFound | groupAlreadyJoined | groupNotMember | groupOwnerCannotLeave
  | groupPermissionDenied
  | messageEmpty | messageTooLarge | messageNotFound | messageDuplicated
  | messagePersistFailed | messageKafkaFailed | messageAckFailed
  | messagePermissionDenied | invalidConversation
  | gatewayNotAuthenticated | gatewayInvalidPacket | gatewayBackendRpcFailed
  | gatewayConnectionNotFound | gatewayOnlineStateFailed
  | gatewayPermissionDenied
  | rateLimited | serviceUnavailable | circuitOpen
  | conversationNotFound
  | messageRecallTimeout | messageRecallPermissionDenied
  | messageAlreadyRecalled
  | deviceNotFound | tokenRefreshFailed
  | outboxPublishFailed
  deriving DecidableEq, Repr

def ErrorCode.toInt32 : ErrorCode → Int32
  | .ok => 0
  | .unknownError => 1000
  | .invalidArgument => 1001
  | .configLoadFailed => 1002
  | .internalError => 1003
  | .authFailed => 3000
  | .tokenInvalid => 3001
  | .userNotFound => 3002
  | .userAlreadyExists => 3003
  | .usernameEmpty => 3005
  | .passwordEmpty => 3006
  | .dbError => 4000
  | .redisError => 5000
  | .kafkaError => 6000
  | .groupNotFound => 7101
  | .groupAlreadyJoined => 7102
  | .groupNotMember => 7103
  | .groupOwnerCannotLeave => 7104
  | .groupPermissionDenied => 7105
  | .messageEmpty => 8001
  | .messageTooLarge => 8002
  | .messageNotFound => 8003
  | .messageDuplicated => 8004
  | .messagePersistFailed => 8005
  | .messageKafkaFailed => 8006
  | .messageAckFailed => 8007
  | .messagePermissionDenied => 8008
  | .invalidConversation => 8009
  | .gatewayNotAuthenticated => 10001
  | .gatewayInvalidPacket => 10003
  | .gatewayBackendRpcFailed => 10004
  | .gatewayConnectionNotFound => 10005
  | .gatewayOnlineStateFailed => 10006
  | .gatewayPermissionDenied => 10007
  | .rateLimited => 11001
  | .serviceUnavailable => 11002
  | .circuitOpen => 11003
  | .conversationNotFound => 13001
  | .messageRecallTimeout => 14001
  | .messageRecallPermissionDenied => 14002
  | .messageAlreadyRecalled => 14003
  | .deviceNotFound => 15001
  | .tokenRefreshFailed => 15002
  | .outboxPublishFailed => 16002

theorem ErrorCode.toInt32_ne {code : ErrorCode} (hcode : code ≠ .ok) :
    code.toInt32 ≠ ErrorCode.ok.toInt32 := by
  cases code <;> first | exact absurd rfl hcode | decide

def errorCodeToString : ErrorCode → String
  | .ok => "OK"
  | .unknownError => "UNKNOWN_ERROR"
  | .invalidArgument => "INVALID_ARGUMENT"
  | .configLoadFailed => "CONFIG_LOAD_FAILED"
  | .internalError => "INTERNAL_ERROR"
  | .authFailed => "AUTH_FAILED"
  | .tokenInvalid => "TOKEN_INVALID"
  | .userNotFound => "USER_NOT_FOUND"
  | .userAlreadyExists => "USER_ALREADY_EXISTS"
  | .usernameEmpty => "USERNAME_EMPTY"
  | .passwordEmpty => "PASSWORD_EMPTY"
  | .dbError => "DB_ERROR"
  | .redisError => "REDIS_ERROR"
  | .kafkaError => "KAFKA_ERROR"
  | .groupNotFound => "GROUP_NOT_FOUND"
  | .groupAlreadyJoined => "GROUP_ALREADY_JOINED"
  | .groupNotMember => "GROUP_NOT_MEMBER"
  | .groupOwnerCannotLeave => "GROUP_OWNER_CANNOT_LEAVE"
  | .groupPermissionDenied => "GROUP_PERMISSION_DENIED"
  | .messageEmpty => "MESSAGE_EMPTY"
  | .messageTooLarge => "MESSAGE_TOO_LARGE"
  | .messageNotFound => "MESSAGE_NOT_FOUND"
  | .messageDuplicated => "MESSAGE_DUPLICATED"
  | .messagePersistFailed => "MESSAGE_PERSIST_FAILED"
  | .messageKafkaFailed => "MESSAGE_KAFKA_FAILED"
  | .messageAckFailed => "MESSAGE_ACK_FAILED"
  | .messagePermissionDenied => "MESSAGE_PERMISSION_DENIED"
  | .invalidConversation => "INVALID_CONVERSATION"
  | .gatewayNotAuthenticated => "GATEWAY_NOT_AUTHENTICATED"
  | .gatewayInvalidPacket => "GATEWAY_INVALID_PACKET"
  | .gatewayBackendRpcFailed => "GATEWAY_BACKEND_RPC_FAILED"
  | .gatewayConnectionNotFound => "GATEWAY_CONNECTION_NOT_FOUND"
  | .gatewayOnlineStateFailed => "GATEWAY_ONLINE_STATE_FAILED"
  | .gatewayPermissionDenied => "GATEWAY_PERMISSION_DENIED"
  | .rateLimited => "RATE_LIMITED"
  | .serviceUnavailable => "SERVICE_UNAVAILABLE"
  | .circuitOpen => "CIRCUIT_OPEN"
  | .conversationNotFound => "CONVERSATION_NOT_FOUND"
  | .messageRecallTimeout => "MESSAGE_RECALL_TIMEOUT"
  | .messageRecallPermissionDenied => "MESSAGE_RECALL_PERMISSION_DENIED"
  | .messageAlreadyRecalled => "MESSAGE_ALREADY_RECALLED"
  | .deviceNotFound => "DEVICE_NOT_FOUND"
  | .tokenRefreshFailed => "TOKEN_REFRESH_FAILED"
  | .outboxPublishFailed => "OUTBOX_PUBLISH_FAILED"

/-! ## Scalars -/

/-- The 64-bit varint of an `int32`, sign-extended. -/
def int32Value (n : Int32) : Nat := n.toInt64.toUInt64.toNat

def int64Value (n : Int64) : Nat := n.toUInt64.toNat

def readInt32 (value : Nat) : Int32 := (UInt64.ofNat value).toInt64.toInt32

def readInt64 (value : Nat) : Int64 := (UInt64.ofNat value).toInt64

/-! ## Shared messages -/

structure CommonResponse where
  code : Int32 := 0
  message : Bytes := []
  requestId : Bytes := []
  deriving DecidableEq, Repr

def CommonResponse.fields (r : CommonResponse) : List Field :=
  uint 1 (int32Value r.code) ++ text 2 r.message ++ text 3 r.requestId

/-- `fillResponse` of the services; an empty message stands for the name of the
code. -/
def fillResponse (requestId : Bytes) (code : ErrorCode) (message : String) : CommonResponse where
  code := code.toInt32
  message := lit (if message.isEmpty then errorCodeToString code else message)
  requestId := if requestId.isEmpty then lit "request-id-empty" else requestId

structure PageRequest where
  page : UInt32 := 0
  pageSize : UInt32 := 0
  deriving DecidableEq, Repr

def PageRequest.set (r : PageRequest) : Field → PageRequest × Bool
  | .varint 1 v => ({ r with page := UInt32.ofNat v }, true)
  | .varint 2 v => ({ r with pageSize := UInt32.ofNat v }, true)
  | _ => (r, true)

structure PageResponse where
  page : UInt32 := 0
  pageSize : UInt32 := 0
  total : UInt64 := 0
  deriving DecidableEq, Repr

def PageResponse.fields (r : PageResponse) : List Field :=
  uint 1 r.page.toNat ++ uint 2 r.pageSize.toNat ++ uint 3 r.total.toNat

structure MessageData where
  messageId : UInt64 := 0
  conversationId : UInt64 := 0
  fromUserId : UInt64 := 0
  toUserId : UInt64 := 0
  groupId : UInt64 := 0
  contentType : Int32 := 0
  content : Bytes := []
  status : Int32 := 0
  timestamp : Int64 := 0
  recalled : Bool := false
  recalledAt : Int64 := 0
  traceId : Bytes := []
  deriving DecidableEq, Repr

variable {m : MessageData}

def MessageData.fields (m : MessageData) : List Field :=
  uint 1 m.messageId.toNat ++ (uint 2 m.conversationId.toNat ++
  (uint 3 m.fromUserId.toNat ++ (uint 4 m.toUserId.toNat ++
  (uint 5 m.groupId.toNat ++ (uint 6 (int32Value m.contentType) ++
  (text 7 m.content ++ (uint 8 (int32Value m.status) ++
  (uint 9 (int64Value m.timestamp) ++ (uint 10 m.recalled.toNat ++
  (uint 11 (int64Value m.recalledAt) ++ text 12 m.traceId))))))))))

def MessageData.set (m : MessageData) : Field → MessageData × Bool
  | .varint 1 v => ({ m with messageId := UInt64.ofNat v }, true)
  | .varint 2 v => ({ m with conversationId := UInt64.ofNat v }, true)
  | .varint 3 v => ({ m with fromUserId := UInt64.ofNat v }, true)
  | .varint 4 v => ({ m with toUserId := UInt64.ofNat v }, true)
  | .varint 5 v => ({ m with groupId := UInt64.ofNat v }, true)
  | .varint 6 v => ({ m with contentType := readInt32 v }, true)
  | .bytes 7 v => ({ m with content := v }, utf8 v)
  | .varint 8 v => ({ m with status := readInt32 v }, true)
  | .varint 9 v => ({ m with timestamp := readInt64 v }, true)
  | .varint 10 v => ({ m with recalled := v != 0 }, true)
  | .varint 11 v => ({ m with recalledAt := readInt64 v }, true)
  | .bytes 12 v => ({ m with traceId := v }, utf8 v)
  | _ => (m, true)

def MessageData.serialize (m : MessageData) : Bytes := encode m.fields

/-- `ParseFromString`: the message as far as it was read, and the result. -/
def MessageData.parse (bytes : Bytes) : MessageData × Bool :=
  Foundation.Wire.parse MessageData.set {} bytes

/-- What every parsed message satisfies: its texts are UTF-8 and below 2 GiB. -/
def MessageData.WellFormed (m : MessageData) : Prop :=
  (utf8 m.content = true ∧ m.content.length < 2 ^ 31) ∧
    (utf8 m.traceId = true ∧ m.traceId.length < 2 ^ 31)

instance (m : MessageData) : Decidable m.WellFormed :=
  inferInstanceAs (Decidable (_ ∧ _))

theorem MessageData.wellFormed_of_parse {bytes : Bytes}
    (h : MessageData.parse bytes = (m, true)) : m.WellFormed := by
  refine parse_keeps (fun m field hshort hm haccepted => ?_) (by decide) h
  simp only [MessageData.set] at haccepted ⊢
  split at haccepted
  case h_7 number value => exact ⟨⟨haccepted, hshort⟩, hm.2⟩
  case h_12 number value => exact ⟨hm.1, ⟨haccepted, hshort⟩⟩
  all_goals exact hm

/-! ## Round trip of the message payload -/

@[simp] theorem readInt32_int32Value (n : Int32) :
    readInt32 (int32Value n) = n := by
  simp [readInt32, int32Value]

@[simp] theorem readInt64_int64Value (n : Int64) :
    readInt64 (int64Value n) = n := by
  simp [readInt64, int64Value]

@[simp] theorem int32Value_eq_zero (n : Int32) : int32Value n = 0 ↔ n = 0 := by
  constructor
  · intro h
    have hread := readInt32_int32Value n
    rw [h] at hread
    exact hread.symm.trans (by decide)
  · rintro rfl
    decide

@[simp] theorem int64Value_eq_zero (n : Int64) : int64Value n = 0 ↔ n = 0 := by
  constructor
  · intro h
    have hread := readInt64_int64Value n
    rw [h] at hread
    exact hread.symm.trans (by decide)
  · rintro rfl
    decide

private theorem uint_wellFormed {number value : Nat} (hnumber : 0 < number)
    (hbound : number < 2 ^ 29) (hvalue : value < 2 ^ 64) :
    ∀ field ∈ uint number value, field.WellFormed := by
  intro field hfield
  rw [uint] at hfield
  split at hfield
  · cases hfield
  · cases List.mem_singleton.mp hfield
    exact ⟨hnumber, hbound, hvalue⟩

private theorem text_wellFormed {number : Nat} {value : Bytes} (hnumber : 0 < number)
    (hbound : number < 2 ^ 29) (hvalue : value.length < 2 ^ 31) :
    ∀ field ∈ text number value, field.WellFormed := by
  intro field hfield
  rw [text] at hfield
  split at hfield
  · cases hfield
  · cases List.mem_singleton.mp hfield
    exact ⟨hnumber, hbound, hvalue⟩

theorem MessageData.fields_wellFormed (hm : m.WellFormed) :
    ∀ field ∈ m.fields, field.WellFormed := by
  have hint (number : Nat) (hpos : 0 < number) (hlt : number < 2 ^ 29)
      (value : UInt64) := uint_wellFormed hpos hlt value.toNat_lt
  have hbool : m.recalled.toNat < 2 ^ 64 := by cases m.recalled <;> decide
  intro field hfield
  simp only [MessageData.fields, List.mem_append] at hfield
  rcases hfield with h | h | h | h | h | h | h | h | h | h | h | h
  · exact hint 1 (by omega) (by omega) m.messageId field h
  · exact hint 2 (by omega) (by omega) m.conversationId field h
  · exact hint 3 (by omega) (by omega) m.fromUserId field h
  · exact hint 4 (by omega) (by omega) m.toUserId field h
  · exact hint 5 (by omega) (by omega) m.groupId field h
  · exact hint 6 (by omega) (by omega) m.contentType.toInt64.toUInt64 field h
  · exact text_wellFormed (by omega) (by omega) hm.1.2 field h
  · exact hint 8 (by omega) (by omega) m.status.toInt64.toUInt64 field h
  · exact hint 9 (by omega) (by omega) m.timestamp.toUInt64 field h
  · exact uint_wellFormed (by omega) (by omega) hbool field h
  · exact hint 11 (by omega) (by omega) m.recalledAt.toUInt64 field h
  · exact text_wellFormed (by omega) (by omega) hm.2.2 field h

/-- A serialised message parses back to itself. -/
theorem MessageData.parse_serialize (hm : m.WellFormed) :
    MessageData.parse m.serialize = (m, true) := by
  obtain ⟨messageId, conversationId, fromUserId, toUserId, groupId, contentType,
    content, status, timestamp, recalled, recalledAt, traceId⟩ := m
  have hzero (n : UInt64) (h : n.toNat = 0) : n = 0 := UInt64.toNat_inj.mp h
  have hfalse (b : Bool) (h : b.toNat = 0) : b = false := by
    cases b
    · rfl
    · cases h
  have hbool (b : Bool) : (b.toNat != 0) = b := by cases b <;> rfl
  rw [MessageData.parse, MessageData.serialize,
    parse_encode _ _ _ (MessageData.fields_wellFormed hm)]
  -- every assignment either stores the field or keeps a default equal to it
  refine (assign_uint 1 _ _ (MessageData.set.eq_1 _ _) ?_).trans ?_ <;>
    simp only [UInt64.ofNat_toNat]
  · exact fun h => by rw [hzero _ h]
  refine (assign_uint 2 _ _ (MessageData.set.eq_2 _ _) ?_).trans ?_ <;>
    simp only [UInt64.ofNat_toNat]
  · exact fun h => by rw [hzero _ h]
  refine (assign_uint 3 _ _ (MessageData.set.eq_3 _ _) ?_).trans ?_ <;>
    simp only [UInt64.ofNat_toNat]
  · exact fun h => by rw [hzero _ h]
  refine (assign_uint 4 _ _ (MessageData.set.eq_4 _ _) ?_).trans ?_ <;>
    simp only [UInt64.ofNat_toNat]
  · exact fun h => by rw [hzero _ h]
  refine (assign_uint 5 _ _ (MessageData.set.eq_5 _ _) ?_).trans ?_ <;>
    simp only [UInt64.ofNat_toNat]
  · exact fun h => by rw [hzero _ h]
  refine (assign_uint 6 _ _ (MessageData.set.eq_6 _ _) ?_).trans ?_ <;>
    simp only [readInt32_int32Value]
  · exact fun h => by rw [(int32Value_eq_zero _).mp h]
  refine (assign_text 7 _ _ (by rw [MessageData.set.eq_7, hm.1.1]) ?_).trans ?_
  · exact fun h => by rw [h]
  refine (assign_uint 8 _ _ (MessageData.set.eq_8 _ _) ?_).trans ?_ <;>
    simp only [readInt32_int32Value]
  · exact fun h => by rw [(int32Value_eq_zero _).mp h]
  refine (assign_uint 9 _ _ (MessageData.set.eq_9 _ _) ?_).trans ?_ <;>
    simp only [readInt64_int64Value]
  · exact fun h => by rw [(int64Value_eq_zero _).mp h]
  refine (assign_uint 10 _ _ (MessageData.set.eq_10 _ _) ?_).trans ?_ <;>
    simp only [hbool]
  · exact fun h => by rw [hfalse _ h]
  refine (assign_uint 11 _ _ (MessageData.set.eq_11 _ _) ?_).trans ?_ <;>
    simp only [readInt64_int64Value]
  · exact fun h => by rw [(int64Value_eq_zero _).mp h]
  rw [← List.append_nil (text 12 _)]
  refine (assign_text 12 _ _ (by rw [MessageData.set.eq_12, hm.2.1]) ?_).trans ?_
  · exact fun h => by rw [h]
  · rfl

/-! ## User service -/

structure RegisterRequest where
  requestId : Bytes := []
  username : Bytes := []
  password : Bytes := []
  nickname : Bytes := []
  deriving DecidableEq, Repr

def RegisterRequest.set (r : RegisterRequest) : Field → RegisterRequest × Bool
  | .bytes 1 v => ({ r with requestId := v }, utf8 v)
  | .bytes 2 v => ({ r with username := v }, utf8 v)
  | .bytes 3 v => ({ r with password := v }, utf8 v)
  | .bytes 4 v => ({ r with nickname := v }, utf8 v)
  | _ => (r, true)

structure RegisterResponse where
  response : Option CommonResponse := none
  userId : UInt64 := 0
  deriving DecidableEq, Repr

def RegisterResponse.fields (r : RegisterResponse) : List Field :=
  message 1 (r.response.map CommonResponse.fields) ++ uint 2 r.userId.toNat

structure LoginRequest where
  requestId : Bytes := []
  username : Bytes := []
  password : Bytes := []
  deviceId : Bytes := []
  platform : Bytes := []
  deviceName : Bytes := []
  deriving DecidableEq, Repr

def LoginRequest.set (r : LoginRequest) : Field → LoginRequest × Bool
  | .bytes 1 v => ({ r with requestId := v }, utf8 v)
  | .bytes 2 v => ({ r with username := v }, utf8 v)
  | .bytes 3 v => ({ r with password := v }, utf8 v)
  | .bytes 4 v => ({ r with deviceId := v }, utf8 v)
  | .bytes 5 v => ({ r with platform := v }, utf8 v)
  | .bytes 6 v => ({ r with deviceName := v }, utf8 v)
  | _ => (r, true)

structure LoginResponse where
  response : Option CommonResponse := none
  userId : UInt64 := 0
  token : Bytes := []
  expireAt : Int64 := 0
  deriving DecidableEq, Repr

def LoginResponse.fields (r : LoginResponse) : List Field :=
  message 1 (r.response.map CommonResponse.fields) ++ uint 2 r.userId.toNat ++
    text 3 r.token ++ uint 4 (int64Value r.expireAt)

structure ResumeSessionRequest where
  requestId : Bytes := []
  token : Bytes := []
  deviceId : Bytes := []
  platform : Bytes := []
  deviceName : Bytes := []
  deriving DecidableEq, Repr

def ResumeSessionRequest.set (r : ResumeSessionRequest) : Field → ResumeSessionRequest × Bool
  | .bytes 1 v => ({ r with requestId := v }, utf8 v)
  | .bytes 2 v => ({ r with token := v }, utf8 v)
  | .bytes 3 v => ({ r with deviceId := v }, utf8 v)
  | .bytes 4 v => ({ r with platform := v }, utf8 v)
  | .bytes 5 v => ({ r with deviceName := v }, utf8 v)
  | _ => (r, true)

structure ResumeSessionResponse where
  response : Option CommonResponse := none
  userId : UInt64 := 0
  deriving DecidableEq, Repr

def ResumeSessionResponse.fields (r : ResumeSessionResponse) : List Field :=
  message 1 (r.response.map CommonResponse.fields) ++ uint 2 r.userId.toNat

structure ValidateTokenRequest where
  requestId : Bytes := []
  token : Bytes := []
  deriving DecidableEq, Repr

structure ValidateTokenResponse where
  response : Option CommonResponse := none
  valid : Bool := false
  userId : UInt64 := 0
  deriving DecidableEq, Repr

structure RefreshTokenRequest where
  requestId : Bytes := []
  token : Bytes := []
  deviceId : Bytes := []
  deriving DecidableEq, Repr

structure RefreshTokenResponse where
  response : Option CommonResponse := none
  userId : UInt64 := 0
  token : Bytes := []
  expireAt : Int64 := 0
  deriving DecidableEq, Repr

/-! ## Device service -/

structure DeviceInfo where
  userId : UInt64 := 0
  deviceId : Bytes := []
  platform : Bytes := []
  deviceName : Bytes := []
  lastLoginAt : Int64 := 0
  lastActiveAt : Int64 := 0
  online : Bool := false
  deriving DecidableEq, Repr

structure ListDevicesRequest where
  requestId : Bytes := []
  userId : UInt64 := 0
  deriving DecidableEq, Repr

structure ListDevicesResponse where
  response : Option CommonResponse := none
  devices : List DeviceInfo := []
  deriving DecidableEq, Repr

structure KickDeviceRequest where
  requestId : Bytes := []
  userId : UInt64 := 0
  deviceId : Bytes := []
  deriving DecidableEq, Repr

structure KickAllDevicesRequest where
  requestId : Bytes := []
  userId : UInt64 := 0
  deriving DecidableEq, Repr

structure KickConnectionRequest where
  requestId : Bytes := []
  userId : UInt64 := 0
  connectionId : Bytes := []
  deviceId : Bytes := []
  reason : Bytes := []
  deriving DecidableEq, Repr

/-! ## Message service -/

structure SendSingleMessageRequest where
  requestId : Bytes := []
  fromUserId : UInt64 := 0
  toUserId : UInt64 := 0
  contentType : Int32 := 0
  content : Bytes := []
  clientSequenceId : UInt32 := 0
  deriving DecidableEq, Repr

def SendSingleMessageRequest.set (r : SendSingleMessageRequest) :
    Field → SendSingleMessageRequest × Bool
  | .bytes 1 v => ({ r with requestId := v }, utf8 v)
  | .varint 2 v => ({ r with fromUserId := UInt64.ofNat v }, true)
  | .varint 3 v => ({ r with toUserId := UInt64.ofNat v }, true)
  | .varint 4 v => ({ r with contentType := readInt32 v }, true)
  | .bytes 5 v => ({ r with content := v }, utf8 v)
  | .varint 6 v => ({ r with clientSequenceId := UInt32.ofNat v }, true)
  | _ => (r, true)

structure SendGroupMessageRequest where
  requestId : Bytes := []
  fromUserId : UInt64 := 0
  groupId : UInt64 := 0
  contentType : Int32 := 0
  content : Bytes := []
  clientSequenceId : UInt32 := 0
  deriving DecidableEq, Repr

def SendGroupMessageRequest.set (r : SendGroupMessageRequest) :
    Field → SendGroupMessageRequest × Bool
  | .bytes 1 v => ({ r with requestId := v }, utf8 v)
  | .varint 2 v => ({ r with fromUserId := UInt64.ofNat v }, true)
  | .varint 3 v => ({ r with groupId := UInt64.ofNat v }, true)
  | .varint 4 v => ({ r with contentType := readInt32 v }, true)
  | .bytes 5 v => ({ r with content := v }, utf8 v)
  | .varint 6 v => ({ r with clientSequenceId := UInt32.ofNat v }, true)
  | _ => (r, true)

/-- `SendSingleMessageResponse` and `SendGroupMessageResponse`, which have the
same fields. -/
structure SendMessageResponse where
  response : Option CommonResponse := none
  messageId : UInt64 := 0
  serverTimestamp : Int64 := 0
  deriving DecidableEq, Repr

def SendMessageResponse.fields (r : SendMessageResponse) : List Field :=
  message 1 (r.response.map CommonResponse.fields) ++
    uint 2 r.messageId.toNat ++ uint 3 (int64Value r.serverTimestamp)

structure AckMessageRequest where
  requestId : Bytes := []
  userId : UInt64 := 0
  messageId : UInt64 := 0
  deriving DecidableEq, Repr

def AckMessageRequest.set (r : AckMessageRequest) : Field → AckMessageRequest × Bool
  | .bytes 1 v => ({ r with requestId := v }, utf8 v)
  | .varint 2 v => ({ r with userId := UInt64.ofNat v }, true)
  | .varint 3 v => ({ r with messageId := UInt64.ofNat v }, true)
  | _ => (r, true)

structure AckMessageResponse where
  response : Option CommonResponse := none
  deriving DecidableEq, Repr

def AckMessageResponse.fields (r : AckMessageResponse) : List Field :=
  message 1 (r.response.map CommonResponse.fields)

structure PullOfflineMessagesRequest where
  requestId : Bytes := []
  userId : UInt64 := 0
  page : Option PageRequest := none
  deriving DecidableEq, Repr

def PullOfflineMessagesRequest.set (r : PullOfflineMessagesRequest) :
    Field → PullOfflineMessagesRequest × Bool
  | .bytes 1 v => ({ r with requestId := v }, utf8 v)
  | .varint 2 v => ({ r with userId := UInt64.ofNat v }, true)
  | .bytes 3 v =>
    let (page, complete) := parse PageRequest.set (r.page.getD {}) v
    ({ r with page := some page }, complete)
  | _ => (r, true)

structure PullOfflineMessagesResponse where
  response : Option CommonResponse := none
  messages : List MessageData := []
  page : Option PageResponse := none
  deriving DecidableEq, Repr

def PullOfflineMessagesResponse.fields (r : PullOfflineMessagesResponse) :
    List Field :=
  message 1 (r.response.map CommonResponse.fields) ++
    r.messages.flatMap (fun m => message 2 (some m.fields)) ++
    message 3 (r.page.map PageResponse.fields)

structure RecallMessageRequest where
  requestId : Bytes := []
  userId : UInt64 := 0
  messageId : UInt64 := 0
  deriving DecidableEq, Repr

structure RecallMessageResponse where
  response : CommonResponse
  messageId : UInt64 := 0
  recalledAt : Int64 := 0
  deriving DecidableEq, Repr

structure ListConversationMessagesRequest where
  requestId : Bytes := []
  requesterUserId : UInt64 := 0
  conversationId : UInt64 := 0
  beforeTime : Int64 := 0
  pageSize : UInt32 := 0
  beforeMessageId : UInt64 := 0
  deriving DecidableEq, Repr

structure ListConversationMessagesResponse where
  response : CommonResponse
  messages : List MessageData := []
  nextBeforeTime : Int64 := 0
  nextBeforeMessageId : UInt64 := 0
  hasMore : Bool := false
  deriving DecidableEq, Repr

/-! ## Relation and conversation service -/

structure CreateGroupRequest where
  requestId : Bytes := []
  ownerId : UInt64 := 0
  groupName : Bytes := []
  deriving DecidableEq, Repr

structure CreateGroupResponse where
  response : CommonResponse
  groupId : UInt64 := 0
  deriving DecidableEq, Repr

/-- `JoinGroupRequest` and `LeaveGroupRequest`, which have the same fields. -/
structure MembershipRequest where
  requestId : Bytes := []
  userId : UInt64 := 0
  groupId : UInt64 := 0
  deriving DecidableEq, Repr

structure ConversationDeleteRequest where
  requestId : Bytes := []
  userId : UInt64 := 0
  conversationId : UInt64 := 0
  deriving DecidableEq, Repr

structure ConversationPinRequest where
  requestId : Bytes := []
  userId : UInt64 := 0
  conversationId : UInt64 := 0
  pinned : Bool := false
  deriving DecidableEq, Repr

structure ConversationMuteRequest where
  requestId : Bytes := []
  userId : UInt64 := 0
  conversationId : UInt64 := 0
  muted : Bool := false
  deriving DecidableEq, Repr

structure MarkMessageReadRequest where
  requestId : Bytes := []
  userId : UInt64 := 0
  messageId : UInt64 := 0
  deriving DecidableEq, Repr

structure MarkConversationReadRequest where
  requestId : Bytes := []
  userId : UInt64 := 0
  conversationId : UInt64 := 0
  upToMessageId : UInt64 := 0
  deriving DecidableEq, Repr

structure GetMessageReadStateRequest where
  requestId : Bytes := []
  messageId : UInt64 := 0
  requesterUserId : UInt64 := 0
  deriving DecidableEq, Repr

structure MessageReadState where
  messageId : UInt64 := 0
  userId : UInt64 := 0
  deliveredAt : Int64 := 0
  readAt : Int64 := 0
  deriving DecidableEq, Repr

structure GetMessageReadStateResponse where
  response : CommonResponse
  states : List MessageReadState := []
  deriving DecidableEq, Repr

structure RunCleanupRequest where
  requestId : Bytes := []
  dryRun : Bool := false
  deriving DecidableEq, Repr

structure RunCleanupResponse where
  response : CommonResponse
  cleanedRows : Nat := 0
  deriving DecidableEq, Repr

end NebulaIM.Protocol
