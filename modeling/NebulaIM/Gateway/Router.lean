import NebulaIM.Protocol.Messages
import NebulaIM.Protocol.Packet

/-!
# The gateway router

`GatewayRouter` answers one packet of a client.  It talks to the connection
manager, the rate limiter, the circuit breakers, the RPC executor, the backend
stubs and the online manager; these are the fields of `RouterEnv`, over any
monad, so that one text of the handlers serves every interpretation.
-/

namespace NebulaIM.Gateway

open NebulaIM.Protocol
open Foundation.Wire (Bytes Field)

/-- The keys of the router's circuit breakers. -/
inductive Service where
  | userService
  | messageService
  deriving DecidableEq, Repr

/-- `grpc::Status`: success, or the error message. -/
inductive Status where
  | ok
  | failed (errorMessage : Bytes)
  deriving DecidableEq, Repr

structure ConnectionContext where
  connectionId : Bytes := []
  userId : UInt64 := 0
  token : Bytes := []
  deviceId : Bytes := []
  platform : Bytes := []
  authenticated : Bool := false
  deriving DecidableEq, Repr

structure RouterEnv (m : Type → Type) where
  updateActiveTime : (connectionId : Bytes) → m Unit
  getContext : (connectionId : Bytes) → m (Option ConnectionContext)
  /-- `getConnection(id)` is set and `connected()`. -/
  connected : (connectionId : Bytes) → m Bool
  bindUser : (connectionId : Bytes) → (userId : UInt64) → (token : Bytes) →
    (deviceId : Bytes) → (platform : Bytes) → m Bool
  allowLogin : m Bool
  allowMessage : (userId : UInt64) → m Bool
  allowRequest : Service → m Bool
  recordSuccess : Service → m Unit
  recordFailure : Service → m Unit
  /-- `rpc_executor_ != nullptr` -/
  hasExecutor : Bool
  /-- The executor's pool takes the task. -/
  accepts : m Bool
  /-- The task ended with an exception instead of its result. -/
  taskThrew : m Bool
  register : RegisterRequest → m (Status × RegisterResponse)
  login : LoginRequest → m (Status × LoginResponse)
  validateToken : ValidateTokenRequest → m (Status × ValidateTokenResponse)
  sendSingleMessage : SendSingleMessageRequest → m (Status × SendMessageResponse)
  sendGroupMessage : SendGroupMessageRequest → m (Status × SendMessageResponse)
  ackMessage : AckMessageRequest → m (Status × AckMessageResponse)
  pullOfflineMessages : PullOfflineMessagesRequest → m (Status × PullOfflineMessagesResponse)
  setOnline : (userId : UInt64) → (deviceId connectionId : Bytes) → m Bool
  setOfflineAsync : (userId : UInt64) → (deviceId connectionId : Bytes) → m Unit
  refreshOnlineAsync : (userId : UInt64) → (deviceId connectionId : Bytes) → m Unit
  sendPacket : Packet → m Unit

/-! ## Replies -/

def makeResponse (type : MessageType) (sequenceId : UInt32) (fields : List Field) : Packet :=
  ⟨type, sequenceId, Foundation.Wire.encode fields⟩

def makeErrorResponse (sequenceId : UInt32) (code : ErrorCode)
    (message requestId : Bytes) : Packet :=
  makeResponse .errorResp sequenceId (CommonResponse.fields ⟨code.toInt32, message, requestId⟩)

section Handlers

variable {m : Type → Type} [Monad m] (env : RouterEnv m)

def sendError (sequenceId : UInt32) (code : ErrorCode) (message : String)
    (requestId : Bytes) : m Unit :=
  env.sendPacket (makeErrorResponse sequenceId code (lit message) requestId)

/-- `RpcExecutor::submit`: the task runs on the pool and its callback on the
event loop; a refused or throwing task calls back with a default result. -/
def submit {α : Type} (default : α) (task : m α)
    (callback : α → (error : Bool) → m Unit) : m Unit := do
  if ← env.accepts then
    let value ← task
    if ← env.taskThrew then
      callback default true
    else
      callback value false
  else
    callback default true

/-- The task of the handlers that only forward: a failed RPC overwrites the
common response. -/
def forwardTask {Resp : Type} (service : Service) (call : m (Status × Resp))
    (setResponse : Resp → CommonResponse → Resp) (requestId : Bytes) :
    m Resp := do
  let (status, resp) ← call
  match status with
  | .failed errorMessage =>
    env.recordFailure service
    return setResponse resp ⟨ErrorCode.gatewayBackendRpcFailed.toInt32, errorMessage, requestId⟩
  | .ok =>
    env.recordSuccess service
    return resp

/-- Submit a forwarding task and send what it returns. -/
def forward {Resp : Type} (default : Resp) (service : Service) (call : m (Status × Resp))
    (setResponse : Resp → CommonResponse → Resp) (type : MessageType) (fields : Resp → List Field)
    (connectionId : Bytes) (sequenceId : UInt32) (requestId : Bytes) :
    m Unit := do
  if env.hasExecutor then
    submit env default (forwardTask env service call setResponse requestId) fun resp error => do
        if !(← env.connected connectionId) then
          return
        if error then
          sendError env sequenceId .serviceUnavailable "gateway rpc executor unavailable" requestId
          return
        env.sendPacket (makeResponse type sequenceId (fields resp))
  else
    sendError env sequenceId .serviceUnavailable "gateway rpc executor unavailable" requestId

def handleRegister (connectionId : Bytes) (packet : Packet) : m Unit := do
  let (req, parsed) := Foundation.Wire.parse RegisterRequest.set {} packet.body
  if !parsed then
    sendError env packet.sequenceId .gatewayInvalidPacket "bad register body" []
    return
  if !(← env.allowLogin) then
    sendError env packet.sequenceId .rateLimited "register rate limited" req.requestId
    return
  if !(← env.allowRequest .userService) then
    sendError env packet.sequenceId .circuitOpen "user service circuit open" req.requestId
    return
  forward env {} .userService (env.register req)
    (fun resp response => { resp with response := some response })
    .registerResp RegisterResponse.fields connectionId packet.sequenceId
    req.requestId

/-! ## Login -/

structure LoginResult where
  resp : LoginResponse := {}
  rpcOk : Bool := true
  onlineOk : Bool := true

def responseCode (response : Option CommonResponse) : Int32 := (response.getD {}).code

/-- The session is to be bound to the connection. -/
def LoginResult.established (result : LoginResult) : Bool :=
  result.rpcOk && responseCode result.resp.response == 0 && result.onlineOk

/-- `set_code` and `set_message` on the mutable common response. -/
def setCodeMessage (response : Option CommonResponse) (code : ErrorCode)
    (message : Bytes) : Option CommonResponse :=
  some { response.getD {} with code := code.toInt32, message := message }

def loginTask (req : LoginRequest) (connectionId loginDeviceId : Bytes) :
    m LoginResult := do
  let (status, resp) ← env.login req
  match status with
  | .failed errorMessage =>
    env.recordFailure .userService
    let response : CommonResponse :=
      ⟨ErrorCode.gatewayBackendRpcFailed.toInt32, errorMessage, req.requestId⟩
    return { resp := { resp with response }, rpcOk := false }
  | .ok =>
    env.recordSuccess .userService
    if responseCode resp.response = 0 then
      if ← env.setOnline resp.userId loginDeviceId connectionId then
        return { resp }
      else
        return {
          resp := { resp with
            response := setCodeMessage resp.response
              .gatewayOnlineStateFailed (lit "online state failed") }
          onlineOk := false }
    else
      return { resp }

def loginCallback (connectionId : Bytes) (sequenceId : UInt32)
    (requestId loginDeviceId loginPlatform : Bytes) (result : LoginResult)
    (error : Bool) : m Unit := do
  if !(← env.connected connectionId) then
    if result.established then
      env.setOfflineAsync result.resp.userId loginDeviceId connectionId
    return
  if error then
    sendError env sequenceId .serviceUnavailable "gateway rpc executor unavailable" requestId
    return
  if result.established then
    if !(← env.bindUser connectionId result.resp.userId result.resp.token
        loginDeviceId loginPlatform) then
      env.setOfflineAsync result.resp.userId loginDeviceId connectionId
      env.sendPacket (makeResponse .loginResp sequenceId
        { result.resp with
          response := setCodeMessage result.resp.response
            .gatewayOnlineStateFailed (lit "connection binding failed") }.fields)
      return
  env.sendPacket (makeResponse .loginResp sequenceId result.resp.fields)

def handleLogin (connectionId : Bytes) (packet : Packet) : m Unit := do
  let (req, parsed) := Foundation.Wire.parse LoginRequest.set {} packet.body
  if !parsed then
    sendError env packet.sequenceId .gatewayInvalidPacket "bad login body" []
    return
  if !(← env.allowLogin) then
    sendError env packet.sequenceId .rateLimited "login rate limited" req.requestId
    return
  if !(← env.allowRequest .userService) then
    sendError env packet.sequenceId .circuitOpen "user service circuit open" req.requestId
    return
  if env.hasExecutor then
    let loginDeviceId :=
      if req.deviceId = [] then connectionId else req.deviceId
    submit env {} (loginTask env req connectionId loginDeviceId)
      (loginCallback env connectionId packet.sequenceId req.requestId loginDeviceId req.platform)
  else
    sendError env packet.sequenceId .serviceUnavailable
      "gateway rpc executor unavailable" req.requestId

/-! ## Resuming a session -/

structure ResumeResult where
  resp : ResumeSessionResponse := {}
  rpcOk : Bool := true
  onlineOk : Bool := false

/-- The answer of `ValidateToken` does not establish a session. -/
def tokenRefused (validated : ValidateTokenResponse) : Bool :=
  responseCode validated.response != 0 || !validated.valid ||
    validated.userId == 0

def resumeTask (req : ResumeSessionRequest) (connectionId : Bytes) :
    m ResumeResult := do
  let (status, validated) ← env.validateToken ⟨req.requestId, req.token⟩
  match status with
  | .failed errorMessage =>
    env.recordFailure .userService
    let response : CommonResponse :=
      ⟨ErrorCode.gatewayBackendRpcFailed.toInt32, errorMessage, req.requestId⟩
    return { resp := { response }, rpcOk := false }
  | .ok =>
    env.recordSuccess .userService
    if tokenRefused validated then
      let response : CommonResponse :=
        { validated.response.getD {} with requestId := req.requestId }
      return { resp := { response } }
    else if ← env.setOnline validated.userId req.deviceId connectionId then
      let response : CommonResponse := ⟨ErrorCode.ok.toInt32, lit "OK", req.requestId⟩
      return {
        resp := { response, userId := validated.userId }, onlineOk := true }
    else
      let response : CommonResponse :=
        ⟨ErrorCode.gatewayOnlineStateFailed.toInt32, lit "online state failed", req.requestId⟩
      return { resp := { response, userId := validated.userId } }

def resumeCallback (req : ResumeSessionRequest) (connectionId : Bytes)
    (sequenceId : UInt32) (result : ResumeResult) (error : Bool) : m Unit := do
  if !(← env.connected connectionId) then
    if result.resp.userId ≠ 0 ∧ result.onlineOk then
      env.setOfflineAsync result.resp.userId req.deviceId connectionId
    return
  if error then
    sendError env sequenceId .serviceUnavailable "gateway rpc executor unavailable" req.requestId
    return
  if result.rpcOk && responseCode result.resp.response == 0 && result.onlineOk then
    if !(← env.bindUser connectionId result.resp.userId req.token req.deviceId req.platform) then
      env.setOfflineAsync result.resp.userId req.deviceId connectionId
      env.sendPacket (makeResponse .resumeSessionResp sequenceId
        { result.resp with
          response := setCodeMessage result.resp.response
            .gatewayOnlineStateFailed (lit "connection binding failed") }.fields)
      return
  env.sendPacket (makeResponse .resumeSessionResp sequenceId result.resp.fields)

/-- The request is read even when it did not parse: the error echoes the
request id of the fields read so far. -/
def handleResumeSession (connectionId : Bytes) (packet : Packet) : m Unit := do
  let (req, parsed) := Foundation.Wire.parse ResumeSessionRequest.set {} packet.body
  if !parsed || req.token = [] || req.deviceId = [] then
    sendError env packet.sequenceId .gatewayInvalidPacket
      "invalid resume session request" req.requestId
    return
  if !(← env.allowLogin) then
    sendError env packet.sequenceId .rateLimited "session resume rate limited" req.requestId
    return
  if !(← env.allowRequest .userService) then
    sendError env packet.sequenceId .serviceUnavailable "user service unavailable" req.requestId
    return
  if !env.hasExecutor then
    sendError env packet.sequenceId .serviceUnavailable "user service unavailable" req.requestId
    return
  submit env {} (resumeTask env req connectionId)
    (resumeCallback env req connectionId packet.sequenceId)

/-! ## Requests of an authenticated connection -/

def handleHeartbeat (connectionId : Bytes) (packet : Packet) : m Unit := do
  match ← env.getContext connectionId with
  | some ctx =>
    if ctx.authenticated then
      env.refreshOnlineAsync ctx.userId ctx.deviceId connectionId
  | none => pure ()
  env.sendPacket (makeResponse .heartbeatResp packet.sequenceId
    (CommonResponse.fields { code := 0, message := lit "OK" }))

/-- Run `handler` with the context of an authenticated connection. -/
def requireAuth (connectionId : Bytes) (sequenceId : UInt32)
    (handler : ConnectionContext → m Unit) : m Unit := do
  match ← env.getContext connectionId with
  | some ctx =>
    if ctx.authenticated then
      handler ctx
    else
      sendError env sequenceId .gatewayNotAuthenticated "not authenticated" []
  | none => sendError env sequenceId .gatewayNotAuthenticated "not authenticated" []

/-- The user that a request names, and the id that its replies repeat. -/
structure OwnRequest (Req : Type) where
  user : Req → UInt64
  setUser : UInt64 → Req → Req
  requestId : Req → Bytes
  user_setUser : ∀ userId req, user (setUser userId req) = userId
  requestId_setUser : ∀ userId req, requestId (setUser userId req) = requestId req

/-- The four requests to the message service.  The user of the connection is
filled in where the request names none; another user is refused. -/
def handleOwnRequest {Req Resp : Type} (own : OwnRequest Req) (parsed : Req × Bool)
    (badBody : String) (allow : UInt64 → m Bool) (default : Resp) (call : Req → m (Status × Resp))
    (setResponse : Resp → CommonResponse → Resp) (type : MessageType) (fields : Resp → List Field)
    (connectionId : Bytes) (sequenceId : UInt32) :
    m Unit :=
  requireAuth env connectionId sequenceId fun auth => do
    if !parsed.2 then
      sendError env sequenceId .gatewayInvalidPacket badBody []
      return
    let req :=
      if own.user parsed.1 = 0 then own.setUser auth.userId parsed.1 else parsed.1
    if own.user req ≠ auth.userId then
      sendError env sequenceId .gatewayPermissionDenied "permission denied" (own.requestId req)
      return
    if !(← allow auth.userId) then
      sendError env sequenceId .rateLimited "message rate limited" (own.requestId req)
      return
    if !(← env.allowRequest .messageService) then
      sendError env sequenceId .circuitOpen "message service circuit open" (own.requestId req)
      return
    forward env default .messageService (call req) setResponse type fields
      connectionId sequenceId (own.requestId req)

def handleSendSingleMessage (connectionId : Bytes) (packet : Packet) : m Unit :=
  handleOwnRequest env ⟨(·.fromUserId), fun userId req => { req with fromUserId := userId },
      (·.requestId), fun _ _ => rfl, fun _ _ => rfl⟩
    (Foundation.Wire.parse SendSingleMessageRequest.set {} packet.body)
    "bad single body" env.allowMessage {} env.sendSingleMessage
    (fun resp response => { resp with response := some response })
    .sendSingleMsgResp SendMessageResponse.fields connectionId packet.sequenceId

def handleSendGroupMessage (connectionId : Bytes) (packet : Packet) : m Unit :=
  handleOwnRequest env ⟨(·.fromUserId), fun userId req => { req with fromUserId := userId },
      (·.requestId), fun _ _ => rfl, fun _ _ => rfl⟩
    (Foundation.Wire.parse SendGroupMessageRequest.set {} packet.body)
    "bad group body" env.allowMessage {} env.sendGroupMessage
    (fun resp response => { resp with response := some response })
    .sendGroupMsgResp SendMessageResponse.fields connectionId packet.sequenceId

/-- Acknowledgements and pulls are not rate limited. -/
def handleAck (connectionId : Bytes) (packet : Packet) : m Unit :=
  handleOwnRequest env ⟨(·.userId), fun userId req => { req with userId := userId }, (·.requestId),
      fun _ _ => rfl, fun _ _ => rfl⟩
    (Foundation.Wire.parse AckMessageRequest.set {} packet.body) "bad ack body"
    (fun _ => pure true) {} env.ackMessage
    (fun resp response => { resp with response := some response })
    .ackResp AckMessageResponse.fields connectionId packet.sequenceId

def handlePullOfflineMessages (connectionId : Bytes) (packet : Packet) :
    m Unit :=
  handleOwnRequest env ⟨(·.userId), fun userId req => { req with userId := userId }, (·.requestId),
      fun _ _ => rfl, fun _ _ => rfl⟩
    (Foundation.Wire.parse PullOfflineMessagesRequest.set {} packet.body)
    "bad pull body" (fun _ => pure true) {} env.pullOfflineMessages
    (fun resp response => { resp with response := some response })
    .pullOfflineMsgResp PullOfflineMessagesResponse.fields connectionId
    packet.sequenceId

def handlePacket (connectionId : Bytes) (packet : Packet) : m Unit := do
  env.updateActiveTime connectionId
  match packet.type with
  | .registerReq => handleRegister env connectionId packet
  | .loginReq => handleLogin env connectionId packet
  | .resumeSessionReq => handleResumeSession env connectionId packet
  | .heartbeatReq => handleHeartbeat env connectionId packet
  | .sendSingleMsgReq => handleSendSingleMessage env connectionId packet
  | .sendGroupMsgReq => handleSendGroupMessage env connectionId packet
  | .ackReq => handleAck env connectionId packet
  | .pullOfflineMsgReq => handlePullOfflineMessages env connectionId packet
  | _ =>
    sendError env packet.sequenceId .gatewayInvalidPacket "unsupported packet" []

end Handlers

end NebulaIM.Gateway
