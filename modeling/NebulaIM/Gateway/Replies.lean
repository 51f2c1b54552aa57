import NebulaIM.Gateway.Router

/-!
# Which replies of the router can be framed

Every reply leaves through `GatewayServer::sendPacket`, whose first step is
`PacketCodec::encode`; nothing on the event loop catches what it throws.  A
reply repeats the request id of the client and the texts of the backend, so its
size is bounded only by theirs.  This module computes the exact sizes.
-/

namespace NebulaIM.Gateway

open NebulaIM.Protocol
open Foundation.Wire hiding encode decode decode_encode

/-! ## Running the router once -/

def Sending (α : Type) : Type := α × List Packet

instance : Monad Sending where
  pure value := (value, [])
  bind x f := ((f x.1).1, x.2 ++ (f x.1).2)

def send (packet : Packet) : Sending Unit := ((), [packet])

/--
Everything one handled packet depends on: the state of the connection and of
the limiters when it arrives, what the backends answer, and the state of the
connection when the answer is there.
-/
structure Circumstances where
  context : Option ConnectionContext
  allowLogin : Bool
  allowMessage : Bool
  allowRequest : Service → Bool
  hasExecutor : Bool
  accepts : Bool
  taskThrew : Bool
  register : Status × RegisterResponse
  login : Status × LoginResponse
  validateToken : Status × ValidateTokenResponse
  sendSingleMessage : Status × SendMessageResponse
  sendGroupMessage : Status × SendMessageResponse
  ackMessage : Status × AckMessageResponse
  pullOfflineMessages : Status × PullOfflineMessagesResponse
  setOnline : Bool
  connected : Bool
  bindUser : Bool

@[simps]
def Circumstances.env (c : Circumstances) : RouterEnv Sending where
  updateActiveTime _ := pure ()
  getContext _ := pure c.context
  connected _ := pure c.connected
  bindUser _ _ _ _ _ := pure c.bindUser
  allowLogin := pure c.allowLogin
  allowMessage _ := pure c.allowMessage
  allowRequest service := pure (c.allowRequest service)
  recordSuccess _ := pure ()
  recordFailure _ := pure ()
  hasExecutor := c.hasExecutor
  accepts := pure c.accepts
  taskThrew := pure c.taskThrew
  register _ := pure c.register
  login _ := pure c.login
  validateToken _ := pure c.validateToken
  sendSingleMessage _ := pure c.sendSingleMessage
  sendGroupMessage _ := pure c.sendGroupMessage
  ackMessage _ := pure c.ackMessage
  pullOfflineMessages _ := pure c.pullOfflineMessages
  setOnline _ _ _ := pure c.setOnline
  setOfflineAsync _ _ _ := pure ()
  refreshOnlineAsync _ _ _ := pure ()
  sendPacket := send

def replies (c : Circumstances) (connectionId : Bytes) (packet : Packet) :
    List Packet :=
  (handlePacket c.env connectionId packet).2

def AllSent {α : Type} (P : Packet → Prop) (x : Sending α) : Prop := ∀ packet ∈ x.2, P packet

section AllSent

variable {α β : Type} {P : Packet → Prop}

@[simp] theorem Sending.pure_bind (value : α) (f : α → Sending β) :
    (pure value >>= f) = f value := rfl

@[simp] theorem Sending.fst_pure (value : α) :
    Prod.fst (pure value : Sending α) = value := rfl

@[simp] theorem Sending.snd_pure (value : α) :
    Prod.snd (pure value : Sending α) = [] := rfl

theorem Sending.eq_pure {x : Sending α} (hsilent : x.2 = []) : x = pure x.1 := Prod.ext rfl hsilent

@[simp] theorem allSent_pure (value : α) :
    AllSent P (pure value : Sending α) ↔ True := by
  simp [AllSent, pure]

@[simp] theorem allSent_send (packet : Packet) :
    AllSent P (send packet) ↔ P packet := by
  simp [AllSent, send]

@[simp] theorem allSent_send_bind (packet : Packet) (f : Unit → Sending β) :
    AllSent P (send packet >>= f) ↔ P packet ∧ AllSent P (f ()) := by
  simp [AllSent, send, bind]

@[simp] theorem allSent_ite (condition : Prop) [Decidable condition] (x y : Sending α) :
    AllSent P (if condition then x else y) ↔
      if condition then AllSent P x else AllSent P y := by
  split <;> rfl

end AllSent

/-! ## Sizes -/

def uintSize (number value : Nat) : Nat :=
  if value = 0 then 0 else varintSize (8 * number) + varintSize value

theorem size_uint (number value : Nat) : size (uint number value) = uintSize number value := by
  simp only [uint, uintSize]
  split <;> simp [Field.size]

def commonSize (code : Int32) (messageLength requestIdLength : Nat) : Nat :=
  uintSize 1 (int32Value code) + textSize 2 messageLength + textSize 3 requestIdLength

theorem CommonResponse.size_fields (r : CommonResponse) :
    size r.fields = commonSize r.code r.message.length r.requestId.length := by
  simp only [CommonResponse.fields, size_append, size_uint, size_text, commonSize]

/-- The size of a response that starts with a common response of `inner` bytes
and goes on with `rest` more bytes. -/
def envelopeSize (inner rest : Nat) : Nat := varintSize 10 + varintSize inner + inner + rest

theorem size_response (r : CommonResponse) (rest : List Field) :
    size (message 1 (some r.fields) ++ rest) =
      envelopeSize (commonSize r.code r.message.length r.requestId.length) (size rest) := by
  rw [size_append, size_message_some, CommonResponse.size_fields, envelopeSize]

/-- What remains of a body for the text and the request id of an error reply:
three bytes go to the code, two to the head of the text and four to the head of
a request id long enough to matter. -/
def errorRoom : Nat := kMaxBodyLength - 9

def ErrorFits (message : String) (requestId : Bytes) : Prop :=
  (lit message).length + requestId.length ≤ errorRoom

/-- The error code takes two bytes and the text is short but not empty. -/
def ShortError (code : ErrorCode) (message : String) : Prop :=
  (128 ≤ int32Value code.toInt32 ∧ int32Value code.toInt32 < 128 ^ 2) ∧
    0 < (lit message).length ∧ (lit message).length < 128

instance (code : ErrorCode) (message : String) : Decidable (ShortError code message) :=
  inferInstanceAs (Decidable (_ ∧ _))

theorem canEncode_makeResponse {type : MessageType} (sequenceId : UInt32)
    (fields : List Field) (htype : type ≠ .unknown) :
    CanEncode (makeResponse type sequenceId fields) ↔ size fields ≤ kMaxBodyLength := by
  simp [CanEncode, makeResponse, encode_length, htype]

private theorem varintSize_one {n : Nat} (hn : n < 128) : varintSize n = 1 := by
  rw [varintSize, if_pos hn]

private theorem varintSize_two {n : Nat} (hlow : 128 ≤ n) (hhigh : n < 128 ^ 2) :
    varintSize n = 2 := by
  rw [varintSize, if_neg (by omega), varintSize_one (by omega)]

variable {message : String}

theorem canEncode_makeErrorResponse {code : ErrorCode} (sequenceId : UInt32) (requestId : Bytes)
    (hshort : ShortError code message) :
    CanEncode (makeErrorResponse sequenceId code (lit message) requestId) ↔
      ErrorFits message requestId := by
  obtain ⟨⟨hlow, hhigh⟩, hpos, hlength⟩ := hshort
  rw [makeErrorResponse, canEncode_makeResponse _ _ (by decide),
    CommonResponse.size_fields, ErrorFits]
  change commonSize code.toInt32 (lit message).length requestId.length ≤ _ ↔ _
  have hcode : uintSize 1 (int32Value code.toInt32) = 3 := by
    rw [uintSize, if_neg (by omega), varintSize_one (by omega),
      varintSize_two hlow hhigh]
  have hmessage : textSize 2 (lit message).length = 2 + (lit message).length := by
    rw [textSize, if_neg (by omega), varintSize_one (by omega),
      varintSize_one hlength]
  -- the head of the request id grows to four bytes long before the body is full
  have htwo := varintSize_le_succ_iff requestId.length 1
  have hthree := varintSize_le_succ_iff requestId.length 2
  have hone := varintSize_pos requestId.length
  rw [commonSize, hcode, hmessage, textSize,
    varintSize_one (show 8 * 3 + 2 < 128 by omega), errorRoom, kMaxBodyLength]
  split <;> omega

/-! ## The exact condition -/

def executorUnavailable : String := "gateway rpc executor unavailable"

def Circumstances.completes (c : Circumstances) : Bool := c.accepts && !c.taskThrew

/-- A submitted RPC whose result is sent when `ReplyFits` holds. -/
def SubmitFits (c : Circumstances) (requestId : Bytes) (ReplyFits : Prop) :
    Prop :=
  if c.connected then
    if c.completes then ReplyFits else ErrorFits executorUnavailable requestId
  else True

/-- `responseSize` is the size of the backend's response and `restSize` the size
of its fields after the common response. -/
def ForwardFits (c : Circumstances) (status : Status)
    (responseSize restSize : Nat) (requestId : Bytes) : Prop :=
  if c.hasExecutor then
    SubmitFits c requestId <|
      match status with
      | .ok => responseSize ≤ kMaxBodyLength
      | .failed errorMessage =>
        envelopeSize
          (commonSize ErrorCode.gatewayBackendRpcFailed.toInt32
            errorMessage.length requestId.length) restSize ≤ kMaxBodyLength
  else ErrorFits executorUnavailable requestId

def RegisterFits (c : Circumstances) (body : Bytes) : Prop :=
  let (req, parsed) := parse RegisterRequest.set {} body
  if !parsed then True
  else if !c.allowLogin then ErrorFits "register rate limited" req.requestId
  else if !c.allowRequest .userService then
    ErrorFits "user service circuit open" req.requestId
  else
    ForwardFits c c.register.1 (size c.register.2.fields)
      (uintSize 2 c.register.2.userId.toNat) req.requestId

/-- The size of the fields of a login response after the common response. -/
def loginRest (resp : LoginResponse) : Nat :=
  uintSize 2 resp.userId.toNat + textSize 3 resp.token.length +
    uintSize 4 (int64Value resp.expireAt)

/-- The common response of a login that could not be completed: the backend's
own one with the gateway's code and a text of `messageLength` bytes. -/
def OnlineFailureFits (response : Option CommonResponse) (messageLength rest : Nat) : Prop :=
  envelopeSize
    (commonSize ErrorCode.gatewayOnlineStateFailed.toInt32 messageLength
      (response.getD {}).requestId.length) rest ≤ kMaxBodyLength

def LoginReplyFits (c : Circumstances) (requestId : Bytes) : Prop :=
  let (status, resp) := c.login
  match status with
  | .failed errorMessage =>
    envelopeSize
      (commonSize ErrorCode.gatewayBackendRpcFailed.toInt32
        errorMessage.length requestId.length) (loginRest resp) ≤ kMaxBodyLength
  | .ok =>
    if responseCode resp.response = 0 then
      if !c.setOnline then
        OnlineFailureFits resp.response (lit "online state failed").length (loginRest resp)
      else if !c.bindUser then
        OnlineFailureFits resp.response (lit "connection binding failed").length (loginRest resp)
      else size resp.fields ≤ kMaxBodyLength
    else size resp.fields ≤ kMaxBodyLength

def LoginFits (c : Circumstances) (body : Bytes) : Prop :=
  let (req, parsed) := parse LoginRequest.set {} body
  if !parsed then True
  else if !c.allowLogin then ErrorFits "login rate limited" req.requestId
  else if !c.allowRequest .userService then
    ErrorFits "user service circuit open" req.requestId
  else if c.hasExecutor then
    SubmitFits c req.requestId (LoginReplyFits c req.requestId)
  else ErrorFits executorUnavailable req.requestId

def ResumeReplyFits (c : Circumstances) (requestId : Bytes) : Prop :=
  let (status, validated) := c.validateToken
  let fits (code : Int32) (messageLength rest : Nat) : Prop :=
    envelopeSize (commonSize code messageLength requestId.length) rest ≤ kMaxBodyLength
  let userId := uintSize 2 validated.userId.toNat
  match status with
  | .failed errorMessage => fits ErrorCode.gatewayBackendRpcFailed.toInt32 errorMessage.length 0
  | .ok =>
    if tokenRefused validated then
      fits (responseCode validated.response) (validated.response.getD {}).message.length 0
    else if !c.setOnline then
      fits ErrorCode.gatewayOnlineStateFailed.toInt32 (lit "online state failed").length userId
    else if !c.bindUser then
      fits ErrorCode.gatewayOnlineStateFailed.toInt32
        (lit "connection binding failed").length userId
    else fits ErrorCode.ok.toInt32 (lit "OK").length userId

def ResumeSessionFits (c : Circumstances) (body : Bytes) : Prop :=
  let (req, parsed) := parse ResumeSessionRequest.set {} body
  if !parsed || req.token = [] || req.deviceId = [] then
    ErrorFits "invalid resume session request" req.requestId
  else if !c.allowLogin then
    ErrorFits "session resume rate limited" req.requestId
  else if !c.allowRequest .userService then
    ErrorFits "user service unavailable" req.requestId
  else if !c.hasExecutor then
    ErrorFits "user service unavailable" req.requestId
  else SubmitFits c req.requestId (ResumeReplyFits c req.requestId)

/-- Nothing but a fixed text is sent to a connection that is not logged in. -/
def AuthenticatedFits (c : Circumstances) (Fits : UInt64 → Prop) : Prop :=
  match c.context with
  | none => True
  | some ctx => if ctx.authenticated then Fits ctx.userId else True

def SendFits (c : Circumstances) (backend : Status × SendMessageResponse)
    (parsed : Bool) (fromUserId : UInt64) (requestId : Bytes) : Prop :=
  AuthenticatedFits c fun userId =>
    if !parsed then True
    else if fromUserId ≠ 0 ∧ fromUserId ≠ userId then
      ErrorFits "permission denied" requestId
    else if !c.allowMessage then ErrorFits "message rate limited" requestId
    else if !c.allowRequest .messageService then
      ErrorFits "message service circuit open" requestId
    else
      ForwardFits c backend.1 (size backend.2.fields)
        (uintSize 2 backend.2.messageId.toNat +
          uintSize 3 (int64Value backend.2.serverTimestamp)) requestId

/-- The requests that name their own user and are not rate limited. -/
def OwnRequestFits (c : Circumstances) (status : Status) (responseSize restSize : Nat)
    (parsed : Bool) (user : UInt64) (requestId : Bytes) : Prop :=
  AuthenticatedFits c fun userId =>
    if !parsed then True
    else if user ≠ 0 ∧ user ≠ userId then
      ErrorFits "permission denied" requestId
    else if !c.allowRequest .messageService then
      ErrorFits "message service circuit open" requestId
    else ForwardFits c status responseSize restSize requestId

/-- The sizes of the fields of a pull response after the common response. -/
def pullRest (resp : PullOfflineMessagesResponse) : Nat :=
  size (PullOfflineMessagesResponse.fields { resp with response := none })

/--
The condition on the packet and the circumstances under which every reply can
be framed: in each branch, the echoed request id and the texts and fields of the
backend leave room for what the gateway adds.
-/
def RepliesFit (c : Circumstances) (packet : Packet) : Prop :=
  match packet.type with
  | .registerReq => RegisterFits c packet.body
  | .loginReq => LoginFits c packet.body
  | .resumeSessionReq => ResumeSessionFits c packet.body
  | .sendSingleMsgReq =>
    let (req, parsed) := parse SendSingleMessageRequest.set {} packet.body
    SendFits c c.sendSingleMessage parsed req.fromUserId req.requestId
  | .sendGroupMsgReq =>
    let (req, parsed) := parse SendGroupMessageRequest.set {} packet.body
    SendFits c c.sendGroupMessage parsed req.fromUserId req.requestId
  | .ackReq =>
    let (req, parsed) := parse AckMessageRequest.set {} packet.body
    OwnRequestFits c c.ackMessage.1 (size c.ackMessage.2.fields) 0 parsed req.userId req.requestId
  | .pullOfflineMsgReq =>
    let (req, parsed) := parse PullOfflineMessagesRequest.set {} packet.body
    OwnRequestFits c c.pullOfflineMessages.1
      (size c.pullOfflineMessages.2.fields) (pullRest c.pullOfflineMessages.2)
      parsed req.userId req.requestId
  | _ => True

/-! ## Proof -/

theorem allSent_sendError {c : Circumstances} {code : ErrorCode} (sequenceId : UInt32)
    (requestId : Bytes) (hshort : ShortError code message) :
    AllSent CanEncode (sendError c.env sequenceId code message requestId) ↔
      ErrorFits message requestId :=
  (allSent_send _).trans (canEncode_makeErrorResponse sequenceId requestId hshort)

theorem allSent_sendError_bind {c : Circumstances} {code : ErrorCode} (sequenceId : UInt32)
    (requestId : Bytes) (hshort : ShortError code message) :
    AllSent CanEncode (sendError c.env sequenceId code message requestId >>= fun _ => pure ()) ↔
      ErrorFits message requestId := by
  rw [sendError, Circumstances.env, allSent_send_bind,
    canEncode_makeErrorResponse sequenceId requestId hshort]
  simp

theorem allSent_submit {α : Type} (P : Packet → Prop) (c : Circumstances)
    (default value : α) (callback : α → Bool → Sending Unit) :
    AllSent P (submit c.env default (pure value) callback) ↔
      if c.completes then AllSent P (callback value false)
      else AllSent P (callback default true) := by
  unfold submit
  cases haccepts : c.accepts <;> cases hthrew : c.taskThrew <;>
    simp [Circumstances.env, Circumstances.completes, haccepts, hthrew]

/-- A callback that answers only a live connection and reports an error of the
executor before it looks at its result. -/
theorem submitFits_iff (c : Circumstances) (requestId : Bytes) (ReplyFits OnResult OnError : Prop)
    (hresult : OnResult ↔ if c.connected then ReplyFits else True)
    (herror : OnError ↔ if c.connected then ErrorFits executorUnavailable requestId else True) :
    (if c.completes then OnResult else OnError) ↔
      SubmitFits c requestId ReplyFits := by
  rw [hresult, herror, SubmitFits]
  split <;> split <;> rfl

def forwarded {Resp : Type} (setResponse : Resp → CommonResponse → Resp)
    (requestId : Bytes) : Status × Resp → Resp
  | (.failed errorMessage, resp) =>
    setResponse resp ⟨ErrorCode.gatewayBackendRpcFailed.toInt32, errorMessage, requestId⟩
  | (.ok, resp) => resp

theorem forwardTask_eq (c : Circumstances) {Resp : Type} (service : Service)
    (backend : Status × Resp) (setResponse : Resp → CommonResponse → Resp) (requestId : Bytes) :
    forwardTask c.env service (pure backend) setResponse requestId =
      pure (forwarded setResponse requestId backend) := by
  obtain ⟨status, resp⟩ := backend
  cases status <;> rfl

theorem allSent_forward (c : Circumstances) {Resp : Type} (default : Resp)
    (service : Service) (backend : Status × Resp)
    (setResponse : Resp → CommonResponse → Resp) {type : MessageType}
    (htype : type ≠ .unknown) (fields : Resp → List Field) (restSize : Nat)
    (hsize : ∀ response, size (fields (setResponse backend.2 response)) =
      envelopeSize (commonSize response.code response.message.length
        response.requestId.length) restSize)
    (connectionId : Bytes) (sequenceId : UInt32) (requestId : Bytes) :
    AllSent CanEncode
      (forward c.env default service (pure backend) setResponse type
        fields connectionId sequenceId requestId) ↔
      ForwardFits c backend.1 (size (fields backend.2)) restSize requestId := by
  have hunavailable : ShortError .serviceUnavailable "gateway rpc executor unavailable" := by
    decide
  unfold forward ForwardFits
  rw [forwardTask_eq, allSent_ite, Circumstances.env_hasExecutor,
    allSent_sendError _ _ hunavailable, allSent_submit]
  refine Iff.of_eq (if_congr Iff.rfl (propext ?_) rfl)
  refine submitFits_iff c requestId _ _ _ ?_ ?_
  · obtain ⟨status, resp⟩ := backend
    cases hconnected : c.connected
    · simp [hconnected]
    · cases status <;>
        simp [hconnected, forwarded, canEncode_makeResponse _ _ htype, hsize]
  · cases hconnected : c.connected
    · simp [hconnected]
    · simp [hconnected, executorUnavailable, allSent_sendError_bind _ _ hunavailable]

/-! ## The handlers -/

private theorem fits_text (hlength : (lit message).length < 128) : ErrorFits message [] ↔ True := by
  simp only [ErrorFits, List.length_nil, errorRoom, kMaxBodyLength, iff_true]
  omega

section Handlers

variable (c : Circumstances) (connectionId : Bytes) (packet : Packet)

theorem allSent_handleRegister :
    AllSent CanEncode (handleRegister c.env connectionId packet) ↔ RegisterFits c packet.body := by
  unfold handleRegister RegisterFits
  generalize parse RegisterRequest.set {} packet.body = parsed
  have hforward := allSent_forward c {} .userService c.register
    (fun resp response => { resp with response := some response })
    (show MessageType.registerResp ≠ .unknown by decide) RegisterResponse.fields
    (uintSize 2 c.register.2.userId.toNat)
    (fun response => by
      rw [← size_uint]
      exact size_response response _)
    connectionId packet.sequenceId parsed.1.requestId
  simp (disch := decide) [allSent_sendError_bind, fits_text, hforward]

theorem allSent_requireAuth (c : Circumstances) (connectionId : Bytes) (sequenceId : UInt32)
    (handler : ConnectionContext → Sending Unit) (Fits : UInt64 → Prop)
    (hhandler : ∀ ctx, AllSent CanEncode (handler ctx) ↔ Fits ctx.userId) :
    AllSent CanEncode (requireAuth c.env connectionId sequenceId handler) ↔
      AuthenticatedFits c Fits := by
  unfold requireAuth AuthenticatedFits
  cases hcontext : c.context <;>
    simp (disch := decide) [hcontext, hhandler, allSent_sendError, fits_text]

private theorem size_sendMessageResponse (resp : SendMessageResponse) (response : CommonResponse) :
    size (SendMessageResponse.fields { resp with response := some response }) =
      envelopeSize (commonSize response.code response.message.length response.requestId.length)
        (uintSize 2 resp.messageId.toNat + uintSize 3 (int64Value resp.serverTimestamp)) := by
  rw [← size_uint, ← size_uint, ← size_append]
  exact (congrArg size (List.append_assoc _ _ _)).trans (size_response response _)

theorem allSent_handleOwnRequest (c : Circumstances) {Req Resp : Type}
    (own : OwnRequest Req) (parsed : Req × Bool) {badBody : String}
    (hbad : ShortError .gatewayInvalidPacket badBody) (allowed : Bool)
    (default : Resp) (backend : Status × Resp)
    (setResponse : Resp → CommonResponse → Resp) {type : MessageType}
    (htype : type ≠ .unknown) (fields : Resp → List Field) (restSize : Nat)
    (hsize : ∀ response, size (fields (setResponse backend.2 response)) =
      envelopeSize (commonSize response.code response.message.length
        response.requestId.length) restSize)
    (connectionId : Bytes) (sequenceId : UInt32) :
    AllSent CanEncode
      (handleOwnRequest c.env own parsed badBody (fun _ => pure allowed) default
        (fun _ => pure backend) setResponse type fields connectionId sequenceId) ↔
      AuthenticatedFits c fun userId =>
        if !parsed.2 then True
        else if own.user parsed.1 ≠ 0 ∧ own.user parsed.1 ≠ userId then
          ErrorFits "permission denied" (own.requestId parsed.1)
        else if !allowed then
          ErrorFits "message rate limited" (own.requestId parsed.1)
        else if !c.allowRequest .messageService then
          ErrorFits "message service circuit open" (own.requestId parsed.1)
        else
          ForwardFits c backend.1 (size (fields backend.2)) restSize (own.requestId parsed.1) := by
  have hforward := allSent_forward c default .messageService backend setResponse
    htype fields restSize hsize connectionId sequenceId (own.requestId parsed.1)
  have hrefused := (allSent_sendError_bind (c := c) sequenceId [] hbad).trans (fits_text hbad.2.2)
  refine allSent_requireAuth c connectionId sequenceId _ _ fun auth => ?_
  by_cases hzero : own.user parsed.1 = 0 <;>
    simp (disch := decide) [allSent_sendError_bind, hrefused, hforward, hzero,
      own.user_setUser, own.requestId_setUser]

theorem allSent_handleSendSingleMessage :
    AllSent CanEncode (handleSendSingleMessage c.env connectionId packet) ↔
      let (req, parsed) := parse SendSingleMessageRequest.set {} packet.body
      SendFits c c.sendSingleMessage parsed req.fromUserId req.requestId :=
  allSent_handleOwnRequest c _ _ (by decide) c.allowMessage {} c.sendSingleMessage
    _ (by decide) _ _ (size_sendMessageResponse _) connectionId packet.sequenceId

theorem allSent_handleSendGroupMessage :
    AllSent CanEncode (handleSendGroupMessage c.env connectionId packet) ↔
      let (req, parsed) := parse SendGroupMessageRequest.set {} packet.body
      SendFits c c.sendGroupMessage parsed req.fromUserId req.requestId :=
  allSent_handleOwnRequest c _ _ (by decide) c.allowMessage {} c.sendGroupMessage
    _ (by decide) _ _ (size_sendMessageResponse _) connectionId packet.sequenceId

theorem allSent_handleAck : AllSent CanEncode (handleAck c.env connectionId packet) ↔
      let (req, parsed) := parse AckMessageRequest.set {} packet.body
      OwnRequestFits c c.ackMessage.1 (size c.ackMessage.2.fields)
        0 parsed req.userId req.requestId := by
  refine allSent_handleOwnRequest c _ _ (by decide) true {} c.ackMessage
    _ (by decide) _ _ (fun response => ?_) connectionId packet.sequenceId
  have hsize := size_response response []
  rwa [List.append_nil] at hsize

theorem allSent_handlePullOfflineMessages :
    AllSent CanEncode (handlePullOfflineMessages c.env connectionId packet) ↔
      let (req, parsed) := parse PullOfflineMessagesRequest.set {} packet.body
      OwnRequestFits c c.pullOfflineMessages.1 (size c.pullOfflineMessages.2.fields)
        (pullRest c.pullOfflineMessages.2) parsed req.userId req.requestId := by
  refine allSent_handleOwnRequest c _ _ (by decide) true {} c.pullOfflineMessages
    _ (by decide) _ _ (fun response => ?_) connectionId packet.sequenceId
  exact (congrArg size (List.append_assoc _ _ _)).trans (size_response response _)

private theorem size_loginResponse (resp : LoginResponse) (response : CommonResponse) :
    size (LoginResponse.fields { resp with response := some response }) =
      envelopeSize (commonSize response.code response.message.length
        response.requestId.length) (loginRest resp) := by
  have hrest : loginRest resp =
      size (uint 2 resp.userId.toNat ++ (text 3 resp.token ++
        uint 4 (int64Value resp.expireAt))) := by
    simp only [loginRest, size_append, size_uint, size_text, Nat.add_assoc]
  rw [hrest, ← size_response]
  simp [LoginResponse.fields]

theorem allSent_loginCallback (c : Circumstances) (connectionId : Bytes) (sequenceId : UInt32)
    (requestId deviceId platform : Bytes) (result : LoginResult) :
    AllSent CanEncode
      (loginCallback c.env connectionId sequenceId requestId deviceId platform result false) ↔
      if c.connected then
        if result.established && !c.bindUser then
          OnlineFailureFits result.resp.response
            (lit "connection binding failed").length (loginRest result.resp)
        else size result.resp.fields ≤ kMaxBodyLength
      else True := by
  have htype : MessageType.loginResp ≠ .unknown := by decide
  simp only [loginCallback]
  cases hconnected : c.connected
  · cases result.established <;> simp [hconnected]
  · cases result.established <;> cases hbind : c.bindUser <;>
      simp [hconnected, hbind, canEncode_makeResponse _ _ htype,
        OnlineFailureFits, setCodeMessage, size_loginResponse]

theorem loginTask_silent (c : Circumstances) (req : LoginRequest) (connectionId deviceId : Bytes) :
    (loginTask c.env req connectionId deviceId).2 = [] := by
  rcases hlogin : c.login with ⟨status, resp⟩
  cases status
  · by_cases hcode : responseCode resp.response = 0 <;>
      cases hset : c.setOnline <;>
      simp [loginTask, hlogin, hcode, hset, Sending.snd_pure]
  · simp [loginTask, hlogin, Sending.snd_pure]

theorem allSent_login (c : Circumstances) (req : LoginRequest)
    (connectionId : Bytes) (sequenceId : UInt32) (deviceId platform : Bytes) :
    AllSent CanEncode
      (submit c.env {} (loginTask c.env req connectionId deviceId)
        (loginCallback c.env connectionId sequenceId req.requestId deviceId platform)) ↔
      SubmitFits c req.requestId (LoginReplyFits c req.requestId) := by
  rw [Sending.eq_pure (loginTask_silent c req connectionId deviceId), allSent_submit]
  refine submitFits_iff c req.requestId _ _ _ ?_ ?_
  · rw [allSent_loginCallback]
    refine Iff.of_eq (if_congr Iff.rfl (propext ?_) rfl)
    unfold LoginReplyFits
    rcases hlogin : c.login with ⟨status, resp⟩
    cases status
    · by_cases hcode : responseCode resp.response = 0
      · cases hset : c.setOnline <;> cases c.bindUser <;>
        simp [loginTask, hlogin, hcode, hset, LoginResult.established,
          OnlineFailureFits, setCodeMessage, size_loginResponse]
      · simp [loginTask, hlogin, hcode, LoginResult.established]
    · simp [loginTask, hlogin, LoginResult.established, size_loginResponse]
  · cases hconnected : c.connected <;>
      simp (disch := decide) [loginCallback, hconnected, executorUnavailable,
        allSent_sendError_bind]

theorem allSent_handleLogin :
    AllSent CanEncode (handleLogin c.env connectionId packet) ↔ LoginFits c packet.body := by
  unfold handleLogin LoginFits
  generalize parse LoginRequest.set {} packet.body = parsed
  simp (disch := decide) [allSent_sendError_bind, fits_text, allSent_login,
    allSent_sendError, executorUnavailable]

private theorem size_resumeSessionResponse (response : CommonResponse) (userId : UInt64) :
    size (ResumeSessionResponse.fields ⟨some response, userId⟩) =
      envelopeSize (commonSize response.code response.message.length
        response.requestId.length) (uintSize 2 userId.toNat) := by
  rw [← size_uint]
  exact size_response response _

theorem resumeTask_silent (c : Circumstances) (req : ResumeSessionRequest)
    (connectionId : Bytes) : (resumeTask c.env req connectionId).2 = [] := by
  rcases hvalidate : c.validateToken with ⟨status, validated⟩
  cases status
  · cases hrefused : tokenRefused validated <;> cases hset : c.setOnline <;>
      simp [resumeTask, hvalidate, hrefused, hset]
  · simp [resumeTask, hvalidate]

theorem allSent_resume (c : Circumstances) (req : ResumeSessionRequest)
    (connectionId : Bytes) (sequenceId : UInt32) :
    AllSent CanEncode
      (submit c.env {} (resumeTask c.env req connectionId)
        (resumeCallback c.env req connectionId sequenceId)) ↔
      SubmitFits c req.requestId (ResumeReplyFits c req.requestId) := by
  have htype : MessageType.resumeSessionResp ≠ .unknown := by decide
  have hfailed : ErrorCode.gatewayBackendRpcFailed.toInt32 ≠ 0 := by decide
  rw [Sending.eq_pure (resumeTask_silent c req connectionId), allSent_submit]
  refine submitFits_iff c req.requestId _ _ _ ?_ ?_
  · cases hconnected : c.connected
    · simp [resumeCallback, hconnected]
    unfold ResumeReplyFits
    rcases hvalidate : c.validateToken with ⟨status, validated⟩
    cases status
    · cases hrefused : tokenRefused validated
      · cases hset : c.setOnline <;> cases hbind : c.bindUser <;>
        simp [resumeTask, resumeCallback, hconnected, hvalidate, hrefused, hset,
          hbind, canEncode_makeResponse _ _ htype, size_resumeSessionResponse,
          responseCode, setCodeMessage, ErrorCode.toInt32]
      · simp [resumeTask, resumeCallback, hconnected, hvalidate, hrefused,
          canEncode_makeResponse _ _ htype, size_resumeSessionResponse,
          responseCode, uintSize]
    · simp [resumeTask, resumeCallback, hconnected, hvalidate,
        canEncode_makeResponse _ _ htype, size_resumeSessionResponse, uintSize]
  · cases hconnected : c.connected <;>
      simp (disch := decide) [resumeCallback, hconnected, executorUnavailable,
        allSent_sendError_bind]

theorem allSent_handleResumeSession :
    AllSent CanEncode (handleResumeSession c.env connectionId packet) ↔
      ResumeSessionFits c packet.body := by
  unfold handleResumeSession ResumeSessionFits
  generalize parse ResumeSessionRequest.set {} packet.body = parsed
  simp (disch := decide) [allSent_sendError_bind, allSent_resume]

theorem allSent_handleHeartbeat :
    AllSent CanEncode (handleHeartbeat c.env connectionId packet) := by
  have hcan : CanEncode (makeResponse .heartbeatResp packet.sequenceId
      (CommonResponse.fields { code := 0, message := lit "OK" })) := by
    rw [canEncode_makeResponse _ _ (by decide), CommonResponse.size_fields]
    have htext : textSize 2 (lit "OK").length = 4 := by
      rw [textSize, if_neg (by decide), varintSize_one (by decide),
        varintSize_one (by decide)]
      decide
    change uintSize 1 0 + textSize 2 (lit "OK").length + textSize 3 0 ≤ _
    rw [htext]
    decide
  rcases hcontext : c.context with _ | ⟨ctx⟩
  · simpa [handleHeartbeat, hcontext] using hcan
  · cases hauth : ctx.authenticated <;>
      simpa [handleHeartbeat, hcontext, hauth] using hcan

theorem allSent_handlePacket : AllSent CanEncode (handlePacket c.env connectionId packet) ↔
      RepliesFit c packet := by
  obtain ⟨type, sequenceId, body⟩ := packet
  cases type
  case registerReq => exact allSent_handleRegister c connectionId _
  case loginReq => exact allSent_handleLogin c connectionId _
  case resumeSessionReq => exact allSent_handleResumeSession c connectionId _
  case heartbeatReq => exact iff_of_true (allSent_handleHeartbeat c connectionId _) trivial
  case sendSingleMsgReq => exact allSent_handleSendSingleMessage c connectionId _
  case sendGroupMsgReq => exact allSent_handleSendGroupMessage c connectionId _
  case ackReq => exact allSent_handleAck c connectionId _
  case pullOfflineMsgReq => exact allSent_handlePullOfflineMessages c connectionId _
  all_goals
    exact (allSent_sendError (c := c) sequenceId [] (by decide)).trans
      (fits_text (by decide))

end Handlers

def bareResume (requestId : Bytes) : Packet where
  type := .resumeSessionReq
  sequenceId := 1
  body := Foundation.Wire.encode [.bytes 1 requestId]

theorem parse_bareResume {requestId : Bytes} (hutf8 : utf8 requestId = true)
    (hlength : requestId.length < 2 ^ 31) :
    parse ResumeSessionRequest.set {} (bareResume requestId).body = ({ requestId }, true) := by
  rw [bareResume, parse_encode]
  · rw [assign, ResumeSessionRequest.set.eq_1, hutf8]
    rfl
  · intro field hfield
    rw [List.mem_singleton.mp hfield]
    exact ⟨by decide, by decide, hlength⟩

theorem replies_bareResume {requestId : Bytes} (hutf8 : utf8 requestId = true)
    (hlength : requestId.length < 2 ^ 31) (c : Circumstances) (connectionId : Bytes) :
    replies c connectionId (bareResume requestId) = [makeErrorResponse 1 .gatewayInvalidPacket
        (lit "invalid resume session request") requestId] := by
  change (handleResumeSession c.env connectionId (bareResume requestId)).2 = _
  unfold handleResumeSession
  rw [parse_bareResume hutf8 hlength]
  rfl

theorem decode_bareResume {requestId : Bytes}
    (hlow : 128 ^ 2 ≤ requestId.length) (hhigh : requestId.length ≤ 1048572) :
    ∃ buffer, decode buffer = (.ok (bareResume requestId), []) := by
  have hcan : CanEncode (bareResume requestId) := by
    refine ⟨nofun, ?_⟩
    have hsize := varintSize_le_succ_iff requestId.length 2
    rw [bareResume, encode_length, size_cons, size_nil, Field.size,
      varintSize_one (by decide), kMaxBodyLength]
    omega
  obtain ⟨bytes, hbytes⟩ := (encode_ok_iff _).mpr hcan
  have hdecode := decode_encode [] hbytes
  rw [List.append_nil] at hdecode
  exact ⟨bytes, hdecode⟩

end NebulaIM.Gateway
