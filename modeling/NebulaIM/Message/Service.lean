import NebulaIM.Backend.World

/-!
# The message service

`MessageServiceImpl` and the data access functions it composes.  A handler takes
the context of its call, that is the result of the internal authorisation, the
inbound trace id and the trace id that earlier requests left in the thread.
Metrics, spans and log lines are left out, and so is `invalidDeps`, since the
service is only built with all its dependencies.
-/

namespace NebulaIM.Message

open Backend Protocol
open Foundation.Wire (Bytes)

structure MessageServiceOptions where
  topicSingle : Bytes := lit "nebula.message.single"
  topicGroup : Bytes := lit "nebula.message.group"
  maxContentLength : Int32 := 4096
  dedupTtlSeconds : Int := 86400
  offlinePullLimit : Int32 := 100
  recallWindowSeconds : Int32 := 120

structure RpcContext where
  authorized : Bool := true
  inboundTraceId : Bytes := []
  threadTraceId : Option TraceId := none

def RpcContext.unauthenticated (requestId : Bytes) : CommonResponse :=
  fillResponse requestId .authFailed "internal rpc unauthenticated"

/-- `TraceContext::ensureTraceId` -/
def ensureTraceId (ctx : RpcContext) (requestId : Bytes) : Service TraceId :=
  let candidate :=
    if ctx.inboundTraceId.isEmpty then requestId else ctx.inboundTraceId
  if hvalid : isValidTraceId candidate = true then pure ⟨candidate, hvalid⟩
  else
    match ctx.threadTraceId with
    | some traceId => pure traceId
    | none => generateTraceId

def toMessageData (traceId : Bytes) (record : MessageRecord) : MessageData where
  messageId := record.messageId
  conversationId := record.conversationId
  fromUserId := record.fromUserId
  toUserId := record.toUserId
  groupId := record.groupId
  contentType := record.messageType
  content := record.content
  status := record.status
  timestamp := record.createdAt
  recalled := record.recalled
  recalledAt := record.recalledAt
  traceId := traceId

def makeOutboxEvent (traceId : TraceId) (eventId : UInt64) (aggregateType : AggregateType)
    (aggregateId : UInt64) (topic eventKey payload : Bytes) (now : Int64) : OutboxEvent where
  eventId := eventId
  aggregateType := aggregateType
  aggregateId := aggregateId
  topic := topic
  eventKey := eventKey
  payload := payload
  createdAt := now
  updatedAt := now
  traceId := traceId.bytes

def validateContent (options : MessageServiceOptions) (content : Bytes) :
    Option ErrorCode :=
  if content.isEmpty then some .messageEmpty
  else if options.maxContentLength < Int32.ofNat content.length then
    some .messageTooLarge
  else none

theorem validateContent_ne_ok {options : MessageServiceOptions} {content : Bytes}
    {code : ErrorCode} (h : validateContent options content = some code) :
    code ≠ .ok := by
  simp only [validateContent] at h
  split at h
  · cases h
    decide
  · split at h <;> cases h
    decide

/-! ## Deduplication -/

namespace MessageDeduplicator

def makeKey (fromUserId : UInt64) (clientSequenceId : UInt32) : Bytes :=
  lit "nebula:msg:dedup:" ++ decimal fromUserId.toNat ++ lit ":" ++ decimal clientSequenceId.toNat

def getExistingMessageId (fromUserId : UInt64) (clientSequenceId : UInt32) :
    Service (Option UInt64) := do
  if clientSequenceId = 0 then return none
  let value ← redisGet (makeKey fromUserId clientSequenceId)
  return value.bind stoull

def markMessage (ttlSeconds : Int) (fromUserId : UInt64)
    (clientSequenceId : UInt32) (messageId : UInt64) : Service Bool := do
  if clientSequenceId = 0 then return true
  let ttlSeconds := if 0 < ttlSeconds then ttlSeconds else 86400
  redisSetEx (makeKey fromUserId clientSequenceId) ttlSeconds (decimal messageId.toNat)

end MessageDeduplicator

def getMessageByClientSequence (fromUserId : UInt64)
    (clientSequenceId : UInt32) : Service (Option MessageRecord) :=
  if fromUserId = 0 ∨ clientSequenceId = 0 then pure none
  else query (.getMessageByClientSequence fromUserId clientSequenceId)

def sameRequest (fromUserId : UInt64) (clientSequenceId : UInt32) (row : MessageRecord) : Bool :=
  row.fromUserId = fromUserId && row.clientSequenceId = clientSequenceId

/-- The message that the cache names, if it is one of this sender and
sequence. -/
def cachedMessage (fromUserId : UInt64) (clientSequenceId : UInt32) :
    Service (Option MessageRecord) := do
  match ← MessageDeduplicator.getExistingMessageId fromUserId clientSequenceId with
  | none => return none
  | some messageId =>
    let row ← query (.getMessageById messageId)
    return row.filter (sameRequest fromUserId clientSequenceId)

/-- The lookups of both send handlers for a message that was sent before. -/
def persistedMessage (fromUserId : UInt64) (clientSequenceId : UInt32) :
    Service (Option MessageRecord) := do
  if clientSequenceId = 0 then return none
  match ← cachedMessage fromUserId clientSequenceId with
  | some row => return some row
  | none => getMessageByClientSequence fromUserId clientSequenceId

/-! ## Conversations and events -/

def upsertSingleConversationForUsers (conversationId fromUserId toUserId lastMessageId : UInt64)
    (preview : Bytes) (now : Int64) : Service Bool := do
  let sender : Conversation :=
    { conversationId := conversationId
      conversationType := .single
      ownerUserId := fromUserId
      peerUserId := toUserId
      lastMessageId := lastMessageId
      lastMessagePreview := preview
      lastMessageAt := now
      createdAt := now
      updatedAt := now }
  let receiver : Conversation := { sender with ownerUserId := toUserId, peerUserId := fromUserId }
  if !(← exec (.upsertOne sender false)) then return false
  exec (.upsertOne receiver true)

def upsertGroupConversationForMembers (conversationId groupId senderUserId lastMessageId : UInt64)
    (preview : Bytes) (now : Int64) : List UInt64 → Service Bool
  | [] => pure true
  | memberId :: memberIds => do
      let conversation : Conversation :=
        { conversationId := conversationId
          conversationType := .group
          ownerUserId := memberId
          groupId := groupId
          lastMessageId := lastMessageId
          lastMessagePreview := preview
          lastMessageAt := now
          createdAt := now
          updatedAt := now }
      if !(← exec (.upsertOne conversation (memberId != senderUserId))) then
        return false
      upsertGroupConversationForMembers conversationId groupId senderUserId
        lastMessageId preview now memberIds

/-- `OutboxDao::insertEvent` -/
def insertEvent (event : OutboxEvent) : Service Bool := do
  let now ← if 0 < event.createdAt then pure event.createdAt else nowMs
  let updatedAt := if 0 < event.updatedAt then event.updatedAt else now
  exec (.insertEvent { event with createdAt := now, updatedAt := updatedAt })

/-! ## Sending -/

def sendReply (requestId : Bytes) (code : ErrorCode) (message : String) :
    SendMessageResponse :=
  { response := some (fillResponse requestId code message) }

def replayed (requestId : Bytes) (row : MessageRecord) : SendMessageResponse :=
  { sendReply requestId .ok "DUPLICATED_REQUEST_REPLAYED" with
    messageId := row.messageId
    serverTimestamp := row.createdAt }

/-- The insert transaction of both send handlers, with the early returns that
answer the request. -/
def persist (requestId : Bytes) (record : MessageRecord) (event : OutboxEvent)
    (upsertConversations : Service Bool) :
    Service (Option SendMessageResponse) :=
  transaction (some (sendReply requestId .dbError "")) do
    if !(← exec (.insertMessage record)) then
      rollback
      match ← getMessageByClientSequence record.fromUserId record.clientSequenceId with
      | some existing => return some (replayed requestId existing)
      | none => return some (sendReply requestId .messagePersistFailed "")
    if !(← upsertConversations) then
      return some (sendReply requestId .dbError "")
    if !(← insertEvent event) then
      return some (sendReply requestId .outboxPublishFailed "")
    if !(← commit) then return some (sendReply requestId .dbError "")
    return none

/-- What both send handlers do once the request is accepted. -/
def store (options : MessageServiceOptions) (traceId : TraceId)
    (requestId : Bytes) (record : MessageRecord) (topic : Bytes)
    (upsertConversations : Service Bool) : Service SendMessageResponse := do
  let payload := (toMessageData traceId.bytes record).serialize
  let event := makeOutboxEvent traceId record.messageId .message
    record.messageId topic (decimal record.conversationId.toNat) payload
    record.createdAt
  match ← persist requestId record event upsertConversations with
  | some early => return early
  | none =>
    let _ ← MessageDeduplicator.markMessage options.dedupTtlSeconds
      record.fromUserId record.clientSequenceId record.messageId
    return { sendReply requestId .ok "OK" with
      messageId := record.messageId
      serverTimestamp := record.createdAt }

def sendSingleMessage (options : MessageServiceOptions) (ctx : RpcContext)
    (request : SendSingleMessageRequest) : Service SendMessageResponse := do
  let fail := sendReply request.requestId
  if !ctx.authorized then
    return { response := some (RpcContext.unauthenticated request.requestId) }
  let traceId ← ensureTraceId ctx request.requestId
  if request.fromUserId = 0 ∨ request.toUserId = 0 ∨ request.fromUserId = request.toUserId then
    return fail .invalidArgument ""
  if let some code := validateContent options request.content then
    return fail code ""
  if !(← query (.getUserById request.fromUserId)) then
    return fail .userNotFound ""
  if !(← query (.getUserById request.toUserId)) then
    return fail .userNotFound ""
  if !(← query (.isFriend request.fromUserId request.toUserId)) then
    return fail .messagePermissionDenied "single messages require an accepted friendship"
  if !(← query (.isFriend request.toUserId request.fromUserId)) then
    return fail .messagePermissionDenied "single messages require an accepted friendship"
  if let some row ← persistedMessage request.fromUserId request.clientSequenceId then
    return replayed request.requestId row
  let messageId ← nextId
  let conversationId := ConversationId.single request.fromUserId request.toUserId
  let now ← nowMs
  let record : MessageRecord :=
    { messageId := messageId
      conversationId := conversationId
      fromUserId := request.fromUserId
      clientSequenceId := request.clientSequenceId
      toUserId := request.toUserId
      messageType := request.contentType
      content := request.content
      status := messageStatusSent
      createdAt := now
      updatedAt := now }
  store options traceId request.requestId record options.topicSingle
    (upsertSingleConversationForUsers conversationId request.fromUserId
      request.toUserId messageId (buildPreview request.content) now)

def sendGroupMessage (options : MessageServiceOptions) (ctx : RpcContext)
    (request : SendGroupMessageRequest) : Service SendMessageResponse := do
  let fail := sendReply request.requestId
  if !ctx.authorized then
    return { response := some (RpcContext.unauthenticated request.requestId) }
  let traceId ← ensureTraceId ctx request.requestId
  if request.fromUserId = 0 ∨ request.groupId = 0 then
    return fail .invalidArgument ""
  if let some code := validateContent options request.content then
    return fail code ""
  if !(← query (.getUserById request.fromUserId)) then
    return fail .userNotFound ""
  if (← query (.getGroupById request.groupId)).isNone then
    return fail .groupNotFound ""
  if !(← query (.isMember request.groupId request.fromUserId)) then
    return fail .messagePermissionDenied ""
  let members ← query (.listMembers request.groupId)
  if let some row ← persistedMessage request.fromUserId request.clientSequenceId then
    return replayed request.requestId row
  let messageId ← nextId
  let conversationId := ConversationId.group request.groupId
  let now ← nowMs
  let record : MessageRecord :=
    { messageId := messageId
      conversationId := conversationId
      fromUserId := request.fromUserId
      clientSequenceId := request.clientSequenceId
      groupId := request.groupId
      messageType := request.contentType
      content := request.content
      status := messageStatusSent
      createdAt := now
      updatedAt := now }
  store options traceId request.requestId record options.topicGroup
    (upsertGroupConversationForMembers conversationId request.groupId
      request.fromUserId messageId (buildPreview request.content) now members)

/-! ## Recall -/

def recallReply (requestId : Bytes) (code : ErrorCode) : RecallMessageResponse :=
  { response := fillResponse requestId code "" }

/-- `fillRecallUpdateFailure` -/
def recallUpdateFailure (requestId : Bytes) (messageId : UInt64) :
    Service RecallMessageResponse := do
  let latest ← query (.getMessageById messageId)
  if latest.any MessageRecord.recalled then
    return recallReply requestId .messageAlreadyRecalled
  return recallReply requestId .dbError

/-- The transaction of `RecallMessage`; `record` is the row as read before. -/
def recallTransaction (options : MessageServiceOptions) (traceId : TraceId) (requestId : Bytes)
    (messageId : UInt64) (record : MessageRecord) (now : Int64) : Service RecallMessageResponse :=
  transaction (recallReply requestId .dbError) do
    if !(← exec (.recallMessage messageId now)) then
      rollback
      recallUpdateFailure requestId messageId
    else
      let recalled :=
        { record with
          recalled := true, recalledAt := now, status := messageStatusRecalled }
      let eventId ← nextId
      let topic :=
        if record.groupId = 0 then options.topicSingle else options.topicGroup
      let event := makeOutboxEvent traceId eventId .messageRecall messageId topic
        (decimal record.conversationId.toNat)
        (toMessageData traceId.bytes recalled).serialize now
      if !(← insertEvent event) then
        return recallReply requestId .outboxPublishFailed
      if !(← exec (.recalculateUnreadForConversation record.conversationId now)) then
        return recallReply requestId .dbError
      if !(← exec (.markLastMessageRecalled record.conversationId record.messageId now)) then
        return recallReply requestId .dbError
      if !(← commit) then return recallReply requestId .dbError
      return ⟨fillResponse requestId .ok "OK", messageId, now⟩

def recallMessage (options : MessageServiceOptions) (ctx : RpcContext)
    (request : RecallMessageRequest) : Service RecallMessageResponse := do
  let fail := recallReply request.requestId
  if !ctx.authorized then
    return { response := RpcContext.unauthenticated request.requestId }
  let traceId ← ensureTraceId ctx request.requestId
  if request.userId = 0 ∨ request.messageId = 0 then
    return fail .invalidArgument
  let some record ← query (.getMessageById request.messageId)
    | return fail .messageNotFound
  if record.fromUserId ≠ request.userId then
    return fail .messageRecallPermissionDenied
  if record.recalled then return fail .messageAlreadyRecalled
  let now ← nowMs
  if options.recallWindowSeconds.toInt64 * 1000 < now - record.createdAt then
    return fail .messageRecallTimeout
  recallTransaction options traceId request.requestId request.messageId record now

/-! ## Reading -/

def canReadConversation (userId conversationId : UInt64) : Service Bool :=
  if userId = 0 ∨ conversationId = 0 then pure false
  else query (.isOwner userId conversationId)

def canReceiveMessage (userId : UInt64) (record : MessageRecord) :
    Service Bool :=
  if userId = 0 ∨ record.fromUserId = userId then pure false
  else if record.groupId ≠ 0 then
    canReadConversation userId record.conversationId
  else pure (record.toUserId = userId)

/-- The page of a history response, from the rows in descending order. -/
def historyPage (requestId traceId : Bytes) (limit : Nat)
    (rows : List MessageRecord) : ListConversationMessagesResponse :=
  let messages := (rows.take limit).reverse
  { response := fillResponse requestId .ok "OK"
    messages := messages.map (toMessageData traceId)
    nextBeforeTime := (messages.head?.map MessageRecord.createdAt).getD 0
    nextBeforeMessageId := (messages.head?.map MessageRecord.messageId).getD 0
    hasMore := limit < rows.length }

def listConversationMessages (ctx : RpcContext) (request : ListConversationMessagesRequest) :
    Service ListConversationMessagesResponse := do
  if !ctx.authorized then
    return { response := RpcContext.unauthenticated request.requestId }
  let notFound : ListConversationMessagesResponse :=
    { response := fillResponse request.requestId .conversationNotFound "" }
  if request.requesterUserId = 0 ∨ request.conversationId = 0 then
    return notFound
  if !(← canReadConversation request.requesterUserId request.conversationId) then
    return notFound
  let limit :=
    if request.pageSize = 0 then 50 else min request.pageSize.toNat 100
  let rows ← query (.listConversationMessages request.conversationId
    request.beforeTime request.beforeMessageId (limit + 1))
  let traceId := (ctx.threadTraceId.map TraceId.bytes).getD []
  return historyPage request.requestId traceId limit rows

/-! ## Offline messages -/

def ackReply (requestId : Bytes) (code : ErrorCode) (message : String) :
    AckMessageResponse :=
  { response := some (fillResponse requestId code message) }

def ackTransaction (requestId : Bytes) (userId messageId : UInt64) :
    Service AckMessageResponse :=
  transaction (ackReply requestId .dbError "") do
    let now ← nowMs
    if !(← exec (.upsertDelivered messageId userId now)) then
      return ackReply requestId .dbError ""
    if !(← exec (.markAsAcked userId messageId)) then
      return ackReply requestId .dbError ""
    if !(← commit) then return ackReply requestId .dbError ""
    return ackReply requestId .ok "OK"

def ackMessage (ctx : RpcContext) (request : AckMessageRequest) :
    Service AckMessageResponse := do
  let fail := fun code => ackReply request.requestId code ""
  if !ctx.authorized then
    return { response := some (RpcContext.unauthenticated request.requestId) }
  if request.userId = 0 ∨ request.messageId = 0 then
    return fail .invalidArgument
  if !(← query (.getUserById request.userId)) then return fail .userNotFound
  let some record ← query (.getMessageById request.messageId)
    | return fail .messageNotFound
  if !(← canReceiveMessage request.userId record) then
    return fail .messagePermissionDenied
  ackTransaction request.requestId request.userId request.messageId

def pullReply (requestId : Bytes) (code : ErrorCode) :
    PullOfflineMessagesResponse :=
  { response := some (fillResponse requestId code "") }

/-- The offline rows whose payload can be parsed, with the parsed message. -/
def deliverable (rows : List OfflineMessage) : List (UInt64 × MessageData) :=
  rows.filterMap fun row =>
    match MessageData.parse row.payload with
    | (data, true) => some (row.messageId, data)
    | (_, false) => none

def markBatchAsPulled (userId : UInt64) (messageIds : List UInt64) :
    Service Bool :=
  if messageIds.isEmpty then pure true
  else exec (.markBatchAsPulled userId messageIds)

def pullTransaction (request : PullOfflineMessagesRequest) (limit : Nat)
    (rows : List OfflineMessage) : Service PullOfflineMessagesResponse :=
  transaction (pullReply request.requestId .dbError) do
    let delivered := deliverable rows
    if !(← markBatchAsPulled request.userId (delivered.map Prod.fst)) then
      return pullReply request.requestId .dbError
    if !(← commit) then return pullReply request.requestId .dbError
    let page := request.page.getD {}
    return {
      response := some (fillResponse request.requestId .ok "OK")
      messages := delivered.map Prod.snd
      page := some ⟨page.page, UInt32.ofNat limit, UInt64.ofNat delivered.length⟩ }

def pullOfflineMessages (options : MessageServiceOptions) (ctx : RpcContext)
    (request : PullOfflineMessagesRequest) :
    Service PullOfflineMessagesResponse := do
  if !ctx.authorized then
    return { response := some (RpcContext.unauthenticated request.requestId) }
  if request.userId = 0 then
    return pullReply request.requestId .invalidArgument
  if !(← query (.getUserById request.userId)) then
    return pullReply request.requestId .userNotFound
  let pullLimit := int32Value options.offlinePullLimit
  let pageSize := (request.page.getD {}).pageSize
  let limit := if pageSize = 0 then pullLimit else min pageSize.toNat pullLimit
  let rows ← query (.listOfflineMessages request.userId limit)
  pullTransaction request limit rows

end NebulaIM.Message
