import NebulaIM.Message.Service

/-!
# Read state

The handlers of `MessageServiceImpl` that write and list read receipts.
-/

namespace NebulaIM.Message

open Backend Protocol
open Foundation.Wire (Bytes)

/-- The statements that follow the receipts of both mark handlers. -/
def recount (requestId : Bytes) (userId conversationId : UInt64) (now : Int64) :
    Service CommonResponse := do
  let fail := fillResponse requestId .dbError ""
  if !(← exec (.recalculateUnread userId conversationId now)) then return fail
  if !(← commit) then return fail
  return fillResponse requestId .ok "OK"

def markReadTransaction (request : MarkMessageReadRequest)
    (record : MessageRecord) : Service CommonResponse :=
  transaction (fillResponse request.requestId .dbError "") do
    let now ← nowMs
    if !(← exec (.markRead request.messageId request.userId now)) then
      return fillResponse request.requestId .dbError ""
    recount request.requestId request.userId record.conversationId now

def markMessageRead (ctx : RpcContext) (request : MarkMessageReadRequest) :
    Service CommonResponse := do
  let fail := fun code => fillResponse request.requestId code ""
  if !ctx.authorized then return RpcContext.unauthenticated request.requestId
  if request.userId = 0 ∨ request.messageId = 0 then return fail .invalidArgument
  let some record ← query (.getMessageById request.messageId)
    | return fail .messageNotFound
  if !(← canReceiveMessage request.userId record) then
    return fail .messagePermissionDenied
  markReadTransaction request record

def markConversationTransaction (request : MarkConversationReadRequest)
    (cursor : MessageRecord) (now : Int64) : Service CommonResponse :=
  transaction (fillResponse request.requestId .dbError "") do
    if !(← exec (.markConversationRead request.conversationId request.userId
        request.upToMessageId cursor.createdAt now)) then
      return fillResponse request.requestId .dbError ""
    recount request.requestId request.userId request.conversationId now

def markConversationRead (ctx : RpcContext)
    (request : MarkConversationReadRequest) : Service CommonResponse := do
  let fail := fun code => fillResponse request.requestId code ""
  if !ctx.authorized then return RpcContext.unauthenticated request.requestId
  if request.userId = 0 ∨ request.conversationId = 0 ∨ request.upToMessageId = 0 then
    return fail .invalidArgument
  if !(← canReadConversation request.userId request.conversationId) then
    return fail .conversationNotFound
  let some cursor ← query (.getMessageById request.upToMessageId)
    | return fail .messageNotFound
  if cursor.conversationId ≠ request.conversationId then
    return fail .messageNotFound
  let now ← nowMs
  markConversationTransaction request cursor now

def getMessageReadState (ctx : RpcContext) (request : GetMessageReadStateRequest) :
    Service GetMessageReadStateResponse := do
  let fail (code : ErrorCode) : GetMessageReadStateResponse :=
    { response := fillResponse request.requestId code "" }
  if !ctx.authorized then
    return { response := RpcContext.unauthenticated request.requestId }
  if request.messageId = 0 ∨ request.requesterUserId = 0 then
    return fail .invalidArgument
  let some record ← query (.getMessageById request.messageId)
    | return fail .messageNotFound
  if record.fromUserId ≠ request.requesterUserId then
    return fail .messagePermissionDenied
  let states ← query (.getReadState request.messageId)
  return ⟨fillResponse request.requestId .ok "OK", states⟩

end NebulaIM.Message
