import NebulaIM.Message.Service

/-!
# Groups and conversations

The group handlers of `RelationServiceImpl` and the handlers of
`ConversationServiceImpl` that change a conversation.
-/

namespace NebulaIM.RelationService

open Backend Protocol Message

/-- `GroupDao::createGroup`; the owner joins with role 1. -/
def insertGroup (group : GroupRecord) : Service (Option UInt64) :=
  transaction none do
    let some groupId ← exec (.insertGroup group) | return none
    if !(← exec (.insertMember ⟨groupId, group.ownerId, 1⟩)) then return none
    if !(← commit) then return none
    return some groupId

def createGroup (ctx : RpcContext) (request : CreateGroupRequest) :
    Service CreateGroupResponse := do
  let fail (code : ErrorCode) : CreateGroupResponse :=
    { response := fillResponse request.requestId code "" }
  if !ctx.authorized then
    return { response := RpcContext.unauthenticated request.requestId }
  if request.ownerId = 0 ∨ request.groupName = [] ∨ 128 < request.groupName.length then
    return fail .invalidArgument
  if !(← query (.getUserById request.ownerId)) then return fail .userNotFound
  let now ← nowMs
  let group : GroupRecord :=
    { groupName := request.groupName
      ownerId := request.ownerId
      createdAt := now
      updatedAt := now }
  let some groupId ← insertGroup group | return fail .dbError
  return ⟨fillResponse request.requestId .ok "OK", groupId⟩

def joinGroup (ctx : RpcContext) (request : MembershipRequest) :
    Service CommonResponse := do
  let fail := fun code => fillResponse request.requestId code ""
  if !ctx.authorized then return RpcContext.unauthenticated request.requestId
  if request.userId = 0 ∨ request.groupId = 0 then return fail .invalidArgument
  if !(← query (.getUserById request.userId)) then return fail .userNotFound
  if (← query (.getGroupById request.groupId)).isNone then
    return fail .groupNotFound
  if ← query (.isMember request.groupId request.userId) then
    return fail .groupAlreadyJoined
  if !(← query (.addMember request.groupId request.userId 0)) then
    return fail .dbError
  return fillResponse request.requestId .ok "OK"

def leaveGroup (ctx : RpcContext) (request : MembershipRequest) :
    Service CommonResponse := do
  let fail := fun code => fillResponse request.requestId code ""
  if !ctx.authorized then return RpcContext.unauthenticated request.requestId
  if request.userId = 0 ∨ request.groupId = 0 then return fail .invalidArgument
  if (← query (.getGroupById request.groupId)).isNone then
    return fail .groupNotFound
  if !(← query (.isMember request.groupId request.userId)) then
    return fail .groupNotMember
  if ← query (.isGroupOwner request.groupId request.userId) then
    return fail .groupOwnerCannotLeave
  if !(← query (.removeMember request.groupId request.userId)) then
    return fail .dbError
  return fillResponse request.requestId .ok "OK"

end NebulaIM.RelationService

namespace NebulaIM.ConversationService

open Backend Protocol Message
open Foundation.Wire (Bytes)

/-- The handlers that change a row differ in the `UPDATE`. -/
def changeConversation (ctx : RpcContext) (requestId : Bytes)
    (change : Int64 → Service Bool) : Service CommonResponse := do
  if !ctx.authorized then return RpcContext.unauthenticated requestId
  let now ← nowMs
  if ← change now then return fillResponse requestId .ok "OK"
  return fillResponse requestId .conversationNotFound ""

def deleteConversation (ctx : RpcContext)
    (request : ConversationDeleteRequest) : Service CommonResponse :=
  changeConversation ctx request.requestId fun now =>
    query (.deleteConversation request.userId request.conversationId now)

def pinConversation (ctx : RpcContext) (request : ConversationPinRequest) :
    Service CommonResponse :=
  changeConversation ctx request.requestId fun now =>
    query (.pinConversation request.userId request.conversationId request.pinned now)

def muteConversation (ctx : RpcContext) (request : ConversationMuteRequest) :
    Service CommonResponse :=
  changeConversation ctx request.requestId fun now =>
    query (.muteConversation request.userId request.conversationId request.muted now)

end NebulaIM.ConversationService
