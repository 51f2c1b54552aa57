import NebulaIM.Message.ReadState
import NebulaIM.Relation.Service
import NebulaIM.Admin.Service
import NebulaIM.Push.Worker

/-!
# Messages, conversations and receipts as one interleaved system

The requests that change what a user sees of a conversation: sends, recalls,
read marks, membership, offline copies and the cleanup of old rows.  Every
request is a thread of its own over the shared world of the backend.
-/

namespace NebulaIM.Chat

open Foundation Foundation.Store
open Backend Protocol Message RelationService ConversationService Admin Push
open Foundation.Wire (Bytes)

structure Config where
  message : MessageServiceOptions := {}
  push : PushOptions := {}
  retry : PushRetryOptions := {}
  worker : PushWorkerOptions := {}

/-- What Redis, the gateways and Kafka answer while one record is pushed. -/
structure Surroundings where
  smembers : Bytes → List Bytes := fun _ => []
  get : Bytes → Option Bytes := fun _ => none
  srem : Bytes → Bytes → Bool := fun _ _ => true
  incr : Bytes → Int64 := fun _ => 1
  expire : Bytes → Int32 → Bool := fun _ _ => true
  del : Bytes → Bool := fun _ => true
  deliver : Bytes → UInt64 → OnlineStatus → MessageData → Bool := fun _ _ _ _ => false
  produce : Bytes → Bytes → Bytes → Bool := fun _ _ _ => true

def pushEnv (around : Surroundings) : PushEnv Service where
  nowMs := Backend.nowMs
  insertOfflineMessage message := query (.insertOfflineMessage message)
  smembers key := pure (around.smembers key)
  get key := pure (around.get key)
  srem key member := pure (around.srem key member)
  incr key := pure (around.incr key)
  expire key ttl := pure (around.expire key ttl)
  del key := pure (around.del key)
  deliverToConnection requestId userId status message :=
    pure (around.deliver requestId userId status message)
  listMembers groupId := query (.listMembers groupId)
  produce topic key payload := pure (around.produce topic key payload)
  flush _ := pure ()

inductive Request where
  | sendSingleMessage (ctx : RpcContext) (request : SendSingleMessageRequest)
  | sendGroupMessage (ctx : RpcContext) (request : SendGroupMessageRequest)
  | recallMessage (ctx : RpcContext) (request : RecallMessageRequest)
  | ackMessage (ctx : RpcContext) (request : AckMessageRequest)
  | pullOfflineMessages (ctx : RpcContext) (request : PullOfflineMessagesRequest)
  | markMessageRead (ctx : RpcContext) (request : MarkMessageReadRequest)
  | markConversationRead (ctx : RpcContext) (request : MarkConversationReadRequest)
  | getMessageReadState (ctx : RpcContext) (request : GetMessageReadStateRequest)
  | createGroup (ctx : RpcContext) (request : CreateGroupRequest)
  | joinGroup (ctx : RpcContext) (request : MembershipRequest)
  | leaveGroup (ctx : RpcContext) (request : MembershipRequest)
  | deleteConversation (ctx : RpcContext) (request : ConversationDeleteRequest)
  | pinConversation (ctx : RpcContext) (request : ConversationPinRequest)
  | muteConversation (ctx : RpcContext) (request : ConversationMuteRequest)
  | runCleanup (options : AdminCleanupOptions) (ctx : AdminContext) (request : RunCleanupRequest)
  /-- `OfflineMessageDao::insertOfflineMessage` with a pending row. -/
  | insertOfflineMessage (userId messageId : UInt64) (payload : Bytes) (createdAt : Int64)
  | handleKafkaMessage (around : Surroundings) (record : KafkaMessage)

inductive Reply where
  | sent (response : SendMessageResponse)
  | recalled (response : RecallMessageResponse)
  | acked (response : AckMessageResponse)
  | pulled (response : PullOfflineMessagesResponse)
  | readState (response : GetMessageReadStateResponse)
  | group (response : CreateGroupResponse)
  | common (response : CommonResponse)
  | cleaned (response : RunCleanupResponse)
  | done (ok : Bool)
  deriving DecidableEq

def handle (config : Config) : Request → Service Reply
  | .sendSingleMessage ctx request => do
      return .sent (← sendSingleMessage config.message ctx request)
  | .sendGroupMessage ctx request => do
      return .sent (← sendGroupMessage config.message ctx request)
  | .recallMessage ctx request => do
      return .recalled (← recallMessage config.message ctx request)
  | .ackMessage ctx request => do
      return .acked (← ackMessage ctx request)
  | .pullOfflineMessages ctx request => do
      return .pulled (← pullOfflineMessages config.message ctx request)
  | .markMessageRead ctx request => do
      return .common (← markMessageRead ctx request)
  | .markConversationRead ctx request => do
      return .common (← markConversationRead ctx request)
  | .getMessageReadState ctx request => do
      return .readState (← getMessageReadState ctx request)
  | .createGroup ctx request => do
      return .group (← createGroup ctx request)
  | .joinGroup ctx request => do
      return .common (← joinGroup ctx request)
  | .leaveGroup ctx request => do
      return .common (← leaveGroup ctx request)
  | .deleteConversation ctx request => do
      return .common (← deleteConversation ctx request)
  | .pinConversation ctx request => do
      return .common (← pinConversation ctx request)
  | .muteConversation ctx request => do
      return .common (← muteConversation ctx request)
  | .runCleanup options ctx request => do
      return .cleaned (← runCleanup options ctx request)
  | .insertOfflineMessage userId messageId payload createdAt => do
      return .done (← query (.insertOfflineMessage
        { userId := userId, messageId := messageId, payload := payload,
          createdAt := createdAt, updatedAt := createdAt }))
  | .handleKafkaMessage around record => do
      return .done (← handleKafkaMessage (pushEnv around) config.push
        config.retry config.worker record)

def chat (config : Config) : System Request Op Op.Res World Choice Env Reply where
  code := handle config
  exec := World.exec
  env := World.env

abbrev Pool := Foundation.Pool Request Op Op.Res World Reply

abbrev Action := Foundation.Action Request Choice Env

abbrev Rules := Guard Request Op World Choice Env

/-- Any accounts, groups and content of Redis, but nothing sent yet. -/
structure Initial (pool : Pool) : Prop where
  db : ∃ users friendships groups members,
    pool.world.sql = { db :=
      { users := users, friendships := friendships, groups := groups,
        members := members } }
  members : Table.Keyed (fun row : GroupMember => (row.groupId, row.userId)) pool.world.db.members
  threads : pool.threads = []

/-! ### Two friends -/

def friends : Pool where
  world := { sql := { db :=
    { users := [1, 2, 3], friendships := [(1, 2), (2, 1)] } } }

theorem friends_initial : Initial friends :=
  ⟨⟨_, _, ∅, ∅, rfl⟩, fun _ _ hrow => (nomatch hrow), rfl⟩

def runAlone (tid : Nat) (request : Request) (choice : Choice) : List Action :=
  .spawn request :: List.replicate 24 (.step tid choice)

def hello : Request :=
  .sendSingleMessage {} { fromUserId := 1, toUserId := 2, content := [104, 105] }

def toGroup : SendGroupMessageRequest := { fromUserId := 1, groupId := 9, content := [104, 105] }

def groupHello : Request := .sendGroupMessage {} toGroup

end NebulaIM.Chat
