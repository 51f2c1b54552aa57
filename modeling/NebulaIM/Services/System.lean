import NebulaIM.Relation.Service
import NebulaIM.Outbox.Worker
import NebulaIM.Push.Dispatcher

/-!
# The backend services as one interleaved system

Every request is a thread of its own over the shared world; an outbox worker
contributes one thread for each `runOnce`.
-/

namespace NebulaIM.Services

open Foundation Foundation.Store
open Backend Protocol Message RelationService ConversationService Outbox Push
open Foundation.Wire (Bytes)

structure Config where
  message : MessageServiceOptions := {}
  worker : OutboxWorkerOptions := {}

/-- What protobuf guarantees of a `string` field. -/
structure IsText (bytes : Bytes) : Prop where
  utf8 : Foundation.Wire.utf8 bytes = true
  length_lt : bytes.length < 2 ^ 31

inductive Request where
  | sendSingleMessage (ctx : RpcContext) (request : SendSingleMessageRequest)
      (text : IsText request.content)
  | sendGroupMessage (ctx : RpcContext) (request : SendGroupMessageRequest)
      (text : IsText request.content)
  | recallMessage (ctx : RpcContext) (request : RecallMessageRequest)
  | listConversationMessages (ctx : RpcContext) (request : ListConversationMessagesRequest)
  | ackMessage (ctx : RpcContext) (request : AckMessageRequest)
  | pullOfflineMessages (ctx : RpcContext) (request : PullOfflineMessagesRequest)
  | createGroup (ctx : RpcContext) (request : CreateGroupRequest)
  | joinGroup (ctx : RpcContext) (request : MembershipRequest)
  | leaveGroup (ctx : RpcContext) (request : MembershipRequest)
  | deleteConversation (ctx : RpcContext) (request : ConversationDeleteRequest)
  | runOutboxWorker
  | saveOffline (userId : UInt64) (message : MessageData) (wellFormed : message.WellFormed)

inductive Reply where
  | sent (response : SendMessageResponse)
  | recalled (response : RecallMessageResponse)
  | history (response : ListConversationMessagesResponse)
  | acked (response : AckMessageResponse)
  | pulled (response : PullOfflineMessagesResponse)
  | group (response : CreateGroupResponse)
  | common (response : CommonResponse)
  | workerDone
  | saved (ok : Bool)
  deriving DecidableEq

/-- The offline store of the push service, on a pooled connection. -/
def offlineStore : OfflineStore Service where
  nowMs := Backend.nowMs
  insertOfflineMessage message := query (.insertOfflineMessage message)

def handle (config : Config) : Request → Service Reply
  | .sendSingleMessage ctx request _ => do
      return .sent (← sendSingleMessage config.message ctx request)
  | .sendGroupMessage ctx request _ => do
      return .sent (← sendGroupMessage config.message ctx request)
  | .recallMessage ctx request => do
      return .recalled (← recallMessage config.message ctx request)
  | .listConversationMessages ctx request => do
      return .history (← listConversationMessages ctx request)
  | .ackMessage ctx request => do
      return .acked (← ackMessage ctx request)
  | .pullOfflineMessages ctx request => do
      return .pulled (← pullOfflineMessages config.message ctx request)
  | .createGroup ctx request => do
      return .group (← createGroup ctx request)
  | .joinGroup ctx request => do
      return .common (← joinGroup ctx request)
  | .leaveGroup ctx request => do
      return .common (← leaveGroup ctx request)
  | .deleteConversation ctx request => do
      return .common (← deleteConversation ctx request)
  | .runOutboxWorker => do
      runOnce config.worker
      return .workerDone
  | .saveOffline userId message _ => do
      return .saved (← saveOffline offlineStore userId message)

def services (config : Config) : System Request Op Op.Res World Choice Env Reply where
  code := handle config
  exec := World.exec
  env := World.env

abbrev Pool := Foundation.Pool Request Op Op.Res World Reply

abbrev Action := Foundation.Action Request Choice Env

/-- A deployment without messages, groups and transactions, with any accounts
and any content of Redis. -/
structure Initial (pool : Pool) : Prop where
  db : ∃ users friendships,
    pool.world.sql = { db := { users := users, friendships := friendships } }
  produced : pool.world.produced = []
  tokens : pool.world.tokens = []
  threads : pool.threads = []

end NebulaIM.Services
