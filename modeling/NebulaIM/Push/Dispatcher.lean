import NebulaIM.Backend.Schema
import NebulaIM.Protocol.Identifiers

/-!
# Pushing messages to users

`PushDispatcher` with `OnlineStatusManager` and `PushRetryManager`, written once
over the operations of their environment.  Log lines and metrics are left out.
-/

namespace NebulaIM.Push

open Backend Protocol
open Foundation.Wire (Bytes)

structure PushOptions where
  topicRetry : Bytes := lit "nebula.message.retry"
  topicDlq : Bytes := lit "nebula.message.dlq"
  skipSenderForGroup : Bool := true

/-- The arguments of the constructor of `PushRetryManager`. -/
structure PushRetryOptions where
  maxRetryCount : Int32 := 3
  ttlSeconds : Int32 := 86400

structure OnlineStatus where
  gatewayId : Bytes
  connectionId : Bytes
  deviceId : Bytes
  deriving DecidableEq, Repr

structure PushResult where
  successCount : Nat := 0
  failedCount : Nat := 0
  deriving DecidableEq, Repr

structure OfflineStore (m : Type → Type) where
  nowMs : m Int64
  insertOfflineMessage : OfflineMessage → m Bool

structure PushEnv (m : Type → Type) extends OfflineStore m where
  smembers : Bytes → m (List Bytes)
  get : Bytes → m (Option Bytes)
  srem : Bytes → Bytes → m Bool
  incr : Bytes → m Int64
  expire : Bytes → Int32 → m Bool
  del : Bytes → m Bool
  /-- `GatewayClient::deliverToConnection` of the client for the gateway; without
  a client the delivery fails. -/
  deliverToConnection : Bytes → UInt64 → OnlineStatus → MessageData → m Bool
  listMembers : UInt64 → m (List UInt64)
  produce : Bytes → Bytes → Bytes → m Bool
  flush : Int32 → m Unit

/-! ## Redis keys -/

def devicesKey (userId : UInt64) : Bytes := lit "nebula:user:devices:" ++ decimal userId.toNat

def onlineKey (userId : UInt64) (deviceId : Bytes) : Bytes :=
  lit "nebula:user:online:" ++ decimal userId.toNat ++ lit ":" ++ deviceId

def connKey (userId : UInt64) (deviceId : Bytes) : Bytes :=
  lit "nebula:user:conn:" ++ decimal userId.toNat ++ lit ":" ++ deviceId

def retryKey (messageId userId : UInt64) : Bytes :=
  lit "nebula:push:retry:" ++ decimal messageId.toNat ++ lit ":" ++ decimal userId.toNat

/-- The limit that `PushRetryManager` keeps. -/
def PushRetryOptions.limit (options : PushRetryOptions) : Int32 :=
  if 0 < options.maxRetryCount then options.maxRetryCount else 3

def PushRetryOptions.ttl (options : PushRetryOptions) : Int32 :=
  if 0 < options.ttlSeconds then options.ttlSeconds else 86400

section

variable {m : Type → Type} [Monad m]

/-! ## Offline copies -/

def messageForRecipient (userId : UInt64) (message : MessageData) :
    MessageData :=
  if message.toUserId = 0 then { message with toUserId := userId } else message

/-- The row that `saveOffline` inserts. -/
def offlineCopy (userId : UInt64) (message : MessageData) (now : Int64) :
    OfflineMessage :=
  let copy := messageForRecipient userId message
  { userId := userId
    messageId := copy.messageId
    payload := copy.serialize
    status := .unread
    createdAt := now
    updatedAt := now }

def saveOffline (env : OfflineStore m) (userId : UInt64) (message : MessageData) : m Bool := do
  let now ← env.nowMs
  env.insertOfflineMessage (offlineCopy userId message now)

/-! ## Online devices and the retry counter -/

/-- The loop of `getOnlineStatuses` over the devices of the user. -/
def onlineStatuses (env : PushEnv m) (userId : UInt64) : List Bytes → m (List OnlineStatus)
  | [] => pure []
  | deviceId :: devices => do
      let gateway ← env.get (onlineKey userId deviceId)
      let conn ← env.get (connKey userId deviceId)
      match gateway, conn with
      | some gatewayId, some connectionId =>
        let statuses ← onlineStatuses env userId devices
        pure (⟨gatewayId, connectionId, deviceId⟩ :: statuses)
      | _, _ =>
        let _ ← env.srem (devicesKey userId) deviceId
        onlineStatuses env userId devices

def getOnlineStatuses (env : PushEnv m) (userId : UInt64) : m (List OnlineStatus) := do
  if userId = 0 then return []
  let devices ← env.smembers (devicesKey userId)
  onlineStatuses env userId devices

def increaseRetryCount (env : PushEnv m) (retry : PushRetryOptions)
    (messageId userId : UInt64) : m Int32 := do
  let key := retryKey messageId userId
  let count ← env.incr key
  if count = 1 then
    let _ ← env.expire key retry.ttl
  return count.toInt32

def clearRetry (env : PushEnv m) (messageId userId : UInt64) : m Bool :=
  env.del (retryKey messageId userId)

/-! ## Dispatching -/

def sendToRetryTopic (env : PushEnv m) (options : PushOptions)
    (userId : UInt64) (message : MessageData) : m Bool :=
  env.produce options.topicRetry (decimal userId.toNat)
    (messageForRecipient userId message).serialize

def sendToDlqTopic (env : PushEnv m) (options : PushOptions)
    (userId : UInt64) (message : MessageData) : m Bool := do
  let ok ← env.produce options.topicDlq (decimal userId.toNat)
    (messageForRecipient userId message).serialize
  env.flush 5000
  return ok

def handlePushFailure (env : PushEnv m) (options : PushOptions)
    (retry : PushRetryOptions) (userId : UInt64) (message : MessageData) :
    m Bool := do
  let count ← increaseRetryCount env retry message.messageId userId
  if count ≤ retry.limit then
    return ← sendToRetryTopic env options userId message
  let dlqOk ← sendToDlqTopic env options userId message
  -- the result of the offline copy is dropped
  let _ ← saveOffline env.toOfflineStore userId message
  return dlqOk

/-- The loop of `pushToUser` over the online devices: all of them are tried. -/
def deliverToAll (env : PushEnv m) (requestId : Bytes) (userId : UInt64)
    (message : MessageData) : List OnlineStatus → Bool → m Bool
  | [], delivered => pure delivered
  | status :: statuses, delivered => do
      let ok ← env.deliverToConnection requestId userId status message
      deliverToAll env requestId userId message statuses (ok || delivered)

def pushToUser (env : PushEnv m) (options : PushOptions) (retry : PushRetryOptions)
    (requestId : Bytes) (userId : UInt64) (message : MessageData) : m Bool := do
  if userId = 0 ∨ message.messageId = 0 then return false
  let statuses ← getOnlineStatuses env userId
  if statuses = [] then
    return ← saveOffline env.toOfflineStore userId message
  let delivered ← deliverToAll env requestId userId message statuses false
  if delivered then
    let _ ← clearRetry env message.messageId userId
    return true
  handlePushFailure env options retry userId message

/-- The loop of `pushToGroup` over the members. -/
def pushToMembers (env : PushEnv m) (options : PushOptions)
    (retry : PushRetryOptions) (requestId : Bytes) (message : MessageData) :
    List UInt64 → PushResult → m PushResult
  | [], result => pure result
  | userId :: members, result =>
    if options.skipSenderForGroup ∧ userId = message.fromUserId then
      pushToMembers env options retry requestId message members result
    else do
      let ok ← pushToUser env options retry requestId userId message
      pushToMembers env options retry requestId message members
        (if ok then { result with successCount := result.successCount + 1 }
          else { result with failedCount := result.failedCount + 1 })

def pushToGroup (env : PushEnv m) (options : PushOptions) (retry : PushRetryOptions)
    (requestId : Bytes) (groupId : UInt64) (message : MessageData) : m PushResult := do
  if groupId = 0 then return { failedCount := 1 }
  let members ← env.listMembers groupId
  if members = [] then return { failedCount := 1 }
  pushToMembers env options retry requestId message members {}

end

end NebulaIM.Push
