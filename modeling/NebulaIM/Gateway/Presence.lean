import NebulaIM.User.Service

/-!
# Presence and sessions of a gateway

The online manager, `GatewayServiceImpl::KickConnection` and the router over the
session world.  The online worker runs the queued tasks one after another on a
thread of its own.  Message traffic does not touch sessions, so the stubs of the
message service fail here.
-/

namespace NebulaIM.Gateway

open Session
open Foundation.Store (Fault)
open Foundation.Wire (Bytes)
open Protocol

namespace GatewayOnlineManager

def onlineTtlSeconds (config : Config) : Int32 :=
  if 0 < config.onlineTtlSeconds then config.onlineTtlSeconds else 60

/-- Remove the presence of a device. -/
def clearPresence (userId : UInt64) (deviceId : Bytes) :
    Session.Service Unit := do
  let _ ← Redis.del (onlineKey userId deviceId)
  let _ ← Redis.del (connKey userId deviceId)
  let _ ← Redis.srem (devicesKey userId) deviceId

def setOnline (config : Config) (gatewayId : Bytes) (userId : UInt64)
    (deviceId connectionId : Bytes) : Session.Service Bool := do
  if userId = 0 ∨ deviceId = [] ∨ connectionId = [] then return false
  let ttl := onlineTtlSeconds config
  let ok ← do
    if !(← Redis.sadd (devicesKey userId) deviceId) then pure false
    else if !(← Redis.expire (devicesKey userId) ttl) then pure false
    else if !(← Redis.setEx (onlineKey userId deviceId) ttl gatewayId) then
      pure false
    else Redis.setEx (connKey userId deviceId) ttl connectionId
  if !ok then clearPresence userId deviceId
  return ok

def refreshOnline (config : Config) (userId : UInt64)
    (deviceId connectionId : Bytes) : Session.Service Bool := do
  if userId = 0 ∨ deviceId = [] ∨ connectionId = [] then return false
  let ttl := onlineTtlSeconds config
  match ← Redis.get (connKey userId deviceId) with
  | none => return false
  | some conn =>
    if conn ≠ connectionId then return false
    if !(← Redis.sadd (devicesKey userId) deviceId) then return false
    if !(← Redis.expire (devicesKey userId) ttl) then return false
    if !(← Redis.expire (onlineKey userId deviceId) ttl) then return false
    Redis.expire (connKey userId deviceId) ttl

def setOffline (userId : UInt64) (deviceId connectionId : Bytes) :
    Session.Service Bool := do
  if userId = 0 ∨ deviceId = [] ∨ connectionId = [] then return false
  let conn ← Redis.get (connKey userId deviceId)
  if conn.any (· ≠ connectionId) then return true
  clearPresence userId deviceId
  return true

/-- The worker takes one task from its queue and runs it. -/
def runOnlineTask (config : Config) (gatewayId : Bytes) :
    Session.Service Unit := do
  match ← call (.takeOnlineTask gatewayId) with
  | none => return
  | some (.refreshOnline userId deviceId connectionId) =>
    let _ ← refreshOnline config userId deviceId connectionId
  | some (.setOffline userId deviceId connectionId) =>
    let _ ← setOffline userId deviceId connectionId

end GatewayOnlineManager

/-! ## Closing a connection for another service -/

/-- `GatewayServiceImpl::KickConnection` -/
def kickConnection (gatewayId : Bytes) (req : KickConnectionRequest) :
    Session.Service CommonResponse := do
  if !(← authorize) then return unauthenticated req.requestId
  if req.userId = 0 ∨ req.connectionId = [] then
    return fillResponse req.requestId .invalidArgument ""
  match ← call (.getContext (gatewayId, req.connectionId)) with
  | none => return fillResponse req.requestId .gatewayConnectionNotFound ""
  | some ctx =>
    if ctx.userId ≠ req.userId then
      return fillResponse req.requestId .gatewayConnectionNotFound ""
    if req.deviceId ≠ [] ∧ ctx.deviceId ≠ req.deviceId then
      return fillResponse req.requestId .gatewayConnectionNotFound "connection device mismatch"
    match ← call (.getConnection (gatewayId, req.connectionId)) with
    | none => return fillResponse req.requestId .gatewayConnectionNotFound ""
    | some serial =>
      call (.forceClose (gatewayId, req.connectionId) serial)
      return fillResponse req.requestId .ok "OK"

/-- The end of a connection in `GatewayServer::onConnection`. -/
def onDisconnected (gatewayId connectionId : Bytes) : Session.Service Unit := do
  match ← call (.getContext (gatewayId, connectionId)) with
  | some ctx =>
    if ctx.authenticated then
      call (.submitOnlineTask gatewayId (.setOffline ctx.userId ctx.deviceId connectionId))
  | none => pure ()
  call (.removeConnection (gatewayId, connectionId))

/-! ## The router -/

/-- A remote call: refused on the way, or run by the server, whose reply may be
lost. -/
def remote {Resp : Type} (default : Resp) (handler : Session.Service Resp) :
    Session.Service (Status × Resp) := do
  match ← call .rpc with
  | (.refused, errorMessage) => return (.failed errorMessage, default)
  | (.lost, errorMessage) =>
    let _ ← handler
    return (.failed errorMessage, default)
  | (.none, _) =>
    let resp ← handler
    return (.ok, resp)

/-- `ConnectionManager::bindUser` with the closing of the replaced connection. -/
def bindUser (place : Place) (userId : UInt64)
    (token deviceId platform : Bytes) : Session.Service Bool := do
  if userId = 0 ∨ deviceId = [] then return false
  let (ok, replaced) ← call (.bindUser place userId token deviceId platform)
  match replaced with
  | some (other, serial) => call (.forceClose other serial)
  | none => pure ()
  return ok

def routerEnv (config : Config) (gatewayId : Bytes) : RouterEnv Session.Service where
  updateActiveTime _ := pure ()
  getContext connectionId := call (.getContext (gatewayId, connectionId))
  connected connectionId := do
    return (← call (.getConnection (gatewayId, connectionId))).isSome
  bindUser connectionId userId token deviceId platform :=
    bindUser (gatewayId, connectionId) userId token deviceId platform
  allowLogin := ask
  allowMessage _ := ask
  allowRequest _ := ask
  recordSuccess _ := pure ()
  recordFailure _ := pure ()
  hasExecutor := true
  accepts := ask
  taskThrew := ask
  register _ := pure (.failed [], {})
  login req := remote {} (User.login config req)
  validateToken req := remote {} (User.validateToken config req)
  sendSingleMessage _ := pure (.failed [], {})
  sendGroupMessage _ := pure (.failed [], {})
  ackMessage _ := pure (.failed [], {})
  pullOfflineMessages _ := pure (.failed [], {})
  setOnline := GatewayOnlineManager.setOnline config gatewayId
  setOfflineAsync userId deviceId connectionId :=
    call (.submitOnlineTask gatewayId (.setOffline userId deviceId connectionId))
  refreshOnlineAsync userId deviceId connectionId :=
    call (.submitOnlineTask gatewayId (.refreshOnline userId deviceId connectionId))
  sendPacket _ := pure ()

end NebulaIM.Gateway
