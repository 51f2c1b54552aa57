import NebulaIM.Gateway.Presence

/-!
# The device service

`DeviceServiceImpl` lists the devices of a user and revokes them.
-/

namespace NebulaIM.Device

open Session
open Session.TokenManager (hashKey)
open Foundation.Wire (Bytes)
open Protocol
open Gateway.GatewayOnlineManager (clearPresence)

/-- The gateway and the connection that the presence keys name; without both
keys the device is offline and its presence is removed. -/
def isOnline (userId : UInt64) (deviceId : Bytes) : Session.Service (Option Place) := do
  if userId = 0 ∨ deviceId = [] then return none
  let gateway ← Redis.get (onlineKey userId deviceId)
  let conn ← Redis.get (connKey userId deviceId)
  match gateway, conn with
  | some gateway, some conn => return some (gateway, conn)
  | _, _ =>
    clearPresence userId deviceId
    return none

/-- `GatewayClient::kickConnection` of the gateway's client, if there is one.  The
first question stands for the client and its stub, the second for the breaker. -/
def kickConnection (requestId : Bytes) (userId : UInt64) (place : Place)
    (deviceId : Bytes) : Session.Service Bool := do
  if !(← ask) then return false
  if !(← ask) then return false
  let req : KickConnectionRequest := ⟨requestId, userId, place.2, deviceId, lit "device revoked"⟩
  match ← Gateway.remote {} (Gateway.kickConnection place.1 req) with
  | (.ok, resp) => return resp.code == 0
  | (.failed _, _) => return false

/-- Close the connection of the device, if it is online. -/
def kickLive (requestId : Bytes) (userId : UInt64) (deviceId : Bytes) :
    Session.Service Bool := do
  match ← isOnline userId deviceId with
  | none => return true
  | some place => kickConnection requestId userId place deviceId

def deleteToken (tokenHash : Bytes) : Session.Service Unit := do
  if tokenHash ≠ [] then
    let _ ← Redis.del (hashKey tokenHash)

def revokeDevice (requestId : Bytes) (userId : UInt64)
    (deviceId tokenHash : Bytes) : Session.Service Bool := do
  let liveKickOk ← kickLive requestId userId deviceId
  deleteToken tokenHash
  clearPresence userId deviceId
  let now ← nowMs
  let deviceOk ← DeviceDao.clearDeviceToken userId deviceId now
  return deviceOk && liveKickOk

/-! ## The handlers -/

def listReply (requestId : Bytes) (code : ErrorCode) : ListDevicesResponse :=
  { response := some (fillResponse requestId code "") }

def deviceInfo (device : UserDevice) (online : Bool) : DeviceInfo :=
  ⟨device.userId, device.deviceId, device.platform, device.deviceName,
    device.lastLoginAt, device.lastActiveAt, online⟩

def fillDevices : List UserDevice → Session.Service (List DeviceInfo)
  | [] => return []
  | device :: devices => do
      let place ← isOnline device.userId device.deviceId
      return deviceInfo device place.isSome :: (← fillDevices devices)

def listDevices (req : ListDevicesRequest) :
    Session.Service ListDevicesResponse := do
  if !(← authorize) then
    return { response := some (unauthenticated req.requestId) }
  if req.userId = 0 then return listReply req.requestId .invalidArgument
  if (← call (.getUserById req.userId)).isNone then
    return listReply req.requestId .userNotFound
  let devices ← fillDevices (← DeviceDao.listDevices req.userId)
  return {
    response := some (fillResponse req.requestId .ok "OK"), devices := devices }

def kickDevice (req : KickDeviceRequest) : Session.Service CommonResponse := do
  if !(← authorize) then return unauthenticated req.requestId
  if req.userId = 0 ∨ req.deviceId = [] then
    return fillResponse req.requestId .invalidArgument ""
  if (← call (.getUserById req.userId)).isNone then
    return fillResponse req.requestId .userNotFound ""
  match ← DeviceDao.getDevice req.userId req.deviceId with
  | none => return fillResponse req.requestId .deviceNotFound ""
  | some device =>
    if ← revokeDevice req.requestId req.userId req.deviceId device.tokenHash then
      return fillResponse req.requestId .ok "OK"
    else
      return fillResponse req.requestId .serviceUnavailable "device connection revoke failed"

/-- The loop of `KickAllDevices`: every device is revoked, whatever became of
the others. -/
def revokeDevices (requestId : Bytes) (userId : UInt64) :
    (ok : Bool) → List UserDevice → Session.Service Bool
  | ok, [] => return ok
  | ok, device :: devices => do
      let revoked ← revokeDevice requestId userId device.deviceId device.tokenHash
      revokeDevices requestId userId (revoked && ok) devices

def kickAllDevices (req : KickAllDevicesRequest) :
    Session.Service CommonResponse := do
  if !(← authorize) then return unauthenticated req.requestId
  if req.userId = 0 then return fillResponse req.requestId .invalidArgument ""
  if (← call (.getUserById req.userId)).isNone then
    return fillResponse req.requestId .userNotFound ""
  let devices ← DeviceDao.listDevices req.userId
  if ← revokeDevices req.requestId req.userId true devices then
    return fillResponse req.requestId .ok "OK"
  else
    return fillResponse req.requestId .serviceUnavailable
      "one or more device connections failed to revoke"

end NebulaIM.Device
