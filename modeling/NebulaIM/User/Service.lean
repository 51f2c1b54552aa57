import NebulaIM.Session.World

/-!
# The user service

`UserServiceImpl` as far as it issues, refreshes and checks tokens, with the
functions of `DeviceDao`.  The service is built with all its dependencies.
-/

namespace NebulaIM.Session

open Foundation.Wire (Bytes)
open Protocol

namespace DeviceDao

/-- The row to write: times that are not set are taken from the clock. -/
def stamped (device : UserDevice) (now : Int64) : UserDevice :=
  let loginAt := if 0 < device.lastLoginAt then device.lastLoginAt else now
  { device with
    lastLoginAt := loginAt
    lastActiveAt :=
      if 0 < device.lastActiveAt then device.lastActiveAt else loginAt
    createdAt := if 0 < device.createdAt then device.createdAt else now
    updatedAt := if 0 < device.updatedAt then device.updatedAt else now }

def upsertDevice (device : UserDevice) : Service Bool := do
  if device.userId = 0 ∨ device.deviceId = [] then return false
  let now ← nowMs
  call (.sql (.upsertDevice (stamped device now)))

def getDevice (userId : UInt64) (deviceId : Bytes) : Service (Option UserDevice) := do
  if userId = 0 ∨ deviceId = [] then return none
  call (.sql (.getDevice userId deviceId))

theorem getDevice_eq {userId : UInt64} {deviceId : Bytes} (huser : userId ≠ 0)
    (hdevice : deviceId ≠ []) :
    getDevice userId deviceId = call (.sql (.getDevice userId deviceId)) :=
  if_neg (by simp [huser, hdevice])

def listDevices (userId : UInt64) : Service (List UserDevice) := do
  if userId = 0 then return []
  call (.sql (.listDevices userId))

def clearDeviceToken (userId : UInt64) (deviceId : Bytes) (updatedAt : Int64) :
    Service Bool := do
  if userId = 0 ∨ deviceId = [] then return false
  let now ← if 0 < updatedAt then pure updatedAt else nowMs
  call (.sql (.clearDeviceToken userId deviceId now))

end DeviceDao

def unauthenticated (requestId : Bytes) : CommonResponse :=
  fillResponse requestId .authFailed "internal rpc unauthenticated"

end NebulaIM.Session

namespace NebulaIM.User

open Session Session.TokenManager
open Foundation.Wire (Bytes)
open Protocol

def kMaxUsernameLength : Nat := 64
def kMaxPasswordLength : Nat := 256
def kMaxDeviceIdLength : Nat := 128
def kMaxPlatformLength : Nat := 32
def kMaxDeviceNameLength : Nat := 128
def kMaxTokenLength : Nat := 256

/-! ## Login -/

def loginReply (requestId : Bytes) (code : ErrorCode) (message : String) :
    LoginResponse :=
  { response := some (fillResponse requestId code message) }

/-- The checks of the fields of a login request. -/
def validateLogin (req : LoginRequest) : Option LoginResponse :=
  if req.username = [] then some (loginReply req.requestId .usernameEmpty "")
  else if req.password = [] then
    some (loginReply req.requestId .passwordEmpty "")
  else if kMaxUsernameLength < req.username.length ∨ kMaxPasswordLength < req.password.length ∨
      kMaxDeviceIdLength < req.deviceId.length ∨
      kMaxPlatformLength < req.platform.length ∨
      kMaxDeviceNameLength < req.deviceName.length then
    some (loginReply req.requestId .invalidArgument "login field exceeds size limit")
  else none

/-- Delete the token that a device row held before. -/
def deletePrevious (previous newHash : Bytes) : Service Unit := do
  if previous ≠ [] ∧ previous ≠ newHash then
    let _ ← Redis.del (hashKey previous)

/-- The device row of a login: the token that the row held is deleted before
the row gets the new one. -/
def recordDevice (req : LoginRequest) (userId : UInt64) (newHash : Bytes) :
    Service Bool := do
  let now ← nowMs
  let existing ← DeviceDao.getDevice userId req.deviceId
  deletePrevious ((existing.map UserDevice.tokenHash).getD []) newHash
  DeviceDao.upsertDevice {
    userId := userId, deviceId := req.deviceId
    platform := req.platform, deviceName := req.deviceName
    tokenHash := newHash
    lastLoginAt := now, lastActiveAt := now, createdAt := now, updatedAt := now }

def loginSucceeded (config : Config) (req : LoginRequest) (userId : UInt64)
    (token : Bytes) : Service LoginResponse := do
  let expireAt ← expireAtMs config
  return { loginReply req.requestId .ok "OK" with
    userId := userId, token := token, expireAt := expireAt }

/-- Issue a token to a user whose password was verified. -/
def issueToken (config : Config) (req : LoginRequest) (userId : UInt64) :
    Service LoginResponse := do
  let token ← call .generateToken
  if token = [] then return loginReply req.requestId .internalError ""
  if !(← Redis.setEx (tokenKey config token) (ttlSeconds config) (decimal userId.toNat)) then
    return loginReply req.requestId .redisError ""
  if req.deviceId = [] then
    loginSucceeded config req userId token
  else if ← recordDevice req userId (tokenHash config token) then
    loginSucceeded config req userId token
  else
    let _ ← Redis.del (tokenKey config token)
    return loginReply req.requestId .dbError "device metadata persist failed"

def login (config : Config) (req : LoginRequest) : Service LoginResponse := do
  if !(← authorize) then
    return { response := some (unauthenticated req.requestId) }
  match validateLogin req with
  | some refused => return refused
  | none =>
    let user ← call (.getUserByUsername req.username)
    match user.filter fun user =>
        config.verifyPassword req.password user.passwordHash with
    | none => return loginReply req.requestId .authFailed "auth failed"
    | some user => issueToken config req user.id

/-! ## Checking a token -/

def validateReply (requestId : Bytes) (code : ErrorCode) (message : String) :
    ValidateTokenResponse :=
  { response := some (fillResponse requestId code message) }

def validateToken (config : Config) (req : ValidateTokenRequest) :
    Service ValidateTokenResponse := do
  if !(← authorize) then
    return { response := some (unauthenticated req.requestId) }
  if req.token = [] ∨ kMaxTokenLength < req.token.length then
    return validateReply req.requestId .tokenInvalid ""
  match ← Redis.get (tokenKey config req.token) with
  | none => return validateReply req.requestId .ok "OK"
  | some value =>
    match stoull value with
    | none => return validateReply req.requestId .tokenInvalid ""
    | some userId =>
      return { validateReply req.requestId .ok "OK" with
        valid := true, userId := userId }

/-! ## Refreshing a token -/

def refreshReply (requestId : Bytes) (code : ErrorCode) :
    RefreshTokenResponse :=
  { response := some (fillResponse requestId code "") }

/-- The device row of a refreshed token: `none` if the row could not be
written, and otherwise the hash that the row held before. -/
def replaceDeviceToken (userId : UInt64) (deviceId newHash : Bytes) : Service (Option Bytes) := do
  if deviceId = [] then return some []
  match ← DeviceDao.getDevice userId deviceId with
  | none => return some []
  | some device =>
    let now ← nowMs
    if ← DeviceDao.upsertDevice
        { device with
          tokenHash := newHash, lastActiveAt := now, updatedAt := now } then
      return some device.tokenHash
    else return none

/-- Replace a token that Redis holds for the user by a new one. -/
def exchangeToken (config : Config) (req : RefreshTokenRequest)
    (userId : UInt64) : Service RefreshTokenResponse := do
  let newToken ← call .generateToken
  if newToken = [] then return refreshReply req.requestId .tokenRefreshFailed
  if !(← Redis.setEx (tokenKey config newToken) (ttlSeconds config) (decimal userId.toNat)) then
    return refreshReply req.requestId .tokenRefreshFailed
  match ← replaceDeviceToken userId req.deviceId (tokenHash config newToken) with
  | none =>
    let _ ← Redis.del (tokenKey config newToken)
    return refreshReply req.requestId .tokenRefreshFailed
  | some previous =>
    deletePrevious previous (tokenHash config newToken)
    let _ ← Redis.del (tokenKey config req.token)
    let expireAt ← expireAtMs config
    return {
      response := some (fillResponse req.requestId .ok "OK")
      userId := userId, token := newToken, expireAt := expireAt }

def refreshToken (config : Config) (req : RefreshTokenRequest) :
    Service RefreshTokenResponse := do
  if !(← authorize) then
    return { response := some (unauthenticated req.requestId) }
  if req.token = [] ∨ kMaxTokenLength < req.token.length ∨
      kMaxDeviceIdLength < req.deviceId.length then
    return refreshReply req.requestId .tokenInvalid
  match ← Redis.get (tokenKey config req.token) with
  | none => return refreshReply req.requestId .tokenRefreshFailed
  | some value =>
    match stoull value with
    | none => return refreshReply req.requestId .tokenInvalid
    | some userId => exchangeToken config req userId

end NebulaIM.User
