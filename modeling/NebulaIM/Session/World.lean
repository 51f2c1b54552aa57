import NebulaIM.Foundation.Interleaving
import NebulaIM.Foundation.Store
import NebulaIM.Gateway.Router
import NebulaIM.Protocol.Identifiers
import Mathlib.Data.List.Sort

/-!
# The world of the session services

A session lives in four places: the token keys of Redis, the presence keys of
Redis, the `user_devices` rows of MySQL and the connections of the gateways.  The
user service, the device service and the gateways change them one call at a
time.  Redis, MySQL and the RPCs answer through `Choice`: a call may be refused,
or take effect although its reply is lost.

The world also keeps a record of its past: no handler reads it.  It says which
tokens were generated, which token keys Redis has been given, what each thread
was told about a device row, and which live tokens a thread has overwritten in a
row without deleting them.
-/

namespace NebulaIM.Session

open Foundation
open Foundation.Store (Fault Table)
open Foundation.Wire (Bytes)
open Protocol
open Gateway (ConnectionContext)

/-- The functions of OpenSSL and MySQL that the services rest on, and their
settings. -/
structure Config where
  sha256 : Bytes → Vector UInt8 32
  verifyPassword : (password passwordHash : Bytes) → Bool
  /-- Texts with one collation key are equal to MySQL. -/
  collate : Bytes → Bytes
  tokenTtlSeconds : Int32 := 604800
  onlineTtlSeconds : Int32 := 60

/-! ## Rows, values and connections -/

structure User where
  id : UInt64
  username : Bytes
  passwordHash : Bytes
  deriving DecidableEq, Repr

structure UserDevice where
  userId : UInt64 := 0
  deviceId : Bytes := []
  platform : Bytes := []
  deviceName : Bytes := []
  tokenHash : Bytes := []
  lastLoginAt : Int64 := 0
  lastActiveAt : Int64 := 0
  createdAt : Int64 := 0
  updatedAt : Int64 := 0
  deriving DecidableEq, Repr

inductive RedisValue where
  | string (value : Bytes)
  | set (members : List Bytes)
  deriving DecidableEq, Repr

/-- A connection of a gateway.  Ids start again with the process, so `serial`
tells apart two connections that had the same id. -/
structure Connection where
  serial : Nat
  context : ConnectionContext
  connected : Bool := true
  deriving DecidableEq, Repr

/-- A gateway and the id of one of its connections. -/
abbrev Place := Bytes × Bytes

inductive OnlineTask where
  | refreshOnline (userId : UInt64) (deviceId connectionId : Bytes)
  | setOffline (userId : UInt64) (deviceId connectionId : Bytes)
  deriving DecidableEq, Repr

/-! ## Calls -/

inductive RedisCommand where
  | get (key : Bytes)
  | setEx (key : Bytes) (ttlSeconds : Int32) (value : Bytes)
  | del (key : Bytes)
  | sadd (key member : Bytes)
  | srem (key member : Bytes)
  | expire (key : Bytes) (ttlSeconds : Int32)
  deriving DecidableEq, Repr

@[reducible] def RedisCommand.Res : RedisCommand → Type
  | .get _ => Option Bytes
  | .setEx _ _ _ | .del _ | .sadd _ _ | .srem _ _ | .expire _ _ => Bool

/-- The statements on `user_devices`. -/
inductive DeviceStatement where
  | getDevice (userId : UInt64) (deviceId : Bytes)
  | listDevices (userId : UInt64)
  | upsertDevice (device : UserDevice)
  | clearDeviceToken (userId : UInt64) (deviceId : Bytes) (now : Int64)
  deriving DecidableEq, Repr

@[reducible] def DeviceStatement.Res : DeviceStatement → Type
  | .getDevice _ _ => Option UserDevice
  | .listDevices _ => List UserDevice
  | .upsertDevice _ | .clearDeviceToken _ _ _ => Bool

inductive Op where
  | nowMs
  | getUserByUsername (username : Bytes)
  | getUserById (userId : UInt64)
  | generateToken
  | redis (command : RedisCommand)
  | sql (statement : DeviceStatement)
  | getContext (place : Place)
  /-- The serial of the connection, if it is set and `connected()`. -/
  | getConnection (place : Place)
  | bindUser (place : Place) (userId : UInt64) (token deviceId platform : Bytes)
  | forceClose (place : Place) (serial : Nat)
  | removeConnection (place : Place)
  | submitOnlineTask (gateway : Bytes) (task : OnlineTask)
  | takeOnlineTask (gateway : Bytes)
  /-- What becomes of a remote call. -/
  | rpc
  /-- An answer that the session state does not decide: the internal
  authorisation, a rate limiter, a circuit breaker, an executor. -/
  | ask

@[reducible] def Op.Res : Op → Type
  | .nowMs => Int64
  | .getUserByUsername _ | .getUserById _ => Option User
  | .generateToken => Bytes
  | .redis command => command.Res
  | .sql statement => statement.Res
  | .getContext _ => Option ConnectionContext
  | .getConnection _ => Option Nat
  | .bindUser _ _ _ _ _ => Bool × Option (Place × Nat)
  | .forceClose _ _ | .removeConnection _ | .submitOnlineTask _ _ => Unit
  | .takeOnlineTask _ => Option OnlineTask
  | .rpc => Fault × Bytes
  | .ask => Bool

structure Choice where
  fault : Fault := .none
  clock : Int64 := 0
  token : Bytes := []
  granted : Bool := true
  errorMessage : Bytes := []

abbrev Service (α : Type) := Prog Op Op.Res α

def call (op : Op) : Service op.Res := Prog.perform op

def nowMs : Service Int64 := call .nowMs

def ask : Service Bool := call .ask

namespace Redis

def get (key : Bytes) : Service (Option Bytes) := call (.redis (.get key))

def setEx (key : Bytes) (ttlSeconds : Int32) (value : Bytes) : Service Bool :=
  call (.redis (.setEx key ttlSeconds value))

def del (key : Bytes) : Service Bool := call (.redis (.del key))

def sadd (key member : Bytes) : Service Bool := call (.redis (.sadd key member))

def srem (key member : Bytes) : Service Bool := call (.redis (.srem key member))

def expire (key : Bytes) (ttlSeconds : Int32) : Service Bool :=
  call (.redis (.expire key ttlSeconds))

end Redis

/-- `InternalRpcAuth::authorize` -/
def authorize : Service Bool := ask

/-! ## Keys -/

namespace TokenManager

def hexByte (byte : UInt8) : Bytes :=
  let digit (n : UInt8) : UInt8 := if n < 10 then 48 + n else 87 + n
  [digit (byte / 16), digit (byte % 16)]

def tokenHash (config : Config) (token : Bytes) : Bytes :=
  (config.sha256 token).toList.flatMap hexByte

/-- The key of the token with the given hash. -/
def hashKey (tokenHash : Bytes) : Bytes := lit "nebula:token:" ++ tokenHash

def tokenKey (config : Config) (token : Bytes) : Bytes := hashKey (tokenHash config token)

def ttlSeconds (config : Config) : Int32 :=
  if 0 < config.tokenTtlSeconds then config.tokenTtlSeconds else 604800

def expireAtMs (config : Config) : Service Int64 := do
  let now ← nowMs
  return now + (ttlSeconds config).toInt64 * 1000

end TokenManager

open TokenManager (hashKey tokenKey)

def isTokenKey (key : Bytes) : Bool := (lit "nebula:token:").isPrefixOf key

def devicesKey (userId : UInt64) : Bytes := lit "nebula:user:devices:" ++ decimal userId.toNat

def onlineKey (userId : UInt64) (deviceId : Bytes) : Bytes :=
  lit "nebula:user:online:" ++ decimal userId.toNat ++ lit ":" ++ deviceId

def connKey (userId : UInt64) (deviceId : Bytes) : Bytes :=
  lit "nebula:user:conn:" ++ decimal userId.toNat ++ lit ":" ++ deviceId

/-! ## The state -/

/-- What `getDevice` answered, and the connections at that moment. -/
structure Look where
  row : Option UserDevice
  connections : Table Place Connection

structure World where
  users : List User := []
  redis : Bytes → Option RedisValue := fun _ => none
  /-- Keyed by the user id and the collation key of the device id. -/
  devices : Table (UInt64 × Bytes) UserDevice := ∅
  connections : Table Place Connection := ∅
  /-- `user_device_to_connection_` of each gateway. -/
  bound : Bytes → UInt64 × Bytes → Option Bytes := fun _ _ => none
  nextConnId : Bytes → Nat := fun _ => 1
  onlineTasks : Bytes → List OnlineTask := fun _ => []
  /-- The number of connections accepted so far by all gateways. -/
  accepted : Nat := 0
  /-- What each thread was first told about a device row. -/
  looked : Nat → Option Look := fun _ => none
  /-- The threads that have read the key of a token. -/
  presented : Nat → Bool := fun _ => false
  /-- The keys of the tokens that were generated, with the threads they went to. -/
  issued : List (Nat × Bytes) := []
  /-- The token keys that were set, or read from a row. -/
  seen : List Bytes := []
  /-- The keys of live tokens that a thread has overwritten in a row and not
  deleted since. -/
  owed : Nat → List Bytes := fun _ => []

def RedisCommand.apply (redis : Bytes → Option RedisValue) :
    RedisCommand → Bytes → Option RedisValue
  | .get _ | .expire _ _ => redis
  | .setEx key _ value => Function.update redis key (some (.string value))
  | .del key => Function.update redis key none
  | .sadd key member =>
    match redis key with
    | none => Function.update redis key (some (.set [member]))
    | some (.set members) => Function.update redis key (some (.set (members.insert member)))
    | some (.string _) => redis
  | .srem key member =>
    match redis key with
    | some (.set members) =>
      let rest := members.erase member
      Function.update redis key (if rest = [] then none else some (.set rest))
    | _ => redis

def RedisCommand.reply (redis : Bytes → Option RedisValue) : (command : RedisCommand) → command.Res
  | .get key =>
    match redis key with
    | some (.string value) => some value
    | _ => none
  | .setEx _ _ _ | .del _ => true
  | .sadd key _ | .srem key _ =>
    match redis key with
    | some (.string _) => false
    | _ => true
  | .expire key _ => (redis key).isSome

def RedisCommand.failed : (command : RedisCommand) → command.Res
  | .get _ => none
  | .setEx _ _ _ | .del _ | .sadd _ _ | .srem _ _ | .expire _ _ => false

namespace World

def deviceKey (config : Config) (userId : UInt64) (deviceId : Bytes) : UInt64 × Bytes :=
  (userId, config.collate deviceId)

def getDevice (w : World) (config : Config) (userId : UInt64)
    (deviceId : Bytes) : Option UserDevice :=
  w.devices.lookup (deviceKey config userId deviceId)

/-- The token hash in a device row; a missing row has none. -/
def storedHash (w : World) (row : UInt64 × Bytes) : Bytes :=
  ((w.devices.lookup row).map UserDevice.tokenHash).getD []

def Holds (w : World) (key : Bytes) : Prop := ∃ value, w.redis key = some (.string value)

instance (w : World) (key : Bytes) : Decidable (w.Holds key) :=
  match h : w.redis key with
  | some (.string value) => .isTrue ⟨value, h⟩
  | some (.set _) => .isFalse fun ⟨_, h'⟩ => by rw [h] at h'; cases h'
  | none => .isFalse fun ⟨_, h'⟩ => by rw [h] at h'; cases h'

/-! ### The record of the past -/

/-- What a command that took effect adds to the record. -/
def recordRedis (w : World) (client : Nat) : RedisCommand → World
  | .get key =>
    if isTokenKey key then
      { w with presented := Function.update w.presented client true }
    else w
  | .setEx key _ _ =>
    if isTokenKey key then { w with seen := key :: w.seen } else w
  | .del key =>
    { w with
      owed := Function.update w.owed client ((w.owed client).filter (· ≠ key)) }
  | _ => w

def recordLook (w : World) (client : Nat) (row : Option UserDevice) : World :=
  { w with
    looked := Function.update w.looked client ((w.looked client).or (some ⟨row, w.connections⟩))
    seen := (row.map fun device => hashKey device.tokenHash).toList ++ w.seen }

/-- A row's token hash is about to become `tokenHash`. -/
def recordOverwrite (w : World) (client : Nat) (row : UInt64 × Bytes) (tokenHash : Bytes) : World :=
  let old := w.storedHash row
  if old ≠ [] ∧ old ≠ tokenHash ∧ w.Holds (hashKey old) then
    { w with
      owed := Function.update w.owed client (hashKey old :: w.owed client) }
  else w

/-! ### Redis and MySQL -/

def execRedis (w : World) (client : Nat) (command : RedisCommand)
    (fault : Fault) : World × command.Res :=
  let next : World := { w.recordRedis client command with redis := command.apply w.redis }
  match fault with
  | .none => (next, command.reply w.redis)
  | .lost => (next, command.failed)
  | .refused => (w, command.failed)

/-- `INSERT … ON DUPLICATE KEY UPDATE`: the row keeps its device id and its
creation time. -/
def upserted (config : Config) (devices : Table (UInt64 × Bytes) UserDevice)
    (device : UserDevice) : Table (UInt64 × Bytes) UserDevice :=
  let row := deviceKey config device.userId device.deviceId
  match devices.lookup row with
  | none => devices.insert row device
  | some old =>
    devices.insert row { device with deviceId := old.deviceId, createdAt := old.createdAt }

/-- `ORDER BY last_active_at DESC, last_login_at DESC` -/
def moreRecent (first second : UserDevice) : Bool :=
  second.lastActiveAt < first.lastActiveAt ||
    (first.lastActiveAt == second.lastActiveAt && second.lastLoginAt ≤ first.lastLoginAt)

def listDevices (w : World) (userId : UInt64) : List UserDevice :=
  ((Table.rows w.devices).filter (·.userId = userId)).insertionSort
    (fun first second => moreRecent first second = true)

def upsertDevice (config : Config) (w : World) (client : Nat) (device : UserDevice) : World :=
  { w.recordOverwrite client
      (deviceKey config device.userId device.deviceId) device.tokenHash with
    devices := upserted config w.devices device }

def clearDeviceToken (config : Config) (w : World) (client : Nat)
    (userId : UInt64) (deviceId : Bytes) (now : Int64) : World :=
  { w.recordOverwrite client (deviceKey config userId deviceId) [] with
    devices := Table.modify w.devices (deviceKey config userId deviceId) fun row =>
        { row with tokenHash := [], lastActiveAt := now, updatedAt := now } }

def execSql (config : Config) (w : World) (client : Nat) :
    (statement : DeviceStatement) → Fault → World × statement.Res
  | .getDevice userId deviceId, fault =>
    let row := if fault = .none then w.getDevice config userId deviceId else none
    (w.recordLook client row, row)
  | .listDevices userId, fault => (w, if fault = .none then w.listDevices userId else [])
  | .upsertDevice device, fault =>
    (if fault = .refused then w else w.upsertDevice config client device, fault = .none)
  | .clearDeviceToken userId deviceId now, fault =>
    (if fault = .refused then w
      else w.clearDeviceToken config client userId deviceId now,
      fault = .none)

/-! ### The connections of a gateway -/

def removeBinding (w : World) (place : Place) (context : ConnectionContext) :
    World :=
  let device := (context.userId, context.deviceId)
  if w.bound place.1 device = some place.2 then
    { w with
      bound := Function.update w.bound place.1 (Function.update (w.bound place.1) device none) }
  else w

/-- `ConnectionManager::bindUser` up to the closing of the connection that it
replaces, which it does after it has released its lock. -/
def bindUser (w : World) (place : Place) (userId : UInt64)
    (token deviceId platform : Bytes) : World × Bool × Option (Place × Nat) :=
  match w.connections.lookup place with
  | none => (w, false, none)
  | some connection =>
    let old := connection.context
    let w :=
      if old.userId ≠ 0 ∧ old.deviceId ≠ [] then w.removeBinding place old
      else w
    let replaced := do
      let other ← w.bound place.1 (userId, deviceId)
      if other = place.2 then none
      else
        let connection ← w.connections.lookup (place.1, other)
        some ((place.1, other), connection.serial)
    let context : ConnectionContext :=
      { old with
        userId := userId, token := token, deviceId := deviceId
        platform := platform, authenticated := true }
    ({ w with
        connections := w.connections.insert place { connection with context := context }
        bound := Function.update w.bound place.1
          (Function.update (w.bound place.1) (userId, deviceId) (some place.2)) },
      true, replaced)

def forceClose (w : World) (place : Place) (serial : Nat) : World :=
  { w with
    connections := Table.modify w.connections place fun connection =>
      if connection.serial = serial then { connection with connected := false }
      else connection }

def removeConnection (w : World) (place : Place) : World :=
  match w.connections.lookup place with
  | none => w
  | some connection =>
    let w :=
      if connection.context.userId ≠ 0 then
        w.removeBinding place connection.context
      else w
    { w with connections := w.connections.erase place }

/-- A connection that is set and `connected()`. -/
def live (w : World) (place : Place) : Option Connection :=
  (w.connections.lookup place).filter (·.connected)

def exec (config : Config) (w : World) (client : Nat) : (op : Op) → Choice → World × op.Res
  | .nowMs, choice => (w, choice.clock)
  | .getUserByUsername username, choice =>
    (w, if choice.fault = .none then
        w.users.find? fun user => config.collate user.username = config.collate username
      else none)
  | .getUserById userId, choice =>
    (w, if choice.fault = .none then w.users.find? (·.id = userId) else none)
  | .generateToken, choice =>
    (if choice.token = [] then w
      else { w with issued := (client, tokenKey config choice.token) :: w.issued },
      choice.token)
  | .redis command, choice => w.execRedis client command choice.fault
  | .sql statement, choice => w.execSql config client statement choice.fault
  | .getContext place, _ => (w, (w.connections.lookup place).map Connection.context)
  | .getConnection place, _ => (w, (w.live place).map Connection.serial)
  | .bindUser place userId token deviceId platform, _ =>
    w.bindUser place userId token deviceId platform
  | .forceClose place serial, _ => (w.forceClose place serial, ())
  | .removeConnection place, _ => (w.removeConnection place, ())
  | .submitOnlineTask gateway task, choice =>
    (if choice.fault = .none then
        { w with
          onlineTasks := Function.update w.onlineTasks gateway (w.onlineTasks gateway ++ [task]) }
      else w, ())
  | .takeOnlineTask gateway, _ =>
    ({ w with
        onlineTasks := Function.update w.onlineTasks gateway (w.onlineTasks gateway).tail },
      (w.onlineTasks gateway).head?)
  | .rpc, choice => (w, choice.fault, choice.errorMessage)
  | .ask, choice => (w, choice.granted)

end World

/-! ## What happens besides the calls -/

inductive Env where
  | register (user : User)
  /-- A key expires or is evicted. -/
  | expire (key : Bytes)
  | accept (gateway : Bytes)
  /-- The peer closes, the heartbeat times out, another service closes it. -/
  | hangUp (place : Place)
  /-- A gateway stops and starts again without its connections. -/
  | restart (gateway : Bytes)
  deriving DecidableEq, Repr

namespace World

/-- `ConnectionManager::generateConnectionId` -/
def connectionId (w : World) (gateway : Bytes) : Bytes :=
  gateway ++ lit "-conn-" ++ decimal (w.nextConnId gateway)

def env (w : World) : Env → World
  | .register user => { w with users := user :: w.users }
  | .expire key => { w with redis := Function.update w.redis key none }
  | .accept gateway =>
    { w with
      connections := w.connections.insert (gateway, w.connectionId gateway)
        ⟨w.accepted, { connectionId := w.connectionId gateway }, true⟩
      nextConnId := Function.update w.nextConnId gateway (w.nextConnId gateway + 1)
      accepted := w.accepted + 1 }
  | .hangUp place =>
    { w with
      connections := Table.modify w.connections place fun connection =>
        { connection with connected := false } }
  | .restart gateway =>
    { w with
      connections := Table.restrict w.connections (·.1 ≠ gateway)
      bound := Function.update w.bound gateway fun _ => none
      nextConnId := Function.update w.nextConnId gateway 1
      onlineTasks := Function.update w.onlineTasks gateway [] }

end World

end NebulaIM.Session
