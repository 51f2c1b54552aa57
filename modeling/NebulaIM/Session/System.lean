import NebulaIM.Device.Service

/-!
# The session services as one system

Any number of requests to the user service, the device service and the gateways
run against one world, one call at a time.
-/

namespace NebulaIM.Session

open Foundation
open Foundation.Wire (Bytes)
open Protocol

inductive Request where
  | login (req : LoginRequest)
  | validateToken (req : ValidateTokenRequest)
  | refreshToken (req : RefreshTokenRequest)
  | listDevices (req : ListDevicesRequest)
  | kickDevice (req : KickDeviceRequest)
  | kickAllDevices (req : KickAllDevicesRequest)
  /-- A gateway handles a packet of one of its connections. -/
  | packet (place : Place) (packet : Packet)
  /-- A gateway sees the end of a connection. -/
  | disconnected (place : Place)
  /-- The online worker of a gateway runs the next task. -/
  | onlineTask (gateway : Bytes)
  deriving DecidableEq, Repr

inductive Reply where
  | login (resp : LoginResponse)
  | validateToken (resp : ValidateTokenResponse)
  | refreshToken (resp : RefreshTokenResponse)
  | listDevices (resp : ListDevicesResponse)
  | kicked (resp : CommonResponse)
  | done
  deriving DecidableEq, Repr

def code (config : Config) : Request → Service Reply
  | .login req => do return .login (← User.login config req)
  | .validateToken req => do
      return .validateToken (← User.validateToken config req)
  | .refreshToken req => do
      return .refreshToken (← User.refreshToken config req)
  | .listDevices req => do return .listDevices (← Device.listDevices req)
  | .kickDevice req => do return .kicked (← Device.kickDevice req)
  | .kickAllDevices req => do return .kicked (← Device.kickAllDevices req)
  | .packet place packet => do
      Gateway.handlePacket (Gateway.routerEnv config place.1) place.2 packet
      return .done
  | .disconnected place => do
      Gateway.onDisconnected place.1 place.2
      return .done
  | .onlineTask gateway => do
      Gateway.GatewayOnlineManager.runOnlineTask config gateway
      return .done

@[simps] def system (config : Config) :
    System Request Op Op.Res World Choice Env Reply where
  code := code config
  exec := World.exec config
  env := World.env

abbrev SessionPool := Pool Request Op Op.Res World Reply

abbrev SessionAction := Action Request Choice Env

abbrev SessionGuard := Guard Request Op World Choice Env

def initial : SessionPool := ⟨{}, []⟩

/-- The token passes `ValidateToken` in the given world, when nothing fails. -/
def Passes (config : Config) (w : World) (token : Bytes) : Prop :=
  ((User.validateToken config { token := token }).eval fun op =>
    (w.exec config 0 op {}).2).valid = true

instance (config : Config) (w : World) (token : Bytes) : Decidable (Passes config w token) :=
  inferInstanceAs (Decidable (_ = true))

theorem Passes.holds {config : Config} {w : World} {token : Bytes} (h : Passes config w token) :
    w.Holds (TokenManager.tokenKey config token) := by
  unfold Passes User.validateToken at h
  simp only [authorize, ask, call, Redis.get, Prog.perform, Prog.call_bind,
    Prog.ret_bind, Prog.eval_call, World.exec, Bool.not_true, Bool.false_eq_true,
    if_false] at h
  split at h
  · cases h
  · simp only [Prog.eval_call, World.execRedis, RedisCommand.reply] at h
    cases hvalue : w.redis (TokenManager.tokenKey config token) with
    | none =>
      simp only [hvalue] at h
      cases h
    | some stored =>
      cases stored with
      | string value => exact ⟨value, hvalue⟩
      | set members =>
        simp only [hvalue] at h
        cases h

/-! ## A small installation -/

/-- Enough of OpenSSL and MySQL to run the services. -/
def demo : Config where
  sha256 token := Vector.replicate 32 (token.headD 0)
  verifyPassword password passwordHash := password = passwordHash
  collate text := text

def alice : User := ⟨1, lit "alice", lit "secret"⟩

def aliceLogin : LoginRequest where
  requestId := lit "login"
  username := lit "alice"
  password := lit "secret"
  deviceId := lit "laptop"

def steps (client count : Nat) (token : Bytes := [7]) : List SessionAction :=
  List.replicate count (.step client { clock := 5, token := token })

/-- The laptop of alice is logged in with the token `[7]`. -/
def loggedIn : List SessionAction :=
  [.env (.register alice), .spawn (.login aliceLogin)] ++ steps 0 9

end NebulaIM.Session
