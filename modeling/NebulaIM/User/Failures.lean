import NebulaIM.Session.Interference

/-!
# Logins and refreshes that fail

`Login` and `RefreshToken` store the new token in Redis before they write the device
row, and delete it again if the row cannot be written.  With Redis answering and MySQL
failing in any way, these results say which of the tokens and hashes that were there
before survive a call that returns an error.
-/

namespace NebulaIM.User

open Foundation Session
open Foundation.Store (Fault Table)
open Session.TokenManager
open Foundation.Wire (Bytes)
open Protocol

/-- What a call meets besides the clock: the internal authorisation, the generated
token, and what becomes of its statements, each of which it issues at most once. -/
structure Setting where
  granted : Bool := true
  token : Bytes := []
  findUser : Fault := .none
  readDevice : Fault := .none
  writeDevice : Fault := .none

namespace Setting

def choice (setting : Setting) (clock : Int64) : Op → Choice
  | .getUserByUsername _ => { fault := setting.findUser }
  | .sql (.getDevice _ _) => { fault := setting.readDevice }
  | .sql (.upsertDevice _) => { fault := setting.writeDevice }
  | _ => { clock := clock, token := setting.token, granted := setting.granted }

def exec (setting : Setting) (config : Config) (client : Nat) (w : World) (op : Op)
    (clock : Int64) : World × op.Res :=
  w.exec config client op (setting.choice clock op)

def user (setting : Setting) (config : Config) (w : World) (username : Bytes) :
    Option User :=
  if setting.findUser = .none then
    w.users.find? fun user => config.collate user.username = config.collate username
  else none

def found (setting : Setting) (config : Config) (w : World) (userId : UInt64)
    (deviceId : Bytes) : Option UserDevice :=
  if setting.readDevice = .none ∧ userId ≠ 0 ∧ deviceId ≠ [] then
    w.getDevice config userId deviceId
  else none

end Setting

/-- The column `token_hash` of the device rows. -/
def tokenHashes (w : World) (row : UInt64 × Bytes) : Option Bytes :=
  (w.devices.lookup row).map UserDevice.tokenHash

/-- Some token with the given hash passes `ValidateToken`. -/
def Accepted (config : Config) (w : World) (hash : Bytes) : Prop :=
  ∃ token, Passes config w token ∧ tokenHash config token = hash

/-- The accepted tokens and the hashes in the device rows are the same. -/
structure Unchanged (config : Config) (a b : World) : Prop where
  tokens : ∀ token, Passes config b token ↔ Passes config a token
  hashes : tokenHashes b = tokenHashes a

inductive TokenCall where
  | login (req : LoginRequest)
  | refreshToken (req : RefreshTokenRequest)
  deriving DecidableEq, Repr

def TokenCall.serve (config : Config) : TokenCall → Service (Option CommonResponse)
  | .login req => do return (← User.login config req).response
  | .refreshToken req => do return (← User.refreshToken config req).response

def Refused (response : Option CommonResponse) : Prop :=
  (response.map CommonResponse.code).getD 0 ≠ 0

/-- The device row that a call writes, and the hash of the token that it has deleted
before. -/
structure RowWrite where
  userId : UInt64
  deviceId : Bytes
  previous : Bytes := []

namespace RowWrite

def of (device : UserDevice) : RowWrite := { userId := device.userId, deviceId := device.deviceId }

variable (write : RowWrite) (setting : Setting)

def key (config : Config) : UInt64 × Bytes := World.deviceKey config write.userId write.deviceId

/-- `upsertDevice` issues its statement. -/
def Issued : Prop := write.userId ≠ 0 ∧ write.deviceId ≠ []

def Succeeds : Prop := write.Issued ∧ setting.writeDevice = .none

/-- The statement takes effect. -/
def Done : Prop := write.Issued ∧ setting.writeDevice ≠ .refused

instance decidableIssued : Decidable write.Issued :=
  inferInstanceAs (Decidable (_ ∧ _))

instance decidableSucceeds : Decidable (write.Succeeds setting) :=
  inferInstanceAs (Decidable (_ ∧ _))

instance decidableDone : Decidable (write.Done setting) :=
  inferInstanceAs (Decidable (_ ∧ _))

end RowWrite

/-- The row that a call gets to write: `Login` deletes the token of the old row
first, `RefreshToken` writes only a row that it has found. -/
def TokenCall.write (config : Config) (setting : Setting) (w : World) : TokenCall → Option RowWrite
  | .login req =>
    if setting.granted = true ∧ validateLogin req = none ∧ setting.token ≠ [] ∧
        req.deviceId ≠ [] then
      ((setting.user config w req.username).filter fun user =>
        config.verifyPassword req.password user.passwordHash).map fun user => {
          userId := user.id, deviceId := req.deviceId
          previous := ((setting.found config w user.id req.deviceId).map
            UserDevice.tokenHash).getD [] }
    else none
  | .refreshToken req =>
    if setting.granted = true ∧ setting.token ≠ [] ∧
        ¬ (req.token = [] ∨ kMaxTokenLength < req.token.length ∨
          kMaxDeviceIdLength < req.deviceId.length) then
      ((RedisCommand.reply w.redis (.get (tokenKey config req.token))).bind
        stoull).bind fun userId => (setting.found config w userId req.deviceId).map RowWrite.of
    else none

/--
The row is not reached or is written.  Otherwise neither the new token nor the one
deleted before was accepted, and a statement that takes effect although it reports a
failure finds the new hash in the row already.
-/
def TokenCall.Harmless (config : Config) (setting : Setting) (w : World)
    (request : TokenCall) : Prop :=
  ∀ write, request.write config setting w = some write → ¬ write.Succeeds setting →
      ¬ Accepted config w (tokenHash config setting.token) ∧ ¬ Accepted config w write.previous ∧
        (write.Done setting → tokenHashes w (write.key config) =
          some (tokenHash config setting.token))

/-! ## Tokens -/

section Tokens

variable {config : Config} {w : World}

theorem passes_iff (token : Bytes) : Passes config w token ↔
      ¬ (token = [] ∨ kMaxTokenLength < token.length) ∧
        ∃ value userId, w.redis (tokenKey config token) = some (.string value) ∧
          stoull value = some userId := by
  unfold Passes validateToken
  simp only [authorize, ask, call, Redis.get, Prog.perform, Prog.call_bind,
    Prog.ret_bind, Prog.eval_call, World.exec, Bool.not_true, Bool.false_eq_true,
    if_false]
  by_cases hsize : token = [] ∨ kMaxTokenLength < token.length
  · simp [hsize, validateReply]
  · simp only [hsize, if_false, Prog.eval_call, World.execRedis, RedisCommand.reply]
    cases hvalue : w.redis (tokenKey config token) with
    | none => simp [validateReply]
    | some stored =>
      cases stored with
      | set members => simp [validateReply]
      | string value => cases hid : stoull value <;> simp [hid, validateReply]

theorem passes_without {b : World} {hash : Bytes}
    (h : b.redis = Function.update w.redis (hashKey hash) none) (token : Bytes) :
    Passes config b token ↔ Passes config w token ∧ tokenHash config token ≠ hash := by
  rw [passes_iff, passes_iff, h]
  by_cases hkey : tokenHash config token = hash
  · simp [tokenKey, hkey]
  · have hne : tokenKey config token ≠ hashKey hash := fun heq => hkey (hashKey_injective heq)
    simp [Function.update_of_ne hne, hkey]

end Tokens

/-! ## The handlers -/

section Handlers

variable (config : Config) (client : Nat) (setting : Setting)

/-- Every run of the program under the setting, whatever the clock shows, ends in
`post`. -/
abbrev Leads {α : Type} (post : α → World → Prop) (p : Service α) (w : World) : Prop :=
  Ensures (setting.exec config client) (fun _ _ _ => True) post p w

variable {config client setting} {w : World} {α : Type} {post : α → World → Prop}

theorem leads_nowMs {f : Int64 → Service α}
    (h : ∀ clock, Leads config client setting post (f clock) w) :
    Leads config client setting post (nowMs >>= f) w :=
  fun clock _ => h clock

variable {f : Bool → Service α}

theorem leads_authorize (h : Leads config client setting post (f setting.granted) w) :
    Leads config client setting post (authorize >>= f) w :=
  fun _ _ => h

theorem leads_getUserByUsername {username : Bytes} {f : Option User → Service α}
    (h : Leads config client setting post (f (setting.user config w username)) w) :
    Leads config client setting post (call (.getUserByUsername username) >>= f) w :=
  fun _ _ => h

theorem leads_generateToken {f : Bytes → Service α}
    (h : ∀ next, next.redis = w.redis → next.devices = w.devices →
      Leads config client setting post (f setting.token) next) :
    Leads config client setting post (call .generateToken >>= f) w :=
  fun _ _ => h _ (by dsimp only [Setting.exec, World.exec]; split <;> rfl)
    (by dsimp only [Setting.exec, World.exec]; split <;> rfl)

theorem tokenHashes_congr {a b : World} (h : b.devices = a.devices) :
    tokenHashes b = tokenHashes a := by
  unfold tokenHashes
  rw [h]

theorem Setting.found_congr (setting : Setting) (config : Config) {a b : World}
    (h : b.devices = a.devices) (userId : UInt64) (deviceId : Bytes) :
    setting.found config b userId deviceId = setting.found config a userId deviceId := by
  simp only [Setting.found, World.getDevice, h]

/-- What becomes of the column when a row is written. -/
def written (config : Config) (setting : Setting) (write : RowWrite) (hash : Bytes)
    (hashes : UInt64 × Bytes → Option Bytes) : UInt64 × Bytes → Option Bytes :=
  if write.Done setting then Function.update hashes (write.key config) (some hash)
  else hashes

/-- Redis after the token of the old row is deleted. -/
def forgotten (previous newHash : Bytes) (redis : Bytes → Option RedisValue) :
    Bytes → Option RedisValue :=
  if previous ≠ [] ∧ previous ≠ newHash then
    Function.update redis (hashKey previous) none
  else redis

@[simp] theorem forgotten_nil (newHash : Bytes) (redis : Bytes → Option RedisValue) :
    forgotten [] newHash redis = redis :=
  if_neg fun h => h.1 rfl

theorem tokenHashes_upsertDevice (device : UserDevice) :
    tokenHashes (w.upsertDevice config client device) = Function.update (tokenHashes w)
        (World.deviceKey config device.userId device.deviceId)
        (some device.tokenHash) := by
  funext row
  change ((World.upserted config w.devices device).lookup row).map _ = _
  by_cases hrow : row = World.deviceKey config device.userId device.deviceId
  · subst hrow
    rw [Function.update_self, lookup_upserted]
    cases w.devices.lookup (World.deviceKey config device.userId device.deviceId)
    all_goals rfl
  · rw [Function.update_of_ne hrow, lookup_upserted_ne config device hrow]
    rfl

theorem redis_upsertDevice (device : UserDevice) :
    (w.upsertDevice config client device).redis = w.redis := by
  unfold World.upsertDevice World.recordOverwrite
  dsimp only
  split_ifs <;> rfl

theorem leads_upsertDevice (device : UserDevice) (write : RowWrite)
    (huser : write.userId = device.userId) (hdevice : write.deviceId = device.deviceId) :
    Leads config client setting
      (fun ok next => ok = decide (write.Succeeds setting) ∧ next.redis = w.redis ∧
        tokenHashes next = written config setting write device.tokenHash (tokenHashes w))
      (DeviceDao.upsertDevice device) w := by
  unfold DeviceDao.upsertDevice
  by_cases hids : device.userId = 0 ∨ device.deviceId = []
  · have hissued : ¬ write.Issued := by
      rw [RowWrite.Issued, huser, hdevice]
      tauto
    rw [if_pos hids]
    refine ⟨?_, rfl, ?_⟩
    · exact (decide_eq_false fun h => hissued h.1).symm
    · exact (if_neg fun h => hissued h.1).symm
  · have hissued : write.Issued := by
      rw [RowWrite.Issued, huser, hdevice]
      tauto
    have hkey : World.deviceKey config device.userId device.deviceId =
        write.key config := by rw [RowWrite.key, huser, hdevice]
    rw [if_neg hids]
    intro now _ clock _
    have hsucceeds : write.Succeeds setting ↔ setting.writeDevice = .none := and_iff_right hissued
    have hdone : write.Done setting ↔ setting.writeDevice ≠ .refused := and_iff_right hissued
    refine ⟨decide_eq_decide.mpr hsucceeds.symm, ?_, ?_⟩
    · change World.redis (if setting.writeDevice = .refused then w else _) = _
      split_ifs
      · rfl
      · exact redis_upsertDevice _
    · change tokenHashes (if setting.writeDevice = .refused then w else _) = _
      rw [written]
      by_cases hrefused : setting.writeDevice = .refused
      · rw [if_pos hrefused, if_neg fun h => hdone.mp h hrefused]
      · rw [if_neg hrefused, if_pos (hdone.mpr hrefused), ← hkey]
        exact tokenHashes_upsertDevice _

theorem leads_getDevice (userId : UInt64) (deviceId : Bytes) : Leads config client setting
      (fun row next => row = setting.found config w userId deviceId ∧
        next.redis = w.redis ∧ next.devices = w.devices)
      (DeviceDao.getDevice userId deviceId) w := by
  unfold DeviceDao.getDevice
  by_cases hids : userId = 0 ∨ deviceId = []
  · rw [if_pos hids]
    refine ⟨?_, rfl, rfl⟩
    rw [Setting.found, if_neg (by tauto)]
  · rw [if_neg hids]
    intro clock _
    refine ⟨?_, rfl, rfl⟩
    have hnonzero : userId ≠ 0 ∧ deviceId ≠ [] := not_or.mp hids
    exact if_congr (and_iff_left hnonzero).symm rfl rfl

theorem leads_deletePrevious (previous newHash : Bytes) : Leads config client setting
      (fun _ next => next.redis = forgotten previous newHash w.redis ∧
        next.devices = w.devices)
      (deletePrevious previous newHash) w := by
  unfold deletePrevious forgotten
  split_ifs with hdelete
  · exact fun clock _ => ⟨rfl, rfl⟩
  · exact ⟨rfl, rfl⟩

theorem leads_recordDevice (req : LoginRequest) (write : RowWrite) (newHash : Bytes)
    (hdevice : write.deviceId = req.deviceId)
    (hprevious : write.previous = ((setting.found config w write.userId
      req.deviceId).map UserDevice.tokenHash).getD []) :
    Leads config client setting
      (fun ok next => ok = decide (write.Succeeds setting) ∧
        next.redis = forgotten write.previous newHash w.redis ∧
        tokenHashes next = written config setting write newHash (tokenHashes w))
      (recordDevice req write.userId newHash) w := by
  unfold recordDevice
  refine leads_nowMs fun now => ?_
  refine Ensures.bind (leads_getDevice write.userId req.deviceId) ?_
  rintro row looked ⟨rfl, hredis, hdevices⟩
  refine Ensures.bind (leads_deletePrevious _ newHash) ?_
  rintro - deleted ⟨hforgotten, hkept⟩
  refine (leads_upsertDevice _ write rfl hdevice).mono ?_
  rintro ok next ⟨hok, hnext, hwritten⟩
  refine ⟨hok, ?_, ?_⟩
  · rw [hnext, hforgotten, hredis, hprevious]
  · rw [hwritten, tokenHashes_congr (hkept.trans hdevices)]

/-- What is left when a call has failed to write its row. -/
structure RolledBack (config : Config) (setting : Setting) (write : RowWrite)
    (a b : World) : Prop where
  redis : b.redis = Function.update
    (forgotten write.previous (tokenHash config setting.token) a.redis)
    (tokenKey config setting.token) none
  hashes : tokenHashes b =
    written config setting write (tokenHash config setting.token) (tokenHashes a)

/-- How a call may end, depending on the row that it gets to write. -/
def Ending (config : Config) (setting : Setting) (a : World) :
    Option RowWrite → Option CommonResponse → World → Prop
  | none, response, b => Refused response → b.redis = a.redis ∧ tokenHashes b = tokenHashes a
  | some write, response, b =>
    if write.Succeeds setting then ¬ Refused response
    else Refused response ∧ RolledBack config setting write a b

theorem Ending.congr {a b next : World} (hredis : b.redis = a.redis)
    (hdevices : b.devices = a.devices) {write : Option RowWrite} {response : Option CommonResponse}
    (h : Ending config setting b write response next) :
    Ending config setting a write response next := by
  have hhashes := tokenHashes_congr hdevices
  cases write with
  | none =>
    intro hrefused
    rw [← hredis, ← hhashes]
    exact h hrefused
  | some write =>
    simp only [Ending] at h ⊢
    split_ifs at h ⊢
    · exact h
    · exact ⟨h.1, hredis ▸ h.2.redis, hhashes ▸ h.2.hashes⟩

theorem not_refused_ok (requestId : Bytes) :
    ¬ Refused (some (fillResponse requestId .ok "OK")) := by
  simp [Refused, fillResponse, ErrorCode.toInt32]

theorem refused_of_ne {errorCode : ErrorCode} (h : errorCode ≠ .ok) (requestId : Bytes)
    (message : String) : Refused (some (fillResponse requestId errorCode message)) :=
  ErrorCode.toInt32_ne h

theorem leads_loginSucceeded (req : LoginRequest) (userId : UInt64) (token : Bytes) :
    Leads config client setting (fun resp _ => ¬ Refused resp.response)
      (loginSucceeded config req userId token) w :=
  fun _ _ => not_refused_ok req.requestId

theorem leads_setEx {key value : Bytes} {ttl : Int32}
    (h : ∀ next : World, next.redis = Function.update w.redis key (some (.string value)) →
      next.devices = w.devices → Leads config client setting post (f true) next) :
    Leads config client setting post (Redis.setEx key ttl value >>= f) w := by
  intro clock _
  refine h _ rfl ?_
  change (if isTokenKey key then _ else w : World).devices = w.devices
  split_ifs <;> rfl

theorem leads_get {key : Bytes} {f : Option Bytes → Service α}
    (h : ∀ next : World, next.redis = w.redis → next.devices = w.devices →
      Leads config client setting post (f (RedisCommand.reply w.redis (.get key))) next) :
    Leads config client setting post (Redis.get key >>= f) w := by
  intro clock _
  refine h _ rfl ?_
  change (if isTokenKey key then _ else w : World).devices = w.devices
  split_ifs <;> rfl

theorem leads_del {key : Bytes}
    (h : ∀ next : World, next.redis = Function.update w.redis key none →
      next.devices = w.devices → Leads config client setting post (f true) next) :
    Leads config client setting post (Redis.del key >>= f) w :=
  fun _ _ => h _ rfl rfl

/-- Setting the key of the new token leaves no trace once it is deleted. -/
theorem update_forgotten (previous newHash : Bytes) (value : Option RedisValue)
    (redis : Bytes → Option RedisValue) :
    Function.update (forgotten previous newHash
        (Function.update redis (hashKey newHash) value)) (hashKey newHash) none =
      Function.update (forgotten previous newHash redis) (hashKey newHash) none := by
  funext key
  by_cases hkey : key = hashKey newHash
  · simp [hkey]
  · rw [Function.update_of_ne hkey, Function.update_of_ne hkey]
    unfold forgotten
    split_ifs
    · by_cases hprevious : key = hashKey previous
      · simp [hprevious]
      · simp [hprevious, hkey]
    · exact Function.update_of_ne hkey _ _

theorem leads_issueToken_unwritten (req : LoginRequest) (userId : UInt64)
    (h : setting.token = [] ∨ req.deviceId = []) :
    Leads config client setting (fun resp next => Ending config setting w none resp.response next)
      (issueToken config req userId) w := by
  unfold issueToken
  refine leads_generateToken fun given hgiven hrows => ?_
  by_cases htoken : setting.token = []
  · rw [if_pos htoken]
    exact fun _ => ⟨hgiven, tokenHashes_congr hrows⟩
  · rw [if_neg htoken]
    refine leads_setEx fun stored _ _ => ?_
    have hdevice : req.deviceId = [] := h.resolve_left htoken
    simp only [Bool.not_true, Bool.false_eq_true, if_false, hdevice, if_true]
    exact (leads_loginSucceeded req userId _).mono fun _ _ hok hrefused => absurd hrefused hok

theorem leads_issueToken (req : LoginRequest) (write : RowWrite)
    (htoken : setting.token ≠ []) (hnonempty : req.deviceId ≠ [])
    (hdevice : write.deviceId = req.deviceId)
    (hprevious : write.previous = ((setting.found config w write.userId
      req.deviceId).map UserDevice.tokenHash).getD []) :
    Leads config client setting
      (fun resp next => Ending config setting w (some write) resp.response next)
      (issueToken config req write.userId) w := by
  unfold issueToken
  refine leads_generateToken fun given hgiven hrows => ?_
  rw [if_neg htoken]
  refine leads_setEx fun stored hstored hdevices => ?_
  replace hdevices := hdevices.trans hrows
  simp only [Bool.not_true, Bool.false_eq_true, if_false, hnonempty]
  have hfound := setting.found_congr config hdevices write.userId req.deviceId
  refine Ensures.bind (leads_recordDevice req write _ hdevice (hfound.symm ▸ hprevious)) ?_
  rintro ok recorded ⟨rfl, hredis, hwritten⟩
  by_cases hsucceeds : write.Succeeds setting
  · simp only [hsucceeds, decide_true, if_true, Ending]
    exact leads_loginSucceeded req write.userId _
  · simp only [hsucceeds, decide_false, Bool.false_eq_true, if_false, Ending]
    refine leads_del fun next hnext hkept => ?_
    refine ⟨refused_of_ne (by decide) _ _, ?_, ?_⟩
    · rw [hnext, hredis, hstored, hgiven]
      exact update_forgotten _ _ _ _
    · rw [tokenHashes_congr hkept, hwritten, tokenHashes_congr hdevices]

theorem leads_login (req : LoginRequest) : Leads config client setting
      (fun resp next => Ending config setting w
        (TokenCall.write config setting w (.login req)) resp.response next)
      (login config req) w := by
  unfold login
  refine leads_authorize ?_
  cases hgranted : setting.granted with
  | false =>
    simp only [TokenCall.write, hgranted, Bool.not_false, if_true,
      Bool.false_eq_true, false_and, if_false]
    exact fun _ => ⟨rfl, rfl⟩
  | true =>
    simp only [Bool.not_true, Bool.false_eq_true, if_false]
    cases hvalid : validateLogin req with
    | some resp =>
      simp only [TokenCall.write, hvalid, reduceCtorEq, false_and, and_false, if_false]
      exact fun _ => ⟨rfl, rfl⟩
    | none =>
      refine leads_getUserByUsername ?_
      simp only [TokenCall.write, hgranted, hvalid, true_and]
      cases huser : (setting.user config w req.username).filter
          fun user => config.verifyPassword req.password user.passwordHash with
      | none =>
        simp only [Option.map_none, ite_self]
        exact fun _ => ⟨rfl, rfl⟩
      | some user =>
        simp only [Option.map_some]
        split_ifs with hwrites
        · exact leads_issueToken req _ hwrites.1 hwrites.2 rfl rfl
        · exact leads_issueToken_unwritten req user.id (by tauto)

/-- The rest of a refresh that has its row written, or no row to write. -/
theorem leads_exchanged (req : RefreshTokenRequest) (userId : UInt64)
    (newToken previous newHash oldKey : Bytes) :
    Leads config client setting (fun resp _ => ¬ Refused resp.response)
      (do
        deletePrevious previous newHash
        let _ ← Redis.del oldKey
        let expireAt ← expireAtMs config
        return ({
          response := some (fillResponse req.requestId .ok "OK")
          userId := userId, token := newToken, expireAt := expireAt
          } : RefreshTokenResponse)) w := by
  refine Ensures.bind (leads_deletePrevious previous newHash) fun _ _ _ => ?_
  refine leads_del fun _ _ _ => ?_
  exact fun _ _ => not_refused_ok req.requestId

theorem leads_replaceDeviceToken_none {userId : UInt64} {deviceId : Bytes}
    (h : setting.found config w userId deviceId = none) (newHash : Bytes) :
    Leads config client setting (fun replaced _ => replaced = some [])
      (replaceDeviceToken userId deviceId newHash) w := by
  unfold replaceDeviceToken
  split_ifs
  · rfl
  · refine Ensures.bind (leads_getDevice userId deviceId) ?_
    rintro row next ⟨rfl, _, _⟩
    rw [h]
    rfl

theorem leads_replaceDeviceToken_some {userId : UInt64} {deviceId : Bytes} {device : UserDevice}
    (h : setting.found config w userId deviceId = some device) (newHash : Bytes) :
    Leads config client setting
      (fun replaced next => replaced =
          (if (RowWrite.of device).Succeeds setting then some device.tokenHash
            else none) ∧
        next.redis = w.redis ∧
        tokenHashes next = written config setting (.of device) newHash (tokenHashes w))
      (replaceDeviceToken userId deviceId newHash) w := by
  have hdevice : deviceId ≠ [] := by
    rintro rfl
    simp [Setting.found] at h
  unfold replaceDeviceToken
  rw [if_neg hdevice]
  refine Ensures.bind (leads_getDevice userId deviceId) ?_
  rintro row looked ⟨rfl, hredis, hdevices⟩
  rw [h]
  refine leads_nowMs fun now => ?_
  refine Ensures.bind (leads_upsertDevice _ (.of device) rfl rfl) ?_
  rintro ok next ⟨rfl, hnext, hwritten⟩
  rw [tokenHashes_congr hdevices] at hwritten
  rw [hredis] at hnext
  by_cases hsucceeds : (RowWrite.of device).Succeeds setting
  · simp only [hsucceeds, decide_true, if_true]
    exact ⟨rfl, hnext, hwritten⟩
  · simp only [hsucceeds, decide_false, Bool.false_eq_true, if_false]
    exact ⟨rfl, hnext, hwritten⟩

theorem leads_exchangeToken (req : RefreshTokenRequest) (userId : UInt64) :
    Leads config client setting
      (fun resp next => Ending config setting w
        (if setting.token ≠ [] then
          (setting.found config w userId req.deviceId).map RowWrite.of
        else none) resp.response next)
      (exchangeToken config req userId) w := by
  unfold exchangeToken
  refine leads_generateToken fun given hgiven hrows => ?_
  by_cases htoken : setting.token = []
  · rw [if_pos htoken, if_neg (not_not.mpr htoken)]
    exact fun _ => ⟨hgiven, tokenHashes_congr hrows⟩
  · rw [if_neg htoken, if_pos htoken]
    refine leads_setEx fun stored hstored hdevices => ?_
    replace hdevices := hdevices.trans hrows
    simp only [Bool.not_true, Bool.false_eq_true, if_false]
    have hfound := setting.found_congr config hdevices userId req.deviceId
    cases hrow : setting.found config w userId req.deviceId with
    | none =>
      rw [hrow] at hfound
      refine Ensures.bind (leads_replaceDeviceToken_none hfound _) ?_
      rintro _ next rfl
      exact (leads_exchanged req userId _ _ _ _).mono fun _ _ hok hrefused => absurd hrefused hok
    | some device =>
      rw [hrow] at hfound
      refine Ensures.bind (leads_replaceDeviceToken_some hfound _) ?_
      rintro _ next ⟨rfl, hredis, hwritten⟩
      simp only [Option.map_some, Ending]
      by_cases hsucceeds : (RowWrite.of device).Succeeds setting
      · simp only [hsucceeds, if_true]
        exact leads_exchanged req userId _ _ _ _
      · simp only [hsucceeds, if_false]
        refine leads_del fun last hlast hkept => ?_
        refine ⟨refused_of_ne (by decide) _ _, ?_, ?_⟩
        · rw [hlast, hredis, hstored, hgiven, RowWrite.of, forgotten_nil, Function.update_idem]
        · rw [tokenHashes_congr hkept, hwritten, tokenHashes_congr hdevices]

theorem leads_refreshToken (req : RefreshTokenRequest) : Leads config client setting
      (fun resp next => Ending config setting w
        (TokenCall.write config setting w (.refreshToken req)) resp.response next)
      (refreshToken config req) w := by
  unfold refreshToken
  refine leads_authorize ?_
  cases hgranted : setting.granted with
  | false =>
    simp only [TokenCall.write, hgranted, Bool.not_false, if_true,
      Bool.false_eq_true, false_and, if_false]
    exact fun _ => ⟨rfl, rfl⟩
  | true =>
    simp only [Bool.not_true, Bool.false_eq_true, if_false]
    by_cases hsizes : req.token = [] ∨ kMaxTokenLength < req.token.length ∨
        kMaxDeviceIdLength < req.deviceId.length
    · rw [if_pos hsizes, TokenCall.write, if_neg (fun h => h.2.2 hsizes)]
      exact fun _ => ⟨rfl, rfl⟩
    · rw [if_neg hsizes]
      simp only [TokenCall.write, hgranted, hsizes, true_and, not_false_eq_true, and_true]
      refine leads_get fun next hredis hdevices => ?_
      cases RedisCommand.reply w.redis (.get (tokenKey config req.token)) with
      | none =>
        simp only [Option.bind_none, ite_self]
        exact fun _ => ⟨hredis, tokenHashes_congr hdevices⟩
      | some value =>
        simp only [Option.bind_some]
        cases stoull value with
        | none =>
          simp only [Option.bind_none, ite_self]
          exact fun _ => ⟨hredis, tokenHashes_congr hdevices⟩
        | some userId =>
          simp only [Option.bind_some, ← setting.found_congr config hdevices userId req.deviceId]
          exact (leads_exchangeToken req userId).mono fun _ _ h => h.congr hredis hdevices

theorem TokenCall.leads_serve (request : TokenCall) : Leads config client setting
      (fun response next => Ending config setting w (request.write config setting w) response next)
      (request.serve config) w := by
  cases request with
  | login req => exact Ensures.bind (leads_login req) fun _ _ h => h
  | refreshToken req => exact Ensures.bind (leads_refreshToken req) fun _ _ h => h

end Handlers

/-! ## Failed calls -/

section Failed

variable {config : Config} {setting : Setting} {write : RowWrite} {a b : World}

theorem passes_forgotten {previous newHash : Bytes}
    (h : b.redis = forgotten previous newHash a.redis) (token : Bytes)
    (hnew : tokenHash config token ≠ newHash) :
    Passes config b token ↔ Passes config a token ∧ tokenHash config token ≠ previous := by
  unfold forgotten at h
  by_cases hdelete : previous ≠ [] ∧ previous ≠ newHash
  · rw [if_pos hdelete] at h
    exact passes_without h token
  · rw [if_neg hdelete] at h
    have hprevious : tokenHash config token ≠ previous := by
      rintro rfl
      exact hdelete ⟨tokenHash_ne_nil config token, hnew⟩
    rw [and_iff_left hprevious, passes_iff, passes_iff, h]

theorem RolledBack.passes (h : RolledBack config setting write a b) (token : Bytes) :
    Passes config b token ↔ Passes config a token ∧
      tokenHash config token ≠ tokenHash config setting.token ∧
      tokenHash config token ≠ write.previous := by
  have hdeleted := @passes_without config
    { a with redis := forgotten write.previous (tokenHash config setting.token) a.redis }
    b _ h.redis token
  rw [hdeleted]
  by_cases hnew : tokenHash config token = tokenHash config setting.token
  · simp [hnew]
  · rw [passes_forgotten rfl token hnew]
    tauto

theorem RolledBack.unchanged_iff (h : RolledBack config setting write a b) : Unchanged config a b ↔
      ¬ Accepted config a (tokenHash config setting.token) ∧ ¬ Accepted config a write.previous ∧
        (write.Done setting → tokenHashes a (write.key config) =
          some (tokenHash config setting.token)) := by
  have hhashes : tokenHashes b = tokenHashes a ↔
      (write.Done setting → tokenHashes a (write.key config) =
        some (tokenHash config setting.token)) := by
    rw [h.hashes, written]
    split_ifs with hdone
    · rw [Function.update_eq_self_iff]
      simp only [hdone, forall_const, eq_comm]
    · simp [hdone]
  constructor
  · intro hunchanged
    refine ⟨?_, ?_, hhashes.mp hunchanged.hashes⟩
    · rintro ⟨token, hpasses, hhash⟩
      exact ((h.passes token).mp ((hunchanged.tokens token).mpr hpasses)).2.1 hhash
    · rintro ⟨token, hpasses, hhash⟩
      exact ((h.passes token).mp ((hunchanged.tokens token).mpr hpasses)).2.2 hhash
  · rintro ⟨hnew, hprevious, hwritten⟩
    refine ⟨fun token => ?_, hhashes.mpr hwritten⟩
    rw [h.passes]
    exact and_iff_left_of_imp fun hpasses =>
      ⟨fun hhash => hnew ⟨token, hpasses, hhash⟩, fun hhash => hprevious ⟨token, hpasses, hhash⟩⟩

/--
A call that returns an error leaves the accepted tokens and the hashes of the device
rows as they were exactly when it is harmless.
-/
theorem failed_call_unchanged_iff (config : Config) (client : Nat) (setting : Setting)
    (w : World) (clocks : Nat → Int64) (request : TokenCall) :
    (Refused ((request.serve config).solo (setting.exec config client) w clocks).2 →
      Unchanged config w ((request.serve config).solo (setting.exec config client) w clocks).1) ↔
      request.Harmless config setting w := by
  have hending := (@TokenCall.leads_serve config client setting w request).sound
    ((request.serve config).meets_true w clocks)
  generalize (request.serve config).solo (setting.exec config client) w clocks =
    outcome at hending ⊢
  unfold TokenCall.Harmless
  cases hwrite : request.write config setting w with
  | none =>
    rw [hwrite] at hending
    refine iff_of_true (fun hrefused => ?_) (by simp)
    obtain ⟨hredis, hhashes⟩ := hending hrefused
    refine ⟨fun token => ?_, hhashes⟩
    rw [passes_iff, passes_iff, hredis]
  | some write =>
    rw [hwrite] at hending
    simp only [Option.some.injEq, forall_eq']
    simp only [Ending] at hending
    by_cases hsucceeds : write.Succeeds setting
    · rw [if_pos hsucceeds] at hending
      exact iff_of_true (fun h => absurd h hending) fun h => absurd hsucceeds h
    · rw [if_neg hsucceeds] at hending
      obtain ⟨hrefused, hrolled⟩ := hending
      simp only [hrefused, hsucceeds, not_false_eq_true, forall_const]
      exact hrolled.unchanged_iff

end Failed

def withLaptop : World := ((system demo).run initial loggedIn).world

/-- A second login whose row is not written logs the laptop out, and a refresh whose
row is written although the reply is lost leaves a hash without a token. -/
theorem failed_login_logs_out :
    (Refused (((TokenCall.login aliceLogin).serve demo).solo
        (Setting.exec { token := [8], writeDevice := .refused } demo 0) withLaptop
        fun _ => 5).2 ∧
      Passes demo withLaptop [7] ∧
      ¬ Passes demo (((TokenCall.login aliceLogin).serve demo).solo
        (Setting.exec { token := [8], writeDevice := .refused } demo 0) withLaptop
        fun _ => 5).1 [7]) ∧
      (Refused (((TokenCall.refreshToken
          { token := [7], deviceId := lit "laptop" }).serve demo).solo
        (Setting.exec { token := [8], writeDevice := .lost } demo 0) withLaptop
        fun _ => 5).2 ∧
      tokenHashes (((TokenCall.refreshToken
          { token := [7], deviceId := lit "laptop" }).serve demo).solo
        (Setting.exec { token := [8], writeDevice := .lost } demo 0) withLaptop
        fun _ => 5).1 (1, lit "laptop") ≠ tokenHashes withLaptop (1, lit "laptop")) := by
  unfold Refused
  decide +kernel

end NebulaIM.User
