import NebulaIM.Session.Interference

/-!
# Where token keys come from

A handler sets the key of a token right after the token was generated, and writes the
hash of a token into a device row only after its key was set.  So if a generated token is
new, its key has not been seen when it is set.
-/

namespace NebulaIM.Session

open Foundation
open Foundation.Store (Fault Table)
open Foundation.Wire (Bytes)
open TokenManager (hashKey tokenKey)
open Protocol

abbrev Calls := Past Op Op.Res

/-- The key of the token with the hash was set. -/
def Stored (hash : Bytes) (past : Calls) : Prop :=
  ∃ ttl value, (⟨.redis (.setEx (hashKey hash) ttl value), true⟩ : Exchange Op Op.Res) ∈ past

/-- Only the key of the token that was just generated is set, and only the hash of a
token whose key was set is written. -/
def Allowed (config : Config) (past : Calls) : Op → Prop
  | .redis (.setEx key _ _) => isTokenKey key = true → ∃ token rest,
      past = ⟨.generateToken, token⟩ :: rest ∧ token ≠ [] ∧ key = tokenKey config token
  | .sql (.upsertDevice device) => Stored device.tokenHash past
  | _ => True

/-! ## Calls that are always allowed -/

def Plain : Op → Prop
  | .redis (.setEx key _ _) => isTokenKey key = false
  | .sql (.upsertDevice _) => False
  | _ => True

/-- No token key is set and no row is touched. -/
def Quiet : Op → Prop
  | .redis (.setEx key _ _) => isTokenKey key = false
  | .sql _ => False
  | _ => True

theorem Quiet.plain {op : Op} (h : Quiet op) : Plain op := by
  cases op with
  | sql statement => exact h.elim
  | redis command => cases command <;> exact h
  | _ => trivial

section Plain

open Gateway Gateway.GatewayOnlineManager Device

variable {config : Config} {userId : UInt64} {deviceId requestId : Bytes}

theorem clearPresence_quiet : (clearPresence userId deviceId).Only Quiet :=
  ⟨trivial, fun _ => ⟨trivial, fun _ => ⟨trivial, fun _ => trivial⟩⟩⟩

theorem isOnline_quiet : (isOnline userId deviceId).Only Quiet := by
  unfold isOnline
  split
  · trivial
  refine ⟨trivial, fun gateway => ⟨trivial, fun conn => ?_⟩⟩
  dsimp only [Prog.bind]
  split
  · trivial
  · exact clearPresence_quiet.bind fun _ => trivial

theorem kickLive_quiet : (kickLive requestId userId deviceId).Only Quiet := by
  unfold kickLive Device.kickConnection remote Gateway.kickConnection
  repeat' first
    | exact trivial | exact ⟨trivial, fun _ => trivial⟩ | exact isOnline_quiet
    | refine .bind ?_ fun _ => ?_ | split

theorem setOnline_plain {gateway connectionId : Bytes} :
    (setOnline config gateway userId deviceId connectionId).Only Plain := by
  have honline : isTokenKey (onlineKey userId deviceId) = false := by
    simp only [isTokenKey, onlineKey, List.append_assoc]
    rfl
  have hconn : isTokenKey (connKey userId deviceId) = false := by
    simp only [isTokenKey, connKey, List.append_assoc]
    rfl
  unfold setOnline
  repeat' first
    | exact trivial | exact ⟨trivial, fun _ => trivial⟩
    | exact ⟨honline, fun _ => trivial⟩ | exact ⟨hconn, fun _ => trivial⟩
    | exact clearPresence_quiet.mono Quiet.plain
    | refine .bind ?_ fun _ => ?_ | split | dsimp only

theorem bindUser_plain {place : Place} {token platform : Bytes} :
    (bindUser place userId token deviceId platform).Only Plain := by
  unfold bindUser
  repeat' first
    | exact trivial | exact ⟨trivial, fun _ => trivial⟩ | refine .bind ?_ fun _ => ?_ | split

theorem fillDevices_plain {devices : List UserDevice} : (fillDevices devices).Only Plain := by
  induction devices with
  | nil => trivial
  | cons device devices ih =>
    exact (isOnline_quiet.mono Quiet.plain).bind fun _ => ih.bind fun _ => trivial

theorem revokeDevice_plain {hash : Bytes} :
    (revokeDevice requestId userId deviceId hash).Only Plain := by
  unfold revokeDevice deleteToken DeviceDao.clearDeviceToken
  repeat' first
    | exact trivial | exact ⟨trivial, fun _ => trivial⟩
    | exact kickLive_quiet.mono Quiet.plain | exact clearPresence_quiet.mono Quiet.plain
    | refine .bind ?_ fun _ => ?_ | split

theorem revokeDevices_plain {ok : Bool} {devices : List UserDevice} :
    (revokeDevices requestId userId ok devices).Only Plain := by
  induction devices generalizing ok with
  | nil => trivial
  | cons device devices ih => exact revokeDevice_plain.bind fun _ => ih

/-- The requests that issue no token. -/
theorem code_plain {req : Request}
    (hreq : req matches .validateToken _ | .listDevices _ | .kickDevice _ |
      .kickAllDevices _ | .disconnected _ | .onlineTask _) :
    (code config req).Only Plain := by
  cases req
  case login | refreshToken | packet => cases hreq
  all_goals
    dsimp only [code, User.validateToken, Device.listDevices, kickDevice, kickAllDevices,
      DeviceDao.getDevice, DeviceDao.listDevices, onDisconnected, runOnlineTask,
      refreshOnline, setOffline]
    repeat' first
      | exact trivial | exact ⟨trivial, fun _ => trivial⟩
      | exact fillDevices_plain | exact revokeDevice_plain | exact revokeDevices_plain
      | exact clearPresence_quiet.mono Quiet.plain
      | refine .bind ?_ fun _ => ?_ | split

end Plain

/-! ## Programs that issue tokens -/

/-- After the key of the hash was set, if one is given. -/
def Proper (config : Config) (hash : Option Bytes) {α : Type} (p : Service α) : Prop :=
  ∀ past, (∀ known ∈ hash, Stored known past) →
    p.Along (Allowed config) (fun now _ => ∀ known ∈ hash, Stored known now) past

section Proper

variable {config : Config} {hash : Option Bytes} {α β : Type}

theorem Proper.bind {p : Service β} {f : β → Service α} (hp : Proper config hash p)
    (hf : ∀ value, Proper config hash (f value)) : Proper config hash (p >>= f) :=
  fun past h => (hp past h).bind fun now value hnow => hf value now hnow

theorem Proper.call {op : Op} (hop : ∀ past, (∀ known ∈ hash, Stored known past) →
      Allowed config past op) : Proper config hash (Session.call op) := by
  refine fun past h => ⟨hop past h, fun answer known hknown => ?_⟩
  obtain ⟨ttl, value, hmem⟩ := h known hknown
  exact ⟨ttl, value, List.mem_cons_of_mem _ hmem⟩

theorem Plain.allowed {op : Op} (h : Plain op) (past : Calls) : Allowed config past op := by
  cases op with
  | redis command =>
    cases command with
    | setEx key ttl value => exact fun htoken => nomatch htoken.symm.trans h
    | _ => trivial
  | sql statement =>
    cases statement with
    | upsertDevice device => exact h.elim
    | _ => trivial
  | _ => trivial

theorem Proper.of_plain {p : Service α} (h : p.Only Plain) : Proper config hash p := by
  induction p with
  | ret value => exact fun _ h => h
  | call op next ih =>
    exact (Proper.call fun past _ => h.1.allowed past).bind fun answer => ih answer (h.2 answer)

theorem upsertDevice_proper {device : UserDevice} (hdevice : device.tokenHash ∈ hash) :
    Proper config hash (DeviceDao.upsertDevice device) := by
  unfold DeviceDao.upsertDevice
  split
  · exact .of_plain trivial
  · refine .bind (.of_plain ⟨trivial, fun _ => trivial⟩) fun now => ?_
    exact .call fun past h => h _ hdevice

/-- The token is generated and its key set; what follows may write its hash. -/
theorem Proper.issue {failed refused : α} {ttl : Int32} {value : Bytes} {rest : Bytes → Service α}
    (h : ∀ token, Proper config (some (TokenManager.tokenHash config token)) (rest token)) :
    Proper config none (do
      let token ← Session.call .generateToken
      if token = [] then return failed
      if !(← Redis.setEx (tokenKey config token) ttl value) then return refused
      rest token) := by
  refine fun past _ => ⟨trivial, fun token => ?_⟩
  simp only [Prog.bind]
  split
  · exact fun _ hknown => nomatch hknown
  next htoken =>
  refine ⟨fun _ => ⟨token, past, rfl, htoken, rfl⟩, fun stored => ?_⟩
  cases stored with
  | false => exact fun _ hknown => nomatch hknown
  | true =>
    refine (h token _ ?_).mono fun _ _ _ _ hknown => nomatch hknown
    rintro _ ⟨⟩
    exact ⟨ttl, value, List.mem_cons_self⟩

theorem login_proper (req : LoginRequest) : Proper config none (User.login config req) := by
  dsimp only [User.login, User.issueToken, User.recordDevice, User.deletePrevious,
    DeviceDao.getDevice]
  repeat' first
    | exact .of_plain trivial | exact .of_plain ⟨trivial, fun _ => trivial⟩
    | exact upsertDevice_proper rfl | refine .issue fun token => ?_
    | refine .bind ?_ fun _ => ?_ | split

theorem refreshToken_proper (req : RefreshTokenRequest) :
    Proper config none (User.refreshToken config req) := by
  dsimp only [User.refreshToken, User.exchangeToken, User.replaceDeviceToken,
    User.deletePrevious, DeviceDao.getDevice]
  repeat' first
    | exact .of_plain trivial | exact .of_plain ⟨trivial, fun _ => trivial⟩
    | exact upsertDevice_proper rfl | refine .issue fun token => ?_
    | refine .bind ?_ fun _ => ?_ | split

/-! ## The router -/

section Router

open Gateway

variable {gateway connectionId : Bytes} {Resp : Type}

theorem remote_proper {default : Resp} {handler : Service Resp} (h : Proper config none handler) :
    Proper config none (remote default handler) := by
  refine .bind (.of_plain ⟨trivial, fun _ => trivial⟩) fun reply => ?_
  split
  · exact .of_plain trivial
  · exact h.bind fun _ => .of_plain trivial
  · exact h.bind fun _ => .of_plain trivial

theorem submit_proper {default : α} {task : Service α}
    {callback : α → Bool → Service Unit} (htask : Proper config none task)
    (hcallback : ∀ value error, Proper config none (callback value error)) :
    Proper config none (submit (routerEnv config gateway) default task callback) := by
  refine .bind (.of_plain ⟨trivial, fun _ => trivial⟩) fun accepted => ?_
  split
  · refine htask.bind fun value => ?_
    refine .bind (.of_plain ⟨trivial, fun _ => trivial⟩) fun threw => ?_
    split <;> exact hcallback _ _
  · exact hcallback _ _

variable {default : Resp} {setResponse : Resp → CommonResponse → Resp}
variable {type : MessageType} {fields : Resp → List Wire.Field} {sequenceId : UInt32}

theorem forward_proper {service : Gateway.Service} {requestId : Bytes}
    {backend : Service (Status × Resp)} (h : Proper config none backend) :
    Proper config none (forward (routerEnv config gateway) default service backend
      setResponse type fields connectionId sequenceId requestId) := by
  unfold forward forwardTask
  repeat' first
    | exact .of_plain trivial | exact .of_plain ⟨trivial, fun _ => trivial⟩ | exact h
    | refine submit_proper ?_ fun _ _ => ?_ | refine .bind ?_ fun _ => ?_ | split

theorem handleOwnRequest_proper {Req : Type} {own : OwnRequest Req} {parsed : Req × Bool}
    {badBody : String} {allow : UInt64 → Service Bool} {backend : Req → Service (Status × Resp)}
    (hallow : ∀ userId, Proper config none (allow userId))
    (hbackend : ∀ req, Proper config none (backend req)) :
    Proper config none (handleOwnRequest (routerEnv config gateway) own parsed badBody
      allow default backend setResponse type fields connectionId sequenceId) := by
  unfold handleOwnRequest requireAuth
  repeat' first
    | exact .of_plain trivial | exact .of_plain ⟨trivial, fun _ => trivial⟩
    | exact hallow _ | exact forward_proper (hbackend _)
    | refine .bind ?_ fun _ => ?_ | split | dsimp only

theorem loginTask_proper {req : LoginRequest} {deviceId : Bytes} : Proper config none
      (loginTask (routerEnv config gateway) req connectionId deviceId) := by
  unfold loginTask
  repeat' first
    | exact remote_proper (login_proper _) | exact .of_plain trivial
    | exact .of_plain setOnline_plain | refine .bind ?_ fun _ => ?_ | split

theorem loginCallback_proper {requestId deviceId platform : Bytes} {result : LoginResult}
    {error : Bool} :
    Proper config none (loginCallback (routerEnv config gateway) connectionId sequenceId
      requestId deviceId platform result error) := by
  unfold loginCallback
  repeat' first
    | exact .of_plain trivial | exact .of_plain ⟨trivial, fun _ => trivial⟩
    | exact .of_plain bindUser_plain | refine .bind ?_ fun _ => ?_ | split

theorem resumeTask_proper {req : ResumeSessionRequest} :
    Proper config none (resumeTask (routerEnv config gateway) req connectionId) := by
  unfold resumeTask
  repeat' first
    | exact .of_plain trivial | exact .of_plain ⟨trivial, fun _ => trivial⟩
    | exact .of_plain setOnline_plain | refine remote_proper ?_
    | refine .bind ?_ fun _ => ?_ | split

theorem resumeCallback_proper {req : ResumeSessionRequest} {result : ResumeResult} {error : Bool} :
    Proper config none (resumeCallback (routerEnv config gateway) req connectionId
      sequenceId result error) := by
  unfold resumeCallback
  repeat' first
    | exact .of_plain trivial | exact .of_plain ⟨trivial, fun _ => trivial⟩
    | exact .of_plain bindUser_plain | refine .bind ?_ fun _ => ?_ | split

theorem handlePacket_proper (packet : Packet) :
    Proper config none (handlePacket (routerEnv config gateway) connectionId packet) := by
  refine .bind (.of_plain trivial) fun _ => ?_
  split
  · unfold handleRegister
    repeat' first
      | exact forward_proper (.of_plain trivial) | exact .of_plain trivial
      | exact .of_plain ⟨trivial, fun _ => trivial⟩ | refine .bind ?_ fun _ => ?_ | split
  · unfold handleLogin
    repeat' first
      | exact submit_proper loginTask_proper fun _ _ => loginCallback_proper
      | exact .of_plain trivial | exact .of_plain ⟨trivial, fun _ => trivial⟩
      | refine .bind ?_ fun _ => ?_ | split
  · unfold handleResumeSession
    repeat' first
      | exact submit_proper resumeTask_proper fun _ _ => resumeCallback_proper
      | exact .of_plain trivial | exact .of_plain ⟨trivial, fun _ => trivial⟩
      | refine .bind ?_ fun _ => ?_ | split
  · unfold handleHeartbeat
    repeat' first
      | exact .of_plain trivial | exact .of_plain ⟨trivial, fun _ => trivial⟩
      | refine .bind ?_ fun _ => ?_ | split
  iterate 2
    exact handleOwnRequest_proper (fun _ => .of_plain ⟨trivial, fun _ => trivial⟩)
      fun _ => .of_plain trivial
  iterate 2
    exact handleOwnRequest_proper (fun _ => .of_plain trivial) fun _ => .of_plain trivial
  · exact .of_plain trivial

end Router

theorem code_proper (req : Request) : Proper config none (code config req) := by
  cases req with
  | login req => exact (login_proper req).bind fun _ => .of_plain trivial
  | refreshToken req => exact (refreshToken_proper req).bind fun _ => .of_plain trivial
  | packet place packet => exact (handlePacket_proper packet).bind fun _ => .of_plain trivial
  | _ => exact .of_plain (code_plain rfl)

end Proper

/-! ## The keys of generated tokens -/

/-- A generated token is none that was generated before. -/
def World.Fresh (config : Config) (w : World) (op : Op) (choice : Choice) : Prop :=
  match op with
  | .generateToken => choice.token ≠ [] → tokenKey config choice.token ∉ w.issued.map Prod.snd
  | _ => True

instance (config : Config) (w : World) (op : Op) (choice : Choice) :
    Decidable (w.Fresh config op choice) := by
  unfold World.Fresh
  split <;> infer_instance

/-- The keys that were seen, and those of the hashes in the rows, are keys of
generated tokens. -/
structure Registered (w : World) : Prop where
  rows : ∀ row, w.storedHash row = [] ∨ hashKey (w.storedHash row) ∈ w.seen
  seen : ∀ key ∈ w.seen, key = hashKey [] ∨ ∃ client, (client, key) ∈ w.issued
  owners : ∀ first second key, (first, key) ∈ w.issued → (second, key) ∈ w.issued →
    first = second

/-- What the calls of a thread mean: the key of the token that it was just given is its
own and not yet seen, and the keys that it has set are. -/
structure Traced (config : Config) (client : Nat) (past : Calls) (w : World) : Prop where
  pending : ∀ token rest, past = ⟨.generateToken, token⟩ :: rest → token ≠ [] →
    (client, tokenKey config token) ∈ w.issued ∧ tokenKey config token ∉ w.seen
  stored : ∀ hash, Stored hash past → hashKey hash ∈ w.seen

/-- What a call of `client` does to the keys. -/
structure KeyStep (client : Nat) (a b : World) : Prop where
  issued : a.issued ⊆ b.issued
  new : ∀ entry ∈ b.issued, entry ∈ a.issued ∨
    entry.1 = client ∧ ∀ other, (other, entry.2) ∉ a.issued
  seen : a.seen ⊆ b.seen
  known : ∀ key ∈ b.seen, key ∈ a.seen ∨ key = hashKey [] ∨ (client, key) ∈ a.issued
  rows : ∀ row, b.storedHash row = [] ∨ hashKey (b.storedHash row) ∈ b.seen

section Keys

variable {config : Config} {client : Nat} {a b w : World} {past : Calls}
variable {op : Op} {choice : Choice}

theorem KeyStep.of_see (keys : List Bytes) (h : Registered a) (hissued : b.issued = a.issued)
    (hseen : b.seen = keys ++ a.seen) (hdevices : b.devices = a.devices)
    (hkeys : ∀ key ∈ keys, key ∈ a.seen ∨ key = hashKey [] ∨ (client, key) ∈ a.issued) :
    KeyStep client a b where
  issued := hissued ▸ fun _ h => h
  new entry h := .inl (hissued ▸ h)
  seen := hseen ▸ List.subset_append_right _ _
  known key hkey := (List.mem_append.mp (hseen ▸ hkey)).elim (hkeys key) .inl
  rows row := by
    rw [World.storedHash, hdevices, hseen]
    exact (h.rows row).imp_right (List.mem_append_right _)

theorem KeyStep.of_eq (h : Registered a) (hissued : b.issued = a.issued)
    (hseen : b.seen = a.seen) (hdevices : b.devices = a.devices) : KeyStep client a b :=
  .of_see [] h hissued hseen hdevices fun _ hkey => nomatch hkey

theorem KeyStep.overwrite (h : Registered w) {row : UInt64 × Bytes} {tokenHash : Bytes}
    {devices : Table (UInt64 × Bytes) UserDevice}
    (hrow : ((devices.lookup row).map UserDevice.tokenHash).getD [] = tokenHash)
    (hother : ∀ other, other ≠ row → devices.lookup other = w.devices.lookup other)
    (hhash : tokenHash = [] ∨ hashKey tokenHash ∈ w.seen) :
    KeyStep client w { w.recordOverwrite client row tokenHash with devices := devices } := by
  rw [World.recordOverwrite_eq]
  refine ⟨fun _ h => h, fun _ h => .inl h, fun _ h => h, fun _ h => .inl h, fun other => ?_⟩
  by_cases heq : other = row
  · subst heq
    simpa only [World.storedHash, hrow] using hhash
  · simpa only [World.storedHash, hother other heq] using h.rows other

theorem World.exec_issued (w : World) (htoken : choice.token ≠ []) :
    (client, tokenKey config choice.token) ∈
      (w.exec config client .generateToken choice).1.issued := by
  simp [World.exec, htoken]

theorem hashKey_tokenHash_ne (token : Bytes) : tokenKey config token ≠ hashKey [] :=
  fun h => tokenHash_ne_nil config token (hashKey_injective h)

theorem World.exec_keyStep (h : Registered w) (htraced : Traced config client past w)
    (hallowed : Allowed config past op) (hfresh : w.Fresh config op choice) :
    KeyStep client w (w.exec config client op choice).1 := by
  cases op with
  | generateToken =>
    simp only [World.exec]
    split
    · exact .of_eq h rfl rfl rfl
    next htoken =>
    refine ⟨List.subset_cons_self _ _, fun entry hentry => ?_, fun _ h => h,
      fun _ h => .inl h, h.rows⟩
    rcases List.mem_cons.mp hentry with rfl | hold
    · exact .inr ⟨rfl, fun other hmem => hfresh htoken (List.mem_map_of_mem hmem)⟩
    · exact .inl hold
  | redis command =>
    rcases w.execRedis_cases client command choice.fault with heq | heq
    · simp only [World.exec, heq]
      exact .of_eq h rfl rfl rfl
    simp only [World.exec, heq, World.afterRedis]
    cases command with
    | setEx key ttl value =>
      simp only [World.recordRedis]
      split
      next htoken =>
        obtain ⟨token, rest, rfl, hne, rfl⟩ := hallowed htoken
        refine .of_see [_] h rfl rfl rfl fun key hkey => ?_
        rw [List.mem_singleton.mp hkey]
        exact .inr (.inr (htraced.pending token rest rfl hne).1)
      · exact .of_eq h rfl rfl rfl
    | get key =>
      simp only [World.recordRedis]
      split <;> exact .of_eq h rfl rfl rfl
    | _ => exact .of_eq h rfl rfl rfl
  | sql statement =>
    cases statement with
    | getDevice userId deviceId =>
      refine .of_see _ h rfl rfl rfl fun key hkey => ?_
      simp only [Option.mem_toList, Option.map_eq_some_iff] at hkey
      obtain ⟨device, hdevice, rfl⟩ := hkey
      split at hdevice
      · have hrow := h.rows (World.deviceKey config userId deviceId)
        rw [World.getDevice] at hdevice
        rw [World.storedHash, hdevice] at hrow
        exact hrow.elim (fun hnil => .inr (.inl (congrArg hashKey hnil))) .inl
      · cases hdevice
    | listDevices userId => exact .of_eq h rfl rfl rfl
    | upsertDevice device =>
      simp only [World.exec, World.execSql]
      split
      · exact .of_eq h rfl rfl rfl
      · refine .overwrite h ?_ (fun other hne => lookup_upserted_ne config device hne)
          (.inr (htraced.stored _ hallowed))
        rw [lookup_upserted]
        cases w.devices.lookup (World.deviceKey config device.userId device.deviceId)
        all_goals rfl
    | clearDeviceToken userId deviceId now =>
      simp only [World.exec, World.execSql]
      split
      · exact .of_eq h rfl rfl rfl
      · refine .overwrite h ?_ (fun other hne => Table.lookup_modify_ne _ hne) (.inl rfl)
        rw [Table.lookup_modify_self]
        cases w.devices.lookup (World.deviceKey config userId deviceId)
        all_goals rfl
  | bindUser place userId token deviceId platform =>
    obtain ⟨_, _, heq⟩ := w.bindUser_eq place userId token deviceId platform
    simp only [World.exec, heq]
    exact .of_eq h rfl rfl rfl
  | removeConnection place =>
    obtain ⟨_, _, heq⟩ := w.removeConnection_eq place
    simp only [World.exec, heq]
    exact .of_eq h rfl rfl rfl
  | submitOnlineTask gateway task =>
    simp only [World.exec]
    split <;> exact .of_eq h rfl rfl rfl
  | _ => exact .of_eq h rfl rfl rfl

theorem KeyStep.registered (h : KeyStep client a b) (ha : Registered a) : Registered b where
  rows := h.rows
  seen key hkey := by
    rcases h.known key hkey with hold | hnil | hown
    · exact (ha.seen key hold).imp_right fun ⟨owner, howner⟩ => ⟨owner, h.issued howner⟩
    · exact .inl hnil
    · exact .inr ⟨client, h.issued hown⟩
  owners first second key hfirst hsecond := by
    rcases h.new _ hfirst with hfirst | ⟨hfirst, hnew⟩ <;>
      rcases h.new _ hsecond with hsecond | ⟨hsecond, hnew'⟩
    · exact ha.owners first second key hfirst hsecond
    · exact absurd hfirst (hnew' first)
    · exact absurd hsecond (hnew second)
    · exact hfirst.trans hsecond.symm

/-- The others do not set the key of a token that was given to this thread. -/
theorem KeyStep.traced {other : Nat} (h : KeyStep client a b) (ha : Registered a)
    (hne : other ≠ client) (htraced : Traced config other past a) :
    Traced config other past b where
  pending token rest hpast htoken := by
    obtain ⟨hissued, hseen⟩ := htraced.pending token rest hpast htoken
    refine ⟨h.issued hissued, fun hkey => ?_⟩
    rcases h.known _ hkey with hold | hnil | hown
    · exact hseen hold
    · exact hashKey_tokenHash_ne token hnil
    · exact hne (ha.owners _ _ _ hissued hown)
  stored hash hstored := h.seen (htraced.stored hash hstored)

theorem Registered.env {event : Env} (h : Registered w) : Registered (w.env event) := by
  cases event <;> exact ⟨h.rows, h.seen, h.owners⟩

theorem Traced.env {event : Env} (h : Traced config client past w) :
    Traced config client past (w.env event) := by
  cases event <;> exact ⟨h.pending, h.stored⟩

theorem Traced.exec (h : Registered w) (htraced : Traced config client past w)
    (hallowed : Allowed config past op) (hfresh : w.Fresh config op choice) :
    Traced config client (⟨op, (w.exec config client op choice).2⟩ :: past)
      (w.exec config client op choice).1 where
  pending token rest hpast htoken := by
    obtain ⟨hcall, _⟩ := List.cons.inj hpast
    cases op with
    | generateToken =>
      obtain rfl : choice.token = token := eq_of_heq (Exchange.mk.inj hcall).2
      refine ⟨w.exec_issued htoken, fun hkey => ?_⟩
      simp only [World.exec, if_neg htoken] at hkey
      rcases h.seen _ hkey with hnil | ⟨owner, howner⟩
      · exact hashKey_tokenHash_ne _ hnil
      · exact hfresh htoken (List.mem_map_of_mem howner)
    | _ => cases (Exchange.mk.inj hcall).1
  stored hash := by
    rintro ⟨ttl, value, hmem⟩
    rcases List.mem_cons.mp hmem with hcall | hold
    · obtain ⟨rfl, hanswer⟩ := Exchange.mk.inj hcall
      have htoken := isTokenKey_hashKey hash
      cases hfault : choice.fault with
      | none => simp [World.exec, World.execRedis, hfault, World.recordRedis, htoken]
      | lost | refused => simp [World.exec, World.execRedis, hfault, RedisCommand.failed] at hanswer
    · exact (World.exec_keyStep h htraced hallowed hfresh).seen
        (htraced.stored hash ⟨ttl, value, hold⟩)

theorem Traced.setsUnseen (htraced : Traced config client past w)
    (hallowed : Allowed config past op) : w.SetsUnseen op := by
  cases op with
  | redis command =>
    cases command with
    | setEx key ttl value =>
      intro htoken
      obtain ⟨token, rest, hpast, hne, rfl⟩ := hallowed htoken
      exact (htraced.pending token rest hpast hne).2
    | _ => trivial
  | _ => trivial

end Keys

/-! ## Every run -/

section Runs

variable {config : Config} {guard : SessionGuard}

/-- The tokens that are generated under the guard are new. -/
def FreshTokens (config : Config) (guard : SessionGuard) : Prop :=
  ∀ {w client op choice}, guard.call w client op choice → w.Fresh config op choice

theorem initial_registered : Registered initial.world where
  rows _ := .inl rfl
  seen _ h := nomatch h
  owners _ _ _ h := nomatch h

/-- If the generated tokens are new, no token key is set that was seen before. -/
theorem issuing (hguard : FreshTokens config guard) :
    Records (system config) guard (Allowed config) Registered (Traced config) World.SetsUnseen where
  code req := (code_proper req [] fun _ h => nomatch h).mono fun _ _ _ => trivial
  nil tid w := ⟨fun _ _ h => (nomatch h), fun _ ⟨_, _, h⟩ => nomatch h⟩
  more _ htraced hallowed := htraced.setsUnseen hallowed
  call h htraced hallowed hcall := by
    have hstep := World.exec_keyStep h htraced hallowed (hguard hcall)
    exact ⟨hstep.registered h, htraced.exec h hallowed (hguard hcall),
      fun _ _ hne hother => hstep.traced h hne hother⟩
  env h := ⟨h.env, fun _ _ htraced => htraced.env⟩

theorem initial_goes (hguard : FreshTokens config guard) : (issuing hguard).Goes initial where
  inv := initial_registered
  along h := nomatch h

theorem admits_setsUnseen {actions : List SessionAction}
    (h : guard.AdmitsRun (system config) initial actions) (hguard : FreshTokens config guard) :
    (guard.and World.SetsUnseen).AdmitsRun (system config) initial actions ∧
      Registered ((system config).run initial actions).world :=
  ((issuing hguard).run (initial_goes hguard) h).imp_right fun hgoes => hgoes.inv

end Runs

/-! ## What has ended stays ended -/

abbrev freshGuard (config : Config) : SessionGuard where
  call w _ op choice := w.Fresh config op choice

/-- A token that is gone from Redis never passes again, and a connection that has
ended is never open again, as long as no generated token repeats an earlier one. -/
theorem ended_for_good {config : Config} {before after : List SessionAction}
    (hbefore : (freshGuard config).AdmitsRun (system config) initial before)
    (hafter : (freshGuard config).AdmitsRun (system config)
      ((system config).run initial before) after) :
    let earlier := (system config).run initial before
    let later := (system config).run earlier after
    (∀ token, tokenKey config token ∈ earlier.world.seen →
      ¬ earlier.world.Holds (tokenKey config token) →
      ¬ Passes config later.world token) ∧
    ∀ place serial, serial < earlier.world.accepted →
      earlier.world.Ended place serial → later.world.Ended place serial := by
  intro earlier later
  let guarded := contract config (freshGuard config)
  have hissuing : Records (system config) (freshGuard config) _ _ _ _ := issuing id
  obtain ⟨hfirst, hgoes⟩ := hissuing.run (initial_goes id) hbefore
  have hcode : ∀ {w request} tid, Invariant config w → True →
      Safe guarded tid (fun _ _ => True) ((system config).code request) w :=
    fun tid hinv _ => triple_lasting (.const True) _ _ hinv trivial
  have hsafe : PoolSafe guarded (fun _ _ _ _ _ => True) earlier :=
    guarded.run_safe hcode ⟨initial_inv config, fun _ _ h => absurd h (by simp [initial])⟩ hfirst
  have hkept : Ledger earlier.world later.world ∧ Links earlier.world later.world := by
    refine (guarded.run_evolves hcode hsafe (hissuing.run hgoes hafter).1).preserves
      (p := fun w => Ledger earlier.world w ∧ Links earlier.world w) ?_ ?_
      ⟨.refl _, .refl _⟩
    · exact fun _ _ h hchange => ⟨h.1.trans hchange.ledger, h.2.trans hchange.relinked.links⟩
    · exact fun _ h => ⟨h.1.trans (env_ledger _ _), h.2.trans (Relinked.env _).links⟩
  refine ⟨fun token hseen hgone hpasses => hgone ?_, hkept.2.ended⟩
  exact hkept.1.forgotten _ hseen (isTokenKey_hashKey _) hpasses.holds

theorem expired_ended_for_good :
    ¬ Passes demo ((system demo).run ((system demo).run initial
      (loggedIn ++ [.env (.expire (tokenKey demo [7]))]))
      (.spawn (.login aliceLogin) :: steps 1 9 [8])).world [7] :=
  (ended_for_good (by decide +kernel) (by decide +kernel)).1 [7] (by decide +kernel)
    (by decide +kernel)

end NebulaIM.Session
