import NebulaIM.Session.Issuing

/-!
# One token for a device

`Login` and `RefreshToken` read the hash in the device row, write the new one and
delete the token of the old one, in separate calls and without a lock.  When a
row has not changed between a request's read and its write, the request takes
over the one live token of the row; two requests that read the same hash leave
two live tokens behind.
-/

namespace NebulaIM.User

open Foundation Session
open Session.TokenManager
open Foundation.Wire (Bytes)
open Protocol

variable {token deviceId : Bytes} {userId : UInt64} {req : LoginRequest}
variable {pre : World → Prop}
variable {config : Config} {client : Nat}

/-- The hash that the thread found in the device row. -/
def lookedHash (w : World) (client : Nat) : Bytes :=
  (((w.looked client).bind Look.row).map UserDevice.tokenHash).getD []

/-- What the calls have to meet: no token deletion is refused, no statement on a
device row fails, a request that has presented a token finds a row, and a row
still holds the hash that its writer has read. -/
def TokenStep (config : Config) (w : World) (client : Nat) : Op → Choice → Prop
  | .redis (.del key), choice => isTokenKey key = true → choice.fault ≠ .refused
  | .sql (.getDevice userId deviceId), choice =>
    choice.fault = .none ∧ (w.presented client = true →
      (w.getDevice config userId deviceId).isSome = true)
  | .sql (.upsertDevice device), choice =>
    choice.fault = .none ∧ w.storedHash (device.key config) = lookedHash w client
  | _, _ => True

def Issues : Request → Prop
  | .login _ | .refreshToken _ => True
  | _ => False

def tokenGuard (config : Config) : SessionGuard where
  spawn _ request := Issues request
  call w client op choice := w.Fresh config op choice ∧ TokenStep config w client op choice

instance (w : World) (op : Op) (choice : Choice) :
    Decidable (TokenStep config w client op choice) := by
  unfold TokenStep
  split <;> infer_instance

instance : DecidablePred Issues := by
  intro request
  unfold Issues
  split <;> infer_instance

instance (w : World) (client : Nat) (op : Op) (choice : Choice) :
    Decidable ((tokenGuard config).call w client op choice) :=
  inferInstanceAs (Decidable (_ ∧ _))

instance (w : World) (request : Request) : Decidable ((tokenGuard config).spawn w request) :=
  inferInstanceAs (Decidable (Issues request))

instance (w : World) (event : Env) : Decidable ((tokenGuard config).env w event) := .isTrue trivial

abbrev tokenContract (config : Config) := contract config (tokenGuard config)

/-! ## Assertions -/

def Local (client : Nat) (assertion : World → Prop) : Prop :=
  ∀ a b, Same client a b → assertion a → assertion b

theorem Local.stable {assertion : World → Prop} (h : Local client assertion) :
    Stable (tokenContract config) client assertion :=
  fun a b ha _ hrely _ => h a b hrely.2.2 ha

/-- The deletions that the thread owes are among the allowed ones. -/
def Owes (client : Nat) (allowed : Bytes → Prop) (w : World) : Prop :=
  ∀ key ∈ w.owed client, allowed key

abbrev OwesNothing (client : Nat) : World → Prop := Owes client fun _ => False

theorem Owes.local (allowed : Bytes → Prop) : Local client (Owes client allowed) :=
  fun _ _ hsame h key hkey => h key (hsame.owed ▸ hkey)

/-- The thread has not looked at a row yet; `presented` tells whether it has
presented a token. -/
structure Idle (client : Nat) (presented : Prop) (w : World) : Prop where
  owes : OwesNothing client w
  looked : w.looked client = none
  presented : presented → w.presented client = true

theorem Idle.local (presented : Prop) : Local client (Idle client presented) :=
  fun a b hsame h => ⟨Owes.local _ a b hsame h.owes, hsame.looked.trans h.looked,
    fun hp => hsame.presented.trans (h.presented hp)⟩

/-- The token was generated for the thread. -/
def Given (config : Config) (client : Nat) (token : Bytes) (w : World) : Prop :=
  token ≠ [] → (client, tokenKey config token) ∈ w.issued

theorem Given.lasting (token : Bytes) : Lasting (Given config client token) :=
  fun _ _ hledger _ h htoken => hledger.issued (h htoken)

def Minted (config : Config) (client : Nat) (token : Bytes) (w : World) : Prop :=
  (client, tokenKey config token) ∈ w.issued ∧ tokenKey config token ∈ w.seen

theorem Minted.lasting (token : Bytes) : Lasting (Minted config client token) :=
  fun _ _ hledger _ h => ⟨hledger.issued h.1, hledger.seen h.2⟩

/-- The thread has found the hash `previous` in the row. -/
structure Known (client : Nat) (previous : Bytes) (w : World) : Prop where
  looked : ∃ look, w.looked client = some look ∧
    (look.row.map UserDevice.tokenHash).getD [] = previous
  seen : previous ≠ [] → hashKey previous ∈ w.seen

theorem Known.lasting (previous : Bytes) : Lasting (Known client previous) := by
  rintro a b hledger _ ⟨⟨look, hlooked, hprevious⟩, hseen⟩
  exact ⟨⟨look, hledger.looked client look hlooked, hprevious⟩, fun hne => hledger.seen (hseen hne)⟩

theorem Known.lookedHash {previous : Bytes} {w : World}
    (h : Known client previous w) : lookedHash w client = previous := by
  obtain ⟨⟨look, hlooked, hprevious⟩, _⟩ := h
  simpa only [User.lookedHash, hlooked, Option.bind_some] using hprevious

def Gone (previous newHash : Bytes) (w : World) : Prop :=
  previous ≠ [] → previous ≠ newHash → hashKey previous ∈ w.seen ∧ ¬ w.Holds (hashKey previous)

theorem Gone.lasting (previous newHash : Bytes) : Lasting (Gone previous newHash) := by
  intro a b hledger _ h hne hchange
  obtain ⟨hseen, hdead⟩ := h hne hchange
  exact ⟨hledger.seen hseen, fun hholds => hdead
    (hledger.forgotten _ hseen (isTokenKey_hashKey previous) hholds)⟩

/-- The token was issued for the device, and lives only in its row. -/
structure HeldByRow (config : Config) (client : Nat) (userId : UInt64)
    (deviceId token : Bytes) (w : World) : Prop where
  minted : Minted config client token w
  covered : w.Covered (World.deviceKey config userId deviceId) (tokenHash config token)

theorem HeldByRow.lasting (userId : UInt64) (deviceId token : Bytes) :
    Lasting (HeldByRow config client userId deviceId token) :=
  fun a b hledger hlinks h =>
    ⟨Minted.lasting token a b hledger hlinks h.minted,
      hledger.covered _ _ (tokenHash_ne_nil config token) h.minted.2 h.covered⟩

/-! ## Calls -/

variable {presented : Prop} {allowed : Bytes → Prop}

section Calls

variable {β : Type} {post : β → World → Prop} {A : World → Prop}

theorem generateToken_spec {f : Bytes → Service β}
    (hnext : ∀ token, Triple (tokenContract config) client
      (fun w => Idle client presented w ∧ Given config client token w) (f token) post) :
    Triple (tokenContract config) client (Idle client presented)
      (call .generateToken >>= f) post := by
  refine triple_call (fun token w => Idle client presented w ∧ Given config client token w)
    (Idle.local presented).stable ?_ hnext
  intro w choice _ h _ _
  refine ⟨Idle.local presented w _ ?_ h, w.exec_issued⟩
  simp only [World.exec]
  split <;> exact ⟨rfl, rfl, rfl⟩

variable {f : Bool → Service β}

theorem setEx_spec {token : Bytes} (hne : token ≠ []) {ttl : Int32} {value : Bytes}
    (hnext : ∀ answer, Triple (tokenContract config) client
      (fun w => Idle client presented w ∧
        (answer = true → Minted config client token w)) (f answer) post) :
    Triple (tokenContract config) client
      (fun w => Idle client presented w ∧ Given config client token w)
      (Redis.setEx (tokenKey config token) ttl value >>= f) post := by
  refine triple_call
    (fun answer w => Idle client presented w ∧ (answer = true → Minted config client token w))
    ((Idle.local presented).stable.and (Given.lasting token).stable) ?_ hnext
  rintro w choice _ ⟨h, hgiven⟩ _ _
  have htoken := isTokenKey_hashKey (tokenHash config token)
  simp only [World.exec, World.execRedis, World.recordRedis, tokenKey, htoken, if_true]
  cases choice.fault with
  | refused => exact ⟨h, fun hanswer => absurd hanswer Bool.false_ne_true⟩
  | lost =>
    exact ⟨Idle.local presented w _ ⟨rfl, rfl, rfl⟩ h,
      fun hanswer => absurd hanswer Bool.false_ne_true⟩
  | none =>
    exact ⟨Idle.local presented w _ ⟨rfl, rfl, rfl⟩ h, fun _ => ⟨hgiven hne, List.mem_cons_self⟩⟩

theorem get_spec {f : Option Bytes → Service β}
    (hnext : ∀ answer, Triple (tokenContract config) client
      (Idle client (answer.isSome = true)) (f answer) post) :
    Triple (tokenContract config) client (Idle client False)
      (Redis.get (tokenKey config token) >>= f) post := by
  refine triple_call (fun (answer : Option Bytes) => Idle client (answer.isSome = true))
    (Idle.local False).stable ?_ hnext
  intro w choice _ h _ _
  have htoken := isTokenKey_hashKey (tokenHash config token)
  simp only [World.exec, World.execRedis, World.recordRedis, tokenKey, htoken, if_true]
  cases choice.fault with
  | refused => exact ⟨h.owes, h.looked, fun hsome => absurd hsome Bool.false_ne_true⟩
  | lost | none => exact ⟨h.owes, h.looked, fun _ => Function.update_self ..⟩

theorem getDevice_spec (hA : Lasting A)
    {f : Option UserDevice → Service β} (hnext : ∀ answer : Option UserDevice,
      (presented → answer.isSome = true) →
      (∀ row, answer = some row → row.key config = World.deviceKey config userId deviceId) →
      Triple (tokenContract config) client
        (fun w => OwesNothing client w ∧ A w ∧
          Known client ((answer.map UserDevice.tokenHash).getD []) w)
        (f answer) post) :
    Triple (tokenContract config) client (fun w => Idle client presented w ∧ A w)
      (call (.sql (.getDevice userId deviceId)) >>= f) post := by
  refine triple_call
    (fun (answer : Option UserDevice) w =>
      ((presented → answer.isSome = true) ∧ ∀ row, answer = some row →
          row.key config = World.deviceKey config userId deviceId) ∧
      OwesNothing client w ∧ A w ∧ Known client ((answer.map UserDevice.tokenHash).getD []) w)
    ((Idle.local presented).stable.and hA.stable) ?_ ?_
  · rintro w choice hinv ⟨hidle, ha⟩ ⟨_, hfault, hfound⟩ hchange
    refine ⟨⟨?_, ?_⟩, hidle.owes, hA.change ha hchange, ?_⟩
    · intro hp
      simpa only [World.exec, World.execSql, hfault, if_true] using hfound (hidle.presented hp)
    · intro row hrow
      simp only [World.exec, World.execSql, hfault, if_true] at hrow
      exact hinv.keyed _ row hrow
    · simp only [World.exec, World.execSql, hfault, if_true]
      refine ⟨⟨⟨w.getDevice config userId deviceId, w.connections⟩, ?_, rfl⟩, ?_⟩
      · simp only [World.recordLook, Function.update_self, hidle.looked, Option.none_or]
      · intro hne
        cases hrow : w.getDevice config userId deviceId with
        | none => simp [hrow] at hne
        | some row => simp [World.recordLook]
  · intro answer w hinv h
    exact hnext answer h.1.1 h.1.2 w hinv h.2

theorem del_spec (hA : Lasting A) {key : Bytes} (htoken : isTokenKey key = true)
    (hnext : ∀ answer, Triple (tokenContract config) client
      (fun w => Owes client (fun other => allowed other ∧ other ≠ key) w ∧
        A w ∧ ¬ w.Holds key) (f answer) post) :
    Triple (tokenContract config) client
      (fun w => Owes client allowed w ∧ A w) (Redis.del key >>= f) post := by
  refine triple_call
    (fun _ w => Owes client (fun other => allowed other ∧ other ≠ key) w ∧ A w ∧ ¬ w.Holds key)
    ((Owes.local allowed).stable.and hA.stable) ?_ hnext
  rintro w choice _ ⟨howes, ha⟩ ⟨_, hstep⟩ hchange
  have hfault := hstep htoken
  refine ⟨?_, hA.change ha hchange, w.not_holds_del client key hfault⟩
  intro other hother
  simp only [World.exec, w.execRedis_effect client _ hfault, World.afterRedis,
    World.recordRedis, Function.update_self, List.mem_filter] at hother
  exact ⟨howes other hother.1, by simpa using hother.2⟩

/-- Writing the row: its old token is owed if it is still live. -/
theorem upsert_spec (hA : Lasting A) {previous : Bytes}
    (hknown : ∀ w, A w → Known client previous w) {device : UserDevice}
    (hallowed : ∀ w, A w → previous ≠ [] → previous ≠ device.tokenHash →
      w.Holds (hashKey previous) → allowed (hashKey previous))
    (hnext : Triple (tokenContract config) client
      (fun w => Owes client allowed w ∧ A w ∧
        w.Covered (device.key config) device.tokenHash) (f true) post) :
    Triple (tokenContract config) client (fun w => OwesNothing client w ∧ A w)
      (call (.sql (.upsertDevice device)) >>= f) post := by
  refine triple_call
    (fun (answer : Bool) w => answer = true ∧ Owes client allowed w ∧ A w ∧
      w.Covered (device.key config) device.tokenHash)
    ((Owes.local _).stable.and hA.stable) ?_ ?_
  · rintro w choice _ ⟨howes, ha⟩ ⟨_, hfault, hread⟩ hchange
    rw [(hknown w ha).lookedHash] at hread
    refine ⟨by simp [World.exec, World.execSql, hfault], ?_,
      hA.change ha hchange, ?_⟩
    · intro key hkey
      simp only [World.exec, World.execSql, hfault] at hkey
      rcases World.of_mem_owed_recordOverwrite hkey with
        hold | ⟨rfl, hne, hchanged, hholds⟩
      · exact (howes key hold).elim
      · rw [UserDevice.key] at hread
        rw [hread] at hne hchanged hholds ⊢
        exact hallowed w ha hne hchanged hholds
    · intro _
      simp only [World.exec, World.execSql, hfault]
      exact .inl (World.storedHash_upsertDevice config device)
  · intro answer w hinv h
    obtain ⟨rfl, h⟩ := h
    exact hnext w hinv h

end Calls

/-! ## Device rows -/

section Rows

variable {A : World → Prop} {previous newHash : Bytes}

/-- The one deletion that can be owed between writing a row and finishing. -/
def Replaced (previous newHash key : Bytes) : Prop :=
  key = hashKey previous ∧ previous ≠ [] ∧ previous ≠ newHash

theorem deletePrevious_spec (hA : Lasting A)
    (hseen : ∀ w, A w → previous ≠ [] → hashKey previous ∈ w.seen)
    (hallowed : ∀ key, allowed key → Replaced previous newHash key) :
    Triple (tokenContract config) client
      (fun w => Owes client allowed w ∧ A w) (deletePrevious previous newHash)
      fun _ w => OwesNothing client w ∧ A w ∧ Gone previous newHash w := by
  have hlasting := hA.and (Gone.lasting previous newHash)
  unfold deletePrevious
  split
  · next hreplaced =>
    refine del_spec hA (isTokenKey_hashKey previous) fun _ => ?_
    refine (Triple.ret ((Owes.local fun _ => False).stable.and hlasting.stable)
      fun _ h => h).strengthen ?_
    rintro w ⟨howes, ha, hdead⟩
    refine ⟨fun key hkey => ?_, ha, fun _ _ => ⟨?_, hdead⟩⟩
    · obtain ⟨hkey, hne⟩ := howes key hkey
      exact hne (hallowed key hkey).1
    · exact hseen w ha hreplaced.1
  · next hkept =>
    refine (Triple.ret ((Owes.local fun _ => False).stable.and hlasting.stable)
      fun _ h => h).strengthen ?_
    rintro w ⟨howes, ha⟩
    refine ⟨fun key hkey => ?_, ha, fun hne hchanged => ?_⟩
    · exact hkept (hallowed key (howes key hkey)).2
    · exact absurd ⟨hne, hchanged⟩ hkept

/-- `DeviceDao::upsertDevice` writes the row, or nothing at all. -/
theorem upsertDevice_spec (hA : Lasting A)
    (hknown : ∀ w, A w → Known client previous w) (device : UserDevice)
    (hne : device.tokenHash ≠ [])
    (hseen : ∀ w, A w → hashKey device.tokenHash ∈ w.seen)
    (allowed : Bytes → Prop)
    (hallowed : ∀ w, A w → previous ≠ [] → previous ≠ device.tokenHash →
      w.Holds (hashKey previous) → allowed (hashKey previous)) :
    Triple (tokenContract config) client
      (fun w => OwesNothing client w ∧ A w) (DeviceDao.upsertDevice device)
      fun ok w => if ok = true
        then Owes client allowed w ∧ A w ∧ w.Covered (device.key config) device.tokenHash
        else OwesNothing client w ∧ A w := by
  have hcovered : Lasting fun w => A w ∧ w.Covered (device.key config) device.tokenHash :=
    fun a b hledger hlinks h => ⟨hA a b hledger hlinks h.1,
      hledger.covered _ _ hne (hseen a h.1) h.2⟩
  have hstable : Stable (tokenContract config) client (OwesNothing client) := (Owes.local _).stable
  unfold DeviceDao.upsertDevice
  split
  · exact Triple.ret (hstable.and hA.stable) fun _ h => h
  · refine triple_read (fun _ _ => rfl) (hstable.and hA.stable) fun now => ?_
    change Triple _ _ _ (call (.sql (.upsertDevice (DeviceDao.stamped device now))) >>= .ret) _
    have hstamped : ∀ w, A w → previous ≠ [] → previous ≠ (DeviceDao.stamped device now).tokenHash →
        w.Holds (hashKey previous) → allowed (hashKey previous) := hallowed
    refine upsert_spec hA hknown hstamped ?_
    exact Triple.ret ((Owes.local allowed).stable.and hcovered.stable) fun _ h => h

end Rows

/-! ## Login -/

/-- What a finished request leaves: nothing owed, and a token that it has issued
for a device is settled. -/
structure Finished (config : Config) (client : Nat) (deviceId : Bytes)
    (response : Option CommonResponse) (userId : UInt64) (token : Bytes) (w : World) : Prop where
  owes : OwesNothing client w
  settled : Gateway.responseCode response = 0 → deviceId ≠ [] → userId ≠ 0 →
    HeldByRow config client userId deviceId token w

theorem Finished.stable (deviceId : Bytes) (response : Option CommonResponse)
    (userId : UInt64) (token : Bytes) :
    Stable (tokenContract config) client
      (Finished config client deviceId response userId token) := by
  intro a b h _ hrely _
  refine ⟨Owes.local _ a b hrely.2.2 h.owes, fun hcode hdevice huser => ?_⟩
  exact HeldByRow.lasting userId deviceId token a b hrely.1 hrely.2.1
    (h.settled hcode hdevice huser)

theorem recordDevice_spec (hdevice : req.deviceId ≠ []) : Triple (tokenContract config) client
      (fun w => Idle client presented w ∧ Minted config client token w)
      (recordDevice req userId (tokenHash config token))
      fun ok w => OwesNothing client w ∧
        (ok = true → HeldByRow config client userId req.deviceId token w) := by
  have hminted : Lasting (Minted config client token) := Minted.lasting token
  unfold recordDevice
  refine triple_read (fun _ _ => rfl)
    ((Idle.local presented).stable.and hminted.stable) fun now => ?_
  by_cases huser : userId = 0
  · -- without a user id the data access functions do nothing
    simp only [huser, DeviceDao.getDevice, DeviceDao.upsertDevice, true_or,
      if_true, Prog.pure_eq_ret, Prog.ret_bind, Option.map_none, Option.getD_none,
      deletePrevious, ne_eq, not_true_eq_false, false_and, if_false]
    refine (Triple.ret (Owes.local fun _ => False).stable
      fun _ h => ⟨h, fun hok => ?_⟩).strengthen fun h => h.1.owes
    cases hok
  · rw [DeviceDao.getDevice_eq huser hdevice]
    refine getDevice_spec hminted fun existing _ _ => ?_
    have hknown : Lasting fun w => Minted config client token w ∧
        Known client ((existing.map UserDevice.tokenHash).getD []) w :=
      hminted.and (Known.lasting _)
    refine Triple.bind (deletePrevious_spec hknown (fun _ h => h.2.seen)
      (fun _ h => h.elim)) fun _ => ?_
    have hgone := hknown.and (Gone.lasting
      ((existing.map UserDevice.tokenHash).getD []) (tokenHash config token))
    refine (upsertDevice_spec hgone (fun _ h => h.1.2) _ ?_ ?_ (fun _ => False) ?_).mono id ?_
    · exact tokenHash_ne_nil config token
    · exact fun _ h => h.1.1.2
    · exact fun w h hne hchanged hholds => (h.2 hne hchanged).2 hholds
    · intro ok w h
      cases ok with
      | false => exact ⟨h.1, fun hok => absurd hok Bool.false_ne_true⟩
      | true => exact ⟨h.1, fun _ => ⟨h.2.1.1.1, h.2.2⟩⟩

abbrev LoginPost (config : Config) (client : Nat) (req : LoginRequest)
    (resp : LoginResponse) : World → Prop :=
  Finished config client req.deviceId resp.response resp.userId resp.token

theorem login_refused {resp : LoginResponse} (hpre : ∀ {w}, pre w → OwesNothing client w)
    (hcode : Gateway.responseCode resp.response ≠ 0) :
    Triple (tokenContract config) client pre (pure resp) (LoginPost config client req) :=
  (Triple.ret (Owes.local fun _ => False).stable
    fun _ h => ⟨h, fun hok => absurd hok hcode⟩).strengthen hpre

theorem login_failed {requestId : Bytes} (hpre : ∀ {w}, pre w → OwesNothing client w)
    (code : ErrorCode) {message : String} (hcode : code.toInt32 ≠ 0) :
    Triple (tokenContract config) client pre
      (pure (loginReply requestId code message)) (LoginPost config client req) :=
  login_refused hpre hcode

theorem validateLogin_refuses {resp : LoginResponse} (h : validateLogin req = some resp) :
    Gateway.responseCode resp.response ≠ 0 := by
  unfold validateLogin at h
  split at h
  · cases h
    exact (by decide : ErrorCode.usernameEmpty.toInt32 ≠ 0)
  split at h
  · cases h
    exact (by decide : ErrorCode.passwordEmpty.toInt32 ≠ 0)
  split at h
  · cases h
    exact (by decide : ErrorCode.invalidArgument.toInt32 ≠ 0)
  · cases h

theorem loginSucceeded_spec : Triple (tokenContract config) client
      (fun w => OwesNothing client w ∧ (req.deviceId ≠ [] →
        HeldByRow config client userId req.deviceId token w))
      (loginSucceeded config req userId token) (LoginPost config client req) := by
  have hstable : Stable (tokenContract config) client fun w =>
      OwesNothing client w ∧ (req.deviceId ≠ [] →
        HeldByRow config client userId req.deviceId token w) :=
    (Owes.local _).stable.and ((HeldByRow.lasting userId req.deviceId token).imp _).stable
  exact triple_read (fun _ _ => rfl) hstable fun now =>
    Triple.ret hstable fun _ h => ⟨h.1, fun _ hdevice _ => h.2 hdevice⟩

theorem issueToken_spec : Triple (tokenContract config) client (Idle client False)
      (issueToken config req userId) (LoginPost config client req) := by
  unfold issueToken
  refine generateToken_spec fun token => ?_
  split
  · exact login_failed (fun h => h.1.owes) .internalError (by decide)
  next htoken =>
  refine setEx_spec htoken fun stored => ?_
  cases stored with
  | false => exact login_failed (fun h => h.1.owes) .redisError (by decide)
  | true =>
    simp only [Bool.not_true, Bool.false_eq_true, if_false]
    split
    · next hempty =>
      exact loginSucceeded_spec.strengthen fun h => ⟨h.1.owes, fun hdevice => absurd hempty hdevice⟩
    · next hdevice =>
      refine Triple.bind ((recordDevice_spec hdevice).strengthen
        fun h => ⟨h.1, h.2 trivial⟩) fun recorded => ?_
      cases recorded with
      | true =>
        exact loginSucceeded_spec.strengthen fun h => ⟨h.1, fun _ => h.2 rfl⟩
      | false =>
        simp only [Bool.false_eq_true, if_false]
        refine Triple.strengthen (del_spec (Lasting.const True) (isTokenKey_hashKey _) fun _ => ?_)
          fun h => (⟨h.1, trivial⟩ : OwesNothing client _ ∧ True)
        exact login_failed (fun h key hkey => (h.1 key hkey).1) .dbError (by decide)

theorem login_spec : Triple (tokenContract config) client (Idle client False)
      (login config req) (LoginPost config client req) := by
  have hstable : Stable (tokenContract config) client (Idle client False) :=
    (Idle.local False).stable
  unfold login
  refine triple_read (fun _ _ => rfl) hstable fun authorized => ?_
  split
  · exact login_failed (fun h => h.owes) .authFailed (by decide)
  cases hvalid : validateLogin req with
  | some refused => exact login_refused (fun h => h.owes) (validateLogin_refuses hvalid)
  | none =>
    refine triple_read (fun _ _ => rfl) hstable fun user => ?_
    split
    · exact login_failed (fun h => h.owes) .authFailed (by decide)
    · exact issueToken_spec

/-! ## Refreshing a token -/

/-- The row of the device holds the new token, and `previous` was in it. -/
structure Exchanged (config : Config) (client : Nat) (userId : UInt64)
    (deviceId token previous : Bytes) (w : World) : Prop where
  seen : previous ≠ [] → hashKey previous ∈ w.seen
  settled : deviceId ≠ [] → userId ≠ 0 → HeldByRow config client userId deviceId token w

theorem Exchanged.lasting (userId : UInt64) (deviceId token previous : Bytes) :
    Lasting (Exchanged config client userId deviceId token previous) :=
  fun a b hledger hlinks h => ⟨fun hne => hledger.seen (h.seen hne),
    fun hdevice huser => HeldByRow.lasting userId deviceId token a b hledger hlinks
      (h.settled hdevice huser)⟩

/-- What writing the row of a refreshed token leaves to do. -/
def ReplacePost (config : Config) (client : Nat) (userId : UInt64)
    (deviceId token : Bytes) : Option Bytes → World → Prop
  | none, w => OwesNothing client w
  | some previous, w =>
    Owes client (Replaced previous (tokenHash config token)) w ∧
      Exchanged config client userId deviceId token previous w

theorem replaceDeviceToken_spec : Triple (tokenContract config) client
      (fun w => Idle client True w ∧ Minted config client token w)
      (replaceDeviceToken userId deviceId (tokenHash config token))
      (ReplacePost config client userId deviceId token) := by
  have hminted : Lasting (Minted config client token) := Minted.lasting token
  -- without a row nothing is overwritten
  have hnone : (deviceId = [] ∨ userId = 0) → Triple (tokenContract config) client
        (fun w => Idle client True w ∧ Minted config client token w)
        (pure (some []))
        (ReplacePost config client userId deviceId token) := by
    intro hmissing
    refine (Triple.ret (Owes.local fun _ => False).stable fun _ h =>
      ⟨fun key hkey => (h key hkey).elim, fun hne => absurd rfl hne, ?_⟩).strengthen
      fun h => h.1.owes
    intro hdevice huser
    exact absurd hmissing (not_or.mpr ⟨hdevice, huser⟩)
  unfold replaceDeviceToken
  split
  · next hempty => exact hnone (.inl hempty)
  next hdevice =>
  by_cases huser : userId = 0
  · simp only [DeviceDao.getDevice, huser, true_or, if_true, Prog.pure_eq_ret, Prog.ret_bind]
    exact huser ▸ hnone (.inr huser)
  rw [DeviceDao.getDevice_eq huser hdevice]
  refine getDevice_spec hminted fun answer hsome hkey => ?_
  cases answer with
  | none => cases hsome trivial
  | some device =>
    have hknown : Lasting fun w => Minted config client token w ∧
        Known client device.tokenHash w := hminted.and (Known.lasting _)
    refine triple_read (fun _ _ => rfl) ((Owes.local _).stable.and hknown.stable) fun now => ?_
    refine Triple.bind (upsertDevice_spec hknown (fun _ h => h.2) _ ?_ ?_
      (Replaced device.tokenHash (tokenHash config token)) ?_) fun ok => ?_
    · exact tokenHash_ne_nil config token
    · exact fun _ h => h.1.2
    · exact fun _ _ hne hchanged _ => ⟨rfl, hne, hchanged⟩
    cases ok with
    | false =>
      exact (Triple.ret (Owes.local fun _ => False).stable fun _ h => h).strengthen fun h => h.1
    | true =>
      refine (Triple.ret ((Owes.local _).stable.and
        (Exchanged.lasting userId deviceId token device.tokenHash).stable)
        fun _ h => h).strengthen ?_
      rintro w ⟨howes, hpast, hcovered⟩
      refine ⟨howes, hpast.2.seen, fun _ _ => ⟨hpast.1, ?_⟩⟩
      exact hkey device rfl ▸ hcovered

abbrev RefreshPost (config : Config) (client : Nat) (req : RefreshTokenRequest)
    (resp : RefreshTokenResponse) : World → Prop :=
  Finished config client req.deviceId resp.response resp.userId resp.token

variable {req : RefreshTokenRequest}

theorem refresh_failed {requestId : Bytes} (hpre : ∀ {w}, pre w → OwesNothing client w)
    (code : ErrorCode) {message : String} (hcode : code.toInt32 ≠ 0) :
    Triple (tokenContract config) client pre
      (pure { response := some (fillResponse requestId code message) })
      (RefreshPost config client req) :=
  (Triple.ret (Owes.local fun _ => False).stable
    fun _ h => ⟨h, fun hok => absurd hok hcode⟩).strengthen hpre

theorem exchangeToken_spec : Triple (tokenContract config) client (Idle client True)
      (exchangeToken config req userId) (RefreshPost config client req) := by
  unfold exchangeToken
  refine generateToken_spec fun token => ?_
  split
  · exact refresh_failed (fun h => h.1.owes) .tokenRefreshFailed (by decide)
  next htoken =>
  refine setEx_spec htoken fun stored => ?_
  cases stored with
  | false => exact refresh_failed (fun h => h.1.owes) .tokenRefreshFailed (by decide)
  | true =>
    simp only [Bool.not_true, Bool.false_eq_true, if_false]
    refine Triple.bind (replaceDeviceToken_spec.strengthen
      fun h => ⟨h.1, h.2 trivial⟩) fun replaced => ?_
    cases replaced with
    | none =>
      refine Triple.strengthen (del_spec (Lasting.const True) (isTokenKey_hashKey _) fun _ => ?_)
        fun h => (⟨h, trivial⟩ : OwesNothing client _ ∧ True)
      exact refresh_failed (fun h key hkey => (h.1 key hkey).1) .tokenRefreshFailed (by decide)
    | some previous =>
      have hlasting : Lasting (Exchanged config client userId req.deviceId
        token previous) := Exchanged.lasting _ _ _ _
      refine Triple.bind (deletePrevious_spec hlasting (fun _ h => h.seen) fun _ h => h) fun _ => ?_
      refine Triple.strengthen (del_spec hlasting
        (isTokenKey_hashKey (tokenHash config req.token)) fun _ => ?_)
        fun h => (⟨h.1, h.2.1⟩ : OwesNothing client _ ∧ _)
      have hstable : Stable (tokenContract config) client fun w =>
          OwesNothing client w ∧ Exchanged config client userId req.deviceId token previous w :=
        (Owes.local _).stable.and hlasting.stable
      refine Triple.strengthen (triple_read (fun _ _ => rfl) hstable fun now => ?_)
        fun h => ⟨fun key hkey => (h.1 key hkey).1, h.2.1⟩
      exact Triple.ret hstable fun _ h => ⟨h.1, fun _ hdevice huser => h.2.settled hdevice huser⟩

theorem refreshToken_spec : Triple (tokenContract config) client (Idle client False)
      (refreshToken config req) (RefreshPost config client req) := by
  unfold refreshToken
  refine triple_read (fun _ _ => rfl) (Idle.local False).stable fun authorized => ?_
  split
  · exact refresh_failed (fun h => h.owes) .authFailed (by decide)
  split
  · exact refresh_failed (fun h => h.owes) .tokenInvalid (by decide)
  refine get_spec fun value => ?_
  cases value with
  | none => exact refresh_failed (fun h => h.owes) .tokenRefreshFailed (by decide)
  | some value =>
    dsimp only
    split
    · exact refresh_failed (fun h => h.owes) .tokenInvalid (by decide)
    · exact exchangeToken_spec.strengthen fun h => ⟨h.owes, h.looked, fun _ => h.presented rfl⟩

/-! ## All requests -/

/-- The user, the device and the token that a reply names, with its response. -/
def Request.outcome : Request → Reply → Option (Option CommonResponse × UInt64 × Bytes × Bytes)
  | .login req, .login resp => some (resp.response, resp.userId, req.deviceId, resp.token)
  | .refreshToken req, .refreshToken resp =>
    some (resp.response, resp.userId, req.deviceId, resp.token)
  | _, _ => none

/-- The request of the thread was answered OK with a token for the device. -/
def IssuedFor (pool : SessionPool) (client : Nat) (userId : UInt64)
    (deviceId token : Bytes) : Prop :=
  ∃ request reply response, pool.request client = some request ∧ pool.reply client = some reply ∧
    Request.outcome request reply = some (response, userId, deviceId, token) ∧
    Gateway.responseCode response = 0

theorem IssuedFor.unique {pool : SessionPool} {other : Bytes}
    (h : IssuedFor pool client userId deviceId token)
    (h' : IssuedFor pool client userId deviceId other) : token = other := by
  obtain ⟨request, reply, response, hrequest, hreply, houtcome, _⟩ := h
  obtain ⟨request', reply', response', hrequest', hreply', houtcome', _⟩ := h'
  cases hrequest.symm.trans hrequest'
  cases hreply.symm.trans hreply'
  cases houtcome.symm.trans houtcome'
  rfl

/-- At most one token issued for the device passes, and the row names it. -/
structure SingleToken (config : Config) (pool : SessionPool) (userId : UInt64)
    (deviceId : Bytes) : Prop where
  stored : ∀ client token, IssuedFor pool client userId deviceId token →
    Passes config pool.world token →
    pool.world.storedHash (World.deviceKey config userId deviceId) = tokenHash config token
  unique : ∀ first second token other, IssuedFor pool first userId deviceId token →
    IssuedFor pool second userId deviceId other →
    Passes config pool.world token → Passes config pool.world other →
    token = other

def AllFinished (pool : SessionPool) : Prop :=
  ∀ client, client < pool.threads.length → (pool.reply client).isSome = true

instance : DecidablePred AllFinished := fun pool =>
  inferInstanceAs (Decidable (∀ client, client < pool.threads.length →
    (pool.reply client).isSome = true))

def TokenPost (config : Config) (client : Nat) (request : Request) (_ : World)
    (reply : Reply) (w : World) : Prop :=
  OwesNothing client w ∧ ∀ response userId deviceId token,
      Request.outcome request reply = some (response, userId, deviceId, token) →
      Finished config client deviceId response userId token w

theorem request_safe {w : World} {request : Request} (client : Nat) (hinv : Invariant config w)
    (hidle : Idle client False w) (hissues : Issues request) :
    Safe (tokenContract config) client (TokenPost config client request w)
      (code config request) w := by
  cases request with
  | login req =>
    refine Triple.bind login_spec (fun resp => ?_) w hinv hidle
    refine Triple.ret (Finished.stable _ _ _ _) fun _ h => ⟨h.owes, ?_⟩
    rintro _ _ _ _ ⟨⟩
    exact h
  | refreshToken req =>
    refine Triple.bind refreshToken_spec (fun resp => ?_) w hinv hidle
    refine Triple.ret (Finished.stable _ _ _ _) fun _ h => ⟨h.owes, ?_⟩
    rintro _ _ _ _ ⟨⟩
    exact h
  | _ => exact hissues.elim

/-- In every run of logins and refreshes whose calls meet `TokenStep`, the
tokens of a device are single once all requests have finished. -/
theorem device_token_single {actions : List SessionAction}
    (hrun : (tokenGuard config).AdmitsRun (system config) initial actions)
    (hdone : AllFinished ((system config).run initial actions)) {userId : UInt64} {deviceId : Bytes}
    (huser : userId ≠ 0) (hdevice : deviceId ≠ []) :
    SingleToken config ((system config).run initial actions) userId
      deviceId := by
  have hstart : PoolSafe (tokenContract config) (TokenPost config) initial :=
    ⟨initial_inv config, fun client thread h => absurd h (by simp [initial])⟩
  obtain ⟨hrun, hregistered⟩ := admits_setsUnseen hrun fun h => h.1
  obtain ⟨hsafe, hrest⟩ := (tokenContract config).run_safe_blank
    (fun _ => (Idle.local False).stable)
    (fun client hinv hidle hissues => request_safe client hinv hidle hissues)
    hstart (fun _ _ => ⟨fun _ h => absurd h (by simp [initial]), rfl, False.elim⟩)
    hrun
  generalize (system config).run initial actions = pool at hdone hsafe hrest hregistered ⊢
  have hsettled : ∀ client token, IssuedFor pool client userId deviceId token →
      HeldByRow config client userId deviceId token pool.world := by
    rintro client token ⟨request, reply, response, hrequest, hreply, houtcome, hcode⟩
    obtain ⟨_, hpost⟩ := hsafe.answer hrequest hreply
    exact (hpost.2 _ _ _ _ houtcome).settled hcode hdevice huser
  -- every thread has finished, so no deletion is owed any more
  have howing : ∀ key, ¬ pool.world.Owing key := by
    rintro key ⟨client, hkey⟩
    by_cases hclient : client < pool.threads.length
    · obtain ⟨reply, hreply⟩ := Option.isSome_iff_exists.mp (hdone client hclient)
      have hrequest : pool.request client = some pool.threads[client].req := by
        simp [Pool.request, hclient]
      obtain ⟨_, hpost⟩ := hsafe.answer hrequest hreply
      exact hpost.1 key hkey
    · exact (hrest client (by omega)).owes key hkey
  have hstored : ∀ client token, IssuedFor pool client userId deviceId token →
      Passes config pool.world token →
      pool.world.storedHash (World.deviceKey config userId deviceId) =
        tokenHash config token := fun client token hissued hpasses =>
    ((hsettled client token hissued).covered hpasses.holds).resolve_right (howing _)
  refine ⟨hstored, ?_⟩
  intro first second token other hfirst hsecond hpasses hpasses'
  have hkey : tokenKey config token = tokenKey config other :=
    congrArg hashKey ((hstored first token hfirst hpasses).symm.trans
      (hstored second other hsecond hpasses'))
  -- a token key has one owner
  obtain rfl : first = second :=
    hregistered.owners first second (tokenKey config token) (hsettled first token hfirst).minted.1
      (hkey ▸ (hsettled second other hsecond).minted.1)
  exact hfirst.unique hsecond

/-! ## Runs -/

def aliceRefresh : RefreshTokenRequest := ⟨lit "refresh", [7], lit "laptop"⟩

def refreshed : List SessionAction :=
  loggedIn ++ [.spawn (.refreshToken aliceRefresh)] ++ steps 1 11 [8]

theorem device_token_single_laptop :
    IssuedFor ((system demo).run initial refreshed) 1 1 (lit "laptop") [8] ∧
      SingleToken demo ((system demo).run initial refreshed) 1 (lit "laptop") :=
  ⟨⟨.refreshToken aliceRefresh, .refreshToken
        ⟨some (fillResponse (lit "refresh") .ok "OK"), 1, [8], 604800005⟩,
      some (fillResponse (lit "refresh") .ok "OK"),
      by decide +kernel, by decide +kernel, by decide +kernel, rfl⟩,
    device_token_single (by decide +kernel) (by decide +kernel) (by decide)
      (by decide +kernel)⟩

def raced : SessionPool :=
  (system demo).run initial <|
    [.env (.register alice), .spawn (.login aliceLogin), .spawn (.login aliceLogin)] ++
    steps 0 6 ++ steps 1 6 [8] ++ steps 0 3 ++ steps 1 3

def loginAnswer (token : Bytes) : LoginResponse :=
  ⟨some (fillResponse (lit "login") .ok "OK"), 1, token, 604800005⟩

/-- Both tokens pass, although nothing has failed. -/
theorem raced_logins_leave_two_tokens :
    AllFinished raced ∧ ¬ SingleToken demo raced 1 (lit "laptop") := by
  refine ⟨by decide +kernel, fun h => ?_⟩
  have hissued : ∀ client token,
      (raced.request client = some (.login aliceLogin) ∧
        raced.reply client = some (.login (loginAnswer token))) →
      IssuedFor raced client 1 (lit "laptop") token :=
    fun client token ⟨hrequest, hreply⟩ => ⟨_, _, _, hrequest, hreply, rfl, rfl⟩
  have heq : ([7] : Bytes) = [8] :=
    h.unique 0 1 [7] [8] (hissued 0 [7] (by decide +kernel))
      (hissued 1 [8] (by decide +kernel)) (by decide +kernel) (by decide +kernel)
  exact absurd heq (by decide)

end NebulaIM.User
