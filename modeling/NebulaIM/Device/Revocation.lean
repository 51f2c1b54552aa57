import NebulaIM.Device.Histories

/-!
# Revoking all devices of a user

`KickAllDevices` finds the tokens to delete through the device rows, so what it
revokes are the tokens that a row names.  A login without a device id and a
refresh of a device without a row issue tokens that no row names; they survive
it.
-/

namespace NebulaIM.Device

open Foundation Session
open Session.TokenManager (hashKey tokenKey tokenHash)
open Foundation.Store (Table)
open Foundation.Wire (Bytes)
open Protocol
open User (Request.outcome HeldByRow Minted Replaced)

variable {after : World} {token deviceId requestId : Bytes} {req : LoginRequest}
variable {userId : UInt64} {h : History} {refresh : Bool}
variable {config : Config} {client : Nat}

namespace History

def IssuedTo (h : History) (userId : UInt64) (token : Bytes) : Prop :=
  ∃ served ∈ h.served, ∃ response deviceId, Request.outcome served.request served.reply =
      some (response, userId, deviceId, token) ∧
    Gateway.responseCode response = 0

/-- The token was issued for a device: by a login that names one, or by a refresh
of a device that had a row. -/
def RecordedFor (config : Config) (h : History) (userId : UInt64) (token : Bytes) : Prop :=
  ∃ served ∈ h.served, ∃ response deviceId, Request.outcome served.request served.reply =
      some (response, userId, deviceId, token) ∧
    Gateway.responseCode response = 0 ∧ deviceId ≠ [] ∧
    (∀ req, served.request = .refreshToken req →
      (served.start.getDevice config userId deviceId).isSome = true)

/-- Answered OK, `KickAllDevices` leaves none of the tokens valid. -/
def AllRevoked (config : Config) (h : History) (req : KickAllDevicesRequest)
    (choices : Nat → Choice) (issued : Bytes → Prop) : Prop :=
  ∀ resp, (h.serve config (.kickAllDevices req) choices).2 = .kicked resp →
    resp.code = 0 → ∀ token, issued token →
      ¬ Passes config (h.serve config (.kickAllDevices req) choices).1 token

end History

/-! ## Login -/

section Handlers

variable {w : World}

/-- What a served request leaves: nothing owed, and a token that it has issued
for a device stands in the row of the device. -/
structure Leaves (config : Config) (client : Nat) (recorded : UInt64 → Prop) (deviceId : Bytes)
    (response : Option CommonResponse) (userId : UInt64) (token : Bytes) (w : World) : Prop where
  calm : Settles config client w
  settled : Gateway.responseCode response = 0 → deviceId ≠ [] →
    recorded userId → HeldByRow config client userId deviceId token w

theorem storedHash_eq (hdevices : after.devices = w.devices) (row : UInt64 × Bytes) :
    after.storedHash row = w.storedHash row := by
  simp only [World.storedHash, hdevices]

theorem Minted.of_ledger (hledger : Ledger w after) (h : Minted config client token w) :
    Minted config client token after :=
  ⟨hledger.issued h.1, hledger.seen h.2⟩

theorem recordDevice_ends (h : Settles config client w) (hminted : Minted config client token w) :
    Ends config refresh client
      (fun ok after => Settles config client after ∧
        (ok = true → HeldByRow config client userId req.deviceId token after))
      (User.recordDevice req userId (tokenHash config token)) w := by
  unfold User.recordDevice
  refine ends_call trivial h fun now before hbefore _ hledger => ?_
  replace hminted := Minted.of_ledger hledger hminted
  by_cases hvalid : userId = 0 ∨ req.deviceId = []
  · -- the data access functions do nothing
    simp only [DeviceDao.getDevice, DeviceDao.upsertDevice, hvalid, if_true,
      Prog.pure_eq_ret, Prog.ret_bind, Option.map_none, Option.getD_none,
      User.deletePrevious, ne_eq, not_true_eq_false, false_and, if_false]
    exact ⟨hbefore, fun hok => absurd hok Bool.false_ne_true⟩
  simp only [not_or] at hvalid
  rw [DeviceDao.getDevice_eq hvalid.1 hvalid.2]
  refine getDevice_ends hbefore fun read hread hsame hledger _ => ?_
  replace hminted := Minted.of_ledger hledger hminted
  refine (deletePrevious_ends (fun _ h => h.elim) hread).bind fun _ cleared h => ?_
  obtain ⟨hcleared, hdevices, hledger, hdead⟩ := h
  replace hminted := Minted.of_ledger hledger hminted
  refine (upsertDevice_ends _ hcleared).mono fun ok after h => ?_
  obtain ⟨hledger, h⟩ := h
  -- the token of the row was deleted, so nothing is owed if the row is written
  have hnone : ∀ key, ¬ Overwritten cleared
      (World.deviceKey config userId req.deviceId) (tokenHash config token) key := by
    rintro key ⟨_, hne, hchanged, hholds⟩
    rw [storedHash_eq (hdevices.trans hsame)] at hne hchanged hholds
    exact hdead hne hchanged hholds
  cases ok with
  | false =>
    exact ⟨h.mono fun key hkey => hnone key hkey.2, fun hok => absurd hok Bool.false_ne_true⟩
  | true =>
    exact ⟨h.1.mono hnone, fun _ => ⟨Minted.of_ledger hledger hminted, fun _ => .inl h.2⟩⟩

theorem leaves_failed {recorded : UInt64 → Prop} {message : String} (code : ErrorCode)
    (hcode : code.toInt32 ≠ 0) (h : Settles config client w) :
    Leaves config client recorded deviceId
      (some (fillResponse requestId code message)) userId token w :=
  ⟨h, fun hok => absurd hok hcode⟩

abbrev LoginLeaves (config : Config) (client : Nat) (req : LoginRequest)
    (resp : LoginResponse) : World → Prop :=
  Leaves config client (fun _ => True) req.deviceId resp.response resp.userId resp.token

theorem loginSucceeded_ends (h : Settles config client w)
    (hsettled : req.deviceId ≠ [] → HeldByRow config client userId req.deviceId token w) :
    Ends config refresh client (LoginLeaves config client req)
      (User.loginSucceeded config req userId token) w :=
  ends_exec fun _ _ _ => ⟨h, fun _ hdevice _ => hsettled hdevice⟩

theorem issueToken_ends (h : Settles config client w) :
    Ends config refresh client (LoginLeaves config client req)
      (User.issueToken config req userId) w := by
  unfold User.issueToken
  refine generateToken_ends h fun token generated hcalm _ hgiven => ?_
  split
  · exact leaves_failed .internalError (by decide) hcalm
  next htoken =>
  refine setEx_ends htoken hcalm hgiven fun stored after hafter _ hminted => ?_
  cases stored with
  | false => exact leaves_failed .redisError (by decide) hafter
  | true =>
    simp only [Bool.not_true, Bool.false_eq_true, if_false]
    split
    · next hempty => exact loginSucceeded_ends hafter fun hdevice => absurd hempty hdevice
    · refine (recordDevice_ends hafter (hminted rfl)).bind fun recorded next hnext => ?_
      cases recorded with
      | true => exact loginSucceeded_ends hnext.1 fun _ => hnext.2 rfl
      | false =>
        simp only [Bool.false_eq_true, if_false]
        refine del_ends (isTokenKey_hashKey _) hnext.1 fun _ last hlast _ _ _ => ?_
        exact leaves_failed .dbError (by decide)
          (hlast.mono fun key hkey => hkey.1)

theorem login_ends (h : Settles config client w) :
    Ends config refresh client (LoginLeaves config client req) (User.login config req)
      w := by
  unfold User.login
  refine ends_call trivial h fun authorized after hafter _ _ => ?_
  split
  · exact leaves_failed .authFailed (by decide) hafter
  cases hvalid : User.validateLogin req with
  | some refused => exact ⟨hafter, fun hok => absurd hok (User.validateLogin_refuses hvalid)⟩
  | none =>
    refine ends_call trivial hafter fun user next hnext _ _ => ?_
    split
    · exact leaves_failed .authFailed (by decide) hnext
    · exact issueToken_ends hnext

/-! ## Refreshing a token -/

/-- The device of the refreshed token has a row. -/
def HasRow (config : Config) (w : World) (deviceId : Bytes) (userId : UInt64) :
    Prop :=
  userId ≠ 0 ∧ (w.getDevice config userId deviceId).isSome = true

/-- What writing the row of a refreshed token leaves to do. -/
def ReplaceLeaves (config : Config) (client : Nat) (userId : UInt64)
    (deviceId token : Bytes) (start : World) : Option Bytes → World → Prop
  | none, w => Settles config client w
  | some previous, w =>
    Calm config client (Replaced previous (tokenHash config token)) w ∧
      (deviceId ≠ [] → HasRow config start deviceId userId →
        HeldByRow config client userId deviceId token w)

theorem replaceDeviceToken_ends (h : Settles config client w)
    (hminted : Minted config client token w) :
    Ends config true client (ReplaceLeaves config client userId deviceId token w)
      (User.replaceDeviceToken userId deviceId (tokenHash config token)) w := by
  -- without a row there is nothing to replace
  have hnone : ∀ {after}, Settles config client after →
      (deviceId ≠ [] → ¬ HasRow config w deviceId userId) →
      ReplaceLeaves config client userId deviceId token w (some []) after :=
    fun hafter hmissing => ⟨hafter.mono fun _ => False.elim,
      fun hdevice hrow => absurd hrow (hmissing hdevice)⟩
  unfold User.replaceDeviceToken
  split
  · next hempty => exact hnone h fun hdevice => absurd hempty hdevice
  next hdevice =>
  by_cases huser : userId = 0
  · simp only [DeviceDao.getDevice, huser, true_or, if_true, Prog.pure_eq_ret, Prog.ret_bind]
    exact huser ▸ hnone h fun _ hrow => hrow.1 huser
  rw [DeviceDao.getDevice_eq huser hdevice]
  refine getDevice_ends h fun read hread hsame hledger _ => ?_
  replace hminted := Minted.of_ledger hledger hminted
  cases hrow : w.getDevice config userId deviceId with
  | none => exact hnone hread fun _ hrow' => by simp [HasRow, hrow] at hrow'
  | some device =>
    have hkey : device.key config = World.deviceKey config userId deviceId :=
      h.inv.keyed _ device hrow
    refine ends_call trivial hread fun now before hbefore hdevices hledger => ?_
    replace hminted := Minted.of_ledger hledger hminted
    have hstored : before.storedHash (device.key config) = device.tokenHash := by
      rw [storedHash_eq (hdevices.trans hsame), hkey, World.storedHash, ← World.getDevice, hrow]
      rfl
    refine (upsertDevice_ends _ hbefore).bind fun ok after hafter => ?_
    obtain ⟨hledger, hafter⟩ := hafter
    cases ok with
    | false => exact hafter.mono fun key hkey => Bool.noConfusion hkey.1
    | true =>
      obtain ⟨hcalm, hnew⟩ := hafter
      refine ⟨⟨hcalm.inv, ?_, hcalm.others⟩, fun _ _ =>
        ⟨Minted.of_ledger hledger hminted, fun _ => .inl ?_⟩⟩
      · intro key howed
        obtain ⟨heq, hne, hchanged, _⟩ := hcalm.own key howed
        have hold : before.storedHash (device.key config) = device.tokenHash := hstored
        simp only [UserDevice.key] at heq hne hchanged hold
        rw [hold] at heq hne hchanged
        exact ⟨heq, hne, hchanged⟩
      · exact hkey ▸ hnew

abbrev RefreshLeaves (config : Config) (client : Nat) (start : World)
    (req : RefreshTokenRequest) (resp : RefreshTokenResponse) : World → Prop :=
  Leaves config client (HasRow config start req.deviceId) req.deviceId
    resp.response resp.userId resp.token

theorem HasRow.of_devices {start : World} (hdevices : w.devices = start.devices)
    (h : HasRow config start deviceId userId) : HasRow config w deviceId userId := by
  unfold HasRow World.getDevice at h ⊢
  rw [hdevices]
  exact h

theorem exchangeToken_ends {start : World} {req : RefreshTokenRequest}
    (h : Settles config client w) (hdevices : w.devices = start.devices) :
    Ends config true client (RefreshLeaves config client start req)
      (User.exchangeToken config req userId) w := by
  unfold User.exchangeToken
  refine generateToken_ends h fun token generated hcalm hsame hgiven => ?_
  split
  · exact leaves_failed .tokenRefreshFailed (by decide) hcalm
  next htoken =>
  refine setEx_ends htoken hcalm hgiven fun stored after hafter hkept hminted => ?_
  cases stored with
  | false => exact leaves_failed .tokenRefreshFailed (by decide) hafter
  | true =>
    have hstart : after.devices = start.devices := hkept.trans (hsame.trans hdevices)
    simp only [Bool.not_true, Bool.false_eq_true, if_false]
    refine (replaceDeviceToken_ends hafter (hminted rfl)).bind fun replaced next hnext => ?_
    cases replaced with
    | none =>
      refine del_ends (isTokenKey_hashKey _) hnext fun _ last hlast _ _ _ => ?_
      exact leaves_failed .tokenRefreshFailed (by decide)
        (hlast.mono fun key hkey => hkey.1)
    | some previous =>
      refine (deletePrevious_ends (fun _ h => h) hnext.1).bind fun _ cleared hcleared => ?_
      obtain ⟨hcleared, _, hledger, _⟩ := hcleared
      refine del_ends (isTokenKey_hashKey (tokenHash config req.token)) hcleared
        fun _ last hlast _ hledger' _ => ?_
      refine ends_exec fun _ _ _ => ⟨hlast.mono fun key hkey => hkey.1, fun _ hdevice hrow => ?_⟩
      have hsettled := hnext.2 hdevice (hrow.of_devices hstart)
      exact ⟨Minted.of_ledger (hledger.trans hledger') hsettled.minted,
        (hledger.trans hledger').covered _ _ (tokenHash_ne_nil config token)
          hsettled.minted.2 hsettled.covered⟩

theorem refreshToken_ends {req : RefreshTokenRequest} (h : Settles config client w) :
    Ends config true client (RefreshLeaves config client w req)
      (User.refreshToken config req) w := by
  unfold User.refreshToken
  refine ends_call trivial h fun authorized after hafter hsame _ => ?_
  split
  · exact leaves_failed .authFailed (by decide) hafter
  split
  · exact leaves_failed .tokenInvalid (by decide) hafter
  refine ends_call trivial hafter fun value next hnext hkept _ => ?_
  cases value with
  | none => exact leaves_failed .tokenRefreshFailed (by decide) hnext
  | some value =>
    dsimp only
    split
    · exact leaves_failed .tokenInvalid (by decide) hnext
    · exact exchangeToken_ends hnext (hkept.trans hsame)

/-! ## Revoking devices -/

theorem revokeDevice_ends {hash : Bytes} (h : Settles config client w)
    (hstored : w.storedHash (World.deviceKey config userId deviceId) = hash)
    (hseen : hashKey hash ∈ w.seen) :
    Ends config refresh client (fun _ => Settles config client)
      (revokeDevice requestId userId deviceId hash) w := by
  have hdelete : ∀ {after : World}, Settles config client after → Ends config refresh client
        (fun _ next => Settles config client next ∧ next.devices = after.devices ∧
          Ledger after next ∧ (hash ≠ [] → ¬ next.Holds (hashKey hash)))
        (deleteToken hash) after := by
    intro after hafter
    unfold deleteToken
    split
    · refine del_ends (isTokenKey_hashKey hash) hafter fun _ next hnext hsame hledger hdead => ?_
      exact ⟨hnext.mono fun key hkey => hkey.1, hsame, hledger, fun _ => hdead⟩
    · next hempty => exact ⟨hafter, rfl, .refl after, fun hne => absurd hne hempty⟩
  unfold revokeDevice
  refine ends_noRows (kickLive_quiet.mono Quiet.noRows) h
    fun kicked after hafter hsame₁ hledger₁ => ?_
  refine (hdelete hafter).bind fun _ deleted hdeleted => ?_
  obtain ⟨hcalm, hsame₂, hledger₂, hdead⟩ := hdeleted
  refine ends_noRows (clearPresence_quiet.mono Quiet.noRows) hcalm
    fun _ cleared hcleared hsame₃ hledger₃ => ?_
  refine ends_call trivial hcleared fun now before hbefore hsame₄ hledger₄ => ?_
  -- the row still holds the hash, whose token is gone
  have hrow : before.storedHash (World.deviceKey config userId deviceId) = hash := by
    rw [storedHash_eq (hsame₄.trans (hsame₃.trans (hsame₂.trans hsame₁))), hstored]
  have hgone : hash ≠ [] → ¬ before.Holds (hashKey hash) := fun hne hholds =>
    hdead hne ((hledger₃.trans hledger₄).forgotten _
      (hledger₂.seen (hledger₁.seen hseen)) (isTokenKey_hashKey hash) hholds)
  have hclear : ∀ now, Ends config refresh client (fun _ => Settles config client)
      (call (.sql (.clearDeviceToken userId deviceId now)) >>= .ret) before := by
    refine fun now => ends_exec fun choice _ hchange => ?_
    simp only [World.exec, World.execSql] at hchange ⊢
    split at hchange
    · next hfault =>
      rw [if_pos hfault]
      exact hbefore
    · next hfault =>
      rw [if_neg hfault]
      refine (hbefore.overwrite _ _ hchange).mono ?_
      rintro key ⟨_, hne, _, hholds⟩
      rw [hrow] at hne hholds
      exact hgone hne hholds
  have hdao : Ends config refresh client (fun _ => Settles config client)
      (DeviceDao.clearDeviceToken userId deviceId now) before := by
    unfold DeviceDao.clearDeviceToken
    split
    · exact hbefore
    split
    · exact hclear now
    · exact ends_exec fun choice _ _ => hclear choice.clock
  exact hdao.bind fun deviceOk last hlast => hlast

theorem kickDevice_ends {req : KickDeviceRequest} (h : Settles config client w) :
    Ends config refresh client (fun _ => Settles config client) (kickDevice req) w := by
  unfold kickDevice
  refine ends_call trivial h fun authorized after hafter _ _ => ?_
  split
  · exact hafter
  split
  · exact hafter
  next hvalid =>
  simp only [not_or] at hvalid
  refine ends_call trivial hafter fun user next hnext _ _ => ?_
  split
  · exact hnext
  rw [DeviceDao.getDevice_eq hvalid.1 hvalid.2]
  refine getDevice_ends hnext fun read hread hsame _ hseen => ?_
  cases hrow : next.getDevice config req.userId req.deviceId with
  | none => exact hread
  | some device =>
    have hstored : read.storedHash
        (World.deviceKey config req.userId req.deviceId) = device.tokenHash := by
      rw [storedHash_eq hsame, World.storedHash, ← World.getDevice, hrow]
      rfl
    refine (revokeDevice_ends hread hstored (hseen device hrow)).bind fun revoked last hlast => ?_
    cases revoked <;> exact hlast

theorem revokeDevice_deletes {hash other : Bytes} (h : Invariant config w)
    (hseen : hashKey other ∈ w.seen) (hne : other ≠ [])
    (hdead : other = hash ∨ ¬ w.Holds (hashKey other)) :
    Ends config refresh client
      (fun _ after => Invariant config after ∧ hashKey other ∈ after.seen ∧
        ¬ after.Holds (hashKey other))
      (revokeDevice requestId userId deviceId hash) w := by
  -- what is dead stays dead
  have hkeep : ∀ {α : Type} (p : Service α) {before : World},
      Invariant config before → hashKey other ∈ before.seen →
      ¬ before.Holds (hashKey other) →
      Ends config refresh client
        (fun _ after => Invariant config after ∧ hashKey other ∈ after.seen ∧
          ¬ after.Holds (hashKey other)) p before := by
    intro α p before hinv hseen hdead
    refine (ends_ledger p hinv).mono fun _ after h => ⟨h.1, h.2.seen hseen, ?_⟩
    exact fun hholds => hdead (h.2.forgotten _ hseen (isTokenKey_hashKey other) hholds)
  unfold revokeDevice
  refine (ends_ledger _ h).bind fun kicked after hafter => ?_
  obtain ⟨hinv, hledger⟩ := hafter
  rcases hdead with rfl | hdead
  · -- the deletion itself
    rw [deleteToken, if_pos hne]
    refine ends_exec fun choice hguard hchange => ?_
    exact hkeep _ (hchange.inv hinv) (hchange.ledger.seen (hledger.seen hseen))
      (after.not_holds_del client _ (hguard.2 (isTokenKey_hashKey other)))
  · refine hkeep _ hinv (hledger.seen hseen) fun hholds => hdead ?_
    exact hledger.forgotten _ hseen (isTokenKey_hashKey other) hholds

theorem revokeDevices_deletes {other : Bytes} (hne : other ≠ []) (devices : List UserDevice)
    {ok : Bool} (h : Invariant config w) (hseen : hashKey other ∈ w.seen)
    (hdead : (∃ device ∈ devices, device.tokenHash = other) ∨ ¬ w.Holds (hashKey other)) :
    Ends config refresh client (fun _ after => ¬ after.Holds (hashKey other))
      (revokeDevices requestId userId ok devices) w := by
  induction devices generalizing w ok with
  | nil => exact hdead.resolve_left fun ⟨_, hmem, _⟩ => by cases hmem
  | cons device devices ih =>
    have hfirst : (other = device.tokenHash ∨ ¬ w.Holds (hashKey other)) ∨
        ∃ later ∈ devices, later.tokenHash = other := by
      rcases hdead with ⟨found, hmem, hhash⟩ | hdead
      · rcases List.mem_cons.mp hmem with rfl | hmem
        · exact .inl (.inl hhash.symm)
        · exact .inr ⟨found, hmem, hhash⟩
      · exact .inl (.inr hdead)
    rcases hfirst with hfirst | hlater
    · refine (revokeDevice_deletes h hseen hne hfirst).bind fun _ after hafter => ?_
      exact ih hafter.1 hafter.2.1 (.inr hafter.2.2)
    · refine (ends_ledger _ h).bind fun _ after hafter => ?_
      exact ih hafter.1 (hafter.2.seen hseen) (.inl hlater)

theorem mem_listDevices {device : UserDevice} {key : UInt64 × Bytes}
    (hrow : w.devices.lookup key = some device) (huser : device.userId = userId) :
    device ∈ w.listDevices userId := by
  unfold World.listDevices
  rw [List.mem_insertionSort, List.mem_filter]
  exact ⟨Table.mem_rows.mpr ⟨key, hrow⟩, decide_eq_true huser⟩

theorem HeldByRow.listed {other : Nat} (hsettled : HeldByRow config other userId deviceId token w)
    (h : Settles config client w) :
    (∃ device ∈ w.listDevices userId, device.tokenHash = tokenHash config token) ∨
      ¬ w.Holds (tokenKey config token) := by
  by_cases hholds : w.Holds (tokenKey config token)
  · rcases hsettled.covered hholds with hstored | ⟨owner, howed⟩
    · cases hrow : w.devices.lookup (World.deviceKey config userId deviceId) with
      | none =>
        simp only [World.storedHash, hrow, Option.map_none, Option.getD_none] at hstored
        exact absurd hstored.symm (tokenHash_ne_nil config token)
      | some device =>
        simp only [World.storedHash, hrow, Option.map_some, Option.getD_some] at hstored
        have hkey := congrArg Prod.fst (h.inv.keyed _ device hrow)
        exact .inl ⟨device, mem_listDevices hrow hkey, hstored⟩
    · by_cases howner : owner = client
      · subst howner
        exact (h.own _ howed).elim
      · exact absurd howed (h.others owner howner _)
  · exact .inr hholds

theorem HeldByRow.of_ledger {other : Nat} (hledger : Ledger w after)
    (h : HeldByRow config other userId deviceId token w) :
    HeldByRow config other userId deviceId token after :=
  ⟨Minted.of_ledger hledger h.minted, hledger.covered _ _
    (tokenHash_ne_nil config token) h.minted.2 h.covered⟩

theorem kickAllDevices_ends {req : KickAllDevicesRequest} (h : Settles config client w)
    (hsettled : req.userId ≠ 0 →
      ∃ other deviceId, HeldByRow config other req.userId deviceId token w) :
    Ends config refresh client
      (fun resp after => resp.code = 0 → ¬ after.Holds (tokenKey config token))
      (kickAllDevices req) w := by
  have hfail : ∀ (code : ErrorCode) (message : String) (after : World),
      code.toInt32 ≠ 0 → (fillResponse req.requestId code message).code = 0 →
        ¬ after.Holds (tokenKey config token) :=
    fun _ _ _ hcode hok => absurd hok hcode
  unfold kickAllDevices
  refine ends_call trivial h fun authorized after hafter _ hledger => ?_
  split
  · exact hfail .authFailed _ after (by decide)
  split
  · exact hfail .invalidArgument _ after (by decide)
  next huser =>
  refine ends_call trivial hafter fun user next hnext _ hledger' => ?_
  split
  · exact hfail .userNotFound _ next (by decide)
  obtain ⟨other, deviceId, hsettled⟩ := hsettled huser
  replace hsettled := HeldByRow.of_ledger (hledger.trans hledger') hsettled
  rw [DeviceDao.listDevices, if_neg huser]
  refine ends_exec fun choice hguard _ => ?_
  have hfault : choice.fault = .none := hguard.2
  simp only [World.exec, World.execSql, hfault, if_true]
  refine (revokeDevices_deletes (tokenHash_ne_nil config token) _ hnext.inv
    hsettled.minted.2 (HeldByRow.listed hsettled hnext)).bind
    fun revoked last hdead => ?_
  cases revoked with
  | true => exact fun _ => hdead
  | false => exact hfail .serviceUnavailable _ last (by decide)

end Handlers

/-! ## Every history -/

/-- Between the requests nothing is owed, and the recorded tokens stand in their
rows. -/
structure Sound (config : Config) (h : History) : Prop where
  inv : Invariant config h.world
  registered : Registered h.world
  settles : ∀ client key, key ∉ h.world.owed client
  settled : ∀ userId token, userId ≠ 0 → h.RecordedFor config userId token →
    ∃ client deviceId, HeldByRow config client userId deviceId token h.world

theorem Sound.calm (hsound : Sound config h) (client : Nat) : Settles config client h.world :=
  ⟨hsound.inv, fun key hkey => hsound.settles client key hkey, fun other _ => hsound.settles other⟩

def ServedPost (config : Config) (client : Nat) (start : World)
    (request : Request) (reply : Reply) (w : World) : Prop :=
  Settles config client w ∧ ∀ response userId deviceId token,
      Request.outcome request reply = some (response, userId, deviceId, token) →
      Gateway.responseCode response = 0 → deviceId ≠ [] → userId ≠ 0 →
      (∀ req, request = .refreshToken req →
        (start.getDevice config userId deviceId).isSome = true) →
      HeldByRow config client userId deviceId token w

theorem request_ends {w : World} {request : Request}
    (hmanages : Manages request) (h : Settles config client w) :
    Ends config (refreshes request) client (ServedPost config client w request)
      (code config request) w := by
  cases request with
  | login req =>
    refine (login_ends h).bind fun resp after hafter => ⟨hafter.calm, ?_⟩
    rintro _ _ _ _ ⟨⟩ hcode hdevice _ _
    exact hafter.settled hcode hdevice trivial
  | refreshToken req =>
    refine (refreshToken_ends h).bind fun resp after hafter => ⟨hafter.calm, ?_⟩
    rintro _ _ _ _ ⟨⟩ hcode hdevice huser hrow
    exact hafter.settled hcode hdevice ⟨huser, hrow req rfl⟩
  | kickDevice req =>
    refine (kickDevice_ends h).bind fun resp after hafter => ⟨hafter, ?_⟩
    rintro _ _ _ _ ⟨⟩
  | _ => exact hmanages.elim

theorem Sound.step (hsound : Sound config h) {event : Event}
    (hadmits : h.Admits config event) : Sound config (h.step config event) := by
  cases event with
  | env event =>
    refine ⟨(contract config {}).env_inv hsound.inv trivial, hsound.registered.env, ?_, ?_⟩
    · intro client key hkey
      rw [History.step, (env_same h.world event).owed] at hkey
      exact hsound.settles client key hkey
    · intro userId token huser hrecorded
      obtain ⟨client, deviceId, hsettled⟩ := hsound.settled userId token huser hrecorded
      exact ⟨client, deviceId, HeldByRow.of_ledger (env_ledger h.world event) hsettled⟩
  | request request choices =>
    obtain ⟨hmanages, hreliable⟩ := hadmits
    obtain ⟨hmeets, hregistered⟩ := hreliable.setsUnseen hsound.registered
    have hends := ((request_ends hmanages (hsound.calm h.served.length)).and
      (ends_ledger _ hsound.inv)).sound hmeets
    obtain ⟨⟨hcalm, hnew⟩, hinv, hledger⟩ := hends
    refine ⟨hinv, hregistered, ?_, ?_⟩
    · intro client key hkey
      by_cases hclient : client = h.served.length
      · subst hclient
        exact hcalm.own key hkey
      · exact hcalm.others client hclient key hkey
    · rintro userId token huser
        ⟨served, hserved, response, deviceId, houtcome, hcode, hdevice, hrow⟩
      rcases List.mem_cons.mp hserved with rfl | hserved
      · exact ⟨_, deviceId, hnew response userId deviceId token houtcome hcode hdevice huser hrow⟩
      · obtain ⟨client, deviceId, hsettled⟩ := hsound.settled userId token huser
          ⟨served, hserved, response, deviceId, houtcome, hcode, hdevice, hrow⟩
        exact ⟨client, deviceId, HeldByRow.of_ledger hledger hsettled⟩

theorem Sound.run (hsound : Sound config h) {events : List Event}
    (hrun : h.AdmitsRun config events) : Sound config (h.run config events) := by
  induction events generalizing h with
  | nil => exact hsound
  | cons event events ih => exact ih (hsound.step hrun.1) hrun.2

theorem initial_sound (config : Config) : Sound config {} where
  inv := initial_inv config
  registered := initial_registered
  settles _ _ h := absurd h List.not_mem_nil
  settled := by
    rintro _ _ _ ⟨_, h, _⟩
    cases h

/-- After any reliable history, a reliable `KickAllDevices` that is answered OK
has revoked every token that was issued to the user for a device. -/
theorem kickAllDevices_revokes_recorded {events : List Event}
    (hrun : ({} : History).AdmitsRun config events) {req : KickAllDevicesRequest}
    {choices : Nat → Choice}
    (hkick : (({} : History).run config events).Reliable config (.kickAllDevices req) choices) :
    (({} : History).run config events).AllRevoked config req choices
      ((({} : History).run config events).RecordedFor config req.userId) := by
  have hsound := (initial_sound config).run hrun
  generalize ({} : History).run config events = h at hsound hkick ⊢
  intro resp hreply hcode token hrecorded hpasses
  have hends : Ends config false h.served.length
      (fun reply after => ∀ resp, reply = .kicked resp → resp.code = 0 →
        ¬ after.Holds (tokenKey config token))
      (code config (.kickAllDevices req)) h.world :=
    (kickAllDevices_ends (hsound.calm _) fun huser =>
      hsound.settled req.userId token huser hrecorded).bind
      fun resp after hafter other hother => by
        cases hother
        exact hafter
  exact hends.sound (hkick.setsUnseen hsound.registered).1 resp hreply hcode hpasses.holds

/-! ## Runs -/

def quietly (token : Bytes) (_ : Nat) : Choice := { clock := 5, token := token }

def kickAll : KickAllDevicesRequest := ⟨lit "kick", 1⟩

def loggedInFor (deviceId : Bytes) : List Event :=
  [.env (.register alice), .request (.login { aliceLogin with deviceId := deviceId }) (quietly [7])]

theorem kickAllDevices_revokes_laptop :
    let h := ({} : History).run demo (loggedInFor (lit "laptop"))
    (h.serve demo (.kickAllDevices kickAll) (quietly [])).2 =
        .kicked (fillResponse (lit "kick") .ok "OK") ∧
      h.RecordedFor demo 1 [7] ∧
      h.AllRevoked demo kickAll (quietly []) (h.RecordedFor demo 1) :=
  ⟨by decide +kernel,
    ⟨_, List.mem_cons_self, some (fillResponse (lit "login") .ok "OK"), lit "laptop",
      by decide +kernel, rfl, by decide +kernel, fun _ h => nomatch h⟩,
    kickAllDevices_revokes_recorded (by decide +kernel) (by decide +kernel)⟩

/-- A token that was issued without a device outlives `KickAllDevices`. -/
theorem token_without_device_survives :
    ¬ (({} : History).run demo (loggedInFor [])).AllRevoked demo kickAll
      (quietly []) ((({} : History).run demo (loggedInFor [])).IssuedTo 1) := by
  intro h
  refine h (fillResponse (lit "kick") .ok "OK") (by decide +kernel) rfl [7]
    ⟨_, List.mem_cons_self, some (fillResponse (lit "login") .ok "OK"), [], ?_, rfl⟩
    (by decide +kernel)
  decide +kernel

end NebulaIM.Device
