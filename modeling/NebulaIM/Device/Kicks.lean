import NebulaIM.Session.Issuing

/-!
# Kicking one device

`KickDevice` reads the device row, looks the connection up in the presence keys,
has the gateway close it, deletes the token key and clears the row.  The results
of the deletions are not looked at, and presence keys that have expired or name
another connection hide the one to be closed.
-/

namespace NebulaIM.Device

open Foundation Session
open Session.TokenManager
open Foundation.Wire (Bytes)
open Protocol

variable {left : Place → Nat → Prop} {w : World} {β : Type} {post : β → World → Prop}
variable {place : Place}
variable {config : Config} {kick : Nat} {req : KickDeviceRequest}
variable {look : Look} {row : UserDevice}

/-- A connection that the kick has to close: when the kick read the device row,
it was open, and authenticated with the token of the row or bound to the
device. -/
structure Target (config : Config) (req : KickDeviceRequest) (look : Look)
    (place : Place) (connection : Connection) : Prop where
  found : look.connections.lookup place = some connection
  connected : connection.connected = true
  authenticated : connection.context.authenticated = true
  session : (∃ row, look.row = some row ∧
      tokenHash config connection.context.token = row.tokenHash) ∨
    (connection.context.userId = req.userId ∧ connection.context.deviceId = req.deviceId)

def Open (w : World) (place : Place) (serial : Nat) : Prop :=
  ∃ connection, w.connections.lookup place = some connection ∧
    connection.serial = serial ∧ connection.connected = true ∧
    connection.context.authenticated = true

def Located (w : World) (req : KickDeviceRequest) (place : Place) : Prop :=
  w.redis (onlineKey req.userId req.deviceId) = some (.string place.1) ∧
    w.redis (connKey req.userId req.deviceId) = some (.string place.2)

/-- What the calls of the kick have to meet: Redis does not refuse to delete the
token, and a presence read succeeds and finds the keys of every connection that
is still to be closed. -/
def KickStep (config : Config) (kick : Nat) (req : KickDeviceRequest)
    (w : World) : Op → Choice → Prop
  | .redis (.del key), choice => isTokenKey key = true → choice.fault ≠ .refused
  | .redis (.get _), choice =>
    ∀ look, w.looked kick = some look → ∀ place connection,
      Target config req look place connection →
      ¬ w.Ended place connection.serial →
      choice.fault = .none ∧ Located w req place
  | _, _ => True

def kickGuard (config : Config) (kick : Nat) (req : KickDeviceRequest) : SessionGuard where
  call w client op choice :=
    w.Fresh config op choice ∧ (client = kick → KickStep config kick req w op choice)

instance (place : Place) (connection : Connection) :
    Decidable (Target config req look place connection) :=
  decidable_of_iff
    (look.connections.lookup place = some connection ∧ connection.connected = true ∧
      connection.context.authenticated = true ∧
      (look.row.any (fun row => tokenHash config connection.context.token = row.tokenHash) = true ∨
        (connection.context.userId = req.userId ∧ connection.context.deviceId = req.deviceId)))
    (by
      simp only [Option.any_eq_true, decide_eq_true_eq]
      exact ⟨fun ⟨h₁, h₂, h₃, h₄⟩ => ⟨h₁, h₂, h₃, h₄⟩, fun h => ⟨h.1, h.2, h.3, h.4⟩⟩)

instance (w : World) (place : Place) : Decidable (Located w req place) :=
  inferInstanceAs (Decidable (_ ∧ _))

/-- Only the entries of the table of connections have to be tried. -/
theorem forall_target (p : Place → Connection → Prop) :
    (∀ entry ∈ look.connections.entries,
        Target config req look entry.1 entry.2 → p entry.1 entry.2) ↔
      ∀ place connection, Target config req look place connection →
        p place connection := by
  refine ⟨fun h place connection htarget => ?_, fun h entry _ => h entry.1 entry.2⟩
  exact h ⟨place, connection⟩ (AList.mem_lookup_iff.mp htarget.found) htarget

instance (w : World) (choice : Choice) :
    (op : Op) → Decidable (KickStep config kick req w op choice)
  | .redis (.del key) =>
    inferInstanceAs (Decidable (isTokenKey key = true → choice.fault ≠ .refused))
  | .redis (.get key) =>
    match h : w.looked kick with
    | none => .isTrue fun look hlook => by
        rw [h] at hlook
        cases hlook
    | some look =>
      decidable_of_iff
        (∀ entry ∈ look.connections.entries, Target config req look entry.1 entry.2 →
          ¬ w.Ended entry.1 entry.2.serial →
          choice.fault = .none ∧ Located w req entry.1)
        (by
          simp only [KickStep, h, Option.some.injEq, forall_eq']
          exact forall_target fun place connection =>
            ¬ w.Ended place connection.serial → choice.fault = .none ∧ Located w req place)
  | .redis (.setEx _ _ _) | .redis (.sadd _ _) | .redis (.srem _ _)
  | .redis (.expire _ _) | .nowMs | .getUserByUsername _ | .getUserById _
  | .generateToken | .sql _ | .getContext _ | .getConnection _
  | .bindUser _ _ _ _ _ | .forceClose _ _ | .removeConnection _
  | .submitOnlineTask _ _ | .takeOnlineTask _ | .rpc | .ask => .isTrue trivial

instance (w : World) (client : Nat) (op : Op) (choice : Choice) :
    Decidable ((kickGuard config kick req).call w client op choice) :=
  inferInstanceAs (Decidable (_ ∧ (client = kick → _)))

instance (w : World) (request : Request) :
    Decidable ((kickGuard config kick req).spawn w request) :=
  .isTrue trivial

instance (w : World) (event : Env) : Decidable ((kickGuard config kick req).env w event) :=
  .isTrue trivial

/-! ## Assertions -/

/-- The kick has read the row, and every target has ended or satisfies `left`. -/
structure Tracked (config : Config) (kick : Nat) (req : KickDeviceRequest)
    (look : Look) (row : UserDevice) (left : Place → Nat → Prop) (w : World) :
    Prop where
  looked : w.looked kick = some look
  found : look.row = some row
  seen : hashKey row.tokenHash ∈ w.seen
  left : ∀ place connection, Target config req look place connection →
    connection.serial < w.accepted ∧
      (w.Ended place connection.serial ∨ left place connection.serial)

theorem Tracked.lasting (left : Place → Nat → Prop) :
    Lasting (Tracked config kick req look row left) := by
  intro a b hledger hlinks h
  refine ⟨hledger.looked kick look h.looked, h.found, hledger.seen h.seen, ?_⟩
  intro place connection htarget
  obtain ⟨hserial, hleft⟩ := h.left place connection htarget
  refine ⟨lt_of_lt_of_le hserial hlinks.accepted, hleft.imp_left ?_⟩
  exact hlinks.ended place connection.serial hserial

theorem Tracked.mono {more : Place → Nat → Prop} (h : Tracked config kick req look row left w)
    (himp : ∀ {place serial}, left place serial → more place serial) :
    Tracked config kick req look row more w := by
  refine ⟨h.looked, h.found, h.seen, ?_⟩
  intro place connection htarget
  obtain ⟨hserial, hleft⟩ := h.left place connection htarget
  exact ⟨hserial, hleft.imp_right himp⟩

def Dead (row : UserDevice) (w : World) : Prop :=
  hashKey row.tokenHash ∈ w.seen ∧ (row.tokenHash ≠ [] → ¬ w.Holds (hashKey row.tokenHash))

theorem Dead.lasting : Lasting (Dead row) := by
  intro a b hledger _ h
  refine ⟨hledger.seen h.1, fun hne hholds => h.2 hne ?_⟩
  exact hledger.forgotten _ h.1 (isTokenKey_hashKey _) hholds

/-- The end of a kick that reports success. -/
def KickDone (config : Config) (kick : Nat) (req : KickDeviceRequest) (w : World) : Prop :=
  ∃ look row, Tracked config kick req look row (fun _ _ => False) w ∧ Dead row w

theorem KickDone.lasting : Lasting (KickDone config kick req) :=
  .exists fun _ => .exists fun _ => (Tracked.lasting _).and Dead.lasting

/-! ## Looking up the connection -/

abbrev kickContract (config : Config) (kick : Nat) (req : KickDeviceRequest) :=
  contract config (kickGuard config kick req)

theorem getPresence_spec {key : Bytes} (part : Place → Bytes)
    (hkey : ∀ {w place}, Located w req place →
      w.redis key = some (.string (part place))) {f : Option Bytes → Service β}
    (hnext : ∀ answer, Triple (kickContract config kick req) kick
        (Tracked config kick req look row fun place serial =>
          left place serial ∧ answer = some (part place))
        (f answer) post) :
    Triple (kickContract config kick req) kick
      (Tracked config kick req look row left) (Redis.get key >>= f) post := by
  refine triple_call _ (Tracked.lasting left).stable ?_ hnext
  intro w choice _ hpre hchoice hchange
  have hkept := (Tracked.lasting left).change hpre hchange
  refine ⟨hkept.looked, hkept.found, hkept.seen, ?_⟩
  intro place connection htarget
  obtain ⟨hserial, hleft⟩ := hkept.left place connection htarget
  refine ⟨hserial, ?_⟩
  by_cases hended : w.Ended place connection.serial
  · exact .inl (hchange.relinked.links.ended place connection.serial
      (hpre.left place connection htarget).1 hended)
  · obtain ⟨hfault, hlocated⟩ := hchoice.2 rfl look hpre.looked place connection htarget hended
    refine hleft.imp_right fun h => ⟨h, ?_⟩
    simp only [World.exec, World.execRedis, hfault, RedisCommand.reply, hkey hlocated]

theorem clearPresence_spec : Triple (kickContract config kick req) kick
      (Tracked config kick req look row left)
      (Gateway.GatewayOnlineManager.clearPresence req.userId req.deviceId)
      fun _ => Tracked config kick req look row left :=
  triple_lasting (Tracked.lasting left) _

theorem isOnline_spec (huser : req.userId ≠ 0) (hdevice : req.deviceId ≠ []) :
    Triple (kickContract config kick req) kick (Tracked config kick req look row fun _ _ => True)
      (isOnline req.userId req.deviceId)
      fun found => Tracked config kick req look row fun place _ =>
        found = some place := by
  unfold isOnline
  rw [if_neg (by simp [huser, hdevice])]
  refine getPresence_spec Prod.fst (fun h => h.1) fun gateway => ?_
  refine getPresence_spec Prod.snd (fun h => h.2) fun conn => ?_
  -- with a key missing, no target can be left
  have hoffline : (gateway = none ∨ conn = none) → Triple (kickContract config kick req) kick
        (Tracked config kick req look row fun place _ =>
          (True ∧ gateway = some place.1) ∧ conn = some place.2)
        (Gateway.GatewayOnlineManager.clearPresence req.userId req.deviceId >>= fun _ => pure none)
        fun found => Tracked config kick req look row fun place _ =>
          found = some place := by
    intro hmissing
    refine Triple.bind clearPresence_spec fun _ =>
      Triple.ret (Tracked.lasting _).stable fun _ h => h.mono ?_
    rintro place _ ⟨⟨_, hgateway⟩, hconn⟩
    rcases hmissing with h | h
    · rw [h] at hgateway
      cases hgateway
    · rw [h] at hconn
      cases hconn
  cases gateway with
  | none => exact hoffline (.inl rfl)
  | some gateway =>
    cases conn with
    | none => exact hoffline (.inr rfl)
    | some conn =>
      refine Triple.ret (Tracked.lasting _).stable fun _ h => h.mono ?_
      rintro place _ ⟨⟨_, hgateway⟩, hconn⟩
      cases hgateway
      cases hconn
      rfl

/-! ## Closing it -/

theorem refuse_spec {requestId : Bytes} (code : ErrorCode) {message : String}
    (hcode : code.toInt32 ≠ 0) :
    Triple (kickContract config kick req) kick (Tracked config kick req look row left)
      (pure (fillResponse requestId code message))
      fun resp => Tracked config kick req look row fun _ _ => resp.code ≠ 0 :=
  Triple.ret (Tracked.lasting left).stable fun _ h => h.mono fun _ => hcode

theorem getConnection_spec {f : Option Nat → Service β} (hnext : ∀ found,
      Triple (kickContract config kick req) kick
        (Tracked config kick req look row fun target serial => target = place ∧ found = some serial)
        (f found) post) :
    Triple (kickContract config kick req) kick
      (Tracked config kick req look row fun target _ => target = place)
      (call (.getConnection place) >>= f) post := by
  refine triple_call _ (Tracked.lasting _).stable ?_ hnext
  intro w choice _ h _ _
  refine ⟨h.looked, h.found, h.seen, ?_⟩
  intro target connection htarget
  obtain ⟨hserial, hended | rfl⟩ := h.left target connection htarget
  · exact ⟨hserial, .inl hended⟩
  refine ⟨hserial, ?_⟩
  by_cases hended : w.Ended target connection.serial
  · exact .inl hended
  · refine .inr ⟨rfl, ?_⟩
    simp only [World.Ended, not_forall] at hended
    obtain ⟨found, hfound, hsame, hopen⟩ := hended
    simp only [World.exec, World.live, hfound, Option.filter_some, hopen, if_true,
      Option.map_some, hsame]

theorem forceClose_spec {serial : Nat} {f : Unit → Service β}
    (hnext : Triple (kickContract config kick req) kick
      (Tracked config kick req look row fun _ _ => False) (f ()) post) :
    Triple (kickContract config kick req) kick
      (Tracked config kick req look row fun target found =>
        target = place ∧ some serial = some found)
      (call (.forceClose place serial) >>= f) post := by
  refine triple_call _ (Tracked.lasting _).stable ?_ fun _ => hnext
  intro w choice _ h _ hchange
  have hkept := (Tracked.lasting _).change h hchange
  refine ⟨hkept.looked, hkept.found, hkept.seen, ?_⟩
  intro target connection htarget
  obtain ⟨hserial, hended | ⟨rfl, hsame⟩⟩ := hkept.left target connection htarget
  · exact ⟨hserial, .inl hended⟩
  obtain rfl := Option.some.inj hsame
  exact ⟨hserial, .inl (w.ended_forceClose target connection.serial)⟩

theorem gateway_kickConnection_spec {gateway : Bytes} {kreq : KickConnectionRequest} :
    Triple (kickContract config kick req) kick
      (Tracked config kick req look row fun target _ => target = (gateway, kreq.connectionId))
      (Gateway.kickConnection gateway kreq)
      fun resp => Tracked config kick req look row fun _ _ => resp.code ≠ 0 := by
  have hlasting : Lasting (Tracked config kick req look row fun target _ =>
      target = (gateway, kreq.connectionId)) := Tracked.lasting _
  unfold Gateway.kickConnection
  refine triple_skip hlasting fun authorized => ?_
  split
  · exact refuse_spec .authFailed (by decide)
  split
  · exact refuse_spec .invalidArgument (by decide)
  refine triple_skip hlasting fun context => ?_
  cases context with
  | none => exact refuse_spec .gatewayConnectionNotFound (by decide)
  | some ctx =>
    dsimp only
    split
    · exact refuse_spec .gatewayConnectionNotFound (by decide)
    split
    · exact refuse_spec .gatewayConnectionNotFound (by decide)
    refine getConnection_spec fun found => ?_
    cases found with
    | none => exact refuse_spec .gatewayConnectionNotFound (by decide)
    | some serial =>
      refine forceClose_spec ?_
      exact Triple.ret (Tracked.lasting _).stable fun _ h => h.mono False.elim

theorem remote_spec {kreq : KickConnectionRequest} (hplace : kreq.connectionId = place.2) :
    Triple (kickContract config kick req) kick
      (Tracked config kick req look row fun target _ => target = place)
      (Gateway.remote {} (Gateway.kickConnection place.1 kreq))
      fun result => Tracked config kick req look row fun _ _ =>
        result.1 = .ok → result.2.code ≠ 0 := by
  have hlasting : Lasting (Tracked config kick req look row fun target _ =>
      target = place) := Tracked.lasting _
  have hfail : ∀ {left : Place → Nat → Prop} (errorMessage : Bytes),
      Triple (kickContract config kick req) kick (Tracked config kick req look row left)
        (pure (.failed errorMessage, {}))
        fun (result : Gateway.Status × CommonResponse) =>
          Tracked config kick req look row fun _ _ =>
            result.1 = .ok → result.2.code ≠ 0 := by
    intro left errorMessage
    refine Triple.ret (Tracked.lasting _).stable fun _ h => h.mono ?_
    rintro _ _ _ ⟨⟩
  have hcall : Triple (kickContract config kick req) kick
      (Tracked config kick req look row fun target _ => target = (place.1, kreq.connectionId))
      (Gateway.kickConnection place.1 kreq)
      fun resp => Tracked config kick req look row fun _ _ => resp.code ≠ 0 :=
    gateway_kickConnection_spec
  rw [hplace] at hcall
  unfold Gateway.remote
  refine triple_skip hlasting fun fate => ?_
  obtain ⟨fault, errorMessage⟩ := fate
  cases fault with
  | refused => exact hfail errorMessage
  | lost => exact Triple.bind hcall fun _ => hfail errorMessage
  | none =>
    refine Triple.bind hcall fun resp => ?_
    exact Triple.ret (Tracked.lasting _).stable fun _ h => h.mono fun h _ => h

theorem kickConnection_spec (requestId : Bytes) : Triple (kickContract config kick req) kick
      (Tracked config kick req look row fun target _ => target = place)
      (kickConnection requestId req.userId place req.deviceId)
      fun ok => Tracked config kick req look row fun _ _ => ok = false := by
  have hlasting : Lasting (Tracked config kick req look row fun target _ =>
      target = place) := Tracked.lasting _
  have hfail : ∀ {left : Place → Nat → Prop}, Triple (kickContract config kick req) kick
        (Tracked config kick req look row left) (pure false)
        fun ok => Tracked config kick req look row fun _ _ => ok = false :=
    Triple.ret (Tracked.lasting _).stable fun _ h => h.mono fun _ => rfl
  unfold kickConnection
  refine triple_skip hlasting fun client => ?_
  split
  · exact hfail
  refine triple_skip hlasting fun breaker => ?_
  split
  · exact hfail
  refine Triple.bind (remote_spec rfl) fun result => ?_
  obtain ⟨status, resp⟩ := result
  cases status with
  | failed errorMessage => exact hfail
  | ok =>
    refine Triple.ret (Tracked.lasting _).stable fun _ h => h.mono fun h => ?_
    exact beq_eq_false_iff_ne.mpr (h rfl)

/-! ## Revoking the device -/

theorem kickLive_spec (huser : req.userId ≠ 0) (hdevice : req.deviceId ≠ []) :
    Triple (kickContract config kick req) kick (Tracked config kick req look row fun _ _ => True)
      (kickLive req.requestId req.userId req.deviceId)
      fun ok => Tracked config kick req look row fun _ _ => ok = false := by
  refine Triple.bind (isOnline_spec huser hdevice) fun found => ?_
  cases found with
  | none =>
    refine Triple.ret (Tracked.lasting _).stable fun _ h => h.mono ?_
    rintro _ _ ⟨⟩
  | some place =>
    refine (kickConnection_spec req.requestId).strengthen fun h => h.mono ?_
    rintro _ _ ⟨rfl⟩
    rfl

theorem deleteToken_spec : Triple (kickContract config kick req) kick
      (Tracked config kick req look row left) (deleteToken row.tokenHash)
      fun _ w => Tracked config kick req look row left w ∧ Dead row w := by
  have hlasting : Lasting fun w => Tracked config kick req look row left w ∧ Dead row w :=
    (Tracked.lasting left).and Dead.lasting
  unfold deleteToken
  split
  · refine triple_call _ (Tracked.lasting left).stable ?_
      fun _ => Triple.ret hlasting.stable fun _ h => h
    intro w choice _ h hchoice hchange
    have hkept := (Tracked.lasting left).change h hchange
    have hfault := hchoice.2 rfl (isTokenKey_hashKey row.tokenHash)
    exact ⟨hkept, hkept.seen, fun _ => w.not_holds_del kick (hashKey row.tokenHash) hfault⟩
  · next hempty =>
    refine Triple.ret (Tracked.lasting left).stable fun _ h => ⟨h, h.seen, ?_⟩
    exact fun hne => absurd hne hempty

theorem revokeDevice_spec (huser : req.userId ≠ 0) (hdevice : req.deviceId ≠ []) :
    Triple (kickContract config kick req) kick (Tracked config kick req look row fun _ _ => True)
      (revokeDevice req.requestId req.userId req.deviceId row.tokenHash)
      fun ok w => ok = true →
        Tracked config kick req look row (fun _ _ => False) w ∧ Dead row w := by
  unfold revokeDevice
  refine Triple.bind (kickLive_spec huser hdevice) fun closed => ?_
  refine Triple.bind deleteToken_spec fun _ => ?_
  have hlasting : Lasting fun w =>
      Tracked config kick req look row (fun _ _ => closed = false) w ∧
        Dead row w := (Tracked.lasting _).and Dead.lasting
  refine Triple.bind (triple_lasting hlasting _) fun _ => ?_
  refine triple_skip hlasting fun now => ?_
  refine Triple.bind (triple_lasting hlasting _) fun deviceOk => ?_
  refine Triple.ret hlasting.stable fun _ h hok => ⟨h.1.mono ?_, h.2⟩
  intro _ _ hclosed
  rw [hclosed, Bool.and_false] at hok
  cases hok

theorem lookDevice_spec {f : Option UserDevice → Service β}
    (hnone : Triple (kickContract config kick req) kick (fun _ => True) (f none)
      post) (hsome : ∀ look row,
      Triple (kickContract config kick req) kick
        (Tracked config kick req look row fun _ _ => True) (f (some row)) post) :
    Triple (kickContract config kick req) kick (fun w => w.looked kick = none)
      (call (.sql (.getDevice req.userId req.deviceId)) >>= f) post := by
  refine triple_call
    (fun answer w => ∀ row, answer = some row →
      ∃ look, Tracked config kick req look row (fun _ _ => True) w)
    looked_none_stable ?_ fun answer => ?_
  · intro w choice hinv hlooked _ _ row hrow
    refine ⟨⟨some row, w.connections⟩, ?_, rfl, ?_, ?_⟩
    · simp only [World.exec, World.execSql] at hrow ⊢
      simp only [World.recordLook, Function.update_self, hlooked, Option.none_or, hrow]
    · simp only [World.exec, World.execSql] at hrow ⊢
      simp [World.recordLook, hrow]
    · intro place connection htarget
      exact ⟨hinv.serials place connection htarget.found, .inr trivial⟩
  · cases answer with
    | none => exact hnone.strengthen fun _ => trivial
    | some row =>
      refine Triple.strengthen (Triple.exists_pre fun look => hsome look row) fun h => h row rfl

theorem kickDevice_spec : Triple (kickContract config kick req) kick (fun w => w.looked kick = none)
      (kickDevice req)
      fun resp w => resp.code = 0 → KickDone config kick req w := by
  have hfail : ∀ {pre : World → Prop} {requestId : Bytes} (code : ErrorCode)
      {message : String}, code.toInt32 ≠ 0 →
      Triple (kickContract config kick req) kick pre (pure (fillResponse requestId code message))
        fun resp w => resp.code = 0 → KickDone config kick req w := by
    intro pre requestId code message hcode
    exact Triple.strengthen (Triple.ret (Stable.const True)
      fun _ _ h => absurd h hcode) fun _ => trivial
  unfold kickDevice
  refine triple_read (fun _ _ => rfl) looked_none_stable fun authorized => ?_
  split
  · exact hfail .authFailed (by decide)
  split
  · exact hfail .invalidArgument (by decide)
  next hvalid =>
  simp only [not_or] at hvalid
  refine triple_read (fun _ _ => rfl) looked_none_stable fun user => ?_
  split
  · exact hfail .userNotFound (by decide)
  rw [DeviceDao.getDevice_eq hvalid.1 hvalid.2]
  refine lookDevice_spec (hfail .deviceNotFound (by decide)) fun look row => ?_
  refine Triple.bind (revokeDevice_spec hvalid.1 hvalid.2) fun revoked => ?_
  cases revoked with
  | false => exact hfail .serviceUnavailable (by decide)
  | true =>
    exact Triple.ret (((Tracked.lasting _).and Dead.lasting).imp _).stable
      fun _ h _ => ⟨look, row, h rfl⟩

/-! ## The guarantee of a kick -/

/-- Nothing is left of the sessions that the kick saw. -/
structure Revoked (config : Config) (req : KickDeviceRequest) (w : World) (look : Look) : Prop where
  token : ∀ row token, look.row = some row →
    tokenHash config token = row.tokenHash → ¬ Passes config w token
  connections : ∀ place connection, Target config req look place connection →
    ¬ Open w place connection.serial

def KickHolds (config : Config) (pool : SessionPool) (kick : Nat)
    (req : KickDeviceRequest) : Prop :=
  pool.request kick = some (.kickDevice req) →
    ∀ resp, pool.reply kick = some (.kicked resp) → resp.code = 0 →
      ∃ look, pool.world.looked kick = some look ∧ look.row.isSome = true ∧
        Revoked config req pool.world look

theorem Tracked.revoked (h : Tracked config kick req look row (fun _ _ => False) w)
    (hdead : Dead row w) : Revoked config req w look := by
  constructor
  · intro other token hother hhash hpasses
    obtain rfl : row = other := Option.some.inj (h.found.symm.trans hother)
    refine hdead.2 (hhash ▸ tokenHash_ne_nil config token) ?_
    exact hhash ▸ hpasses.holds
  · rintro place connection htarget ⟨found, hfound, hserial, hconnected, _⟩
    obtain ⟨_, hended | hleft⟩ := h.left place connection htarget
    · rw [hended found hfound hserial] at hconnected
      cases hconnected
    · exact hleft

/-- What the thread of the kick ends with; the others owe nothing. -/
def KickPost (config : Config) (kick : Nat) (req : KickDeviceRequest)
    (client : Nat) (request : Request) (_ : World) (reply : Reply) (w : World) :
    Prop :=
  client = kick → request = .kickDevice req →
    ∀ resp, reply = .kicked resp → resp.code = 0 → KickDone config kick req w

theorem request_safe {request : Request} (client : Nat) (hinv : Invariant config w)
    (hblank : w.looked client = none) :
    Safe (kickContract config kick req) client
      (KickPost config kick req client request w) (code config request) w := by
  by_cases hkick : client = kick ∧ request = .kickDevice req
  · obtain ⟨rfl, rfl⟩ := hkick
    refine Triple.bind kickDevice_spec (fun resp => ?_) w hinv hblank
    refine Triple.ret (KickDone.lasting.imp _).stable fun _ h _ _ other hother => ?_
    cases hother
    exact h
  · refine (triple_lasting (Lasting.const True) _).mono id ?_ w hinv trivial
    intro reply later _ hclient hrequest
    exact absurd ⟨hclient, hrequest⟩ hkick

/-- In every run in which the kick's own calls meet `KickStep` and generated
tokens are new, an answered kick has revoked the device. -/
theorem kickDevice_revokes {actions : List SessionAction}
    (hrun : (kickGuard config kick req).AdmitsRun (system config) initial actions) :
    KickHolds config ((system config).run initial actions) kick req := by
  have hstart : PoolSafe (kickContract config kick req) (KickPost config kick req) initial :=
    ⟨initial_inv config, fun client thread h => absurd h (by simp [initial])⟩
  obtain ⟨hsafe, _⟩ := (kickContract config kick req).run_safe_blank (fun _ => looked_none_stable)
    (fun client hinv hblank _ => request_safe client hinv hblank) hstart
    (fun _ _ => rfl) (admits_setsUnseen hrun fun h => h.1).1
  intro hrequest resp hreply hcode
  obtain ⟨_, hpost⟩ := hsafe.answer hrequest hreply
  obtain ⟨look, row, htracked, hdead⟩ := hpost rfl rfl resp rfl hcode
  exact ⟨look, htracked.looked, htracked.found ▸ rfl, htracked.revoked hdead⟩

/-! ## Runs -/

def laptop : KickDeviceRequest := ⟨lit "kick", 1, lit "laptop"⟩

def loginPacket : Packet where
  type := .loginReq
  sequenceId := 1
  body := Foundation.Wire.encode
    [.bytes 2 (lit "alice"), .bytes 3 (lit "secret"), .bytes 4 (lit "laptop")]

def deleteRefused : SessionPool :=
  (system demo).run initial <|
    loggedIn ++ [.spawn (.kickDevice laptop)] ++ steps 1 8 ++
      [.step 1 { fault := .refused }] ++ steps 1 5

def connected : List SessionAction :=
  [.env (.register alice), .env (.accept (lit "g")),
    .spawn (.packet (lit "g", lit "g-conn-1") loginPacket)] ++
  steps 0 17 ++ [.step 0 { granted := false }] ++ steps 0 2

def presenceExpired : SessionPool :=
  (system demo).run initial <|
    connected ++ [.env (.expire (onlineKey 1 (lit "laptop")))] ++
      [.spawn (.kickDevice laptop)] ++ steps 1 14

def presenceKept : List SessionAction := connected ++ [.spawn (.kickDevice laptop)] ++ steps 1 18

theorem kickDevice_revokes_laptop : ((system demo).run initial presenceKept).reply 1 =
        some (.kicked (fillResponse (lit "kick") .ok "OK")) ∧
      KickHolds demo ((system demo).run initial presenceKept) 1 laptop :=
  ⟨by decide +kernel, kickDevice_revokes (by decide +kernel)⟩

def laptopRow : UserDevice where
  userId := 1
  deviceId := lit "laptop"
  tokenHash := tokenHash demo [7]
  lastLoginAt := 5
  lastActiveAt := 5
  createdAt := 5
  updatedAt := 5

def laptopConnection : Connection := ⟨0, ⟨lit "g-conn-1", 1, [7], lit "laptop", [], true⟩, true⟩

/-- Both kicks are answered OK.  After the first the token still passes, since
the refused deletion went unnoticed; after the second the connection is still
open and authenticated. -/
theorem kicked_sessions_survive : ¬ KickHolds demo deleteRefused 1 laptop ∧
      ¬ KickHolds demo presenceExpired 1 laptop := by
  constructor
  · intro h
    obtain ⟨look, hlook, _, hrevoked⟩ := h (by decide +kernel)
      (fillResponse (lit "kick") .ok "OK") (by decide +kernel) rfl
    have hrow : (deleteRefused.world.looked 1).map Look.row =
        some (some laptopRow) := by decide +kernel
    rw [hlook] at hrow
    exact hrevoked.token laptopRow [7] (Option.some.inj hrow) rfl (by decide +kernel)
  · intro h
    obtain ⟨look, hlook, _, hrevoked⟩ := h (by decide +kernel)
      (fillResponse (lit "kick") .ok "OK") (by decide +kernel) rfl
    have hfound : (presenceExpired.world.looked 1).map
        (·.connections.lookup (lit "g", lit "g-conn-1")) =
          some (some laptopConnection) := by decide +kernel
    rw [hlook] at hfound
    refine hrevoked.connections _ laptopConnection
      ⟨Option.some.inj hfound, rfl, rfl, .inr ⟨rfl, rfl⟩⟩
      ⟨laptopConnection, by decide +kernel, rfl, rfl, rfl⟩

end NebulaIM.Device
