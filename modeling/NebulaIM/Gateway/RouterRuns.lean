import NebulaIM.Gateway.Connections
import NebulaIM.Gateway.Routing
import NebulaIM.Protocol.WebSocket

/-!
# Runs of the router

Packets of many connections are handled at the same time over one connection
manager.  The other components answer as they like; connections come, are lost
and are taken out of the manager at any time.
-/

namespace NebulaIM.Gateway

open Foundation NebulaIM.Protocol
open Foundation.Store (Table)
open Foundation.Wire (Bytes Field)

variable {tid : Nat}

/-- The connection manager, and the connections that are no longer connected. -/
structure RouterWorld (Conn : Type) where
  managed : Managed Conn := {}
  down : List Conn := []

/-- The time of a call, and the answer of every component but the connection
manager. -/
structure RouterChoice where
  now : Int64
  answer : (op : RouterOp) → op.Res

inductive RouterEvent (Conn : Type) where
  | addConnection (conn : Option Conn) (peerAddr : Bytes) (now : Int64)
  | markWebSocket (connectionId : Bytes) (websocket : Bool)
  | hangUp (conn : Conn)
  | removeConnection (connectionId : Bytes)

section System

variable {Conn : Type}

def RouterWorld.event (w : RouterWorld Conn) : RouterEvent Conn → RouterWorld Conn
  | .addConnection conn peerAddr now =>
    { w with managed := w.managed.step (.addConnection conn peerAddr now) }
  | .markWebSocket connectionId websocket =>
    { w with managed := w.managed.step (.markWebSocket connectionId websocket) }
  | .hangUp conn => { w with down := conn :: w.down }
  | .removeConnection connectionId =>
    { w with managed := w.managed.step (.removeConnection connectionId) }

variable [DecidableEq Conn]

/-- `getConnection(id)` is set and `connected()`. -/
def RouterWorld.connected (w : RouterWorld Conn) (connectionId : Bytes) : Bool :=
  match w.managed.manager.getConnection connectionId with
  | some conn => decide (conn ∉ w.down)
  | none => false

def RouterWorld.exec (w : RouterWorld Conn) (choice : RouterChoice) :
    (op : RouterOp) → RouterWorld Conn × op.Res
  | .updateActiveTime connectionId =>
    ({ w with
      managed := w.managed.step (.updateActiveTime connectionId choice.now) }, ())
  | .getContext connectionId =>
    (w, (w.managed.manager.getContext connectionId).map TrackedContext.toConnectionContext)
  | .connected connectionId => (w, w.connected connectionId)
  | .bindUser connectionId userId token deviceId platform =>
    ({ w with
      managed := w.managed.step
        (.bindUser connectionId userId token deviceId platform choice.now) },
      (w.managed.manager.bindUser connectionId userId token deviceId platform choice.now).2.1)
  | op => (w, choice.answer op)

/-- Every packet is handled by a thread of its own: its calls on the event loop,
on the executor and in the callback follow each other. -/
def router (hasExecutor : Bool) :
    System Received RouterOp RouterOp.Res (RouterWorld Conn) RouterChoice
      (RouterEvent Conn) Unit where
  code received := handlePacket (routerCalls hasExecutor) received.connectionId received.packet
  exec w _ op choice := w.exec choice op
  env := RouterWorld.event

abbrev RouterPool (Conn : Type) :=
  Pool Received RouterOp RouterOp.Res (Logged (RouterWorld Conn) RouterOp RouterOp.Res) Unit

abbrev RouterAction (Conn : Type) := Action Received RouterChoice (RouterEvent Conn)

def routed (hasExecutor : Bool) (gatewayId : Bytes)
    (actions : List (RouterAction Conn)) : RouterPool Conn :=
  (router hasExecutor).logged.run ⟨⟨{ managed := { manager := { gatewayId } } }, []⟩, []⟩ actions

def repliesTo (pool : RouterPool Conn) (tid : Nat) : List Packet :=
  sentIn (pastOf pool.world.log tid)

theorem routed_recorded (hasExecutor : Bool) (gatewayId : Bytes)
    (actions : List (RouterAction Conn)) :
    Recorded Permitted (fun received past _ => Replied received.packet past)
      (routed hasExecutor gatewayId actions) :=
  Recorded.run (Recorded.initial rfl rfl) (handlePacket_handles hasExecutor) actions

/-! ## Replies -/

/-- From the start of the thread on, its connection is connected. -/
def StaysConnected (hasExecutor : Bool) (gatewayId : Bytes)
    (actions : List (RouterAction Conn)) (tid : Nat) (connectionId : Bytes) : Prop :=
  ∀ before ∈ actions.inits, ((routed hasExecutor gatewayId before).request tid).isSome →
    (routed hasExecutor gatewayId before).world.world.connected connectionId = true

instance decidableStaysConnected (hasExecutor : Bool) (gatewayId : Bytes)
    (actions : List (RouterAction Conn)) (tid : Nat) (connectionId : Bytes) :
    Decidable (StaysConnected hasExecutor gatewayId actions tid connectionId) :=
  List.decidableBAll _ _

theorem found_connected {hasExecutor : Bool} {gatewayId : Bytes}
    {actions : List (RouterAction Conn)} {received : Received}
    (hreq : (routed hasExecutor gatewayId actions).request tid = some received)
    (hstays : StaysConnected hasExecutor gatewayId actions tid received.connectionId)
    (connectionId : Bytes) :
    ⟨.connected connectionId, false⟩ ∉
      pastOf (routed hasExecutor gatewayId actions).world.log tid := by
  intro hmem
  obtain ⟨later, earlier, hsplit⟩ := List.append_of_mem (mem_pastOf.mp hmem)
  have hrecorded := routed_recorded hasExecutor gatewayId actions
  obtain ⟨received', hreq', hpermitted⟩ := hrecorded.calls hsplit
  cases hreq.symm.trans hreq'
  have hid : connectionId = received.connectionId := hpermitted.2
  obtain ⟨before, choice, hbefore, -, hstarted, hanswer⟩ :=
    (router hasExecutor).log_entry rfl hsplit
  have hinits : before ∈ actions.inits :=
    List.mem_inits _ _ |>.mpr ((List.prefix_append before _).trans hbefore)
  have hconnected := hstays before hinits hstarted
  exact Bool.noConfusion (hanswer.trans (hid ▸ hconnected))

/-- Whatever runs beside it, a packet has at most one reply, which answers it; on a
connection that stays connected it has one when its thread is done, and the thread
is done in the end if it is let act again and again. -/
theorem packet_replied_once (hasExecutor : Bool) (gatewayId : Bytes)
    (actions : List (RouterAction Conn)) {tid : Nat} {received : Received}
    (hreq : (routed hasExecutor gatewayId actions).request tid = some received) :
    (repliesTo (routed hasExecutor gatewayId actions) tid = [] ∨
      ∃ reply, repliesTo (routed hasExecutor gatewayId actions) tid = [reply] ∧
        Answers received.packet reply) ∧
    (StaysConnected hasExecutor gatewayId actions tid received.connectionId →
      (routed hasExecutor gatewayId actions).reply tid = some () →
      ∃ reply, repliesTo (routed hasExecutor gatewayId actions) tid = [reply] ∧
        Answers received.packet reply) ∧
    ∀ schedule, System.Fair tid schedule → ∃ count,
      (routed hasExecutor gatewayId
        (actions ++ (List.range count).map schedule)).reply tid = some () := by
  have hrecorded := routed_recorded hasExecutor gatewayId actions
  refine ⟨?_, fun hstays hdone => ?_, fun schedule hfair => ?_⟩
  · refine sentIn_cases fun later exchange earlier hpast => ?_
    obtain ⟨later', earlier', hsplit, rfl⟩ := pastOf_split hpast
    obtain ⟨received', hreq', hpermitted⟩ := hrecorded.calls hsplit
    cases hreq.symm.trans hreq'
    exact hpermitted
  · exact hrecorded.finished hreq hdone (found_connected hreq hstays)
  · obtain ⟨count, value, hreply⟩ := (router hasExecutor).logged.finishes hreq hfair
    refine ⟨count, ?_⟩
    rw [routed, System.run, List.foldl_append]
    exact hreply

end System

def granting (userId : UInt64) : RouterChoice where
  now := 0
  answer
    | .updateActiveTime _ | .recordSuccess _ | .recordFailure _ => ()
    | .setOfflineAsync _ _ _ | .refreshOnlineAsync _ _ _ | .sendPacket _ => ()
    | .getContext _ => none
    | .connected _ | .bindUser _ _ _ _ _ | .setOnline _ _ _ => true
    | .allowLogin | .allowMessage _ | .allowRequest _ | .accepts => true
    | .taskThrew => false
    | .register _ => (.ok, {})
    | .login _ => (.ok, { userId })
    | .validateToken _ => (.ok, { valid := true, userId })
    | .sendSingleMessage _ | .sendGroupMessage _ => (.ok, {})
    | .ackMessage _ => (.ok, {})
    | .pullOfflineMessages _ => (.ok, {})

def firstLogin : Received := ⟨lit "gateway-1-conn-1", ⟨.loginReq, 1, []⟩⟩

def loginRun : List (RouterAction Nat) :=
  .env (.addConnection (some 0) [] 0) :: .spawn firstLogin ::
    List.replicate 11 (.step 0 (granting 5))

theorem firstLogin_replied_once :
    StaysConnected true (lit "gateway-1") loginRun 0 firstLogin.connectionId ∧
      ∃ reply, repliesTo (routed true (lit "gateway-1") loginRun) 0 = [reply] ∧
        Answers firstLogin.packet reply := by
  have hreq : (routed true (lit "gateway-1") loginRun).request 0 =
      some firstLogin := by decide +kernel
  have hstays : StaysConnected true (lit "gateway-1") loginRun 0
      firstLogin.connectionId := by decide +kernel
  have hreplied := packet_replied_once true (lit "gateway-1") loginRun hreq
  exact ⟨hstays, hreplied.2.1 hstays (by decide +kernel)⟩

/-! ## Identities -/

def bindingOf (connectionId : Bytes) : Exchange RouterOp RouterOp.Res → Option UInt64
  | ⟨.bindUser target userId _ _ _, true⟩ =>
    if target = connectionId then some userId else none
  | _ => none

def latestBinding (log : List (Nat × Exchange RouterOp RouterOp.Res))
    (connectionId : Bytes) : Option (Nat × UInt64) :=
  log.findSome? fun entry => (bindingOf connectionId entry.2).map fun userId => (entry.1, userId)

theorem latestBinding_cons_none {connectionId : Bytes} {exchange : Exchange RouterOp RouterOp.Res}
    (h : bindingOf connectionId exchange = none) (tid : Nat)
    (log : List (Nat × Exchange RouterOp RouterOp.Res)) :
    latestBinding ((tid, exchange) :: log) connectionId =
      latestBinding log connectionId := by
  simp [latestBinding, h]

theorem latestBinding_cons_some {connectionId : Bytes} {userId : UInt64}
    {exchange : Exchange RouterOp RouterOp.Res} (h : bindingOf connectionId exchange = some userId)
    (tid : Nat) (log : List (Nat × Exchange RouterOp RouterOp.Res)) :
    latestBinding ((tid, exchange) :: log) connectionId = some (tid, userId) := by
  simp [latestBinding, h]

theorem latestBinding_eq_some {connectionId : Bytes} {userId : UInt64}
    {log : List (Nat × Exchange RouterOp RouterOp.Res)}
    (h : latestBinding log connectionId = some (tid, userId)) :
    ∃ later earlier token deviceId platform, log = later ++
      (tid, ⟨.bindUser connectionId userId token deviceId platform, true⟩) ::
        earlier := by
  obtain ⟨later, ⟨tid', op, answer⟩, earlier, rfl, hentry, -⟩ := List.findSome?_eq_some_iff.mp h
  obtain ⟨user, hbinding, hpair⟩ := Option.map_eq_some_iff.mp hentry
  cases hpair
  cases op
  case bindUser target user' token deviceId platform =>
    cases answer with
    | false => cases hbinding
    | true =>
      simp only [bindingOf] at hbinding
      split at hbinding
      · next htarget =>
        cases hbinding
        subst htarget
        exact ⟨later, earlier, token, deviceId, platform, rfl⟩
      · cases hbinding
  all_goals cases hbinding

section Identities

variable {Conn : Type}

def BoundInLog (l : Logged (RouterWorld Conn) RouterOp RouterOp.Res) : Prop :=
  ∀ ⦃id ctx⦄, l.world.managed.manager.contexts.lookup id = some ctx → ctx.authenticated = true →
    ∃ tid, latestBinding l.log id = some (tid, ctx.userId)

def Inherits (old new : Table Bytes TrackedContext) : Prop :=
  ∀ ⦃id ctx⦄, new.lookup id = some ctx → ctx.authenticated = true →
    ∃ before, old.lookup id = some before ∧ before.authenticated = true ∧ before.userId = ctx.userId

theorem Inherits.insert (old : Table Bytes TrackedContext) (id : Bytes)
    {ctx : TrackedContext} (hctx : ctx.authenticated = false) :
    Inherits old (old.insert id ctx) := by
  intro id' ctx' hlookup hauth
  by_cases hid : id' = id
  · subst hid
    rw [AList.lookup_insert] at hlookup
    cases hlookup
    rw [hctx] at hauth
    cases hauth
  · rw [AList.lookup_insert_ne hid] at hlookup
    exact ⟨ctx', hlookup, hauth, rfl⟩

theorem Inherits.erase (old : Table Bytes TrackedContext) (id : Bytes) :
    Inherits old (old.erase id) := by
  intro id' ctx' hlookup hauth
  by_cases hid : id' = id
  · subst hid
    rw [AList.lookup_erase] at hlookup
    cases hlookup
  · rw [AList.lookup_erase_ne hid] at hlookup
    exact ⟨ctx', hlookup, hauth, rfl⟩

theorem Inherits.modify (old : Table Bytes TrackedContext) (id : Bytes)
    {f : TrackedContext → TrackedContext}
    (hf : ∀ ctx, (f ctx).authenticated = ctx.authenticated ∧ (f ctx).userId = ctx.userId) :
    Inherits old (old.modify id f) := by
  intro id' ctx' hlookup hauth
  by_cases hid : id' = id
  · subst hid
    rw [Table.lookup_modify_self] at hlookup
    obtain ⟨before, hbefore, rfl⟩ := Option.map_eq_some_iff.mp hlookup
    exact ⟨before, hbefore, (hf before).1.symm.trans hauth, (hf before).2.symm⟩
  · rw [Table.lookup_modify_ne f hid] at hlookup
    exact ⟨ctx', hlookup, hauth, rfl⟩

namespace BoundInLog

variable {l : Logged (RouterWorld Conn) RouterOp RouterOp.Res}

theorem of_inherits (h : BoundInLog l) {l' : Logged (RouterWorld Conn) RouterOp RouterOp.Res}
    (hcontexts : Inherits l.world.managed.manager.contexts l'.world.managed.manager.contexts)
    (hlog : ∀ id, latestBinding l'.log id = latestBinding l.log id) :
    BoundInLog l' := by
  intro id ctx hlookup hauth
  obtain ⟨before, hbefore, hauth', huser⟩ := hcontexts hlookup hauth
  obtain ⟨tid, htid⟩ := h hbefore hauth'
  exact ⟨tid, by rw [hlog, htid, huser]⟩

theorem event (h : BoundInLog l) (event : RouterEvent Conn) :
    BoundInLog { l with world := l.world.event event } := by
  refine h.of_inherits ?_ fun _ => rfl
  cases event with
  | addConnection conn peerAddr now => exact .insert _ _ rfl
  | markWebSocket connectionId websocket => exact .modify _ _ fun _ => ⟨rfl, rfl⟩
  | hangUp conn => exact fun _ ctx hlookup hauth => ⟨ctx, hlookup, hauth, rfl⟩
  | removeConnection connectionId => exact .erase _ _

theorem bindUser (h : BoundInLog l) (tid : Nat) (connectionId : Bytes)
    (userId : UInt64) (token deviceId platform : Bytes) (now : Int64) :
    BoundInLog (⟨{ l.world with
        managed := l.world.managed.step
          (.bindUser connectionId userId token deviceId platform now) },
      (tid, ⟨.bindUser connectionId userId token deviceId platform,
        (l.world.managed.manager.bindUser connectionId userId token deviceId
          platform now).2.1⟩) :: l.log⟩ :
        Logged (RouterWorld Conn) RouterOp RouterOp.Res) := by
  intro id ctx hlookup hauth
  simp only [Managed.step, ConnectionManager.bindUser] at hlookup ⊢
  split_ifs at hlookup ⊢ with hinvalid
  · obtain ⟨tid', htid'⟩ := h hlookup hauth
    exact ⟨tid', (latestBinding_cons_none rfl tid l.log).trans htid'⟩
  · cases hctx : l.world.managed.manager.contexts.lookup connectionId with
    | none =>
      simp only [hctx] at hlookup ⊢
      obtain ⟨tid', htid'⟩ := h hlookup hauth
      exact ⟨tid', (latestBinding_cons_none rfl tid l.log).trans htid'⟩
    | some old =>
      simp only [hctx] at hlookup ⊢
      by_cases hid : id = connectionId
      · subst hid
        rw [AList.lookup_insert] at hlookup
        cases hlookup
        refine ⟨tid, latestBinding_cons_some ?_ tid l.log⟩
        exact if_pos rfl
      · rw [AList.lookup_insert_ne hid] at hlookup
        obtain ⟨tid', htid'⟩ := h hlookup hauth
        refine ⟨tid', (latestBinding_cons_none ?_ tid l.log).trans htid'⟩
        exact if_neg (Ne.symm hid)

variable [DecidableEq Conn]

theorem exec (h : BoundInLog l) (tid : Nat) (op : RouterOp) (choice : RouterChoice) :
    BoundInLog (⟨(l.world.exec choice op).1, (tid, ⟨op, (l.world.exec choice op).2⟩) :: l.log⟩ :
        Logged (RouterWorld Conn) RouterOp RouterOp.Res) := by
  have hsame : ∀ ⦃id ctx⦄, l.world.managed.manager.contexts.lookup id = some ctx →
      ctx.authenticated = true → ∃ before,
        l.world.managed.manager.contexts.lookup id = some before ∧
          before.authenticated = true ∧ before.userId = ctx.userId :=
    fun _ ctx hlookup hauth => ⟨ctx, hlookup, hauth, rfl⟩
  cases op
  case bindUser connectionId userId token deviceId platform =>
    exact h.bindUser tid connectionId userId token deviceId platform choice.now
  case updateActiveTime connectionId =>
    refine h.of_inherits (.modify _ _ fun _ => ⟨rfl, rfl⟩) fun id => ?_
    exact latestBinding_cons_none rfl tid l.log
  all_goals
    refine h.of_inherits hsame fun id => ?_
    exact latestBinding_cons_none rfl tid l.log

theorem routed (hasExecutor : Bool) (gatewayId : Bytes) (actions : List (RouterAction Conn)) :
    BoundInLog (routed hasExecutor gatewayId actions).world := by
  refine (router hasExecutor).logged.run_keeps
    (fun tid op choice h => h.exec tid op choice) (fun event h => h.event event)
    ?_ actions
  exact fun _ _ hlookup => nomatch hlookup

end BoundInLog

variable [DecidableEq Conn] {hasExecutor : Bool} {gatewayId : Bytes}
variable {actions : List (RouterAction Conn)}
variable {later before : List (Nat × Exchange RouterOp RouterOp.Res)}
variable {connectionId : Bytes} {userId : UInt64}

theorem context_read_latest {ctx : ConnectionContext}
    (hlog : (routed hasExecutor gatewayId actions).world.log =
      later ++ (tid, ⟨.getContext connectionId, some ctx⟩) :: before)
    (hauth : ctx.authenticated = true) :
    ∃ binder, latestBinding before connectionId = some (binder, ctx.userId) := by
  obtain ⟨actions', choice, -, rfl, -, hanswer⟩ := (router hasExecutor).log_entry rfl hlog
  obtain ⟨tracked, htracked, rfl⟩ := Option.map_eq_some_iff.mp hanswer.symm
  exact BoundInLog.routed hasExecutor gatewayId actions' htracked hauth

theorem latestBinding_vouched {binder : Nat}
    (hlog : (routed hasExecutor gatewayId actions).world.log = later ++ before)
    (hbinder : latestBinding before connectionId = some (binder, userId)) :
    ∃ login, (routed hasExecutor gatewayId actions).request binder = some login ∧
      login.connectionId = connectionId ∧
      Vouched (pastOf before binder) userId := by
  obtain ⟨later', earlier', token, deviceId, platform, hbinding⟩ := latestBinding_eq_some hbinder
  have hsuffix : earlier' <:+ before :=
    hbinding ▸ (List.suffix_cons _ _).trans (List.suffix_append _ _)
  rw [hbinding, ← List.append_assoc] at hlog
  obtain ⟨login, hlogin, -, hid, hvouched⟩ :=
    (routed_recorded hasExecutor gatewayId actions).calls hlog
  exact ⟨login, hlogin, hid.symm, hvouched.mono (pastOf_suffix hsuffix binder)⟩

/-- A request to the message service is made in the name of the user that was bound
last to the packet's connection when the packet was handled, and this binding goes
back to the user service's answer to a packet of the same connection. -/
theorem message_request_acts_for_bound_user (hasExecutor : Bool) (gatewayId : Bytes)
    (actions : List (RouterAction Conn))
    {later earlier : List (Nat × Exchange RouterOp RouterOp.Res)} {tid : Nat}
    {op : RouterOp} {answer : op.Res} {userId : UInt64}
    (hlog : (routed hasExecutor gatewayId actions).world.log =
      later ++ (tid, ⟨op, answer⟩) :: earlier)
    (huser : actingUser op = some userId) :
    ∃ received handled ctx before binder login,
      (routed hasExecutor gatewayId actions).request tid = some received ∧
      earlier = handled ++ (tid, ⟨.getContext received.connectionId, some ctx⟩) :: before ∧
      latestBinding before received.connectionId = some (binder, userId) ∧
      (routed hasExecutor gatewayId actions).request binder = some login ∧
      login.connectionId = received.connectionId ∧
      Vouched (pastOf before binder) userId := by
  obtain ⟨received, hreq, hpermitted⟩ := (routed_recorded hasExecutor gatewayId actions).calls hlog
  -- The packet was handled when its thread read the context.
  obtain ⟨ctx, hread, hauth, rfl⟩ := hpermitted.1 userId huser
  obtain ⟨handled, before, rfl⟩ := List.append_of_mem (mem_pastOf.mp hread)
  have hhandled : (routed hasExecutor gatewayId actions).world.log =
      (later ++ (tid, ⟨op, answer⟩) :: handled) ++
        (tid, ⟨.getContext received.connectionId, some ctx⟩) :: before := by
    rw [hlog, List.append_assoc, List.cons_append]
  obtain ⟨binder, hbinder⟩ := context_read_latest hhandled hauth
  rw [List.append_cons] at hhandled
  obtain ⟨login, hlogin, hid, hvouched⟩ := latestBinding_vouched hhandled hbinder
  exact ⟨received, handled, ctx, before, binder, login, hreq, rfl, hbinder, hlogin, hid, hvouched⟩

end Identities

def firstMessage : Received := ⟨lit "gateway-1-conn-1", ⟨.sendSingleMsgReq, 2, []⟩⟩

def messageRun : List (RouterAction Nat) :=
  loginRun ++ .spawn firstMessage :: List.replicate 6 (.step 1 (granting 5))

theorem firstMessage_acts_for_bound_user :
    (routed true (lit "gateway-1") messageRun).request 1 = some firstMessage ∧ ∃ before binder,
        latestBinding before firstMessage.connectionId = some (binder, 5) ∧
        Vouched (pastOf before binder) 5 := by
  have hlog : (routed true (lit "gateway-1") messageRun).world.log =
      [] ++ (1, ⟨.sendSingleMessage { fromUserId := 5 }, (.ok, {})⟩) ::
        (routed true (lit "gateway-1") messageRun).world.log.tail := by
    rfl
  have hreq : (routed true (lit "gateway-1") messageRun).request 1 =
      some firstMessage := by decide +kernel
  obtain ⟨received, _, _, before, binder, _, hreceived, _, hbinder, _, _, hvouched⟩ :=
    message_request_acts_for_bound_user true (lit "gateway-1") messageRun hlog rfl
  cases hreq.symm.trans hreceived
  exact ⟨hreq, before, binder, hbinder, hvouched⟩

/-! ## Deliveries -/

section Deliveries

variable {Conn : Type} [DecidableEq Conn] {authorized : Bool}
variable {first second : RouterWorld Conn} {requestId connectionId bytes : Bytes}
variable {userId : UInt64} {message : MessageData} {resp : CommonResponse} {conn : Conn}

/-- `DeliverToConnection`: the answer, and what is sent on which connection.  The
connection is looked up in `first` and, under a second lock, its context in
`second`. -/
def deliverToConnection (authorized : Bool) (first second : RouterWorld Conn) (requestId : Bytes)
    (userId : UInt64) (connectionId : Bytes) (message : MessageData) :
    Except InvalidArgument (CommonResponse × Option (Conn × Bytes)) := do
  let refuse (code : ErrorCode) (text : String) := (fillResponse requestId code text, none)
  if !authorized then
    return refuse .authFailed "internal rpc unauthenticated"
  if userId = 0 ∨ connectionId = [] then return refuse .invalidArgument ""
  let some conn := first.managed.manager.getConnection connectionId
    | return refuse .gatewayConnectionNotFound ""
  if conn ∈ first.down then return refuse .gatewayConnectionNotFound ""
  let payload ← encode (makeResponse .pushMsg 0 message.fields)
  let some ctx := second.managed.manager.getContext connectionId
    | return refuse .gatewayConnectionNotFound "connection user mismatch"
  if ctx.userId ≠ userId then
    return refuse .gatewayConnectionNotFound "connection user mismatch"
  return (fillResponse requestId .ok "OK",
    some (conn, if ctx.websocket then encodeFrame .binary payload none else payload))

theorem deliverToConnection_sends
    (h : deliverToConnection authorized first second requestId userId connectionId
      message = .ok (resp, some (conn, bytes))) :
    userId ≠ 0 ∧ first.managed.manager.getConnection connectionId = some conn ∧
      ∃ ctx, second.managed.manager.getContext connectionId = some ctx ∧ ctx.userId = userId := by
  simp only [deliverToConnection, bind, Except.bind, pure, Except.pure] at h
  repeat' split at h
  -- only the two branches that send are left, one for each transport
  all_goals cases h
  all_goals exact ⟨by simp_all, ‹_›, _, ‹_›, by simp_all⟩

theorem Consistent.routed (hasExecutor : Bool) (gatewayId : Bytes)
    (actions : List (RouterAction Conn)) :
    Consistent (routed hasExecutor gatewayId actions).world.world.managed := by
  refine (router hasExecutor).logged.run_keeps
    (p := fun l => Consistent l.world.managed) (fun tid op choice h => ?_)
    (fun event h => ?_) (.initial gatewayId) actions
  · cases op
    case updateActiveTime id => exact h.step (.updateActiveTime id choice.now)
    case bindUser id userId token deviceId platform =>
      exact h.bindUser id userId token deviceId platform choice.now
    all_goals exact h
  · cases event with
    | addConnection conn peerAddr now => exact h.addConnection conn peerAddr now
    | markWebSocket id websocket => exact h.step (.markWebSocket id websocket)
    | hangUp conn => exact h
    | removeConnection id => exact h.removeConnection id

/-- A delivery sends only if its user is the one bound last to the connection, by a
packet of that connection to which the user service has answered with this user. -/
theorem delivery_reaches_bound_user (hasExecutor : Bool) (gatewayId : Bytes)
    (actions : List (RouterAction Conn))
    (h : deliverToConnection authorized first
      (routed hasExecutor gatewayId actions).world.world requestId userId
      connectionId message = .ok (resp, some (conn, bytes))) :
    ∃ binder login, latestBinding (routed hasExecutor gatewayId actions).world.log connectionId =
        some (binder, userId) ∧
      (routed hasExecutor gatewayId actions).request binder = some login ∧
      login.connectionId = connectionId ∧
      Vouched (pastOf (routed hasExecutor gatewayId actions).world.log binder)
        userId := by
  obtain ⟨huser, _, ctx, hctx, rfl⟩ := deliverToConnection_sends h
  -- only `bindUser` gives a context a user
  have hauth : ctx.authenticated = true := by
    by_contra hnot
    exact huser ((if_neg hnot).mp ((Consistent.routed hasExecutor gatewayId actions).identity hctx))
  obtain ⟨binder, hbinder⟩ := BoundInLog.routed hasExecutor gatewayId actions hctx hauth
  obtain ⟨login, hlogin⟩ := latestBinding_vouched (List.nil_append _).symm hbinder
  exact ⟨binder, login, hbinder, hlogin⟩

end Deliveries

theorem firstDelivery_reaches_bound_user : ∃ binder,
    latestBinding (routed true (lit "gateway-1") loginRun).world.log
      firstLogin.connectionId = some (binder, 5) := by
  obtain ⟨bytes, hbytes⟩ : ∃ bytes, deliverToConnection true
      (routed true (lit "gateway-1") loginRun).world.world
      (routed true (lit "gateway-1") loginRun).world.world [] 5
      firstLogin.connectionId {} = .ok (fillResponse [] .ok "OK", some (0, bytes)) := ⟨_, rfl⟩
  obtain ⟨binder, _, hbinder, _⟩ :=
    delivery_reaches_bound_user true (lit "gateway-1") loginRun hbytes
  exact ⟨binder, hbinder⟩

end NebulaIM.Gateway
