import NebulaIM.Foundation.Recording
import NebulaIM.Gateway.Router

/-!
# The router as a program

The handlers of the router over uninterpreted calls.  For every packet and
whatever the calls are answered: one reply goes out, unless the connection is
found closed; a user is bound only after the user service has vouched for it; and
a request to the message service acts for the user of the connection's context.
-/

namespace NebulaIM.Gateway

open Foundation NebulaIM.Protocol
open Foundation.Wire (Bytes Field)

variable {userId : UInt64} {type : MessageType} {requestId : Bytes}

/-! ## Calls -/

inductive RouterOp where
  | updateActiveTime (connectionId : Bytes)
  | getContext (connectionId : Bytes)
  | connected (connectionId : Bytes)
  | bindUser (connectionId : Bytes) (userId : UInt64) (token deviceId platform : Bytes)
  | allowLogin
  | allowMessage (userId : UInt64)
  | allowRequest (service : Service)
  | recordSuccess (service : Service)
  | recordFailure (service : Service)
  | accepts
  | taskThrew
  | register (req : RegisterRequest)
  | login (req : LoginRequest)
  | validateToken (req : ValidateTokenRequest)
  | sendSingleMessage (req : SendSingleMessageRequest)
  | sendGroupMessage (req : SendGroupMessageRequest)
  | ackMessage (req : AckMessageRequest)
  | pullOfflineMessages (req : PullOfflineMessagesRequest)
  | setOnline (userId : UInt64) (deviceId connectionId : Bytes)
  | setOfflineAsync (userId : UInt64) (deviceId connectionId : Bytes)
  | refreshOnlineAsync (userId : UInt64) (deviceId connectionId : Bytes)
  | sendPacket (packet : Packet)

@[reducible] def RouterOp.Res : RouterOp → Type
  | .updateActiveTime _ | .recordSuccess _ | .recordFailure _ => Unit
  | .setOfflineAsync _ _ _ | .refreshOnlineAsync _ _ _ | .sendPacket _ => Unit
  | .getContext _ => Option ConnectionContext
  | .connected _ | .bindUser _ _ _ _ _ | .setOnline _ _ _ => Bool
  | .allowLogin | .allowMessage _ | .allowRequest _ => Bool
  | .accepts | .taskThrew => Bool
  | .register _ => Status × RegisterResponse
  | .login _ => Status × LoginResponse
  | .validateToken _ => Status × ValidateTokenResponse
  | .sendSingleMessage _ | .sendGroupMessage _ => Status × SendMessageResponse
  | .ackMessage _ => Status × AckMessageResponse
  | .pullOfflineMessages _ => Status × PullOfflineMessagesResponse

abbrev Routine := Prog RouterOp RouterOp.Res

abbrev RouterOp.ask (op : RouterOp) : Routine op.Res := Prog.perform op

def routerCalls (hasExecutor : Bool) : RouterEnv Routine where
  updateActiveTime connectionId := RouterOp.ask (.updateActiveTime connectionId)
  getContext connectionId := RouterOp.ask (.getContext connectionId)
  connected connectionId := RouterOp.ask (.connected connectionId)
  bindUser connectionId userId token deviceId platform :=
    RouterOp.ask (.bindUser connectionId userId token deviceId platform)
  allowLogin := RouterOp.ask .allowLogin
  allowMessage userId := RouterOp.ask (.allowMessage userId)
  allowRequest service := RouterOp.ask (.allowRequest service)
  recordSuccess service := RouterOp.ask (.recordSuccess service)
  recordFailure service := RouterOp.ask (.recordFailure service)
  hasExecutor := hasExecutor
  accepts := RouterOp.ask .accepts
  taskThrew := RouterOp.ask .taskThrew
  register req := RouterOp.ask (.register req)
  login req := RouterOp.ask (.login req)
  validateToken req := RouterOp.ask (.validateToken req)
  sendSingleMessage req := RouterOp.ask (.sendSingleMessage req)
  sendGroupMessage req := RouterOp.ask (.sendGroupMessage req)
  ackMessage req := RouterOp.ask (.ackMessage req)
  pullOfflineMessages req := RouterOp.ask (.pullOfflineMessages req)
  setOnline userId deviceId connectionId := RouterOp.ask (.setOnline userId deviceId connectionId)
  setOfflineAsync userId deviceId connectionId :=
    RouterOp.ask (.setOfflineAsync userId deviceId connectionId)
  refreshOnlineAsync userId deviceId connectionId :=
    RouterOp.ask (.refreshOnlineAsync userId deviceId connectionId)
  sendPacket packet := RouterOp.ask (.sendPacket packet)

/-- A packet and the connection it came on. -/
structure Received where
  connectionId : Bytes
  packet : Packet
  deriving DecidableEq

abbrev RouterPast := Past RouterOp RouterOp.Res

/-! ## What a handler has to do -/

def sentPacket : RouterOp → Option Packet
  | .sendPacket packet => some packet
  | _ => none

def sentIn (past : RouterPast) : List Packet :=
  past.filterMap fun exchange => sentPacket exchange.op

/-- The response type of a request; the other types have none. -/
def responseType : MessageType → MessageType
  | .registerReq => .registerResp
  | .loginReq => .loginResp
  | .resumeSessionReq => .resumeSessionResp
  | .heartbeatReq => .heartbeatResp
  | .sendSingleMsgReq => .sendSingleMsgResp
  | .sendGroupMsgReq => .sendGroupMsgResp
  | .ackReq => .ackResp
  | .pullOfflineMsgReq => .pullOfflineMsgResp
  | _ => .errorResp

def Answers (request reply : Packet) : Prop :=
  reply.sequenceId = request.sequenceId ∧
    (reply.type = responseType request.type ∨ reply.type = .errorResp)

/-- One reply has gone out, or the connection was found closed. -/
def Replied (request : Packet) (past : RouterPast) : Prop :=
  (∀ connectionId, ⟨.connected connectionId, false⟩ ∉ past) →
    ∃ reply, sentIn past = [reply] ∧ Answers request reply

/-- The user service has answered with this user, to a login or a token. -/
def Vouched (past : RouterPast) (userId : UInt64) : Prop :=
  (∃ req resp, ⟨.login req, (.ok, resp)⟩ ∈ past ∧
    responseCode resp.response = 0 ∧ resp.userId = userId) ∨
  ∃ req validated, ⟨.validateToken req, (.ok, validated)⟩ ∈ past ∧
    tokenRefused validated = false ∧ validated.userId = userId

/-- The connection's context has been read and names this user. -/
def ActsFor (past : RouterPast) (connectionId : Bytes) (userId : UInt64) : Prop :=
  ∃ ctx, ⟨.getContext connectionId, some ctx⟩ ∈ past ∧
    ctx.authenticated = true ∧ ctx.userId = userId

/-- The user in whose name a request to the message service is made. -/
def actingUser : RouterOp → Option UInt64
  | .sendSingleMessage req => some req.fromUserId
  | .sendGroupMessage req => some req.fromUserId
  | .ackMessage req => some req.userId
  | .pullOfflineMessages req => some req.userId
  | _ => none

def Permitted (received : Received) (past : RouterPast) (op : RouterOp) : Prop :=
  (∀ userId, actingUser op = some userId → ActsFor past received.connectionId userId) ∧
  match op with
  | .connected connectionId => connectionId = received.connectionId
  | .bindUser connectionId userId _ _ _ =>
    connectionId = received.connectionId ∧ Vouched past userId
  | .sendPacket reply => sentIn past = [] ∧ Answers received.packet reply
  | _ => True

theorem Vouched.mono {past now : RouterPast} (h : Vouched past userId)
    (hgrows : past <:+ now) : Vouched now userId := by
  rcases h with ⟨req, resp, hmem, hrest⟩ | ⟨req, validated, hmem, hrest⟩
  · exact .inl ⟨req, resp, hgrows.subset hmem, hrest⟩
  · exact .inr ⟨req, validated, hgrows.subset hmem, hrest⟩

theorem ActsFor.mono {past now : RouterPast} {connectionId : Bytes}
    (h : ActsFor past connectionId userId) (hgrows : past <:+ now) :
    ActsFor now connectionId userId := by
  obtain ⟨ctx, hmem, hrest⟩ := h
  exact ⟨ctx, hgrows.subset hmem, hrest⟩

/-- A call that is neither a question about the connection, nor a binding, nor a
request to the message service. -/
def Plain (op : RouterOp) : Prop :=
  actingUser op = none ∧ sentPacket op = none ∧
    match op with
    | .connected _ | .bindUser _ _ _ _ _ => False
    | _ => True

theorem Plain.permitted {op : RouterOp} (h : Plain op) (received : Received)
    (past : RouterPast) : Permitted received past op := by
  refine ⟨fun userId huser => ?_, ?_⟩
  · rw [h.1] at huser
    cases huser
  · cases op <;> first | trivial | exact h.2.2.elim | cases h.2.1

theorem sentIn_cons_none {op : RouterOp} (h : sentPacket op = none)
    (answer : op.Res) (past : RouterPast) :
    sentIn (⟨op, answer⟩ :: past) = sentIn past := by
  simp [sentIn, h]

/-- When every call was permitted, at most one packet has been sent. -/
theorem sentIn_cases {received : Received} {past : RouterPast}
    (h : ∀ later exchange earlier, past = later ++ exchange :: earlier →
      Permitted received earlier exchange.op) :
    sentIn past = [] ∨ ∃ reply, sentIn past = [reply] ∧ Answers received.packet reply := by
  induction past with
  | nil => exact .inl rfl
  | cons exchange past ih =>
    have hpast := ih fun later exchange' earlier hsplit =>
      h (exchange :: later) exchange' earlier (congrArg (exchange :: ·) hsplit)
    obtain ⟨op, answer⟩ := exchange
    cases op
    case sendPacket reply =>
      have ⟨_, hwait, hanswers⟩ := h [] _ past rfl
      exact .inr ⟨reply, congrArg (reply :: ·) hwait, hanswers⟩
    all_goals exact hpast

/-! ## Rules -/

def Gathers {α : Type} (received : Received) (p : Routine α)
    (post : RouterPast → α → Prop) (past : RouterPast) : Prop :=
  p.Along (Permitted received)
    (fun now value => past <:+ now ∧ sentIn now = sentIn past ∧ post now value)
    past

def Handles (received : Received) (p : Routine Unit) (past : RouterPast) : Prop :=
  p.Along (Permitted received) (fun now _ => Replied received.packet now) past

section Rules

variable {α β : Type} {hasExecutor : Bool} {received : Received}
variable {past : RouterPast}

theorem Gathers.ask (op : RouterOp) {post : RouterPast → op.Res → Prop}
    (hpermitted : Permitted received past op) (hquiet : sentPacket op = none)
    (hpost : ∀ answer, post (⟨op, answer⟩ :: past) answer) :
    Gathers received op.ask post past :=
  ⟨hpermitted, fun answer => ⟨List.suffix_cons _ _,
    sentIn_cons_none hquiet answer past, hpost answer⟩⟩

theorem Gathers.plain (op : RouterOp) {post : RouterPast → op.Res → Prop}
    (hplain : Plain op) (hpost : ∀ answer, post (⟨op, answer⟩ :: past) answer) :
    Gathers received op.ask post past :=
  .ask op (hplain.permitted received past) hplain.2.1 hpost

theorem Gathers.act (op : RouterOp) (huser : actingUser op = some userId)
    (hacts : ActsFor past received.connectionId userId) :
    Gathers received op.ask (fun _ _ => True) past := by
  have hpermitted : Permitted received past op := by
    refine ⟨fun user hactor => ?_, ?_⟩
    · cases huser.symm.trans hactor
      exact hacts
    · cases op <;> trivial
  refine .ask op hpermitted ?_ fun _ => trivial
  cases op <;> first | rfl | cases huser

variable {post : RouterPast → α → Prop}

theorem Gathers.pure {value : α} (hpost : post past value) :
    Gathers received (pure value : Routine α) post past :=
  ⟨List.suffix_refl past, rfl, hpost⟩

theorem Gathers.bind {p : Routine α} {f : α → Routine β} {mid : RouterPast → α → Prop}
    {post : RouterPast → β → Prop} (hp : Gathers received p mid past)
    (hf : ∀ now value, past <:+ now → mid now value → Gathers received (f value) post now) :
    Gathers received (p >>= f) post past :=
  Prog.Along.bind hp fun now value ⟨hgrows, hquiet, hmid⟩ =>
    (hf now value hgrows hmid).mono fun _ _ ⟨hgrows', hquiet', hpost⟩ =>
      ⟨hgrows.trans hgrows', hquiet'.trans hquiet, hpost⟩

theorem Gathers.step (op : RouterOp) (hplain : Plain op) {f : op.Res → Routine α}
    (hf : ∀ now answer, past <:+ now → ⟨op, answer⟩ ∈ now → Gathers received (f answer) post now) :
    Gathers received (op.ask >>= f) post past := by
  have hask : Gathers received op.ask (fun now answer => ⟨op, answer⟩ ∈ now) past :=
    .plain op hplain fun _ => List.mem_cons_self
  exact .bind hask hf

theorem Handles.bind {p : Routine α} {f : α → Routine Unit}
    {mid : RouterPast → α → Prop} (hwait : sentIn past = [])
    (hp : Gathers received p mid past)
    (hf : ∀ now value, past <:+ now → sentIn now = [] → mid now value →
      Handles received (f value) now) :
    Handles received (p >>= f) past :=
  Prog.Along.bind hp fun now value ⟨hgrows, hquiet, hmid⟩ =>
    hf now value hgrows (hquiet.trans hwait) hmid

theorem Handles.step (op : RouterOp) (hplain : Plain op) (hwait : sentIn past = [])
    {f : op.Res → Routine Unit}
    (hf : ∀ now answer, past <:+ now → sentIn now = [] → ⟨op, answer⟩ ∈ now →
      Handles received (f answer) now) :
    Handles received (op.ask >>= f) past := by
  have hask : Gathers received op.ask (fun now answer => ⟨op, answer⟩ ∈ now) past :=
    .plain op hplain fun _ => List.mem_cons_self
  exact .bind hwait hask hf

theorem Handles.ite {c : Prop} [Decidable c] {p q : Routine Unit}
    (hpos : c → Handles received p past) (hneg : ¬c → Handles received q past) :
    Handles received (if c then p else q) past := by
  split
  · next h => exact hpos h
  · next h => exact hneg h

theorem Handles.send (hwait : sentIn past = []) {reply : Packet}
    (h : Answers received.packet reply) :
    Handles received (RouterOp.ask (.sendPacket reply)) past := by
  refine ⟨⟨fun _ huser => (nomatch huser), hwait, h⟩, fun _ _ => ⟨reply, ?_, h⟩⟩
  change reply :: sentIn past = [reply]
  rw [hwait]

theorem Handles.sendResponse (hwait : sentIn past = [])
    (htype : type = responseType received.packet.type) (fields : List Field) :
    Handles received ((routerCalls hasExecutor).sendPacket
      (makeResponse type received.packet.sequenceId fields)) past :=
  .send hwait ⟨rfl, .inl htype⟩

theorem Handles.sendError (hwait : sentIn past = []) (code : ErrorCode)
    (message : String) (requestId : Bytes) :
    Handles received (sendError (routerCalls hasExecutor)
      received.packet.sequenceId code message requestId) past :=
  .send hwait ⟨rfl, .inr rfl⟩

theorem Handles.refuse (hwait : sentIn past = []) {code : ErrorCode} {message : String} :
    Handles received (do
      Gateway.sendError (routerCalls hasExecutor) received.packet.sequenceId code message requestId
      return) past :=
  Prog.Along.bind (Handles.sendError hwait code message requestId) fun _ _ hreplied => hreplied

theorem Handles.bindUser {token deviceId platform : Bytes} (hwait : sentIn past = [])
    (hvouched : Vouched past userId) (htype : type = responseType received.packet.type)
    {refused accepted : List Field} :
    Handles received (do
      if !(← (routerCalls hasExecutor).bindUser received.connectionId userId token
          deviceId platform) then
        (routerCalls hasExecutor).setOfflineAsync userId deviceId received.connectionId
        (routerCalls hasExecutor).sendPacket (makeResponse type received.packet.sequenceId refused)
        return
      else
        (routerCalls hasExecutor).sendPacket
          (makeResponse type received.packet.sequenceId accepted)) past := by
  have hbind : Gathers received (RouterOp.ask (.bindUser received.connectionId
      userId token deviceId platform)) (fun _ _ => True) past :=
    .ask _ ⟨fun _ huser => (nomatch huser), rfl, hvouched⟩ rfl fun _ => trivial
  refine .bind hwait hbind fun now bound _ hwait _ => ?_
  refine .ite (fun _ => ?_) fun _ => .sendResponse hwait htype accepted
  refine .step (.setOfflineAsync userId deviceId received.connectionId)
    ⟨rfl, rfl, trivial⟩ hwait fun now _ _ hwait _ => ?_
  have hsent : Handles received ((routerCalls hasExecutor).sendPacket
      (makeResponse type received.packet.sequenceId refused)) now :=
    .sendResponse hwait htype refused
  exact Prog.Along.bind hsent fun _ _ hreplied => hreplied

theorem Handles.connected (hwait : sentIn past = []) {closed : Routine Unit} {rest : Routine Unit}
    (hclosed : ∀ now, past <:+ now → Gathers received closed (fun _ _ => True) now)
    (hrest : ∀ now, past <:+ now → sentIn now = [] → Handles received rest now) :
    Handles received (do
      if !(← (routerCalls hasExecutor).connected received.connectionId) then
        closed
      else rest) past := by
  refine ⟨⟨fun _ huser => (nomatch huser), rfl⟩, fun live => ?_⟩
  have hgrows := List.suffix_cons
    (⟨.connected received.connectionId, live⟩ : Exchange RouterOp RouterOp.Res) past
  cases live with
  | true => exact hrest _ hgrows hwait
  | false =>
    refine (hclosed _ hgrows).mono fun now _ hnow hopen => ?_
    exact (hopen received.connectionId (hnow.1.subset List.mem_cons_self)).elim

/-- The executor calls back once: with the result of the task, or with an error
and a default. -/
theorem Handles.submit {default : α} {task : Routine α} {callback : α → Bool → Routine Unit}
    (hmono : ∀ {now later value}, now <:+ later → post now value → post later value)
    (hwait : sentIn past = [])
    (htask : ∀ now, past <:+ now → Gathers received task post now)
    (hvalue : ∀ now value, past <:+ now → sentIn now = [] → post now value →
      Handles received (callback value false) now)
    (herror : ∀ now, past <:+ now → sentIn now = [] →
      Handles received (callback default true) now) :
    Handles received (submit (routerCalls hasExecutor) default task callback)
      past := by
  refine .step .accepts ⟨rfl, rfl, trivial⟩ hwait fun now accepted hgrows hwait _ => ?_
  refine .ite (fun _ => ?_) fun _ => herror now hgrows hwait
  refine .bind hwait (htask now hgrows) fun now' value hgrows' hwait hpost => ?_
  have hgrows := hgrows.trans hgrows'
  refine .step .taskThrew ⟨rfl, rfl, trivial⟩ hwait fun now'' threw hgrows'' hwait _ => ?_
  refine .ite (fun _ => herror now'' (hgrows.trans hgrows'') hwait) fun _ => ?_
  exact hvalue now'' value (hgrows.trans hgrows'') hwait (hmono hgrows'' hpost)

theorem Handles.requireAuth (hwait : sentIn past = []) {handler : ConnectionContext → Routine Unit}
    (hhandler : ∀ now ctx, past <:+ now → sentIn now = [] →
      ActsFor now received.connectionId ctx.userId →
      Handles received (handler ctx) now) :
    Handles received (requireAuth (routerCalls hasExecutor) received.connectionId
      received.packet.sequenceId handler) past := by
  refine .step (.getContext received.connectionId) ⟨rfl, rfl, trivial⟩ hwait
    fun now found hgrows hwait hmem => ?_
  cases found with
  | none => exact .sendError hwait _ _ _
  | some ctx =>
    refine .ite (fun hauth => ?_) fun _ => .sendError hwait _ _ _
    exact hhandler now ctx hgrows hwait ⟨ctx, hmem, hauth, rfl⟩

theorem Handles.forward {default : α} {service : Service} {call : Routine (Status × α)}
    {setResponse : α → CommonResponse → α} {fields : α → List Field} (hwait : sentIn past = [])
    (htype : type = responseType received.packet.type)
    (hcall : ∀ now, past <:+ now → Gathers received call (fun _ _ => True) now) :
    Handles received (forward (routerCalls hasExecutor) default service call
      setResponse type fields received.connectionId received.packet.sequenceId
      requestId) past := by
  have hcallback (resp : α) (error : Bool) {now : RouterPast} (hwait : sentIn now = []) :
      Handles received (do
        if !(← (routerCalls hasExecutor).connected received.connectionId) then
          return
        if error then
          Gateway.sendError (routerCalls hasExecutor) received.packet.sequenceId
            .serviceUnavailable "gateway rpc executor unavailable" requestId
          return
        (routerCalls hasExecutor).sendPacket
          (makeResponse type received.packet.sequenceId (fields resp))) now := by
    refine .connected hwait (fun _ _ => .pure trivial) fun now _ hwait => ?_
    exact .ite (fun _ => .refuse hwait) fun _ => .sendResponse hwait htype _
  refine .ite (fun _ => ?_) fun _ => .sendError hwait _ _ _
  refine .submit (fun _ _ => trivial) hwait (fun now hgrows => ?_)
    (fun _ resp _ hwait _ => hcallback resp false hwait)
    fun _ _ hwait => hcallback default true hwait
  -- The task: the call, and a note for the circuit breaker.
  refine .bind (hcall now hgrows) fun _ answer _ _ => ?_
  obtain ⟨status, resp⟩ := answer
  cases status with
  | ok =>
    exact .step (.recordSuccess service) ⟨rfl, rfl, trivial⟩ fun _ _ _ _ => .pure trivial
  | failed errorMessage =>
    exact .step (.recordFailure service) ⟨rfl, rfl, trivial⟩ fun _ _ _ _ => .pure trivial

end Rules

/-! ## The handlers -/

section Handlers

variable {hasExecutor : Bool} {received : Received} {past : RouterPast}

theorem handleRegister_handles (htype : received.packet.type = .registerReq)
    (hwait : sentIn past = []) :
    Handles received (handleRegister (routerCalls hasExecutor)
      received.connectionId received.packet) past := by
  unfold handleRegister
  split
  next req parsed _ =>
  refine .ite (fun _ => .refuse hwait) fun _ => ?_
  refine .step .allowLogin ⟨rfl, rfl, trivial⟩ hwait fun _ allowed _ hwait _ => ?_
  refine .ite (fun _ => .refuse hwait) fun _ => ?_
  refine .step (.allowRequest .userService) ⟨rfl, rfl, trivial⟩ hwait fun _ allowed _ hwait _ => ?_
  refine .ite (fun _ => .refuse hwait) fun _ => ?_
  exact .forward hwait (htype ▸ rfl) fun _ _ =>
    .plain (.register req) ⟨rfl, rfl, trivial⟩ fun _ => trivial

theorem handleOwnRequest_handles {Req Resp : Type} {own : OwnRequest Req}
    {parsed : Req × Bool} {badBody : String} {allow : UInt64 → Routine Bool}
    {default : Resp} {call : Req → Routine (Status × Resp)}
    {setResponse : Resp → CommonResponse → Resp} {fields : Resp → List Field}
    (htype : type = responseType received.packet.type) (hwait : sentIn past = [])
    (hallow : ∀ now userId, Gathers received (allow userId) (fun _ _ => True) now)
    (hcall : ∀ now req, ActsFor now received.connectionId (own.user req) →
      Gathers received (call req) (fun _ _ => True) now) :
    Handles received (handleOwnRequest (routerCalls hasExecutor) own parsed badBody
      allow default call setResponse type fields received.connectionId
      received.packet.sequenceId) past := by
  refine .requireAuth hwait fun now auth _ hwait hacts => ?_
  refine .ite (fun _ => .refuse hwait) fun _ => ?_
  dsimp only
  generalize (if own.user parsed.1 = 0 then own.setUser auth.userId parsed.1
    else parsed.1) = req
  refine .ite (fun _ => .refuse hwait) fun hsame => ?_
  refine .bind hwait (hallow now auth.userId) fun now₁ allowed hgrows₁ hwait _ => ?_
  refine .ite (fun _ => .refuse hwait) fun _ => ?_
  refine .step (.allowRequest .messageService) ⟨rfl, rfl, trivial⟩ hwait
    fun now₂ allowed hgrows₂ hwait _ => ?_
  refine .ite (fun _ => .refuse hwait) fun _ => ?_
  refine .forward hwait htype fun now₃ hgrows₃ => hcall now₃ req ?_
  rw [not_not.mp hsame]
  exact hacts.mono ((hgrows₁.trans hgrows₂).trans hgrows₃)

theorem handleSendSingleMessage_handles
    (htype : received.packet.type = .sendSingleMsgReq) (hwait : sentIn past = []) :
    Handles received (handleSendSingleMessage (routerCalls hasExecutor)
      received.connectionId received.packet) past :=
  handleOwnRequest_handles (htype ▸ rfl) hwait
    (fun _ userId => .plain (.allowMessage userId) ⟨rfl, rfl, trivial⟩ fun _ => trivial)
    fun _ req hacts => .act (.sendSingleMessage req) rfl hacts

theorem handleSendGroupMessage_handles
    (htype : received.packet.type = .sendGroupMsgReq) (hwait : sentIn past = []) :
    Handles received (handleSendGroupMessage (routerCalls hasExecutor)
      received.connectionId received.packet) past :=
  handleOwnRequest_handles (htype ▸ rfl) hwait
    (fun _ userId => .plain (.allowMessage userId) ⟨rfl, rfl, trivial⟩ fun _ => trivial)
    fun _ req hacts => .act (.sendGroupMessage req) rfl hacts

theorem handleAck_handles (htype : received.packet.type = .ackReq) (hwait : sentIn past = []) :
    Handles received (handleAck (routerCalls hasExecutor) received.connectionId
      received.packet) past :=
  handleOwnRequest_handles (htype ▸ rfl) hwait (fun _ _ => .pure trivial)
    fun _ req hacts => .act (.ackMessage req) rfl hacts

theorem handlePullOfflineMessages_handles (htype : received.packet.type = .pullOfflineMsgReq)
    (hwait : sentIn past = []) :
    Handles received (handlePullOfflineMessages (routerCalls hasExecutor)
      received.connectionId received.packet) past :=
  handleOwnRequest_handles (htype ▸ rfl) hwait (fun _ _ => .pure trivial)
    fun _ req hacts => .act (.pullOfflineMessages req) rfl hacts

theorem handleHeartbeat_handles (htype : received.packet.type = .heartbeatReq)
    (hwait : sentIn past = []) :
    Handles received (handleHeartbeat (routerCalls hasExecutor)
      received.connectionId received.packet) past := by
  refine .step (.getContext received.connectionId) ⟨rfl, rfl, trivial⟩ hwait
    fun now found _ hwait _ => ?_
  cases found with
  | none => exact .sendResponse hwait (htype ▸ rfl) _
  | some ctx =>
    dsimp only
    split
    · exact .step (.refreshOnlineAsync _ _ _) ⟨rfl, rfl, trivial⟩ hwait
        fun _ _ _ hwait _ => .sendResponse hwait (htype ▸ rfl) _
    · exact .sendResponse hwait (htype ▸ rfl) _

/-! ### Login -/

def LoginVouched (past : RouterPast) (result : LoginResult) : Prop :=
  result.rpcOk = true → responseCode result.resp.response = 0 →
    result.onlineOk = true → Vouched past result.resp.userId

theorem loginTask_gathers (req : LoginRequest) (connectionId deviceId : Bytes) :
    Gathers received (loginTask (routerCalls hasExecutor) req connectionId deviceId)
      LoginVouched past := by
  refine .step (.login req) ⟨rfl, rfl, trivial⟩ fun now answer _ hmem => ?_
  obtain ⟨status, resp⟩ := answer
  cases status with
  | failed errorMessage =>
    exact .step (.recordFailure _) ⟨rfl, rfl, trivial⟩ fun _ _ _ _ => .pure fun hrpc => nomatch hrpc
  | ok =>
    refine .step (.recordSuccess _) ⟨rfl, rfl, trivial⟩ fun now₁ _ hgrows₁ _ => ?_
    split
    · next hcode =>
      have hvouched : Vouched now₁ resp.userId := .inl ⟨req, resp, hgrows₁.subset hmem, hcode, rfl⟩
      refine .step (.setOnline _ _ _) ⟨rfl, rfl, trivial⟩ fun now₂ online hgrows₂ _ => ?_
      cases online with
      | true => exact .pure fun _ _ _ => hvouched.mono hgrows₂
      | false => exact .pure fun _ _ honline => nomatch honline
    · next hcode => exact .pure fun _ hzero => (hcode hzero).elim

theorem loginCallback_handles (htype : received.packet.type = .loginReq)
    (hwait : sentIn past = []) {deviceId platform : Bytes} {result : LoginResult}
    {error : Bool} (hvouched : error = false → LoginVouched past result) :
    Handles received (loginCallback (routerCalls hasExecutor) received.connectionId
      received.packet.sequenceId requestId deviceId platform result error)
      past := by
  refine .connected hwait (fun now _ => ?_) fun now hgrows hwait => ?_
  · dsimp only
    split
    · exact .step (.setOfflineAsync _ _ _) ⟨rfl, rfl, trivial⟩ fun _ _ _ _ => .pure trivial
    · exact .pure trivial
  refine .ite (fun _ => .refuse hwait) fun herror => ?_
  refine .ite (fun hestablished => ?_) fun _ => .sendResponse hwait (htype ▸ rfl) _
  simp only [LoginResult.established, Bool.and_eq_true, beq_iff_eq] at hestablished
  obtain ⟨⟨hrpc, hcode⟩, honline⟩ := hestablished
  have hvouched := hvouched (Bool.eq_false_of_not_eq_true herror) hrpc hcode honline
  exact .bindUser hwait (hvouched.mono hgrows) (htype ▸ rfl)

theorem handleLogin_handles (htype : received.packet.type = .loginReq) (hwait : sentIn past = []) :
    Handles received (handleLogin (routerCalls hasExecutor) received.connectionId
      received.packet) past := by
  unfold handleLogin
  split
  next req parsed _ =>
  refine .ite (fun _ => .refuse hwait) fun _ => ?_
  refine .step .allowLogin ⟨rfl, rfl, trivial⟩ hwait fun _ allowed _ hwait _ => ?_
  refine .ite (fun _ => .refuse hwait) fun _ => ?_
  refine .step (.allowRequest .userService) ⟨rfl, rfl, trivial⟩ hwait fun _ allowed _ hwait _ => ?_
  refine .ite (fun _ => .refuse hwait) fun _ => ?_
  refine .ite (fun _ => ?_) fun _ => .sendError hwait _ _ _
  refine .submit (fun hgrows h hrpc hcode honline => (h hrpc hcode honline).mono hgrows)
    hwait (fun _ _ => loginTask_gathers req _ _)
    (fun _ _ _ hwait hvouched => ?_) fun _ _ hwait => ?_
  · exact loginCallback_handles htype hwait fun _ => hvouched
  · exact loginCallback_handles htype hwait fun herror => nomatch herror

/-! ### Resuming a session -/

def ResumeVouched (past : RouterPast) (result : ResumeResult) : Prop :=
  result.onlineOk = true → Vouched past result.resp.userId

theorem resumeTask_gathers (req : ResumeSessionRequest) (connectionId : Bytes) :
    Gathers received (resumeTask (routerCalls hasExecutor) req connectionId)
      ResumeVouched past := by
  refine .step (.validateToken ⟨req.requestId, req.token⟩) ⟨rfl, rfl, trivial⟩
    fun now answer _ hmem => ?_
  obtain ⟨status, validated⟩ := answer
  cases status with
  | failed errorMessage =>
    exact .step (.recordFailure _) ⟨rfl, rfl, trivial⟩
      fun _ _ _ _ => .pure fun honline => nomatch honline
  | ok =>
    refine .step (.recordSuccess _) ⟨rfl, rfl, trivial⟩ fun now₁ _ hgrows₁ _ => ?_
    split
    · exact .pure fun honline => nomatch honline
    · next hvalid =>
      have hvouched : Vouched now₁ validated.userId :=
        .inr ⟨_, validated, hgrows₁.subset hmem, Bool.eq_false_of_not_eq_true hvalid, rfl⟩
      refine .step (.setOnline _ _ _) ⟨rfl, rfl, trivial⟩ fun now₂ online hgrows₂ _ => ?_
      cases online with
      | true => exact .pure fun _ => hvouched.mono hgrows₂
      | false => exact .pure fun honline => nomatch honline

theorem resumeCallback_handles (htype : received.packet.type = .resumeSessionReq)
    (hwait : sentIn past = []) {req : ResumeSessionRequest} {result : ResumeResult}
    {error : Bool} (hvouched : ResumeVouched past result) :
    Handles received (resumeCallback (routerCalls hasExecutor) req
      received.connectionId received.packet.sequenceId result error) past := by
  refine .connected hwait (fun now _ => ?_) fun now hgrows hwait => ?_
  · dsimp only
    split
    · exact .step (.setOfflineAsync _ _ _) ⟨rfl, rfl, trivial⟩ fun _ _ _ _ => .pure trivial
    · exact .pure trivial
  refine .ite (fun _ => .refuse hwait) fun _ => ?_
  refine .ite (fun hestablished => ?_) fun _ => .sendResponse hwait (htype ▸ rfl) _
  simp only [Bool.and_eq_true, beq_iff_eq] at hestablished
  exact .bindUser hwait ((hvouched hestablished.2).mono hgrows) (htype ▸ rfl)

theorem handleResumeSession_handles (htype : received.packet.type = .resumeSessionReq)
    (hwait : sentIn past = []) :
    Handles received (handleResumeSession (routerCalls hasExecutor)
      received.connectionId received.packet) past := by
  unfold handleResumeSession
  split
  next req parsed _ =>
  refine .ite (fun _ => .refuse hwait) fun _ => ?_
  refine .step .allowLogin ⟨rfl, rfl, trivial⟩ hwait fun _ allowed _ hwait _ => ?_
  refine .ite (fun _ => .refuse hwait) fun _ => ?_
  refine .step (.allowRequest .userService) ⟨rfl, rfl, trivial⟩ hwait fun _ allowed _ hwait _ => ?_
  refine .ite (fun _ => .refuse hwait) fun _ => ?_
  refine .ite (fun _ => .refuse hwait) fun _ => ?_
  refine .submit (fun hgrows h honline => (h honline).mono hgrows) hwait
    (fun _ _ => resumeTask_gathers req _)
    (fun _ _ _ hwait hvouched => ?_) fun _ _ hwait => ?_
  · exact resumeCallback_handles htype hwait hvouched
  · exact resumeCallback_handles htype hwait fun honline => nomatch honline

theorem handlePacket_handles (hasExecutor : Bool) (received : Received) :
    Handles received (handlePacket (routerCalls hasExecutor) received.connectionId
      received.packet) [] := by
  refine .step (.updateActiveTime received.connectionId) ⟨rfl, rfl, trivial⟩ rfl
    fun now _ _ hwait _ => ?_
  split
  case h_1 htype => exact handleRegister_handles htype hwait
  case h_2 htype => exact handleLogin_handles htype hwait
  case h_3 htype => exact handleResumeSession_handles htype hwait
  case h_4 htype => exact handleHeartbeat_handles htype hwait
  case h_5 htype => exact handleSendSingleMessage_handles htype hwait
  case h_6 htype => exact handleSendGroupMessage_handles htype hwait
  case h_7 htype => exact handleAck_handles htype hwait
  case h_8 htype => exact handlePullOfflineMessages_handles htype hwait
  case h_9 => exact .sendError hwait _ _ _

end Handlers

end NebulaIM.Gateway
