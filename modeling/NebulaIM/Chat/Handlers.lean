import NebulaIM.Chat.Sending

/-!
# The calls of the other handlers

Recalls, acknowledgements, pulls, read marks and new groups commit one
transaction each; the remaining handlers only issue statements that commit by
themselves.
-/

namespace NebulaIM.Chat

open Foundation Foundation.Store
open Backend Protocol Message RelationService ConversationService Admin Push
open Foundation.Wire (Bytes)

variable {α : Type} {requestId : Bytes} {userId : UInt64} {record : MessageRecord}
variable {code : ErrorCode} {request : PullOfflineMessagesRequest}
variable {response : PullOfflineMessagesResponse}
variable {D : Discipline} {start : Db} {past : Calls}

/-! ## Handlers without transactions -/

variable (D start) in
/-- The calls that open no transaction and belong to none. -/
def Loose : Op → Prop
  | .query stmt => Plain D.kinds (D.saved start) stmt
  | .nextId | .nowMs | .generateTraceId => True
  | _ => False

theorem along_of_only {p : Service α} (hp : p.Only (Loose D start)) (hclosed : staged past = none) :
    p.Along (Allowed D start) (fun now _ => Idle past now) past := by
  induction p generalizing past with
  | ret value => exact .refl hclosed
  | call op next ih =>
    have hallowed : Allowed D start past op := by
      cases op with
      | query stmt => exact ⟨hclosed, hp.1⟩
      | commit => exact hp.1.elim
      | exec stmt => exact hp.1.elim
      | _ => trivial
    refine ⟨hallowed, fun answer => ?_⟩
    have hstill : staged (⟨op, answer⟩ :: past) = none := by
      cases op with
      | query _ | nextId | nowMs | generateTraceId => exact hclosed
      | _ => exact hp.1.elim
    exact (ih answer (hp.2 answer) hstill).mono fun now _ hidle =>
      ⟨(List.suffix_cons _ _).trans hidle.later, hidle.closed⟩

theorem only_query {stmt : Stmt} {f : stmt.Res → Service α}
    (hplain : Plain D.kinds (D.saved start) stmt) (hf : ∀ answer, (f answer).Only (Loose D start)) :
    (query stmt >>= f).Only (Loose D start) :=
  ⟨hplain, hf⟩

theorem only_nowMs {f : Int64 → Service α} (hf : ∀ now, (f now).Only (Loose D start)) :
    (nowMs >>= f).Only (Loose D start) :=
  ⟨trivial, hf⟩

theorem canReceiveMessage_only (userId : UInt64) (record : MessageRecord) :
    (canReceiveMessage userId record).Only (Loose D start) := by
  simp only [canReceiveMessage, canReadConversation]
  repeat' split
  all_goals first | exact trivial | exact ⟨trivial, fun _ => trivial⟩

theorem getMessageReadState_only (ctx : RpcContext) (request : GetMessageReadStateRequest) :
    (getMessageReadState ctx request).Only (Loose D start) := by
  simp only [getMessageReadState]
  split
  · trivial
  split
  · trivial
  refine only_query trivial fun found => ?_
  split
  · split
    · trivial
    · exact only_query trivial fun _ => trivial
  · trivial

theorem joinGroup_only (hkind : D.kinds .membership) (ctx : RpcContext)
    (request : MembershipRequest) :
    (joinGroup ctx request).Only (Loose D start) := by
  simp only [joinGroup]
  split
  · trivial
  split
  · trivial
  refine only_query trivial fun user => ?_
  split
  · trivial
  refine only_query trivial fun group => ?_
  split
  · trivial
  refine only_query trivial fun member => ?_
  split
  · trivial
  refine only_query hkind fun added => ?_
  split <;> trivial

theorem leaveGroup_only (hkind : D.kinds .membership) (ctx : RpcContext)
    (request : MembershipRequest) :
    (leaveGroup ctx request).Only (Loose D start) := by
  simp only [leaveGroup]
  split
  · trivial
  split
  · trivial
  refine only_query trivial fun group => ?_
  split
  · trivial
  refine only_query trivial fun member => ?_
  split
  · trivial
  refine only_query trivial fun owner => ?_
  split
  · trivial
  refine only_query hkind fun removed => ?_
  split <;> trivial

theorem flag_only {ctx : RpcContext} {stmt : Int64 → Stmt}
    {f : (now : Int64) → (stmt now).Res → Service CommonResponse}
    (hplain : ∀ now, Plain D.kinds (D.saved start) (stmt now))
    (hf : ∀ now answer, (f now answer).Only (Loose D start)) :
    (if !ctx.authorized then pure (RpcContext.unauthenticated requestId)
      else do
        let now ← nowMs
        let answer ← query (stmt now)
        f now answer : Service CommonResponse).Only (Loose D start) := by
  split
  · trivial
  · exact only_nowMs fun now => only_query (hplain now) (hf now)

theorem cleanupRows_only (hkind : D.kinds .cleanup) (table : CleanupTable)
    (before : Int64) (limit : Nat) (dryRun : Bool) :
    (cleanupRows table before limit dryRun).Only (Loose D start) := by
  simp only [cleanupRows]
  split
  · exact ⟨trivial, fun _ => trivial⟩
  · exact ⟨hkind, fun _ => trivial⟩

theorem runCleanup_only (hkind : D.kinds .cleanup) (options : AdminCleanupOptions)
    (ctx : AdminContext) (request : RunCleanupRequest) :
    (runCleanup options ctx request).Only (Loose D start) := by
  simp only [runCleanup]
  split
  · trivial
  · trivial
  · split
    · trivial
    · refine only_nowMs fun now => ?_
      refine (cleanupRows_only hkind _ _ _ _).bind fun events => ?_
      refine (cleanupRows_only hkind _ _ _ _).bind fun offline => ?_
      refine (cleanupRows_only hkind _ _ _ _).bind fun requests => ?_
      exact (cleanupRows_only hkind _ _ _ _).bind fun receipts => trivial

/-! ## Pushing -/

section Push

variable {around : Surroundings} {options : PushOptions} {retry : PushRetryOptions}
variable {worker : PushWorkerOptions} {data : MessageData}

variable (D start) in
def Savable (data : MessageData) (userId : UInt64) : Prop :=
  D.kinds .offline ∧ ∀ now, D.saved start (offlineCopy userId data now)

theorem saveOffline_only (h : Savable D start data userId) :
    (saveOffline (pushEnv around).toOfflineStore userId data).Only (Loose D start) :=
  only_nowMs fun now => ⟨⟨h.1, rfl, h.2 now⟩, fun _ => trivial⟩

theorem onlineStatuses_only (userId : UInt64) (devices : List Bytes) :
    (onlineStatuses (pushEnv around) userId devices).Only (Loose D start) := by
  induction devices with
  | nil => trivial
  | cons deviceId devices ih =>
    refine Prog.Only.bind trivial fun gateway => ?_
    refine Prog.Only.bind trivial fun conn => ?_
    split
    · exact ih.bind fun _ => trivial
    · exact ih

theorem getOnlineStatuses_only (userId : UInt64) :
    (getOnlineStatuses (pushEnv around) userId).Only (Loose D start) := by
  simp only [getOnlineStatuses]
  split
  · trivial
  · exact onlineStatuses_only userId _

theorem deliverToAll_only (requestId : Bytes) (userId : UInt64)
    (statuses : List OnlineStatus) (delivered : Bool) :
    (deliverToAll (pushEnv around) requestId userId data statuses delivered).Only
      (Loose D start) := by
  induction statuses generalizing delivered with
  | nil => trivial
  | cons status statuses ih => exact ih _

theorem handlePushFailure_only (h : Savable D start data userId) :
    (handlePushFailure (pushEnv around) options retry userId data).Only (Loose D start) := by
  have hcount : (increaseRetryCount (pushEnv around) retry data.messageId
      userId).Only (Loose D start) := by
    simp only [increaseRetryCount]
    change Prog.Only _ (if _ then _ else _)
    split <;> trivial
  simp only [handlePushFailure]
  refine hcount.bind fun count => ?_
  split
  · trivial
  · exact (saveOffline_only h).bind fun _ => trivial

theorem pushToUser_only (requestId : Bytes) (h : Savable D start data userId) :
    (pushToUser (pushEnv around) options retry requestId userId data).Only (Loose D start) := by
  simp only [pushToUser]
  split
  · trivial
  refine (getOnlineStatuses_only userId).bind fun statuses => ?_
  split
  · exact saveOffline_only h
  · refine (deliverToAll_only requestId userId statuses false).bind fun delivered => ?_
    split
    · trivial
    · exact handlePushFailure_only h

theorem pushToMembers_only (requestId : Bytes) (members : List UInt64) (result : PushResult)
    (h : ∀ userId, (options.skipSenderForGroup = true →
      userId ≠ data.fromUserId) → Savable D start data userId) :
    (pushToMembers (pushEnv around) options retry requestId data members
      result).Only (Loose D start) := by
  induction members generalizing result with
  | nil => trivial
  | cons userId members ih =>
    simp only [pushToMembers]
    split
    · exact ih result
    · next hkeep =>
      refine (pushToUser_only requestId (h userId ?_)).bind fun ok => ih _
      exact fun hskip heq => hkeep ⟨hskip, heq⟩

theorem pushToGroup_only (requestId : Bytes) (groupId : UInt64)
    (h : ∀ userId, (options.skipSenderForGroup = true →
      userId ≠ data.fromUserId) → Savable D start data userId) :
    (pushToGroup (pushEnv around) options retry requestId groupId data).Only (Loose D start) := by
  simp only [pushToGroup]
  split
  · trivial
  refine only_query trivial fun members => ?_
  split
  · trivial
  · exact pushToMembers_only requestId members {} h

/-- For whom a record of the topic may leave an offline copy. -/
def Recipient (config : Config) (topic : Bytes) (data : MessageData) (userId : UInt64) : Prop :=
  if topic = config.worker.topicSingle then userId = data.toUserId
  else if topic ≠ config.worker.topicGroup ∧ data.toUserId ≠ 0 then
    userId = data.toUserId
  else
    data.groupId ≠ 0 ∧ (config.push.skipSenderForGroup = true → userId ≠ data.fromUserId)

theorem handleKafkaMessage_only {config : Config} {record : KafkaMessage}
    (h : ∀ data userId, MessageData.parse record.payload = (data, true) →
      Recipient config record.topic data userId → Savable D start data userId) :
    (handleKafkaMessage (pushEnv around) config.push config.retry config.worker
      record).Only (Loose D start) := by
  simp only [handleKafkaMessage]
  split
  · exact trivial
  next data hdata =>
  have hgroup (requestId : Bytes)
      (hrecipient : ∀ userId, (config.push.skipSenderForGroup = true →
        userId ≠ data.fromUserId) → Recipient config record.topic data userId) :
      (do
        let result ← pushToGroup (pushEnv around) config.push config.retry
          requestId data.groupId data
        return result.failedCount = 0 : Service Bool).Only (Loose D start) :=
    (pushToGroup_only requestId data.groupId fun userId hkeep =>
      h data userId hdata (hrecipient userId hkeep)).bind fun _ => trivial
  split
  · next hsingle =>
    simp only [handleSingleMessage]
    split
    · trivial
    · refine pushToUser_only _ (h data _ hdata ?_)
      rw [Recipient, if_pos hsingle]
  split
  · next hsingle htopic =>
    simp only [handleGroupMessage]
    split
    · trivial
    · next hvalid =>
      refine hgroup _ fun userId hkeep => ?_
      rw [Recipient, if_neg hsingle, if_neg fun h => h.1 htopic]
      exact ⟨fun hzero => hvalid (.inr (.inr hzero)), hkeep⟩
  split
  · next hsingle htopic hretry =>
    simp only [handleRetryMessage]
    split
    · next huser =>
      refine pushToUser_only _ (h data _ hdata ?_)
      rw [Recipient, if_neg hsingle, if_pos ⟨htopic, huser⟩]
    split
    · next huser hzero =>
      refine hgroup _ fun userId hkeep => ?_
      rw [Recipient, if_neg hsingle, if_neg fun h => huser h.2]
      exact ⟨hzero, hkeep⟩
    · trivial
  · exact trivial

end Push

/-! ## Recalls -/

/-- A response with code OK follows the commit of the recall, and one that calls the
message recalled follows a look at it. -/
structure RecallExplained (messageId : UInt64) (past : Calls)
    (response : RecallMessageResponse) : Prop where
  ok : response.response.code = ErrorCode.ok.toInt32 → ∃ earlier calls now,
    (⟨.commit, true⟩ : Exchange Op Op.Res) :: earlier <:+ past ∧
      staged earlier = some (⟨.recallMessage messageId now, true⟩ :: calls)
  already : response.response.code = ErrorCode.messageAlreadyRecalled.toInt32 →
    ∃ record, ⟨.query (.getMessageById messageId), some record⟩ ∈ past ∧ record.recalled = true

namespace RecallExplained

variable {messageId : UInt64} {response : RecallMessageResponse}

theorem fail (hok : code ≠ .ok) (halready : code ≠ .messageAlreadyRecalled) :
    RecallExplained messageId past (recallReply requestId code) where
  ok hcode := absurd hcode (ErrorCode.toInt32_ne hok)
  already hcode := by
    cases code <;> first | exact absurd rfl halready | cases hcode

theorem refused (hfound : ⟨.query (.getMessageById messageId), some record⟩ ∈ past)
    (hrecalled : record.recalled = true) :
    RecallExplained messageId past (recallReply requestId .messageAlreadyRecalled) where
  ok hcode := by cases hcode
  already _ := ⟨record, hfound, hrecalled⟩

theorem later (h : RecallExplained messageId past response) (exchange : Exchange Op Op.Res) :
    RecallExplained messageId (exchange :: past) response where
  ok hcode := by
    obtain ⟨earlier, calls, now, hcommit, hstaged⟩ := h.ok hcode
    exact ⟨earlier, calls, now, later_cons _ hcommit, hstaged⟩
  already hcode := by
    obtain ⟨record, hfound, hrecalled⟩ := h.already hcode
    exact ⟨record, List.mem_cons_of_mem _ hfound, hrecalled⟩

end RecallExplained

theorem recallUpdateFailure_along (messageId : UInt64) (hclosed : staged past = none) :
    (recallUpdateFailure requestId messageId).Along (Allowed D start)
      (RecallExplained messageId) past := by
  refine ask trivial hclosed fun latest => ?_
  split
  · next hany =>
    obtain ⟨row, rfl, hrecalled⟩ := (Option.any_eq_true _ _).mp hany
    exact .refused List.mem_cons_self hrecalled
  · exact .fail (by decide) (by decide)

theorem recallTransaction_along (hkind : D.kinds .recall)
    (options : MessageServiceOptions) (traceId : TraceId) (requestId : Bytes)
    {messageId : UInt64} (now : Int64) (hclosed : staged past = none)
    (hfound : ⟨.query (.getMessageById messageId), some record⟩ ∈ past) :
    (recallTransaction options traceId requestId messageId record now).Along
      (Allowed D start) (RecallExplained messageId) past := by
  have hfail {code : ErrorCode} (hok : code ≠ .ok)
      (halready : code ≠ .messageAlreadyRecalled) (past : Calls) :
      RecallExplained messageId past (recallReply requestId code) :=
    .fail hok halready
  refine transaction_along hclosed (fun _ _ => hfail (by decide) (by decide) _)
    (?_ : Prog.Along _ (RecallExplained messageId) _ _) fun _ _ h => h.later _
  refine issue trivial fun ok => ?_
  cases ok with
  | false => exact issue trivial fun _ => recallUpdateFailure_along messageId rfl
  | true =>
  refine issue trivial fun eventId => ?_
  refine Prog.Along.bind (insertEvent_along _
    (rfl : staged _ = some [⟨.recallMessage messageId now, true⟩])) ?_
  intro later ok hevent
  cases ok with
  | false => exact hfail (by decide) (by decide) _
  | true =>
  obtain ⟨event, ⟨createdAt, updatedAt, hstamped⟩, hstaged⟩ := hevent.2 rfl
  have htells : TellsRecall messageId event := by
    rw [hstamped]
    exact ⟨rfl, rfl, rfl⟩
  refine issue trivial fun ok => ?_
  cases ok with
  | false => exact hfail (by decide) (by decide) _
  | true =>
  refine issue trivial fun ok => ?_
  cases ok with
  | false => exact hfail (by decide) (by decide) _
  | true =>
  have hdone := staged_exec (staged_exec hstaged
    (rfl : succeeded (.recalculateUnreadForConversation record.conversationId now) true = true))
    (rfl : succeeded (.markLastMessageRecalled
      record.conversationId record.messageId now) true = true)
  refine issue ⟨_, hdone, .recallMessage now event hkind ?_ htells⟩ fun ok => ?_
  · exact List.mem_cons_of_mem _ (List.mem_cons_of_mem _
      (hevent.1.subset (List.mem_cons_of_mem _
        (List.mem_cons_of_mem _ (List.mem_cons_of_mem _ hfound)))))
  · cases ok with
    | false => exact hfail (by decide) (by decide) _
    | true =>
      exact ⟨fun _ => ⟨_, _, now, List.suffix_refl _, hdone⟩, fun hcode => by cases hcode⟩

theorem recallMessage_along (hkind : D.kinds .recall) (options : MessageServiceOptions)
    (ctx : RpcContext) (request : RecallMessageRequest) :
    (recallMessage options ctx request).Along (Allowed D start)
      (RecallExplained request.messageId) [] := by
  simp only [recallMessage]
  split
  · constructor <;> intro hcode <;> cases hcode
  refine (ensureTraceId_along rfl ctx request.requestId).bind fun now traceId hidle => ?_
  split
  · exact .fail (by decide) (by decide)
  refine ask trivial hidle.closed fun found => ?_
  split
  · next record =>
    split
    · exact .fail (by decide) (by decide)
    split
    · next hrecalled => exact .refused List.mem_cons_self hrecalled
    refine issue trivial fun at_ => ?_
    split
    · exact .fail (by decide) (by decide)
    · exact recallTransaction_along hkind options traceId _ _ hidle.closed
        (List.mem_cons_of_mem _ List.mem_cons_self)
  · exact .fail (by decide) (by decide)

/-! ## Read marks -/

/-- A response with code OK follows a commit of the statements. -/
def Commits (calls : List Call) (past : Calls) (response : CommonResponse) :
    Prop :=
  response.code = ErrorCode.ok.toInt32 →
    ∃ earlier, (⟨.commit, true⟩ : Exchange Op Op.Res) :: earlier <:+ past ∧
      staged earlier = some calls

theorem Commits.fail {calls : List Call} (hcode : code ≠ .ok) (message : String)
    (past : Calls) : Commits calls past (fillResponse requestId code message) :=
  fun hok => absurd hok (ErrorCode.toInt32_ne hcode)

theorem Commits.mono {calls : List Call} {past now : Calls} {response : CommonResponse}
    (h : Commits calls past response) (hlater : past <:+ now) : Commits calls now response := by
  intro hok
  obtain ⟨earlier, hcommit, hstaged⟩ := h hok
  exact ⟨earlier, hcommit.trans hlater, hstaged⟩

theorem recount_along {mark : Stmt} {answer : mark.Res} {conversationId : UInt64}
    {now : Int64} (hstaged : staged past = some [⟨mark, answer⟩])
    (hwork : Work D.kinds D.sent
      (⟨.exec (.recalculateUnread userId conversationId now), true⟩ :: past)
      (readCalls mark answer userId conversationId now)) :
    (recount requestId userId conversationId now).Along (Allowed D start)
      (fun later response => past <:+ later ∧
        Commits (readCalls mark answer userId conversationId now) later response)
      past := by
  refine issue trivial fun ok => ?_
  cases ok with
  | false => exact ⟨List.suffix_cons _ _, .fail (by decide) _ _⟩
  | true =>
    have hdone := staged_exec hstaged
      (rfl : succeeded (.recalculateUnread userId conversationId now) true = true)
    refine issue ⟨_, hdone, hwork⟩ fun ok => ?_
    have hlater : past <:+ ⟨.commit, ok⟩ ::
        ⟨.exec (.recalculateUnread userId conversationId now), true⟩ :: past :=
      later_cons _ (List.suffix_cons _ _)
    cases ok with
    | false => exact ⟨hlater, .fail (by decide) _ _⟩
    | true => exact ⟨hlater, fun _ => ⟨_, List.suffix_refl _, hdone⟩⟩

/-- A response with code OK follows the commit of a mark of the message. -/
def MarksMessage (request : MarkMessageReadRequest) (past : Calls)
    (response : CommonResponse) : Prop :=
  ∃ conversationId now, (response.code = ErrorCode.ok.toInt32 → ⟨.nowMs, now⟩ ∈ past) ∧
    Commits (readCalls (.markRead request.messageId request.userId now) true
      request.userId conversationId now) past response

theorem MarksMessage.fail {request : MarkMessageReadRequest} (hcode : code ≠ .ok)
    (message : String) (past : Calls) :
    MarksMessage request past (fillResponse requestId code message) :=
  ⟨0, 0, fun hok => absurd hok (ErrorCode.toInt32_ne hcode), .fail hcode message past⟩

theorem markReadTransaction_along (hkind : D.kinds .read)
    (request : MarkMessageReadRequest) (hclosed : staged past = none)
    (hfound : ⟨.query (.getMessageById request.messageId), some record⟩ ∈ past) :
    (markReadTransaction request record).Along (Allowed D start) (MarksMessage request) past := by
  refine transaction_along hclosed (fun _ _ => .fail (by decide) _ _)
    (?_ : Prog.Along _ (MarksMessage request) _ _) ?_
  · refine issue trivial fun now => ?_
    refine issue trivial fun ok => ?_
    cases ok with
    | false => exact .fail (by decide) _ _
    | true =>
      refine Prog.Along.mono (recount_along rfl (.markRead _ hkind ?_ ?_)) ?_
      · exact List.mem_cons_of_mem _ (List.mem_cons_of_mem _
          (List.mem_cons_of_mem _ (List.mem_cons_of_mem _ hfound)))
      · exact List.mem_cons_of_mem _ (List.mem_cons_of_mem _ List.mem_cons_self)
      · rintro later response ⟨hlater, hcommits⟩
        exact ⟨record.conversationId, now,
          fun _ => hlater.subset (List.mem_cons_of_mem _ List.mem_cons_self),
          hcommits⟩
  · rintro now response ⟨conversationId, at_, hclock, hcommits⟩
    exact ⟨conversationId, at_, fun hok => List.mem_cons_of_mem _ (hclock hok),
      hcommits.mono (List.suffix_cons _ _)⟩

theorem markMessageRead_along (hkind : D.kinds .read) (ctx : RpcContext)
    (request : MarkMessageReadRequest) :
    (markMessageRead ctx request).Along (Allowed D start) (MarksMessage request) [] := by
  simp only [markMessageRead]
  split
  · exact .fail (by decide) _ _
  split
  · exact .fail (by decide) _ _
  refine ask trivial rfl fun found => ?_
  split
  · next record =>
    refine Prog.Along.bind (along_of_only (canReceiveMessage_only _ _) rfl) ?_
    intro now ok hidle
    split
    · exact .fail (by decide) _ _
    · exact markReadTransaction_along hkind request hidle.closed
        (hidle.later.subset List.mem_cons_self)
  · exact .fail (by decide) _ _

/-- A response with code OK follows the commit of a mark up to the cursor. -/
def MarksConversation (request : MarkConversationReadRequest) (past : Calls)
    (response : CommonResponse) : Prop :=
  ∃ cursor now,
    (response.code = ErrorCode.ok.toInt32 → ⟨.nowMs, now⟩ ∈ past ∧
      ⟨.query (.getMessageById request.upToMessageId), some cursor⟩ ∈ past) ∧
    Commits (readCalls (.markConversationRead request.conversationId
      request.userId request.upToMessageId cursor.createdAt now) true
      request.userId request.conversationId now) past response

theorem MarksConversation.fail {request : MarkConversationReadRequest}
    (hcode : code ≠ .ok) (message : String) (past : Calls) :
    MarksConversation request past (fillResponse requestId code message) :=
  ⟨{}, 0, fun hok => absurd hok (ErrorCode.toInt32_ne hcode), .fail hcode message past⟩

theorem markConversationTransaction_along (hkind : D.kinds .read)
    (request : MarkConversationReadRequest) {cursor : MessageRecord} {now : Int64}
    (hclosed : staged past = none) (hclock : ⟨.nowMs, now⟩ ∈ past)
    (hfound : ⟨.query (.getMessageById request.upToMessageId), some cursor⟩ ∈ past) :
    (markConversationTransaction request cursor now).Along (Allowed D start)
      (MarksConversation request) past := by
  refine transaction_along hclosed (fun _ _ => .fail (by decide) _ _)
    (?_ : Prog.Along _ (MarksConversation request) _ _) ?_
  · refine issue trivial fun ok => ?_
    cases ok with
    | false => exact .fail (by decide) _ _
    | true =>
      refine Prog.Along.mono (recount_along rfl (.markConversationRead _ _ _ _ hkind ?_)) ?_
      · exact List.mem_cons_of_mem _ (List.mem_cons_of_mem _ (List.mem_cons_of_mem _ hclock))
      · rintro later response ⟨hlater, hcommits⟩
        have hpast : past <:+ later := (later_cons _ (List.suffix_cons _ _)).trans hlater
        exact ⟨cursor, now, fun _ => ⟨hpast.subset hclock, hpast.subset hfound⟩, hcommits⟩
  · rintro later response ⟨cursor, at_, hread, hcommits⟩
    refine ⟨cursor, at_, fun hok => ?_, hcommits.mono (List.suffix_cons _ _)⟩
    exact ⟨List.mem_cons_of_mem _ (hread hok).1, List.mem_cons_of_mem _ (hread hok).2⟩

theorem markConversationRead_along (hkind : D.kinds .read) (ctx : RpcContext)
    (request : MarkConversationReadRequest) :
    (markConversationRead ctx request).Along (Allowed D start) (MarksConversation request) [] := by
  have hread : (canReadConversation request.userId request.conversationId).Only
      (Loose D start) := by
    simp only [canReadConversation]
    split
    · trivial
    · exact ⟨trivial, fun _ => trivial⟩
  simp only [markConversationRead]
  split
  · exact .fail (by decide) _ _
  split
  · exact .fail (by decide) _ _
  refine Prog.Along.bind (along_of_only hread rfl) fun now ok hidle => ?_
  split
  · exact .fail (by decide) _ _
  refine ask trivial hidle.closed fun found => ?_
  split
  · next cursor =>
    split
    · exact .fail (by decide) _ _
    refine issue trivial fun at_ => ?_
    exact markConversationTransaction_along hkind request hidle.closed
      List.mem_cons_self (List.mem_cons_of_mem _ List.mem_cons_self)
  · exact .fail (by decide) _ _

/-! ## Acknowledgements, pulls and new groups -/

theorem ackTransaction_along (hkind : D.kinds .ack) (requestId : Bytes)
    (userId : UInt64) {messageId : UInt64} (hclosed : staged past = none)
    (hfound : ⟨.query (.getMessageById messageId), some record⟩ ∈ past) :
    (ackTransaction requestId userId messageId).Along (Allowed D start) (fun _ _ => True) past := by
  refine transaction_along hclosed (fun _ _ => trivial)
    (?_ : Prog.Along _ (fun _ _ => True) _ _) fun _ _ _ => trivial
  refine issue trivial fun now => ?_
  refine issue trivial fun ok => ?_
  cases ok with
  | false => trivial
  | true =>
    refine issue trivial fun ok => ?_
    cases ok with
    | false => trivial
    | true =>
      have hstill : ⟨.query (.getMessageById messageId), some record⟩ ∈
          (⟨.exec (.markAsAcked userId messageId), true⟩ ::
            ⟨.exec (.upsertDelivered messageId userId now), true⟩ ::
            ⟨.nowMs, now⟩ :: ⟨.begin, true⟩ :: past : Calls) :=
        List.mem_cons_of_mem _ (List.mem_cons_of_mem _
          (List.mem_cons_of_mem _ (List.mem_cons_of_mem _ hfound)))
      refine issue ⟨_, rfl, .ack userId now hkind hstill⟩ fun ok => ?_
      cases ok <;> trivial

theorem ackMessage_along (hkind : D.kinds .ack) (ctx : RpcContext) (request : AckMessageRequest) :
    (ackMessage ctx request).Along (Allowed D start) (fun _ _ => True) [] := by
  simp only [ackMessage]
  split
  · trivial
  split
  · trivial
  refine ask trivial rfl fun user => ?_
  split
  · trivial
  refine ask trivial rfl fun found => ?_
  split
  · next record =>
    refine Prog.Along.bind (along_of_only (canReceiveMessage_only _ _) rfl) ?_
    intro now ok hidle
    split
    · trivial
    · exact ackTransaction_along hkind _ _ hidle.closed (hidle.later.subset List.mem_cons_self)
  · trivial

/-- The messages of the answer were listed for the user. -/
def Pulls (request : PullOfflineMessagesRequest) (past : Calls)
    (response : PullOfflineMessagesResponse) : Prop :=
  ∀ data ∈ response.messages, request.userId ≠ 0 ∧ ∃ limit rows row,
      ⟨.query (.listOfflineMessages request.userId limit), rows⟩ ∈ past ∧
      row ∈ rows ∧ MessageData.parse row.payload = (data, true)

theorem Pulls.nothing (h : response.messages = []) : Pulls request past response := by
  intro data hdata
  rw [h] at hdata
  exact absurd hdata List.not_mem_nil

theorem mem_deliverable {rows : List OfflineMessage} {data : MessageData}
    (h : data ∈ (deliverable rows).map Prod.snd) :
    ∃ row ∈ rows, MessageData.parse row.payload = (data, true) := by
  obtain ⟨⟨id, found⟩, hmem, rfl⟩ := List.mem_map.mp h
  obtain ⟨row, hrow, hparse⟩ := List.mem_filterMap.mp hmem
  refine ⟨row, hrow, ?_⟩
  split at hparse
  · next data hdata =>
    cases hparse
    exact hdata
  · cases hparse

theorem Pulls.listed {limit : Nat} {rows : List OfflineMessage} (huser : request.userId ≠ 0)
    (hmessages : response.messages = (deliverable rows).map Prod.snd)
    (hlisted : ⟨.query (.listOfflineMessages request.userId limit), rows⟩ ∈ past) :
    Pulls request past response := by
  intro data hdata
  rw [hmessages] at hdata
  obtain ⟨row, hrow, hparse⟩ := mem_deliverable hdata
  exact ⟨huser, limit, rows, row, hlisted, hrow, hparse⟩

theorem Pulls.later (h : Pulls request past response) (exchange : Exchange Op Op.Res) :
    Pulls request (exchange :: past) response := by
  intro data hdata
  obtain ⟨huser, limit, rows, row, hlisted, hrow, hparse⟩ := h data hdata
  exact ⟨huser, limit, rows, row, List.mem_cons_of_mem _ hlisted, hrow, hparse⟩

theorem pullTransaction_along (hkind : D.kinds .pull) (request : PullOfflineMessagesRequest)
    (limit : Nat) (rows : List OfflineMessage) (hclosed : staged past = none)
    (huser : request.userId ≠ 0)
    (hlisted : ⟨.query (.listOfflineMessages request.userId limit), rows⟩ ∈ past) :
    (pullTransaction request limit rows).Along (Allowed D start) (Pulls request) past := by
  refine transaction_along hclosed (fun _ _ => .nothing rfl)
    (?_ : Prog.Along _ (Pulls request) _ _) fun _ _ h => h.later _
  simp only [markBatchAsPulled]
  split
  · refine issue ⟨[], rfl, .pullNothing hkind⟩ fun ok => ?_
    cases ok with
    | false => exact .nothing rfl
    | true => exact ((Pulls.listed huser rfl hlisted).later _).later _
  · refine issue trivial fun ok => ?_
    cases ok with
    | false => exact .nothing rfl
    | true =>
      refine issue ⟨_, rfl, .pull _ _ hkind⟩ fun ok => ?_
      cases ok with
      | false => exact .nothing rfl
      | true => exact (((Pulls.listed huser rfl hlisted).later _).later _).later _

theorem pullOfflineMessages_along (hkind : D.kinds .pull) (options : MessageServiceOptions)
    (ctx : RpcContext) (request : PullOfflineMessagesRequest) :
    (pullOfflineMessages options ctx request).Along (Allowed D start) (Pulls request) [] := by
  simp only [pullOfflineMessages]
  split
  · exact .nothing rfl
  split
  · exact .nothing rfl
  next huser =>
  refine ask trivial rfl fun user => ?_
  split
  · exact .nothing rfl
  refine ask trivial rfl fun rows => ?_
  exact pullTransaction_along hkind request _ rows rfl huser List.mem_cons_self

theorem createGroup_along (hkind : D.kinds .membership) (ctx : RpcContext)
    (request : CreateGroupRequest) :
    (createGroup ctx request).Along (Allowed D start) (fun _ _ => True) [] := by
  simp only [createGroup]
  split
  · trivial
  split
  · trivial
  refine ask trivial rfl fun user => ?_
  split
  · trivial
  refine issue trivial fun now => ?_
  refine Prog.Along.bind (?_ : Prog.Along _ (fun _ _ => True) _ _) ?_
  · refine transaction_along rfl (fun _ _ => trivial)
      (?_ : Prog.Along _ (fun _ _ => True) _ _) fun _ _ _ => trivial
    refine issue trivial fun answer => ?_
    cases answer with
    | none => trivial
    | some groupId =>
      refine issue trivial fun ok => ?_
      cases ok with
      | false => trivial
      | true =>
        refine issue ⟨_, rfl, .createGroup _ groupId hkind⟩ fun ok => ?_
        cases ok <;> trivial
  · intro later groupId _
    cases groupId <;> trivial

end NebulaIM.Chat
