import NebulaIM.Chat.Transactions

/-!
# The calls of the send handlers

`SendSingleMessage` and `SendGroupMessage` commit a message, the rows of those
who see it and its event together, and answer OK for such a commit or for a
message that was found.
-/

namespace NebulaIM.Chat

open Foundation Foundation.Store
open Backend Protocol Message
open Foundation.Wire (Bytes)

variable {now : Calls} {code : ErrorCode}
variable {D : Discipline} {start : Db} {past : Calls} {α : Type} {post : Calls → α → Prop}

/-! ## Calls outside transactions -/

/-- Later, and outside a transaction. -/
structure Idle (past now : Calls) : Prop where
  later : past <:+ now
  closed : staged now = none

theorem Idle.refl (h : staged past = none) : Idle past past := ⟨List.suffix_refl past, h⟩

theorem ask {stmt : Stmt} {f : stmt.Res → Service α} (hplain : Plain D.kinds (D.saved start) stmt)
    (hclosed : staged past = none)
    (hf : ∀ answer, (f answer).Along (Allowed D start) post (⟨.query stmt, answer⟩ :: past)) :
    (query stmt >>= f).Along (Allowed D start) post past :=
  ⟨⟨hclosed, hplain⟩, hf⟩

theorem issue {op : Op} {f : op.Res → Service α} (hop : Allowed D start past op)
    (hf : ∀ answer, (f answer).Along (Allowed D start) post (⟨op, answer⟩ :: past)) :
    (call op >>= f).Along (Allowed D start) post past :=
  ⟨hop, hf⟩

theorem transaction_along {unavailable : α} {body : Service α} {mid : Calls → α → Prop}
    (hclosed : staged past = none) (hunavailable : ∀ now, Idle past now → post now unavailable)
    (hbody : body.Along (Allowed D start) mid (⟨.begin, true⟩ :: past))
    (hend : ∀ now value, mid now value → post (⟨.rollback, ()⟩ :: now) value) :
    (transaction unavailable body).Along (Allowed D start) post past := by
  refine issue trivial fun ok => ?_
  cases ok with
  | false => exact hunavailable _ ⟨List.suffix_cons _ _, hclosed⟩
  | true =>
    refine hbody.bind fun now value hmid => ?_
    exact issue trivial fun _ => hend now value hmid

theorem staged_exec {calls : List Call} {stmt : Stmt} {answer : stmt.Res}
    (h : staged now = some calls) (hanswer : succeeded stmt answer = true) :
    staged (⟨.exec stmt, answer⟩ :: now) = some (calls ++ [⟨stmt, answer⟩]) := by
  simp [staged, h, hanswer]

variable {past : Calls}

theorem later_cons (exchange : Exchange Op Op.Res) (h : past <:+ now) : past <:+ exchange :: now :=
  h.trans (List.suffix_cons _ _)

theorem ensureTraceId_along (hclosed : staged past = none) (ctx : RpcContext) (requestId : Bytes) :
    (ensureTraceId ctx requestId).Along (Allowed D start) (fun now _ => Idle past now)
      past := by
  have hgenerated : (generateTraceId).Along (Allowed D start) (fun now _ => Idle past now) past :=
    ⟨trivial, fun _ => ⟨List.suffix_cons _ _, hclosed⟩⟩
  simp only [ensureTraceId]
  repeat' split
  all_goals first | exact .refl hclosed | exact hgenerated

/-! ## A message that was sent before -/

/-- A call returned the row as one of the sender and sequence. -/
structure Found (fromUserId : UInt64) (clientSequenceId : UInt32) (past : Calls)
    (row : MessageRecord) : Prop where
  numbered : clientSequenceId ≠ 0
  returned : (∃ id, ⟨.query (.getMessageById id), some row⟩ ∈ past ∧
      row.fromUserId = fromUserId ∧ row.clientSequenceId = clientSequenceId) ∨
    ⟨.query (.getMessageByClientSequence fromUserId clientSequenceId), some row⟩ ∈ past

theorem Found.mono {fromUserId : UInt64} {clientSequenceId : UInt32}
    {row : MessageRecord} (h : Found fromUserId clientSequenceId past row)
    (hlater : past <:+ now) : Found fromUserId clientSequenceId now row := by
  refine ⟨h.numbered, ?_⟩
  rcases h.returned with ⟨id, hmem, hsame⟩ | hmem
  · exact .inl ⟨id, hlater.subset hmem, hsame⟩
  · exact .inr (hlater.subset hmem)

variable (fromUserId : UInt64) (clientSequenceId : UInt32)

/-- What the lookups promise about the row they return. -/
structure Lookup (past now : Calls) (found : Option MessageRecord) : Prop where
  idle : Idle past now
  found : ∀ row, found = some row → Found fromUserId clientSequenceId now row

theorem Lookup.none (h : Idle past now) :
    Lookup fromUserId clientSequenceId past now none :=
  ⟨h, fun _ hrow => nomatch hrow⟩

theorem getMessageByClientSequence_along (hclosed : staged past = none) :
    (getMessageByClientSequence fromUserId clientSequenceId).Along (Allowed D start)
      (Lookup fromUserId clientSequenceId past) past := by
  simp only [getMessageByClientSequence]
  split
  · exact .none _ _ (.refl hclosed)
  · next hnumbered =>
    refine ⟨⟨hclosed, trivial⟩, fun found => ⟨⟨List.suffix_cons _ _, hclosed⟩, ?_⟩⟩
    rintro row rfl
    exact ⟨fun hzero => hnumbered (.inr hzero), .inr List.mem_cons_self⟩

theorem getExistingMessageId_along (hclosed : staged past = none) :
    (MessageDeduplicator.getExistingMessageId fromUserId clientSequenceId).Along (Allowed D start)
      (fun now found => Idle past now ∧ (found ≠ none → clientSequenceId ≠ 0))
      past := by
  simp only [MessageDeduplicator.getExistingMessageId]
  split
  · exact ⟨.refl hclosed, fun hfound => absurd rfl hfound⟩
  · next hnumbered =>
    exact issue trivial fun value => ⟨⟨List.suffix_cons _ _, hclosed⟩, fun _ => hnumbered⟩

theorem cachedMessage_along (hclosed : staged past = none) :
    (cachedMessage fromUserId clientSequenceId).Along (Allowed D start)
      (Lookup fromUserId clientSequenceId past) past := by
  refine (getExistingMessageId_along fromUserId clientSequenceId hclosed).bind ?_
  rintro now value ⟨hidle, hnumbered⟩
  cases value with
  | none => exact .none _ _ hidle
  | some messageId =>
    refine ask trivial hidle.closed fun found => ?_
    refine ⟨⟨later_cons _ hidle.later, hidle.closed⟩, ?_⟩
    intro row hrow
    obtain ⟨rfl, hsame⟩ := Option.filter_eq_some_iff.mp hrow
    simp only [sameRequest, Bool.and_eq_true, decide_eq_true_eq] at hsame
    exact ⟨hnumbered (Option.some_ne_none _), .inl ⟨messageId, List.mem_cons_self, hsame⟩⟩

theorem persistedMessage_along (hclosed : staged past = none) :
    (persistedMessage fromUserId clientSequenceId).Along (Allowed D start)
      (Lookup fromUserId clientSequenceId past) past := by
  simp only [persistedMessage]
  split
  · exact .none _ _ (.refl hclosed)
  · refine (cachedMessage_along fromUserId clientSequenceId hclosed).bind ?_
    intro now cached hcached
    cases cached with
    | some row => exact hcached
    | none =>
      refine (getMessageByClientSequence_along fromUserId clientSequenceId
        hcached.idle.closed).mono fun later found hfound => ?_
      exact ⟨⟨hcached.idle.later.trans hfound.idle.later, hfound.idle.closed⟩, hfound.found⟩

/-! ## The insert transaction -/

variable (D) in
def Stores (record : MessageRecord) (owners : List UInt64) (past : Calls) :
    Prop :=
  ∃ event earlier, (⟨.commit, true⟩ : Exchange Op Op.Res) :: earlier <:+ past ∧
    staged earlier = some (sendCalls record owners event) ∧
    Work D.kinds D.sent earlier (sendCalls record owners event)

theorem Stores.mono {record : MessageRecord} {owners : List UInt64}
    (h : Stores D record owners past) (hlater : past <:+ now) :
    Stores D record owners now := by
  obtain ⟨event, earlier, hcommit, hwork⟩ := h
  exact ⟨event, earlier, hcommit.trans hlater, hwork⟩

/-- The response names the message. -/
structure Names (response : SendMessageResponse) (row : MessageRecord) : Prop where
  messageId : response.messageId = row.messageId
  timestamp : response.serverTimestamp = row.createdAt

/-- A response with code OK names a row that was found. -/
def Replays (past : Calls) (response : SendMessageResponse) : Prop :=
  ∀ common, response.response = some common → common.code = ErrorCode.ok.toInt32 →
    ∃ row, Found fromUserId clientSequenceId past row ∧ Names response row

variable {requestId : Bytes}

theorem Replays.fail (hcode : code ≠ .ok) (message : String) (past : Calls) :
    Replays fromUserId clientSequenceId past (sendReply requestId code message) := by
  rintro common ⟨⟩ hok
  exact absurd hok (ErrorCode.toInt32_ne hcode)

theorem Replays.mono {response : SendMessageResponse}
    (h : Replays fromUserId clientSequenceId past response) (hlater : past <:+ now) :
    Replays fromUserId clientSequenceId now response := by
  intro common hcommon hok
  obtain ⟨row, hfound, hid⟩ := h common hcommon hok
  exact ⟨row, hfound.mono hlater, hid⟩

/-- The event as it is written, with the times that were missing. -/
def Stamped (event stored : OutboxEvent) : Prop :=
  ∃ createdAt updatedAt, stored = { event with createdAt := createdAt, updatedAt := updatedAt }

theorem insertEvent_along {calls : List Call} (event : OutboxEvent)
    (hstaged : staged past = some calls) :
    (insertEvent event).Along (Allowed D start)
      (fun now ok => past <:+ now ∧ (ok = true → ∃ stored, Stamped event stored ∧
        staged now = some (calls ++ [⟨.insertEvent stored, true⟩]))) past := by
  have hexec (createdAt updatedAt : Int64) {now : Calls} (hlater : past <:+ now)
      (hnow : staged now = some calls) :
      (exec (.insertEvent { event with createdAt := createdAt, updatedAt := updatedAt })).Along
        (Allowed D start) (fun now ok => past <:+ now ∧
          (ok = true → ∃ stored, Stamped event stored ∧
            staged now = some (calls ++ [⟨.insertEvent stored, true⟩]))) now := by
    refine ⟨trivial, fun ok => ⟨later_cons _ hlater, ?_⟩⟩
    rintro rfl
    exact ⟨_, ⟨createdAt, updatedAt, rfl⟩, staged_exec hnow rfl⟩
  simp only [insertEvent]
  split
  · exact hexec _ _ (List.suffix_refl past) hstaged
  · exact issue trivial fun now => hexec _ _ (List.suffix_cons _ _) hstaged

/-- Where the insert transaction leaves the history: at an answer, or behind a
commit of all its statements. -/
def Persisted (D : Discipline) (record : MessageRecord) (owners : List UInt64)
    (past now : Calls) (early : Option SendMessageResponse) : Prop :=
  past <:+ now ∧
    match early with
    | some response => Replays record.fromUserId record.clientSequenceId now response
    | none => Stores D record owners now

/-- What the statements between the message and its event have to be. -/
def Lists (D : Discipline) (start : Db) (record : MessageRecord) (owners : List UInt64)
    (past : Calls) (upserts : Service Bool) : Prop :=
  ∀ now, past <:+ now → staged now = some [⟨.insertMessage record, true⟩] →
    upserts.Along (Allowed D start) (fun later ok => now <:+ later ∧
      (ok = true → staged later =
        some (⟨.insertMessage record, true⟩ :: owners.map (listCall record)))) now

section Persist

variable {record : MessageRecord} {owners : List UInt64} {upserts : Service Bool}
variable {requestId : Bytes} {event : OutboxEvent}

theorem Persisted.fail (hcode : code ≠ .ok) (hlater : past <:+ now) :
    Persisted D record owners past now (some (sendReply requestId code "")) :=
  ⟨hlater, .fail _ _ hcode _ now⟩

/-- The answer when the insert finds one of its unique keys taken. -/
theorem insertFailure_along (hlater : past <:+ now) :
    (do
      rollback
      match ← getMessageByClientSequence record.fromUserId record.clientSequenceId with
      | some existing => return some (replayed requestId existing)
      | none => return some (sendReply requestId .messagePersistFailed "") :
        Service (Option SendMessageResponse)).Along (Allowed D start)
      (Persisted D record owners past) now := by
  refine issue trivial fun _ => ?_
  refine (getMessageByClientSequence_along _ _ rfl).bind fun later found hfound => ?_
  have hlater' := (later_cons _ hlater).trans hfound.idle.later
  cases found with
  | none => exact .fail (by decide) hlater'
  | some existing =>
    exact ⟨hlater', fun _ _ _ => ⟨existing, hfound.found existing rfl, ⟨rfl, rfl⟩⟩⟩

theorem persist_along (hclosed : staged past = none)
    (hlists : Lists D start record owners past upserts)
    (hwork : ∀ now stored, past <:+ now → Stamped event stored →
      Work D.kinds D.sent now (sendCalls record owners stored)) :
    (persist requestId record event upserts).Along (Allowed D start)
      (fun now early => Idle past now ∧ Persisted D record owners past now early)
      past := by
  refine transaction_along hclosed ?_ (?_ : Prog.Along _ (Persisted D record owners past) _ _) ?_
  · exact fun now hidle => ⟨hidle, .fail (by decide) hidle.later⟩
  · refine issue trivial fun ok => ?_
    have hpast : past <:+ ⟨.exec (.insertMessage record), ok⟩ ::
        ⟨.begin, true⟩ :: past := later_cons _ (List.suffix_cons _ _)
    cases ok with
    | false => exact insertFailure_along hpast
    | true =>
      refine (hlists _ hpast rfl).bind fun now ok hupserts => ?_
      have hnow := hpast.trans hupserts.1
      cases ok with
      | false => exact .fail (by decide) hnow
      | true =>
        refine (insertEvent_along event (hupserts.2 rfl)).bind fun now ok hevent => ?_
        have hnow := hnow.trans hevent.1
        cases ok with
        | false => exact .fail (by decide) hnow
        | true =>
          obtain ⟨stored, hstamped, hstaged⟩ := hevent.2 rfl
          have hwork := hwork now stored hnow hstamped
          refine issue ⟨_, hstaged, hwork⟩ fun ok => ?_
          cases ok with
          | false => exact .fail (by decide) (later_cons _ hnow)
          | true =>
            exact ⟨later_cons _ hnow, stored, now, List.suffix_refl _, hstaged, hwork⟩
  · rintro now early ⟨hlater, hearly⟩
    refine ⟨⟨later_cons _ hlater, rfl⟩, later_cons _ hlater, ?_⟩
    cases early with
    | some response => exact hearly.mono _ _ (List.suffix_cons _ _)
    | none => exact hearly.mono (List.suffix_cons _ _)

/-- A response with code OK names a row that was found, or the record. -/
def SendAnswered (D : Discipline) (record : MessageRecord)
    (owners : List UInt64) (past : Calls) (response : SendMessageResponse) :
    Prop :=
  ∀ common, response.response = some common → common.code = ErrorCode.ok.toInt32 →
    (∃ row, Found record.fromUserId record.clientSequenceId past row ∧ Names response row) ∨
    (Stores D record owners past ∧ Names response record)

theorem markMessage_along (hclosed : staged past = none) (ttlSeconds : Int) (messageId : UInt64) :
    (MessageDeduplicator.markMessage ttlSeconds fromUserId clientSequenceId
      messageId).Along (Allowed D start) (fun now _ => Idle past now) past := by
  simp only [MessageDeduplicator.markMessage]
  split
  · exact .refl hclosed
  · exact ⟨trivial, fun _ => ⟨List.suffix_cons _ _, hclosed⟩⟩

/-- The event of a message. -/
def sendEvent (traceId : TraceId) (topic : Bytes) (record : MessageRecord) :
    OutboxEvent :=
  makeOutboxEvent traceId record.messageId .message record.messageId topic
    (decimal record.conversationId.toNat)
    (toMessageData traceId.bytes record).serialize record.createdAt

theorem store_along (record : MessageRecord) (owners : List UInt64)
    (hclosed : staged past = none) (options : MessageServiceOptions)
    (traceId : TraceId) (topic : Bytes)
    (hlists : Lists D start record owners past upserts)
    (hwork : ∀ now stored, past <:+ now → Stamped (sendEvent traceId topic record) stored →
      Work D.kinds D.sent now (sendCalls record owners stored)) :
    (store options traceId requestId record topic upserts).Along (Allowed D start)
      (SendAnswered D record owners) past := by
  refine (persist_along hclosed hlists hwork).bind ?_
  rintro now early ⟨hidle, hlater, hearly⟩
  cases early with
  | some response =>
    intro common hcommon hok
    exact .inl (hearly common hcommon hok)
  | none =>
    refine (markMessage_along _ _ hidle.closed _ _).bind fun later _ hmarked => ?_
    exact fun _ _ _ => .inr ⟨hearly.mono hmarked.later, ⟨rfl, rfl⟩⟩

theorem upsertSingleConversationForUsers_lists (hdirect : record.groupId = 0)
    (hapart : record.fromUserId ≠ record.toUserId) :
    Lists D start record [record.fromUserId, record.toUserId] past
      (upsertSingleConversationForUsers record.conversationId record.fromUserId
        record.toUserId record.messageId (buildPreview record.content)
        record.createdAt) := by
  intro now _ hstaged
  have hsender : listCall record record.fromUserId = ⟨.upsertOne
      { conversationId := record.conversationId
        conversationType := .single
        ownerUserId := record.fromUserId
        peerUserId := record.toUserId
        lastMessageId := record.messageId
        lastMessagePreview := buildPreview record.content
        lastMessageAt := record.createdAt
        createdAt := record.createdAt
        updatedAt := record.createdAt } false, true⟩ := by
    simp [listCall, listing, hdirect]
  have hreceiver : listCall record record.toUserId = ⟨.upsertOne
      { conversationId := record.conversationId
        conversationType := .single
        ownerUserId := record.toUserId
        peerUserId := record.fromUserId
        lastMessageId := record.messageId
        lastMessagePreview := buildPreview record.content
        lastMessageAt := record.createdAt
        createdAt := record.createdAt
        updatedAt := record.createdAt } true, true⟩ := by
    have hflag : (record.toUserId != record.fromUserId) = true := by
      simpa using hapart.symm
    simp [listCall, listing, hdirect, hapart.symm, hflag]
  simp only [List.map_cons, List.map_nil, hsender, hreceiver]
  refine issue trivial fun ok => ?_
  cases ok with
  | false => exact ⟨List.suffix_cons _ _, fun h => nomatch h⟩
  | true =>
    refine ⟨trivial, fun ok => ⟨later_cons _ (List.suffix_cons _ _), ?_⟩⟩
    rintro rfl
    exact staged_exec (staged_exec hstaged rfl) rfl

theorem group_listCall (hindirect : record.groupId ≠ 0) (member : UInt64) :
    listCall record member = ⟨.upsertOne
      { conversationId := record.conversationId
        conversationType := .group
        ownerUserId := member
        groupId := record.groupId
        lastMessageId := record.messageId
        lastMessagePreview := buildPreview record.content
        lastMessageAt := record.createdAt
        createdAt := record.createdAt
        updatedAt := record.createdAt } (member != record.fromUserId), true⟩ := by
  simp [listCall, listing, hindirect]

theorem upsertGroupConversationForMembers_lists
    (hindirect : record.groupId ≠ 0) (members : List UInt64) :
    Lists D start record members past
      (upsertGroupConversationForMembers record.conversationId record.groupId
        record.fromUserId record.messageId (buildPreview record.content)
        record.createdAt members) := by
  -- the loop adds one statement for each member to those already staged
  have hloop (done : List Call) (members : List UInt64) (now : Calls)
      (hstaged : staged now = some done) :
      (upsertGroupConversationForMembers record.conversationId record.groupId
        record.fromUserId record.messageId (buildPreview record.content)
        record.createdAt members).Along (Allowed D start) (fun later ok =>
          now <:+ later ∧ (ok = true →
            staged later = some (done ++ members.map (listCall record)))) now := by
    induction members generalizing done now with
    | nil => exact ⟨List.suffix_refl now, fun _ => by simpa using hstaged⟩
    | cons member members ih =>
      simp only [upsertGroupConversationForMembers]
      refine issue trivial fun ok => ?_
      cases ok with
      | false => exact ⟨List.suffix_cons _ _, fun h => nomatch h⟩
      | true =>
        refine (ih (done ++ [listCall record member]) _ ?_).mono ?_
        · rw [group_listCall hindirect]
          exact staged_exec hstaged rfl
        · rintro later ok ⟨hlater, hdone⟩
          refine ⟨(List.suffix_cons _ _).trans hlater, fun hok => ?_⟩
          rw [hdone hok, List.map_cons, List.append_assoc, List.singleton_append]
  intro now _ hstaged
  exact hloop _ members now hstaged

end Persist

/-! ## The handlers -/

def Accepted (response : SendMessageResponse) : Prop :=
  ∃ common, response.response = some common ∧ common.code = ErrorCode.ok.toInt32

instance : DecidablePred Accepted := fun response => decidable_of_iff
  (response.response.any fun common => common.code = ErrorCode.ok.toInt32)
  (by cases h : response.response <;> simp [Accepted, h])

theorem not_accepted (hcode : code ≠ .ok) (message : String) :
    ¬ Accepted (sendReply requestId code message) := by
  rintro ⟨common, ⟨⟩, hok⟩
  exact absurd hok (ErrorCode.toInt32_ne hcode)

def singleRecord (request : SendSingleMessageRequest) (messageId : UInt64)
    (now : Int64) : MessageRecord :=
  { messageId := messageId
    conversationId := ConversationId.single request.fromUserId request.toUserId
    fromUserId := request.fromUserId
    clientSequenceId := request.clientSequenceId
    toUserId := request.toUserId
    messageType := request.contentType
    content := request.content
    status := messageStatusSent
    createdAt := now
    updatedAt := now }

def groupRecord (request : SendGroupMessageRequest) (messageId : UInt64)
    (now : Int64) : MessageRecord :=
  { messageId := messageId
    conversationId := ConversationId.group request.groupId
    fromUserId := request.fromUserId
    clientSequenceId := request.clientSequenceId
    groupId := request.groupId
    messageType := request.contentType
    content := request.content
    status := messageStatusSent
    createdAt := now
    updatedAt := now }

/-- A response with code OK names a row that was found, or a record built from
the request. -/
def Answers (D : Discipline) (build : UInt64 → Int64 → MessageRecord)
    (past : Calls) (response : SendMessageResponse) : Prop :=
  ∃ messageId now owners, SendAnswered D (build messageId now) owners past response

theorem Answers.fail {build : UInt64 → Int64 → MessageRecord}
    (hcode : code ≠ .ok) (message : String) (past : Calls) :
    Answers D build past (sendReply requestId code message) := by
  refine ⟨0, 0, [], ?_⟩
  rintro common ⟨⟩ hok
  exact absurd hok (ErrorCode.toInt32_ne hcode)

theorem Answers.replayed {build : UInt64 → Int64 → MessageRecord} {row : MessageRecord}
    (h : ∀ messageId now, Found (build messageId now).fromUserId
      (build messageId now).clientSequenceId past row) :
    Answers D build past (Message.replayed requestId row) :=
  ⟨0, 0, [], fun _ _ _ => .inl ⟨row, h 0 0, ⟨rfl, rfl⟩⟩⟩

theorem sendSingleMessage_along (options : MessageServiceOptions)
    (ctx : RpcContext) (request : SendSingleMessageRequest)
    (hkind : D.kinds .single)
    (hsent : ∀ messageId now traceId event, Stamped (sendEvent traceId
        options.topicSingle (singleRecord request messageId now)) event →
      D.sent (singleRecord request messageId now) event) :
    (sendSingleMessage options ctx request).Along (Allowed D start)
      (Answers D (singleRecord request)) [] := by
  simp only [sendSingleMessage]
  split
  · exact .fail (by decide) _ _
  refine (ensureTraceId_along rfl ctx request.requestId).bind fun now traceId hidle => ?_
  split
  · exact .fail (by decide) _ _
  next hargument =>
  split
  · next code hcode => exact .fail (validateContent_ne_ok hcode) _ _
  refine ask trivial hidle.closed fun sender => ?_
  split
  · exact .fail (by decide) _ _
  refine ask trivial hidle.closed fun receiver => ?_
  split
  · exact .fail (by decide) _ _
  refine ask trivial hidle.closed fun friend => ?_
  split
  · exact .fail (by decide) _ _
  refine ask trivial hidle.closed fun friend => ?_
  split
  · exact .fail (by decide) _ _
  refine Prog.Along.bind (persistedMessage_along _ _ ?_) ?_
  · exact hidle.closed
  intro now found hfound
  split
  · next row => exact .replayed fun _ _ => hfound.found row rfl
  refine issue trivial fun messageId => ?_
  refine issue trivial fun now => ?_
  have hapart : request.fromUserId ≠ request.toUserId := fun h => hargument (.inr (.inr h))
  refine Prog.Along.mono (store_along (singleRecord request messageId now)
    [request.fromUserId, request.toUserId] ?_ options traceId _ ?_ ?_)
    fun later response h => ⟨messageId, now, _, h⟩
  · exact hfound.idle.closed
  · exact upsertSingleConversationForUsers_lists rfl hapart
  · exact fun later event _ hevent =>
      .single event hkind (hsent messageId now traceId event hevent) rfl rfl hapart rfl

theorem sendGroupMessage_along (options : MessageServiceOptions)
    (ctx : RpcContext) (request : SendGroupMessageRequest)
    (hkind : D.kinds .group)
    (hsent : request.groupId ≠ 0 → ∀ messageId now traceId event, Stamped (sendEvent
        traceId options.topicGroup (groupRecord request messageId now)) event →
      D.sent (groupRecord request messageId now) event) :
    (sendGroupMessage options ctx request).Along (Allowed D start)
      (Answers D (groupRecord request)) [] := by
  simp only [sendGroupMessage]
  split
  · exact .fail (by decide) _ _
  refine (ensureTraceId_along rfl ctx request.requestId).bind fun now traceId hidle => ?_
  split
  · exact .fail (by decide) _ _
  next hargument =>
  split
  · next code hcode => exact .fail (validateContent_ne_ok hcode) _ _
  refine ask trivial hidle.closed fun sender => ?_
  split
  · exact .fail (by decide) _ _
  refine ask trivial hidle.closed fun group => ?_
  split
  · exact .fail (by decide) _ _
  refine ask trivial hidle.closed fun member => ?_
  split
  · exact .fail (by decide) _ _
  refine ask trivial hidle.closed fun members => ?_
  refine Prog.Along.bind (persistedMessage_along _ _ ?_) ?_
  · exact hidle.closed
  intro now found hfound
  split
  · next row => exact .replayed fun _ _ => hfound.found row rfl
  refine issue trivial fun messageId => ?_
  refine issue trivial fun now => ?_
  have hindirect : request.groupId ≠ 0 := fun h => hargument (.inr h)
  refine Prog.Along.mono (store_along (groupRecord request messageId now) members
    ?_ options traceId _ ?_ ?_) fun later response h => ⟨messageId, now, _, h⟩
  · exact hfound.idle.closed
  · exact upsertGroupConversationForMembers_lists hindirect members
  · intro later event hlater hevent
    refine .group event hkind (hsent hindirect messageId now traceId event hevent)
      rfl hindirect rfl ?_
    exact hlater.subset (List.mem_cons_of_mem _ (List.mem_cons_of_mem _
      (hfound.idle.later.subset List.mem_cons_self)))

end NebulaIM.Chat
