import NebulaIM.Chat.LastMessage

/-!
# Group sends whose statements fail

`SendGroupMessage` reads the members before its transaction, and a list that
could not be read looks like that of an empty group.  The handler is followed
alone, from any rows and through any pattern of failures; the watched flag tells
whether the members could be read.
-/

namespace NebulaIM.Chat

open Foundation Foundation.Store
open Backend Protocol Message
open Foundation.Wire (Bytes)

def membersRead : Op → Choice → Bool
  | .query (.listMembers _), choice => choice.fault = .none
  | _, _ => true

def MembersRead (_ : World) (op : Op) (choice : Choice) : Prop := membersRead op choice = true

instance (w : World) (op : Op) (choice : Choice) :
    Decidable (MembersRead w op choice) := inferInstanceAs (Decidable (_ = true))

abbrev WatchedEnds {α : Type} (client : Nat) (post : α → World × Bool → Prop)
    (p : Service α) (state : World × Bool) : Prop :=
  Ensures (watched (fun w : World => w.exec client) MembersRead) (fun _ _ _ => True) post p state

def unrestricted : Discipline :=
  locking {} (fun _ => True) (fun _ => True) (fun _ _ => True) (fun _ => True)
    (fun _ => trivial) fun _ => trivial

variable {D : Discipline} {client : Nat} {α : Type}
variable {post : α → World × Bool → Prop} {state : World × Bool}
variable {db : Db} {flag : Bool} {calls : List Call}

/-! ## Calls that commit nothing -/

/-- The rows are those of the beginning. -/
structure Unsent (db : Db) (flag : Bool) (state : World × Bool) : Prop where
  rows : state.1.db = db
  watched : state.2 = flag

def Peeks : Op → Prop
  | .commit => False
  | .query stmt => Plain (fun _ => False) (fun _ => False) stmt ∧
      ∀ choice, membersRead (.query stmt) choice = true
  | _ => True

theorem Peeks.unsent {op : Op} (hop : Peeks op) (choice : Choice) (h : Unsent db flag state) :
    Unsent db flag (watched (fun w : World => w.exec client) MembersRead state op choice).1 := by
  have hread : membersRead op choice = true ∧
      (state.1.exec client op choice).1.db = state.1.db := by
    have hquiet (hquiet : Quiet op) := (quiet_same op hquiet
      state.1 choice : (state.1.exec client op choice).1.db = _ ∧ _).1
    cases op with
    | commit => exact hop.elim
    | query stmt => exact ⟨hop.2 choice,
        congrArg World.db (query_unchanged hop.1 client state.1 choice)⟩
    | _ => exact ⟨rfl, hquiet trivial⟩
  refine ⟨hread.2.trans h.rows, ?_⟩
  simp only [watched, MembersRead, hread.1, decide_true, Bool.and_true]
  exact h.watched

theorem ends_peeks {p : Service α} (hp : p.Only Peeks)
    (h : Unsent db flag state) : WatchedEnds client (fun _ => Unsent db flag) p state :=
  Ensures.keeps (fun hop _ hstate => hop.unsent _ hstate) hp h

theorem ends_peek {op : Op} {f : op.Res → Service α} (hop : Peeks op) (h : Unsent db flag state)
    (hf : ∀ answer next, Unsent db flag next → WatchedEnds client post (f answer) next) :
    WatchedEnds client post (call op >>= f) state :=
  fun choice _ => hf _ _ (hop.unsent choice h)

/-! ## The transaction -/

variable (D client) in
/-- The statements were staged on the rows of the beginning. -/
structure Drafted (db : Db) (flag : Bool) (calls : List Call)
    (state : World × Bool) : Prop extends Unsent db flag state where
  draft : ∃ tx, state.1.sql.txs.lookup client = some tx ∧ Runs D.same db db {} calls tx

theorem ends_exec {stmt : Stmt} {f : stmt.Res → Service α} (hkeyed : db.Keyed)
    (h : Drafted D client db flag calls state)
    (hf : ∀ answer next, Unsent db flag next →
      (succeeded stmt answer = true → Drafted D client db flag (calls ++ [⟨stmt, answer⟩]) next) →
      WatchedEnds client post (f answer) next) :
    WatchedEnds client post (exec stmt >>= f) state := by
  intro choice _
  have hunsent : Unsent db flag (watched (fun w : World => w.exec client)
      MembersRead state (.exec stmt) choice).1 :=
    Peeks.unsent (show Peeks (.exec stmt) from trivial) choice h.toUnsent
  refine hf _ _ hunsent fun hok => ⟨hunsent, ?_⟩
  simp only [watched, World.exec] at hok ⊢
  rcases state.1.sql.statement_cases client (stmt.plan choice) stmt.failed
    choice.fault with hcall | hcall | ⟨tx, hopen, hcall⟩
  · rw [hcall, succeeded_failed] at hok
    cases hok
  · rw [hcall, succeeded_failed] at hok
    cases hok
  · obtain ⟨draft, hdraft, hruns⟩ := h.draft
    cases hopen.symm.trans hdraft
    have hdb : state.1.sql.db = db := h.rows
    rw [hcall, Engine.stage, hdb, AList.lookup_insert]
    exact ⟨_, rfl, hruns.snoc stmt choice _ (.refl db) hkeyed (.refl db) (D.same_refl _ _)⟩

theorem ends_transaction {unavailable : α} {body : Service α}
    {mid : α → World × Bool → Prop} (h : Unsent db flag state)
    (hunavailable : ∀ next, Unsent db flag next → post unavailable next)
    (hbody : ∀ next, Drafted D client db flag [] next → WatchedEnds client mid body next)
    (hend : ∀ value (next later : World × Bool), mid value next →
      later.1.db = next.1.db → later.2 = next.2 → post value later) :
    WatchedEnds client post (transaction unavailable body) state := by
  intro choice _
  have hunsent : Unsent db flag (watched (fun w : World => w.exec client)
      MembersRead state .begin choice).1 :=
    Peeks.unsent (show Peeks .begin from trivial) choice h
  by_cases hfault : choice.fault = .none
  · have hbegin : state.1.exec client .begin choice =
        ({ state.1 with sql := state.1.sql.open_ client }, true) := by
      simp [World.exec, Engine.begin, hfault]
    simp only [watched, hbegin] at hunsent ⊢
    change WatchedEnds client post (body >>= fun result => rollback >>= fun _ => pure result) _
    refine Ensures.bind (hbody _ ⟨hunsent, {}, AList.lookup_insert _, .nil _⟩) ?_
    intro value next hmid choice _
    exact hend value next _ hmid rfl (by simp [watched, MembersRead, membersRead])
  · have hbegin : state.1.exec client .begin choice = (state.1, false) := by
      simp [World.exec, Engine.begin, hfault]
    simp only [watched, hbegin] at hunsent ⊢
    exact hunavailable _ hunsent

/-- Where the insert transaction ends: at an answer, which is OK only if nothing
was written, or behind the commit of the whole send. -/
structure Persists (db : Db) (flag : Bool) (record : MessageRecord) (owners : List UInt64)
    (early : Option SendMessageResponse) (state : World × Bool) : Prop where
  watched : state.2 = flag
  answered : ∀ response, early = some response → Accepted response → state.1.db = db
  stored : early = none → ∃ writes, Sends db record owners writes ∧
    state.1.db = applyAll (D := dialect) db writes

section Persist

variable {record : MessageRecord} {owners : List UInt64} {upserts : Service Bool}
variable {requestId : Bytes}

theorem Persists.fail {code : ErrorCode} (hcode : code ≠ .ok) (h : state.2 = flag) :
    Persists db flag record owners (some (sendReply requestId code "")) state :=
  ⟨h, by rintro response ⟨⟩ hok; exact absurd hok (not_accepted hcode ""),
    by rintro ⟨⟩⟩

theorem Persists.unsent {response : SendMessageResponse} (h : Unsent db flag state) :
    Persists db flag record owners (some response) state :=
  ⟨h.watched, fun _ _ _ => h.rows, by rintro ⟨⟩⟩

theorem getMessageByClientSequence_peeks (fromUserId : UInt64) (clientSequenceId : UInt32) :
    (getMessageByClientSequence fromUserId clientSequenceId).Only Peeks := by
  simp only [getMessageByClientSequence]
  split
  · trivial
  · exact ⟨⟨trivial, fun _ => rfl⟩, fun _ => trivial⟩

theorem ends_insertEvent (hkeyed : db.Keyed) (event : OutboxEvent)
    (h : Drafted D client db flag calls state) :
    WatchedEnds client (fun ok next => Unsent db flag next ∧ (ok = true → ∃ stored,
      Drafted D client db flag (calls ++ [⟨.insertEvent stored, true⟩]) next))
      (insertEvent event) state := by
  have hexec (event : OutboxEvent) {state : World × Bool}
      (h : Drafted D client db flag calls state) :
      WatchedEnds client (fun ok next => Unsent db flag next ∧ (ok = true → ∃ stored,
        Drafted D client db flag (calls ++ [⟨.insertEvent stored, true⟩]) next))
        (exec (.insertEvent event)) state := by
    change WatchedEnds client _ (exec (.insertEvent event) >>= Prog.ret) state
    refine ends_exec hkeyed h fun ok next hunsent hdraft => ⟨hunsent, ?_⟩
    rintro rfl
    exact ⟨event, hdraft rfl⟩
  simp only [insertEvent]
  split
  · exact hexec _ h
  · intro choice _
    refine hexec _ ⟨Peeks.unsent (show Peeks .nowMs from trivial) choice h.toUnsent, ?_⟩
    exact h.draft

theorem ends_commit (hnodup : owners.Nodup) {event : OutboxEvent}
    (h : Drafted D client db flag (sendCalls record owners event) state) :
    WatchedEnds client (Persists db flag record owners) (do
      if !(← commit) then return some (sendReply requestId .dbError "")
      return none) state := by
  intro choice _
  obtain ⟨draft, hdraft, hruns⟩ := h.draft
  have hsends := hruns.sends hnodup
  have hdb : state.1.sql.db = db := h.rows
  have hwatched : (watched (fun w : World => w.exec client) MembersRead state
      .commit choice).1.2 = flag := by
    simp [watched, MembersRead, membersRead, h.watched]
  simp only [watched] at hwatched ⊢
  rcases state.1.commit_cases client choice with hcall | ⟨tx, ok, hopen, hcall⟩
  · rw [hcall]
    exact .fail (by decide) hwatched
  · rw [hcall]
    cases ok with
    | false => exact .fail (by decide) hwatched
    | true =>
      cases hopen.symm.trans hdraft
      refine ⟨hwatched, by rintro response ⟨⟩, fun _ => ?_⟩
      exact ⟨draft.writes, hsends, congrArg (applyAll (D := dialect) · _) hdb⟩

theorem ends_persist (record : MessageRecord) (hkeyed : db.Keyed)
    (hnodup : owners.Nodup) (event : OutboxEvent) (h : Unsent db flag state)
    (hupserts : ∀ next, Drafted D client db flag [⟨.insertMessage record, true⟩] next →
      WatchedEnds client (fun ok later => Unsent db flag later ∧ (ok = true →
        Drafted D client db flag
          (⟨.insertMessage record, true⟩ :: owners.map (listCall record)) later))
        upserts next) :
    WatchedEnds client (Persists db flag record owners)
      (persist requestId record event upserts) state := by
  refine ends_transaction (D := D) h ?_
    (?_ : ∀ next, _ → WatchedEnds client (Persists db flag record owners) _ next) ?_
  · exact fun next hnext => .unsent hnext
  · intro next hnext
    refine ends_exec hkeyed hnext fun ok next hunsent hdraft => ?_
    cases ok with
    | false =>
      refine ends_peek trivial hunsent fun _ next hunsent => ?_
      refine (ends_peeks (getMessageByClientSequence_peeks _ _) hunsent).bind ?_
      intro found next hunsent
      cases found <;> exact .unsent hunsent
    | true =>
      refine (hupserts next (hdraft rfl)).bind ?_
      rintro ok next ⟨hunsent, hdraft⟩
      cases ok with
      | false => exact .unsent hunsent
      | true =>
        refine (ends_insertEvent hkeyed event (hdraft rfl)).bind ?_
        rintro ok next ⟨hunsent, hdraft⟩
        cases ok with
        | false => exact .unsent hunsent
        | true =>
          obtain ⟨stored, hstored⟩ := hdraft rfl
          exact ends_commit hnodup hstored
  · rintro early next later ⟨hwatched, hanswered, hstored⟩ hdb hflag
    exact ⟨hflag.trans hwatched, fun response hearly hok =>
      hdb.trans (hanswered response hearly hok), fun hnone => hdb ▸ hstored hnone⟩

theorem ends_upserts (hkeyed : db.Keyed) (hindirect : record.groupId ≠ 0)
    (members : List UInt64) (h : Drafted D client db flag calls state) :
    WatchedEnds client (fun ok later => Unsent db flag later ∧ (ok = true →
        Drafted D client db flag (calls ++ members.map (listCall record)) later))
      (upsertGroupConversationForMembers record.conversationId record.groupId
        record.fromUserId record.messageId (buildPreview record.content)
        record.createdAt members) state := by
  induction members generalizing calls state with
  | nil => exact ⟨h.toUnsent, fun _ => by simpa using h⟩
  | cons member members ih =>
    refine ends_exec hkeyed h fun ok next hunsent hdraft => ?_
    cases ok with
    | false => exact ⟨hunsent, by rintro ⟨⟩⟩
    | true =>
      have hcall := group_listCall hindirect member
      refine (ih (hcall ▸ hdraft rfl)).mono ?_
      rintro ok later ⟨hunsent, hdone⟩
      exact ⟨hunsent, fun hok => by simpa using hdone hok⟩

end Persist

theorem persistedMessage_peeks (fromUserId : UInt64) (clientSequenceId : UInt32) :
    (persistedMessage fromUserId clientSequenceId).Only Peeks := by
  simp only [persistedMessage]
  split
  · trivial
  · refine Prog.Only.bind ?_ fun cached => ?_
    · simp only [cachedMessage, MessageDeduplicator.getExistingMessageId]
      refine Prog.Only.bind ?_ fun found => ?_
      · split
        · trivial
        · exact ⟨trivial, fun _ => trivial⟩
      · cases found with
        | none => trivial
        | some id => exact ⟨⟨trivial, fun _ => rfl⟩, fun _ => trivial⟩
    · cases cached with
      | none => exact getMessageByClientSequence_peeks _ _
      | some row => trivial

theorem ensureTraceId_peeks (ctx : RpcContext) (requestId : Bytes) :
    (ensureTraceId ctx requestId).Only Peeks := by
  simp only [ensureTraceId]
  repeat' split
  all_goals first | trivial | exact ⟨trivial, fun _ => trivial⟩

theorem markMessage_peeks (ttlSeconds : Int) (fromUserId : UInt64)
    (clientSequenceId : UInt32) (messageId : UInt64) :
    (MessageDeduplicator.markMessage ttlSeconds fromUserId clientSequenceId
      messageId).Only Peeks := by
  simp only [MessageDeduplicator.markMessage]
  split
  · trivial
  · exact ⟨trivial, fun _ => trivial⟩

/-! ## The handler -/

def membersSeen (db : Db) (groupId : UInt64) (flag : Bool) : List UInt64 :=
  if flag then db.membersOf groupId else []

/-- The message was committed, with a row for each of the members seen. -/
structure SentToGroup (db : Db) (request : SendGroupMessageRequest)
    (messageId : UInt64) (state : World × Bool) : Prop where
  sender : (db.members.lookup (request.groupId, request.fromUserId)).isSome
  sends : ∃ now writes, Sends db (groupRecord request messageId now)
      (membersSeen db request.groupId state.2) writes ∧
    state.1.db = applyAll (D := dialect) db writes

def GroupOutcome (db : Db) (request : SendGroupMessageRequest)
    (response : SendMessageResponse) (state : World × Bool) : Prop :=
  Accepted response → state.1.db = db ∨ SentToGroup db request response.messageId state

theorem GroupOutcome.fail {request : SendGroupMessageRequest} {requestId : Bytes}
    {code : ErrorCode} (hcode : code ≠ .ok) (message : String) :
    GroupOutcome db request (sendReply requestId code message) state :=
  fun hok => absurd hok (not_accepted hcode message)

theorem ends_isMember {groupId userId : UInt64} {f : Bool → Service α} (h : Unsent db flag state)
    (hf : ∀ answer next, Unsent db flag next →
      (answer = true → (db.members.lookup (groupId, userId)).isSome) →
      WatchedEnds client post (f answer) next) :
    WatchedEnds client post (query (.isMember groupId userId) >>= f) state := by
  intro choice _
  refine hf _ _ (Peeks.unsent (show Peeks (.query (.isMember groupId userId))
    from ⟨trivial, fun _ => rfl⟩) choice h) fun hanswer => ?_
  rcases query_answer state.1 client (.isMember groupId userId) choice with
    hfailed | ⟨locked, hread⟩
  · cases hfailed.symm.trans hanswer
  · exact h.rows ▸ hread.symm.trans hanswer

theorem ends_listMembers {groupId : UInt64} {f : List UInt64 → Service α} (h : Unsent db true state)
    (hf : ∀ flag next, Unsent db flag next →
      WatchedEnds client post (f (membersSeen db groupId flag)) next) :
    WatchedEnds client post (query (.listMembers groupId) >>= f) state := by
  intro choice _
  have hdb : state.1.sql.db = db := h.rows
  have hunchanged := query_unchanged
    (show Plain (fun _ => False) (fun _ => False) (.listMembers groupId) from
      trivial) client state.1 choice
  have hanswer : (state.1.exec client (.query (.listMembers groupId)) choice).2 =
      membersSeen db groupId (decide (choice.fault = .none)) := by
    simp only [World.exec, Engine.autocommit, membersSeen]
    cases choice.fault <;>
      simp [Stmt.plan, Backend.read, Stmt.failed, hdb]
  have hnext := hf (decide (choice.fault = .none))
    (watched (fun w : World => w.exec client) MembersRead state
      (.query (.listMembers groupId)) choice).1
    ⟨(congrArg World.db hunchanged).trans h.rows, by
      simp [watched, MembersRead, membersRead, h.watched]⟩
  rw [← hanswer] at hnext
  exact hnext

theorem membersSeen_nodup (hkeyed : db.Keyed) (groupId : UInt64) (flag : Bool) :
    (membersSeen db groupId flag).Nodup := by
  cases flag with
  | false => exact List.nodup_nil
  | true => exact membersOf_nodup hkeyed groupId

theorem ends_sendGroupMessage (hkeyed : db.Keyed) (options : MessageServiceOptions)
    (ctx : RpcContext) (request : SendGroupMessageRequest) (h : Unsent db true state) :
    WatchedEnds client (GroupOutcome db request) (sendGroupMessage options ctx request)
      state := by
  simp only [sendGroupMessage]
  split
  · exact .fail (by decide) _
  refine (ends_peeks (ensureTraceId_peeks ctx request.requestId) h).bind ?_
  intro traceId state h
  split
  · exact .fail (by decide) _
  next hargument =>
  split
  · next code hcode => exact .fail (validateContent_ne_ok hcode) _
  refine ends_peek ⟨trivial, fun _ => rfl⟩ h fun sender state h => ?_
  split
  · exact .fail (by decide) _
  refine ends_peek ⟨trivial, fun _ => rfl⟩ h fun group state h => ?_
  split
  · exact .fail (by decide) _
  refine ends_isMember h fun member state h hmember => ?_
  split
  · exact .fail (by decide) _
  next hanswer =>
  have hsender := hmember (by simpa using hanswer)
  refine ends_listMembers h fun flag state h => ?_
  refine (ends_peeks (persistedMessage_peeks _ _) h).bind ?_
  intro found state h
  split
  · exact fun _ => .inl h.rows
  refine ends_peek trivial h fun messageId state h => ?_
  refine ends_peek trivial h fun now state h => ?_
  have hindirect : request.groupId ≠ 0 := fun hzero => hargument (.inr hzero)
  refine (ends_persist (D := unrestricted) (groupRecord request messageId now)
    hkeyed (membersSeen_nodup hkeyed request.groupId flag) _ h
    fun next hnext => ends_upserts hkeyed hindirect _ hnext).bind ?_
  rintro early state ⟨hwatched, hanswered, hstored⟩
  cases early with
  | some response => exact fun hok => .inl (hanswered response rfl hok)
  | none =>
    obtain ⟨writes, hsends, hdb⟩ := hstored rfl
    refine (ends_peeks (markMessage_peeks _ _ _ _) ⟨hdb, hwatched⟩).bind ?_
    intro _ state h
    exact fun _ => .inr ⟨hsender, now, writes, h.watched ▸ hsends, h.rows⟩

/-- The member owns a row that shows the message and counts it. -/
def Informed (before after : Db) (request : SendGroupMessageRequest)
    (messageId member : UInt64) : Prop :=
  ∃ row, after.conversations.lookup (member, ConversationId.group request.groupId) = some row ∧
    row.deleted = false ∧ row.lastMessageId = messageId ∧
    (member ≠ request.fromUserId → row.unreadCount =
      (before.conversations.lookup (member, ConversationId.group request.groupId)).elim 0
          Conversation.unreadCount + 1)

theorem Sends.informed {request : SendGroupMessageRequest} {messageId : UInt64}
    {now : Int64} {owners : List UInt64} {writes : List Write}
    (h : Sends db (groupRecord request messageId now) owners writes)
    (hkeyed : db.Keyed) {member : UInt64} (hmember : member ∈ owners) :
    Informed db (applyAll (D := dialect) db writes) request messageId member := by
  obtain ⟨row, hrow⟩ := Option.isSome_iff_exists.mp (h.isSome_listed hkeyed hmember)
  refine ⟨row, hrow, ?_⟩
  rcases h.lookup_conversations hkeyed hrow with ⟨_, hnot⟩ | ⟨_, _, rfl⟩
  · exact absurd ⟨hmember, rfl⟩ hnot
  · refine ⟨(listed_columns hkeyed _ member).2.2, (listed_shows hkeyed _ member).id, ?_⟩
    intro hother
    have hsender : (groupRecord request messageId now).fromUserId ≠ member := Ne.symm hother
    rw [listed_unreadCount, if_pos hsender]
    rfl

/-- A send that is answered OK and stores its message informs every member if the
members could be read, and only then. -/
theorem group_send_informs (options : MessageServiceOptions) (ctx : RpcContext)
    (request : SendGroupMessageRequest) {w : World} (hkeyed : w.db.Keyed)
    (client : Nat) (choices : Nat → Choice) :
    let handler := sendGroupMessage options ctx request
    let final := handler.solo (fun w : World => w.exec client) w choices
    Accepted final.2 → w.db.messages.lookup final.2.messageId = none →
    (final.1.db.messages.lookup final.2.messageId).isSome →
    (handler.Meets (fun w : World => w.exec client) MembersRead w choices →
      ∀ member ∈ w.db.membersOf request.groupId,
        Informed w.db final.1.db request final.2.messageId member) ∧
    ((∀ row ∈ Table.rows w.db.conversations, row.lastMessageId ≠ final.2.messageId) →
      (∀ member ∈ w.db.membersOf request.groupId,
        Informed w.db final.1.db request final.2.messageId member) →
      handler.Meets (fun w : World => w.exec client) MembersRead w choices) := by
  intro handler final hok hnew hstored
  have houtcome : GroupOutcome w.db request final.2 (final.1, _) :=
    Ensures.watched (ends_sendGroupMessage hkeyed options ctx request
      (show Unsent w.db true (w, true) from ⟨rfl, rfl⟩)) choices
  rcases houtcome hok with hsame | ⟨hsender, now, writes, hsends, hdb⟩
  · rw [hsame, hnew] at hstored
    cases hstored
  · rw [hdb]
    constructor
    · intro hmeets member hmember
      rw [decide_eq_true hmeets] at hsends
      exact hsends.informed hkeyed hmember
    · intro hunnamed hinformed
      by_contra hmeets
      rw [decide_eq_false hmeets] at hsends
      obtain ⟨row, hrow, _, hlast, _⟩ :=
        hinformed request.fromUserId ((mem_membersOf hkeyed).mpr hsender)
      -- no row was listed, so the sender's row is the one from before
      rcases hsends.lookup_conversations hkeyed hrow with ⟨hold, _⟩ | ⟨hnone, _⟩
      · exact hunnamed row (Table.mem_rows.mpr ⟨_, hold⟩) hlast
      · cases hnone

/-! ### A group of two -/

def groupOfTwo : World where
  sql :=
    { db := applyAll (D := dialect) friends.world.db
        [.putGroup { id := 9, groupName := [103], ownerId := 1 },
          .putMember ⟨9, 1, 1⟩, .putMember ⟨9, 2, 0⟩] }

theorem groupOfTwo_keyed : groupOfTwo.db.Keyed := friends_initial.sound.keyed.applyAll _

def allWell (_ : Nat) : Choice := { id := 50, clock := 5 }

def listFails (n : Nat) : Choice :=
  { id := 50, clock := 5, fault := if n = 4 then .refused else .none }

theorem groupOfTwo_informed :
    let final := (sendGroupMessage {} {} toGroup).solo
      (fun w : World => w.exec 0) groupOfTwo allWell
    groupOfTwo.db.membersOf 9 = [1, 2] ∧ ∀ member ∈ groupOfTwo.db.membersOf 9,
        Informed groupOfTwo.db final.1.db toGroup final.2.messageId member := by
  have hwell := group_send_informs {} {} toGroup groupOfTwo_keyed 0 allWell
  refine ⟨by decide +kernel, (hwell ?_ ?_ ?_).1 ?_⟩ <;> decide +kernel

/-- The list of the members cannot be read: the answer is OK, the message is
stored, and nobody sees it. -/
theorem listFails_uninformed :
    let final := (sendGroupMessage {} {} toGroup).solo
      (fun w : World => w.exec 0) groupOfTwo listFails
    Accepted final.2 ∧ final.2.messageId = 50 ∧ (final.1.db.messages.lookup 50).isSome ∧
      ∀ member ∈ groupOfTwo.db.membersOf 9, final.1.db.conversations.lookup
        (member, ConversationId.group 9) = none := by
  refine ⟨by decide +kernel, by decide +kernel, by decide +kernel, ?_⟩
  intro member hmember
  have hmembers : groupOfTwo.db.membersOf 9 = [1, 2] := by decide +kernel
  simp only [hmembers, List.mem_cons, List.not_mem_nil, or_false] at hmember
  rcases hmember with rfl | rfl <;> decide +kernel

end NebulaIM.Chat
