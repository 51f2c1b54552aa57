import NebulaIM.Services.Calls
import NebulaIM.Chat.Commits

/-!
# Requests and their histories

The handlers of messages and groups, followed call by call: what they commit is a
unit of work, and what they answer is in the tables or in the log.
-/

namespace NebulaIM.Services

open Foundation Foundation.Store
open Backend Protocol Message

variable {config : Config} {tid : Nat} {w : World} {start : Db} {past : Chat.Calls}
variable {row : MessageRecord} {event : OutboxEvent} {messageId : UInt64}

/-! ## Histories -/

/-- The event of a message, as it is stored. -/
structure Announced (config : Config) (row : MessageRecord) (event : OutboxEvent) : Prop where
  announces : Announces config row event
  type : event.aggregateType = .message
  pending : event.status = .pending

/-- The requests whose statements are units of work. -/
def kinds : Chat.Kind → Prop
  | .read | .flags | .cleanup | .offline => False
  | _ => True

def discipline (config : Config) : Chat.Discipline :=
  { Chat.locking { spawn := fun _ request => kinds request.kind } kinds
      (fun _ => True) (fun _ _ => True) (fun _ => True) (fun h => h)
      fun _ => trivial with
    sent := Announced config }

/-- What the calls of a request mean, and that the members they listed had
joined. -/
structure Noted (config : Config) (tid : Nat) (start : Db) (past : Chat.Calls)
    (w : World) : Prop where
  keyed : w.db.Keyed
  recorded : Chat.Recorded (discipline config) tid start past w
  members : ∀ {groupId members}, ⟨.query (.listMembers groupId), members⟩ ∈ past →
    ∀ member ∈ members, EverMember w.log groupId member

theorem Noted.nil (tid : Nat) (hinv : Inv config w) : Noted config tid w.db [] w :=
  ⟨hinv.keyed, .nil tid w, fun hmem => absurd hmem List.not_mem_nil⟩

theorem EverMember.mono {log log' : List (Nat × List Write)} {groupId userId : UInt64}
    (h : EverMember log groupId userId) (hlog : log <:+ log') : EverMember log' groupId userId := by
  obtain ⟨role, hcommitted⟩ := h
  exact ⟨role, hcommitted.mono hlog⟩

theorem Noted.stable (past : Chat.Calls) :
    Stable (contract config) tid (Noted config tid start past) := by
  intro w w' h _ hrely hinv'
  refine ⟨hinv'.keyed, h.recorded.stable ⟨hrely.engine.keeps, ?_, hrely.grows.log⟩, ?_⟩
  · exact fun _ _ hrow => hrely.grows.messages hrow
  · exact fun hmem member hmember => (h.members hmem member hmember).mono hrely.grows.log

theorem everMember_listed (hinv : Inv config w) {groupId : UInt64} {choice : Choice}
    {member : UInt64} (hmember : member ∈ (w.exec tid (.query (.listMembers groupId)) choice).2) :
    EverMember w.log groupId member := by
  rcases Chat.query_answer w tid (.listMembers groupId) choice with
    hfailed | ⟨locked, hread⟩
  · rw [hfailed] at hmember
    exact absurd hmember List.not_mem_nil
  · rw [hread] at hmember
    obtain ⟨row, hrow⟩ := Option.isSome_iff_exists.mp ((mem_membersOf hinv.keyed).mp hmember)
    exact hinv.conversations.members hrow

theorem Noted.call (h : Noted config tid start past w) (hinv : Inv config w) {op : Op}
    {choice : Choice} (hinv' : Inv config (w.exec tid op choice).1)
    (hallowed : Chat.Allowed (discipline config) start past op) :
    Noted config tid start (⟨op, (w.exec tid op choice).2⟩ :: past) (w.exec tid op choice).1 where
  keyed := hinv'.keyed
  recorded := h.recorded.call ⟨hinv.engine, hinv.keyed⟩ hallowed trivial
  members hmem member hmember := by
    refine EverMember.mono ?_ (Chat.exec_log w tid op choice)
    rcases List.mem_cons.mp hmem with heq | hold
    · obtain ⟨rfl, hanswer⟩ := Exchange.mk.inj heq
      exact everMember_listed hinv (eq_of_heq hanswer ▸ hmember)
    · exact h.members hold member hmember

/-! ## Units of work -/

section Units

variable {db : Db} {tx final : Tx dialect} {calls : List Chat.Call}
variable {owners : List UInt64} {first : List Write}

theorem work_send (hkeyed : w.db.Keyed) (hsent : Announced config row event)
    (hfresh : row.recalled = false) (hnodup : owners.Nodup)
    (haudience : ∀ owner ∈ owners, Audience w.log row owner)
    (hruns : Chat.Runs (discipline config).same start w.db {}
      (Chat.sendCalls row owners event) tx) : Work config w tid tx.writes := by
  obtain ⟨hmessage, hsequence, hevent, id, hwrites⟩ := hruns.stores hnodup
  have hannounces : Announces config row { event with id := id } :=
    ⟨hsent.announces.eventId, hsent.announces.aggregateId, hsent.announces.topic,
      hsent.announces.eventKey, hsent.announces.payload⟩
  have hshown : ∀ conv ∈ owners.map (Chat.listed w.db row),
      conv.conversationId = row.conversationId ∧ conv.deleted = false ∧
        Audience w.log row conv.ownerUserId := by
    intro conv hconv
    obtain ⟨owner, howner, rfl⟩ := List.mem_map.mp hconv
    obtain ⟨hcolumn, hid, hdeleted⟩ := Chat.listed_columns hkeyed row owner
    exact ⟨hid, hdeleted, hcolumn.symm ▸ haudience owner howner⟩
  have hwork : Work config w tid (.insertMessage row ::
      ((owners.map (Chat.listed w.db row)).map .putConversation ++
        [.insertEvent { event with id := id }])) :=
    .send _ hmessage hsequence (hsent.announces.eventId ▸ hevent) hfresh hsent.type
      hsent.pending hannounces hshown
  rw [hwrites]
  rwa [List.map_map] at hwork

/-- Behind the first writes, the transaction updates conversation rows and leaves
alone what the users have deleted. -/
def Revised (db : Db) (first : List Write) (tx : Tx dialect) : Prop :=
  ∃ convs : List Conversation, tx.writes = first ++ convs.map .putConversation ∧
    ∀ conv ∈ convs, ∃ old, db.conversations.lookup
      (conv.ownerUserId, conv.conversationId) = some old ∧ conv.deleted = old.deleted

theorem Revised.next {stmt : Stmt} {answer : stmt.Res} (h : Revised db first tx)
    (hfirst : ∀ conv, .putConversation conv ∉ first)
    (hplan : ∀ choice seen locked, ∃ (rows : List Conversation)
      (f : Conversation → Conversation), stmt.plan choice seen locked =
        writing (rows.map fun row => .putConversation (f row)) answer ∧
      (∀ row ∈ rows, row ∈ Table.rows seen.conversations) ∧
      ∀ row, (f row).ownerUserId = row.ownerUserId ∧
        (f row).conversationId = row.conversationId ∧ (f row).deleted = row.deleted)
    (hruns : Chat.Runs (discipline config).same start db tx (⟨stmt, answer⟩ :: calls) final) :
    ∃ mid, Revised db first mid ∧ Chat.Runs (discipline config).same start db mid calls final := by
  obtain ⟨convs, hwrites, hupdates⟩ := h
  obtain ⟨choice, locked, base, _, hkeyed, _, _, hsame, hrest⟩ := hruns.uncons
  obtain ⟨rows, f, hplanned, hrows, hf⟩ :=
    hplan choice (applyAll (D := dialect) base tx.writes) locked
  simp only [hplanned] at hsame hrest
  refine ⟨_, ⟨convs ++ rows.map f, ?_, fun conv hconv => ?_⟩, hrest⟩
  · simp [Chat.extend, writing, hwrites]
  · rcases List.mem_append.mp hconv with hold | hnew
    · exact hupdates conv hold
    · obtain ⟨row, hrow, rfl⟩ := List.mem_map.mp hnew
      obtain ⟨howner, hid, hdeleted⟩ := hf row
      rw [howner, hid, hdeleted]
      obtain ⟨key, hkey⟩ := Table.mem_rows.mp (hrows row hrow)
      cases (hkeyed.applyAll tx.writes).conversations key row hkey
      rcases lookup_conversations_applyAll hkey with ⟨hbase, _⟩ | ⟨hput, _⟩
      · have hlocked : Key.conversation row.ownerUserId row.conversationId ∈
            (rows.map fun row => Write.putConversation (f row)).flatMap
              Write.touches := by
          refine List.mem_flatMap.mpr ⟨_, List.mem_map_of_mem hrow, ?_⟩
          simp [Write.touches, howner, hid]
        have hagree : db.conversations.lookup (row.ownerUserId, row.conversationId) =
            base.conversations.lookup (row.ownerUserId, row.conversationId) :=
          hsame _ (List.mem_append_left _ hlocked)
        exact ⟨row, hagree.trans hbase, rfl⟩
      · rw [hwrites] at hput
        rcases List.mem_append.mp hput with hput | hput
        · exact absurd hput (hfirst row)
        · obtain ⟨conv, hconv, heq⟩ := List.mem_map.mp hput
          cases heq
          exact hupdates row hconv

theorem plan_recallMessage {recalledAt : Int64} {choice : Choice} {locked : List Key}
    (hok : (Stmt.plan (.recallMessage messageId recalledAt) choice db locked).result = true) :
    Stmt.plan (.recallMessage messageId recalledAt) choice db locked =
        writing [.recallMessage messageId recalledAt] true ∧
      ∃ row, db.messages.lookup messageId = some row ∧ row.recalled = false := by
  simp only [Stmt.plan] at hok ⊢
  cases hrow : db.messages.lookup messageId with
  | none =>
    simp only [hrow] at hok
    cases hok
  | some row =>
    simp only [hrow] at hok ⊢
    cases hrecalled : row.recalled with
    | true =>
      rw [if_pos hrecalled] at hok
      cases hok
    | false => exact ⟨rfl, row, rfl, hrecalled⟩

theorem work_recall {now : Int64} {conversationId lastMessageId : UInt64}
    (htells : Chat.TellsRecall messageId event)
    (hruns : Chat.Runs (discipline config).same start w.db {}
      [⟨.recallMessage messageId now, true⟩, ⟨.insertEvent event, true⟩,
        ⟨.recalculateUnreadForConversation conversationId now, true⟩,
        ⟨.markLastMessageRecalled conversationId lastMessageId now, true⟩] tx) :
    Work config w tid tx.writes := by
  obtain ⟨choice, locked, base, _, _, _, hresult, hsame, hrest⟩ := hruns.uncons
  obtain ⟨hplan, old, hold, hnot⟩ := plan_recallMessage hresult
  simp only [hplan] at hsame hrest
  have hmessage : w.db.messages.lookup messageId = base.messages.lookup messageId :=
    hsame (.message messageId) List.mem_cons_self
  obtain ⟨hfree, id, mid, hwrites, hrest⟩ := hrest.insertsEvent fun write hwrite => by
    cases List.mem_singleton.mp hwrite
    simp [Write.touches]
  have hfirst : ∀ conv, .putConversation conv ∉
      [Write.recallMessage messageId now, .insertEvent { event with id := id }] := by
    simp
  have hstarted : Revised w.db [.recallMessage messageId now,
      .insertEvent { event with id := id }] mid :=
    ⟨[], hwrites, fun _ hconv => absurd hconv List.not_mem_nil⟩
  have hrows {p : Conversation → Bool} {db : Db} : ∀ row ∈
      (db.conversationsOf conversationId).filter p, row ∈ Table.rows db.conversations :=
    fun row hrow => (List.mem_filter.mp (List.mem_filter.mp hrow).1).1
  obtain ⟨mid, hcounted, hrest⟩ := hstarted.next hfirst
    (fun _ seen _ => ⟨seen.conversationsOf conversationId, fun row =>
      { row with
        unreadCount := seen.unread row.ownerUserId row.conversationId
        updatedAt := now }, rfl, fun _ hrow => (List.mem_filter.mp hrow).1,
      fun _ => ⟨rfl, rfl, rfl⟩⟩) hrest
  obtain ⟨last, ⟨convs, hlast, hupdates⟩, hdone⟩ := hcounted.next hfirst
    (fun _ seen _ => ⟨_, fun row =>
      { row with
        lastMessagePreview := lit "__NEBULA_MESSAGE_RECALLED__"
        lastMessageAt := now
        updatedAt := now }, rfl, hrows, fun _ => ⟨rfl, rfl, rfl⟩⟩) hrest
  rw [hdone.writes_nil, hlast]
  exact .recallMessage now convs (hmessage.trans hold) hnot hfree htells.type
    htells.pending htells.aggregate hupdates

theorem work_of_runs (h : Noted config tid start past w) (hinv : Inv config w)
    (hwork : Chat.Work kinds (Announced config) past calls)
    (hruns : Chat.Runs (discipline config).same start w.db {} calls tx) :
    Work config w tid tx.writes := by
  have hnodup : (Chat.listedOwners calls).Nodup :=
    Chat.Work.owners_nodup (D := discipline config) hwork h.recorded.evidence
  have hkey {userId messageId : UInt64} {row : OfflineMessage}
      (hrow : w.db.offline.lookup (userId, messageId) = some row) :
      ∀ copy ∈ [row], w.db.offline.lookup (copy.userId, copy.messageId) = some copy := by
    intro copy hcopy
    cases List.mem_singleton.mp hcopy
    have hcolumns : (row.userId, row.messageId) = _ := hinv.keyed.offline _ row hrow
    rw [hcolumns, hrow]
  cases hwork with
  | single event _ hsent hfresh hdirect =>
    rw [Chat.listedOwners_sendCalls] at hnodup
    refine work_send hinv.keyed hsent hfresh hnodup (fun owner howner => ?_) hruns
    rw [Audience, if_pos hdirect]
    simpa using howner
  | group event _ hsent hfresh hindirect _ hlisted =>
    rw [Chat.listedOwners_sendCalls] at hnodup
    refine work_send hinv.keyed hsent hfresh hnodup (fun owner howner => ?_) hruns
    rw [Audience, if_neg hindirect]
    exact h.members hlisted owner howner
  | recallMessage now event _ _ htells => exact work_recall htells hruns
  | markRead _ hkind => exact hkind.elim
  | markConversationRead _ _ _ _ hkind => exact hkind.elim
  | ack =>
    obtain ⟨receipt, hwrites | ⟨row, now, hrow, hwrites⟩⟩ := hruns.acks <;>
      rw [hwrites]
    · exact .ack receipt [] 0 fun _ hmem => absurd hmem List.not_mem_nil
    · exact .ack receipt [row] now (hkey hrow)
  | pull =>
    obtain ⟨rows, now, hwrites, hrows⟩ := hruns.pulls
    rw [hwrites]
    exact .pull rows now hrows
  | pullNothing =>
    rw [hruns.writes_nil]
    exact .pull [] 0 fun _ hmem => absurd hmem List.not_mem_nil
  | createGroup group groupId =>
    obtain ⟨choice, locked, base, _, _, _, hresult, _, hrest⟩ := hruns.uncons
    simp only [Stmt.plan] at hresult hrest
    split at hresult
    case isFalse => cases hresult
    case isTrue hfree =>
      rw [if_pos hfree] at hrest
      cases hresult
      obtain ⟨choice', locked', base', _, _, _, hresult', _, hdone⟩ := hrest.uncons
      rw [hdone.writes_nil]
      simp only [Stmt.plan] at hresult' ⊢
      split at hresult'
      case isFalse => cases hresult'
      case isTrue hfree' =>
        rw [if_pos hfree']
        exact .createGroup { group with id := choice.id } 1

theorem work_of_plain {stmt : Stmt} {saved : OfflineMessage → Prop}
    (hplain : Chat.Plain kinds saved stmt) (choice : Choice) (locked : List Key)
    (hwrites : (stmt.plan choice w.db locked).writes ≠ []) :
    Work config w tid (stmt.plan choice w.db locked).writes := by
  cases stmt with
  | addMember groupId userId role =>
    simp only [Stmt.plan] at hwrites ⊢
    split
    · exact .join ⟨groupId, userId, role⟩
    · next hmember =>
      rw [if_neg hmember] at hwrites
      exact absurd rfl hwrites
  | removeMember groupId userId => exact .leave groupId userId
  | _ =>
    first
    | exact absurd rfl hwrites
    | exact hplain.elim
    | exact hplain.1.elim

end Units

theorem Noted.step (h : Noted config tid start past w) (hinv : Inv config w) {op : Op}
    (hallowed : Chat.Allowed (discipline config) start past op) (choice : Choice) :
    Step config tid w (w.exec tid op choice).1 := by
  have hquiet (hop : Quiet op) : Step config tid w (w.exec tid op choice).1 :=
    quiet_step op hop w choice
  cases op with
  | commit =>
    obtain ⟨calls, hstaged, hwork⟩ := hallowed
    exact commit_step choice fun hopen => work_of_runs h hinv hwork (h.recorded.draft hstaged hopen)
  | query stmt => exact query_step choice (work_of_plain hallowed.2 choice)
  | _ => exact hquiet trivial

theorem spec_history {α : Type} {p : Service α} {post : Chat.Calls → α → Prop}
    (f : α → Reply) {pre : World → Prop} {final : Reply → World → Prop}
    (h : ∀ start, p.Along (Chat.Allowed (discipline config) start) post [])
    (hfinal : ∀ {start past value w}, post past value →
      Noted config tid start past w → final (f value) w) :
    Triple (contract config) tid pre (do return f (← p)) final := by
  intro w hinv _
  have hcall (past : Chat.Calls) (op : Op)
      (hallowed : Chat.Allowed (discipline config) w.db past op) :
      CallSpec (contract config) tid (Noted config tid w.db past) op fun answer =>
        Noted config tid w.db (⟨op, answer⟩ :: past) := by
    intro v choice hinv hnoted _
    have hstep : Step config tid v (v.exec tid op choice).1 := hnoted.step hinv hallowed choice
    exact ⟨hinv.step hstep, hstep, hnoted.call hinv (hinv.step hstep) hallowed⟩
  have hreply : (do return f (← p) : Service Reply).Along (Chat.Allowed (discipline config) w.db)
      (fun past reply => ∃ value, reply = f value ∧ post past value) [] :=
    (h w.db).bind fun past value hpost => ⟨value, rfl, hpost⟩
  refine (Triple.of_along Noted.stable hcall hreply w hinv (.nil tid hinv)).mono ?_
  rintro _ v ⟨past, ⟨value, rfl, hpost⟩, hnoted⟩
  exact hfinal hpost hnoted

/-! ## Answers -/

/-- A response with code OK names a stored message of the request. -/
def Answered (user : UInt64) (sequence : UInt32)
    (response : SendMessageResponse) (w : World) : Prop :=
  ∀ common, response.response = some common → common.code = ErrorCode.ok.toInt32 →
    ∃ row, w.db.messages.lookup response.messageId = some row ∧
      row.fromUserId = user ∧ row.clientSequenceId = sequence ∧
      row.createdAt = response.serverTimestamp

theorem Noted.answered (h : Noted config tid start past w)
    {build : UInt64 → Int64 → MessageRecord} {response : SendMessageResponse}
    {user : UInt64} {sequence : UInt32}
    (hanswers : Chat.Answers (discipline config) build past response)
    (hbuild : ∀ messageId now, (build messageId now).fromUserId = user ∧
      (build messageId now).clientSequenceId = sequence) :
    Answered user sequence response w := by
  intro common hcommon hcode
  obtain ⟨messageId, now, owners, hanswered⟩ := hanswers
  have hstored {row found : MessageRecord} (horigin : found.origin = row.origin)
      (hfound : w.db.messages.lookup row.messageId = some found)
      (hnames : Chat.Names response row) (hsame : row.fromUserId = user ∧
        row.clientSequenceId = sequence) :
      ∃ row, w.db.messages.lookup response.messageId = some row ∧
        row.fromUserId = user ∧ row.clientSequenceId = sequence ∧
        row.createdAt = response.serverTimestamp :=
    ⟨found, hnames.messageId ▸ hfound, (congrArg MessageRecord.fromUserId horigin).trans hsame.1,
      (congrArg MessageRecord.clientSequenceId horigin).trans hsame.2,
      (congrArg MessageRecord.createdAt horigin).trans hnames.timestamp.symm⟩
  obtain ⟨huser, hsequence⟩ := hbuild messageId now
  rcases hanswered common hcommon hcode with ⟨row, hfound, hnames⟩ | ⟨hstores, hnames⟩
  · obtain ⟨hsender, hnumber, found, hrow, horigin⟩ := hfound.stored h.keyed h.recorded
    exact hstored horigin hrow hnames ⟨hsender.trans huser, hnumber.trans hsequence⟩
  · obtain ⟨found, hrow, horigin⟩ := hstores.stored h.recorded
    exact hstored horigin hrow hnames ⟨huser, hsequence⟩

theorem toMessageData_wellFormed (traceId : TraceId) (htext : IsText row.content) :
    (toMessageData traceId.bytes row).WellFormed := by
  have hlength := traceId.length_le
  refine ⟨⟨htext.utf8, htext.length_lt⟩, traceId.utf8, ?_⟩
  show traceId.bytes.length < 2 ^ 31
  omega

theorem announced_of_stamped {traceId : TraceId} {topic : Foundation.Wire.Bytes}
    (htext : IsText row.content)
    (htopic : topic = if row.groupId = 0 then config.message.topicSingle
      else config.message.topicGroup)
    (h : Chat.Stamped (Chat.sendEvent traceId topic row) event) :
    Announced config row event := by
  obtain ⟨createdAt, updatedAt, rfl⟩ := h
  exact ⟨⟨rfl, rfl, htopic, rfl, traceId.bytes,
    MessageData.parse_serialize (toMessageData_wellFormed traceId htext)⟩, rfl, rfl⟩

def RecalledBy (tid : Nat) (messageId : UInt64) (w : World) : Prop :=
  ∃ writes, (tid, writes) ∈ w.log ∧ Recalls (tid, writes) messageId

def IsRecalled (messageId : UInt64) (w : World) : Prop :=
  ∃ row, w.db.messages.lookup messageId = some row ∧ row.recalled = true

/-- What the codes of a recall response say. -/
structure RecallAnswered (tid : Nat) (messageId : UInt64)
    (response : RecallMessageResponse) (w : World) : Prop where
  ok : response.response.code = ErrorCode.ok.toInt32 → RecalledBy tid messageId w
  already : response.response.code = ErrorCode.messageAlreadyRecalled.toInt32 →
    IsRecalled messageId w

theorem Noted.recallAnswered (h : Noted config tid start past w) {response : RecallMessageResponse}
    (hexplained : Chat.RecallExplained messageId past response) :
    RecallAnswered tid messageId response w where
  ok hcode := by
    obtain ⟨earlier, calls, now, hcommit, hstaged⟩ := hexplained.ok hcode
    obtain ⟨db, tx, hruns, hlog, _⟩ := h.recorded.committed hcommit hstaged
    obtain ⟨choice, locked, base, _, _, _, hresult, _, hrest⟩ := hruns.uncons
    simp only [(plan_recallMessage hresult).1] at hrest
    exact ⟨tx.writes, hlog, now, hrest.writes_mem List.mem_cons_self⟩
  already hcode := by
    obtain ⟨record, hfound, hrecalled⟩ := hexplained.already hcode
    obtain ⟨row, hrow, _, hkept⟩ := h.recorded.evidence _ hfound
    exact ⟨row, hrow, hkept hrecalled⟩

end NebulaIM.Services
