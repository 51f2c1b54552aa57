import NebulaIM.Chat.System
import NebulaIM.Backend.Rows
import NebulaIM.Foundation.History

/-!
# Transactions and the history of a request

A request is judged by the calls it has made: `Work` lists the statements that a
transaction may consist of when it commits, `Plain` those that run without one.
`Recorded` says what the calls made so far mean for the world, whatever the other
requests do under a discipline: the rows that an open transaction has locked stay
as they are, or nobody else acts at all while it is open.
-/

namespace NebulaIM.Chat

open Foundation Foundation.Store
open Backend Protocol Message

variable {w' : World} {client : Nat} {op : Op} {choice : Choice}

abbrev Calls := Past Op Op.Res

/-! ## The statements of a transaction -/

structure Call where
  stmt : Stmt
  answer : stmt.Res

def succeeded : (stmt : Stmt) → stmt.Res → Bool
  | .insertGroup _, answer => answer.isSome
  | .insertMember _, ok => ok
  | .insertMessage _, ok => ok
  | .recallMessage _ _, ok => ok
  | .upsertOne _ _, ok => ok
  | .recalculateUnreadForConversation _ _, ok => ok
  | .markLastMessageRecalled _ _ _, ok => ok
  | .recalculateUnread _ _ _, ok => ok
  | .insertEvent _, ok => ok
  | .markBatchAsPulled _ _, ok => ok
  | .markAsAcked _ _, ok => ok
  | .upsertDelivered _ _ _, ok => ok
  | .markRead _ _ _, ok => ok
  | .markConversationRead _ _ _ _ _, ok => ok
  | _, _ => false

theorem succeeded_failed (stmt : Stmt) : succeeded stmt stmt.failed = false := by
  cases stmt <;> rfl

/-- The statements of the transaction that the history leaves open, if all of
them succeeded. -/
def staged : Calls → Option (List Call)
  | [] => none
  | ⟨.begin, ok⟩ :: past => if ok then some [] else staged past
  | ⟨.commit, _⟩ :: _ => none
  | ⟨.rollback, _⟩ :: _ => none
  | ⟨.exec stmt, answer⟩ :: past =>
    if succeeded stmt answer then
      (staged past).map fun calls => calls ++ [⟨stmt, answer⟩]
    else none
  | _ :: past => staged past

def extend {Res : Type} (tx : Tx dialect) (plan : Plan dialect Res) :
    Tx dialect :=
  ⟨tx.writes ++ plan.writes, plan.locks ++ tx.locks⟩

/-- The transaction grows by the statements; each was planned on rows that are
the same as those of `db`, as far as the transaction has locked them. -/
inductive Runs (same : List Key → Db → Db → Prop) (start db : Db) :
    Tx dialect → List Call → Tx dialect → Prop
  | nil (tx : Tx dialect) : Runs same start db tx [] tx
  | cons {tx final : Tx dialect} {calls : List Call} (stmt : Stmt)
      (choice : Choice) (locked : List Key) (base : Db)
      (grown : Db.Grown start base) (keyed : base.Keyed)
      (reached : Db.Grown base db)
      (kept : same
        ((stmt.plan choice (applyAll (D := dialect) base tx.writes)
          locked).locks ++ tx.locks) base db)
      (rest : Runs same start db
        (extend tx (stmt.plan choice (applyAll (D := dialect) base tx.writes)
          locked)) calls final) :
      Runs same start db tx
        (⟨stmt, (stmt.plan choice (applyAll (D := dialect) base tx.writes)
          locked).result⟩ :: calls) final

namespace Runs

variable {same : List Key → Db → Db → Prop} {start db : Db}
variable {tx final : Tx dialect} {calls : List Call}

theorem locks_mem (h : Runs same start db tx calls final) :
    ∀ key ∈ tx.locks, key ∈ final.locks := by
  induction h with
  | nil => exact fun _ hkey => hkey
  | cons stmt choice locked base grown keyed reached kept rest ih =>
    exact fun key hkey => ih key (List.mem_append_right _ hkey)

theorem snoc (h : Runs same start db tx calls final) (stmt : Stmt)
    (choice : Choice) (locked : List Key) {base : Db}
    (hgrown : Db.Grown start base) (hkeyed : base.Keyed)
    (hreached : Db.Grown base db)
    (hkept : same
      ((stmt.plan choice (applyAll (D := dialect) base final.writes)
        locked).locks ++ final.locks) base db) :
    Runs same start db tx
      (calls ++ [⟨stmt, (stmt.plan choice
        (applyAll (D := dialect) base final.writes) locked).result⟩])
      (extend final (stmt.plan choice (applyAll (D := dialect) base final.writes) locked)) := by
  induction h with
  | nil tx => exact .cons stmt choice locked base hgrown hkeyed hreached hkept (.nil _)
  | cons first c l b hg hk hr hs rest ih => exact .cons first c l b hg hk hr hs (ih hkept)

end Runs

/-! ## Units of work -/

/-- What the requests do, as far as the claims tell them apart. -/
inductive Kind where
  | single
  | group
  | recall
  | ack
  | pull
  | read
  | membership
  | flags
  | cleanup
  | offline
  deriving DecidableEq, Repr

def Request.kind : Request → Kind
  | .sendSingleMessage _ _ => .single
  | .sendGroupMessage _ _ => .group
  | .recallMessage _ _ => .recall
  | .ackMessage _ _ => .ack
  | .pullOfflineMessages _ _ => .pull
  | .markMessageRead _ _ => .read
  | .markConversationRead _ _ => .read
  | .getMessageReadState _ _ => .read
  | .createGroup _ _ => .membership
  | .joinGroup _ _ => .membership
  | .leaveGroup _ _ => .membership
  | .deleteConversation _ _ => .flags
  | .pinConversation _ _ => .flags
  | .muteConversation _ _ => .flags
  | .runCleanup _ _ _ => .cleanup
  | .insertOfflineMessage _ _ _ _ => .offline
  | .handleKafkaMessage _ _ => .offline

/-- The row that a send upserts for one of the users who see the message. -/
def listing (record : MessageRecord) (owner : UInt64) : Conversation :=
  { conversationId := record.conversationId
    conversationType := if record.groupId = 0 then .single else .group
    ownerUserId := owner
    peerUserId :=
      if record.groupId ≠ 0 then 0
      else if owner = record.fromUserId then record.toUserId
      else record.fromUserId
    groupId := record.groupId
    lastMessageId := record.messageId
    lastMessagePreview := buildPreview record.content
    lastMessageAt := record.createdAt
    createdAt := record.createdAt
    updatedAt := record.createdAt }

def listCall (record : MessageRecord) (owner : UInt64) : Call :=
  ⟨.upsertOne (listing record owner) (owner != record.fromUserId), true⟩

def sendCalls (record : MessageRecord) (owners : List UInt64) (event : OutboxEvent) : List Call :=
  ⟨.insertMessage record, true⟩ :: (owners.map (listCall record) ++ [⟨.insertEvent event, true⟩])

def readCalls (mark : Stmt) (answer : mark.Res) (userId conversationId : UInt64)
    (now : Int64) : List Call :=
  [⟨mark, answer⟩, ⟨.recalculateUnread userId conversationId now, true⟩]

/-- The event that goes with a recall. -/
structure TellsRecall (messageId : UInt64) (event : OutboxEvent) : Prop where
  type : event.aggregateType = .messageRecall
  pending : event.status = .pending
  aggregate : event.aggregateId = messageId

/-- The statements that a request may commit together, after the given calls. -/
inductive Work (kinds : Kind → Prop) (sent : MessageRecord → OutboxEvent → Prop)
    (past : Calls) : List Call → Prop
  | single {record : MessageRecord} (event : OutboxEvent) (kind : kinds .single)
      (accepted : sent record event) (fresh : record.recalled = false)
      (direct : record.groupId = 0)
      (apart : record.fromUserId ≠ record.toUserId)
      (conversation : record.conversationId =
        ConversationId.single record.fromUserId record.toUserId) :
      Work kinds sent past (sendCalls record [record.fromUserId, record.toUserId] event)
  | group {record : MessageRecord} {members : List UInt64} (event : OutboxEvent)
      (kind : kinds .group) (accepted : sent record event)
      (fresh : record.recalled = false) (indirect : record.groupId ≠ 0)
      (conversation : record.conversationId = ConversationId.group record.groupId)
      (listed : ⟨.query (.listMembers record.groupId), members⟩ ∈ past) :
      Work kinds sent past (sendCalls record members event)
  | recallMessage {messageId : UInt64} {record : MessageRecord} (now : Int64)
      (event : OutboxEvent) (kind : kinds .recall)
      (found : ⟨.query (.getMessageById messageId), some record⟩ ∈ past)
      (tells : TellsRecall messageId event) :
      Work kinds sent past [⟨.recallMessage messageId now, true⟩, ⟨.insertEvent event, true⟩,
          ⟨.recalculateUnreadForConversation record.conversationId now, true⟩,
          ⟨.markLastMessageRecalled record.conversationId record.messageId now, true⟩]
  | markRead {messageId : UInt64} {record : MessageRecord} {now : Int64}
      (userId : UInt64) (kind : kinds .read)
      (found : ⟨.query (.getMessageById messageId), some record⟩ ∈ past)
      (clock : ⟨.nowMs, now⟩ ∈ past) :
      Work kinds sent past
        (readCalls (.markRead messageId userId now) true userId record.conversationId now)
  | markConversationRead {now : Int64}
      (conversationId userId upToMessageId : UInt64) (upToCreatedAt : Int64)
      (kind : kinds .read) (clock : ⟨.nowMs, now⟩ ∈ past) :
      Work kinds sent past
        (readCalls (.markConversationRead conversationId userId upToMessageId
          upToCreatedAt now) true userId conversationId now)
  | ack {messageId : UInt64} {record : MessageRecord} (userId : UInt64)
      (now : Int64) (kind : kinds .ack)
      (found : ⟨.query (.getMessageById messageId), some record⟩ ∈ past) :
      Work kinds sent past [⟨.upsertDelivered messageId userId now, true⟩,
          ⟨.markAsAcked userId messageId, true⟩]
  | pull (userId : UInt64) (messageIds : List UInt64) (kind : kinds .pull) :
      Work kinds sent past [⟨.markBatchAsPulled userId messageIds, true⟩]
  | pullNothing (kind : kinds .pull) : Work kinds sent past []
  | createGroup (group : GroupRecord) (groupId : UInt64) (kind : kinds .membership) :
      Work kinds sent past [⟨.insertGroup group, some groupId⟩,
          ⟨.insertMember ⟨groupId, group.ownerId, 1⟩, true⟩]

/-- The statements that run inside transactions. -/
def Staging : Stmt → Prop
  | .insertGroup _ | .insertMember _ | .insertMessage _ => True
  | .recallMessage _ _ | .upsertOne _ _ => True
  | .recalculateUnreadForConversation _ _ => True
  | .markLastMessageRecalled _ _ _ | .recalculateUnread _ _ _ => True
  | .insertEvent _ | .markBatchAsPulled _ _ | .markAsAcked _ _ => True
  | .upsertDelivered _ _ _ | .markRead _ _ _ => True
  | .markConversationRead _ _ _ _ _ => True
  | _ => False

/-- The statements that may run outside a transaction; `saved` limits the offline
copies. -/
def Plain (kinds : Kind → Prop) (saved : OfflineMessage → Prop) : Stmt → Prop
  | .getUserById _ | .isFriend _ _ | .getGroupById _ | .isMember _ _ => True
  | .isGroupOwner _ _ | .listMembers _ | .getMessageById _ => True
  | .getMessageByClientSequence _ _ | .isOwner _ _ => True
  | .listOfflineMessages _ _ | .getReadState _ | .countExpired _ _ => True
  | .addMember _ _ _ | .removeMember _ _ => kinds .membership
  | .deleteConversation _ _ _ | .pinConversation _ _ _ _ => kinds .flags
  | .muteConversation _ _ _ _ => kinds .flags
  | .insertOfflineMessage message => kinds .offline ∧ message.status = .unread ∧ saved message
  | .deleteExpired _ _ _ => kinds .cleanup
  | _ => False

/-! ## Disciplines -/

/-- The conditions on a run, and what a transaction may rely on because of
them. -/
structure Discipline where
  rules : Rules
  kinds : Kind → Prop
  /-- The messages that may be stored, with the events that go with them. -/
  sent : MessageRecord → OutboxEvent → Prop
  /-- The offline copies that a request spawned on the given rows may save. -/
  saved : Db → OfflineMessage → Prop
  clock : Int64 → Prop
  /-- `same keys` relates the rows before and after the steps of others, for a
  transaction that has locked `keys`. -/
  same : List Key → Db → Db → Prop
  same_refl : ∀ keys db, same keys db db
  same_trans : ∀ {keys first second third},
    same keys first second → same keys second third → same keys first third
  same_mono : ∀ {keys more before after}, (∀ key ∈ keys, key ∈ more) →
    same more before after → same keys before after
  same_agree : ∀ {keys before after}, same keys before after →
    ∀ key ∈ keys, Key.Agree before after key
  same_step : ∀ {w : World} {client other op choice tx},
    rules.call w client op choice → w.sql.WellFormed → other ≠ client →
    w.sql.txs.lookup other = some tx →
    same tx.locks w.db (w.exec client op choice).1.db
  same_env : ∀ {w : World} {other event tx}, rules.env w event →
    w.sql.txs.lookup other = some tx → same tx.locks w.db (w.env event).db
  kinds_spawn : ∀ {w request}, rules.spawn w request → kinds request.kind
  clock_call : ∀ {w client choice}, rules.call w client .nowMs choice → clock choice.clock

/-! ## What the history says -/

variable (D : Discipline)

/-- What an answer says about the world, from then on. -/
def Evidence (w : World) : Exchange Op Op.Res → Prop
  | ⟨.query (.getMessageById id), some row⟩ =>
    ∃ now, w.db.messages.lookup id = some now ∧ now.origin = row.origin ∧
      (row.recalled = true → now.recalled = true)
  | ⟨.query (.getMessageByClientSequence fromUserId clientSequenceId), some row⟩ =>
      row.fromUserId = fromUserId ∧ row.clientSequenceId = clientSequenceId ∧
      ∃ now, w.db.messages.lookup row.messageId = some now ∧ now.origin = row.origin
  | ⟨.query (.listMembers _), members⟩ => members.Nodup
  | ⟨.nowMs, now⟩ => D.clock now
  | _ => True

/-- The statements were committed by the thread, on rows that have only grown
since. -/
def Committed (tid : Nat) (start : Db) (calls : List Call) (w : World) : Prop :=
  ∃ db tx, Runs D.same start db {} calls tx ∧ (tid, tx.writes) ∈ w.log ∧
    Db.Grown (applyAll (D := dialect) db tx.writes) w.db

structure Recorded (tid : Nat) (start : Db) (past : Calls) (w : World) : Prop where
  grown : Db.Grown start w.db
  evidence : ∀ exchange ∈ past, Evidence D w exchange
  draft : ∀ {calls tx}, staged past = some calls →
    w.sql.txs.lookup tid = some tx → Runs D.same start w.db {} calls tx
  committed : ∀ {earlier calls}, (⟨.commit, true⟩ : Exchange Op Op.Res) :: earlier <:+ past →
    staged earlier = some calls → Committed D tid start calls w

/-- What a request spawned on the rows `start` may do next. -/
def Allowed (start : Db) (past : Calls) : Op → Prop
  | .commit => ∃ calls, staged past = some calls ∧ Work D.kinds D.sent past calls
  | .query stmt => staged past = none ∧ Plain D.kinds (D.saved start) stmt
  | .exec stmt => Staging stmt
  | _ => True

structure Sound (w : World) : Prop where
  engine : w.sql.WellFormed
  keyed : w.db.Keyed

structure Rely (client : Nat) (w w' : World) : Prop where
  draft : ∀ {tx}, w'.sql.txs.lookup client = some tx →
    w.sql.txs.lookup client = some tx ∧ D.same tx.locks w.db w'.db
  grown : Db.Grown w.db w'.db
  log : w.log <:+ w'.log

/-- One call of a request, with the history it is made after. -/
structure Step (client : Nat) (w w' : World) : Prop where
  call : ∃ start past op choice, Recorded D client start past w ∧
    Allowed D start past op ∧ D.rules.call w client op choice ∧
    w' = (w.exec client op choice).1

variable {D}

/-! ## What others leave alone -/

variable {calls : List Call}

theorem Runs.kept {start before after : Db} {tx final : Tx dialect}
    (h : Runs D.same start before tx calls final)
    (hgrown : Db.Grown before after) (hsame : D.same final.locks before after) :
    Runs D.same start after tx calls final := by
  induction h with
  | nil tx => exact .nil tx
  | cons stmt choice locked base grown keyed reached kept rest ih =>
    exact .cons stmt choice locked base grown keyed (reached.trans hgrown)
      (D.same_trans kept (D.same_mono rest.locks_mem hsame)) (ih hsame)

variable {w : World}

theorem Evidence.mono {exchange : Exchange Op Op.Res}
    (h : Evidence D w exchange) (hgrown : Db.Grown w.db w'.db) :
    Evidence D w' exchange := by
  unfold Evidence at h ⊢
  split
  · next id row =>
    obtain ⟨now, hnow, horigin, hrecalled⟩ := h
    obtain ⟨later, hlater, horigin', hrecalled'⟩ := hgrown _ _ hnow
    exact ⟨later, hlater, horigin'.trans horigin, fun hrow => hrecalled' (hrecalled hrow)⟩
  · next fromUserId clientSequenceId row =>
    obtain ⟨hfrom, hsequence, now, hnow, horigin⟩ := h
    obtain ⟨later, hlater, horigin', _⟩ := hgrown _ _ hnow
    exact ⟨hfrom, hsequence, later, hlater, horigin'.trans horigin⟩
  · exact h
  · exact h
  · trivial

theorem Committed.mono {tid : Nat} {start : Db} (h : Committed D tid start calls w)
    (hgrown : Db.Grown w.db w'.db) (hlog : w.log <:+ w'.log) : Committed D tid start calls w' := by
  obtain ⟨db, tx, hruns, hmem, hstored⟩ := h
  exact ⟨db, tx, hruns, hlog.subset hmem, hstored.trans hgrown⟩

theorem Rely.refl (client : Nat) (w : World) : Rely D client w w :=
  ⟨fun htx => ⟨htx, D.same_refl _ _⟩, .refl _, List.suffix_refl _⟩

theorem Rely.trans {first second third : World} (h₁ : Rely D client first second)
    (h₂ : Rely D client second third) :
    Rely D client first third where
  draft htx := by
    obtain ⟨hsecond, hsame₂⟩ := h₂.draft htx
    obtain ⟨hfirst, hsame₁⟩ := h₁.draft hsecond
    exact ⟨hfirst, D.same_trans hsame₁ hsame₂⟩
  grown := h₁.grown.trans h₂.grown
  log := h₁.log.trans h₂.log

theorem Recorded.stable {tid : Nat} {start : Db} {past : Calls}
    (h : Recorded D tid start past w) (hrely : Rely D tid w w') :
    Recorded D tid start past w' where
  grown := h.grown.trans hrely.grown
  evidence exchange hmem := (h.evidence exchange hmem).mono hrely.grown
  draft hstaged htx := by
    obtain ⟨hopen, hsame⟩ := hrely.draft htx
    exact (h.draft hstaged hopen).kept hrely.grown hsame
  committed hpast hstaged := (h.committed hpast hstaged).mono hrely.grown hrely.log

/-! ## What a call does -/

theorem exec_grown (w : World) (client : Nat) (op : Op) (choice : Choice) :
    Db.Grown w.db (w.exec client op choice).1.db := by
  rcases w.exec_effect client op choice with ⟨hdb, _⟩ | ⟨writes, hdb, _⟩
  · exact .of_eq (congrArg Db.messages hdb)
  · exact hdb ▸ .applyAll w.db writes

theorem exec_log (w : World) (client : Nat) (op : Op) (choice : Choice) :
    w.log <:+ (w.exec client op choice).1.log := by
  rcases w.exec_effect client op choice with ⟨_, hlog⟩ | ⟨_, _, hlog⟩
  · exact hlog ▸ List.suffix_refl w.log
  · exact hlog ▸ List.suffix_cons _ w.log

theorem Step.log {w w' : World} (h : Step D client w w') : w.log <:+ w'.log := by
  obtain ⟨_, _, op, choice, _, _, _, rfl⟩ := h.call
  exact exec_log w client op choice

theorem Sound.exec (h : Sound w) (client : Nat) (op : Op)
    (choice : Choice) : Sound (w.exec client op choice).1 where
  engine := (w.exec_moves client op choice).wellFormed h.engine
  keyed := by
    rcases w.exec_effect client op choice with
      ⟨hdb, _⟩ | ⟨writes, hdb, _⟩
    · exact hdb ▸ h.keyed
    · exact hdb ▸ h.keyed.applyAll writes

theorem exec_rely (h : Sound w) {other : Nat}
    (hrules : D.rules.call w client op choice) (hne : other ≠ client) :
    Rely D other w (w.exec client op choice).1 where
  draft htx := by
    rw [(w.exec_moves client op choice).lookup_ne hne] at htx
    exact ⟨htx, D.same_step hrules h.engine hne htx⟩
  grown := exec_grown w client op choice
  log := exec_log w client op choice

theorem env_messages (w : World) (event : Env) :
    (w.env event).db.messages = w.db.messages ∧ (w.env event).log = w.log := by
  cases event with
  | redis key value => cases value <;> exact ⟨rfl, rfl⟩
  | _ => exact ⟨rfl, rfl⟩

theorem env_sound (h : Sound w) (event : Env) : Sound (w.env event) := by
  cases event with
  | disconnect client => exact ⟨(Engine.Moves.closed w.sql).wellFormed h.engine, h.keyed⟩
  | redis key value => cases value <;> exact ⟨h.engine, h.keyed⟩
  | accounts users friendships =>
    exact ⟨⟨h.engine.exclusive, h.engine.covered⟩,
      ⟨h.keyed.messages, h.keyed.outbox, h.keyed.conversations,
        h.keyed.offline, h.keyed.members, h.keyed.receipts⟩⟩

theorem env_lookup {event : Env} {tx : Tx dialect}
    (htx : (w.env event).sql.txs.lookup client = some tx) :
    w.sql.txs.lookup client = some tx := by
  cases event with
  | disconnect other => exact ((Engine.close_rely other client w.sql).keeps htx).1
  | redis key value => cases value <;> exact htx
  | accounts users friendships => exact htx

theorem env_rely {event : Env} (hrules : D.rules.env w event)
    (client : Nat) : Rely D client w (w.env event) where
  draft htx := ⟨env_lookup htx, D.same_env hrules (env_lookup htx)⟩
  grown := .of_eq (env_messages w event).1
  log := (env_messages w event).2 ▸ List.suffix_refl w.log

variable (D) in
def contract (config : Config) : Contract (chat config) D.rules where
  inv := Sound
  rely := Rely D
  guar := Step D
  rely_refl := Rely.refl
  rely_trans := Rely.trans
  guar_rely hne hinv hstep := by
    obtain ⟨start, past, op, choice, _, _, hrules, rfl⟩ := hstep.call
    exact exec_rely hinv hrules (Ne.symm hne)
  env_inv hinv _ := env_sound hinv _
  env_rely _ hrules := env_rely hrules _

/-! ## The history after a call -/

section Calls

variable {tid : Nat} {start : Db} {past : Calls} {w : World}

theorem query_answer (w : World) (tid : Nat) (stmt : Stmt) (choice : Choice) :
    (w.exec tid (.query stmt) choice).2 = stmt.failed ∨
      ∃ locked, (w.exec tid (.query stmt) choice).2 = (stmt.plan choice w.db locked).result := by
  rcases w.query_cases tid stmt choice with h | ⟨locked, _, h⟩ |
    ⟨locked, answer, _, hanswer, h⟩ <;> rw [h]
  · exact .inl rfl
  · exact .inr ⟨locked, rfl⟩
  · exact hanswer.imp And.right fun heq => ⟨locked, heq⟩

theorem membersOf_nodup {db : Db} (h : db.Keyed) (groupId : UInt64) :
    (db.membersOf groupId).Nodup := by
  have hrows : ((Table.rows db.members).filter fun row =>
      row.groupId = groupId).Pairwise fun a b => a.userId ≠ b.userId := by
    have hpairs := (List.pairwise_map.mp h.members.nodup).filter
      fun row => decide (row.groupId = groupId)
    refine hpairs.imp_of_mem fun {a b} ha hb hne heq => hne ?_
    simp only [List.mem_filter, decide_eq_true_eq] at ha hb
    rw [ha.2, hb.2, heq]
  simp only [Db.membersOf]
  exact (List.perm_insertionSort _ _).nodup_iff.mpr (List.pairwise_map.mpr hrows)

theorem evidence_query (hinv : Sound w) (stmt : Stmt) (choice : Choice) :
    Evidence D w ⟨.query stmt, (w.exec tid (.query stmt) choice).2⟩ := by
  generalize hanswer : (w.exec tid (.query stmt) choice).2 = answer
  have hcases := query_answer w tid stmt choice
  rw [hanswer] at hcases
  cases stmt with
  | getMessageById id =>
    cases answer with
    | none => trivial
    | some row =>
      rcases hcases with hfailed | ⟨locked, hread⟩
      · cases hfailed
      · exact ⟨row, hread.symm, rfl, fun h => h⟩
  | getMessageByClientSequence fromUserId clientSequenceId =>
    cases answer with
    | none => trivial
    | some row =>
      rcases hcases with hfailed | ⟨locked, hread⟩
      · cases hfailed
      · obtain ⟨hrow, hfrom, hsequence⟩ := findSequence_eq_some hinv.keyed hread.symm
        exact ⟨hfrom, hsequence, row, hrow, rfl⟩
  | listMembers groupId =>
    rcases hcases with hfailed | ⟨locked, hread⟩
    · rw [hfailed]
      exact List.nodup_nil
    · rw [hread]
      exact membersOf_nodup hinv.keyed groupId
  | _ => trivial

theorem evidence_call (hinv : Sound w) (hrules : D.rules.call w tid op choice) :
    Evidence D w ⟨op, (w.exec tid op choice).2⟩ := by
  cases op with
  | query stmt => exact evidence_query hinv stmt choice
  | nowMs => exact D.clock_call hrules
  | _ => trivial

theorem draft_exec (hinv : Sound w) (h : Recorded D tid start past w) (stmt : Stmt)
    (choice : Choice) {tx : Tx dialect}
    (hstaged : staged (⟨.exec stmt, (w.exec tid (.exec stmt) choice).2⟩ :: past) = some calls)
    (htx : (w.exec tid (.exec stmt) choice).1.sql.txs.lookup tid = some tx) :
    Runs D.same start (w.exec tid (.exec stmt) choice).1.db {} calls tx := by
  have hfailed {answer : stmt.Res} (hanswer : answer = stmt.failed)
      (hcalls : staged (⟨.exec stmt, answer⟩ :: past) = some calls) : False := by
    subst hanswer
    simp [staged, succeeded_failed] at hcalls
  simp only [World.exec] at hstaged htx ⊢
  rcases w.sql.statement_cases tid (stmt.plan choice) stmt.failed choice.fault
    with hcall | hcall | ⟨before, hopen, hcall⟩
  · exact (hfailed (congrArg Prod.snd hcall) hstaged).elim
  · exact (hfailed (congrArg Prod.snd hcall) hstaged).elim
  · rw [hcall] at hstaged htx ⊢
    rw [Engine.stage, AList.lookup_insert] at htx
    cases htx
    simp only [staged] at hstaged
    split at hstaged
    · obtain ⟨earlier, hearlier, rfl⟩ := Option.map_eq_some_iff.mp hstaged
      exact (h.draft hearlier hopen).snoc stmt choice _ h.grown hinv.keyed
        (.refl _) (D.same_refl _ _)
    · cases hstaged

theorem draft_call (hinv : Sound w) (h : Recorded D tid start past w)
    (hallowed : Allowed D start past op) {tx : Tx dialect}
    (hstaged : staged (⟨op, (w.exec tid op choice).2⟩ :: past) = some calls)
    (htx : (w.exec tid op choice).1.sql.txs.lookup tid = some tx) :
    Runs D.same start (w.exec tid op choice).1.db {} calls tx := by
  have hsql (hop : Inert op) : (w.exec tid op choice).1.sql = w.sql := inert_sql op hop w choice
  cases op with
  | begin =>
    simp only [World.exec, Engine.begin] at hstaged htx ⊢
    split at htx
    · next hfault =>
      simp only [if_pos hfault, staged, if_true] at hstaged
      rw [Engine.open_, AList.lookup_insert] at htx
      cases htx
      cases hstaged
      exact .nil _
    · next hfault =>
      simp only [if_neg hfault, staged, Bool.false_eq_true, if_false] at hstaged ⊢
      exact h.draft hstaged htx
  | commit => cases hstaged
  | rollback => cases hstaged
  | exec stmt => exact draft_exec hinv h stmt choice hstaged htx
  | query stmt =>
    have hnone : staged past = some calls := hstaged
    rw [hallowed.1] at hnone
    cases hnone
  | _ =>
    rw [hsql trivial] at htx
    rw [World.db, hsql trivial]
    exact h.draft hstaged htx

theorem committed_call (h : Recorded D tid start past w)
    (hok : (w.exec tid .commit choice).2 = true) (hstaged : staged past = some calls) :
    Committed D tid start calls (w.exec tid .commit choice).1 := by
  rcases w.commit_cases tid choice with hcall | ⟨tx, ok, hopen, hcall⟩
  · rw [hcall] at hok
    cases hok
  · rw [hcall]
    exact ⟨w.db, tx, h.draft hstaged hopen, List.mem_cons_self, .refl _⟩

theorem Recorded.call (hinv : Sound w) (h : Recorded D tid start past w)
    (hallowed : Allowed D start past op) (hrules : D.rules.call w tid op choice) :
    Recorded D tid start (⟨op, (w.exec tid op choice).2⟩ :: past) (w.exec tid op choice).1 := by
  have hgrown : Db.Grown w.db (w.exec tid op choice).1.db := exec_grown w tid op choice
  constructor
  case grown => exact h.grown.trans hgrown
  case evidence =>
    intro exchange hmem
    rcases List.mem_cons.mp hmem with rfl | hold
    · exact (evidence_call hinv hrules).mono hgrown
    · exact (h.evidence exchange hold).mono hgrown
  case draft =>
    intro calls tx hstaged htx
    exact draft_call hinv h hallowed hstaged htx
  case committed =>
    intro earlier calls hpast hstaged
    rcases List.suffix_cons_iff.mp hpast with heq | hold
    · obtain ⟨hexchange, rfl⟩ := List.cons.inj heq
      obtain ⟨rfl, hanswer⟩ := Exchange.mk.inj hexchange
      exact committed_call h (eq_of_heq hanswer).symm hstaged
    · exact (h.committed hold hstaged).mono hgrown (exec_log w tid op choice)

theorem recorded_call {config : Config} (hallowed : Allowed D start past op) :
    CallSpec (contract D config) tid (Recorded D tid start past) op
      fun answer => Recorded D tid start (⟨op, answer⟩ :: past) :=
  fun _ choice hinv h hrules => ⟨hinv.exec tid op choice,
    ⟨start, past, op, choice, h, hallowed, hrules, rfl⟩, h.call hinv hallowed hrules⟩

end Calls

end NebulaIM.Chat
