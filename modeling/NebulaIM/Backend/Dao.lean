import NebulaIM.Backend.Schema
import NebulaIM.Protocol.Identifiers
import Mathlib.Data.List.Sort

/-!
# The statements of the data access objects

One constructor for each SQL statement that the modelled services issue.  `plan`
says what a statement does to the rows its client sees: which rows it locks,
what it writes and what the data access object returns.  A plain `SELECT` locks
nothing; `affectedRows` counts the rows whose columns really change.
-/

namespace NebulaIM.Backend

open Foundation.Store
open Foundation.Wire (Bytes)
open Protocol (TraceId MessageReadState)

/-- What the outside decides about one call: whether it fails, the clock, the
next generated id, the `AUTO_INCREMENT` value, the next random token, and which
rows a `DELETE` with a limit takes first. -/
structure Choice where
  fault : Fault := .none
  clock : Int64 := 0
  id : UInt64 := 0
  token : TraceId := default
  first : Write → Bool := fun _ => true

/-- The tables that `RunCleanup` deletes from; `friend_requests` is not part of
the database here. -/
inductive CleanupTable where
  | outboxEvents
  | offlineMessages
  | friendRequests
  | messageReceipts
  deriving DecidableEq, Repr

inductive Stmt where
  -- UserDao, RelationDao
  | getUserById (userId : UInt64)
  | isFriend (userId friendId : UInt64)
  -- GroupDao
  | getGroupById (groupId : UInt64)
  | isMember (groupId userId : UInt64)
  | isGroupOwner (groupId userId : UInt64)
  | listMembers (groupId : UInt64)
  | insertGroup (group : GroupRecord)
  | insertMember (member : GroupMember)
  | addMember (groupId userId : UInt64) (role : Int)
  | removeMember (groupId userId : UInt64)
  -- MessageDao
  | getMessageById (messageId : UInt64)
  | getMessageByClientSequence (fromUserId : UInt64) (clientSequenceId : UInt32)
  | listConversationMessages (conversationId : UInt64) (beforeTime : Int64)
      (beforeMessageId : UInt64) (limit : Nat)
  | insertMessage (message : MessageRecord)
  | recallMessage (messageId : UInt64) (recalledAt : Int64)
  -- ConversationDao
  | isOwner (ownerUserId conversationId : UInt64)
  | upsertOne (conversation : Conversation) (increaseUnread : Bool)
  | recalculateUnreadForConversation (conversationId : UInt64) (now : Int64)
  | markLastMessageRecalled (conversationId messageId : UInt64) (recalledAt : Int64)
  | deleteConversation (ownerUserId conversationId : UInt64) (now : Int64)
  | recalculateUnread (ownerUserId conversationId : UInt64) (now : Int64)
  | pinConversation (ownerUserId conversationId : UInt64) (pinned : Bool) (now : Int64)
  | muteConversation (ownerUserId conversationId : UInt64) (muted : Bool) (now : Int64)
  -- OutboxDao
  | insertEvent (event : OutboxEvent)
  | selectClaimable (limit : Nat) (now : Int64)
  | claimEvent (eventId : UInt64) (leaseUntil : Int64) (token : Bytes) (now : Int64)
  | markEvent (eventId : UInt64) (token : Bytes) (mark : Mark) (now : Int64)
  -- OfflineMessageDao, MessageReceiptDao
  | insertOfflineMessage (message : OfflineMessage)
  | listOfflineMessages (userId : UInt64) (limit : Nat)
  | markBatchAsPulled (userId : UInt64) (messageIds : List UInt64)
  | markAsAcked (userId messageId : UInt64)
  | upsertDelivered (messageId userId : UInt64) (deliveredAt : Int64)
  | markRead (messageId userId : UInt64) (readAt : Int64)
  | markConversationRead (conversationId userId upToMessageId : UInt64)
      (upToCreatedAt readAt : Int64)
  | getReadState (messageId : UInt64)
  -- AdminServiceImpl
  | countExpired (table : CleanupTable) (before : Int64)
  | deleteExpired (table : CleanupTable) (before : Int64) (limit : Nat)

namespace Stmt

/-- What the data access object returns.  Of a user only the presence is read. -/
@[reducible] def Res : Stmt → Type
  | .getGroupById _ => Option GroupRecord
  | .listMembers _ => List UInt64
  | .insertGroup _ => Option UInt64
  | .getMessageById _ | .getMessageByClientSequence _ _ => Option MessageRecord
  | .listConversationMessages _ _ _ _ => List MessageRecord
  | .selectClaimable _ _ => List OutboxEvent
  | .listOfflineMessages _ _ => List OfflineMessage
  | .getReadState _ => List MessageReadState
  | .countExpired _ _ | .deleteExpired _ _ _ => Nat
  | _ => Bool

/-- The result without a connection, or when the server reports an error. -/
def failed : (stmt : Stmt) → stmt.Res
  | .getUserById _ | .isFriend _ _ => false
  | .getGroupById _ => none
  | .isMember _ _ | .isGroupOwner _ _ => false
  | .listMembers _ => []
  | .insertGroup _ => none
  | .insertMember _ | .addMember _ _ _ | .removeMember _ _ => false
  | .getMessageById _ | .getMessageByClientSequence _ _ => none
  | .listConversationMessages _ _ _ _ => []
  | .insertMessage _ | .recallMessage _ _ => false
  | .isOwner _ _ | .upsertOne _ _ => false
  | .recalculateUnreadForConversation _ _ => false
  | .markLastMessageRecalled _ _ _ | .deleteConversation _ _ _ => false
  | .insertEvent _ => false
  | .selectClaimable _ _ => []
  | .claimEvent _ _ _ _ | .markEvent _ _ _ _ => false
  | .insertOfflineMessage _ => false
  | .listOfflineMessages _ _ => []
  | .markBatchAsPulled _ _ | .markAsAcked _ _ | .upsertDelivered _ _ _ => false
  | .recalculateUnread _ _ _ | .pinConversation _ _ _ _ => false
  | .muteConversation _ _ _ _ => false
  | .markRead _ _ _ | .markConversationRead _ _ _ _ _ => false
  | .getReadState _ => []
  | .countExpired _ _ | .deleteExpired _ _ _ => 0

end Stmt

/-! ## Rows read and written -/

namespace Db

variable (db : Db)

def findSequence (fromUserId : UInt64) (clientSequenceId : UInt32) :
    Option MessageRecord :=
  (Table.rows db.messages).find? fun row =>
    row.fromUserId = fromUserId && row.clientSequenceId = clientSequenceId

def membersOf (groupId : UInt64) : List UInt64 :=
  let rows := (Table.rows db.members).filter fun row => row.groupId = groupId
  (rows.map GroupMember.userId).insertionSort (· ≤ ·)

/-- The cursor clause of `listConversationMessages`. -/
def beforeCursor (beforeTime : Int64) (beforeMessageId : UInt64) (row : MessageRecord) : Bool :=
  if 0 < beforeTime && 0 < beforeMessageId then
    row.createdAt < beforeTime ||
      (row.createdAt == beforeTime && row.messageId < beforeMessageId)
  else if 0 < beforeTime then row.createdAt < beforeTime
  else true

def history (conversationId : UInt64) (beforeTime : Int64)
    (beforeMessageId : UInt64) (limit : Nat) : List MessageRecord :=
  let rows := (Table.rows db.messages).filter fun row =>
    row.conversationId = conversationId && beforeCursor beforeTime beforeMessageId row
  (rows.insertionSort fun a b =>
    b.createdAt < a.createdAt ∨ (b.createdAt = a.createdAt ∧ b.messageId ≤ a.messageId)).take limit

/-- The row that `upsertOne` leaves behind. -/
def upserted (conversation : Conversation) (increaseUnread : Bool) :
    Conversation :=
  let unreadInc : Int := if increaseUnread then 1 else 0
  match db.conversations.lookup (conversation.ownerUserId, conversation.conversationId) with
  | none =>
    { conversation with
      unreadCount := unreadInc, pinned := false, muted := false,
      deleted := false }
  | some row =>
    { row with
      lastMessageId := conversation.lastMessageId
      lastMessagePreview := conversation.lastMessagePreview
      lastMessageAt := conversation.lastMessageAt
      unreadCount := row.unreadCount + unreadInc
      deleted := false
      updatedAt := conversation.updatedAt }

/-- Messages of others that the owner has no read receipt for. -/
def unread (owner conversationId : UInt64) : Nat :=
  (Table.rows db.messages).countP fun row =>
    row.conversationId = conversationId && row.fromUserId != owner && !row.recalled &&
      match db.receipts.lookup (row.messageId, owner) with
      | none => true
      | some receipt => receipt.readAt == 0

def conversationsOf (conversationId : UInt64) : List Conversation :=
  (Table.rows db.conversations).filter fun row => row.conversationId = conversationId

end Db

/-- `status IN (0,2,4) AND next_retry_at<=now` -/
def OutboxEvent.Claimable (event : OutboxEvent) (now : Int64) : Prop :=
  event.status ∈ [.pending, .failed, .publishing] ∧ event.nextRetryAt ≤ now

instance (event : OutboxEvent) (now : Int64) :
    Decidable (event.Claimable now) := inferInstanceAs (Decidable (_ ∧ _))

/-- The rows open to a claim, in the order of the claim; rows locked by others
are skipped. -/
def Db.claimable (db : Db) (now : Int64) (locked : List Key) :
    List OutboxEvent :=
  ((Table.rows db.outbox).filter fun event =>
    event.Claimable now ∧ Key.event event.eventId ∉ locked).insertionSort
    fun a b => a.createdAt < b.createdAt ∨ (a.createdAt = b.createdAt ∧ a.id ≤ b.id)

/-- `ON DUPLICATE KEY UPDATE` of `insertOfflineMessage`; the assignments are
made from left to right, so `updated_at` sees the new status. -/
def OfflineMessage.upsert (old new : OfflineMessage) : OfflineMessage :=
  let row :=
    if old.status = .acked then old
    else { old with payload := new.payload, status := new.status }
  if row.status = .acked then row else { row with updatedAt := new.updatedAt }

def OfflineMessage.Pullable (row : OfflineMessage) : Prop := row.status ∈ [.unread, .pulled]

instance (row : OfflineMessage) : Decidable row.Pullable :=
  inferInstanceAs (Decidable (_ ∈ _))

namespace Db

variable (db : Db)

def pending (userId : UInt64) (limit : Nat) : List OfflineMessage :=
  let rows := (Table.rows db.offline).filter fun row => row.userId = userId ∧ row.Pullable
  (rows.insertionSort fun a b =>
    a.createdAt < b.createdAt ∨ (a.createdAt = b.createdAt ∧ a.messageId ≤ b.messageId)).take limit

/-- The row that `insertOfflineMessage` leaves behind. -/
def savedOffline (message : OfflineMessage) : OfflineMessage :=
  match db.offline.lookup (message.userId, message.messageId) with
  | none => message
  | some row => row.upsert message

def pulledOffline (userId : UInt64) (messageIds : List UInt64) (now : Int64) :
    List OfflineMessage :=
  let rows := (Table.rows db.offline).filter fun row =>
    row.userId = userId ∧ row.messageId ∈ messageIds ∧ row.Pullable
  rows.map fun row => { row with status := .pulled, updatedAt := now }

def ackedOffline (userId messageId : UInt64) (now : Int64) :
    Option OfflineMessage :=
  (db.offline.lookup (userId, messageId)).map fun row =>
    { row with status := .acked, updatedAt := now }

def delivered (messageId userId : UInt64) (deliveredAt : Int64) :
    MessageReceipt :=
  match db.receipts.lookup (messageId, userId) with
  | none => ⟨messageId, userId, deliveredAt, 0, deliveredAt, deliveredAt⟩
  | some row =>
    { row with
      deliveredAt := max row.deliveredAt deliveredAt
      updatedAt := deliveredAt }

/-- The row that `markRead` leaves behind. -/
def markedRead (messageId userId : UInt64) (readAt : Int64) : MessageReceipt :=
  match db.receipts.lookup (messageId, userId) with
  | none => ⟨messageId, userId, readAt, readAt, readAt, readAt⟩
  | some row =>
    { row with
      deliveredAt := max row.deliveredAt readAt
      readAt := max row.readAt readAt
      updatedAt := readAt }

/-- The messages that `markConversationRead` marks. -/
def readable (conversationId userId upToMessageId : UInt64)
    (upToCreatedAt : Int64) : List MessageRecord :=
  (Table.rows db.messages).filter fun row =>
    row.conversationId = conversationId &&
      (row.createdAt < upToCreatedAt ||
        (row.createdAt == upToCreatedAt && row.messageId ≤ upToMessageId)) &&
      row.fromUserId != userId && !row.recalled

def readStates (messageId : UInt64) : List MessageReadState :=
  ((Table.rows db.receipts).filter fun row => row.messageId = messageId).map
    fun row => ⟨row.messageId, row.userId, row.deliveredAt, row.readAt⟩

/-- The removals of the rows that `RunCleanup` finds expired. -/
def expired (before : Int64) : CleanupTable → List Write
  | .outboxEvents =>
    ((Table.rows db.outbox).filter fun row =>
      row.status = .published && row.updatedAt < before).map
      fun row => .removeEvent row.eventId
  | .offlineMessages =>
    ((Table.rows db.offline).filter fun row =>
      row.status = .acked && row.updatedAt < before).map
      fun row => .removeOffline row.userId row.messageId
  | .friendRequests => []
  | .messageReceipts =>
    ((Table.rows db.receipts).filter fun row => row.updatedAt < before).map
      fun row => .removeReceipt row.messageId row.userId

end Db

/-- What a `DELETE` with a limit takes of the rows it finds. -/
def Choice.limited (choice : Choice) (limit : Nat) (writes : List Write) :
    List Write :=
  (writes.filter choice.first ++ writes.filter fun write => !choice.first write).take limit

/-! ## Plans -/

/-- A read that locks nothing. -/
def read {Res : Type} (result : Res) : Plan dialect Res := ⟨[], [], result⟩

/-- Writes with the locks that they need. -/
def writing {Res : Type} (writes : List Write) (result : Res) :
    Plan dialect Res :=
  ⟨writes.flatMap Write.touches, writes, result⟩

theorem read_covered {Res : Type} (result : Res) : (read result).Covered := by
  intro write hwrite
  cases hwrite

theorem writing_covered {Res : Type} (writes : List Write) (result : Res) :
    (writing writes result).Covered := by
  intro write hwrite key hkey
  exact List.mem_flatMap.mpr ⟨write, hwrite, hkey⟩

namespace Stmt

def plan (stmt : Stmt) (choice : Choice) (db : Db) (locked : List Key) : Plan dialect stmt.Res :=
  match stmt with
  | .getUserById userId => read (decide (userId ∈ db.users))
  | .isFriend userId friendId => read (decide ((userId, friendId) ∈ db.friendships))
  | .getGroupById groupId => read (db.groups.lookup groupId)
  | .isMember groupId userId => read (db.members.lookup (groupId, userId)).isSome
  | .isGroupOwner groupId userId =>
    read ((db.members.lookup (groupId, userId)).any fun row => row.role == 1)
  | .listMembers groupId => read (db.membersOf groupId)
  | .insertGroup group =>
    if db.groups.lookup choice.id = none then
      writing [.putGroup { group with id := choice.id }] (some choice.id)
    else read none
  | .insertMember member =>
    if db.members.lookup (member.groupId, member.userId) = none then
      writing [.putMember member] true
    else read false
  | .addMember groupId userId role =>
    if db.members.lookup (groupId, userId) = none then
      writing [.putMember ⟨groupId, userId, role⟩] true
    else read true
  | .removeMember groupId userId => writing [.removeMember groupId userId] true
  | .getMessageById messageId => read (db.messages.lookup messageId)
  | .getMessageByClientSequence fromUserId clientSequenceId =>
    read (db.findSequence fromUserId clientSequenceId)
  | .listConversationMessages conversationId beforeTime beforeMessageId limit =>
    read (db.history conversationId beforeTime beforeMessageId limit)
  | .insertMessage message =>
    -- both unique keys of the table; a zero sequence is stored as NULL
    if db.messages.lookup message.messageId = none ∧
        (message.clientSequenceId = 0 ∨
          db.findSequence message.fromUserId message.clientSequenceId = none) then
      writing [.insertMessage message] true
    else read false
  | .recallMessage messageId recalledAt =>
    match db.messages.lookup messageId with
    | some row =>
      if row.recalled then read false
      else writing [.recallMessage messageId recalledAt] true
    | none => read false
  | .isOwner ownerUserId conversationId =>
    read ((db.conversations.lookup (ownerUserId, conversationId)).any fun row => !row.deleted)
  | .upsertOne conversation increaseUnread =>
    writing [.putConversation (db.upserted conversation increaseUnread)] true
  | .recalculateUnreadForConversation conversationId now =>
    writing ((db.conversationsOf conversationId).map fun row =>
      .putConversation
        { row with
          unreadCount := db.unread row.ownerUserId row.conversationId
          updatedAt := now }) true
  | .markLastMessageRecalled conversationId messageId recalledAt =>
    writing (((db.conversationsOf conversationId).filter fun row =>
        row.lastMessageId = messageId).map fun row =>
      .putConversation
        { row with
          lastMessagePreview := Protocol.lit "__NEBULA_MESSAGE_RECALLED__"
          lastMessageAt := recalledAt
          updatedAt := recalledAt }) true
  | .deleteConversation ownerUserId conversationId now =>
    match db.conversations.lookup (ownerUserId, conversationId) with
    | none => read false
    | some row =>
      writing [.putConversation { row with deleted := true, updatedAt := now }]
        (!row.deleted || row.updatedAt != now)
  | .recalculateUnread ownerUserId conversationId now =>
    writing ((db.conversations.lookup (ownerUserId, conversationId)).toList.map fun row =>
        .putConversation
          { row with
            unreadCount := db.unread ownerUserId conversationId
            updatedAt := now }) true
  | .pinConversation ownerUserId conversationId pinned now =>
    match db.conversations.lookup (ownerUserId, conversationId) with
    | none => read false
    | some row =>
      writing [.putConversation { row with pinned := pinned, updatedAt := now }]
        (row.pinned != pinned || row.updatedAt != now)
  | .muteConversation ownerUserId conversationId muted now =>
    match db.conversations.lookup (ownerUserId, conversationId) with
    | none => read false
    | some row =>
      writing [.putConversation { row with muted := muted, updatedAt := now }]
        (row.muted != muted || row.updatedAt != now)
  | .insertEvent event =>
    if db.outbox.lookup event.eventId = none then
      writing [.insertEvent { event with id := choice.id }] true
    else read false
  | .selectClaimable limit now =>
    let rows := (db.claimable now locked).take limit
    ⟨rows.map fun event => .event event.eventId, [], rows⟩
  | .claimEvent eventId leaseUntil token now =>
    writing [.claimEvent eventId leaseUntil token now] true
  | .markEvent eventId token mark now =>
    match db.outbox.lookup eventId with
    | some row =>
      if row.status = .publishing ∧ row.claimToken = token then
        writing [.markEvent eventId mark now] true
      else read false
    | none => read false
  | .insertOfflineMessage message => writing [.putOffline (db.savedOffline message)] true
  | .listOfflineMessages userId limit => read (db.pending userId limit)
  | .markBatchAsPulled userId messageIds =>
    writing ((db.pulledOffline userId messageIds choice.clock).map .putOffline) true
  | .markAsAcked userId messageId =>
    writing ((db.ackedOffline userId messageId choice.clock).toList.map .putOffline) true
  | .upsertDelivered messageId userId deliveredAt =>
    writing [.putReceipt (db.delivered messageId userId deliveredAt)] true
  | .markRead messageId userId readAt =>
    writing [.putReceipt (db.markedRead messageId userId readAt)] true
  | .markConversationRead conversationId userId upToMessageId upToCreatedAt readAt =>
      writing ((db.readable conversationId userId upToMessageId upToCreatedAt).map fun row =>
          .putReceipt (db.markedRead row.messageId userId readAt)) true
  | .getReadState messageId => read (db.readStates messageId)
  | .countExpired table before => read (db.expired before table).length
  | .deleteExpired table before limit =>
    let writes := choice.limited limit (db.expired before table)
    writing writes writes.length

theorem plan_covered (stmt : Stmt) (choice : Choice) (db : Db)
    (locked : List Key) : (stmt.plan choice db locked).Covered := by
  cases stmt with
  | selectClaimable limit now =>
    intro write hwrite
    cases hwrite
  | _ =>
    dsimp only [plan]
    repeat' split
    all_goals first | exact read_covered _ | exact writing_covered _ _

end Stmt

end NebulaIM.Backend
