import NebulaIM.Foundation.Store
import NebulaIM.Protocol.Messages

/-!
# The database of the backend services

The tables of `deploy/mysql/migration` that the message, push and relation
services read and write.  A table is kept by its unique key, so that two rows
with one `message_id` or one `(owner_user_id, conversation_id)` cannot be built;
the second unique key of `messages`, `uk_message_sender_sequence`, is checked by
the insert.
-/

namespace NebulaIM.Backend

open Foundation.Store
open Foundation.Wire (Bytes)

def messageStatusSent : Int32 := 1
def messageStatusRecalled : Int32 := 6

structure MessageRecord where
  messageId : UInt64 := 0
  conversationId : UInt64 := 0
  fromUserId : UInt64 := 0
  clientSequenceId : UInt32 := 0
  toUserId : UInt64 := 0
  groupId : UInt64 := 0
  messageType : Int32 := 0
  content : Bytes := []
  status : Int32 := 0
  recalled : Bool := false
  recalledAt : Int64 := 0
  createdAt : Int64 := 0
  updatedAt : Int64 := 0
  deriving DecidableEq, Repr

inductive OutboxStatus where
  | pending
  | published
  | failed
  | dead
  | publishing
  deriving DecidableEq, Repr

/-- The values of `aggregate_type` that the services write. -/
inductive AggregateType where
  | message
  | messageRecall
  deriving DecidableEq, Repr

structure OutboxEvent where
  id : UInt64 := 0
  eventId : UInt64 := 0
  aggregateType : AggregateType := .message
  aggregateId : UInt64 := 0
  topic : Bytes := []
  eventKey : Bytes := []
  payload : Bytes := []
  status : OutboxStatus := .pending
  retryCount : Int := 0
  nextRetryAt : Int64 := 0
  createdAt : Int64 := 0
  updatedAt : Int64 := 0
  traceId : Bytes := []
  claimToken : Bytes := []
  deriving DecidableEq, Repr

inductive ConversationType where
  | single
  | group
  deriving DecidableEq, Repr

structure Conversation where
  conversationId : UInt64 := 0
  conversationType : ConversationType := .single
  ownerUserId : UInt64 := 0
  peerUserId : UInt64 := 0
  groupId : UInt64 := 0
  lastMessageId : UInt64 := 0
  lastMessagePreview : Bytes := []
  lastMessageAt : Int64 := 0
  unreadCount : Int := 0
  pinned : Bool := false
  muted : Bool := false
  deleted : Bool := false
  createdAt : Int64 := 0
  updatedAt : Int64 := 0
  deriving DecidableEq, Repr

inductive OfflineStatus where
  | unread
  | pulled
  | acked
  deriving DecidableEq, Repr

structure OfflineMessage where
  userId : UInt64 := 0
  messageId : UInt64 := 0
  payload : Bytes := []
  status : OfflineStatus := .unread
  createdAt : Int64 := 0
  updatedAt : Int64 := 0
  deriving DecidableEq, Repr

structure MessageReceipt where
  messageId : UInt64 := 0
  userId : UInt64 := 0
  deliveredAt : Int64 := 0
  readAt : Int64 := 0
  createdAt : Int64 := 0
  updatedAt : Int64 := 0
  deriving DecidableEq, Repr

structure GroupRecord where
  id : UInt64 := 0
  groupName : Bytes := []
  ownerId : UInt64 := 0
  createdAt : Int64 := 0
  updatedAt : Int64 := 0
  deriving DecidableEq, Repr

structure GroupMember where
  groupId : UInt64 := 0
  userId : UInt64 := 0
  role : Int := 0
  deriving DecidableEq, Repr

structure Db where
  /-- The ids of the rows of `users`. -/
  users : List UInt64 := []
  /-- `(user_id, friend_id)` of the rows of `friendships` with `status=1`. -/
  friendships : List (UInt64 × UInt64) := []
  messages : Table UInt64 MessageRecord := ∅
  outbox : Table UInt64 OutboxEvent := ∅
  conversations : Table (UInt64 × UInt64) Conversation := ∅
  offline : Table (UInt64 × UInt64) OfflineMessage := ∅
  receipts : Table (UInt64 × UInt64) MessageReceipt := ∅
  groups : Table UInt64 GroupRecord := ∅
  members : Table (UInt64 × UInt64) GroupMember := ∅

/-! ## Writes -/

/-- The outcome a worker records for an event it has claimed. -/
inductive Mark where
  | published
  | failed (retryCount : Int) (nextRetryAt : Int64)
  | dead
  deriving DecidableEq, Repr

inductive Write where
  | insertMessage (row : MessageRecord)
  | recallMessage (messageId : UInt64) (recalledAt : Int64)
  | insertEvent (row : OutboxEvent)
  | claimEvent (eventId : UInt64) (leaseUntil : Int64) (token : Bytes) (now : Int64)
  | markEvent (eventId : UInt64) (mark : Mark) (now : Int64)
  | putConversation (row : Conversation)
  | putOffline (row : OfflineMessage)
  | putReceipt (row : MessageReceipt)
  | putGroup (row : GroupRecord)
  | putMember (row : GroupMember)
  | removeMember (groupId userId : UInt64)
  | removeEvent (eventId : UInt64)
  | removeOffline (userId messageId : UInt64)
  | removeReceipt (messageId userId : UInt64)
  deriving DecidableEq, Repr

def MessageRecord.recall (row : MessageRecord) (recalledAt : Int64) :
    MessageRecord :=
  { row with
    recalled := true
    recalledAt := recalledAt
    status := messageStatusRecalled
    updatedAt := recalledAt }

def OutboxEvent.claim (row : OutboxEvent) (leaseUntil : Int64) (token : Bytes)
    (now : Int64) : OutboxEvent :=
  { row with
    status := .publishing
    nextRetryAt := leaseUntil
    claimToken := token
    updatedAt := now }

def OutboxEvent.mark (row : OutboxEvent) (now : Int64) : Mark → OutboxEvent
  | .published => { row with status := .published, claimToken := [], updatedAt := now }
  | .failed retryCount nextRetryAt =>
    { row with
      status := .failed
      claimToken := []
      retryCount := retryCount
      nextRetryAt := nextRetryAt
      updatedAt := now }
  | .dead => { row with status := .dead, claimToken := [], updatedAt := now }

def Db.apply (db : Db) : Write → Db
  | .insertMessage row => { db with messages := Table.add db.messages row.messageId row }
  | .recallMessage messageId recalledAt =>
    { db with
      messages := Table.modify db.messages messageId fun row => row.recall recalledAt }
  | .insertEvent row => { db with outbox := Table.add db.outbox row.eventId row }
  | .claimEvent eventId leaseUntil token now =>
    { db with
      outbox := Table.modify db.outbox eventId fun row => row.claim leaseUntil token now }
  | .markEvent eventId mark now =>
    { db with
      outbox := Table.modify db.outbox eventId fun row => row.mark now mark }
  | .putConversation row =>
    { db with
      conversations := db.conversations.insert (row.ownerUserId, row.conversationId) row }
  | .putOffline row => { db with offline := db.offline.insert (row.userId, row.messageId) row }
  | .putReceipt row => { db with receipts := db.receipts.insert (row.messageId, row.userId) row }
  | .putGroup row => { db with groups := db.groups.insert row.id row }
  | .putMember row => { db with members := db.members.insert (row.groupId, row.userId) row }
  | .removeMember groupId userId => { db with members := db.members.erase (groupId, userId) }
  | .removeEvent eventId => { db with outbox := db.outbox.erase eventId }
  | .removeOffline userId messageId => { db with offline := db.offline.erase (userId, messageId) }
  | .removeReceipt messageId userId => { db with receipts := db.receipts.erase (messageId, userId) }

/-! ## Rows as units of locking -/

inductive Key where
  | message (messageId : UInt64)
  | sender (fromUserId : UInt64) (clientSequenceId : UInt32)
  | event (eventId : UInt64)
  | conversation (ownerUserId conversationId : UInt64)
  | offline (userId messageId : UInt64)
  | receipt (messageId userId : UInt64)
  | group (groupId : UInt64)
  | member (groupId userId : UInt64)
  deriving DecidableEq, Repr

/-- An insert also enters the index of `uk_message_sender_sequence`, unless the
client sequence id is zero, which is stored as `NULL`; a recall changes no
indexed column. -/
def Write.touches : Write → List Key
  | .insertMessage row =>
    if row.clientSequenceId = 0 then [.message row.messageId]
    else [.message row.messageId, .sender row.fromUserId row.clientSequenceId]
  | .recallMessage messageId _ => [.message messageId]
  | .insertEvent row => [.event row.eventId]
  | .claimEvent eventId _ _ _ => [.event eventId]
  | .markEvent eventId _ _ => [.event eventId]
  | .putConversation row => [.conversation row.ownerUserId row.conversationId]
  | .putOffline row => [.offline row.userId row.messageId]
  | .putReceipt row => [.receipt row.messageId row.userId]
  | .putGroup row => [.group row.id]
  | .putMember row => [.member row.groupId row.userId]
  | .removeMember groupId userId => [.member groupId userId]
  | .removeEvent eventId => [.event eventId]
  | .removeOffline userId messageId => [.offline userId messageId]
  | .removeReceipt messageId userId => [.receipt messageId userId]

/-- The messages of one sender with one client sequence id. -/
def Db.SentAs (db : Db) (fromUserId : UInt64) (clientSequenceId : UInt32)
    (messageId : UInt64) : Prop :=
  ∃ row, db.messages.lookup messageId = some row ∧
    row.fromUserId = fromUserId ∧ row.clientSequenceId = clientSequenceId

/-- The databases have the same rows for the key. -/
def Key.Agree (before after : Db) : Key → Prop
  | .message id => after.messages.lookup id = before.messages.lookup id
  | .sender user sequence =>
    sequence ≠ 0 → ∀ id, before.SentAs user sequence id ↔ after.SentAs user sequence id
  | .event id => after.outbox.lookup id = before.outbox.lookup id
  | .conversation owner id =>
    after.conversations.lookup (owner, id) = before.conversations.lookup (owner, id)
  | .offline user id => after.offline.lookup (user, id) = before.offline.lookup (user, id)
  | .receipt id user => after.receipts.lookup (id, user) = before.receipts.lookup (id, user)
  | .group id => after.groups.lookup id = before.groups.lookup id
  | .member id user => after.members.lookup (id, user) = before.members.lookup (id, user)

theorem Key.Agree.refl (key : Key) (db : Db) : key.Agree db db := by
  cases key <;> simp [Key.Agree]

theorem Key.Agree.trans {key : Key} {first second third : Db}
    (h₁ : key.Agree first second) (h₂ : key.Agree second third) :
    key.Agree first third := by
  cases key with
  | sender user sequence =>
    intro hsequence id
    exact (h₁ hsequence id).trans (h₂ hsequence id)
  | _ => exact Eq.trans h₂ h₁

/-! ### The tables after a write -/

theorem lookup_insertMessage (db : Db) (row : MessageRecord) (id : UInt64) :
    (db.apply (.insertMessage row)).messages.lookup id =
      if id = row.messageId ∧ db.messages.lookup row.messageId = none then
        some row
      else db.messages.lookup id :=
  Table.lookup_add row.messageId id row

theorem lookup_insertEvent (db : Db) (row : OutboxEvent) (id : UInt64) :
    (db.apply (.insertEvent row)).outbox.lookup id =
      if id = row.eventId ∧ db.outbox.lookup row.eventId = none then some row
      else db.outbox.lookup id :=
  Table.lookup_add row.eventId id row

theorem lookup_recallMessage (db : Db) (messageId id : UInt64) (recalledAt : Int64) :
    (db.apply (.recallMessage messageId recalledAt)).messages.lookup id =
      if id = messageId then
        (db.messages.lookup id).map fun row => row.recall recalledAt
      else db.messages.lookup id := by
  by_cases heq : id = messageId
  · subst heq
    rw [if_pos rfl]
    exact Table.lookup_modify_self id _
  · rw [if_neg heq]
    exact Table.lookup_modify_ne _ heq

theorem sentAs_insertMessage {db : Db} {row : MessageRecord} {user : UInt64} {sequence : UInt32}
    (hother : ¬ (row.fromUserId = user ∧ row.clientSequenceId = sequence)) (id : UInt64) :
    db.SentAs user sequence id ↔ (db.apply (.insertMessage row)).SentAs user sequence id := by
  simp only [Db.SentAs, lookup_insertMessage]
  split
  · next hnew =>
    obtain ⟨rfl, hnone⟩ := hnew
    simp only [hnone]
    constructor
    · rintro ⟨_, h, _⟩
      cases h
    · rintro ⟨_, h, hsent⟩
      cases h
      exact absurd hsent hother
  · rfl

theorem sentAs_recallMessage (db : Db) (messageId : UInt64)
    (recalledAt : Int64) (user : UInt64) (sequence : UInt32) (id : UInt64) :
    db.SentAs user sequence id ↔
      (db.apply (.recallMessage messageId recalledAt)).SentAs user sequence
        id := by
  simp only [Db.SentAs, lookup_recallMessage]
  split
  · cases db.messages.lookup id <;> simp [MessageRecord.recall]
  · rfl

theorem Key.Agree.apply {key : Key} (db : Db) {write : Write}
    (hkey : key ∉ write.touches) : key.Agree db (db.apply write) := by
  cases key with
  | message id =>
    cases write with
    | insertMessage row =>
      have hne : id ≠ row.messageId := by
        rintro rfl
        apply hkey
        simp only [Write.touches]
        split <;> simp
      exact (lookup_insertMessage db row id).trans (if_neg fun h => hne h.1)
    | recallMessage messageId recalledAt =>
      have hne : id ≠ messageId := by simpa [Write.touches] using hkey
      exact (lookup_recallMessage db messageId id recalledAt).trans (if_neg hne)
    | _ => rfl
  | sender user sequence =>
    intro hsequence id
    cases write with
    | insertMessage row =>
      refine sentAs_insertMessage ?_ id
      rintro ⟨rfl, rfl⟩
      apply hkey
      simp [Write.touches, hsequence]
    | recallMessage messageId recalledAt =>
      exact sentAs_recallMessage db messageId recalledAt user sequence id
    | _ => rfl
  | event id =>
    cases write with
    | insertEvent row =>
      have hne : id ≠ row.eventId := by simpa [Write.touches] using hkey
      exact (lookup_insertEvent db row id).trans (if_neg fun h => hne h.1)
    | claimEvent eventId lease token now | markEvent eventId mark now =>
      have hne : id ≠ eventId := by simpa [Write.touches] using hkey
      exact Table.lookup_modify_ne _ hne
    | removeEvent eventId =>
      refine AList.lookup_erase_ne fun h => hkey ?_
      simpa [Write.touches] using h
    | _ => rfl
  | conversation owner id =>
    cases write with
    | putConversation row =>
      refine AList.lookup_insert_ne fun h => hkey ?_
      simpa [Write.touches] using h
    | _ => rfl
  | offline user id =>
    cases write with
    | putOffline row =>
      refine AList.lookup_insert_ne fun h => hkey ?_
      simpa [Write.touches] using h
    | removeOffline userId messageId =>
      refine AList.lookup_erase_ne fun h => hkey ?_
      simpa [Write.touches] using h
    | _ => rfl
  | receipt id user =>
    cases write with
    | putReceipt row =>
      refine AList.lookup_insert_ne fun h => hkey ?_
      simpa [Write.touches] using h
    | removeReceipt messageId userId =>
      refine AList.lookup_erase_ne fun h => hkey ?_
      simpa [Write.touches] using h
    | _ => rfl
  | group id =>
    cases write with
    | putGroup row =>
      refine AList.lookup_insert_ne fun h => hkey ?_
      simpa [Write.touches] using h
    | _ => rfl
  | member id user =>
    cases write with
    | putMember row =>
      refine AList.lookup_insert_ne fun h => hkey ?_
      simpa [Write.touches] using h
    | removeMember groupId userId =>
      refine AList.lookup_erase_ne fun h => hkey ?_
      simpa [Write.touches] using h
    | _ => rfl

abbrev dialect : Dialect where
  Db := Db
  Key := Key
  Write := Write
  apply := Db.apply
  touches := Write.touches
  agree key before after := key.Agree before after
  agree_refl := Key.Agree.refl
  agree_trans := Key.Agree.trans
  apply_agree := Key.Agree.apply

end NebulaIM.Backend
