import NebulaIM.Services.System
import NebulaIM.Backend.Rows

/-!
# Units of work

`Work` lists what the services ever write to the database in one commit, with
the state of the rows at that moment.  Every invariant of the database is proved
once for each unit of work; that a handler commits nothing else is proved once
for each handler.
-/

namespace NebulaIM.Services

open Foundation Foundation.Store
open Backend Protocol Message Push
open Foundation.Wire (Bytes)

/-- The event carries the message: its key, its topic and its payload. -/
structure Announces (config : Config) (row : MessageRecord) (event : OutboxEvent) : Prop where
  eventId : event.eventId = row.messageId
  aggregateId : event.aggregateId = row.messageId
  topic : event.topic =
    if row.groupId = 0 then config.message.topicSingle
    else config.message.topicGroup
  eventKey : event.eventKey = decimal row.conversationId.toNat
  payload : ∃ traceId, MessageData.parse event.payload = (toMessageData traceId row, true)

def Committed (log : List (Nat × List Write)) (write : Write) : Prop := ∃ unit ∈ log, write ∈ unit.2

def EverMember (log : List (Nat × List Write)) (groupId userId : UInt64) :
    Prop :=
  ∃ role, Committed log (.putMember ⟨groupId, userId, role⟩)

/-- Those whose conversation list shows the message. -/
def Audience (log : List (Nat × List Write)) (row : MessageRecord) (userId : UInt64) : Prop :=
  if row.groupId = 0 then userId = row.fromUserId ∨ userId = row.toUserId
  else EverMember log row.groupId userId

/-- The unit of work claims an event with the token. -/
def ClaimsWith (unit : Nat × List Write) (token : Bytes) : Prop :=
  ∃ eventId leaseUntil now, .claimEvent eventId leaseUntil token now ∈ unit.2

/-- No token was generated twice. -/
def TokensDistinct (w : World) : Prop := (w.tokens.map Prod.snd).Nodup

instance (w : World) : Decidable (TokensDistinct w) :=
  inferInstanceAs (Decidable (List.Nodup _))

inductive Work (config : Config) (w : World) (client : Nat) : List Write → Prop
  | send {row : MessageRecord} {event : OutboxEvent} (convs : List Conversation)
      (message_free : w.db.messages.lookup row.messageId = none)
      (sequence_free : row.clientSequenceId ≠ 0 → ∀ id,
        ¬ w.db.SentAs row.fromUserId row.clientSequenceId id)
      (event_free : w.db.outbox.lookup row.messageId = none)
      (not_recalled : row.recalled = false)
      (type : event.aggregateType = .message)
      (pending : event.status = .pending)
      (announces : Announces config row event)
      (shown : ∀ conv ∈ convs, conv.conversationId = row.conversationId ∧
        conv.deleted = false ∧ Audience w.log row conv.ownerUserId) :
      Work config w client (.insertMessage row ::
        (convs.map .putConversation ++ [.insertEvent event]))
  | recallMessage {row : MessageRecord} {event : OutboxEvent} {messageId : UInt64}
      (recalledAt : Int64) (convs : List Conversation)
      (present : w.db.messages.lookup messageId = some row)
      (not_recalled : row.recalled = false)
      (event_free : w.db.outbox.lookup event.eventId = none)
      (type : event.aggregateType = .messageRecall)
      (pending : event.status = .pending)
      (aggregate : event.aggregateId = messageId)
      (updates : ∀ conv ∈ convs, ∃ old, w.db.conversations.lookup
        (conv.ownerUserId, conv.conversationId) = some old ∧
          conv.deleted = old.deleted) :
      Work config w client (.recallMessage messageId recalledAt ::
        .insertEvent event :: convs.map .putConversation)
  | claim (eventIds : List UInt64) (leaseUntil now : Int64) (token : TraceId)
      (claimable : ∀ id ∈ eventIds, ∃ event, w.db.outbox.lookup id = some event ∧
        event.status ∈ [.pending, .failed, .publishing])
      (generated : (client, token) ∈ w.tokens)
      (unused : TokensDistinct w → ∀ unit ∈ w.log, ¬ ClaimsWith unit token.bytes) :
      Work config w client (eventIds.map fun id => .claimEvent id leaseUntil token.bytes now)
  | mark {eventId : UInt64} {event : OutboxEvent} (mark : Mark) (now : Int64)
      (present : w.db.outbox.lookup eventId = some event)
      (publishing : event.status = .publishing)
      (published : mark = .published →
        ⟨eventId, event.topic, event.eventKey, event.payload⟩ ∈ w.produced)
      (dead : mark = .dead → ⟨eventId, config.worker.dlqTopic, event.eventKey, event.payload⟩ ∈
          w.produced) :
      Work config w client [.markEvent eventId mark now]
  | deleteConversation {owner conversationId : UInt64} {row : Conversation} (now : Int64)
      (present : w.db.conversations.lookup (owner, conversationId) = some row) :
      Work config w client [.putConversation { row with deleted := true, updatedAt := now }]
  | createGroup (group : GroupRecord) (role : Int) : Work config w client
        [.putGroup group, .putMember ⟨group.id, group.ownerId, role⟩]
  | join (member : GroupMember) : Work config w client [.putMember member]
  | leave (groupId userId : UInt64) : Work config w client [.removeMember groupId userId]
  | saveOffline (userId : UInt64) {message : MessageData} (now : Int64)
      (wellFormed : message.WellFormed) :
      Work config w client [.putOffline (w.db.savedOffline (offlineCopy userId message now))]
  | pull (rows : List OfflineMessage) (now : Int64)
      (pullable : ∀ row ∈ rows, w.db.offline.lookup
        (row.userId, row.messageId) = some row ∧ row.Pullable) :
      Work config w client (rows.map fun row =>
        .putOffline { row with status := .pulled, updatedAt := now })
  | ack (receipt : MessageReceipt) (rows : List OfflineMessage) (now : Int64)
      (present : ∀ row ∈ rows, w.db.offline.lookup (row.userId, row.messageId) = some row) :
      Work config w client (.putReceipt receipt :: rows.map fun row =>
        .putOffline { row with status := .acked, updatedAt := now })

end NebulaIM.Services
