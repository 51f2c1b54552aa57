import NebulaIM.Backend.Rows

/-!
# Unread counts

The number that a recount finds, and what the writes of the services do to it: a
new message adds one for everyone but its sender, a read mark or a recall takes
away at most what it is about, and all other writes leave it alone.
-/

namespace NebulaIM.Backend

open Foundation.Store

namespace Db

/-- The receipt of the user says that the message was read. -/
def readBy (db : Db) (messageId userId : UInt64) : Bool :=
  (db.receipts.lookup (messageId, userId)).any fun receipt => receipt.readAt != 0

def isUnread (db : Db) (owner conversationId : UInt64) (row : MessageRecord) :
    Bool :=
  row.conversationId = conversationId && row.fromUserId != owner &&
    !row.recalled && !db.readBy row.messageId owner

theorem readBy_putReceipt (db : Db) (row : MessageReceipt) (messageId userId : UInt64) :
    (db.apply (.putReceipt row)).readBy messageId userId =
      if (messageId, userId) = (row.messageId, row.userId) then row.readAt != 0
      else db.readBy messageId userId := by
  simp only [readBy, apply]
  split
  · next heq =>
    rw [heq, AList.lookup_insert]
    rfl
  · next hne => rw [AList.lookup_insert_ne hne]

variable {db db' : Db} {owner conversationId : UInt64}

theorem unread_eq_countP : db.unread owner conversationId =
    (Table.rows db.messages).countP (db.isUnread owner conversationId) := by
  unfold unread
  congr 1
  funext row
  simp only [isUnread, readBy]
  cases db.receipts.lookup (row.messageId, owner) <;> simp [bne]

/-- The messages that a recount counts. -/
def unreadRows (db : Db) (owner conversationId : UInt64) : List MessageRecord :=
  (Table.rows db.messages).filter (db.isUnread owner conversationId)

theorem unread_eq_length :
    db.unread owner conversationId = (db.unreadRows owner conversationId).length := by
  rw [unread_eq_countP, unreadRows, List.countP_eq_length_filter]

theorem isUnread_iff {row : MessageRecord} : db.isUnread owner conversationId row = true ↔
      row.conversationId = conversationId ∧ row.fromUserId ≠ owner ∧
        row.recalled = false ∧ db.readBy row.messageId owner = false := by
  simp [isUnread, and_assoc]

theorem unread_le
    (h : ∀ id row, db'.messages.lookup id = some row →
      db'.isUnread owner conversationId row = true →
      ∃ old, db.messages.lookup id = some old ∧ db.isUnread owner conversationId old = true) :
    db'.unread owner conversationId ≤ db.unread owner conversationId := by
  rw [unread_eq_countP, unread_eq_countP]
  exact Table.countP_rows_le h

theorem unread_eq_of_tables (hmessages : db'.messages = db.messages)
    (hreceipts : db'.receipts = db.receipts) :
    db'.unread owner conversationId = db.unread owner conversationId := by
  simp only [unread, hmessages, hreceipts]

theorem unread_insertMessage {record : MessageRecord}
    (hfresh : db.messages.lookup record.messageId = none)
    (hnone : db.readBy record.messageId owner = false) (hrecalled : record.recalled = false) :
    (db.apply (.insertMessage record)).unread owner conversationId =
      db.unread owner conversationId +
        if record.conversationId = conversationId ∧ record.fromUserId ≠ owner
        then 1 else 0 := by
  have hrows : Table.rows (db.apply (.insertMessage record)).messages =
      record :: Table.rows db.messages := by
    simp only [apply, Table.add, if_pos hfresh]
    exact Table.rows_insert hfresh record
  rw [unread_eq_countP, unread_eq_countP, hrows, List.countP_cons]
  have hsame : (db.apply (.insertMessage record)).isUnread owner conversationId =
      db.isUnread owner conversationId := rfl
  simp only [hsame, isUnread_iff, hrecalled, hnone, and_self, and_true]

theorem unread_congr
    (hmessages : ∀ id row, row.conversationId = conversationId →
      (db.messages.lookup id = some row ↔ db'.messages.lookup id = some row))
    (hreceipts : ∀ id row, db.messages.lookup id = some row → row.conversationId = conversationId →
      db'.readBy row.messageId owner = db.readBy row.messageId owner) :
    db'.unread owner conversationId = db.unread owner conversationId := by
  apply Nat.le_antisymm
  · refine unread_le fun id row hrow hunread => ?_
    rw [isUnread_iff] at hunread
    have hold := (hmessages id row hunread.1).mpr hrow
    refine ⟨row, hold, isUnread_iff.mpr ?_⟩
    rwa [← hreceipts id row hold hunread.1]
  · refine unread_le fun id row hrow hunread => ?_
    rw [isUnread_iff] at hunread
    refine ⟨row, (hmessages id row hunread.1).mp hrow, isUnread_iff.mpr ?_⟩
    rwa [hreceipts id row hrow hunread.1]

theorem unread_recallMessage {messageId : UInt64} {record : MessageRecord}
    (now : Int64) (hrecord : db.messages.lookup messageId = some record)
    (hother : record.conversationId ≠ conversationId) :
    (db.apply (.recallMessage messageId now)).unread owner conversationId =
      db.unread owner conversationId := by
  refine unread_congr (fun id row hrow => ?_) fun _ _ _ _ => rfl
  rw [lookup_recallMessage]
  split
  · next heq =>
    rw [heq, hrecord]
    constructor
    · rintro ⟨⟩
      exact absurd hrow hother
    · rintro ⟨⟩
      exact absurd hrow hother
  · rfl

end Db

end NebulaIM.Backend
