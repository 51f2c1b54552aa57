import NebulaIM.Backend.World
import Mathlib.Data.Prod.Lex

/-!
# Rows after a list of writes

What a list of writes leaves of a row: the rows it does not touch, the key that a
row stands under, and the columns of a message that no write changes.
-/

namespace NebulaIM.Backend

open Foundation.Store

variable {writes : List Write} {id user userId : UInt64} {db : Db} {write : Write}
variable {row : MessageRecord}

/-- A message without the columns that a recall changes. -/
def MessageRecord.origin (row : MessageRecord) : MessageRecord :=
  { row with recalled := false, recalledAt := 0, status := 0, updatedAt := 0 }

/-- An event without the columns that the worker changes. -/
def OutboxEvent.origin (event : OutboxEvent) : OutboxEvent :=
  { event with
    status := .pending, retryCount := 0, nextRetryAt := 0, updatedAt := 0,
    claimToken := [] }

/-- The order of `ListConversationMessages`: `(created_at, message_id)`. -/
def position (row : MessageRecord) : Int ×ₗ Nat := toLex (row.createdAt.toInt, row.messageId.toNat)

theorem position_lt {createdAt : Int64} {messageId : UInt64} :
    position row < toLex (createdAt.toInt, messageId.toNat) ↔ row.createdAt < createdAt ∨
        row.createdAt = createdAt ∧ row.messageId < messageId := by
  simp only [position, Prod.Lex.toLex_lt_toLex, Int64.lt_iff_toInt_lt,
    UInt64.lt_iff_toNat_lt, ← Int64.toInt_inj]

theorem position_le {other : MessageRecord} : position row ≤ position other ↔
      row.createdAt < other.createdAt ∨
        row.createdAt = other.createdAt ∧ row.messageId ≤ other.messageId := by
  simp only [position, Prod.Lex.toLex_le_toLex, Int64.lt_iff_toInt_lt,
    UInt64.le_iff_toNat_le, ← Int64.toInt_inj]

/-! ## Calls as moves of the engine -/

theorem World.exec_moves (w : World) (client : Nat) (op : Op) (choice : Choice) :
    Engine.Moves client w.sql (w.exec client op choice).1.sql := by
  cases op with
  | begin => exact w.sql.begin_moves client choice.fault
  | commit => exact w.sql.commit_moves client choice.fault
  | rollback => exact w.sql.rollback_moves client
  | exec stmt =>
    exact w.sql.statement_moves client (stmt.plan_covered choice) stmt.failed choice.fault
  | query stmt =>
    exact w.sql.autocommit_moves client (stmt.plan_covered choice) stmt.failed choice.fault
  | redisSetEx key ttlSeconds value | produce eventId topic key payload =>
    simp only [World.exec]
    split <;> exact .stay w.sql
  | _ => exact .stay w.sql

theorem World.exec_effect (w : World) (client : Nat) (op : Op) (choice : Choice) :
    ((w.exec client op choice).1.db = w.db ∧ (w.exec client op choice).1.log = w.log) ∨
    ∃ writes, (w.exec client op choice).1.db =
        applyAll (D := dialect) w.db writes ∧
      (w.exec client op choice).1.log = (client, writes) :: w.log :=
  (w.exec_moves client op choice).effect

theorem World.commit_cases (w : World) (client : Nat) (choice : Choice) :
    w.exec client .commit choice = (w, false) ∨
    ∃ tx ok, w.sql.txs.lookup client = some tx ∧ w.exec client .commit choice =
      ({ w with sql := (w.sql.close client).write client tx.writes }, ok) := by
  simp only [World.exec]
  rcases w.sql.commit_cases client choice.fault with h | ⟨tx, ok, hopen, h⟩ <;> rw [h]
  · exact .inl rfl
  · exact .inr ⟨tx, ok, hopen, rfl⟩

theorem World.query_cases (w : World) (client : Nat) (stmt : Stmt) (choice : Choice) :
    w.exec client (.query stmt) choice = (w, stmt.failed) ∨
    (∃ locked, (stmt.plan choice w.db locked).writes = [] ∧ w.exec client (.query stmt) choice =
        (w, (stmt.plan choice w.db locked).result)) ∨
    ∃ locked answer, (stmt.plan choice w.db locked).writes ≠ [] ∧
      (choice.fault = .lost ∧ answer = stmt.failed ∨
        answer = (stmt.plan choice w.db locked).result) ∧
      w.exec client (.query stmt) choice = ({ w with
        sql := w.sql.write client (stmt.plan choice w.db locked).writes }, answer) := by
  simp only [World.exec]
  rcases w.sql.autocommit_cases client (stmt.plan choice) stmt.failed choice.fault
    with h | ⟨answer, hanswer, h⟩ <;> rw [h]
  · exact .inl rfl
  · by_cases hwrites : (stmt.plan choice w.db (w.sql.foreignLocks client)).writes = []
    · rw [if_pos (List.isEmpty_iff.mpr hwrites)]
      rcases hanswer with ⟨_, rfl⟩ | rfl
      · exact .inl rfl
      · exact .inr (.inl ⟨_, hwrites, rfl⟩)
    · rw [if_neg (mt List.isEmpty_iff.mp hwrites)]
      exact .inr (.inr ⟨_, answer, hwrites, hanswer, rfl⟩)

/-- The calls that never change committed rows. -/
def Quiet : Op → Prop
  | .commit | .query _ => False
  | _ => True

/-- The calls that leave the database alone altogether. -/
def Inert : Op → Prop
  | .begin | .commit | .rollback | .exec _ | .query _ => False
  | _ => True

theorem inert_sql {tid : Nat} (op : Op) (hop : Inert op) (w : World) (choice : Choice) :
    (w.exec tid op choice).1.sql = w.sql := by
  cases op with
  | redisSetEx key ttlSeconds value | produce eventId topic key payload =>
    simp only [World.exec]
    split <;> rfl
  | _ => first | rfl | exact absurd hop id

theorem quiet_same {tid : Nat} (op : Op) (hop : Quiet op) (w : World) (choice : Choice) :
    (w.exec tid op choice).1.db = w.db ∧ (w.exec tid op choice).1.log = w.log := by
  by_cases hinert : Inert op
  · have hsql : (w.exec tid op choice).1.sql = w.sql := inert_sql op hinert w choice
    exact ⟨congrArg Engine.db hsql, congrArg Engine.log hsql⟩
  · cases op with
    | begin => exact w.sql.begin_same tid choice.fault
    | rollback => exact ⟨rfl, rfl⟩
    | exec stmt =>
      simp only [World.exec]
      rcases w.sql.statement_cases tid (stmt.plan choice) stmt.failed
        choice.fault with h | h | ⟨tx, _, h⟩ <;>
        (rw [h]; exact ⟨rfl, rfl⟩)
    | commit => exact absurd hop id
    | query stmt => exact absurd hop id
    | _ => exact absurd trivial hinert

/-! ## Untouched rows -/

theorem Key.Agree.accounts (key : Key) (db : Db) (users : List UInt64)
    (friendships : List (UInt64 × UInt64)) :
    key.Agree db { db with users := users, friendships := friendships } := by
  cases key with
  | sender user sequence => exact fun _ _ => Iff.rfl
  | _ => rfl

theorem lookup_messages_frame (db : Db)
    (hframe : ∀ write ∈ writes, Key.message id ∉ write.touches) :
    (applyAll (D := dialect) db writes).messages.lookup id =
      db.messages.lookup id :=
  applyAll_agree (D := dialect) db hframe

theorem lookup_outbox_frame (db : Db) (hframe : ∀ write ∈ writes, Key.event id ∉ write.touches) :
    (applyAll (D := dialect) db writes).outbox.lookup id =
      db.outbox.lookup id :=
  applyAll_agree (D := dialect) db hframe

theorem lookup_conversations_frame (db : Db) {owner : UInt64}
    (hframe : ∀ write ∈ writes, Key.conversation owner id ∉ write.touches) :
    (applyAll (D := dialect) db writes).conversations.lookup (owner, id) =
      db.conversations.lookup (owner, id) :=
  applyAll_agree (D := dialect) db hframe

theorem lookup_receipts_frame (db : Db)
    (hframe : ∀ write ∈ writes, Key.receipt id user ∉ write.touches) :
    (applyAll (D := dialect) db writes).receipts.lookup (id, user) =
      db.receipts.lookup (id, user) :=
  applyAll_agree (D := dialect) db hframe

/-! ## Messages stay -/

/-- No message is lost; at most it is recalled. -/
def Db.Grown (before after : Db) : Prop :=
  ∀ id row, before.messages.lookup id = some row →
    ∃ now, after.messages.lookup id = some now ∧ now.origin = row.origin ∧
      (row.recalled = true → now.recalled = true)

theorem Db.Grown.refl (db : Db) : Db.Grown db db := fun _ row hrow => ⟨row, hrow, rfl, fun h => h⟩

theorem Db.Grown.of_eq {before after : Db}
    (h : after.messages = before.messages) : Db.Grown before after :=
  fun _ row hrow => ⟨row, h ▸ hrow, rfl, fun h => h⟩

theorem Db.Grown.trans {first second third : Db} (h₁ : Db.Grown first second)
    (h₂ : Db.Grown second third) : Db.Grown first third := by
  intro id row hrow
  obtain ⟨mid, hmid, horigin, hrecalled⟩ := h₁ id row hrow
  obtain ⟨now, hnow, horigin', hrecalled'⟩ := h₂ id mid hmid
  exact ⟨now, hnow, horigin'.trans horigin, fun h => hrecalled' (hrecalled h)⟩

theorem Db.Grown.apply (db : Db) (write : Write) : Db.Grown db (db.apply write) := by
  intro id row hrow
  cases write with
  | insertMessage new =>
    rw [lookup_insertMessage]
    split
    · next hnew =>
      rw [hnew.1, hnew.2] at hrow
      cases hrow
    · exact ⟨row, hrow, rfl, fun h => h⟩
  | recallMessage messageId recalledAt =>
    rw [lookup_recallMessage, hrow]
    split
    · exact ⟨row.recall recalledAt, rfl, rfl, fun _ => rfl⟩
    · exact ⟨row, rfl, rfl, fun h => h⟩
  | _ => exact ⟨row, hrow, rfl, fun h => h⟩

theorem Db.Grown.applyAll (db : Db) (writes : List Write) :
    Db.Grown db (applyAll (D := dialect) db writes) := by
  induction writes generalizing db with
  | nil => exact .refl db
  | cons write writes ih => exact (Db.Grown.apply db write).trans (ih _)

theorem message_apply (h : (db.apply write).messages.lookup id = some row) :
    (∃ old, db.messages.lookup id = some old ∧ row.origin = old.origin) ∨
      (write = .insertMessage row ∧ row.messageId = id) := by
  cases write with
  | insertMessage new =>
    rw [lookup_insertMessage] at h
    split at h
    · next hnew =>
      cases h
      exact .inr ⟨rfl, hnew.1.symm⟩
    · exact .inl ⟨row, h, rfl⟩
  | recallMessage messageId recalledAt =>
    rw [lookup_recallMessage] at h
    split at h
    · obtain ⟨old, hold, rfl⟩ := Option.map_eq_some_iff.mp h
      exact .inl ⟨old, hold, rfl⟩
    · exact .inl ⟨row, h, rfl⟩
  | _ => exact .inl ⟨row, h, rfl⟩

theorem message_applyAll (h : (applyAll (D := dialect) db writes).messages.lookup id = some row) :
    (∃ old, db.messages.lookup id = some old ∧ row.origin = old.origin) ∨
      ∃ new, .insertMessage new ∈ writes ∧ new.messageId = id ∧ row.origin = new.origin := by
  induction writes generalizing db with
  | nil => exact .inl ⟨row, h, rfl⟩
  | cons write writes ih =>
    rcases ih h with ⟨mid, hmid, horigin⟩ | ⟨new, hnew, hid, horigin⟩
    · rcases message_apply hmid with ⟨old, hold, horigin'⟩ | ⟨rfl, hid⟩
      · exact .inl ⟨old, hold, horigin.trans horigin'⟩
      · exact .inr ⟨mid, List.mem_cons_self, hid, horigin⟩
    · exact .inr ⟨new, List.mem_cons_of_mem _ hnew, hid, horigin⟩

/-! ## Keys -/

/-- Every row stands under its own unique key. -/
structure Db.Keyed (db : Db) : Prop where
  messages : Table.Keyed MessageRecord.messageId db.messages
  outbox : Table.Keyed OutboxEvent.eventId db.outbox
  conversations : Table.Keyed (fun row => (row.ownerUserId, row.conversationId)) db.conversations
  offline : Table.Keyed (fun row => (row.userId, row.messageId)) db.offline
  members : Table.Keyed (fun row => (row.groupId, row.userId)) db.members
  receipts : Table.Keyed (fun row => (row.messageId, row.userId)) db.receipts

theorem Db.Keyed.empty : ({} : Db).Keyed := ⟨.empty, .empty, .empty, .empty, .empty, .empty⟩

theorem Db.Keyed.apply (h : db.Keyed) (write : Write) : (db.apply write).Keyed := by
  cases write with
  | insertMessage new => exact { h with messages := h.messages.add new }
  | recallMessage id recalledAt =>
    have hrecall (row : MessageRecord) : (row.recall recalledAt).messageId = row.messageId := rfl
    exact { h with messages := h.messages.modify hrecall id }
  | insertEvent new => exact { h with outbox := h.outbox.add new }
  | claimEvent id leaseUntil token now =>
    have hclaim (row : OutboxEvent) : (row.claim leaseUntil token now).eventId = row.eventId := rfl
    exact { h with outbox := h.outbox.modify hclaim id }
  | markEvent id mark now =>
    have hmark (row : OutboxEvent) :
        (row.mark now mark).eventId = row.eventId := by cases mark <;> rfl
    exact { h with outbox := h.outbox.modify hmark id }
  | putConversation new => exact { h with conversations := h.conversations.insert new }
  | putOffline new => exact { h with offline := h.offline.insert new }
  | putReceipt new => exact { h with receipts := h.receipts.insert new }
  | putGroup new => exact { h with }
  | putMember new => exact { h with members := h.members.insert new }
  | removeMember groupId userId => exact { h with members := h.members.erase (groupId, userId) }
  | removeEvent eventId => exact { h with outbox := h.outbox.erase eventId }
  | removeOffline userId messageId =>
    exact { h with offline := h.offline.erase (userId, messageId) }
  | removeReceipt messageId userId =>
    exact { h with receipts := h.receipts.erase (messageId, userId) }

theorem Db.Keyed.applyAll (h : db.Keyed) (writes : List Write) :
    (applyAll (D := dialect) db writes).Keyed := by
  induction writes generalizing db with
  | nil => exact h
  | cons write writes ih => exact ih (h.apply write)

/-! ## Where a row comes from -/

def Write.conversation : Write → Option Conversation
  | .putConversation row => some row
  | _ => none

def Write.member : Write → Option GroupMember
  | .putMember row => some row
  | _ => none

def Write.receipt : Write → Option MessageReceipt
  | .putReceipt row => some row
  | _ => none

theorem Write.conversation_eq_some {row : Conversation}
    (h : write.conversation = some row) : write = .putConversation row := by
  cases write with
  | putConversation new => rw [Option.some.inj h]
  | _ => cases h

theorem Write.member_eq_some {row : GroupMember} (h : write.member = some row) :
    write = .putMember row := by
  cases write with
  | putMember new => rw [Option.some.inj h]
  | _ => cases h

theorem Write.receipt_eq_some {row : MessageReceipt} (h : write.receipt = some row) :
    write = .putReceipt row := by
  cases write with
  | putReceipt new => rw [Option.some.inj h]
  | _ => cases h

theorem conversations_puts : Puts (D := dialect) Db.conversations
    (fun row => (row.ownerUserId, row.conversationId)) Write.conversation where
  put db write row h := by
    cases Write.conversation_eq_some h
    rfl
  other db write h key row hrow := by
    cases write with
    | putConversation new => cases h
    | _ => exact hrow

theorem members_puts : Puts (D := dialect) Db.members
    (fun row => (row.groupId, row.userId)) Write.member where
  put db write row h := by
    cases Write.member_eq_some h
    rfl
  other db write h key row hrow := by
    cases write with
    | putMember new => cases h
    | removeMember groupId userId =>
      by_cases heq : key = (groupId, userId)
      · rw [heq] at hrow
        exact absurd hrow (by simp [Db.apply])
      · exact (AList.lookup_erase_ne heq).symm.trans hrow
    | _ => exact hrow

theorem receipts_puts : Puts (D := dialect) Db.receipts
    (fun row => (row.messageId, row.userId)) Write.receipt where
  put db write row h := by
    cases Write.receipt_eq_some h
    rfl
  other db write h key row hrow := by
    cases write with
    | putReceipt new => cases h
    | removeReceipt messageId userId =>
      by_cases heq : key = (messageId, userId)
      · rw [heq] at hrow
        exact absurd hrow (by simp [Db.apply])
      · exact (AList.lookup_erase_ne heq).symm.trans hrow
    | _ => exact hrow

theorem lookup_conversations_applyAll {owner : UInt64} {row : Conversation}
    (hrow : (applyAll (D := dialect) db writes).conversations.lookup (owner, id) = some row) :
    (db.conversations.lookup (owner, id) = some row ∧ ∀ conv, .putConversation conv ∈ writes →
        (conv.ownerUserId, conv.conversationId) ≠ (owner, id)) ∨
    (.putConversation row ∈ writes ∧ (row.ownerUserId, row.conversationId) = (owner, id)) := by
  rcases conversations_puts.lookup_applyAll hrow with
    ⟨hold, hnone⟩ | ⟨write, hmem, hput, hkey⟩
  · exact .inl ⟨hold, fun conv hmem => hnone _ hmem conv rfl⟩
  · exact .inr ⟨Write.conversation_eq_some hput ▸ hmem, hkey⟩

theorem isSome_conversations_applyAll {key : UInt64 × UInt64}
    (h : (db.conversations.lookup key).isSome ∨ ∃ row,
      .putConversation row ∈ writes ∧ (row.ownerUserId, row.conversationId) = key) :
    ((applyAll (D := dialect) db writes).conversations.lookup key).isSome := by
  refine conversations_puts.isSome_applyAll (fun write _ hnone db => ?_)
    (h.imp_right fun ⟨row, hmem, hkey⟩ => ⟨_, hmem, row, rfl, hkey⟩)
  cases write with
  | putConversation row => cases hnone
  | _ => rfl

theorem lookup_members_applyAll {groupId : UInt64} {row : GroupMember}
    (hrow : (applyAll (D := dialect) db writes).members.lookup (groupId, userId) = some row) :
    db.members.lookup (groupId, userId) = some row ∨
      (.putMember row ∈ writes ∧ (row.groupId, row.userId) = (groupId, userId)) := by
  rcases members_puts.lookup_applyAll hrow with
    ⟨hold, _⟩ | ⟨write, hmem, hput, hkey⟩
  · exact .inl hold
  · exact .inr ⟨Write.member_eq_some hput ▸ hmem, hkey⟩

theorem lookup_receipts_applyAll {messageId : UInt64} {row : MessageReceipt}
    (hrow : (applyAll (D := dialect) db writes).receipts.lookup (messageId, userId) = some row) :
    (db.receipts.lookup (messageId, userId) = some row ∧ ∀ new, .putReceipt new ∈ writes →
        (new.messageId, new.userId) ≠ (messageId, userId)) ∨
    (.putReceipt row ∈ writes ∧ (row.messageId, row.userId) = (messageId, userId)) := by
  rcases receipts_puts.lookup_applyAll hrow with
    ⟨hold, hnone⟩ | ⟨write, hmem, hput, hkey⟩
  · exact .inl ⟨hold, fun new hmem => hnone _ hmem new rfl⟩
  · exact .inr ⟨Write.receipt_eq_some hput ▸ hmem, hkey⟩

theorem isSome_receipts_applyAll
    (hkeep : ∀ messageId userId, .removeReceipt messageId userId ∉ writes)
    {key : UInt64 × UInt64} (h : (db.receipts.lookup key).isSome ∨
      ∃ row, .putReceipt row ∈ writes ∧ (row.messageId, row.userId) = key) :
    ((applyAll (D := dialect) db writes).receipts.lookup key).isSome := by
  refine receipts_puts.isSome_applyAll (fun write hmem hnone db => ?_)
    (h.imp_right fun ⟨row, hmem, hkey⟩ => ⟨_, hmem, row, rfl, hkey⟩)
  cases write with
  | putReceipt row => cases hnone
  | removeReceipt messageId userId => exact absurd hmem (hkeep messageId userId)
  | _ => rfl

theorem applyAll_rows (db : Db) (hwrites : ∀ write ∈ writes, ∃ row, write = .putConversation row) :
    (applyAll (D := dialect) db writes).messages = db.messages ∧
      (applyAll (D := dialect) db writes).receipts = db.receipts := by
  apply Prod.mk.inj
  refine applyAll_kept (D := dialect) (fun db => (db.messages, db.receipts)) ?_ db
  intro write hmem db
  obtain ⟨row, rfl⟩ := hwrites write hmem
  rfl

/-! ## Rows found and rows upserted -/

theorem findSequence_eq_some (hkeyed : db.Keyed) {sequence : UInt32}
    (h : db.findSequence user sequence = some row) :
    db.messages.lookup row.messageId = some row ∧ row.fromUserId = user ∧
      row.clientSequenceId = sequence := by
  have hmem := List.mem_of_find?_eq_some h
  have hcolumns := List.find?_some h
  simp only [Bool.and_eq_true, decide_eq_true_eq] at hcolumns
  obtain ⟨key, hkey⟩ := Table.mem_rows.mp hmem
  have hid := hkeyed.messages key row hkey
  exact ⟨hid ▸ hkey, hcolumns⟩

theorem findSequence_eq_none {sequence : UInt32}
    (h : db.findSequence user sequence = none) (id : UInt64) :
    ¬ db.SentAs user sequence id := by
  rintro ⟨row, hrow, huser, hsequence⟩
  have hnone := List.find?_eq_none.mp h row (Table.mem_rows.mpr ⟨id, hrow⟩)
  simp [huser, hsequence] at hnone

theorem mem_conversationsOf (hkeyed : db.Keyed) {conversationId : UInt64}
    {row : Conversation} : row ∈ db.conversationsOf conversationId ↔
      db.conversations.lookup (row.ownerUserId, conversationId) = some row ∧
        row.conversationId = conversationId := by
  simp only [Db.conversationsOf, List.mem_filter, decide_eq_true_eq, Table.mem_rows]
  constructor
  · rintro ⟨⟨key, hkey⟩, rfl⟩
    obtain rfl : (row.ownerUserId, row.conversationId) = key := hkeyed.conversations key row hkey
    exact ⟨hkey, rfl⟩
  · rintro ⟨hrow, hid⟩
    exact ⟨⟨_, hrow⟩, hid⟩

theorem mem_membersOf (hkeyed : db.Keyed) {groupId : UInt64} : userId ∈ db.membersOf groupId ↔
      (db.members.lookup (groupId, userId)).isSome := by
  simp only [Db.membersOf, List.mem_insertionSort, List.mem_map, List.mem_filter,
    Table.mem_rows, decide_eq_true_eq, Option.isSome_iff_exists]
  constructor
  · rintro ⟨row, ⟨⟨key, hrow⟩, rfl⟩, rfl⟩
    have hkey : (row.groupId, row.userId) = key := hkeyed.members key row hrow
    exact ⟨row, hkey ▸ hrow⟩
  · rintro ⟨row, hrow⟩
    obtain ⟨hgroup, huser⟩ := Prod.mk.inj (hkeyed.members _ row hrow)
    exact ⟨row, ⟨⟨_, hrow⟩, hgroup⟩, huser⟩

theorem upserted_columns (hkeyed : db.Keyed) (conv : Conversation) (increaseUnread : Bool) :
    (db.upserted conv increaseUnread).ownerUserId = conv.ownerUserId ∧
      (db.upserted conv increaseUnread).conversationId = conv.conversationId ∧
      (db.upserted conv increaseUnread).deleted = false := by
  cases hrow : db.conversations.lookup (conv.ownerUserId, conv.conversationId) with
  | none => simp [Db.upserted, hrow]
  | some row =>
    have hkey := hkeyed.conversations _ row hrow
    simpa [Db.upserted, hrow] using hkey

end NebulaIM.Backend
