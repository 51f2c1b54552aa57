import NebulaIM.Chat.Commits
import NebulaIM.Backend.Counts

/-!
# Unread counts statement by statement

A row is counted if a recount would leave its `unread_count` as it is.  Recalls
and read marks put the rows they are about out of count and the recount behind
them puts them back; a send raises the rows it lists.  `NothingSent` collects what
all statements but those of a send keep.
-/

namespace NebulaIM.Chat

open Foundation Foundation.Store
open Backend Protocol Message

variable {id messageId userId conversationId : UInt64} {readAt now : Int64}
variable {record : MessageRecord}
variable {db db' : Db} {writes : List Write}

/-! ## Receipts -/

/-- Receipts stand under their keys, are about stored messages and have no
negative read times. -/
structure Known (db : Db) : Prop where
  keyed : Table.Keyed (fun row : MessageReceipt => (row.messageId, row.userId)) db.receipts
  stored : ∀ {id user row}, db.receipts.lookup (id, user) = some row →
    (db.messages.lookup id).isSome
  times : ∀ {id user row}, db.receipts.lookup (id, user) = some row → 0 ≤ row.readAt

theorem Known.unread_new (h : Known db) (hfresh : db.messages.lookup id = none)
    (user : UInt64) : db.readBy id user = false := by
  cases hrow : db.receipts.lookup (id, user) with
  | none => simp [Db.readBy, hrow]
  | some row =>
    have hstored := h.stored hrow
    rw [hfresh] at hstored
    cases hstored

theorem left_le_max (a b : Int64) : a ≤ max a b := by
  simp only [max]
  split
  · assumption
  · exact Int64.le_refl a

theorem markedRead_columns (h : Known db) (messageId userId : UInt64) (htime : 0 ≤ readAt) :
    ((db.markedRead messageId userId readAt).messageId,
      (db.markedRead messageId userId readAt).userId) = (messageId, userId) ∧
    0 ≤ (db.markedRead messageId userId readAt).readAt ∧
    (db.readBy messageId userId = true → (db.markedRead messageId userId readAt).readAt ≠ 0) := by
  cases hrow : db.receipts.lookup (messageId, userId) with
  | none => simp [Db.markedRead, Db.readBy, hrow, htime]
  | some row =>
    have hold := h.times hrow
    have hkey := h.keyed _ row hrow
    have hmax : row.readAt ≤ max row.readAt readAt := left_le_max _ _
    simp only [Db.markedRead, Db.readBy, hrow, Option.any_some]
    refine ⟨hkey, Int64.le_trans hold hmax, ?_⟩
    intro hread hzero
    rw [hzero] at hmax
    simp [Int64.le_antisymm hmax hold] at hread

theorem delivered_columns (h : Known db) (messageId userId : UInt64) (deliveredAt : Int64) :
    ((db.delivered messageId userId deliveredAt).messageId,
      (db.delivered messageId userId deliveredAt).userId) = (messageId, userId) ∧
    0 ≤ (db.delivered messageId userId deliveredAt).readAt ∧
    db.readBy messageId userId = ((db.delivered messageId userId deliveredAt).readAt != 0) := by
  cases hrow : db.receipts.lookup (messageId, userId) with
  | none => simp [Db.delivered, Db.readBy, hrow]
  | some row =>
    have hold := h.times hrow
    have hkey := h.keyed _ row hrow
    simp only [Db.delivered, Db.readBy, hrow, Option.any_some]
    exact ⟨hkey, hold, trivial⟩

/-! ## What is not a send -/

/-- No message and no row is new, and what was read stays read. -/
structure NothingSent (db db' : Db) : Prop where
  grown : Db.Grown db db'
  messages : ∀ {id}, db.messages.lookup id = none → db'.messages.lookup id = none
  rows : ∀ key, (db'.conversations.lookup key).isSome = (db.conversations.lookup key).isSome
  reads : ∀ {id user}, db.readBy id user = true → db'.readBy id user = true
  known : Known db → Known db'

theorem NothingSent.of_tables (hconversations : db'.conversations = db.conversations)
    (hmessages : db'.messages = db.messages)
    (hreceipts : db'.receipts = db.receipts) : NothingSent db db' where
  grown := .of_eq hmessages
  messages hnone := hmessages ▸ hnone
  rows key := by rw [hconversations]
  reads hread := by rwa [Db.readBy, hreceipts]
  known h := by
    refine ⟨?_, ?_, ?_⟩ <;> rw [hreceipts]
    · exact h.keyed
    · exact hmessages ▸ h.stored
    · exact h.times

theorem NothingSent.trans {db'' : Db} (h₁ : NothingSent db db') (h₂ : NothingSent db' db'') :
    NothingSent db db'' where
  grown := h₁.grown.trans h₂.grown
  messages hnone := h₂.messages (h₁.messages hnone)
  rows key := (h₂.rows key).trans (h₁.rows key)
  reads hread := h₂.reads (h₁.reads hread)
  known h := h₂.known (h₁.known h)

theorem NothingSent.old (h : NothingSent db db') {row : MessageRecord}
    (hrow : db'.messages.lookup id = some row) :
    ∃ old, db.messages.lookup id = some old ∧ row.origin = old.origin ∧
      (old.recalled = true → row.recalled = true) := by
  cases hold : db.messages.lookup id with
  | none =>
    rw [h.messages hold] at hrow
    cases hrow
  | some old =>
    obtain ⟨now, hnow, hkept⟩ := h.grown id old hold
    rw [hrow] at hnow
    cases hnow
    exact ⟨old, rfl, hkept⟩

theorem NothingSent.unread_le (h : NothingSent db db') (owner conversationId : UInt64) :
    db'.unread owner conversationId ≤ db.unread owner conversationId := by
  refine Db.unread_le fun id row hrow hunread => ?_
  obtain ⟨old, hold, horigin, hrecalled⟩ := h.old hrow
  obtain ⟨hconversation, hfrom, hstill, hread⟩ := Db.isUnread_iff.mp hunread
  have hid : row.messageId = old.messageId := congrArg (·.messageId) horigin
  refine ⟨old, hold, Db.isUnread_iff.mpr ⟨?_, ?_, ?_, ?_⟩⟩
  · exact (congrArg (·.conversationId) horigin).symm.trans hconversation
  · exact fun heq => hfrom ((congrArg (·.fromUserId) horigin).trans heq)
  · refine Bool.eq_false_iff.mpr fun hold => ?_
    rw [hrecalled hold] at hstill
    cases hstill
  · refine Bool.eq_false_iff.mpr fun hold => ?_
    rw [hid, h.reads hold] at hread
    cases hread

theorem lookup_messages_none (hinsert : ∀ row, .insertMessage row ∉ writes)
    (hnone : db.messages.lookup id = none) :
    (applyAll (D := dialect) db writes).messages.lookup id = none := by
  induction writes generalizing db with
  | nil => exact hnone
  | cons write writes ih =>
    refine ih (fun row hmem => hinsert row (List.mem_cons_of_mem _ hmem)) ?_
    cases write with
    | insertMessage row => exact absurd List.mem_cons_self (hinsert row)
    | recallMessage messageId now => simp [lookup_recallMessage, hnone]
    | _ => exact hnone

/-- The writes add no message and no row, and unmark nothing. -/
structure SendFree (db : Db) (writes : List Write) : Prop where
  messages : ∀ row, .insertMessage row ∉ writes
  rows : ∀ row, .putConversation row ∈ writes →
    (db.conversations.lookup (row.ownerUserId, row.conversationId)).isSome
  reads : ∀ row, .putReceipt row ∈ writes →
    (db.messages.lookup row.messageId).isSome ∧ 0 ≤ row.readAt ∧
      (db.readBy row.messageId row.userId = true → row.readAt ≠ 0)
  receipts : ∀ messageId userId, .removeReceipt messageId userId ∉ writes

theorem SendFree.nothingSent (h : SendFree db writes) :
    NothingSent db (applyAll (D := dialect) db writes) where
  grown := .applyAll db writes
  messages := lookup_messages_none h.messages
  rows := by
    rintro ⟨owner, id⟩
    refine Bool.eq_iff_iff.mpr ⟨fun hsome => ?_,
      fun hsome => isSome_conversations_applyAll (.inl hsome)⟩
    obtain ⟨row, hrow⟩ := Option.isSome_iff_exists.mp hsome
    rcases lookup_conversations_applyAll hrow with ⟨hold, _⟩ | ⟨hput, hkey⟩
    · rw [hold]
      rfl
    · exact hkey ▸ h.rows row hput
  reads := by
    intro id user hread
    have hsome : (db.receipts.lookup (id, user)).isSome := by
      cases hrow : db.receipts.lookup (id, user) with
      | none => simp [Db.readBy, hrow] at hread
      | some row => rfl
    obtain ⟨row, hrow⟩ := Option.isSome_iff_exists.mp
      (isSome_receipts_applyAll h.receipts (.inl hsome))
    rcases lookup_receipts_applyAll hrow with ⟨hold, _⟩ | ⟨hput, hkey⟩
    · rw [Db.readBy, hrow, ← hold]
      exact hread
    · obtain ⟨rfl, rfl⟩ := Prod.mk.inj hkey
      simp [Db.readBy, hrow, (h.reads row hput).2.2 hread]
  known hknown := by
    constructor
    case keyed =>
      rintro ⟨id, user⟩ row hrow
      rcases lookup_receipts_applyAll hrow with ⟨hold, _⟩ | ⟨_, hkey⟩
      · exact hknown.keyed _ row hold
      · exact hkey
    case stored =>
      intro id user row hrow
      have hsome : (db.messages.lookup id).isSome := by
        rcases lookup_receipts_applyAll hrow with ⟨hold, _⟩ | ⟨hnew, hkey⟩
        · exact hknown.stored hold
        · obtain ⟨rfl, rfl⟩ := Prod.mk.inj hkey
          exact (h.reads row hnew).1
      obtain ⟨old, hold⟩ := Option.isSome_iff_exists.mp hsome
      obtain ⟨now, hnow, _⟩ := Db.Grown.applyAll db writes id old hold
      rw [hnow]
      rfl
    case times =>
      intro id user row hrow
      rcases lookup_receipts_applyAll hrow with ⟨hold, _⟩ | ⟨hnew, _⟩
      · exact hknown.times hold
      · exact (h.reads row hnew).2.1

theorem SendFree.of_rows
    (h : ∀ write ∈ writes, ∃ row, write = .putConversation row ∧
      (db.conversations.lookup (row.ownerUserId, row.conversationId)).isSome) :
    SendFree db writes where
  messages row hmem := by
    obtain ⟨_, hrow, _⟩ := h _ hmem
    cases hrow
  rows row hmem := by
    obtain ⟨_, hrow, hsome⟩ := h _ hmem
    cases hrow
    exact hsome
  reads row hmem := by
    obtain ⟨_, hrow, _⟩ := h _ hmem
    cases hrow
  receipts id user hmem := by
    obtain ⟨_, hrow, _⟩ := h _ hmem
    cases hrow

theorem SendFree.of_receipts
    (h : ∀ write ∈ writes, ∃ row, write = .putReceipt row ∧
      (db.messages.lookup row.messageId).isSome ∧ 0 ≤ row.readAt ∧
        (db.readBy row.messageId row.userId = true → row.readAt ≠ 0)) :
    SendFree db writes where
  messages row hmem := by
    obtain ⟨_, hrow, _⟩ := h _ hmem
    cases hrow
  rows row hmem := by
    obtain ⟨_, hrow, _⟩ := h _ hmem
    cases hrow
  reads row hmem := by
    obtain ⟨_, hrow, hreads⟩ := h _ hmem
    cases hrow
    exact hreads
  receipts id user hmem := by
    obtain ⟨_, hrow, _⟩ := h _ hmem
    cases hrow

/-! ## Counted rows -/

/-- A recount would leave every row as it is, except where it need not. -/
def CountedBut (except : UInt64 → UInt64 → Prop) (db : Db) : Prop :=
  ∀ owner id row, db.conversations.lookup (owner, id) = some row →
    ¬ except owner id → row.unreadCount = db.unread owner id

def Counted (db : Db) : Prop := CountedBut (fun _ _ => False) db

variable {except : UInt64 → UInt64 → Prop}

theorem CountedBut.of_tables (h : CountedBut except db)
    (hconversations : db'.conversations = db.conversations) (hmessages : db'.messages = db.messages)
    (hreceipts : db'.receipts = db.receipts) : CountedBut except db' := by
  intro owner id row hrow hexcept
  rw [hconversations] at hrow
  rw [Db.unread_eq_of_tables hmessages hreceipts]
  exact h owner id row hrow hexcept

theorem CountedBut.relisted (h : CountedBut except db)
    (hwrites : ∀ write ∈ writes, ∃ row, write = .putConversation row ∧
      ∃ old, db.conversations.lookup (row.ownerUserId, row.conversationId) =
        some old ∧ row.unreadCount = old.unreadCount) :
    CountedBut except (applyAll (D := dialect) db writes) := by
  intro owner id row hrow hexcept
  obtain ⟨hmessages, hreceipts⟩ := applyAll_rows db
    fun write hmem => (hwrites write hmem).imp fun _ h => h.1
  rw [Db.unread_eq_of_tables hmessages hreceipts]
  rcases lookup_conversations_applyAll hrow with ⟨hold, _⟩ | ⟨hput, hkey⟩
  · exact h owner id row hold hexcept
  · obtain ⟨new, hnew, old, hold, hcount⟩ := hwrites _ hput
    cases hnew
    obtain ⟨rfl, rfl⟩ := Prod.mk.inj hkey
    rw [hcount]
    exact h _ _ old hold hexcept

theorem CountedBut.recounted (h : CountedBut except db)
    (hwrites : ∀ write ∈ writes, ∃ row, write = .putConversation row ∧
      row.unreadCount = db.unread row.ownerUserId row.conversationId)
    (hall : ∀ owner id row, db.conversations.lookup (owner, id) = some row →
      except owner id → ∃ row, .putConversation row ∈ writes ∧
        (row.ownerUserId, row.conversationId) = (owner, id)) :
    Counted (applyAll (D := dialect) db writes) := by
  intro owner id row hrow _
  obtain ⟨hmessages, hreceipts⟩ := applyAll_rows db
    fun write hmem => (hwrites write hmem).imp fun _ h => h.1
  rw [Db.unread_eq_of_tables hmessages hreceipts]
  rcases lookup_conversations_applyAll hrow with ⟨hold, hnone⟩ | ⟨hput, hkey⟩
  · refine h owner id row hold fun hexcept => ?_
    obtain ⟨new, hput, hkey⟩ := hall owner id row hold hexcept
    exact hnone new hput hkey
  · obtain ⟨new, hnew, hcount⟩ := hwrites _ hput
    cases hnew
    obtain ⟨rfl, rfl⟩ := Prod.mk.inj hkey
    exact hcount

/-! ## Statements -/

theorem countedBut_recallMessage (h : Counted db)
    (hrecord : db.messages.lookup messageId = some record) (now : Int64) :
    CountedBut (fun _ id => id = record.conversationId)
      (db.apply (.recallMessage messageId now)) := by
  intro owner id row hrow hother
  rw [Db.unread_recallMessage now hrecord fun heq => hother heq.symm]
  exact h owner id row hrow not_false

theorem countedBut_receipts (hkeyed : db.Keyed) (h : Counted db)
    (hwrites : ∀ write ∈ writes, ∃ row record, write = .putReceipt row ∧
      row.userId = userId ∧ db.messages.lookup row.messageId = some record ∧
      record.conversationId = conversationId) :
    CountedBut (fun owner id => owner = userId ∧ id = conversationId)
      (applyAll (D := dialect) db writes) := by
  have htables : (applyAll (D := dialect) db writes).messages = db.messages ∧
      (applyAll (D := dialect) db writes).conversations = db.conversations := by
    have hputs : ∀ write ∈ writes, ∃ row, write = .putReceipt row :=
      fun write hmem => (hwrites write hmem).imp fun _ h => h.choose_spec.1
    clear hwrites h hkeyed
    induction writes generalizing db with
    | nil => exact ⟨rfl, rfl⟩
    | cons write writes ih =>
      obtain ⟨row, rfl⟩ := hputs write List.mem_cons_self
      exact ih fun other hmem => hputs other (List.mem_cons_of_mem _ hmem)
  intro owner id row hrow hother
  rw [htables.2] at hrow
  have hsame : (applyAll (D := dialect) db writes).unread owner id =
      db.unread owner id := by
    refine Db.unread_congr (fun _ _ _ => by rw [htables.1]) ?_
    intro key message hmessage hconversation
    have hkey : message.messageId = key := hkeyed.messages key message hmessage
    rw [Db.readBy, Db.readBy, lookup_receipts_frame db]
    · intro write hmem htouch
      obtain ⟨put, record, rfl, huser, hrecord, hid⟩ := hwrites write hmem
      simp only [Write.touches, List.mem_singleton, Key.receipt.injEq] at htouch
      rw [← htouch.1, hkey, hmessage] at hrecord
      cases hrecord
      exact hother ⟨htouch.2.trans huser, hconversation.symm.trans hid⟩
  rw [hsame]
  exact h owner id row hrow not_false

/-- Rows stay counted, and nothing is new. -/
structure Recounts (db db' : Db) : Prop where
  nothingSent : NothingSent db db'
  counted : Counted db → Counted db'

theorem Recounts.trans {db'' : Db} (h₁ : Recounts db db') (h₂ : Recounts db' db'') :
    Recounts db db'' :=
  ⟨h₁.nothingSent.trans h₂.nothingSent, fun h => h₂.counted (h₁.counted h)⟩

theorem Recounts.of_tables (hconversations : db'.conversations = db.conversations)
    (hmessages : db'.messages = db.messages)
    (hreceipts : db'.receipts = db.receipts) : Recounts db db' :=
  ⟨.of_tables hconversations hmessages hreceipts,
    fun h => h.of_tables hconversations hmessages hreceipts⟩

theorem env_recounts (w : World) (event : Env) : Recounts w.db (w.env event).db := by
  cases event with
  | redis key value => cases value <;> exact .of_tables rfl rfl rfl
  | _ => exact .of_tables rfl rfl rfl

theorem insertEvent_does {event : OutboxEvent} {answer : Bool}
    (h : Does db ⟨.insertEvent event, answer⟩ db') :
    db'.conversations = db.conversations ∧ db'.messages = db.messages ∧
      db'.receipts = db.receipts := by
  obtain ⟨choice, locked, _, rfl⟩ := h
  simp only [Stmt.plan]
  split <;> exact ⟨rfl, rfl, rfl⟩

theorem recallMessage_does (hrecord : db.messages.lookup messageId = some record)
    (h : Does db ⟨.recallMessage messageId now, true⟩ db') :
    NothingSent db db' ∧ (Counted db →
      CountedBut (fun _ id => id = record.conversationId) db') := by
  obtain ⟨choice, locked, hresult, rfl⟩ := h
  simp only [Stmt.plan, hrecord] at hresult ⊢
  split at hresult
  case isTrue => cases hresult
  case isFalse hrecalled =>
    simp only [if_neg hrecalled, writing]
    refine ⟨SendFree.nothingSent ?_, fun h => countedBut_recallMessage h hrecord now⟩
    constructor <;> simp

theorem recalculateUnread_does (hkeyed : db.Keyed)
    (h : Does db ⟨.recalculateUnread userId conversationId now, true⟩ db') :
    NothingSent db db' ∧
      (CountedBut (fun owner id => owner = userId ∧ id = conversationId) db → Counted db') := by
  obtain ⟨choice, locked, _, rfl⟩ := h
  simp only [Stmt.plan, writing]
  cases hrow : db.conversations.lookup (userId, conversationId) with
  | none =>
    refine ⟨.of_tables rfl rfl rfl, fun h => ?_⟩
    intro owner id row hlookup _
    have hold : db.conversations.lookup (owner, id) = some row := hlookup
    refine h owner id row hold ?_
    rintro ⟨rfl, rfl⟩
    rw [hrow] at hold
    cases hold
  | some row =>
    obtain ⟨rfl, rfl⟩ := Prod.mk.inj (hkeyed.conversations _ row hrow)
    simp only [Option.toList_some, List.map_cons, List.map_nil]
    refine ⟨(SendFree.of_rows fun write hmem => ?_).nothingSent, fun h => ?_⟩
    · cases List.mem_singleton.mp hmem
      exact ⟨_, rfl, Option.isSome_of_eq_some hrow⟩
    · refine h.recounted (fun write hmem => ?_) ?_
      · cases List.mem_singleton.mp hmem
        exact ⟨_, rfl, rfl⟩
      · rintro owner id old _ ⟨rfl, rfl⟩
        exact ⟨_, List.mem_singleton.mpr rfl, rfl⟩

theorem recalculateUnreadForConversation_does (hkeyed : db.Keyed)
    (h : Does db ⟨.recalculateUnreadForConversation conversationId now, true⟩ db') :
    NothingSent db db' ∧ (CountedBut (fun _ id => id = conversationId) db → Counted db') := by
  obtain ⟨choice, locked, _, rfl⟩ := h
  simp only [Stmt.plan, writing]
  refine ⟨(SendFree.of_rows fun write hmem => ?_).nothingSent, fun h => ?_⟩
  · obtain ⟨row, hrow, rfl⟩ := List.mem_map.mp hmem
    obtain ⟨hlookup, rfl⟩ := (mem_conversationsOf hkeyed).mp hrow
    exact ⟨_, rfl, Option.isSome_of_eq_some hlookup⟩
  · refine h.recounted (fun write hmem => ?_) ?_
    · obtain ⟨row, _, rfl⟩ := List.mem_map.mp hmem
      exact ⟨_, rfl, rfl⟩
    · rintro owner id row hrow rfl
      obtain ⟨rfl, rfl⟩ := Prod.mk.inj (hkeyed.conversations _ row hrow)
      exact ⟨_, List.mem_map.mpr ⟨row, (mem_conversationsOf hkeyed).mpr ⟨hrow, rfl⟩, rfl⟩, rfl⟩

theorem Recounts.of_rows
    (h : ∀ write ∈ writes, ∃ row old, write = .putConversation row ∧
      db.conversations.lookup (row.ownerUserId, row.conversationId) = some old ∧
      row.unreadCount = old.unreadCount) :
    Recounts db (applyAll (D := dialect) db writes) := by
  constructor
  · refine (SendFree.of_rows fun write hmem => ?_).nothingSent
    obtain ⟨row, old, rfl, hold, _⟩ := h write hmem
    exact ⟨row, rfl, Option.isSome_of_eq_some hold⟩
  · refine fun hcounted => hcounted.relisted fun write hmem => ?_
    obtain ⟨row, old, hrow, hold⟩ := h write hmem
    exact ⟨row, hrow, old, hold⟩

theorem markLastMessageRecalled_does (hkeyed : db.Keyed)
    (h : Does db ⟨.markLastMessageRecalled conversationId messageId now, true⟩ db') :
    Recounts db db' := by
  obtain ⟨choice, locked, _, rfl⟩ := h
  simp only [Stmt.plan, writing]
  refine .of_rows fun write hmem => ?_
  obtain ⟨row, hrow, rfl⟩ := List.mem_map.mp hmem
  obtain ⟨hlookup, rfl⟩ := (mem_conversationsOf hkeyed).mp (List.mem_filter.mp hrow).1
  exact ⟨_, row, rfl, hlookup, rfl⟩

theorem markRead_does (hkeyed : db.Keyed) (hknown : Known db) (htime : 0 ≤ readAt)
    (hrecord : db.messages.lookup messageId = some record)
    (hconversation : record.conversationId = conversationId)
    (h : Does db ⟨.markRead messageId userId readAt, true⟩ db') :
    NothingSent db db' ∧ (Counted db → CountedBut
      (fun owner id => owner = userId ∧ id = conversationId) db') := by
  obtain ⟨choice, locked, _, rfl⟩ := h
  obtain ⟨hkey, hpositive, hreads⟩ := markedRead_columns hknown messageId userId htime
  obtain ⟨hid, huser⟩ := Prod.mk.inj hkey
  simp only [Stmt.plan, writing]
  refine ⟨(SendFree.of_receipts fun write hmem => ?_).nothingSent, fun hcounted => ?_⟩
  · cases List.mem_singleton.mp hmem
    refine ⟨_, rfl, ?_, hpositive, ?_⟩
    · rw [hid]
      exact Option.isSome_of_eq_some hrecord
    · rw [hid, huser]
      exact hreads
  · refine countedBut_receipts hkeyed hcounted fun write hmem => ?_
    cases List.mem_singleton.mp hmem
    exact ⟨_, record, rfl, huser, hid.symm ▸ hrecord, hconversation⟩

theorem markConversationRead_does (hkeyed : db.Keyed) (hknown : Known db)
    {upToMessageId : UInt64} {upToCreatedAt : Int64} (htime : 0 ≤ readAt)
    (h : Does db ⟨.markConversationRead conversationId userId upToMessageId
      upToCreatedAt readAt, true⟩ db') :
    NothingSent db db' ∧ (Counted db → CountedBut
      (fun owner id => owner = userId ∧ id = conversationId) db') := by
  obtain ⟨choice, locked, _, rfl⟩ := h
  simp only [Stmt.plan, writing]
  have hmark : ∀ write ∈ (db.readable conversationId userId upToMessageId
      upToCreatedAt).map (fun row => Write.putReceipt (db.markedRead row.messageId userId readAt)),
      ∃ record, write = .putReceipt (db.markedRead record.messageId userId readAt) ∧
        db.messages.lookup record.messageId = some record ∧
        record.conversationId = conversationId := by
    intro write hmem
    obtain ⟨record, hreadable, rfl⟩ := List.mem_map.mp hmem
    simp only [Db.readable, List.mem_filter, Bool.and_eq_true,
      decide_eq_true_eq, Table.mem_rows] at hreadable
    obtain ⟨⟨key, hkey⟩, ⟨⟨hconversation, _⟩, _⟩, _⟩ := hreadable
    obtain rfl : record.messageId = key := hkeyed.messages key record hkey
    exact ⟨record, rfl, hkey, hconversation⟩
  refine ⟨(SendFree.of_receipts fun write hmem => ?_).nothingSent, fun hcounted => ?_⟩
  · obtain ⟨record, rfl, hrecord, _⟩ := hmark write hmem
    obtain ⟨hkey, hpositive, hreads⟩ := markedRead_columns hknown record.messageId userId htime
    obtain ⟨hid, huser⟩ := Prod.mk.inj hkey
    refine ⟨_, rfl, ?_, hpositive, ?_⟩
    · rw [hid]
      exact Option.isSome_of_eq_some hrecord
    · rw [hid, huser]
      exact hreads
  · refine countedBut_receipts hkeyed hcounted fun write hmem => ?_
    obtain ⟨record, rfl, hrecord, hid⟩ := hmark write hmem
    obtain ⟨hkey, huser⟩ := Prod.mk.inj (markedRead_columns hknown record.messageId userId htime).1
    exact ⟨_, record, rfl, huser, hkey.symm ▸ hrecord, hid⟩

theorem upsertDelivered_does (hknown : Known db) {deliveredAt : Int64}
    (hrecord : db.messages.lookup messageId = some record)
    (h : Does db ⟨.upsertDelivered messageId userId deliveredAt, true⟩ db') :
    Recounts db db' := by
  obtain ⟨choice, locked, _, rfl⟩ := h
  obtain ⟨hkey, hpositive, hreads⟩ := delivered_columns hknown messageId userId deliveredAt
  obtain ⟨hid, huser⟩ := Prod.mk.inj hkey
  simp only [Stmt.plan, writing]
  constructor
  · refine (SendFree.of_receipts fun write hmem => ?_).nothingSent
    cases List.mem_singleton.mp hmem
    refine ⟨_, rfl, ?_, hpositive, ?_⟩
    · rw [hid]
      exact Option.isSome_of_eq_some hrecord
    · rw [hid, huser, hreads]
      simp
  · intro hcounted owner id row hrow _
    have hsame : (applyAll (D := dialect) db [.putReceipt
        (db.delivered messageId userId deliveredAt)]).unread owner id =
          db.unread owner id := by
      refine Db.unread_congr (fun _ _ _ => Iff.rfl) fun key message _ _ => ?_
      refine (Db.readBy_putReceipt db _ message.messageId owner).trans ?_
      rw [hid, huser]
      split
      · next heq =>
        obtain ⟨rfl, rfl⟩ := Prod.mk.inj heq
        exact hreads.symm
      · rfl
    rw [hsame]
    exact hcounted owner id row hrow not_false

/-! ## Units of work that store no message -/

section Works

variable {D : Discipline} {w : World} {past : Calls}

theorem Serially.recall {event : OutboxEvent} (h : Serially db
      [⟨.recallMessage messageId now, true⟩, ⟨.insertEvent event, true⟩,
        ⟨.recalculateUnreadForConversation conversationId now, true⟩,
        ⟨.markLastMessageRecalled conversationId id now, true⟩] db') (hkeyed : db.Keyed)
    (hrecord : db.messages.lookup messageId = some record)
    (hid : record.conversationId = conversationId) : Recounts db db' := by
  subst hid
  obtain ⟨first, hrecall, second, hevent, third, hrecount, fourth, hmark, rfl⟩ := h
  have hkeyed₂ : second.Keyed := hevent.keyed (hrecall.keyed hkeyed)
  obtain ⟨hsettled₁, hcounted₁⟩ := recallMessage_does hrecord hrecall
  obtain ⟨hconversations, hmessages, hreceipts⟩ := insertEvent_does hevent
  obtain ⟨hsettled₃, hcounted₃⟩ := recalculateUnreadForConversation_does hkeyed₂ hrecount
  refine Recounts.trans ⟨?_, fun h => ?_⟩
    (markLastMessageRecalled_does (hrecount.keyed hkeyed₂) hmark)
  · exact (hsettled₁.trans (.of_tables hconversations hmessages hreceipts)).trans hsettled₃
  · exact hcounted₃ ((hcounted₁ h).of_tables hconversations hmessages hreceipts)

theorem Serially.read {mark : Stmt} {answer : mark.Res}
    (h : Serially db (readCalls mark answer userId conversationId now) db')
    (hkeyed : db.Keyed) (hmark : ∀ {mid}, Does db ⟨mark, answer⟩ mid → NothingSent db mid ∧
      (Counted db → CountedBut (fun owner id => owner = userId ∧ id = conversationId) mid)) :
    Recounts db db' := by
  obtain ⟨mid, hdoes, last, hrecount, rfl⟩ := h
  obtain ⟨hsettled, hcounted⟩ := hmark hdoes
  obtain ⟨hsettled', hcounted'⟩ := recalculateUnread_does (hdoes.keyed hkeyed) hrecount
  exact ⟨hsettled.trans hsettled', fun h => hcounted' (hcounted h)⟩

theorem Serially.ack (h : Serially db [⟨.upsertDelivered messageId userId now, true⟩,
      ⟨.markAsAcked userId messageId, true⟩] db') (hknown : Known db)
    (hrecord : db.messages.lookup messageId = some record) : Recounts db db' := by
  obtain ⟨mid, hdelivered, last, hacked, rfl⟩ := h
  refine (upsertDelivered_does hknown hrecord hdelivered).trans ?_
  obtain ⟨choice, locked, _, rfl⟩ := hacked
  simp only [Stmt.plan, writing]
  cases mid.ackedOffline userId messageId choice.clock <;>
    exact .of_tables rfl rfl rfl

theorem Serially.pull {messageIds : List UInt64}
    (h : Serially db [⟨.markBatchAsPulled userId messageIds, true⟩] db') :
    Recounts db db' := by
  obtain ⟨mid, ⟨choice, locked, _, rfl⟩, rfl⟩ := h
  simp only [Stmt.plan, writing]
  have hoffline (rows : List OfflineMessage) (db : Db) :
      Recounts db (applyAll (D := dialect) db (rows.map .putOffline)) := by
    induction rows generalizing db with
    | nil => exact .of_tables rfl rfl rfl
    | cons row rows ih =>
      have hrow : Recounts db (db.apply (.putOffline row)) := .of_tables rfl rfl rfl
      exact hrow.trans (ih _)
  exact hoffline _ db

theorem Serially.createGroup {group : GroupRecord} {groupId : UInt64}
    (h : Serially db [⟨.insertGroup group, some groupId⟩,
      ⟨.insertMember ⟨groupId, group.ownerId, 1⟩, true⟩] db') :
    Recounts db db' := by
  obtain ⟨mid, ⟨choice, locked, _, hgroup⟩, last, ⟨choice', locked', _, hmember⟩, rfl⟩ := h
  have hfirst : Recounts db mid := by
    rw [hgroup]
    simp only [Stmt.plan]
    split <;> exact .of_tables rfl rfl rfl
  have hsecond : Recounts mid db' := by
    rw [hmember]
    simp only [Stmt.plan]
    split <;> exact .of_tables rfl rfl rfl
  exact hfirst.trans hsecond

theorem Plain.recounts {kinds : Kind → Prop} {saved : OfflineMessage → Prop}
    {stmt : Stmt} (h : Plain kinds saved stmt) (hcleanup : ¬ kinds .cleanup)
    (hkeyed : db.Keyed) (choice : Choice) (locked : List Key) :
    Recounts db (applyAll (D := dialect) db (stmt.plan choice db locked).writes) := by
  have hflag {owner id : UInt64} (row : Conversation)
      (hrow : db.conversations.lookup (owner, id) = some row) (new : Conversation)
      (hnew : (new.ownerUserId, new.conversationId) = (row.ownerUserId, row.conversationId))
      (hcount : new.unreadCount = row.unreadCount) :
      Recounts db (applyAll (D := dialect) db [.putConversation new]) := by
    refine .of_rows fun write hmem => ?_
    cases List.mem_singleton.mp hmem
    refine ⟨new, row, rfl, ?_, hcount⟩
    obtain ⟨rfl, rfl⟩ := Prod.mk.inj (hkeyed.conversations _ row hrow)
    rw [hnew]
    exact hrow
  cases stmt with
  | addMember groupId userId role =>
    simp only [Stmt.plan]
    split <;> exact .of_tables rfl rfl rfl
  | deleteConversation owner id now
  | pinConversation owner id pinned now
  | muteConversation owner id muted now =>
    simp only [Stmt.plan]
    split
    · exact .of_tables rfl rfl rfl
    · next row hrow => exact hflag row hrow _ rfl rfl
  | deleteExpired table before limit => exact absurd h hcleanup
  | _ => first | exact h.elim | exact .of_tables rfl rfl rfl

theorem Step.recounts_or_stored {client : Nat} {w' : World}
    (hsame : D.same = fun _ before after => after = before)
    (hclock : ∀ now, D.clock now → 0 ≤ now) (hcleanup : ¬ D.kinds .cleanup)
    (hsound : Sound w) (hknown : Known w.db) (hstep : Step D client w w') :
    Recounts w.db w'.db ∨ Stored D client w w' := by
  cases hstep.change with
  | quiet hdb _ =>
    rw [hdb]
    exact .inl (.of_tables rfl rfl rfl)
  | wrote locked _ hplain _ hdb _ =>
    rw [hdb]
    exact .inl (hplain.recounts hcleanup hsound.keyed _ locked)
  | committed hrecorded hwork hruns hopened hrules hdb _ =>
    have hserial := (hsame ▸ hruns).serially
    rw [applyAll_nil, ← hdb] at hserial
    have hevidence := hrecorded.evidence
    cases hwork with
    | single event hkind haccepted hfresh hdirect hapart hconversation =>
      have hnodup : [_, _].Nodup := List.nodup_cons.mpr
        ⟨fun h => hapart (List.mem_singleton.mp h), List.nodup_singleton _⟩
      exact .inr ⟨hruns.sends hnodup, hdb, hopened, hrules, haccepted, hfresh,
        .inl ⟨hkind, hdirect, hapart, hconversation, rfl⟩⟩
    | group event hkind haccepted hfresh hindirect hconversation hlisted =>
      exact .inr ⟨hruns.sends (hevidence _ hlisted), hdb, hopened, hrules,
        haccepted, hfresh, .inr ⟨hkind, hindirect, hconversation⟩⟩
    | recallMessage now event hkind hfound =>
      obtain ⟨row, hrow, horigin, _⟩ := hevidence _ hfound
      exact .inl (hserial.recall hsound.keyed hrow (congrArg (·.conversationId) horigin))
    | markRead userId hkind hfound hnow =>
      obtain ⟨row, hrow, horigin, _⟩ := hevidence _ hfound
      exact .inl (hserial.read hsound.keyed fun hdoes =>
        markRead_does hsound.keyed hknown (hclock _ (hevidence _ hnow)) hrow
          (congrArg (·.conversationId) horigin) hdoes)
    | markConversationRead id userId upTo upToTime hkind hnow =>
      exact .inl (hserial.read hsound.keyed fun hdoes =>
        markConversationRead_does hsound.keyed hknown (hclock _ (hevidence _ hnow)) hdoes)
    | ack userId now hkind hfound =>
      obtain ⟨row, hrow, _⟩ := hevidence _ hfound
      exact .inl (hserial.ack hknown hrow)
    | pull userId ids hkind => exact .inl hserial.pull
    | pullNothing hkind =>
      rw [hserial]
      exact .inl (.of_tables rfl rfl rfl)
    | createGroup group groupId hkind => exact .inl hserial.createGroup

end Works

end NebulaIM.Chat
