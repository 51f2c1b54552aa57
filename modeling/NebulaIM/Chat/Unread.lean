import NebulaIM.Chat.Counting

/-!
# The unread counts of conversations

`upsertOne` adds one to a count that `recalculateUnread` computes from the
messages and receipts.  In single chats the two always agree.  In groups they
agree as long as every send lists those who own a row already, and lists nobody
for the first time who has unread messages.
-/

namespace NebulaIM.Chat

open Foundation Foundation.Store
open Backend Protocol Message

variable {w : World} {client : Nat} {pool : Pool} {before : Db}

/-! ## Sends -/

section Sends

variable {db : Db} {record : MessageRecord} {owners : List UInt64}
variable {writes : List Write}

theorem Sends.unread (h : Sends db record owners writes) (hknown : Known db)
    (hfresh : record.recalled = false) (owner id : UInt64) :
    (applyAll (D := dialect) db writes).unread owner id = db.unread owner id +
        if record.conversationId = id ∧ record.fromUserId ≠ owner then 1 else 0 := by
  rw [Db.unread_eq_of_tables h.tables.1 h.tables.2]
  exact Db.unread_insertMessage h.fresh (hknown.unread_new h.fresh owner) hfresh

theorem Sends.counted (h : Sends db record owners writes) (hkeyed : db.Keyed)
    (hknown : Known db) (hcounted : Counted db) (hfresh : record.recalled = false)
    (hold : ∀ owner row, db.conversations.lookup (owner, record.conversationId) = some row →
      owner ≠ record.fromUserId → owner ∈ owners)
    (hnew : ∀ owner ∈ owners, db.conversations.lookup (owner, record.conversationId) = none →
      db.unread owner record.conversationId = 0) :
    Counted (applyAll (D := dialect) db writes) := by
  intro owner id row hrow _
  rw [h.unread hknown hfresh]
  rcases h.lookup_conversations hkeyed hrow with
    ⟨hlookup, hnot⟩ | ⟨howner, rfl, rfl⟩
  · have hsame : ¬ (record.conversationId = id ∧ record.fromUserId ≠ owner) := by
      rintro ⟨rfl, hother⟩
      exact hnot ⟨hold owner row hlookup hother.symm, rfl⟩
    rw [if_neg hsame, Nat.add_zero]
    exact hcounted owner id row hlookup not_false
  · rw [listed_unreadCount]
    cases hlookup : db.conversations.lookup (owner, record.conversationId) with
    | none => simp [hnew owner howner hlookup]
    | some old => simp [hcounted owner _ old hlookup not_false]

theorem Sends.known (h : Sends db record owners writes) (hknown : Known db) :
    Known (applyAll (D := dialect) db writes) := by
  refine ⟨?_, ?_, ?_⟩ <;> rw [h.tables.2]
  · exact hknown.keyed
  · intro id user row hrow
    obtain ⟨old, hold⟩ := Option.isSome_iff_exists.mp (hknown.stored hrow)
    obtain ⟨now, hnow, _⟩ := Db.Grown.applyAll db writes id old hold
    exact Option.isSome_of_eq_some hnow
  · exact hknown.times

end Sends

/-! ## Serial runs -/

/-- One transaction at a time, and a clock that does not run before its epoch. -/
def serialRules (spawn : Request → Prop) (commit : World → Nat → Prop) : Rules where
  spawn _ request := spawn request
  call w client op choice := OnlyOpen w client ∧
    callRules commit (fun now => 0 ≤ now) w client op choice
  env w event :=
    match event with
    | .accounts _ _ => w.sql.txs.keys = []
    | _ => True

theorem serialRules_serial (spawn : Request → Prop) (commit : World → Nat → Prop) :
    Serial (serialRules spawn commit) :=
  ⟨fun h => h.1, fun h => h⟩

theorem serialRules_clock (spawn : Request → Prop) (commit : World → Nat → Prop)
    {choice : Choice} (h : (serialRules spawn commit).call w client .nowMs choice) :
    0 ≤ choice.clock := h.2

section Decidable

variable (spawn : Request → Prop) (commit : World → Nat → Prop)

instance [DecidablePred spawn] (w : World) (request : Request) :
    Decidable ((serialRules spawn commit).spawn w request) :=
  inferInstanceAs (Decidable (spawn request))

instance [∀ w client, Decidable (commit w client)] (w : World) (client : Nat)
    (op : Op) (choice : Choice) :
    Decidable ((serialRules spawn commit).call w client op choice) :=
  inferInstanceAs (Decidable (_ ∧ _))

instance (w : World) : (event : Env) → Decidable ((serialRules spawn commit).env w event)
  | .accounts _ _ => inferInstanceAs (Decidable (w.sql.txs.keys = []))
  | .redis _ _ | .disconnect _ => inferInstanceAs (Decidable True)

end Decidable

/-! ## Single chats -/

/-- Different pairs of users have different conversations. -/
def Distinct (chats : List (UInt64 × UInt64)) : Prop :=
  ∀ a b c d, (a, b) ∈ chats → (c, d) ∈ chats →
    ConversationId.single a b = ConversationId.single c d →
    (a = c ∧ b = d) ∨ (a = d ∧ b = c)

def Request.pair : Request → Option (UInt64 × UInt64)
  | .sendSingleMessage _ request => some (request.fromUserId, request.toUserId)
  | _ => none

def SingleChat (chats : List (UInt64 × UInt64)) (request : Request) : Prop :=
  request.kind ∈ [.single, .ack, .read, .recall, .flags] ∧ ∀ pair ∈ request.pair, pair ∈ chats

instance (chats : List (UInt64 × UInt64)) : DecidablePred (SingleChat chats) :=
  fun request => decidable_of_iff
    (request.kind ∈ [.single, .ack, .read, .recall, .flags] ∧
      request.pair.all fun pair => chats.any fun chat => chat = pair)
    (by cases hpair : request.pair <;> simp [SingleChat, hpair])

abbrev singleRules (chats : List (UInt64 × UInt64)) : Rules :=
  serialRules (SingleChat chats) fun _ _ => True

def singleDiscipline (chats : List (UInt64 × UInt64)) : Discipline :=
  exclusive (singleRules chats) (fun kind => kind ∈ [.single, .ack, .read, .recall, .flags])
    (fun record => (record.fromUserId, record.toUserId) ∈ chats)
    (fun _ _ => True) (fun now => 0 ≤ now) (serialRules_serial _ _)
    (fun h => h.1) (serialRules_clock _ _)

theorem singleDiscipline_grants (chats : List (UInt64 × UInt64))
    (config : Config) : Grants (singleDiscipline chats) config := by
  refine .of_sent (fun _ _ => trivial) (fun {w ctx request} h _ _ _ => ?_) fun h => ?_
  · have hpair : (request.fromUserId, request.toUserId) ∈ chats := by
      simpa [Request.pair] using h.2
    exact hpair
  · exact absurd h.1 (by simp [Request.kind])

/-- A message is between a pair, both of whom own rows, and every row belongs to
one of a pair that has exchanged a message. -/
structure Paired (chats : List (UInt64 × UInt64)) (db : Db) : Prop where
  messages : ∀ {id row}, db.messages.lookup id = some row → (row.fromUserId, row.toUserId) ∈ chats ∧
      row.conversationId = ConversationId.single row.fromUserId row.toUserId ∧
      (db.conversations.lookup (row.fromUserId, row.conversationId)).isSome ∧
      (db.conversations.lookup (row.toUserId, row.conversationId)).isSome
  rows : ∀ {owner id row}, db.conversations.lookup (owner, id) = some row →
    ∃ key message, db.messages.lookup key = some message ∧ message.conversationId = id ∧
      (owner = message.fromUserId ∨ owner = message.toUserId)

section Paired

variable {chats : List (UInt64 × UInt64)} {db db' : Db}

theorem Paired.nothingSent (h : Paired chats db) (hsettled : NothingSent db db') :
    Paired chats db' where
  messages {id row} hrow := by
    obtain ⟨old, hold, horigin, _⟩ := hsettled.old hrow
    have hconversation : row.conversationId = old.conversationId :=
      congrArg (·.conversationId) horigin
    have hfrom : row.fromUserId = old.fromUserId := congrArg (·.fromUserId) horigin
    have hto : row.toUserId = old.toUserId := congrArg (·.toUserId) horigin
    rw [hconversation, hfrom, hto, hsettled.rows, hsettled.rows]
    exact h.messages hold
  rows {owner id row} hrow := by
    have hsome := (hsettled.rows (owner, id)).symm.trans (Option.isSome_of_eq_some hrow)
    obtain ⟨old, hold⟩ := Option.isSome_iff_exists.mp hsome
    obtain ⟨key, message, hmessage, hid, howner⟩ := h.rows hold
    obtain ⟨now, hnow, horigin, _⟩ := hsettled.grown key message hmessage
    refine ⟨key, now, hnow, (congrArg (·.conversationId) horigin).trans hid, ?_⟩
    rw [show now.fromUserId = message.fromUserId from congrArg (·.fromUserId) horigin,
      show now.toUserId = message.toUserId from congrArg (·.toUserId) horigin]
    exact howner

variable {record : MessageRecord} {writes : List Write}

theorem Paired.same_pair (hdistinct : Distinct chats) (h : Paired chats db)
    (hpair : (record.fromUserId, record.toUserId) ∈ chats)
    (hconversation : record.conversationId =
      ConversationId.single record.fromUserId record.toUserId)
    {id : UInt64} {message : MessageRecord}
    (hmessage : db.messages.lookup id = some message)
    (hsame : message.conversationId = record.conversationId) :
    (message.fromUserId = record.fromUserId ∧ message.toUserId = record.toUserId) ∨
      (message.fromUserId = record.toUserId ∧ message.toUserId = record.fromUserId) := by
  obtain ⟨hchat, hid, _⟩ := h.messages hmessage
  refine hdistinct _ _ _ _ hchat hpair ?_
  rw [← hid, hsame, hconversation]

theorem Paired.sends (h : Paired chats db)
    (hsends : Sends db record [record.fromUserId, record.toUserId] writes)
    (hkeyed : db.Keyed) (hpair : (record.fromUserId, record.toUserId) ∈ chats)
    (hconversation : record.conversationId =
      ConversationId.single record.fromUserId record.toUserId) :
    Paired chats (applyAll (D := dialect) db writes) where
  messages {id row} hrow := by
    rw [hsends.tables.1, lookup_insertMessage] at hrow
    split at hrow
    · cases hrow
      exact ⟨hpair, hconversation, hsends.isSome_listed hkeyed (by simp),
        hsends.isSome_listed hkeyed (by simp)⟩
    · obtain ⟨hchat, hid, hfrom, hto⟩ := h.messages hrow
      exact ⟨hchat, hid, isSome_conversations_applyAll (.inl hfrom),
        isSome_conversations_applyAll (.inl hto)⟩
  rows {owner id row} hrow := by
    rw [hsends.tables.1]
    rcases hsends.lookup_conversations hkeyed hrow with
      ⟨hold, _⟩ | ⟨howner, rfl, _⟩
    · obtain ⟨key, message, hmessage, hid, howner⟩ := h.rows hold
      refine ⟨key, message, ?_, hid, howner⟩
      rw [lookup_insertMessage, if_neg]
      · exact hmessage
      · rintro ⟨rfl, hnone⟩
        rw [hnone] at hmessage
        cases hmessage
    · refine ⟨record.messageId, record, ?_, rfl, by simpa using howner⟩
      rw [lookup_insertMessage, if_pos ⟨rfl, hsends.fresh⟩]

theorem Paired.unread_zero (hdistinct : Distinct chats) (h : Paired chats db)
    (hpair : (record.fromUserId, record.toUserId) ∈ chats)
    (hconversation : record.conversationId =
      ConversationId.single record.fromUserId record.toUserId)
    {owner : UInt64} (howner : owner = record.fromUserId ∨ owner = record.toUserId)
    (hnone : db.conversations.lookup (owner, record.conversationId) = none) :
    db.unread owner record.conversationId = 0 := by
  rw [Db.unread_eq_countP, List.countP_eq_zero]
  intro message hmem hunread
  obtain ⟨id, hmessage⟩ := Table.mem_rows.mp hmem
  have hsame := (Db.isUnread_iff.mp hunread).1
  obtain ⟨_, _, hfrom, hto⟩ := h.messages hmessage
  rw [hsame] at hfrom hto
  have hrow : (db.conversations.lookup (owner, record.conversationId)).isSome := by
    rcases h.same_pair hdistinct hpair hconversation hmessage hsame with
      ⟨hf, ht⟩ | ⟨hf, ht⟩ <;> rcases howner with rfl | rfl
    · exact hf ▸ hfrom
    · exact ht ▸ hto
    · exact ht ▸ hto
    · exact hf ▸ hfrom
  rw [hnone] at hrow
  cases hrow

end Paired

/-- What holds in every state of a run of single chats. -/
structure SingleTally (chats : List (UInt64 × UInt64)) (db : Db) : Prop where
  counted : Counted db
  known : Known db
  paired : Paired chats db

theorem SingleTally.recounts {chats : List (UInt64 × UInt64)} {db db' : Db}
    (h : SingleTally chats db) (hrecounts : Recounts db db') :
    SingleTally chats db' :=
  ⟨hrecounts.counted h.counted, hrecounts.nothingSent.known h.known,
    h.paired.nothingSent hrecounts.nothingSent⟩

theorem SingleTally.step {chats : List (UInt64 × UInt64)} (hdistinct : Distinct chats)
    {w' : World} (hsound : Sound w) (h : SingleTally chats w.db)
    (hstep : Step (singleDiscipline chats) client w w') : SingleTally chats w'.db := by
  have hcleanup : ¬ (singleDiscipline chats).kinds .cleanup := by
    simp [singleDiscipline, exclusive]
  rcases hstep.recounts_or_stored rfl (fun _ h => h) hcleanup hsound h.known with
    hrecounts | ⟨hsends, hdb, _, _, haccepted, hfresh, hkind⟩
  · exact h.recounts hrecounts
  · rcases hkind with ⟨_, _, _, hconversation, rfl⟩ | ⟨hgroup, _⟩
    · rw [hdb]
      refine ⟨hsends.counted hsound.keyed h.known h.counted hfresh ?_ ?_,
        hsends.known h.known, h.paired.sends hsends hsound.keyed haccepted hconversation⟩
      · intro owner row hrow _
        obtain ⟨key, message, hmessage, hid, howner⟩ := h.paired.rows hrow
        rcases h.paired.same_pair hdistinct haccepted hconversation hmessage hid with
          ⟨hf, ht⟩ | ⟨hf, ht⟩ <;> rcases howner with rfl | rfl <;> simp [hf, ht]
      · exact fun owner howner hnone => h.paired.unread_zero hdistinct haccepted
          hconversation (by simpa using howner) hnone
    · simp [singleDiscipline, exclusive] at hgroup

theorem Initial.counted (h : Initial pool) : Counted pool.world.db ∧ Known pool.world.db := by
  obtain ⟨⟨users, friendships, groups, members, hsql⟩, _, _⟩ := h
  rw [World.db, hsql]
  refine ⟨fun _ _ _ hrow => absurd hrow Table.lookup_empty_ne,
    ⟨fun _ _ hrow => absurd hrow Table.lookup_empty_ne, ?_, ?_⟩⟩
  · exact fun hrow => absurd hrow Table.lookup_empty_ne
  · exact fun hrow => absurd hrow Table.lookup_empty_ne

theorem Initial.singleTally (h : Initial pool) (chats : List (UInt64 × UInt64)) :
    SingleTally chats pool.world.db := by
  refine ⟨h.counted.1, h.counted.2, ?_⟩
  obtain ⟨⟨users, friendships, groups, members, hsql⟩, _, _⟩ := h
  rw [World.db, hsql]
  exact ⟨fun hrow => absurd hrow Table.lookup_empty_ne,
    fun hrow => absurd hrow Table.lookup_empty_ne⟩

/-- The messages that the owner of a row has not read: sent by others, not
recalled, and without a receipt of the owner that has a read time. -/
def unreadMessages (db : Db) (owner conversationId : UInt64) :
    List MessageRecord :=
  (Table.rows db.messages).filter fun row =>
    row.conversationId = conversationId ∧ row.fromUserId ≠ owner ∧
      row.recalled = false ∧ ∀ receipt ∈ Table.rows db.receipts,
        receipt.messageId = row.messageId → receipt.userId = owner → ¬ 0 < receipt.readAt

theorem Known.unread_eq {db : Db} (h : Known db) (owner conversationId : UInt64) :
    db.unread owner conversationId = (unreadMessages db owner conversationId).length := by
  rw [Db.unread_eq_countP, unreadMessages, List.countP_eq_length_filter]
  congr 2
  funext row
  have hread : db.readBy row.messageId owner = false ↔
      ∀ receipt ∈ Table.rows db.receipts, receipt.messageId = row.messageId →
        receipt.userId = owner → ¬ 0 < receipt.readAt := by
    constructor
    · intro hunread receipt hmem hid huser hpositive
      obtain ⟨⟨id, user⟩, hreceipt⟩ := Table.mem_rows.mp hmem
      obtain ⟨rfl, rfl⟩ := Prod.mk.inj (h.keyed _ receipt hreceipt)
      rw [← hid, ← huser, Db.readBy, hreceipt] at hunread
      simp only [Option.any_some, bne_eq_false_iff_eq] at hunread
      rw [hunread] at hpositive
      exact Int64.lt_irrefl hpositive
    · intro hnone
      cases hreceipt : db.receipts.lookup (row.messageId, owner) with
      | none => simp [Db.readBy, hreceipt]
      | some receipt =>
        obtain ⟨hid, huser⟩ := Prod.mk.inj (h.keyed _ receipt hreceipt)
        have hzero : ¬ 0 < receipt.readAt :=
          hnone receipt (Table.mem_rows.mpr ⟨_, hreceipt⟩) hid huser
        have htime : receipt.readAt = 0 :=
          Int64.le_antisymm (Int64.not_lt.mp hzero) (h.times hreceipt)
        simp [Db.readBy, hreceipt, htime]
  rw [Bool.eq_iff_iff, Db.isUnread_iff, hread, decide_eq_true_eq]

/-- In every state of such a run a row of a single chat has as many unread as
there are messages of the other user that were neither recalled nor read, which
is what a recount finds. -/
theorem single_unread_counts (config : Config) {chats : List (UInt64 × UInt64)}
    (hdistinct : Distinct chats) {pool : Pool} (hinitial : Initial pool) {actions : List Action}
    (hrun : (singleRules chats).AdmitsRun (chat config) pool actions) {owner id : UInt64}
    {row : Conversation}
    (hrow : ((chat config).run pool actions).world.db.conversations.lookup (owner, id) = some row) :
    row.unreadCount = (unreadMessages ((chat config).run pool actions).world.db owner id).length ∧
      row.unreadCount = ((chat config).run pool actions).world.db.unread owner id := by
  have htally : SingleTally chats ((chat config).run pool actions).world.db := by
    refine run_induct (singleDiscipline_grants chats config) hinitial.safe hrun
      (p := fun w => SingleTally chats w.db) (hinitial.singleTally chats)
      (fun hsound h hstep => h.step hdistinct hsound hstep) ?_
    exact fun event h => h.recounts (env_recounts _ event)
  have hcount := htally.counted owner id row hrow not_false
  exact ⟨by rw [hcount, htally.known.unread_eq], hcount⟩

/-! ### A short chat -/

def shortChat : List Action :=
  runAlone 0 hello { id := 50, clock := 5 } ++ runAlone 1 hello { id := 51, clock := 6 } ++
    runAlone 2 (.markMessageRead {} { userId := 2, messageId := 51 }) { clock := 7 }

theorem shortChat_counts : ∃ row, ((chat {}).run friends shortChat).world.db.conversations.lookup
        (2, ConversationId.single 1 2) = some row ∧
      row.unreadCount = ((chat {}).run friends shortChat).world.db.unread 2
        (ConversationId.single 1 2) ∧
      ((chat {}).run friends shortChat).world.db.unread 2 (ConversationId.single 1 2) = 1 := by
  have hdistinct : Distinct [(1, 2)] := by
    intro a b c d hab hcd _
    simp only [List.mem_singleton, Prod.mk.injEq] at hab hcd
    exact .inl ⟨hab.1.trans hcd.1.symm, hab.2.trans hcd.2.symm⟩
  have hsome : (((chat {}).run friends shortChat).world.db.conversations.lookup
      (2, ConversationId.single 1 2)).isSome = true := by decide +kernel
  obtain ⟨row, hrow⟩ := Option.isSome_iff_exists.mp hsome
  refine ⟨row, hrow, ?_, by decide +kernel⟩
  exact (single_unread_counts {} hdistinct friends_initial (by decide +kernel)
    hrow).2

/-! ## Groups -/

def Covers (db : Db) (writes : List Write) : Write → Prop
  | .insertMessage record =>
    ∀ row ∈ db.conversationsOf record.conversationId, row.ownerUserId = record.fromUserId ∨
        row.ownerUserId ∈ (writes.filterMap Write.conversation).map Conversation.ownerUserId
  | .putConversation row =>
    (db.conversations.lookup (row.ownerUserId, row.conversationId)).isSome ∨
      db.unread row.ownerUserId row.conversationId = 0
  | _ => True

/-- A message goes to everyone else who owns a row of its conversation, and a
row is given only to users who have nothing unread in it. -/
def Covering (w : World) (client : Nat) : Prop :=
  ∀ tx ∈ w.sql.txs.lookup client, ∀ write ∈ tx.writes, Covers w.db tx.writes write

instance (db : Db) (writes : List Write) : DecidablePred (Covers db writes)
  | .insertMessage _ => List.decidableBAll _ _
  | .putConversation _ => instDecidableOr
  | .recallMessage _ _ | .insertEvent _ | .claimEvent _ _ _ _ | .markEvent _ _ _
  | .putOffline _ | .putReceipt _ | .putGroup _ | .putMember _ | .removeMember _ _
  | .removeEvent _ | .removeOffline _ _ | .removeReceipt _ _ => .isTrue trivial

instance (w : World) (client : Nat) : Decidable (Covering w client) :=
  inferInstanceAs (Decidable (∀ tx ∈ w.sql.txs.lookup client,
    ∀ write ∈ tx.writes, Covers w.db tx.writes write))

def GroupChat (request : Request) : Prop := request.kind ∈ [.membership, .group, .read, .recall]

instance : DecidablePred GroupChat := fun _ => inferInstanceAs (Decidable (_ ∈ _))

abbrev groupRules : Rules := serialRules GroupChat Covering

def groupDiscipline : Discipline :=
  exclusive groupRules (fun kind => kind ∈ [Kind.membership, .group, .read, .recall])
    (fun _ => True) (fun _ _ => True) (fun now => 0 ≤ now)
    (serialRules_serial _ _) (fun h => h) (serialRules_clock _ _)

theorem groupDiscipline_grants (config : Config) : Grants groupDiscipline config :=
  .of_sent (fun _ _ => trivial) (fun _ _ _ _ => trivial) fun _ _ _ _ => trivial

theorem Sends.counted_of_covers {db : Db} {record : MessageRecord} {owners : List UInt64}
    {writes : List Write} (h : Sends db record owners writes) (hkeyed : db.Keyed)
    (hknown : Known db) (hcounted : Counted db) (hfresh : record.recalled = false)
    (hcovers : ∀ write ∈ writes, Covers db writes write) :
    Counted (applyAll (D := dialect) db writes) := by
  refine h.counted hkeyed hknown hcounted hfresh ?_ ?_
  · intro owner row hrow hother
    obtain ⟨rfl, hid⟩ := Prod.mk.inj (hkeyed.conversations _ row hrow)
    have hcovered : Covers db writes (.insertMessage record) := by
      obtain ⟨event, rfl⟩ := h.writes
      exact hcovers _ List.mem_cons_self
    exact h.mem_owners hkeyed ((hcovered row
      ((mem_conversationsOf hkeyed).mpr ⟨hrow, hid⟩)).resolve_left hother)
  · intro owner howner hnone
    have hcovered : Covers db writes (.putConversation (listed db record owner)) := by
      obtain ⟨event, rfl⟩ := h.writes
      exact hcovers _ (List.mem_cons_of_mem _ (List.mem_append_left _
        (List.mem_map.mpr ⟨owner, howner, rfl⟩)))
    obtain ⟨hcolumn, hid, _⟩ := listed_columns hkeyed record owner
    rw [Covers, hcolumn, hid, hnone] at hcovered
    exact hcovered.resolve_left (fun h => nomatch h)

/-- What holds in every state of a run of groups that came from `before`. -/
structure GroupTally (before db : Db) : Prop where
  counted : Counted db
  known : Known db
  grown : Db.Grown before db
  /-- As long as no message is stored, no count rises. -/
  calm : (∀ id, before.messages.lookup id = none → db.messages.lookup id = none) →
    ∀ owner id, db.unread owner id ≤ before.unread owner id

theorem GroupTally.recounts {db db' : Db} (h : GroupTally before db)
    (hrecounts : Recounts db db') : GroupTally before db' where
  counted := hrecounts.counted h.counted
  known := hrecounts.nothingSent.known h.known
  grown := h.grown.trans hrecounts.nothingSent.grown
  calm hnone owner id := by
    refine Nat.le_trans (hrecounts.nothingSent.unread_le owner id) (h.calm ?_ owner id)
    intro key hkey
    cases hrow : db.messages.lookup key with
    | none => rfl
    | some row =>
      obtain ⟨now, hnow, _⟩ := hrecounts.nothingSent.grown key row hrow
      rw [hnone key hkey] at hnow
      cases hnow

theorem GroupTally.step {w' : World} (hsound : Sound w) (h : GroupTally before w.db)
    (hstep : Step groupDiscipline client w w') : GroupTally before w'.db := by
  have hcleanup : ¬ groupDiscipline.kinds .cleanup := by
    simp [groupDiscipline, exclusive]
  rcases hstep.recounts_or_stored rfl (fun _ h => h) hcleanup hsound h.known with
    hrecounts | @⟨record, _, owners, tx, choice, hsends, hdb, hopened, hrules, _, hfresh, _⟩
  · exact h.recounts hrecounts
  · rw [hdb]
    refine ⟨?_, hsends.known h.known, h.grown.trans (.applyAll _ _), ?_⟩
    · exact hsends.counted_of_covers hsound.keyed h.known h.counted hfresh (hrules.2 tx hopened)
    · -- the message itself is new
      intro hnone
      have hbefore : before.messages.lookup record.messageId = none := by
        cases hrow : before.messages.lookup record.messageId with
        | none => rfl
        | some row =>
          obtain ⟨now, hnow, _⟩ := h.grown _ row hrow
          rw [hsends.fresh] at hnow
          cases hnow
      have hstored := hnone _ hbefore
      rw [hsends.tables.1, lookup_insertMessage, if_pos ⟨rfl, hsends.fresh⟩] at hstored
      cases hstored

theorem group_tally (config : Config)
    (hsafe : PoolSafe (contract groupDiscipline config) (Post groupDiscipline) pool)
    (hstart : GroupTally before pool.world.db) {actions : List Action}
    (hrun : groupRules.AdmitsRun (chat config) pool actions) :
    GroupTally before ((chat config).run pool actions).world.db :=
  run_induct (groupDiscipline_grants config) hsafe hrun
    (p := fun w => GroupTally before w.db) hstart
    (fun hsound h hstep => h.step hsound hstep)
    fun event h => h.recounts (env_recounts _ event)

/-- If every send covers its conversation, a recount would change no row, and as
long as no message is stored no count rises. -/
theorem group_unread_counts (config : Config) {pool : Pool} (hinitial : Initial pool)
    {actions : List Action} (hrun : groupRules.AdmitsRun (chat config) pool actions) :
    let reached := (chat config).run pool actions
    (∀ owner id row, reached.world.db.conversations.lookup (owner, id) = some row →
      row.unreadCount = reached.world.db.unread owner id) ∧
    ∀ later, groupRules.AdmitsRun (chat config) reached later →
      let final := (chat config).run reached later
      (∀ messageId, reached.world.db.messages.lookup messageId = none →
        final.world.db.messages.lookup messageId = none) →
      ∀ owner id row row', reached.world.db.conversations.lookup (owner, id) = some row →
        final.world.db.conversations.lookup (owner, id) = some row' →
        row'.unreadCount ≤ row.unreadCount := by
  have hsafe := run_safe (groupDiscipline_grants config) hinitial.safe hrun
  have hfirst := group_tally config hinitial.safe
    ⟨hinitial.counted.1, hinitial.counted.2, .refl _, fun _ _ _ => Nat.le_refl _⟩
    hrun
  refine ⟨fun owner id row hrow => hfirst.counted owner id row hrow not_false, ?_⟩
  intro later hlater final hnone owner id row row' hrow hrow'
  have hsecond := group_tally config hsafe
    ⟨hfirst.counted, hfirst.known, .refl _, fun _ _ _ => Nat.le_refl _⟩ hlater
  rw [hfirst.counted owner id row hrow not_false, hsecond.counted owner id row' hrow' not_false]
  exact Int.ofNat_le.mpr (hsecond.calm hnone owner id)

/-! ### Joining late -/

def joinFirst : List Action :=
  runAlone 0 (.createGroup {} { ownerId := 1, groupName := [103] }) { id := 9 } ++
    runAlone 1 (.joinGroup {} { userId := 2, groupId := 9 }) {} ++
    runAlone 2 groupHello { id := 50, clock := 5 }

theorem joinFirst_counts : ∃ row, ((chat {}).run friends joinFirst).world.db.conversations.lookup
        (2, ConversationId.group 9) = some row ∧
      row.unreadCount = ((chat {}).run friends joinFirst).world.db.unread 2
        (ConversationId.group 9) ∧
      ((chat {}).run friends joinFirst).world.db.unread 2 (ConversationId.group 9) = 1 := by
  have hsome : (((chat {}).run friends joinFirst).world.db.conversations.lookup
      (2, ConversationId.group 9)).isSome = true := by decide +kernel
  obtain ⟨row, hrow⟩ := Option.isSome_iff_exists.mp hsome
  refine ⟨row, hrow, ?_, by decide +kernel⟩
  exact (group_unread_counts {} friends_initial (by decide +kernel)).1 2 _ row hrow

def joinLate : List Action :=
  runAlone 0 (.createGroup {} { ownerId := 1, groupName := [103] }) { id := 9 } ++
    runAlone 1 groupHello { id := 50, clock := 5 } ++
    runAlone 2 groupHello { id := 51, clock := 6 } ++
    runAlone 3 (.joinGroup {} { userId := 2, groupId := 9 }) {} ++
    runAlone 4 groupHello { id := 52, clock := 7 }

def joinLateRead : List Action :=
  runAlone 5 (.markMessageRead {} { userId := 2, messageId := 52 }) { clock := 8 }

def unreadOf (pool : Pool) (owner id : UInt64) : Option Int :=
  (pool.world.db.conversations.lookup (owner, id)).map Conversation.unreadCount

/-- One message is counted where a recount finds three, and reading it raises the
count to two. -/
theorem joinLate_uncounted : (serialRules GroupChat fun _ _ => True).AdmitsRun (chat {}) friends
      (joinLate ++ joinLateRead) ∧
    unreadOf ((chat {}).run friends joinLate) 2 (ConversationId.group 9) = some 1 ∧
    ((chat {}).run friends joinLate).world.db.unread 2 (ConversationId.group 9) = 3 ∧
    unreadOf ((chat {}).run friends (joinLate ++ joinLateRead)) 2
      (ConversationId.group 9) = some 2 := by
  refine ⟨?_, ?_, ?_, ?_⟩ <;> decide +kernel

end NebulaIM.Chat
