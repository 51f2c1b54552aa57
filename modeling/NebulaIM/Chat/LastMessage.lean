import NebulaIM.Chat.Commits

/-!
# The last message of a conversation

A send draws its id and its time before its transaction, and `upsertOne` writes
them over whatever the row holds.  The rows show the newest message as long as
messages are committed in their order and every row is written each time.
-/

namespace NebulaIM.Chat

open Foundation Foundation.Store
open Backend Protocol Message

/-- The message is stored and the greatest of its conversation. -/
structure Newest (db : Db) (message : MessageRecord) : Prop where
  stored : db.messages.lookup message.messageId = some message
  greatest : ∀ id other, db.messages.lookup id = some other →
    other.conversationId = message.conversationId → position other ≤ position message

/-- The row shows the message. -/
structure Shows (row : Conversation) (message : MessageRecord) : Prop where
  conversation : message.conversationId = row.conversationId
  id : row.lastMessageId = message.messageId
  preview : row.lastMessagePreview = buildPreview message.content
  time : row.lastMessageAt = message.createdAt

def UpToDate (db : Db) : Prop :=
  ∀ key row, db.conversations.lookup key = some row →
    ∃ message, Newest db message ∧ Shows row message

/-! ## Sends in order -/

def Follows (db : Db) (writes : List Write) : Write → Prop
  | .insertMessage record =>
    (∀ row ∈ Table.rows db.messages,
      row.conversationId = record.conversationId → position row ≤ position record) ∧
    ∀ row ∈ db.conversationsOf record.conversationId,
      row.ownerUserId ∈ (writes.filterMap Write.conversation).map Conversation.ownerUserId
  | _ => True

instance (db : Db) (writes : List Write) : DecidablePred (Follows db writes) := by
  intro write
  unfold Follows
  split <;> infer_instance

/-- A message is committed behind all those of its conversation, and to every row
of it. -/
def InOrder (w : World) (client : Nat) : Prop :=
  ∀ tx ∈ w.sql.txs.lookup client, ∀ write ∈ tx.writes, Follows w.db tx.writes write

instance (w : World) (client : Nat) : Decidable (InOrder w client) :=
  inferInstanceAs (Decidable (∀ tx ∈ w.sql.txs.lookup client,
    ∀ write ∈ tx.writes, Follows w.db tx.writes write))

def orderedRules : Rules where
  spawn _ request := request.kind ∈ [.single, .group]
  call := callRules InOrder fun _ => True

instance (w : World) (request : Request) : Decidable (orderedRules.spawn w request) :=
  inferInstanceAs (Decidable (_ ∈ _))

instance (w : World) (client : Nat) (op : Op) (choice : Choice) :
    Decidable (orderedRules.call w client op choice) :=
  inferInstanceAs (Decidable (callRules InOrder (fun _ => True) w client op choice))

instance (w : World) (event : Env) : Decidable (orderedRules.env w event) :=
  inferInstanceAs (Decidable True)

def ordered : Discipline :=
  locking orderedRules (fun kind => kind ∈ [Kind.single, .group]) (fun _ => True)
    (fun _ _ => True) (fun _ => True) (fun h => h) fun _ => trivial

theorem ordered_grants (config : Config) : Grants ordered config :=
  .of_sent (fun _ _ => trivial) (fun _ _ _ _ => trivial) fun _ _ _ _ => trivial

theorem UpToDate.congr {db db' : Db} (h : UpToDate db) (hmessages : db'.messages = db.messages)
    (hconversations : db'.conversations = db.conversations) : UpToDate db' := by
  intro key row hrow
  rw [hconversations] at hrow
  obtain ⟨message, hnewest, hshows⟩ := h key row hrow
  exact ⟨message, ⟨hmessages ▸ hnewest.stored, hmessages ▸ hnewest.greatest⟩, hshows⟩

section Sends

variable {db : Db} {record : MessageRecord} {owners : List UInt64}
variable {writes : List Write}

theorem listed_shows (hkeyed : db.Keyed) (record : MessageRecord) (owner : UInt64) :
    Shows (listed db record owner) record := by
  refine ⟨(listed_columns hkeyed record owner).2.1.symm, ?_, ?_, ?_⟩ <;>
    simp only [listed, Db.upserted] <;> split <;> rfl

theorem UpToDate.sends (h : UpToDate db) (hsends : Sends db record owners writes)
    (hkeyed : db.Keyed) (hfollows : ∀ write ∈ writes, Follows db writes write) :
    UpToDate (applyAll (D := dialect) db writes) := by
  obtain ⟨hbehind, hrows⟩ : Follows db writes (.insertMessage record) := by
    obtain ⟨event, rfl⟩ := hsends.writes
    exact hfollows _ List.mem_cons_self
  have hstored : (applyAll (D := dialect) db writes).messages.lookup
      record.messageId = some record := by
    rw [hsends.tables.1, lookup_insertMessage, if_pos ⟨rfl, hsends.fresh⟩]
  have hold {id : UInt64} {message : MessageRecord}
      (hmessage : (applyAll (D := dialect) db writes).messages.lookup id = some message) :
      message = record ∨ db.messages.lookup id = some message := by
    rw [hsends.tables.1, lookup_insertMessage] at hmessage
    split at hmessage
    · exact .inl (Option.some.inj hmessage).symm
    · exact .inr hmessage
  rintro ⟨owner, id⟩ row hrow
  rcases hsends.lookup_conversations hkeyed hrow with
    ⟨hlookup, hnot⟩ | ⟨_, rfl, rfl⟩
  · -- a row of another conversation, whose messages are the same
    obtain ⟨rfl, rfl⟩ := Prod.mk.inj (hkeyed.conversations _ row hlookup)
    have hother : row.conversationId ≠ record.conversationId := by
      intro heq
      refine hnot ⟨hsends.mem_owners hkeyed (hrows row ?_), heq⟩
      exact (mem_conversationsOf hkeyed).mpr ⟨heq ▸ hlookup, heq⟩
    obtain ⟨message, hnewest, hshows⟩ := h _ row hlookup
    refine ⟨message, ⟨?_, fun id other hmessage hsame => ?_⟩, hshows⟩
    · rw [hsends.tables.1, lookup_insertMessage, if_neg]
      · exact hnewest.stored
      · rintro ⟨heq, hnone⟩
        rw [← heq, hnewest.stored] at hnone
        cases hnone
    · rcases hold hmessage with rfl | hmessage
      · exact absurd (hshows.conversation.symm.trans hsame.symm) hother
      · exact hnewest.greatest id other hmessage hsame
  · refine ⟨record, ⟨hstored, fun id other hother hsame => ?_⟩, listed_shows hkeyed record owner⟩
    rcases hold hother with rfl | hmessage
    · exact le_refl _
    · exact hbehind other (Table.mem_rows.mpr ⟨id, hmessage⟩) hsame

end Sends

theorem UpToDate.step {client : Nat} {w w' : World} (hsound : Sound w)
    (h : UpToDate w.db) (hstep : Step ordered client w w') : UpToDate w'.db := by
  have hkind {kind : Kind} (hmem : ordered.kinds kind) : kind = .single ∨ kind = .group := by
    simpa [ordered, locking] using hmem
  cases hstep.change with
  | quiet hdb _ => exact h.congr (by rw [hdb]) (by rw [hdb])
  | @wrote start past stmt choice locked _ hplain _ hdb _ =>
    have hnone : (stmt.plan choice w.db locked).writes = [] := by
      cases stmt <;> first
        | rfl
        | exact absurd (hkind hplain) (by decide)
        | exact absurd (hkind hplain.1) (by decide)
        | exact hplain.elim
    rw [hnone] at hdb
    exact h.congr (congrArg Db.messages hdb) (congrArg Db.conversations hdb)
  | committed hrecorded hwork hruns hopened hrules hdb _ =>
    rw [hdb]
    cases hwork with
    | single event _ _ _ _ hapart _ =>
      have hnodup : [_, _].Nodup := List.nodup_cons.mpr
        ⟨fun h => hapart (List.mem_singleton.mp h), List.nodup_singleton _⟩
      exact h.sends (hruns.sends hnodup) hsound.keyed (hrules _ hopened)
    | group event _ _ _ _ _ hlisted =>
      exact h.sends (hruns.sends (hrecorded.evidence _ hlisted)) hsound.keyed (hrules _ hopened)
    | recallMessage _ _ hkind'
    | markRead _ hkind'
    | markConversationRead _ _ _ _ hkind'
    | ack _ _ hkind'
    | pull _ _ hkind'
    | pullNothing hkind'
    | createGroup _ _ hkind' => exact absurd (hkind hkind') (by decide)

/-- Sends that commit in order leave every row at the newest message. -/
theorem last_message_up_to_date (config : Config) {pool : Pool} (hinitial : Initial pool)
    {actions : List Action} (hrun : orderedRules.AdmitsRun (chat config) pool actions) :
    UpToDate ((chat config).run pool actions).world.db := by
  refine run_induct (ordered_grants config) hinitial.safe hrun
    (p := fun w => UpToDate w.db) ?_ (fun hsound h hstep => h.step hsound hstep) ?_
  · obtain ⟨⟨users, friendships, groups, members, hsql⟩, _, _⟩ := hinitial
    rw [World.db, hsql]
    exact fun _ _ hrow => absurd hrow Table.lookup_empty_ne
  · intro w event h
    refine h.congr (env_messages w event).1 ?_
    cases event with
    | redis key value => cases value <;> rfl
    | _ => rfl

/-! ### Two sends that overtake each other -/

def sendInOrder : List Action :=
  runAlone 0 hello { id := 50, clock := 5 } ++ runAlone 1 hello { id := 51, clock := 6 }

theorem sendInOrder_up_to_date : UpToDate ((chat {}).run friends sendInOrder).world.db :=
  last_message_up_to_date {} friends_initial (by decide +kernel)

def overtaken : List Action :=
  .spawn hello :: List.replicate 7 (.step 0 { id := 50, clock := 5 }) ++
    runAlone 1 hello { id := 51, clock := 6 } ++
    List.replicate 10 (.step 0 { id := 50, clock := 5 })

theorem overtaken_behind :
    let db := ((chat {}).run friends overtaken).world.db
    ((chat {}).run friends overtaken).reply 0 = some (.sent
        { sendReply [] .ok "OK" with messageId := 50, serverTimestamp := 5 }) ∧
      (db.conversations.lookup (1, ConversationId.single 1 2)).map
        (fun row => (row.lastMessageId, row.lastMessageAt)) = some (50, 5) ∧
      (db.history (ConversationId.single 1 2) 0 0 1).map
        (fun row => (row.messageId, row.createdAt)) = [(51, 6)] := by
  refine ⟨?_, ?_, ?_⟩ <;> decide +kernel

end NebulaIM.Chat
