import NebulaIM.Chat.Commits
import NebulaIM.Backend.Offline

/-!
# Pulled messages and the right to acknowledge them

A copy is saved for a member of the group at the time of the fan-out, while the
acknowledgement asks for the row that the send left in the recipient's list of
conversations.  The two agree as long as copies of group messages are saved for
owners of the conversation, and nobody deletes a conversation with copies left.
-/

namespace NebulaIM.Chat

open Foundation Foundation.Store
open Backend Protocol Message Push

/-! ## The check -/

def Owns (db : Db) (userId conversationId : UInt64) : Prop :=
  ∃ row, db.conversations.lookup (userId, conversationId) = some row ∧ row.deleted = false

def Reads (db : Db) (userId conversationId : UInt64) : Prop :=
  conversationId ≠ 0 ∧ Owns db userId conversationId

def Receives (db : Db) (userId : UInt64) (record : MessageRecord) : Prop :=
  record.fromUserId ≠ userId ∧
    if record.groupId ≠ 0 then Reads db userId record.conversationId
    else record.toUserId = userId

instance (db : Db) (userId conversationId : UInt64) : Decidable (Owns db userId conversationId) :=
  decidable_of_iff ((db.conversations.lookup (userId, conversationId)).any
    fun row => !row.deleted) (by simp [Owns, Option.any_eq_true])

instance (db : Db) (userId conversationId : UInt64) : Decidable (Reads db userId conversationId) :=
  inferInstanceAs (Decidable (_ ∧ _))

def passesCheck (w : World) (userId : UInt64) (record : MessageRecord) : Bool :=
  ((canReceiveMessage userId record).solo (fun w : World => w.exec 0) w fun _ => {}).2

variable {userId : UInt64}

theorem passesCheck_of_receives {w : World} {record : MessageRecord} (huser : userId ≠ 0)
    (h : Receives w.db userId record) : passesCheck w userId record = true := by
  obtain ⟨hfrom, hkind⟩ := h
  have hsender : ¬ (userId = 0 ∨ record.fromUserId = userId) := not_or.mpr ⟨huser, hfrom⟩
  simp only [passesCheck, canReceiveMessage, if_neg hsender]
  split at hkind
  · next hgroup =>
    obtain ⟨hconversation, row, hrow, hdeleted⟩ := hkind
    rw [if_pos hgroup, canReadConversation, if_neg (not_or.mpr ⟨huser, hconversation⟩)]
    have hread : (w.exec 0 (.query (.isOwner userId record.conversationId)) {}).2 =
        true := by
      simp [World.exec, Engine.autocommit, Stmt.plan, Backend.read, hrow, hdeleted]
    exact hread
  · next hgroup =>
    rw [if_neg hgroup]
    exact decide_eq_true hkind

/-! ## The fan-out -/

/-- The data are those of a stored message, or of the copy of one for a
recipient. -/
def Carried (db : Db) (data : MessageData) : Prop :=
  ∃ row, db.messages.lookup data.messageId = some row ∧
    data.fromUserId = row.fromUserId ∧ data.groupId = row.groupId ∧
    if row.groupId ≠ 0 then data.toUserId ≠ row.fromUserId
    else data.toUserId = row.toUserId

instance (db : Db) (data : MessageData) : Decidable (Carried db data) :=
  decidable_of_iff ((db.messages.lookup data.messageId).any fun row =>
    decide (data.fromUserId = row.fromUserId ∧ data.groupId = row.groupId ∧
      if row.groupId ≠ 0 then data.toUserId ≠ row.fromUserId
      else data.toUserId = row.toUserId))
    (by simp [Carried, Option.any_eq_true])

/-- The record carries a message that has been sent, if any. -/
def Fanned (db : Db) (record : KafkaMessage) : Prop :=
  (MessageData.parse record.payload).2 = true → Carried db (MessageData.parse record.payload).1

instance (db : Db) (record : KafkaMessage) : Decidable (Fanned db record) :=
  inferInstanceAs (Decidable (_ → _))

def fanKinds : List Kind := [.single, .group, .membership, .flags, .pull, .ack, .offline]

def fannedRecord : Request → Option KafkaMessage
  | .handleKafkaMessage _ record => some record
  | _ => none

/-- Sends, memberships, conversations, the fan-out, pulls and acknowledgements. -/
def Fans (db : Db) (request : Request) : Prop :=
  request.kind ∈ fanKinds ∧ (request.kind = .offline → (fannedRecord request).isSome) ∧
    ∀ record ∈ fannedRecord request, Fanned db record

/-- The copy of a group message is saved for someone who can read the
conversation. -/
def SavedForReader (db : Db) (copy : OfflineMessage) : Prop :=
  ∀ record ∈ db.messages.lookup copy.messageId, record.groupId ≠ 0 →
    Reads db copy.userId record.conversationId

/-- The owner has no copies of group messages of the conversation. -/
def NothingToPull (db : Db) (owner conversationId : UInt64) : Prop :=
  ∀ copy ∈ Table.rows db.offline, copy.userId = owner →
    ∀ record ∈ db.messages.lookup copy.messageId, record.groupId ≠ 0 →
      record.conversationId ≠ conversationId

def savedCopy : Op → Option OfflineMessage
  | .query (.insertOfflineMessage copy) => some copy
  | _ => none

def deletedConversation : Op → Option (UInt64 × UInt64)
  | .query (.deleteConversation owner conversationId _) => some (owner, conversationId)
  | _ => none

def fanCalls (w : World) (_ : Nat) (op : Op) (_ : Choice) : Prop :=
  (∀ copy ∈ savedCopy op, SavedForReader w.db copy) ∧
    ∀ key ∈ deletedConversation op, NothingToPull w.db key.1 key.2

def fanRules : Rules where
  spawn w := Fans w.db
  call := fanCalls

instance (w : World) (request : Request) : Decidable (fanRules.spawn w request) :=
  inferInstanceAs (Decidable (_ ∧ (_ → _) ∧ ∀ record ∈ fannedRecord request, _))

instance (db : Db) (copy : OfflineMessage) : Decidable (SavedForReader db copy) :=
  inferInstanceAs (Decidable (∀ record ∈ db.messages.lookup copy.messageId,
    _ → Reads _ _ _))

instance (db : Db) (owner conversationId : UInt64) :
    Decidable (NothingToPull db owner conversationId) :=
  inferInstanceAs (Decidable (∀ copy ∈ Table.rows db.offline, _ →
    ∀ record ∈ db.messages.lookup copy.messageId, _ → _ ≠ _))

instance (w : World) (client : Nat) (op : Op) (choice : Choice) :
    Decidable (fanRules.call w client op choice) :=
  have saves : Decidable (∀ copy ∈ savedCopy op, SavedForReader w.db copy) :=
    Option.decidableForallMem _
  -- the keys are pairs of words, over which nothing should be enumerated
  have deletes : Decidable (∀ key ∈ deletedConversation op,
      NothingToPull w.db key.1 key.2) := Option.decidableForallMem _
  @instDecidableAnd _ _ saves deletes

instance (w : World) (event : Env) : Decidable (fanRules.env w event) :=
  inferInstanceAs (Decidable True)

/-- A copy for a recipient of a stored message. -/
structure Addressed (db : Db) (copy : OfflineMessage) : Prop where
  message : ∃ record, db.messages.lookup copy.messageId = some record ∧
    if record.groupId ≠ 0 then record.fromUserId ≠ copy.userId
    else record.toUserId = copy.userId
  payload : ∀ data, MessageData.parse copy.payload = (data, true) → data.messageId = copy.messageId

def fanning : Discipline :=
  locking fanRules (fun kind => kind ∈ fanKinds) (fun _ => True) Addressed
    (fun _ => True) (fun h => h.1) fun _ => trivial

theorem messageForRecipient_parse {data parsed : MessageData} (hdata : data.WellFormed)
    (h : MessageData.parse (messageForRecipient userId data).serialize = (parsed, true)) :
    parsed.messageId = data.messageId := by
  have hcopy : (messageForRecipient userId data).WellFormed := by
    unfold messageForRecipient
    split <;> exact hdata
  rw [MessageData.parse_serialize hcopy] at h
  obtain ⟨rfl, _⟩ := Prod.mk.inj h
  unfold messageForRecipient
  split <;> rfl

theorem fanning_grants {config : Config}
    (hskip : config.push.skipSenderForGroup = true) : Grants fanning config := by
  intro w request hspawn
  cases request with
  | sendSingleMessage ctx request => exact fun _ _ _ => trivial
  | sendGroupMessage ctx request => exact fun _ _ _ => trivial
  | insertOfflineMessage => exact absurd (hspawn.2.1 rfl) Bool.false_ne_true
  | handleKafkaMessage around record =>
    intro data userId hdata hrecipient now
    have hcarried := hspawn.2.2 record rfl
    rw [Fanned, hdata] at hcarried
    obtain ⟨row, hrow, hfrom, hgroup, hto⟩ := hcarried rfl
    have hid : (offlineCopy userId data now).messageId = data.messageId := by
      simp only [offlineCopy, messageForRecipient]
      split <;> rfl
    refine ⟨⟨row, hid ▸ hrow, ?_⟩, fun parsed hparsed => ?_⟩
    · change if row.groupId ≠ 0 then row.fromUserId ≠ userId else row.toUserId = userId
      unfold Recipient at hrecipient
      split at hto <;> rename_i hkind
      · rw [if_pos hkind]
        split at hrecipient
        · exact fun heq => hto (hrecipient ▸ heq.symm)
        split at hrecipient
        · exact fun heq => hto (hrecipient ▸ heq.symm)
        · exact fun heq => hrecipient.2 hskip (heq.symm.trans hfrom.symm)
      · rw [if_neg hkind]
        split at hrecipient
        · exact (hrecipient.trans hto).symm
        split at hrecipient
        · exact (hrecipient.trans hto).symm
        · exact absurd (hgroup ▸ hrecipient.1) hkind
    · rw [hid]
      exact messageForRecipient_parse (MessageData.wellFormed_of_parse hdata) hparsed
  | _ => trivial

/-! ## Every copy can be acknowledged -/

structure Rightful (db : Db) : Prop where
  direct : ∀ {id record}, db.messages.lookup id = some record →
    record.groupId = 0 → record.fromUserId ≠ record.toUserId
  received : ∀ {userId messageId}, (db.offline.lookup (userId, messageId)).isSome →
    ∃ record, db.messages.lookup messageId = some record ∧ Receives db userId record
  payload : ∀ {userId messageId copy data}, db.offline.lookup (userId, messageId) = some copy →
    MessageData.parse copy.payload = (data, true) → data.messageId = messageId

/-- Writes that leave every copy to those who can acknowledge it. -/
structure Gentle (db : Db) (writes : List Write) : Prop where
  direct : ∀ {record}, .insertMessage record ∈ writes →
    record.groupId = 0 → record.fromUserId ≠ record.toUserId
  hidden : ∀ {row}, .putConversation row ∈ writes → row.deleted = true →
    Owns db row.ownerUserId row.conversationId →
    NothingToPull db row.ownerUserId row.conversationId
  marks : ∀ {copy}, .putOffline copy ∈ writes →
    ∃ old, db.offline.lookup (copy.userId, copy.messageId) = some old ∧ copy.payload = old.payload
  keeps : ∀ {userId messageId}, .removeOffline userId messageId ∉ writes

section Gentle

variable {db db' : Db} {writes : List Write} {userId messageId : UInt64}
variable {record : MessageRecord}

theorem isSome_offline_applyAll (hkeeps : .removeOffline userId messageId ∉ writes)
    (h : (db.offline.lookup (userId, messageId)).isSome) :
    ((applyAll (D := dialect) db writes).offline.lookup (userId, messageId)).isSome := by
  obtain ⟨hsame, _⟩ | ⟨row, _, _, hrow⟩ :=
    lookup_offline_applyAll db writes (userId, messageId) hkeeps
  · rw [hsame]
    exact h
  · rw [hrow]
    rfl

theorem origin_columns {now : MessageRecord} (h : now.origin = record.origin) :
    now.fromUserId = record.fromUserId ∧ now.toUserId = record.toUserId ∧
      now.groupId = record.groupId ∧ now.conversationId = record.conversationId := by
  simp only [MessageRecord.origin, MessageRecord.mk.injEq] at h
  exact ⟨h.2.2.1, h.2.2.2.2.1, h.2.2.2.2.2.1, h.2.1⟩

theorem Receives.mono {now : MessageRecord} (h : Receives db userId record)
    (horigin : now.origin = record.origin)
    (howns : record.groupId ≠ 0 → Owns db userId record.conversationId →
      Owns db' userId record.conversationId) : Receives db' userId now := by
  obtain ⟨hfrom, hto, hgroup, hconversation⟩ := origin_columns horigin
  rw [Receives, hfrom, hto, hgroup, hconversation]
  refine ⟨h.1, ?_⟩
  have hkind := h.2
  split at hkind
  · next hgroup =>
    rw [if_pos hgroup]
    exact ⟨hkind.1, howns hgroup hkind.2⟩
  · next hgroup =>
    rw [if_neg hgroup]
    exact hkind

theorem Gentle.owns (h : Gentle db writes) (hkeyed : db.Keyed)
    (hcopy : (db.offline.lookup (userId, messageId)).isSome)
    (hrecord : db.messages.lookup messageId = some record)
    (hgroup : record.groupId ≠ 0) (howns : Owns db userId record.conversationId) :
    Owns (applyAll (D := dialect) db writes) userId record.conversationId := by
  obtain ⟨old, hold, hopen⟩ := howns
  have hsome : ((applyAll (D := dialect) db writes).conversations.lookup
      (userId, record.conversationId)).isSome :=
    isSome_conversations_applyAll (.inl (Option.isSome_of_eq_some hold))
  obtain ⟨row, hrow⟩ := Option.isSome_iff_exists.mp hsome
  refine ⟨row, hrow, ?_⟩
  rcases lookup_conversations_applyAll hrow with ⟨hsame, _⟩ | ⟨hput, hkey⟩
  · cases hold.symm.trans hsame
    exact hopen
  · obtain ⟨hcolumn, hid⟩ := Prod.mk.inj hkey
    by_contra hdeleted
    have hnothing := h.hidden hput (Bool.not_eq_false _ ▸ hdeleted)
    rw [hcolumn, hid] at hnothing
    obtain ⟨copy, hlookup⟩ := Option.isSome_iff_exists.mp hcopy
    obtain ⟨huser, hmessage⟩ := Prod.mk.inj (hkeyed.offline _ _ hlookup)
    refine hnothing ⟨old, hold, hopen⟩ copy (Table.mem_rows.mpr ⟨_, hlookup⟩) huser
      record ?_ hgroup rfl
    rw [hmessage]
    exact hrecord

theorem Rightful.applyAll (h : Rightful db) (hkeyed : db.Keyed) (hgentle : Gentle db writes) :
    Rightful (Foundation.Store.applyAll (D := dialect) db writes) where
  direct {id record} hrecord hgroup := by
    rcases message_applyAll hrecord with ⟨old, hold, horigin⟩ | ⟨new, hnew, _, horigin⟩ <;>
      obtain ⟨hfrom, hto, hkind, _⟩ := origin_columns horigin <;>
      rw [hfrom, hto]
    · exact h.direct hold (hkind.symm.trans hgroup)
    · exact hgentle.direct hnew (hkind.symm.trans hgroup)
  received {userId messageId} hcopy := by
    have hbefore : (db.offline.lookup (userId, messageId)).isSome := by
      obtain ⟨hsame, _⟩ | ⟨row, hput, hkey, _⟩ :=
        lookup_offline_applyAll db writes (userId, messageId) hgentle.keeps
      · rw [← hsame]
        exact hcopy
      · obtain ⟨old, hold, _⟩ := hgentle.marks hput
        rw [← hkey, hold]
        rfl
    obtain ⟨record, hrecord, hreceives⟩ := h.received hbefore
    obtain ⟨now, hnow, horigin, _⟩ := Db.Grown.applyAll db writes _ _ hrecord
    exact ⟨now, hnow, hreceives.mono horigin fun hgroup howns =>
      hgentle.owns hkeyed hbefore hrecord hgroup howns⟩
  payload {userId messageId copy data} hcopy hdata := by
    obtain ⟨hsame, _⟩ | ⟨row, hput, hkey, hrow⟩ :=
      lookup_offline_applyAll db writes (userId, messageId) hgentle.keeps
    · exact h.payload (hsame.symm.trans hcopy) hdata
    · cases hrow.symm.trans hcopy
      obtain ⟨old, hold, hpayload⟩ := hgentle.marks hput
      rw [hkey] at hold
      exact h.payload hold (hpayload ▸ hdata)

end Gentle

/-! ## What the steps write -/

section Writes

variable {start db : Db} {writes : List Write} {past : Calls} {tx : Tx dialect}
variable {w w' : World} {client : Nat}

/-- Writes to the other tables. -/
def Elsewhere : Write → Prop
  | .insertMessage _ | .putConversation _ | .putOffline _ | .removeOffline _ _ => False
  | _ => True

theorem gentle_elsewhere (h : ∀ write ∈ writes, Elsewhere write) : Gentle db writes where
  direct hmem := (h _ hmem).elim
  hidden hmem := (h _ hmem).elim
  marks hmem := (h _ hmem).elim
  keeps hmem := (h _ hmem).elim

theorem Sends.gentle {record : MessageRecord} {owners : List UInt64}
    (h : Sends db record owners writes) (hkeyed : db.Keyed)
    (hdirect : record.groupId = 0 → record.fromUserId ≠ record.toUserId) :
    Gentle db writes := by
  obtain ⟨event, rfl⟩ := h.writes
  refine ⟨fun {new} hmem => ?_, fun {row} hmem hdeleted => ?_, fun {copy} hmem => ?_,
    fun {_ _} hmem => ?_⟩
  · have hnew : new = record := by simpa using hmem
    exact hnew ▸ hdirect
  · have hlisted : ∃ owner ∈ owners, listed db record owner = row := by
      simpa using hmem
    obtain ⟨owner, _, rfl⟩ := hlisted
    rw [(listed_columns hkeyed record owner).2.2] at hdeleted
    cases hdeleted
  · simp at hmem
  · simp at hmem

theorem Runs.gentle_group {group : GroupRecord} {groupId : UInt64}
    (h : Runs fanning.same start db {} [⟨.insertGroup group, some groupId⟩,
        ⟨.insertMember ⟨groupId, group.ownerId, 1⟩, true⟩] tx) :
    Gentle db tx.writes := by
  refine gentle_elsewhere fun write hmem => ?_
  rcases h.writes_from hmem with hnone | ⟨call, hcall, _, _, _, hplan⟩
  · cases hnone
  · simp only [List.mem_cons, List.not_mem_nil, or_false] at hcall
    rcases hcall with rfl | rfl <;> simp only [Stmt.plan] at hplan <;>
      split at hplan <;>
      simp only [writing, Backend.read, List.mem_singleton, List.not_mem_nil] at hplan
    · cases hplan
      trivial
    · cases hplan
      trivial

theorem Runs.gentle_ack {userId messageId : UInt64} {now : Int64}
    (h : Runs fanning.same start db {} [⟨.upsertDelivered messageId userId now, true⟩,
      ⟨.markAsAcked userId messageId, true⟩] tx) (hkeyed : db.Keyed) :
    Gentle db tx.writes := by
  obtain ⟨receipt, hwrites | ⟨old, at_, hold, hwrites⟩⟩ := h.acks
  · rw [hwrites]
    exact gentle_elsewhere fun write hmem => by
      cases List.mem_singleton.mp hmem
      trivial
  · rw [hwrites]
    refine ⟨fun hmem => ?_, fun hmem => ?_, fun {copy} hmem => ?_, fun hmem => ?_⟩ <;>
      simp only [List.mem_cons, List.not_mem_nil, reduceCtorEq, or_false, false_or,
        Write.putOffline.injEq] at hmem
    subst hmem
    obtain ⟨rfl, rfl⟩ := Prod.mk.inj (hkeyed.offline _ _ hold)
    exact ⟨old, hold, rfl⟩

theorem Runs.gentle_pull {messageIds : List UInt64}
    (h : Runs fanning.same start db {} [⟨.markBatchAsPulled userId messageIds, true⟩] tx) :
    Gentle db tx.writes := by
  obtain ⟨rows, at_, hwrites, hrows⟩ := h.pulls
  rw [hwrites]
  refine ⟨fun hmem => ?_, fun hmem => ?_, fun {copy} hmem => ?_, fun hmem => ?_⟩ <;>
    obtain ⟨old, hold, hwrite⟩ := List.mem_map.mp hmem <;> cases hwrite
  exact ⟨old, (hrows old hold).1, rfl⟩

theorem Work.gentle {calls : List Call} (h : Work fanning.kinds fanning.sent past calls)
    (hevidence : ∀ exchange ∈ past, Evidence fanning w exchange)
    (hruns : Runs fanning.same start w.db {} calls tx) (hkeyed : w.db.Keyed) :
    Gentle w.db tx.writes := by
  have hnodup := h.owners_nodup hevidence
  have hother {kind : Kind} (hkind : fanning.kinds kind) (hnot : kind ∉ fanKinds) :
      Gentle w.db tx.writes := absurd hkind hnot
  cases h with
  | single event _ _ _ hdirect hapart _ =>
    rw [listedOwners_sendCalls] at hnodup
    exact (hruns.sends hnodup).gentle hkeyed fun _ => hapart
  | group event _ _ _ hindirect _ _ =>
    rw [listedOwners_sendCalls] at hnodup
    exact (hruns.sends hnodup).gentle hkeyed fun hgroup => absurd hgroup hindirect
  | recallMessage _ _ hkind
  | markRead _ hkind
  | markConversationRead _ _ _ _ hkind => exact hother hkind (by decide)
  | ack userId now => exact hruns.gentle_ack hkeyed
  | pull userId messageIds => exact hruns.gentle_pull
  | pullNothing =>
    rw [hruns.writes_nil]
    exact gentle_elsewhere fun _ hmem => absurd hmem List.not_mem_nil
  | createGroup group groupId => exact hruns.gentle_group

theorem flag_gentle {row new : Conversation} {owner id : UInt64} (hkeyed : db.Keyed)
    (hrow : db.conversations.lookup (owner, id) = some row)
    (hkey : (new.ownerUserId, new.conversationId) = (row.ownerUserId, row.conversationId))
    (hhidden : new.deleted = true → row.deleted = false → NothingToPull db owner id) :
    Gentle db [.putConversation new] := by
  obtain ⟨howner, hid⟩ := Prod.mk.inj (hkey.trans (hkeyed.conversations _ _ hrow))
  refine ⟨fun hmem => ?_, fun {put} hmem hdeleted howns => ?_, fun hmem => ?_,
    fun hmem => ?_⟩ <;> cases List.mem_singleton.mp hmem
  rw [howner, hid] at howns ⊢
  obtain ⟨old, hold, hopen⟩ := howns
  cases hrow.symm.trans hold
  exact hhidden hdeleted hopen

theorem Plain.gentle {saved : OfflineMessage → Prop} {stmt : Stmt}
    (h : Plain fanning.kinds saved stmt) {choice : Choice}
    (hrules : fanCalls w client (.query stmt) choice) (hkeyed : w.db.Keyed)
    (locked : List Key) (hsave : ∀ copy, stmt ≠ .insertOfflineMessage copy) :
    Gentle w.db (stmt.plan choice w.db locked).writes := by
  have hnone : Gentle w.db [] := gentle_elsewhere fun _ hmem => absurd hmem List.not_mem_nil
  cases stmt with
  | insertOfflineMessage copy => exact absurd rfl (hsave copy)
  | deleteExpired table before limit =>
    exact absurd (show Kind.cleanup ∈ fanKinds from h) (by decide)
  | addMember groupId userId role =>
    simp only [Stmt.plan]
    split
    · exact gentle_elsewhere fun write hmem => by
        cases List.mem_singleton.mp hmem
        trivial
    · exact hnone
  | removeMember groupId userId =>
    exact gentle_elsewhere fun write hmem => by
      cases List.mem_singleton.mp hmem
      trivial
  | deleteConversation owner id now =>
    simp only [Stmt.plan]
    split
    · exact hnone
    · next row hrow => exact flag_gentle hkeyed hrow rfl fun _ _ => hrules.2 _ rfl
  | pinConversation owner id pinned now | muteConversation owner id muted now =>
    simp only [Stmt.plan]
    split
    · exact hnone
    · next row hrow =>
      exact flag_gentle hkeyed hrow rfl fun hdeleted hopen =>
        absurd (hopen.symm.trans hdeleted) Bool.false_ne_true
  | _ => first | exact hnone | exact h.elim

/-! ## Saves -/

theorem Addressed.receives {copy : OfflineMessage} (h : Addressed start copy)
    (hgrown : Db.Grown start db) (hrightful : Rightful db) (hreader : SavedForReader db copy) :
    ∃ record, db.messages.lookup copy.messageId = some record ∧ Receives db copy.userId record := by
  obtain ⟨record, hrecord, hkind⟩ := h.message
  obtain ⟨now, hnow, horigin, _⟩ := hgrown _ _ hrecord
  obtain ⟨hfrom, hto, hgroup, _⟩ := origin_columns horigin
  rw [← hfrom, ← hto, ← hgroup] at hkind
  refine ⟨now, hnow, ?_⟩
  split at hkind
  · next hkind' =>
    refine ⟨hkind, ?_⟩
    rw [if_pos hkind']
    exact hreader now hnow hkind'
  · next hkind' =>
    have hapart := hrightful.direct hnow (not_not.mp hkind')
    refine ⟨hkind ▸ hapart, ?_⟩
    rw [if_neg hkind']
    exact hkind

theorem Rightful.save {copy : OfflineMessage} (h : Rightful db) (hkeyed : db.Keyed)
    (haddressed : Addressed start copy) (hgrown : Db.Grown start db)
    (hreader : SavedForReader db copy) :
    Rightful (Foundation.Store.applyAll (D := dialect) db
      [.putOffline (db.savedOffline copy)]) := by
  have hkey := savedOffline_key hkeyed copy
  have hcases (userId messageId : UInt64) := lookup_offline_applyAll db
    [.putOffline (db.savedOffline copy)] (userId, messageId) (by simp)
  refine ⟨fun hrecord => h.direct hrecord, fun {userId messageId} hcopy => ?_,
    fun {userId messageId saved data} hsaved hdata => ?_⟩
  · obtain ⟨hsame, _⟩ | ⟨row, hput, hrow, _⟩ := hcases userId messageId
    · rw [hsame] at hcopy
      exact h.received hcopy
    · cases List.mem_singleton.mp hput
      obtain ⟨rfl, rfl⟩ := Prod.mk.inj (hkey.symm.trans hrow)
      have hreceives := haddressed.receives hgrown h hreader
      exact hreceives
  · obtain ⟨hsame, _⟩ | ⟨row, hput, hrow, hlookup⟩ := hcases userId messageId
    · exact h.payload (hsame.symm.trans hsaved) hdata
    · cases List.mem_singleton.mp hput
      cases hlookup.symm.trans hsaved
      obtain ⟨rfl, rfl⟩ := Prod.mk.inj (hkey.symm.trans hrow)
      rcases savedOffline_payload copy with hpayload | ⟨old, hold, hpayload⟩
      · exact haddressed.payload data (hpayload ▸ hdata)
      · exact h.payload hold (hpayload ▸ hdata)

/-! ## Whole runs -/

theorem Rightful.step (hinv : Sound w) (h : Rightful w.db) (hstep : Step fanning client w w') :
    Rightful w'.db ∧ ∀ userId messageId, (w.db.offline.lookup (userId, messageId)).isSome →
      (w'.db.offline.lookup (userId, messageId)).isSome := by
  cases hstep.change with
  | quiet hdb _ =>
    rw [hdb]
    exact ⟨h, fun _ _ hcopy => hcopy⟩
  | committed hrecorded hwork hruns _ _ hdb _ =>
    have hgentle := hwork.gentle hrecorded.evidence hruns hinv.keyed
    rw [hdb]
    exact ⟨h.applyAll hinv.keyed hgentle, fun userId messageId hcopy =>
      isSome_offline_applyAll hgentle.keeps hcopy⟩
  | @wrote start past stmt choice locked hrecorded hplain hrules hdb _ =>
    rw [hdb]
    by_cases hsave : ∃ copy, stmt = .insertOfflineMessage copy
    · obtain ⟨copy, rfl⟩ := hsave
      obtain ⟨_, _, haddressed⟩ := hplain
      refine ⟨h.save hinv.keyed haddressed hrecorded.grown (hrules.1 _ rfl),
        fun userId messageId hcopy => ?_⟩
      have hkeeps : Write.removeOffline userId messageId ∉
          [Write.putOffline (w.db.savedOffline copy)] := by simp
      exact isSome_offline_applyAll hkeeps hcopy
    · have hcalls : fanCalls w client (.query stmt) choice := hrules
      have hgentle := hplain.gentle hcalls hinv.keyed locked fun copy heq => hsave ⟨copy, heq⟩
      exact ⟨h.applyAll hinv.keyed hgentle, fun userId messageId hcopy =>
        isSome_offline_applyAll hgentle.keeps hcopy⟩

end Writes

def Listed (w : World) : Exchange Op Op.Res → Prop
  | ⟨.query (.listOfflineMessages userId _), rows⟩ =>
    ∀ row ∈ rows, (w.db.offline.lookup (userId, row.messageId)).isSome ∧
      ∀ data, MessageData.parse row.payload = (data, true) → data.messageId = row.messageId
  | _ => True

theorem mem_pending_lookup {db : Db} (hkeyed : db.Keyed)
    {limit : Nat} {row : OfflineMessage} (h : row ∈ db.pending userId limit) :
    db.offline.lookup (userId, row.messageId) = some row := by
  have hmem := List.mem_of_mem_take h
  rw [List.mem_insertionSort, List.mem_filter] at hmem
  obtain ⟨rfl, _⟩ := of_decide_eq_true hmem.2
  obtain ⟨key, hkey⟩ := Table.mem_rows.mp hmem.1
  cases hkeyed.offline key row hkey
  exact hkey

theorem listed_answer {w : World} (hinv : Sound w) (h : Rightful w.db) (client : Nat)
    (op : Op) (choice : Choice) : Listed w ⟨op, (w.exec client op choice).2⟩ := by
  cases op with
  | query stmt =>
    cases stmt with
    | listOfflineMessages userId limit =>
      intro row hrow
      rcases query_answer w client (.listOfflineMessages userId limit) choice with
        hfailed | ⟨locked, hread⟩
      · rw [hfailed] at hrow
        exact absurd hrow List.not_mem_nil
      · rw [hread] at hrow
        have hlookup := mem_pending_lookup hinv.keyed hrow
        exact ⟨Option.isSome_of_eq_some hlookup, fun data hdata => h.payload hlookup hdata⟩
    | _ => trivial
  | _ => trivial

theorem Listed.mono {w w' : World} {exchange : Exchange Op Op.Res} (h : Listed w exchange)
    (hcopies : ∀ userId messageId, (w.db.offline.lookup (userId, messageId)).isSome →
      (w'.db.offline.lookup (userId, messageId)).isSome) : Listed w' exchange := by
  unfold Listed at h ⊢
  split
  · intro row hrow
    obtain ⟨hcopy, hdata⟩ := h row hrow
    exact ⟨hcopies _ _ hcopy, hdata⟩
  · trivial

def rightful : Clue fanning where
  inv w := Rightful w.db
  seen := Listed
  step hinv h hstep := by
    obtain ⟨hrightful, hcopies⟩ := h.step hinv hstep
    exact ⟨hrightful, fun _ hseen => hseen.mono hcopies⟩
  env {w event} h := by
    cases event with
    | redis key value =>
      cases value <;> exact ⟨⟨h.direct, h.received, h.payload⟩, fun _ hseen => hseen⟩
    | _ =>
      exact ⟨⟨h.direct, h.received, h.payload⟩, fun _ hseen => hseen.mono fun _ _ hcopy => hcopy⟩
  answer hinv h := listed_answer hinv h _ _ _

/--
While copies of group messages are saved only for those who can read the
conversation, and a conversation is deleted only when no copy of its messages is
left to its owner, the recipient of every pulled message can acknowledge it.
-/
theorem pulled_receivable {config : Config}
    (hskip : config.push.skipSenderForGroup = true) {pool : Pool}
    (hinitial : Initial pool) {actions : List Action}
    (hrun : fanRules.AdmitsRun (chat config) pool actions) {tid : Nat}
    {ctx : RpcContext} {request : PullOfflineMessagesRequest}
    {response : PullOfflineMessagesResponse}
    (hrequest : ((chat config).run pool actions).request tid =
      some (.pullOfflineMessages ctx request))
    (hreply : ((chat config).run pool actions).reply tid = some (.pulled response)) :
    ∀ data ∈ response.messages, ∃ record,
      ((chat config).run pool actions).world.db.messages.lookup data.messageId = some record ∧
      passesCheck ((chat config).run pool actions).world request.userId record =
        true := by
  have hstart : Rightful pool.world.db := by
    obtain ⟨users, friendships, groups, members, hsql⟩ := hinitial.db
    rw [World.db, hsql]
    exact ⟨fun hrecord => absurd hrecord Table.lookup_empty_ne,
      fun hcopy => absurd hcopy Bool.false_ne_true,
      fun hcopy => absurd hcopy Table.lookup_empty_ne⟩
  have hgrants := fanning_grants hskip
  obtain ⟨past, hpulls, hseen⟩ := rightful.run_answer hgrants hinitial hstart hrun hrequest hreply
  have hfinal : Rightful ((chat config).run pool actions).world.db :=
    run_induct (p := fun w => Rightful w.db) hgrants hinitial.safe hrun hstart
      (fun hinv h hstep => (h.step hinv hstep).1) fun event h => (rightful.env h).1
  intro data hdata
  obtain ⟨huser, limit, rows, row, hlisted, hrow, hparse⟩ := hpulls data hdata
  obtain ⟨hcopy, hid⟩ := hseen _ hlisted row hrow
  obtain ⟨record, hrecord, hreceives⟩ := hfinal.received hcopy
  rw [← hid data hparse] at hrecord
  exact ⟨record, hrecord, passesCheck_of_receives huser hreceives⟩

/-! ### A group of two -/

def groupOfOne : Pool where
  world := { sql := { db :=
    { users := [1, 2, 3]
      groups := Table.add ∅ 9 { id := 9, groupName := [103], ownerId := 1 }
      members := Table.add ∅ (9, 1) ⟨9, 1, 1⟩ } } }

theorem groupOfOne_initial : Initial groupOfOne :=
  ⟨⟨_, _, _, _, rfl⟩, (friends_initial.sound.keyed.applyAll [.putMember ⟨9, 1, 1⟩]).members, rfl⟩

def join : Request := .joinGroup {} { groupId := 9, userId := 2 }

def fanOut : Request :=
  .handleKafkaMessage {}
    { topic := ({} : PushWorkerOptions).topicGroup, key := [], partition := 0,
      offset := 0
      payload := MessageData.serialize
        { messageId := 50, fromUserId := 1, groupId := 9, content := [104, 105] } }

def pull : Request := .pullOfflineMessages {} { userId := 2 }

def pulledGreeting : PullOfflineMessagesResponse where
  response := some (fillResponse [] .ok "OK")
  messages :=
    [{ messageId := 50, fromUserId := 1, toUserId := 2, groupId := 9,
       content := [104, 105] }]
  page := some ⟨0, 100, 1⟩

def joinedFirst : List Action :=
  runAlone 0 join {} ++ runAlone 1 groupHello { id := 50, clock := 5 } ++
    runAlone 2 fanOut {} ++ runAlone 3 pull {}

def joinedBetween : List Action :=
  runAlone 0 groupHello { id := 50, clock := 5 } ++ runAlone 1 join {} ++
    runAlone 2 fanOut {} ++ runAlone 3 pull {}

theorem joinedFirst_receivable :
    let final := (chat {}).run groupOfOne joinedFirst
    final.reply 3 = some (.pulled pulledGreeting) ∧ ∀ data ∈ pulledGreeting.messages, ∃ record,
        final.world.db.messages.lookup data.messageId = some record ∧
        passesCheck final.world 2 record = true := by
  have hreply : ((chat {}).run groupOfOne joinedFirst).reply 3 =
      some (.pulled pulledGreeting) := by decide +kernel
  have hrequest : ((chat {}).run groupOfOne joinedFirst).request 3 = some pull := by
    rw [(chat {}).run_request rfl]
    rfl
  exact ⟨hreply, pulled_receivable (by decide) groupOfOne_initial
    (by decide +kernel) hrequest hreply⟩

def anyFan : Rules where
  spawn := fanRules.spawn

instance (w : World) (request : Request) : Decidable (anyFan.spawn w request) :=
  inferInstanceAs (Decidable (fanRules.spawn w request))

instance (w : World) (client : Nat) (op : Op) (choice : Choice) :
    Decidable (anyFan.call w client op choice) := inferInstanceAs (Decidable True)

instance (w : World) (event : Env) : Decidable (anyFan.env w event) :=
  inferInstanceAs (Decidable True)

/-- The new member is given a copy that the check refuses. -/
theorem joinedBetween_refused :
    let final := (chat {}).run groupOfOne joinedBetween
    anyFan.AdmitsRun (chat {}) groupOfOne joinedBetween ∧
      final.reply 3 = some (.pulled pulledGreeting) ∧
      (final.world.db.messages.lookup 50).map (passesCheck final.world 2) =
        some false := by
  refine ⟨?_, ?_, ?_⟩ <;> decide +kernel

end NebulaIM.Chat
