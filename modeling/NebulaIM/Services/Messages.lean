import NebulaIM.Services.Work

/-!
# Messages and their events

The invariant that ties `messages` to `outbox_events` and to the log, and its
preservation by every unit of work.
-/

namespace NebulaIM.Backend

open Foundation.Store

/-! ## Rows after a unit of work -/

section Send

variable {db : Db} {row : MessageRecord} {event : OutboxEvent}
variable {convs : List Conversation}

theorem lookup_messages_send (hfree : db.messages.lookup row.messageId = none) (id : UInt64) :
    (applyAll (D := dialect) db (.insertMessage row ::
      (convs.map .putConversation ++ [.insertEvent event]))).messages.lookup id =
      if id = row.messageId then some row else db.messages.lookup id := by
  rw [applyAll_cons, lookup_messages_frame]
  · rw [show dialect.apply db (.insertMessage row) =
      db.apply (.insertMessage row) from rfl, lookup_insertMessage]
    simp [hfree]
  · intro write hwrite
    simp only [List.mem_append, List.mem_map, List.mem_singleton] at hwrite
    rcases hwrite with ⟨conv, _, rfl⟩ | rfl <;> simp [Write.touches]

theorem lookup_outbox_send (hfree : db.outbox.lookup event.eventId = none) (id : UInt64) :
    (applyAll (D := dialect) db (.insertMessage row ::
      (convs.map .putConversation ++ [.insertEvent event]))).outbox.lookup id =
      if id = event.eventId then some event else db.outbox.lookup id := by
  have hframe (id : UInt64) : (applyAll (D := dialect) db
      (.insertMessage row :: convs.map .putConversation)).outbox.lookup id =
      db.outbox.lookup id := by
    apply lookup_outbox_frame
    intro write hwrite
    simp only [List.mem_cons, List.mem_map] at hwrite
    rcases hwrite with rfl | ⟨conv, _, rfl⟩
    · simp only [Write.touches]
      split <;> simp
    · simp [Write.touches]
  rw [← List.cons_append, applyAll_append, applyAll_cons, applyAll_nil]
  refine (lookup_insertEvent _ event id).trans ?_
  rw [hframe, hframe]
  simp [hfree]

end Send

section Recall

variable {db : Db} {messageId : UInt64} {event : OutboxEvent}
variable {convs : List Conversation}

theorem lookup_messages_recall (recalledAt : Int64) (id : UInt64) :
    (applyAll (D := dialect) db (.recallMessage messageId recalledAt ::
      .insertEvent event :: convs.map .putConversation)).messages.lookup id =
      if id = messageId then
        (db.messages.lookup id).map fun row => row.recall recalledAt
      else db.messages.lookup id := by
  rw [applyAll_cons, lookup_messages_frame]
  · exact lookup_recallMessage db messageId id recalledAt
  · intro write hwrite
    simp only [List.mem_cons, List.mem_map] at hwrite
    rcases hwrite with rfl | ⟨conv, _, rfl⟩ <;> simp [Write.touches]

theorem lookup_outbox_recall (recalledAt : Int64)
    (hfree : db.outbox.lookup event.eventId = none) (id : UInt64) :
    (applyAll (D := dialect) db (.recallMessage messageId recalledAt ::
      .insertEvent event :: convs.map .putConversation)).outbox.lookup id =
      if id = event.eventId then some event else db.outbox.lookup id := by
  rw [applyAll_cons, applyAll_cons, lookup_outbox_frame]
  · refine (lookup_insertEvent _ event id).trans ?_
    change (if _ ∧ db.outbox.lookup event.eventId = none then _
      else db.outbox.lookup id) = _
    simp [hfree]
  · intro write hwrite
    simp only [List.mem_map] at hwrite
    obtain ⟨conv, _, rfl⟩ := hwrite
    simp [Write.touches]

end Recall

/-! ## Events without the columns of the worker -/

def Db.eventOrigin (db : Db) (id : UInt64) : Option OutboxEvent :=
  (db.outbox.lookup id).map OutboxEvent.origin

private theorem lookup_modify_map {K V U : Type} [DecidableEq K] (table : Table K V) (key other : K)
    (f : V → V) (g : V → U) (hfg : ∀ row, g (f row) = g row) :
    ((Table.modify table key f).lookup other).map g = (table.lookup other).map g := by
  by_cases heq : other = key
  · subst heq
    simp [Function.comp_def, hfg]
  · rw [Table.lookup_modify_ne _ heq]

/-- Writes that make or recall messages or make or remove events. -/
def Write.concernsMessages : Write → Bool
  | .insertMessage _ | .recallMessage _ _ | .insertEvent _
  | .removeEvent _ => true
  | _ => false

theorem eventOrigin_apply (db : Db) {write : Write}
    (hwrite : write.concernsMessages = false) (id : UInt64) :
    (db.apply write).eventOrigin id = db.eventOrigin id := by
  cases write with
  | insertEvent event => cases hwrite
  | removeEvent eventId => cases hwrite
  | claimEvent eventId leaseUntil token now => exact lookup_modify_map _ _ _ _ _ fun _ => rfl
  | markEvent eventId mark now => exact lookup_modify_map _ _ _ _ _ fun _ => by cases mark <;> rfl
  | _ => rfl

theorem eventOrigin_applyAll (db : Db) {writes : List Write}
    (hwrites : ∀ write ∈ writes, write.concernsMessages = false) (id : UInt64) :
    (applyAll (D := dialect) db writes).eventOrigin id = db.eventOrigin id := by
  induction writes generalizing db with
  | nil => rfl
  | cons write writes ih =>
    rw [applyAll_cons, ih _ fun w hw => hwrites w (List.mem_cons_of_mem _ hw)]
    exact eventOrigin_apply db (hwrites write List.mem_cons_self) id

end NebulaIM.Backend

namespace NebulaIM.Services

open Foundation Foundation.Store
open Backend Protocol Message

/-! ## The invariant -/

def Recalls (unit : Nat × List Write) (messageId : UInt64) : Prop :=
  ∃ recalledAt, .recallMessage messageId recalledAt ∈ unit.2

structure Messages (config : Config) (w : World) : Prop where
  unique : ∀ {user sequence id other}, sequence ≠ 0 →
    w.db.SentAs user sequence id → w.db.SentAs user sequence other → id = other
  announced : ∀ {id row}, w.db.messages.lookup id = some row →
    ∃ event, w.db.eventOrigin id = some event ∧ event.aggregateType = .message
  carries : ∀ {id event}, w.db.eventOrigin id = some event → event.aggregateType = .message →
    ∃ inserted row, Committed w.log (.insertMessage inserted) ∧ Announces config inserted event ∧
      w.db.messages.lookup id = some row ∧ row.origin = inserted.origin
  recall_announced : ∀ {id row}, w.db.messages.lookup id = some row →
    row.recalled = true → ∃ eventId event, w.db.eventOrigin eventId = some event ∧
      event.aggregateType = .messageRecall ∧ event.aggregateId = id
  recall_carries : ∀ {eventId event}, w.db.eventOrigin eventId = some event →
    event.aggregateType = .messageRecall →
    ∃ row, w.db.messages.lookup event.aggregateId = some row ∧ row.recalled = true
  recall_unique : ∀ {eventId other event event'}, w.db.eventOrigin eventId = some event →
    w.db.eventOrigin other = some event' →
    event.aggregateType = .messageRecall →
    event'.aggregateType = .messageRecall →
    event.aggregateId = event'.aggregateId → eventId = other
  recall_logged : ∀ {id row}, w.db.messages.lookup id = some row →
    row.recalled = true → ∃ unit ∈ w.log, Recalls unit id
  recall_effect : ∀ {unit id}, unit ∈ w.log → Recalls unit id →
    ∃ row, w.db.messages.lookup id = some row ∧ row.recalled = true
  recall_once : w.log.Pairwise fun later earlier => ∀ id, Recalls later id → ¬ Recalls earlier id

/-- A step that concerns neither messages nor the contents of events. -/
structure SameMessages (w w' : World) : Prop where
  messages : ∀ id, w'.db.messages.lookup id = w.db.messages.lookup id
  events : ∀ id, w'.db.eventOrigin id = w.db.eventOrigin id
  log : w'.log = w.log ∨ ∃ unit, w'.log = unit :: w.log ∧
    ∀ write ∈ unit.2, write.concernsMessages = false

theorem Committed.mono {log log' : List (Nat × List Write)} {write : Write}
    (h : Committed log write) (hlog : log <:+ log') : Committed log' write := by
  obtain ⟨unit, hunit, hwrite⟩ := h
  exact ⟨unit, hlog.subset hunit, hwrite⟩

variable {w w' : World}

theorem SameMessages.log_suffix (h : SameMessages w w') : w.log <:+ w'.log := by
  rcases h.log with hlog | ⟨unit, hlog, _⟩
  · exact hlog ▸ List.suffix_refl w.log
  · rw [hlog]
    exact List.suffix_cons unit w.log

variable {config : Config}

theorem Messages.of_same (h : Messages config w) (hsame : SameMessages w w') :
    Messages config w' := by
  have hsent (user : UInt64) (sequence : UInt32) (id : UInt64) :
      w'.db.SentAs user sequence id ↔ w.db.SentAs user sequence id := by
    simp only [Db.SentAs, hsame.messages]
  have hrecalls {unit : Nat × List Write} {id : UInt64} (hunit : unit ∈ w'.log)
      (hrecall : Recalls unit id) : unit ∈ w.log := by
    rcases hsame.log with hlog | ⟨new, hlog, hnew⟩
    · exact hlog ▸ hunit
    · rw [hlog] at hunit
      rcases List.mem_cons.mp hunit with rfl | hold
      · obtain ⟨recalledAt, hmem⟩ := hrecall
        cases hnew _ hmem
      · exact hold
  constructor
  case unique =>
    intro user sequence id other hsequence hid hother
    exact h.unique hsequence ((hsent _ _ _).mp hid) ((hsent _ _ _).mp hother)
  case announced =>
    intro id row hrow
    rw [hsame.messages] at hrow
    simpa only [hsame.events] using h.announced hrow
  case carries =>
    intro id event hevent htype
    rw [hsame.events] at hevent
    obtain ⟨inserted, row, hcommitted, hannounces, hrow, horigin⟩ := h.carries hevent htype
    refine ⟨inserted, row, hcommitted.mono hsame.log_suffix, hannounces, ?_, horigin⟩
    rw [hsame.messages, hrow]
  case recall_announced =>
    intro id row hrow hrecalled
    rw [hsame.messages] at hrow
    simpa only [hsame.events] using h.recall_announced hrow hrecalled
  case recall_carries =>
    intro eventId event hevent htype
    rw [hsame.events] at hevent
    simpa only [hsame.messages] using h.recall_carries hevent htype
  case recall_unique =>
    intro eventId other event event' hevent hevent'
    rw [hsame.events] at hevent hevent'
    exact h.recall_unique hevent hevent'
  case recall_logged =>
    intro id row hrow hrecalled
    rw [hsame.messages] at hrow
    obtain ⟨unit, hunit, hrecall⟩ := h.recall_logged hrow hrecalled
    exact ⟨unit, hsame.log_suffix.subset hunit, hrecall⟩
  case recall_effect =>
    intro unit id hunit hrecall
    simpa only [hsame.messages] using h.recall_effect (hrecalls hunit hrecall) hrecall
  case recall_once =>
    rcases hsame.log with hlog | ⟨new, hlog, hnew⟩
    · rw [hlog]
      exact h.recall_once
    · rw [hlog, List.pairwise_cons]
      refine ⟨fun earlier _ id hrecall => ?_, h.recall_once⟩
      obtain ⟨recalledAt, hmem⟩ := hrecall
      cases hnew _ hmem

/-- A message comes into being together with its event. -/
theorem Messages.send {client : Nat}
    {row : MessageRecord} {event : OutboxEvent} {convs : List Conversation}
    (h : Messages config w)
    (message_free : w.db.messages.lookup row.messageId = none)
    (sequence_free : row.clientSequenceId ≠ 0 → ∀ id,
      ¬ w.db.SentAs row.fromUserId row.clientSequenceId id)
    (event_free : w.db.outbox.lookup row.messageId = none)
    (not_recalled : row.recalled = false)
    (type : event.aggregateType = .message)
    (announces : Announces config row event)
    (hdb : w'.db = applyAll (D := dialect) w.db (.insertMessage row ::
      (convs.map .putConversation ++ [.insertEvent event])))
    (hlog : w'.log = (client, .insertMessage row ::
      (convs.map .putConversation ++ [.insertEvent event])) :: w.log) :
    Messages config w' := by
  have heventId := announces.eventId
  have hmessages (id : UInt64) : w'.db.messages.lookup id =
      if id = row.messageId then some row else w.db.messages.lookup id := by
    rw [hdb]
    exact lookup_messages_send message_free id
  have hevents (id : UInt64) : w'.db.eventOrigin id =
      if id = row.messageId then some event.origin
      else w.db.eventOrigin id := by
    rw [Db.eventOrigin, hdb, lookup_outbox_send (heventId ▸ event_free) id, heventId]
    split <;> rfl
  have hkept {id : UInt64} {found : MessageRecord} (hfound : w.db.messages.lookup id = some found) :
      w'.db.messages.lookup id = some found := by
    rw [hmessages, if_neg]
    · exact hfound
    · rintro rfl
      rw [message_free] at hfound
      cases hfound
  have hevent_kept {id : UInt64} {found : OutboxEvent} (hfound : w.db.eventOrigin id = some found) :
      w'.db.eventOrigin id = some found := by
    rw [hevents, if_neg]
    · exact hfound
    · rintro rfl
      rw [Db.eventOrigin, event_free] at hfound
      cases hfound
  have hrecall_old {id : UInt64} {found : OutboxEvent} (hfound : w'.db.eventOrigin id = some found)
      (htype : found.aggregateType = .messageRecall) :
      w.db.eventOrigin id = some found := by
    rw [hevents] at hfound
    split at hfound
    · cases hfound
      cases type.symm.trans htype
    · exact hfound
  have hsent {user : UInt64} {sequence : UInt32} {id : UInt64}
      (hid : w'.db.SentAs user sequence id) :
      (id = row.messageId ∧ row.fromUserId = user ∧
        row.clientSequenceId = sequence) ∨ w.db.SentAs user sequence id := by
    obtain ⟨found, hfound, hcolumns⟩ := hid
    rw [hmessages] at hfound
    split at hfound
    · next heq =>
      cases hfound
      exact .inl ⟨heq, hcolumns⟩
    · exact .inr ⟨found, hfound, hcolumns⟩
  have hno_recall {id : UInt64} : ¬ Recalls (client, .insertMessage row ::
      (convs.map .putConversation ++ [.insertEvent event])) id := by
    rintro ⟨recalledAt, hmem⟩
    simp at hmem
  constructor
  case unique =>
    intro user sequence id other hsequence hid hother
    rcases hsent hid with ⟨rfl, rfl, rfl⟩ | hid
    · rcases hsent hother with ⟨rfl, -⟩ | hother
      · rfl
      · exact absurd hother (sequence_free hsequence other)
    · rcases hsent hother with ⟨rfl, rfl, rfl⟩ | hother
      · exact absurd hid (sequence_free hsequence id)
      · exact h.unique hsequence hid hother
  case announced =>
    intro id found hfound
    rw [hmessages] at hfound
    rw [hevents]
    split at hfound
    · next heq =>
      rw [if_pos heq]
      exact ⟨event.origin, rfl, type⟩
    · next hne =>
      rw [if_neg hne]
      exact h.announced hfound
  case carries =>
    intro id found hfound htype
    rw [hevents] at hfound
    split at hfound
    · next heq =>
      cases hfound
      refine ⟨row, row, ?_, ⟨announces.1, announces.2, announces.3,
        announces.4, announces.5⟩, ?_, rfl⟩
      · rw [hlog]
        exact ⟨_, List.mem_cons_self, List.mem_cons_self⟩
      · rw [hmessages, if_pos heq]
    · next hne =>
      obtain ⟨inserted, old, hcommitted, hannounces, hold, horigin⟩ := h.carries hfound htype
      refine ⟨inserted, old, ?_, hannounces, hkept hold, horigin⟩
      rw [hlog]
      exact hcommitted.mono (List.suffix_cons _ _)
  case recall_announced =>
    intro id found hfound hrecalled
    rw [hmessages] at hfound
    split at hfound
    · cases hfound
      cases not_recalled.symm.trans hrecalled
    · obtain ⟨eventId, event, hevent, hrest⟩ := h.recall_announced hfound hrecalled
      exact ⟨eventId, event, hevent_kept hevent, hrest⟩
  case recall_carries =>
    intro eventId found hfound htype
    obtain ⟨old, hold, hrecalled⟩ := h.recall_carries (hrecall_old hfound htype) htype
    exact ⟨old, hkept hold, hrecalled⟩
  case recall_unique =>
    intro eventId other found found' hfound hfound' htype htype'
    exact h.recall_unique (hrecall_old hfound htype) (hrecall_old hfound' htype') htype htype'
  case recall_logged =>
    intro id found hfound hrecalled
    rw [hmessages] at hfound
    split at hfound
    · cases hfound
      cases not_recalled.symm.trans hrecalled
    · obtain ⟨unit, hunit, hrecall⟩ := h.recall_logged hfound hrecalled
      rw [hlog]
      exact ⟨unit, List.mem_cons_of_mem _ hunit, hrecall⟩
  case recall_effect =>
    intro unit id hunit hrecall
    rw [hlog] at hunit
    rcases List.mem_cons.mp hunit with rfl | hold
    · exact absurd hrecall hno_recall
    · obtain ⟨found, hfound, hrecalled⟩ := h.recall_effect hold hrecall
      exact ⟨found, hkept hfound, hrecalled⟩
  case recall_once =>
    rw [hlog, List.pairwise_cons]
    exact ⟨fun _ _ _ hrecall => absurd hrecall hno_recall, h.recall_once⟩

/-- A message is recalled together with its recall event. -/
theorem Messages.recall {client : Nat}
    {row : MessageRecord} {event : OutboxEvent} {messageId : UInt64}
    {recalledAt : Int64} {convs : List Conversation} (h : Messages config w)
    (present : w.db.messages.lookup messageId = some row)
    (not_recalled : row.recalled = false)
    (event_free : w.db.outbox.lookup event.eventId = none)
    (type : event.aggregateType = .messageRecall)
    (aggregate : event.aggregateId = messageId)
    (hdb : w'.db = applyAll (D := dialect) w.db
      (.recallMessage messageId recalledAt :: .insertEvent event :: convs.map .putConversation))
    (hlog : w'.log = (client, .recallMessage messageId recalledAt ::
      .insertEvent event :: convs.map .putConversation) :: w.log) :
    Messages config w' := by
  have hmessages (id : UInt64) : w'.db.messages.lookup id =
      if id = messageId then some (row.recall recalledAt)
      else w.db.messages.lookup id := by
    rw [hdb, lookup_messages_recall]
    split
    · next heq => rw [heq, present, Option.map_some]
    · rfl
  have hevents (id : UInt64) : w'.db.eventOrigin id =
      if id = event.eventId then some event.origin
      else w.db.eventOrigin id := by
    rw [Db.eventOrigin, hdb, lookup_outbox_recall recalledAt event_free id]
    split <;> rfl
  have hrecalls {id : UInt64} : Recalls (client, .recallMessage messageId recalledAt ::
        .insertEvent event :: convs.map .putConversation) id ↔
      id = messageId := by
    simp [Recalls]
  have hevent_kept {id : UInt64} {found : OutboxEvent} (hfound : w.db.eventOrigin id = some found) :
      w'.db.eventOrigin id = some found := by
    rw [hevents, if_neg]
    · exact hfound
    · rintro rfl
      rw [Db.eventOrigin, event_free] at hfound
      cases hfound
  -- every row that was there still is, recalled if it was
  have hkept {id : UInt64} {found : MessageRecord} (hfound : w.db.messages.lookup id = some found) :
      ∃ found', w'.db.messages.lookup id = some found' ∧ found'.origin = found.origin ∧
        (found.recalled = true → found'.recalled = true) := by
    rw [hmessages]
    split
    · next heq =>
      rw [heq, present] at hfound
      cases hfound
      exact ⟨row.recall recalledAt, rfl, rfl, fun _ => rfl⟩
    · exact ⟨found, hfound, rfl, fun hrecalled => hrecalled⟩
  have hother {eventId : UInt64} {found : OutboxEvent}
      (hfound : w.db.eventOrigin eventId = some found)
      (htype : found.aggregateType = .messageRecall) :
      found.aggregateId ≠ messageId := by
    intro heq
    obtain ⟨old, hold, hrecalled⟩ := h.recall_carries hfound htype
    rw [heq, present] at hold
    cases hold
    cases not_recalled.symm.trans hrecalled
  have hsent {user : UInt64} {sequence : UInt32} {id : UInt64} :
      w'.db.SentAs user sequence id → w.db.SentAs user sequence id := by
    rintro ⟨found, hfound, hcolumns⟩
    rw [hmessages] at hfound
    split at hfound
    · next heq =>
      cases hfound
      exact ⟨row, heq ▸ present, hcolumns⟩
    · exact ⟨found, hfound, hcolumns⟩
  constructor
  case unique =>
    intro user sequence id other hsequence hid hother
    exact h.unique hsequence (hsent hid) (hsent hother)
  case announced =>
    intro id found hfound
    rw [hmessages] at hfound
    split at hfound
    · next heq =>
      obtain ⟨event, hevent, htype⟩ := h.announced present
      exact ⟨event, hevent_kept (heq ▸ hevent), htype⟩
    · obtain ⟨event, hevent, htype⟩ := h.announced hfound
      exact ⟨event, hevent_kept hevent, htype⟩
  case carries =>
    intro id found hfound htype
    rw [hevents] at hfound
    split at hfound
    · cases hfound
      cases type.symm.trans htype
    · obtain ⟨inserted, old, hcommitted, hannounces, hold, horigin⟩ := h.carries hfound htype
      obtain ⟨old', hold', horigin', _⟩ := hkept hold
      refine ⟨inserted, old', ?_, hannounces, hold', horigin'.trans horigin⟩
      rw [hlog]
      exact hcommitted.mono (List.suffix_cons _ _)
  case recall_announced =>
    intro id found hfound hrecalled
    rw [hmessages] at hfound
    split at hfound
    · next heq =>
      refine ⟨event.eventId, event.origin, ?_, type, aggregate.trans heq.symm⟩
      rw [hevents, if_pos rfl]
    · obtain ⟨eventId, event, hevent, hrest⟩ := h.recall_announced hfound hrecalled
      exact ⟨eventId, event, hevent_kept hevent, hrest⟩
  case recall_carries =>
    intro eventId found hfound htype
    rw [hevents] at hfound
    split at hfound
    · cases hfound
      exact ⟨row.recall recalledAt, (hmessages _).trans (if_pos aggregate), rfl⟩
    · obtain ⟨old, hold, hrecalled⟩ := h.recall_carries hfound htype
      obtain ⟨old', hold', _, himp⟩ := hkept hold
      exact ⟨old', hold', himp hrecalled⟩
  case recall_unique =>
    intro eventId other found found' hfound hfound' htype htype' heq
    rw [hevents] at hfound hfound'
    split at hfound
    · next hnew =>
      cases hfound
      split at hfound'
      · next hnew' => rw [hnew, hnew']
      · exact absurd (heq.symm.trans aggregate) (hother hfound' htype')
    · split at hfound'
      · cases hfound'
        exact absurd (heq.trans aggregate) (hother hfound htype)
      · exact h.recall_unique hfound hfound' htype htype' heq
  case recall_logged =>
    intro id found hfound hrecalled
    rw [hmessages] at hfound
    rw [hlog]
    split at hfound
    · next heq => exact ⟨_, List.mem_cons_self, hrecalls.mpr heq⟩
    · obtain ⟨unit, hunit, hrecall⟩ := h.recall_logged hfound hrecalled
      exact ⟨unit, List.mem_cons_of_mem _ hunit, hrecall⟩
  case recall_effect =>
    intro unit id hunit hrecall
    rw [hlog] at hunit
    rcases List.mem_cons.mp hunit with rfl | hold
    · refine ⟨row.recall recalledAt, ?_, rfl⟩
      rw [hmessages, if_pos (hrecalls.mp hrecall)]
    · obtain ⟨found, hfound, hrecalled⟩ := h.recall_effect hold hrecall
      obtain ⟨found', hfound', _, himp⟩ := hkept hfound
      exact ⟨found', hfound', himp hrecalled⟩
  case recall_once =>
    rw [hlog, List.pairwise_cons]
    refine ⟨fun earlier hearlier id hrecall hold => ?_, h.recall_once⟩
    -- an earlier recall would have left the row recalled
    obtain ⟨found, hfound, hrecalled⟩ := h.recall_effect hearlier hold
    rw [hrecalls.mp hrecall, present] at hfound
    cases hfound
    cases not_recalled.symm.trans hrecalled

theorem SameMessages.of_writes {client : Nat} {writes : List Write}
    (hwrites : ∀ write ∈ writes, write.concernsMessages = false)
    (hdb : w'.db = applyAll (D := dialect) w.db writes)
    (hlog : w'.log = (client, writes) :: w.log) : SameMessages w w' where
  messages id := by
    rw [hdb]
    apply lookup_messages_frame
    intro write hwrite
    have hplain := hwrites write hwrite
    cases write with
    | insertMessage row => cases hplain
    | recallMessage messageId recalledAt => cases hplain
    | _ => simp [Write.touches]
  events id := by
    rw [hdb]
    exact eventOrigin_applyAll w.db hwrites id
  log := .inr ⟨_, hlog, hwrites⟩

theorem Messages.work {client : Nat} {writes : List Write} (h : Messages config w)
    (hwork : Work config w client writes) (hdb : w'.db = applyAll (D := dialect) w.db writes)
    (hlog : w'.log = (client, writes) :: w.log) : Messages config w' := by
  cases hwork with
  | send convs message_free sequence_free event_free not_recalled type _ announces _ =>
      exact h.send message_free sequence_free event_free not_recalled type announces hdb hlog
  | recallMessage recalledAt convs present not_recalled event_free type _ aggregate _ =>
    exact h.recall present not_recalled event_free type aggregate hdb hlog
  | _ =>
    refine h.of_same (.of_writes ?_ hdb hlog)
    intro write hwrite
    simp only [List.mem_cons, List.mem_map, List.not_mem_nil, or_false] at hwrite
    grind [Write.concernsMessages]

end NebulaIM.Services
