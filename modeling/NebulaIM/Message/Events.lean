import NebulaIM.Services.Runs
import Mathlib.Data.Set.Function

/-!
# Messages and their events

Every committed state has exactly one event for each message and exactly one
recall event for each recalled message, and of several recalls of a message
exactly one is ever committed.
-/

namespace NebulaIM.Message

open Foundation Foundation.Store
open Backend Protocol Services

variable {db : Db} {event : OutboxEvent} {id messageId : UInt64} {w : World}
variable {config : Config}

def eventsOf (type : AggregateType) (db : Db) : Set OutboxEvent :=
  {event | event ∈ Table.rows db.outbox ∧ event.aggregateType = type}

def messageIds (db : Db) : Set UInt64 := {id | ∃ row ∈ Table.rows db.messages, row.messageId = id}

def recalledIds (db : Db) : Set UInt64 :=
  {id | ∃ row ∈ Table.rows db.messages, row.messageId = id ∧ row.recalled = true}

def recallsMessage (messageId : UInt64) : Write → Bool
  | .recallMessage other _ => other = messageId
  | _ => false

/-- The threads that have committed a recall of the message, the latest first. -/
def recallers (log : List (Nat × List Write)) (messageId : UInt64) : List Nat :=
  (log.filter fun unit => unit.2.any (recallsMessage messageId)).map Prod.fst

def recallsOf (messageId : UInt64) : Request → Bool
  | .recallMessage _ request => request.messageId = messageId
  | _ => false

/-! ## Rows and lookups -/

theorem mem_rows_messages (hkeyed : db.Keyed) {row : MessageRecord} : row ∈ Table.rows db.messages ↔
      db.messages.lookup row.messageId = some row := by
  rw [Table.mem_rows]
  constructor
  · rintro ⟨key, hkey⟩
    have hcolumn : row.messageId = key := hkeyed.messages key row hkey
    exact hcolumn ▸ hkey
  · exact fun h => ⟨_, h⟩

theorem mem_rows_outbox (hkeyed : db.Keyed) : event ∈ Table.rows db.outbox ↔
      db.outbox.lookup event.eventId = some event := by
  rw [Table.mem_rows]
  constructor
  · rintro ⟨key, hkey⟩
    have hcolumn : event.eventId = key := hkeyed.outbox key event hkey
    exact hcolumn ▸ hkey
  · exact fun h => ⟨_, h⟩

theorem mem_messageIds (hkeyed : db.Keyed) :
    id ∈ messageIds db ↔ ∃ row, db.messages.lookup id = some row := by
  constructor
  · rintro ⟨row, hrow, rfl⟩
    exact ⟨row, (mem_rows_messages hkeyed).mp hrow⟩
  · rintro ⟨row, hrow⟩
    exact ⟨row, Table.mem_rows.mpr ⟨id, hrow⟩, hkeyed.messages id row hrow⟩

theorem mem_recalledIds (hkeyed : db.Keyed) : id ∈ recalledIds db ↔
      ∃ row, db.messages.lookup id = some row ∧ row.recalled = true := by
  constructor
  · rintro ⟨row, hrow, rfl, hrecalled⟩
    exact ⟨row, (mem_rows_messages hkeyed).mp hrow, hrecalled⟩
  · rintro ⟨row, hrow, hrecalled⟩
    exact ⟨row, Table.mem_rows.mpr ⟨id, hrow⟩, hkeyed.messages id row hrow, hrecalled⟩

theorem eventOrigin_of_mem (hkeyed : db.Keyed) (hevent : event ∈ Table.rows db.outbox) :
    db.eventOrigin event.eventId = some event.origin := by
  rw [Db.eventOrigin, (mem_rows_outbox hkeyed).mp hevent]
  rfl

theorem mem_of_eventOrigin (hkeyed : db.Keyed) {origin : OutboxEvent}
    (h : db.eventOrigin id = some origin) :
    ∃ event ∈ Table.rows db.outbox, event.eventId = id ∧ event.origin = origin := by
  obtain ⟨event, hevent, rfl⟩ := Option.map_eq_some_iff.mp h
  exact ⟨event, Table.mem_rows.mpr ⟨id, hevent⟩, hkeyed.outbox id event hevent, rfl⟩

/-! ## The bijections -/

theorem bijOn_messages (hinv : Inv config w) :
    Set.BijOn OutboxEvent.eventId (eventsOf .message w.db) (messageIds w.db) := by
  have hkeyed := hinv.keyed
  refine ⟨?_, ?_, ?_⟩
  · rintro event ⟨hevent, htype⟩
    obtain ⟨_, row, _, _, hrow, _⟩ := hinv.messages.carries (eventOrigin_of_mem hkeyed hevent) htype
    exact (mem_messageIds hkeyed).mpr ⟨row, hrow⟩
  · rintro first ⟨hfirst, _⟩ second ⟨hsecond, _⟩ heq
    have hrow := (mem_rows_outbox hkeyed).mp hfirst
    rw [heq, (mem_rows_outbox hkeyed).mp hsecond] at hrow
    exact (Option.some.inj hrow).symm
  · intro id hid
    obtain ⟨row, hrow⟩ := (mem_messageIds hkeyed).mp hid
    obtain ⟨origin, horigin, htype⟩ := hinv.messages.announced hrow
    obtain ⟨event, hevent, heventId, rfl⟩ := mem_of_eventOrigin hkeyed horigin
    exact ⟨event, ⟨hevent, htype⟩, heventId⟩

theorem bijOn_recalls (hinv : Inv config w) :
    Set.BijOn OutboxEvent.aggregateId (eventsOf .messageRecall w.db) (recalledIds w.db) := by
  have hkeyed := hinv.keyed
  refine ⟨?_, ?_, ?_⟩
  · rintro event ⟨hevent, htype⟩
    have hrow := hinv.messages.recall_carries (eventOrigin_of_mem hkeyed hevent) htype
    exact (mem_recalledIds hkeyed).mpr hrow
  · rintro first ⟨hfirst, htype⟩ second ⟨hsecond, htype'⟩ heq
    have hid := hinv.messages.recall_unique (eventOrigin_of_mem hkeyed hfirst)
      (eventOrigin_of_mem hkeyed hsecond) htype htype' heq
    have hrow := (mem_rows_outbox hkeyed).mp hfirst
    rw [hid, (mem_rows_outbox hkeyed).mp hsecond] at hrow
    exact (Option.some.inj hrow).symm
  · intro id hid
    obtain ⟨row, hrow, hrecalled⟩ := (mem_recalledIds hkeyed).mp hid
    obtain ⟨eventId, origin, horigin, htype, haggregate⟩ :=
      hinv.messages.recall_announced hrow hrecalled
    obtain ⟨event, hevent, _, rfl⟩ := mem_of_eventOrigin hkeyed horigin
    exact ⟨event, ⟨hevent, htype⟩, haggregate⟩

theorem event_carries (hinv : Inv config w) {row : MessageRecord}
    (hevent : event ∈ eventsOf .message w.db) (hrow : row ∈ Table.rows w.db.messages)
    (hid : row.messageId = event.eventId) :
    ∃ inserted, Committed w.log (.insertMessage inserted) ∧
      inserted.origin = row.origin ∧ Announces config inserted event := by
  obtain ⟨hmem, htype⟩ := hevent
  obtain ⟨inserted, found, hcommitted, hannounces, hfound, horigin⟩ :=
    hinv.messages.carries (eventOrigin_of_mem hinv.keyed hmem) htype
  rw [← hid, (mem_rows_messages hinv.keyed).mp hrow] at hfound
  cases hfound
  exact ⟨inserted, hcommitted, horigin.symm, hannounces.eventId,
    hannounces.aggregateId, hannounces.topic, hannounces.eventKey,
    hannounces.payload⟩

/-! ## One recall -/

theorem any_recallsMessage {unit : Nat × List Write} :
    unit.2.any (recallsMessage messageId) = true ↔ Recalls unit messageId := by
  simp only [List.any_eq_true, Recalls]
  constructor
  · rintro ⟨write, hwrite, hrecalls⟩
    cases write with
    | recallMessage other recalledAt =>
      simp only [recallsMessage, decide_eq_true_eq] at hrecalls
      exact ⟨recalledAt, hrecalls ▸ hwrite⟩
    | _ => cases hrecalls
  · rintro ⟨recalledAt, hwrite⟩
    exact ⟨_, hwrite, by simp [recallsMessage]⟩

theorem mem_recallers {log : List (Nat × List Write)} {client : Nat} :
    client ∈ recallers log messageId ↔
      ∃ writes, (client, writes) ∈ log ∧ Recalls (client, writes) messageId := by
  simp only [recallers, List.mem_map, List.mem_filter, any_recallsMessage]
  constructor
  · rintro ⟨⟨_, writes⟩, hunit, rfl⟩
    exact ⟨writes, hunit⟩
  · rintro ⟨writes, hunit⟩
    exact ⟨_, hunit, rfl⟩

theorem length_recallers_le {log : List (Nat × List Write)}
    (honce : log.Pairwise fun later earlier => ∀ id, Recalls later id → ¬ Recalls earlier id)
    (messageId : UInt64) :
    (recallers log messageId).length ≤ 1 := by
  rw [recallers, List.length_map]
  induction honce with
  | nil => simp
  | @cons unit log hunit _ ih =>
    by_cases hrecalls : Recalls unit messageId
    · -- no earlier unit recalls the message
      have hnone : log.filter (fun unit =>
          unit.2.any (recallsMessage messageId)) = [] := by
        rw [List.filter_eq_nil_iff]
        intro earlier hearlier hany
        exact hunit earlier hearlier messageId hrecalls (any_recallsMessage.mp hany)
      rw [List.filter_cons, if_pos (any_recallsMessage.mpr hrecalls), hnone]
      simp
    · rw [List.filter_cons, if_neg fun h => hrecalls (any_recallsMessage.mp h)]
      exact ih

theorem recallers_eq_singleton (hinv : Inv config w) {client : Nat}
    (hclient : client ∈ recallers w.log messageId) :
    recallers w.log messageId = [client] :=
  eq_singleton_of_mem (length_recallers_le hinv.messages.recall_once messageId) hclient

theorem recalled_iff (hinv : Inv config w) : messageId ∈ recalledIds w.db ↔
      ∃ client, recallers w.log messageId = [client] := by
  rw [mem_recalledIds hinv.keyed]
  constructor
  · rintro ⟨row, hrow, hrecalled⟩
    obtain ⟨⟨client, writes⟩, hunit, hrecalls⟩ := hinv.messages.recall_logged hrow hrecalled
    exact ⟨client, recallers_eq_singleton hinv (mem_recallers.mpr ⟨writes, hunit, hrecalls⟩)⟩
  · rintro ⟨client, hclient⟩
    have hmem : client ∈ recallers w.log messageId := by simp [hclient]
    obtain ⟨writes, hunit, hrecalls⟩ := mem_recallers.mp hmem
    exact hinv.messages.recall_effect hunit hrecalls

theorem recallAnswered_of_recallsOf {pool : Pool} (hpool : Reachable config pool)
    {tid : Nat} {response : RecallMessageResponse}
    (hrequest : (pool.request tid).any (recallsOf messageId) = true)
    (hreply : pool.reply tid = some (.recalled response)) :
    RecallAnswered tid messageId response pool.world := by
  obtain ⟨request, hget, hrecalls⟩ := (Option.any_eq_true _ _).mp hrequest
  obtain ⟨_, hpost⟩ := hpool.answer hget hreply
  cases request with
  | recallMessage ctx request =>
    simp only [recallsOf, decide_eq_true_eq] at hrecalls
    subst hrecalls
    exact hpost
  | _ => cases hrecalls

/-! ## Every committed state -/

/-- How messages, events and recalls belong together. -/
structure EventsMatch (config : Config) (pool : Pool) : Prop where
  messages : Set.BijOn OutboxEvent.eventId (eventsOf .message pool.world.db)
    (messageIds pool.world.db)
  carries : ∀ event ∈ eventsOf .message pool.world.db,
    ∀ row ∈ Table.rows pool.world.db.messages, row.messageId = event.eventId →
    event.eventKey = decimal row.conversationId.toNat ∧
      event.topic = (if row.groupId = 0 then config.message.topicSingle
        else config.message.topicGroup) ∧
      ∃ inserted traceId, Committed pool.world.log (.insertMessage inserted) ∧
        inserted.origin = row.origin ∧
        MessageData.parse event.payload = (toMessageData traceId inserted, true)
  recalls : Set.BijOn OutboxEvent.aggregateId
    (eventsOf .messageRecall pool.world.db) (recalledIds pool.world.db)
  /-- A message is recalled exactly if one thread has recalled it. -/
  recalled_once : ∀ messageId, messageId ∈ recalledIds pool.world.db ↔
    ∃ client, recallers pool.world.log messageId = [client]
  /-- That thread is the only one that may be told so. -/
  recall_ok : ∀ tid messageId response, (pool.request tid).any (recallsOf messageId) = true →
    pool.reply tid = some (.recalled response) →
    response.response.code = ErrorCode.ok.toInt32 →
    recallers pool.world.log messageId = [tid]
  recall_already : ∀ tid messageId response, (pool.request tid).any (recallsOf messageId) = true →
    pool.reply tid = some (.recalled response) →
    response.response.code = ErrorCode.messageAlreadyRecalled.toInt32 →
    ∃ client, recallers pool.world.log messageId = [client]

theorem events_match {pool : Pool} (hpool : Reachable config pool) :
    EventsMatch config pool := by
  have hinv := hpool.inv
  constructor
  case messages => exact bijOn_messages hinv
  case recalls => exact bijOn_recalls hinv
  case carries =>
    intro event hevent row hrow hid
    obtain ⟨inserted, hcommitted, horigin, hannounces⟩ := event_carries hinv hevent hrow hid
    have hcolumns := horigin
    simp only [MessageRecord.origin, MessageRecord.mk.injEq] at hcolumns
    obtain ⟨-, hconversation, -, -, -, hgroup, -⟩ := hcolumns
    obtain ⟨traceId, hpayload⟩ := hannounces.payload
    refine ⟨?_, ?_, inserted, traceId, hcommitted, horigin, hpayload⟩
    · rw [hannounces.eventKey, hconversation]
    · rw [hannounces.topic, hgroup]
  case recalled_once => exact fun messageId => recalled_iff hinv
  case recall_ok =>
    intro tid messageId response hrequest hreply hcode
    have hanswered := recallAnswered_of_recallsOf hpool hrequest hreply
    exact recallers_eq_singleton hinv (mem_recallers.mpr (hanswered.ok hcode))
  case recall_already =>
    intro tid messageId response hrequest hreply hcode
    have hanswered := recallAnswered_of_recallsOf hpool hrequest hreply
    exact (recalled_iff hinv).mp ((mem_recalledIds hinv.keyed).mpr (hanswered.already hcode))

/-! ### Two recalls of one message -/

def takeBack : Request := .recallMessage {} { userId := 1, messageId := 42 }

/-- Both threads have read the message before either recalls it. -/
def recallActions : List Action :=
  .spawn greeting :: List.replicate 20 (.step 0 { id := 42, clock := 5 }) ++
    [.spawn takeBack, .spawn takeBack] ++
    List.replicate 3 (.step 1 { id := 43, clock := 6 }) ++
    List.replicate 20 (.step 2 { id := 44, clock := 6 }) ++
    List.replicate 20 (.step 1 { id := 43, clock := 7 })

def recallRace : Pool := (services {}).run twoFriends recallActions

theorem recallRace_reachable : Reachable {} recallRace :=
  ⟨twoFriends, recallActions, twoFriends_initial, rfl⟩

theorem recallRace_events_match : EventsMatch {} recallRace ∧
    recallers recallRace.world.log 42 = [2] := by
  have hmatch := events_match recallRace_reachable
  refine ⟨hmatch, hmatch.recall_ok 2 42 ⟨fillResponse [] .ok "OK", 42, 6⟩ ?_ ?_ rfl⟩
  · decide +kernel
  · decide +kernel

/-! ## Later states -/

/-- Nothing that was committed is lost or taken back, whatever these services do
next; the cleanup of the admin service is not one of them. -/
theorem committed_rows_last {pool : Pool} (hpool : Reachable config pool) (actions : List Action) :
    Grows pool.world ((services config).run pool actions).world := by
  refine (hpool.evolves actions).preserves (p := Grows pool.world) ?_ ?_ (.refl _)
  · exact fun _ _ hgrows hstep => hgrows.trans hstep.grows
  · exact fun _ hgrows => hgrows.trans (env_rely 0 _ _).grows

theorem recallRace_rows_last : ∃ row, ((services {}).run recallRace
    [.spawn greeting, .step 3 {}]).world.db.messages.lookup 42 = some row ∧
      row.recalled = true := by
  have hrecalled : (recallRace.world.db.messages.lookup 42).map
      MessageRecord.recalled = some true := by decide +kernel
  obtain ⟨old, hold, hrecalled⟩ := Option.map_eq_some_iff.mp hrecalled
  obtain ⟨row, hrow, _, hkept⟩ := (committed_rows_last recallRace_reachable _).messages hold
  exact ⟨row, hrow, hkept hrecalled⟩

end NebulaIM.Message
