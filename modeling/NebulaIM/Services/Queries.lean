import NebulaIM.Services.Calls

/-!
# Conversations, history and offline copies

The deletion of a conversation hides its row, `ListConversationMessages` answers
whoever owns a row that is not hidden, and a copy that was saved is in the log.
-/

namespace NebulaIM.Services

open Foundation Foundation.Store
open Backend Protocol Message RelationService ConversationService Push
open NebulaIM.Outbox (Steady)
open Foundation.Wire (Bytes)

variable {conversationId : UInt64}
variable {config : Config} {tid : Nat} {known : World → Prop}
variable {start : List (Nat × List Write)}

/-! ## Deletion -/

theorem spec_deleteConversationRow (userId conversationId : UInt64) (now : Int64) :
    Triple (contract config) tid (fun _ => True)
      (query (.deleteConversation userId conversationId now))
      fun _ _ => True := by
  refine spec_query (Stable.const True) ?_ (fun _ _ _ => trivial) fun _ => Stable.const True
  intro w choice locked hinv _ hwrites
  simp only [Stmt.plan] at hwrites ⊢
  cases hrow : w.db.conversations.lookup (userId, conversationId) with
  | none =>
    rw [hrow] at hwrites
    exact absurd rfl hwrites
  | some row => exact .deleteConversation now hrow

theorem spec_deleteConversation (ctx : RpcContext) (request : ConversationDeleteRequest) :
    Triple (contract config) tid (fun _ => True) (deleteConversation ctx request)
      fun _ _ => True := by
  have htrue : Stable (contract config) tid fun _ => True := Stable.const _
  simp only [deleteConversation, changeConversation]
  split
  · exact .ret htrue fun _ _ => trivial
  refine (serves.keep .nowMs trivial (.const True)).bind fun now => ?_
  refine (spec_deleteConversationRow _ _ now).bind fun ok => ?_
  split <;> exact .ret htrue fun _ _ => trivial

/-! ## History -/

def Stored (row : MessageRecord) (w : World) : Prop :=
  ∃ found, w.db.messages.lookup row.messageId = some found ∧ found.origin = row.origin

theorem Stored.mono {row : MessageRecord} {w w' : World} (h : Stored row w)
    (hgrows : Grows w w') : Stored row w' := by
  obtain ⟨found, hfound, horigin⟩ := h
  obtain ⟨found', hfound', horigin', _⟩ := hgrows.messages hfound
  exact ⟨found', hfound', horigin'.trans horigin⟩

/-- At some moment since the log was `start` the user owned a visible row of the
conversation. -/
def WasShown (start : List (Nat × List Write)) (userId conversationId : UInt64)
    (w : World) : Prop :=
  ∃ log, start <:+ log ∧ log <:+ w.log ∧ Shown log userId conversationId

/-- What the response to a history request shows, and to whom. -/
structure HistoryAnswered (start : List (Nat × List Write))
    (userId conversationId : UInt64) (response : ListConversationMessagesResponse) (w : World) :
    Prop where
  stored : ∀ data ∈ response.messages, ∃ row, w.db.messages.lookup data.messageId = some row ∧
      row.conversationId = conversationId ∧ row.groupId = data.groupId
  shown : response.messages ≠ [] → WasShown start userId conversationId w

theorem WasShown.mono {userId : UInt64} {w w' : World}
    (h : WasShown start userId conversationId w) (hgrows : Grows w w') :
    WasShown start userId conversationId w' := by
  obtain ⟨log, hstart, hlog, hshown⟩ := h
  exact ⟨log, hstart, hlog.trans hgrows.log, hshown⟩

theorem since_stable : Stable (contract config) tid fun w => start <:+ w.log :=
  (steady_of_grows fun h hgrows => h.trans hgrows.log).stable

theorem HistoryAnswered.steady (userId conversationId : UInt64)
    (response : ListConversationMessagesResponse) :
    Steady (contract config) tid (HistoryAnswered start userId conversationId response) := by
  refine steady_of_grows fun {w w'} h hgrows => ⟨?_, fun hne => (h.shown hne).mono hgrows⟩
  intro data hdata
  obtain ⟨row, hrow, hconversation, hgroup⟩ := h.stored data hdata
  obtain ⟨row', hrow', horigin, _⟩ := hgrows.messages hrow
  simp only [MessageRecord.origin, MessageRecord.mk.injEq] at horigin
  obtain ⟨-, hconv, -, -, -, hgrp, -⟩ := horigin
  exact ⟨row', hrow', hconv.trans hconversation, hgrp.trans hgroup⟩

theorem spec_canReadConversation (userId conversationId : UInt64) :
    Triple (contract config) tid (fun w => start <:+ w.log)
      (canReadConversation userId conversationId)
      fun ok w => ok = true → WasShown start userId conversationId w := by
  have hshown (ok : Bool) : Steady (contract config) tid fun w => ok = true →
      WasShown start userId conversationId w :=
    .imp _ (steady_of_grows WasShown.mono)
  unfold canReadConversation
  split
  · exact .ret since_stable fun _ _ hok => nomatch hok
  refine spec_read (fun _ _ _ => rfl) since_stable (fun _ hok => nomatch hok)
    ?_ fun ok => (hshown ok).stable
  intro w choice locked hinv hstart hok
  obtain ⟨row, hrow, hvisible⟩ := (Option.any_eq_true _ _).mp hok
  have hdeleted : row.deleted = false := by simpa using hvisible
  exact ⟨w.log, hstart, List.suffix_refl _, hinv.conversations.shown hrow hdeleted⟩

theorem mem_history {db : Db} (hkeyed : db.Keyed) {beforeTime : Int64}
    {beforeMessageId : UInt64} {limit : Nat} {row : MessageRecord}
    (hrow : row ∈ db.history conversationId beforeTime beforeMessageId limit) :
    db.messages.lookup row.messageId = some row ∧ row.conversationId = conversationId := by
  have hmem := List.mem_of_mem_take hrow
  simp only [List.mem_insertionSort, List.mem_filter, Bool.and_eq_true,
    decide_eq_true_eq] at hmem
  obtain ⟨key, hkey⟩ := Table.mem_rows.mp hmem.1
  have hcolumn : row.messageId = key := hkeyed.messages key row hkey
  exact ⟨hcolumn ▸ hkey, hmem.2.1⟩

def Listed (conversationId : UInt64) (rows : List MessageRecord) (w : World) :
    Prop :=
  ∀ row, row ∈ rows → Stored row w ∧ row.conversationId = conversationId

theorem Listed.steady (conversationId : UInt64) (rows : List MessageRecord) :
    Steady (contract config) tid (Listed conversationId rows) :=
  steady_of_grows fun h hgrows row hrow => ⟨(h row hrow).1.mono hgrows, (h row hrow).2⟩

theorem spec_listMessages (hknown : Steady (contract config) tid known) (conversationId : UInt64)
    (beforeTime : Int64) (beforeMessageId : UInt64) (limit : Nat) :
    Triple (contract config) tid known
      (query (.listConversationMessages conversationId beforeTime beforeMessageId limit))
      fun rows w => known w ∧ Listed conversationId rows w := by
  refine spec_read (fun _ _ _ => rfl) hknown.stable (fun h => ⟨h, fun _ hrow => nomatch hrow⟩) ?_
    fun rows => (hknown.and (Listed.steady conversationId rows)).stable
  intro w choice locked hinv hw
  refine ⟨hw, fun row hrow => ?_⟩
  obtain ⟨hfound, hconversation⟩ := mem_history hinv.keyed hrow
  exact ⟨⟨row, hfound, rfl⟩, hconversation⟩

theorem HistoryAnswered.page {userId : UInt64} {rows : List MessageRecord} {w : World}
    (hshown : WasShown start userId conversationId w) (hlisted : Listed conversationId rows w)
    (requestId traceId : Bytes) (limit : Nat) :
    HistoryAnswered start userId conversationId (historyPage requestId traceId limit rows) w where
  shown _ := hshown
  stored data hdata := by
    simp only [historyPage, List.mem_map, List.mem_reverse] at hdata
    obtain ⟨row, hrow, rfl⟩ := hdata
    obtain ⟨⟨found, hfound, horigin⟩, hconversation⟩ := hlisted row (List.mem_of_mem_take hrow)
    simp only [MessageRecord.origin, MessageRecord.mk.injEq] at horigin
    obtain ⟨-, hconv, -, -, -, hgroup, -⟩ := horigin
    exact ⟨found, hfound, hconv.trans hconversation, hgroup⟩

theorem HistoryAnswered.empty (userId conversationId : UInt64)
    (response : CommonResponse) (w : World) :
    HistoryAnswered start userId conversationId { response := response } w :=
  ⟨nofun, fun h => absurd rfl h⟩

theorem spec_listConversationMessages (ctx : RpcContext)
    (request : ListConversationMessagesRequest) :
    Triple (contract config) tid (fun w => start <:+ w.log) (listConversationMessages ctx request)
      (HistoryAnswered start request.requesterUserId request.conversationId) := by
  simp only [listConversationMessages]
  split
  · exact .ret since_stable fun _ _ => .empty _ _ _ _
  split
  · exact .ret since_stable fun _ _ => .empty _ _ _ _
  refine (spec_canReadConversation _ _).bind fun ok => ?_
  have hshown : Steady (contract config) tid fun w => ok = true →
      WasShown start request.requesterUserId request.conversationId w :=
    .imp _ (steady_of_grows WasShown.mono)
  split
  · exact .ret hshown.stable fun _ _ => .empty _ _ _ _
  next hok =>
  refine (spec_listMessages hshown _ _ _ _).bind fun rows => ?_
  refine .ret (hshown.and (Listed.steady _ rows)).stable fun _ h => ?_
  exact .page (h.1 (by simpa using hok)) h.2 _ _ _

/-! ## Offline copies -/

/-- The row that a copy of the message leaves behind: an acknowledged row stays
as it is. -/
structure SavedAs (userId : UInt64) (message : MessageData) (row : OfflineMessage) : Prop where
  userId_eq : row.userId = userId
  messageId_eq : row.messageId = message.messageId
  copied : row.status ≠ .acked → row.status = .unread ∧
    row.payload = (messageForRecipient userId message).serialize

def SavedBy (tid : Nat) (userId : UInt64) (message : MessageData) (w : World) :
    Prop :=
  ∃ row, (tid, [.putOffline row]) ∈ w.log ∧ SavedAs userId message row

theorem messageForRecipient_messageId (userId : UInt64) (message : MessageData) :
    (messageForRecipient userId message).messageId = message.messageId := by
  unfold messageForRecipient
  split <;> rfl

theorem savedAs_savedOffline {db : Db} (hkeyed : db.Keyed) (userId : UInt64)
    (message : MessageData) (now : Int64) :
    SavedAs userId message (db.savedOffline (offlineCopy userId message now)) := by
  have hid := messageForRecipient_messageId userId message
  cases hrow : db.offline.lookup ((offlineCopy userId message now).userId,
      (offlineCopy userId message now).messageId) with
  | none =>
    simp only [Db.savedOffline, hrow]
    exact ⟨rfl, hid, fun _ => ⟨rfl, rfl⟩⟩
  | some row =>
    have hcolumns := hkeyed.offline _ row hrow
    obtain ⟨huser, hmessage⟩ := Prod.mk.inj hcolumns
    simp only [Db.savedOffline, hrow, OfflineMessage.upsert]
    by_cases hacked : row.status = .acked
    · simp only [hacked, if_true]
      exact ⟨huser, hmessage.trans hid, fun h => absurd hacked h⟩
    · simp only [if_neg hacked]
      exact ⟨huser, hmessage.trans hid, fun _ => ⟨rfl, rfl⟩⟩

theorem SavedBy.steady (userId : UInt64) (message : MessageData) (ok : Bool) :
    Steady (contract config) tid fun w => ok = true → SavedBy tid userId message w := by
  refine .imp _ (steady_of_grows ?_)
  rintro w w' ⟨row, hrow, h⟩ hgrows
  exact ⟨row, hgrows.log.subset hrow, h⟩

theorem spec_saveOffline (userId : UInt64) {message : MessageData} (hmessage : message.WellFormed) :
    Triple (contract config) tid (fun _ => True) (saveOffline offlineStore userId message)
      fun ok w => ok = true → SavedBy tid userId message w := by
  refine (serves.keep .nowMs trivial (.const True)).bind fun now => ?_
  refine spec_query (Stable.const True) ?_ ?_ fun ok => (SavedBy.steady userId message ok).stable
  · intro w choice locked hinv _ _
    exact .saveOffline userId now hmessage
  · intro w choice hinv _ hok
    rcases w.query_cases tid (.insertOfflineMessage (offlineCopy userId message now)) choice
      with h | ⟨_, hwrites, _⟩ | ⟨_, _, _, _, h⟩
    · rw [h] at hok
      cases hok
    · cases hwrites
    · rw [h]
      exact ⟨_, List.mem_cons_self, savedAs_savedOffline hinv.keyed userId message now⟩

end NebulaIM.Services
