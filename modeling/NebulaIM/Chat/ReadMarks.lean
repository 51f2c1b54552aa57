import NebulaIM.Chat.Counting

/-!
# Read marks and the cleanup of receipts

A message is read by a user for as long as the receipt of the two has a read
time.  Marks and deliveries never take the time away, also not in transactions
that overlap; `RunCleanup` deletes receipts by age, and with them the marks.
-/

namespace NebulaIM.Chat

open Foundation Foundation.Store
open Backend Protocol Message

variable {stmt : Stmt} {client : Nat}

section Marks

variable (messageId userId : UInt64)

def ReadMarked (db : Db) : Prop :=
  ∃ row, db.receipts.lookup (messageId, userId) = some row ∧ 0 < row.readAt

def Marks (writes : List Write) : Prop :=
  ∃ row, .putReceipt row ∈ writes ∧
    (row.messageId, row.userId) = (messageId, userId) ∧ 0 < row.readAt

/-- Messages with read times stay so, in the rows and in every open
transaction. -/
structure Lasting (w : World) : Prop where
  kept : ∀ unit ∈ w.log, Marks messageId userId unit.2 → ReadMarked messageId userId w.db
  drafts : ∀ {client tx}, w.sql.txs.lookup client = some tx →
    ReadMarked messageId userId w.db ∨ Marks messageId userId tx.writes →
    ReadMarked messageId userId (applyAll (D := dialect) w.db tx.writes)

/-- A cleanup finds the receipt missing or young enough, and the clock is past
its epoch. -/
def retained (w : World) (choice : Choice) : Op → Bool
  | .nowMs => 0 < choice.clock
  | .query (.deleteExpired .messageReceipts before _) =>
    (w.db.receipts.lookup (messageId, userId)).all fun row => before ≤ row.updatedAt
  | _ => true

def retainRules : Rules where
  call w _ op choice := retained messageId userId w choice op = true

instance (w : World) (tid : Nat) (op : Op) (choice : Choice) :
    Decidable ((retainRules messageId userId).call w tid op choice) :=
  inferInstanceAs (Decidable (_ = true))

instance (w : World) (request : Request) :
    Decidable ((retainRules messageId userId).spawn w request) :=
  inferInstanceAs (Decidable True)

instance (w : World) (event : Env) : Decidable ((retainRules messageId userId).env w event) :=
  inferInstanceAs (Decidable True)

def retaining : Discipline :=
  locking (retainRules messageId userId) (fun _ => True) (fun _ => True)
    (fun _ _ => True) (fun now => 0 < now) (fun _ => trivial) of_decide_eq_true

theorem retaining_grants (config : Config) : Grants (retaining messageId userId) config :=
  .of_sent (fun _ _ => trivial) (fun _ _ _ _ => trivial) fun _ _ _ _ => trivial

variable {messageId userId} {db db' : Db} {writes : List Write} {w w' : World}

theorem ReadMarked.congr (h : ReadMarked messageId userId db)
    (hrow : db'.receipts.lookup (messageId, userId) = db.receipts.lookup (messageId, userId)) :
    ReadMarked messageId userId db' := by
  obtain ⟨row, hlookup, htime⟩ := h
  exact ⟨row, hrow.trans hlookup, htime⟩

theorem lookup_receipts_congr
    (hrow : db'.receipts.lookup (messageId, userId) = db.receipts.lookup (messageId, userId))
    (writes : List Write) :
    (applyAll (D := dialect) db' writes).receipts.lookup (messageId, userId) =
      (applyAll (D := dialect) db writes).receipts.lookup (messageId, userId) := by
  induction writes generalizing db db' with
  | nil => exact hrow
  | cons write writes ih =>
    refine ih ?_
    cases write with
    | putReceipt new =>
      simp only [Db.apply]
      by_cases heq : (messageId, userId) = (new.messageId, new.userId)
      · rw [heq, AList.lookup_insert, AList.lookup_insert]
      · rw [AList.lookup_insert_ne heq, AList.lookup_insert_ne heq, hrow]
    | removeReceipt id user =>
      simp only [Db.apply]
      by_cases heq : (messageId, userId) = (id, user)
      · rw [heq, AList.lookup_erase, AList.lookup_erase]
      · rw [AList.lookup_erase_ne heq, AList.lookup_erase_ne heq, hrow]
    | _ => exact hrow

theorem Lasting.of_same_row (h : Lasting messageId userId w)
    (hrow : w'.db.receipts.lookup (messageId, userId) = w.db.receipts.lookup (messageId, userId))
    (hlog : ∀ unit ∈ w'.log, unit ∈ w.log ∨ ¬ Marks messageId userId unit.2)
    (htxs : ∀ {client tx}, w'.sql.txs.lookup client = some tx →
      w.sql.txs.lookup client = some tx ∨ tx = {}) :
    Lasting messageId userId w' where
  kept unit hunit hmarks := by
    rcases hlog unit hunit with hold | hnot
    · exact (h.kept unit hold hmarks).congr hrow
    · exact absurd hmarks hnot
  drafts {client tx} htx hmarked := by
    rcases htxs htx with hold | rfl
    · refine (h.drafts hold ?_).congr (lookup_receipts_congr hrow tx.writes)
      exact hmarked.imp_left fun hnow => hnow.congr hrow.symm
    · exact hmarked.elim id fun ⟨_, hmem, _⟩ => nomatch hmem

/-! ## Statements -/

theorem right_le_max (a b : Int64) : b ≤ max a b := by
  simp only [max]
  split
  · exact Int64.le_refl b
  · next h => exact Int64.le_of_lt (Int64.not_le.mp h)

theorem markedRead_key (hkeyed : db.Keyed) (id user : UInt64) (readAt : Int64) :
    ((db.markedRead id user readAt).messageId, (db.markedRead id user readAt).userId) = (id, user) ∧
    readAt ≤ (db.markedRead id user readAt).readAt := by
  cases hrow : db.receipts.lookup (id, user) with
  | none => simp [Db.markedRead, hrow]
  | some row =>
    simp only [Db.markedRead, hrow]
    exact ⟨hkeyed.receipts _ row hrow, right_le_max _ _⟩

theorem Staging.receipt (h : Staging stmt) (hkeyed : db.Keyed) (choice : Choice)
    (locked : List Key) :
    (∀ id user, .removeReceipt id user ∉ (stmt.plan choice db locked).writes) ∧
    ∃ new : MessageReceipt,
      (∀ row, .putReceipt row ∈ (stmt.plan choice db locked).writes →
        (row.messageId, row.userId) = (messageId, userId) → row = new) ∧
      (ReadMarked messageId userId db → 0 < new.readAt) := by
  have hnone {writes : List Write} (hput : ∀ row, .putReceipt row ∉ writes)
      (hremove : ∀ id user, .removeReceipt id user ∉ writes) :
      (∀ id user, .removeReceipt id user ∉ writes) ∧
      ∃ new : MessageReceipt, (∀ row, .putReceipt row ∈ writes →
        (row.messageId, row.userId) = (messageId, userId) → row = new) ∧
        (ReadMarked messageId userId db → 0 < new.readAt) :=
    ⟨hremove, { readAt := 1 }, fun row hmem => absurd hmem (hput row), fun _ => by decide⟩
  have hmarked (readAt : Int64) (h : ReadMarked messageId userId db) :
      0 < (db.markedRead messageId userId readAt).readAt := by
    obtain ⟨row, hrow, htime⟩ := h
    simp only [Db.markedRead, hrow]
    exact Int64.lt_of_lt_of_le htime (left_le_max _ _)
  cases stmt with
  | markRead id user readAt =>
    simp only [Stmt.plan, writing]
    refine ⟨by simp, db.markedRead messageId userId readAt, ?_, hmarked readAt⟩
    intro row hmem hkey
    cases List.mem_singleton.mp hmem
    rw [(markedRead_key hkeyed id user readAt).1] at hkey
    cases hkey
    rfl
  | markConversationRead conversationId user upTo upToTime readAt =>
    simp only [Stmt.plan, writing]
    refine ⟨by simp, db.markedRead messageId userId readAt, ?_, hmarked readAt⟩
    intro row hmem hkey
    obtain ⟨record, _, hrow⟩ := List.mem_map.mp hmem
    cases hrow
    rw [(markedRead_key hkeyed record.messageId user readAt).1] at hkey
    cases hkey
    rfl
  | upsertDelivered id user deliveredAt =>
    simp only [Stmt.plan, writing]
    refine ⟨by simp, db.delivered messageId userId deliveredAt, ?_, ?_⟩
    · intro row hmem hkey
      cases List.mem_singleton.mp hmem
      have hcolumns : ((db.delivered id user deliveredAt).messageId,
          (db.delivered id user deliveredAt).userId) = (id, user) := by
        cases hrow : db.receipts.lookup (id, user) with
        | none => simp [Db.delivered, hrow]
        | some row =>
          simp only [Db.delivered, hrow]
          exact hkeyed.receipts _ row hrow
      rw [hcolumns] at hkey
      cases hkey
      rfl
    · rintro ⟨row, hrow, htime⟩
      simpa only [Db.delivered, hrow] using htime
  | _ =>
    -- the other statements write other tables
    first
      | exact h.elim
      | (simp only [Stmt.plan]
         repeat' split
         all_goals refine hnone ?_ ?_ <;> simp [writing, Backend.read])

theorem Staging.marked (h : Staging stmt) (hkeyed : db.Keyed) (choice : Choice)
    (locked : List Key) (hmarked : ReadMarked messageId userId db ∨
      Marks messageId userId (stmt.plan choice db locked).writes) :
    ReadMarked messageId userId (applyAll (D := dialect) db
      (stmt.plan choice db locked).writes) := by
  obtain ⟨hremove, new, hputs, hnew⟩ := h.receipt hkeyed choice locked
  have htime : 0 < new.readAt := by
    rcases hmarked with hold | ⟨row, hmem, hkey, hrow⟩
    · exact hnew hold
    · exact hputs row hmem hkey ▸ hrow
  have hsome : ((applyAll (D := dialect) db (stmt.plan choice db
      locked).writes).receipts.lookup (messageId, userId)).isSome := by
    refine isSome_receipts_applyAll hremove (hmarked.imp ?_ ?_)
    · exact fun ⟨row, hrow, _⟩ => Option.isSome_of_eq_some hrow
    · exact fun ⟨row, hmem, hkey, _⟩ => ⟨row, hmem, hkey⟩
  obtain ⟨row, hrow⟩ := Option.isSome_iff_exists.mp hsome
  refine ⟨row, hrow, ?_⟩
  rcases lookup_receipts_applyAll hrow with ⟨hold, hnot⟩ | ⟨hput, hkey⟩
  · rcases hmarked with ⟨old, hlookup, hpositive⟩ | ⟨put, hmem, hkey, _⟩
    · rw [hold] at hlookup
      cases hlookup
      exact hpositive
    · exact absurd hkey (hnot put hmem)
  · exact hputs row hput hkey ▸ htime

theorem Plain.receipt {kinds : Kind → Prop} {saved : OfflineMessage → Prop}
    (h : Plain kinds saved stmt) (hkeyed : w.db.Keyed) {choice : Choice}
    (hrules : (retainRules messageId userId).call w client (.query stmt) choice)
    (locked : List Key) :
    (applyAll (D := dialect) w.db (stmt.plan choice w.db locked).writes).receipts.lookup
          (messageId, userId) = w.db.receipts.lookup (messageId, userId) ∧
      ¬ Marks messageId userId (stmt.plan choice w.db locked).writes := by
  have hother {writes : List Write}
      (hframe : ∀ write ∈ writes, Key.receipt messageId userId ∉ write.touches)
      (hput : ∀ row, .putReceipt row ∉ writes) :
      (applyAll (D := dialect) w.db writes).receipts.lookup (messageId, userId) =
          w.db.receipts.lookup (messageId, userId) ∧
        ¬ Marks messageId userId writes :=
    ⟨lookup_receipts_frame w.db hframe, fun ⟨row, hmem, _⟩ => hput row hmem⟩
  cases stmt with
  | deleteExpired table before limit =>
    have hexpired : ∀ write ∈ (choice.limited limit (w.db.expired before table)),
        write ∈ w.db.expired before table := by
      intro write hmem
      have hmem := List.mem_of_mem_take hmem
      simp only [List.mem_append, List.mem_filter] at hmem
      exact hmem.elim And.left And.left
    refine hother (fun write hmem htouch => ?_) fun row hmem => ?_
    · have hmem := hexpired write hmem
      cases table with
      | messageReceipts =>
        obtain ⟨row, hrow, rfl⟩ := List.mem_map.mp hmem
        obtain ⟨hrow, hold⟩ := List.mem_filter.mp hrow
        obtain ⟨key, hlookup⟩ := Table.mem_rows.mp hrow
        simp only [Write.touches, List.mem_singleton, Key.receipt.injEq] at htouch
        obtain rfl : (row.messageId, row.userId) = key := hkeyed.receipts key row hlookup
        rw [← htouch.1, ← htouch.2] at hlookup
        have hyoung : before ≤ row.updatedAt := by
          simpa [retainRules, retained, hlookup] using hrules
        simp only [decide_eq_true_eq] at hold
        exact Int64.not_lt.mpr hyoung hold
      | outboxEvents | offlineMessages =>
        obtain ⟨row, _, rfl⟩ := List.mem_map.mp hmem
        simp [Write.touches] at htouch
      | friendRequests => cases hmem
    · have hmem := hexpired _ hmem
      cases table with
      | friendRequests => cases hmem
      | _ => simp [Db.expired] at hmem
  | _ =>
    first
      | exact h.elim
      | (simp only [Stmt.plan]
         repeat' split
         all_goals refine hother ?_ ?_ <;> simp [writing, Backend.read, Write.touches])

/-! ## Steps -/

theorem Lasting.env (h : Lasting messageId userId w) (event : Env) :
    Lasting messageId userId (w.env event) := by
  refine h.of_same_row ?_ ?_ fun htx => .inl (env_lookup htx)
  · cases event with
    | redis key value => cases value <;> rfl
    | _ => rfl
  · rw [(env_messages w event).2]
    exact fun _ hunit => .inl hunit

theorem Lasting.other {other : Nat} {tx tx' : Tx dialect}
    (h : Lasting messageId userId w) (hsound : Sound w) (hne : other ≠ client)
    (hopen : w.sql.txs.lookup client = some tx)
    (htx : w.sql.txs.lookup other = some tx')
    (hmarked : ReadMarked messageId userId (applyAll (D := dialect) w.db tx.writes) ∨
      Marks messageId userId tx'.writes) :
    ReadMarked messageId userId (applyAll (D := dialect)
      (applyAll (D := dialect) w.db tx.writes) tx'.writes) := by
  by_cases htouch : ∃ write ∈ tx'.writes, Key.receipt messageId userId ∈ write.touches
  · obtain ⟨write, hmem, hkey⟩ := htouch
    have hlocked := hsound.engine.covered htx write hmem _ hkey
    have hrow := lookup_receipts_frame w.db fun write hmem hkey =>
      hsound.engine.exclusive hne htx hopen hlocked (hsound.engine.covered hopen write hmem _ hkey)
    refine (h.drafts htx ?_).congr (lookup_receipts_congr hrow tx'.writes)
    exact hmarked.imp_left fun hnow => hnow.congr hrow.symm
  · have hframe : ∀ write ∈ tx'.writes, Key.receipt messageId userId ∉ write.touches :=
      fun write hmem hkey => htouch ⟨write, hmem, hkey⟩
    rcases hmarked with hnow | ⟨row, hmem, hkey, _⟩
    · exact hnow.congr (lookup_receipts_frame _ hframe)
    · obtain ⟨rfl, rfl⟩ := Prod.mk.inj hkey
      exact absurd (List.mem_singleton.mpr rfl) (hframe _ hmem)

theorem Lasting.step (hsound : Sound w) (h : Lasting messageId userId w)
    (hstep : Step (retaining messageId userId) client w w') :
    Lasting messageId userId w' := by
  obtain ⟨start, past, op, choice, hrecorded, hallowed, hrules, rfl⟩ := hstep.call
  have hinert (hop : Inert op) : Lasting messageId userId (w.exec client op choice).1 := by
    have hsql : (w.exec client op choice).1.sql = w.sql := inert_sql op hop w choice
    refine h.of_same_row ?_ ?_ ?_ <;> simp only [World.db, World.log, hsql]
    · exact fun _ hunit => .inl hunit
    · exact fun htx => .inl htx
  cases op with
  | begin =>
    simp only [World.exec, Engine.begin]
    split
    · refine h.of_same_row rfl (fun _ hunit => .inl hunit) fun {other tx} htx => ?_
      by_cases heq : other = client
      · subst heq
        rw [Engine.open_, AList.lookup_insert] at htx
        exact .inr (Option.some.inj htx).symm
      · exact .inl ((AList.lookup_insert_ne heq).symm.trans htx)
    · exact h
  | rollback =>
    exact h.of_same_row rfl (fun _ hunit => .inl hunit) fun htx =>
      .inl ((Engine.close_rely client _ w.sql).keeps htx).1
  | query stmt =>
    rcases w.query_cases client stmt choice with hcall | ⟨_, _, hcall⟩ |
      ⟨locked, _, _, _, hcall⟩ <;> rw [hcall]
    · exact h
    · exact h
    · obtain ⟨hrow, hnot⟩ := hallowed.2.receipt hsound.keyed hrules locked
      refine h.of_same_row hrow (fun unit hunit => ?_) fun htx => .inl htx
      rcases List.mem_cons.mp hunit with rfl | hold
      · exact .inr hnot
      · exact .inl hold
  | exec stmt =>
    simp only [World.exec]
    rcases w.sql.statement_cases client (stmt.plan choice) stmt.failed
      choice.fault with hcall | hcall | ⟨tx, hopen, hcall⟩
    · rw [hcall]
      exact h
    · rw [hcall]
      exact h.of_same_row rfl (fun _ hunit => .inl hunit) fun htx =>
        .inl ((Engine.close_rely client _ w.sql).keeps htx).1
    · rw [hcall]
      refine ⟨h.kept, fun {other tx'} htx hmarked => ?_⟩
      by_cases heq : other = client
      · subst heq
        simp only [Engine.stage, AList.lookup_insert, Option.some.injEq] at htx
        subst htx
        rw [applyAll_append]
        refine hallowed.marked (hsound.keyed.applyAll tx.writes) choice _ ?_
        rcases hmarked with hnow | ⟨row, hmem, hrow⟩
        · exact .inl (h.drafts hopen (.inl hnow))
        · rcases List.mem_append.mp hmem with hold | hnew
          · exact .inl (h.drafts hopen (.inr ⟨row, hold, hrow⟩))
          · exact .inr ⟨row, hnew, hrow⟩
      · rw [Engine.stage, AList.lookup_insert_ne heq] at htx
        exact h.drafts htx hmarked
  | commit =>
    rcases w.commit_cases client choice with hcall | ⟨tx, ok, hopen, hcall⟩ <;>
      rw [hcall]
    · exact h
    · refine ⟨fun unit hunit hmarks => ?_, fun {other tx'} htx hmarked => ?_⟩
      · rcases List.mem_cons.mp hunit with rfl | hold
        · exact h.drafts hopen (.inr hmarks)
        · exact h.drafts hopen (.inl (h.kept unit hold hmarks))
      · by_cases heq : other = client
        · subst heq
          simp [Engine.write, Engine.close] at htx
        · have htx : w.sql.txs.lookup other = some tx' := (AList.lookup_erase_ne heq).symm.trans htx
          exact h.other hsound heq hopen htx hmarked
  | _ => exact hinert trivial

end Marks

/-! ## Handlers that mark -/

section Handlers

variable {D : Discipline} {start db : Db} {tx : Tx dialect}
variable {userId conversationId : UInt64} {now : Int64}

theorem Runs.markRead {messageId : UInt64} (hnow : 0 < now)
    (h : Runs D.same start db {} (readCalls (.markRead messageId userId now) true
      userId conversationId now) tx) : Marks messageId userId tx.writes := by
  obtain ⟨choice, locked, base, _, hkeyed, _, _, _, hrest⟩ := h.uncons
  obtain ⟨hkey, htime⟩ := markedRead_key hkeyed messageId userId now
  exact ⟨base.markedRead messageId userId now, hrest.writes_mem (List.mem_singleton.mpr rfl), hkey,
    Int64.lt_of_lt_of_le hnow htime⟩

/-- The message is up to the cursor, from someone else and not recalled. -/
theorem Runs.markConversationRead {upToMessageId : UInt64} {upToCreatedAt : Int64} (hnow : 0 < now)
    (h : Runs D.same start db {} (readCalls (.markConversationRead conversationId
      userId upToMessageId upToCreatedAt now) true userId conversationId now) tx)
    {messageId : UInt64} {row : MessageRecord}
    (hrow : start.messages.lookup messageId = some row)
    (hconversation : row.conversationId = conversationId)
    (hcursor : row.createdAt < upToCreatedAt ∨
      (row.createdAt = upToCreatedAt ∧ messageId ≤ upToMessageId))
    (hfrom : row.fromUserId ≠ userId)
    (hkept : ∀ row, db.messages.lookup messageId = some row → row.recalled = false) :
    Marks messageId userId tx.writes := by
  obtain ⟨choice, locked, base, hgrown, hkeyed, hreached, _, _, hrest⟩ := h.uncons
  obtain ⟨old, hold, horigin, _⟩ := hgrown messageId row hrow
  obtain ⟨later, hlater, _, hrecalled⟩ := hreached messageId old hold
  have hid : old.messageId = messageId := hkeyed.messages _ old hold
  have hreadable : old ∈ base.readable conversationId userId upToMessageId
      upToCreatedAt := by
    have hcolumns : old.conversationId = row.conversationId ∧
        old.createdAt = row.createdAt ∧ old.fromUserId = row.fromUserId :=
      ⟨congrArg (·.conversationId) horigin, congrArg (·.createdAt) horigin,
        congrArg (·.fromUserId) horigin⟩
    have hnot : old.recalled = false := by
      refine Bool.eq_false_iff.mpr fun hold => ?_
      have hstill := hkept later hlater
      rw [hrecalled hold] at hstill
      cases hstill
    simp only [Db.readable, List.mem_filter, Table.mem_rows, Bool.and_eq_true,
      Bool.or_eq_true, decide_eq_true_eq, beq_iff_eq, bne_iff_ne, hcolumns, hid,
      hconversation, hnot, Bool.not_false, and_true, ne_eq]
    exact ⟨⟨messageId, hold⟩, ⟨trivial, hcursor⟩, hfrom⟩
  obtain ⟨hkey, htime⟩ := markedRead_key hkeyed old.messageId userId now
  refine ⟨base.markedRead old.messageId userId now, hrest.writes_mem ?_,
    hid ▸ hkey, Int64.lt_of_lt_of_le hnow htime⟩
  exact List.mem_map.mpr ⟨old, hreadable, rfl⟩

end Handlers

/-! ## Runs -/

/-- What the request asks to be marked: one message, or those of a conversation
that were stored when it was made and are not recalled when it is answered. -/
def AsksToMark (messageId userId : UInt64) (start now : Db) : Request → Prop
  | .markMessageRead _ request => request.messageId = messageId ∧ request.userId = userId
  | .markConversationRead _ request =>
    request.userId = userId ∧ ∃ row ∈ start.messages.lookup messageId,
      ∃ cursor ∈ now.messages.lookup request.upToMessageId,
      row.conversationId = request.conversationId ∧
      (row.createdAt < cursor.createdAt ∨
        (row.createdAt = cursor.createdAt ∧ messageId ≤ request.upToMessageId)) ∧
      row.fromUserId ≠ userId ∧
      ∀ row ∈ now.messages.lookup messageId, row.recalled = false
  | _ => False

instance (messageId userId : UInt64) (start now : Db) :
    DecidablePred (AsksToMark messageId userId start now) := fun request => by
  unfold AsksToMark
  split <;> infer_instance

/-- What a statement sees: the committed rows, or those of its transaction. -/
def Sees (w : World) (view : Db) : Prop :=
  view = w.db ∨ ∃ client tx, w.sql.txs.lookup client = some tx ∧
    view = applyAll (D := dialect) w.db tx.writes

/-- The message counts as read for the user. -/
structure StaysRead (messageId userId : UInt64) (w : World) : Prop where
  /-- No recount counts it. -/
  uncounted : ∀ view, Sees w view → ∀ conversationId, view.unread userId conversationId =
        (view.unreadRows userId conversationId).length ∧
      ∀ row ∈ view.unreadRows userId conversationId, row.messageId ≠ messageId
  /-- `GetMessageReadState` reports it. -/
  reported : ∃ state ∈ w.db.readStates messageId, state.userId = userId ∧ 0 < state.readAt
  reports : ∀ state ∈ w.db.readStates messageId, state.userId = userId → 0 < state.readAt

variable {messageId userId : UInt64}

theorem ReadMarked.uncounted {view : Db} (h : ReadMarked messageId userId view)
    {conversationId : UInt64} {row : MessageRecord}
    (hrow : row ∈ view.unreadRows userId conversationId) :
    row.messageId ≠ messageId := by
  rintro rfl
  obtain ⟨receipt, hreceipt, htime⟩ := h
  have hunread := (Db.isUnread_iff.mp (List.mem_filter.mp hrow).2).2.2.2
  simp only [Db.readBy, hreceipt, Option.any_some, bne_eq_false_iff_eq] at hunread
  rw [hunread] at htime
  exact Int64.lt_irrefl htime

theorem Lasting.staysRead {w : World} (h : Lasting messageId userId w)
    (hkeyed : w.db.Keyed) (hmarked : ReadMarked messageId userId w.db) :
    StaysRead messageId userId w where
  uncounted view hview conversationId := by
    refine ⟨Db.unread_eq_length, fun row hrow => ?_⟩
    rcases hview with rfl | ⟨client, tx, htx, rfl⟩
    · exact hmarked.uncounted hrow
    · exact (h.drafts htx (.inl hmarked)).uncounted hrow
  reported := by
    obtain ⟨receipt, hreceipt, htime⟩ := hmarked
    obtain ⟨hid, huser⟩ := Prod.mk.inj (hkeyed.receipts _ receipt hreceipt)
    refine ⟨_, List.mem_map.mpr ⟨receipt, List.mem_filter.mpr
      ⟨Table.mem_rows.mpr ⟨_, hreceipt⟩, ?_⟩, rfl⟩, huser, htime⟩
    exact decide_eq_true hid
  reports state hstate huser := by
    obtain ⟨receipt, hreceipt, htime⟩ := hmarked
    obtain ⟨row, hrow, rfl⟩ := List.mem_map.mp hstate
    obtain ⟨hrow, hid⟩ := List.mem_filter.mp hrow
    obtain ⟨key, hlookup⟩ := Table.mem_rows.mp hrow
    obtain rfl : (row.messageId, row.userId) = key := hkeyed.receipts key row hlookup
    simp only [decide_eq_true_eq] at hid huser
    rw [hid, huser, hreceipt] at hlookup
    cases hlookup
    exact htime

theorem Post.marks {w start : World} {tid : Nat} {request : Request} {response : CommonResponse}
    (h : Post (retaining messageId userId) tid request start (.common response) w)
    (hok : response.code = ErrorCode.ok.toInt32)
    (hasks : AsksToMark messageId userId start.db w.db request) :
    ∃ unit ∈ w.log, Marks messageId userId unit.2 := by
  obtain ⟨past, hexplained, hrecorded⟩ := h
  cases request with
  | markMessageRead ctx request =>
    obtain ⟨rfl, rfl⟩ := hasks
    obtain ⟨conversationId, now, hclock, hcommits⟩ := hexplained
    obtain ⟨earlier, hcommit, hstaged⟩ := hcommits hok
    obtain ⟨db, tx, hruns, hlog, _⟩ := hrecorded.committed hcommit hstaged
    have hnow : 0 < now := hrecorded.evidence _ (hclock hok)
    exact ⟨_, hlog, hruns.markRead hnow⟩
  | markConversationRead ctx request =>
    obtain ⟨rfl, row, hrow, cursor, hcursor, hconversation, hposition, hfrom, hkept⟩ := hasks
    obtain ⟨found, now, hread, hcommits⟩ := hexplained
    obtain ⟨earlier, hcommit, hstaged⟩ := hcommits hok
    obtain ⟨db, tx, hruns, hlog, hgrown⟩ := hrecorded.committed hcommit hstaged
    have hnow : 0 < now := hrecorded.evidence _ (hread hok).1
    obtain ⟨latest, hlatest, horigin, _⟩ := hrecorded.evidence _ (hread hok).2
    rw [hcursor] at hlatest
    cases hlatest
    have htime : cursor.createdAt = found.createdAt :=
      congrArg (·.createdAt) horigin
    rw [htime] at hposition
    refine ⟨_, hlog, hruns.markConversationRead hnow hrow hconversation hposition
      hfrom fun row hrow => ?_⟩
    obtain ⟨later, hlater, _, hrecalled⟩ := (Db.Grown.applyAll db
      tx.writes).trans hgrown messageId row hrow
    refine Bool.eq_false_iff.mpr fun hold => ?_
    have hstill := hkept later hlater
    rw [hrecalled hold] at hstill
    cases hstill
  | _ => exact hasks.elim

/-- A message that was marked read when the request was answered stays read, as long
as no cleanup finds its receipt expired. -/
theorem read_marks_stay (config : Config) {pool : Pool} (hinitial : Initial pool)
    {actions : List Action}
    (hrun : (retainRules messageId userId).AdmitsRun (chat config) pool actions)
    {tid : Nat} {thread : Thread Request Op Op.Res World Reply}
    (hthread : ((chat config).run pool actions).threads[tid]? = some thread)
    {response : CommonResponse} (hreply : thread.prog = .ret (.common response))
    (hok : response.code = ErrorCode.ok.toInt32)
    (hasks : AsksToMark messageId userId thread.start.db
      ((chat config).run pool actions).world.db thread.req)
    {later : List Action}
    (hlater : (retainRules messageId userId).AdmitsRun (chat config)
      ((chat config).run pool actions) later) :
    StaysRead messageId userId
      ((chat config).run ((chat config).run pool actions) later).world := by
  have hgrants := retaining_grants messageId userId config
  have hsafe := run_safe hgrants hinitial.safe hrun
  have hlasting : Lasting messageId userId ((chat config).run pool actions).world := by
    refine run_induct hgrants hinitial.safe hrun ?_
      (fun hsound h hstep => h.step hsound hstep) fun event h => h.env event
    obtain ⟨⟨users, friendships, groups, members, hsql⟩, _, _⟩ := hinitial
    refine ⟨?_, ?_⟩ <;> simp only [World.db, World.log, hsql]
    · exact fun unit hunit => nomatch hunit
    · exact fun htx => nomatch htx
  obtain ⟨unit, hunit, hmarks⟩ := (hsafe.returned hthread hreply).marks hok hasks
  -- the transaction that marked the message stays in the log
  obtain ⟨hlasting, hunit⟩ := run_induct hgrants hsafe hlater
    (p := fun w => Lasting messageId userId w ∧ unit ∈ w.log) ⟨hlasting, hunit⟩
    (fun hsound h hstep => ⟨h.1.step hsound hstep, hstep.log.mem h.2⟩)
    fun event h => ⟨h.1.env event, (env_messages _ event).2.symm ▸ h.2⟩
  exact hlasting.staysRead (run_safe hgrants hsafe hlater).1.keyed (hlasting.kept unit hunit hmarks)

/-! ### A receipt that is cleaned up -/

def readOnce : List Action :=
  runAlone 0 hello { id := 50, clock := 5 } ++
    runAlone 1 (.markMessageRead {} { userId := 2, messageId := 50 }) { clock := 7 }

def cleanLater : List Action := runAlone 2 (.runCleanup {} {} {}) { clock := 7776000008 }

def readUpTo : List Action :=
  runAlone 0 hello { id := 50, clock := 5 } ++
    runAlone 1 (.markConversationRead {}
      { userId := 2, conversationId := ConversationId.single 1 2,
        upToMessageId := 50 }) { clock := 7 }

def recallLater : List Action :=
  runAlone 2 (.recallMessage {} { userId := 1, messageId := 50 }) { clock := 8 }

/-- The message is marked with its conversation and recalled afterwards. -/
theorem readUpTo_stays :
    let final := (chat {}).run ((chat {}).run friends readUpTo) recallLater
    (final.world.db.messages.lookup 50).map MessageRecord.recalled = some true ∧
      StaysRead 50 2 final.world := by
  have hreply : ((chat {}).run friends readUpTo).reply 1 =
      some (.common (fillResponse [] .ok "OK")) := by decide +kernel
  have hasks : ((chat {}).run friends readUpTo).threads[1]?.any (fun thread =>
      AsksToMark 50 2 thread.start.db ((chat {}).run friends readUpTo).world.db
        thread.req) = true := by decide +kernel
  obtain ⟨thread, hthread, hvalue⟩ := Pool.reply_eq_some hreply
  rw [hthread, Option.any_some, decide_eq_true_eq] at hasks
  exact ⟨by decide +kernel, read_marks_stay {} friends_initial (by decide +kernel)
    hthread hvalue rfl hasks (by decide +kernel)⟩

theorem cleanLater_unread : ((chat {}).run friends (readOnce ++ cleanLater)).reply 1 =
        some (.common (fillResponse [] .ok "OK")) ∧
      ((chat {}).run friends (readOnce ++ cleanLater)).world.db.unread 2
        (ConversationId.single 1 2) = 1 ∧
      ((chat {}).run friends (readOnce ++ cleanLater)).world.db.readStates 50 = [] := by
  refine ⟨?_, ?_, ?_⟩ <;> decide +kernel

end NebulaIM.Chat
