import NebulaIM.Chat.Runs

/-!
# What a step commits

A step leaves the rows alone, commits a transaction whose statements are known,
or runs a single statement that commits by itself.  The two disciplines: row
locks alone, and transactions that run one at a time.
-/

namespace NebulaIM.Chat

open Foundation Foundation.Store
open Backend Protocol Message

variable {stmt : Stmt} {owner : UInt64}
variable {D : Discipline} {client : Nat} {w w' : World}

inductive Change (D : Discipline) (client : Nat) (w w' : World) : Prop
  | quiet (db : w'.db = w.db) (log : w'.log = w.log)
  | committed {start : Db} {past : Calls} {calls : List Call} {tx : Tx dialect}
      {choice : Choice} (recorded : Recorded D client start past w)
      (work : Work D.kinds D.sent past calls)
      (runs : Runs D.same start w.db {} calls tx)
      (opened : w.sql.txs.lookup client = some tx)
      (rules : D.rules.call w client .commit choice)
      (db : w'.db = applyAll (D := dialect) w.db tx.writes)
      (log : w'.log = (client, tx.writes) :: w.log)
  | wrote {start : Db} {past : Calls} {stmt : Stmt} {choice : Choice}
      (locked : List Key) (recorded : Recorded D client start past w)
      (plain : Plain D.kinds (D.saved start) stmt)
      (rules : D.rules.call w client (.query stmt) choice)
      (db : w'.db = applyAll (D := dialect) w.db (stmt.plan choice w.db locked).writes)
      (log : w'.log = (client, (stmt.plan choice w.db locked).writes) :: w.log)

theorem Step.change (h : Step D client w w') : Change D client w w' := by
  obtain ⟨start, past, op, choice, hrecorded, hallowed, hrules, rfl⟩ := h.call
  have hquiet (hop : Quiet op) : Change D client w (w.exec client op choice).1 :=
    .quiet (quiet_same op hop w choice).1 (quiet_same op hop w choice).2
  cases op with
  | commit =>
    obtain ⟨calls, hstaged, hwork⟩ := hallowed
    rcases w.commit_cases client choice with hcall | ⟨tx, ok, hopen, hcall⟩ <;>
      rw [hcall]
    · exact .quiet rfl rfl
    · exact .committed hrecorded hwork (hrecorded.draft hstaged hopen) hopen hrules rfl rfl
  | query stmt =>
    rcases w.query_cases client stmt choice with hcall | ⟨_, _, hcall⟩ |
      ⟨locked, _, _, _, hcall⟩ <;> rw [hcall]
    · exact .quiet rfl rfl
    · exact .quiet rfl rfl
    · exact .wrote locked hrecorded hallowed.2 hrules rfl rfl
  | _ => exact hquiet trivial

/-! ### Reads -/

theorem Plain.writes_nil (h : Plain (fun _ => False) (fun _ => False) stmt)
    (choice : Choice) (db : Db) (locked : List Key) :
    (stmt.plan choice db locked).writes = [] := by
  cases stmt <;> first | rfl | exact h.elim | exact h.1.elim

theorem query_unchanged (h : Plain (fun _ => False) (fun _ => False) stmt)
    (client : Nat) (w : World) (choice : Choice) :
    (w.exec client (.query stmt) choice).1 = w := by
  rcases w.query_cases client stmt choice with hcall | ⟨_, _, hcall⟩ |
    ⟨_, _, hwrites, _⟩
  · rw [hcall]
  · rw [hcall]
  · exact absurd (h.writes_nil choice _ _) hwrites

/-! ## Conditions on calls -/

/-- Conditions on the commits and on the clock; all other calls are free. -/
def callRules (commit : World → Nat → Prop) (clock : Int64 → Prop) (w : World)
    (client : Nat) : Op → Choice → Prop
  | .commit, _ => commit w client
  | .nowMs, choice => clock choice.clock
  | _, _ => True

instance (commit : World → Nat → Prop) (clock : Int64 → Prop)
    [∀ w client, Decidable (commit w client)] [DecidablePred clock] (w : World)
    (client : Nat) (op : Op) (choice : Choice) :
    Decidable (callRules commit clock w client op choice) := by
  unfold callRules
  split <;> infer_instance

/-! ## The two disciplines -/

section Disciplines

variable (rules : Rules) (kinds : Kind → Prop) (sent : MessageRecord → Prop)
variable (saved : Db → OfflineMessage → Prop) (clock : Int64 → Prop)

/-- Row locks alone keep transactions apart. -/
def locking (hkinds : ∀ {w request}, rules.spawn w request → kinds request.kind)
    (hclock : ∀ {w client choice}, rules.call w client .nowMs choice → clock choice.clock) :
    Discipline where
  rules := rules
  kinds := kinds
  sent record _ := sent record
  saved := saved
  clock := clock
  same keys before after := ∀ key ∈ keys, Key.Agree before after key
  same_refl keys db key _ := Key.Agree.refl key db
  same_trans h₁ h₂ key hkey := (h₁ key hkey).trans (h₂ key hkey)
  same_mono hsub h key hkey := h key (hsub key hkey)
  same_agree h := h
  same_step {w client other op choice tx} _ hwf hne htx := by
    have hmoves := w.exec_moves client op choice
    exact ((hmoves.rely hwf hne.symm).keeps ((hmoves.lookup_ne hne).trans htx)).2
  same_env {w other event tx} _ _ key _ := by
    cases event with
    | accounts users friendships => exact .accounts key w.db users friendships
    | redis name value => cases value <;> exact .refl key w.db
    | disconnect client => exact .refl key w.db
  kinds_spawn := hkinds
  clock_call := hclock

def OnlyOpen (w : World) (client : Nat) : Prop := ∀ other ∈ w.sql.txs.keys, other = client

instance (w : World) (client : Nat) : Decidable (OnlyOpen w client) :=
  inferInstanceAs (Decidable (∀ other ∈ w.sql.txs.keys, other = client))

/-- Transactions run one at a time: while one is open, only its own request
moves, and accounts do not change. -/
structure Serial : Prop where
  call : ∀ {w client op choice}, rules.call w client op choice → OnlyOpen w client
  accounts : ∀ {w users friendships},
    rules.env w (.accounts users friendships) → w.sql.txs.keys = []

def exclusive (hserial : Serial rules)
    (hkinds : ∀ {w request}, rules.spawn w request → kinds request.kind)
    (hclock : ∀ {w client choice}, rules.call w client .nowMs choice → clock choice.clock) :
    Discipline where
  rules := rules
  kinds := kinds
  sent record _ := sent record
  saved := saved
  clock := clock
  same _ before after := after = before
  same_refl _ _ := rfl
  same_trans h₁ h₂ := h₂.trans h₁
  same_mono _ h := h
  same_agree {_ before after} h key _ := by
    cases h
    exact Key.Agree.refl key before
  same_step hrules _ hne htx :=
    absurd (hserial.call hrules _ (AList.mem_keys.mp
      (AList.lookup_isSome.mp (Option.isSome_of_eq_some htx)))) hne
  same_env {w other event tx} hrules htx := by
    cases event with
    | accounts users friendships =>
      have hmem : other ∈ w.sql.txs.keys := AList.mem_keys.mp
        (AList.lookup_isSome.mp (Option.isSome_of_eq_some htx))
      rw [hserial.accounts hrules] at hmem
      cases hmem
    | redis name value => cases value <;> rfl
    | disconnect client => rfl
  kinds_spawn := hkinds
  clock_call := hclock

end Disciplines

/-! ## What a transaction has staged -/

section Staged

variable {same : List Key → Db → Db → Prop} {start db : Db}
variable {tx final : Tx dialect} {call : Call} {calls : List Call}

theorem Runs.uncons (h : Runs same start db tx (call :: calls) final) :
    ∃ choice locked base, Db.Grown start base ∧ base.Keyed ∧ Db.Grown base db ∧
      (call.stmt.plan choice (applyAll (D := dialect) base tx.writes) locked).result = call.answer ∧
      same ((call.stmt.plan choice (applyAll (D := dialect) base tx.writes)
        locked).locks ++ tx.locks) base db ∧
      Runs same start db
        (extend tx (call.stmt.plan choice
          (applyAll (D := dialect) base tx.writes) locked)) calls final := by
  cases h with
  | cons stmt choice locked base grown keyed reached kept rest =>
    exact ⟨choice, locked, base, grown, keyed, reached, rfl, kept, rest⟩

theorem Runs.writes_nil (h : Runs same start db tx [] final) : final = tx := by
  cases h
  rfl

theorem Runs.writes_mem (h : Runs same start db tx calls final) {write : Write}
    (hmem : write ∈ tx.writes) : write ∈ final.writes := by
  induction h with
  | nil => exact hmem
  | cons stmt choice locked base grown keyed reached kept rest ih =>
    exact ih (List.mem_append_left _ hmem)

theorem Runs.writes_from (h : Runs same start db tx calls final) {write : Write}
    (hmem : write ∈ final.writes) :
    write ∈ tx.writes ∨ ∃ call ∈ calls, ∃ choice base locked,
      write ∈ (call.stmt.plan choice base locked).writes := by
  induction h with
  | nil => exact .inl hmem
  | cons stmt choice locked base grown keyed reached kept rest ih =>
    rcases ih hmem with hold | ⟨call, hcall, hwrite⟩
    · rcases List.mem_append.mp hold with hold | hnew
      · exact .inl hold
      · exact .inr ⟨_, List.mem_cons_self, _, _, _, hnew⟩
    · exact .inr ⟨call, List.mem_cons_of_mem _ hcall, hwrite⟩

end Staged

/-! ### Where messages come from -/

theorem insertMessage_of_mem_plan {choice : Choice} {db : Db} {locked : List Key}
    {record : MessageRecord} (h : .insertMessage record ∈ (stmt.plan choice db locked).writes) :
    stmt = .insertMessage record := by
  cases stmt <;> simp only [Stmt.plan] at h
  case deleteExpired table before limit =>
    have hexpired := List.mem_of_mem_take h
    simp only [List.mem_append, List.mem_filter] at hexpired
    have hmem : .insertMessage record ∈ db.expired before table := by
      rcases hexpired with hmem | hmem <;> exact hmem.1
    cases table <;> simp [Db.expired] at hmem
  all_goals
    repeat' split at h
    all_goals first
      | (simp only [Backend.read, List.not_mem_nil] at h)
      | simp_all [writing]

theorem Work.sent {kinds : Kind → Prop} {sent : MessageRecord → OutboxEvent → Prop}
    {past : Calls} {calls : List Call} (h : Work kinds sent past calls)
    {record : MessageRecord} {call : Call} (hcall : call ∈ calls)
    (hstmt : call.stmt = .insertMessage record) : ∃ event, sent record event := by
  have hsends {new : MessageRecord} {owners : List UInt64} {event : OutboxEvent}
      (hnew : sent new event) (hmem : call ∈ sendCalls new owners event) :
      ∃ event, sent record event := by
    rcases List.mem_cons.mp hmem with rfl | hmem
    · cases hstmt
      exact ⟨event, hnew⟩
    · rcases List.mem_append.mp hmem with hmem | hmem
      · obtain ⟨owner, _, rfl⟩ := List.mem_map.mp hmem
        cases hstmt
      · cases List.mem_singleton.mp hmem
        cases hstmt
  cases h with
  | single _ _ haccepted | group _ _ haccepted => exact hsends haccepted hcall
  | pullNothing => cases hcall
  | _ =>
    simp only [readCalls, List.mem_cons, List.not_mem_nil, or_false] at hcall
    rcases hcall with rfl | rfl | rfl | rfl <;> cases hstmt

/-- Whom the statements write rows for. -/
def listedOwners (calls : List Call) : List UInt64 :=
  calls.filterMap fun call =>
    match call.stmt with
    | .upsertOne row _ => some row.ownerUserId
    | _ => none

theorem listedOwners_sendCalls (record : MessageRecord) (owners : List UInt64)
    (event : OutboxEvent) : listedOwners (sendCalls record owners event) = owners := by
  simp [listedOwners, sendCalls, listCall, listing, List.filterMap_map, Function.comp_def]

theorem Work.owners_nodup {past : Calls} {calls : List Call} (h : Work D.kinds D.sent past calls)
    (hevidence : ∀ exchange ∈ past, Evidence D w exchange) :
    (listedOwners calls).Nodup := by
  cases h with
  | single event _ _ _ _ hapart _ =>
    rw [listedOwners_sendCalls]
    exact List.nodup_cons.mpr ⟨fun h => hapart (List.mem_singleton.mp h), List.nodup_singleton _⟩
  | group event _ _ _ _ _ hlisted =>
    rw [listedOwners_sendCalls]
    exact hevidence _ hlisted
  | _ => simp [listedOwners, readCalls]

theorem Step.message (h : Step D client w w') {id : UInt64} {row : MessageRecord}
    (hrow : w'.db.messages.lookup id = some row) :
    (∃ old, w.db.messages.lookup id = some old ∧ row.origin = old.origin) ∨
      ∃ new event, D.sent new event ∧ new.messageId = id ∧ row.origin = new.origin := by
  cases h.change with
  | quiet hdb _ => exact .inl ⟨row, hdb ▸ hrow, rfl⟩
  | committed _ hwork hruns _ _ hdb _ =>
    rw [hdb] at hrow
    refine (message_applyAll hrow).imp_right ?_
    rintro ⟨new, hnew, hid, horigin⟩
    rcases hruns.writes_from hnew with hnone | ⟨call, hcall, _, _, _, hplan⟩
    · cases hnone
    · obtain ⟨event, hsent⟩ := hwork.sent hcall (insertMessage_of_mem_plan hplan)
      exact ⟨new, event, hsent, hid, horigin⟩
  | wrote _ _ hplain _ hdb _ =>
    rw [hdb] at hrow
    refine (message_applyAll hrow).imp_right ?_
    rintro ⟨new, hnew, _, _⟩
    rw [insertMessage_of_mem_plan hnew] at hplain
    exact hplain.elim

/-! ### One after the other -/

/-- The call leaves `db'` behind when it runs on the rows `db`. -/
def Does (db : Db) (call : Call) (db' : Db) : Prop :=
  ∃ choice locked, (call.stmt.plan choice db locked).result = call.answer ∧
    db' = applyAll (D := dialect) db (call.stmt.plan choice db locked).writes

/-- Each call runs on the rows that the ones before left behind. -/
def Serially : Db → List Call → Db → Prop
  | db, [], final => final = db
  | db, call :: calls, final => ∃ mid, Does db call mid ∧ Serially mid calls final

theorem Does.keyed {db db' : Db} {call : Call} (h : Does db call db')
    (hkeyed : db.Keyed) : db'.Keyed := by
  obtain ⟨choice, locked, _, rfl⟩ := h
  exact hkeyed.applyAll _

theorem Runs.serially {start db : Db} {tx final : Tx dialect} {calls : List Call}
    (h : Runs (fun _ before after => after = before) start db tx calls final) :
    Serially (applyAll (D := dialect) db tx.writes) calls
      (applyAll (D := dialect) db final.writes) := by
  induction h with
  | nil tx => rfl
  | cons stmt choice locked base grown keyed reached kept rest ih =>
    subst kept
    rw [extend, applyAll_append] at ih
    exact ⟨_, ⟨choice, locked, rfl, rfl⟩, ih⟩

/-! ### Sends -/

section Send

variable {start db : Db} {tx final : Tx dialect} {calls : List Call}
variable {record : MessageRecord} {owners : List UInt64} {event : OutboxEvent}

def listed (db : Db) (record : MessageRecord) (owner : UInt64) : Conversation :=
  db.upserted (listing record owner) (owner != record.fromUserId)

theorem listed_columns (hkeyed : db.Keyed) (record : MessageRecord) (owner : UInt64) :
    (listed db record owner).ownerUserId = owner ∧
      (listed db record owner).conversationId = record.conversationId ∧
      (listed db record owner).deleted = false :=
  upserted_columns hkeyed (listing record owner) (owner != record.fromUserId)

theorem listed_unreadCount (db : Db) (record : MessageRecord) (owner : UInt64) :
    (listed db record owner).unreadCount =
      ((db.conversations.lookup (owner, record.conversationId)).elim 0 Conversation.unreadCount) +
      if record.fromUserId ≠ owner then 1 else 0 := by
  have hflag : (owner != record.fromUserId) = decide (record.fromUserId ≠ owner) := by
    by_cases h : owner = record.fromUserId <;> simp [h, Ne.symm]
  simp only [listed, Db.upserted, listing, hflag]
  cases db.conversations.lookup (owner, record.conversationId) <;> simp

theorem Runs.upserts (h : Runs D.same start db tx (owners.map (listCall record) ++ calls) final)
    (hnodup : owners.Nodup)
    (hclear : ∀ owner ∈ owners, ∀ write ∈ tx.writes,
      Key.conversation owner record.conversationId ∉ write.touches) :
    ∃ mid, mid.writes = tx.writes ++
        owners.map (fun owner => .putConversation (listed db record owner)) ∧
      Runs D.same start db mid calls final := by
  induction owners generalizing tx with
  | nil => exact ⟨tx, by simp, h⟩
  | cons owner owners ih =>
    obtain ⟨hother, hnodup⟩ := List.nodup_cons.mp hnodup
    obtain ⟨choice, locked, base, _, hkeyed, _, _, hsame, hrest⟩ := h.uncons
    have htouches : (Write.putConversation
        (listed (applyAll (D := dialect) base tx.writes) record owner)).touches =
          [.conversation owner record.conversationId] := by
      obtain ⟨howner, hconversation, _⟩ := listed_columns (hkeyed.applyAll tx.writes) record owner
      rw [Write.touches, howner, hconversation]
    have hlocked : Key.conversation owner record.conversationId ∈
        ((listCall record owner).stmt.plan choice
          (applyAll (D := dialect) base tx.writes) locked).locks ++ tx.locks := by
      refine List.mem_append_left _ (List.mem_flatMap.mpr ⟨_, List.mem_singleton.mpr rfl, ?_⟩)
      exact htouches ▸ List.mem_cons_self
    have hrow : (applyAll (D := dialect) base tx.writes).conversations.lookup
        (owner, record.conversationId) = db.conversations.lookup (owner, record.conversationId) :=
      (lookup_conversations_frame base (hclear owner List.mem_cons_self)).trans
        (D.same_agree hsame _ hlocked).symm
    have hlisted : listed (applyAll (D := dialect) base tx.writes) record owner =
        listed db record owner := by
      simp only [listed, Db.upserted, listing, hrow]
    have hwrites : (extend tx ((listCall record owner).stmt.plan choice
        (applyAll (D := dialect) base tx.writes) locked)).writes =
          tx.writes ++ [.putConversation (listed db record owner)] := by
      rw [← hlisted]
      rfl
    obtain ⟨mid, hmid, hruns⟩ := ih hrest hnodup fun other hmem write hwrite => by
      rw [hwrites] at hwrite
      rcases List.mem_append.mp hwrite with hold | hnew
      · exact hclear other (List.mem_cons_of_mem _ hmem) write hold
      · cases List.mem_singleton.mp hnew
        rw [← hlisted, htouches, List.mem_singleton]
        rintro ⟨⟩
        exact hother hmem
    exact ⟨mid, by simp [hmid, hwrites], hruns⟩

theorem Runs.insertsEvent (h : Runs D.same start db tx (⟨.insertEvent event, true⟩ :: calls) final)
    (hclear : ∀ write ∈ tx.writes, Key.event event.eventId ∉ write.touches) :
    db.outbox.lookup event.eventId = none ∧ ∃ id mid,
      mid.writes = tx.writes ++ [.insertEvent { event with id := id }] ∧
        Runs D.same start db mid calls final := by
  obtain ⟨choice, locked, base, _, _, _, hresult, hsame, hrest⟩ := h.uncons
  simp only [Stmt.plan] at hresult hsame hrest
  split at hresult
  case isFalse => cases hresult
  case isTrue hfree =>
    rw [if_pos hfree] at hsame hrest
    have hagree : db.outbox.lookup event.eventId = base.outbox.lookup event.eventId :=
      D.same_agree hsame (.event event.eventId) List.mem_cons_self
    exact ⟨hagree.trans ((lookup_outbox_frame base hclear).symm.trans hfree),
      choice.id, _, rfl, hrest⟩

/-- What a send commits, on the rows that it is committed on. -/
structure Sends (db : Db) (record : MessageRecord) (owners : List UInt64)
    (writes : List Write) : Prop where
  fresh : db.messages.lookup record.messageId = none
  writes : ∃ event, writes = .insertMessage record ::
    (owners.map (fun owner => .putConversation (listed db record owner)) ++ [.insertEvent event])

/-- The keys of the message were free, and its event is stored with it. -/
theorem Runs.stores (h : Runs D.same start db {} (sendCalls record owners event) tx)
    (hnodup : owners.Nodup) :
    db.messages.lookup record.messageId = none ∧
      (record.clientSequenceId ≠ 0 → ∀ id,
        ¬ db.SentAs record.fromUserId record.clientSequenceId id) ∧
      db.outbox.lookup event.eventId = none ∧
      ∃ id, tx.writes = .insertMessage record ::
        (owners.map (fun owner => .putConversation (listed db record owner)) ++
          [.insertEvent { event with id := id }]) := by
  obtain ⟨choice, locked, base, _, _, _, hresult, hsame, hrest⟩ := h.uncons
  simp only [Stmt.plan] at hresult hsame hrest
  split at hresult
  case isFalse => cases hresult
  case isTrue hfree =>
    simp only [if_pos hfree, extend, writing, List.nil_append] at hsame hrest
    have hagree := D.same_agree hsame
    simp only [List.flatMap_singleton, List.append_nil, Write.touches] at hagree
    have hmessage : db.messages.lookup record.messageId =
        base.messages.lookup record.messageId := by
      refine hagree (.message record.messageId) ?_
      split <;> exact List.mem_cons_self
    obtain ⟨mid, hmid, hlast⟩ := hrest.upserts hnodup fun owner _ write hwrite => by
      cases List.mem_singleton.mp hwrite
      simp only [Write.touches]
      split <;> simp
    obtain ⟨hevent, id, last, hwrites, hdone⟩ := hlast.insertsEvent fun write hwrite => by
      simp only [hmid, List.mem_append, List.mem_singleton, List.mem_map] at hwrite
      rcases hwrite with rfl | ⟨owner, _, rfl⟩
      · simp only [Write.touches]
        split <;> simp
      · simp [Write.touches]
    refine ⟨hmessage.trans hfree.1, fun hne id hsent => ?_, hevent, id, ?_⟩
    · have hsender := hagree (.sender record.fromUserId record.clientSequenceId)
        (by simp [hne]) hne id
      exact findSequence_eq_none (hfree.2.resolve_left hne) id (hsender.mpr hsent)
    · rw [hdone.writes_nil, hwrites, hmid]
      simp

theorem Runs.sends (h : Runs D.same start db {} (sendCalls record owners event) tx)
    (hnodup : owners.Nodup) : Sends db record owners tx.writes := by
  obtain ⟨hfree, _, _, id, hwrites⟩ := h.stores hnodup
  exact ⟨hfree, _, hwrites⟩

variable {writes : List Write}

theorem Sends.tables (h : Sends db record owners writes) :
    (applyAll (D := dialect) db writes).messages = (db.apply (.insertMessage record)).messages ∧
      (applyAll (D := dialect) db writes).receipts = db.receipts := by
  obtain ⟨event, rfl⟩ := h.writes
  have hputs : ∀ write ∈ owners.map (fun owner =>
      Write.putConversation (listed db record owner)),
      ∃ row, write = .putConversation row := by
    intro write hmem
    obtain ⟨owner, _, rfl⟩ := List.mem_map.mp hmem
    exact ⟨_, rfl⟩
  rw [applyAll_cons, applyAll_append]
  exact applyAll_rows (db.apply (.insertMessage record)) hputs

theorem Sends.lookup_conversations (h : Sends db record owners writes) (hkeyed : db.Keyed)
    {id : UInt64} {row : Conversation}
    (hrow : (applyAll (D := dialect) db writes).conversations.lookup (owner, id) = some row) :
    (db.conversations.lookup (owner, id) = some row ∧
      ¬ (owner ∈ owners ∧ id = record.conversationId)) ∨
    (owner ∈ owners ∧ id = record.conversationId ∧ row = listed db record owner) := by
  obtain ⟨event, rfl⟩ := h.writes
  have hcolumns := listed_columns hkeyed record
  rcases lookup_conversations_applyAll hrow with ⟨hold, hnone⟩ | ⟨hput, hkey⟩
  · refine .inl ⟨hold, ?_⟩
    rintro ⟨howner, rfl⟩
    refine hnone (listed db record owner) ?_ (Prod.ext (hcolumns owner).1 (hcolumns owner).2.1)
    exact List.mem_cons_of_mem _ (List.mem_append_left _ (List.mem_map.mpr ⟨owner, howner, rfl⟩))
  · have hmem : .putConversation row ∈ owners.map fun owner =>
        Write.putConversation (listed db record owner) := by
      simpa using hput
    obtain ⟨member, hmember, hlisted⟩ := List.mem_map.mp hmem
    cases hlisted
    obtain ⟨rfl, rfl⟩ := Prod.mk.inj hkey
    rw [(hcolumns member).1]
    exact .inr ⟨hmember, (hcolumns member).2.1, rfl⟩

theorem Sends.isSome_listed (h : Sends db record owners writes) (hkeyed : db.Keyed)
    (howner : owner ∈ owners) :
    ((applyAll (D := dialect) db writes).conversations.lookup
      (owner, record.conversationId)).isSome := by
  obtain ⟨event, rfl⟩ := h.writes
  obtain ⟨hcolumn, hid, _⟩ := listed_columns hkeyed record owner
  refine isSome_conversations_applyAll (.inr ⟨listed db record owner, ?_, ?_⟩)
  · exact List.mem_cons_of_mem _ (List.mem_append_left _ (List.mem_map.mpr ⟨owner, howner, rfl⟩))
  · rw [hcolumn, hid]

theorem Sends.mem_owners (h : Sends db record owners writes) (hkeyed : db.Keyed)
    (hmem : owner ∈ (writes.filterMap Write.conversation).map Conversation.ownerUserId) :
    owner ∈ owners := by
  obtain ⟨event, rfl⟩ := h.writes
  simp only [Write.conversation, List.filterMap_cons, List.filterMap_append,
    List.filterMap_map, List.filterMap_nil, List.append_nil, List.mem_map,
    List.mem_filterMap, Function.comp_apply, Option.some.injEq] at hmem
  obtain ⟨_, ⟨member, hmember, rfl⟩, rfl⟩ := hmem
  rw [(listed_columns hkeyed record member).1]
  exact hmember

/-- A step stores a message with the rows of those who see it. -/
inductive Stored (D : Discipline) (client : Nat) (w w' : World) : Prop
  | mk {record : MessageRecord} {event : OutboxEvent} {owners : List UInt64}
      {tx : Tx dialect} {choice : Choice} (sends : Sends w.db record owners tx.writes)
      (db : w'.db = applyAll (D := dialect) w.db tx.writes)
      (opened : w.sql.txs.lookup client = some tx)
      (rules : D.rules.call w client .commit choice) (accepted : D.sent record event)
      (fresh : record.recalled = false)
      (kind : (D.kinds .single ∧ record.groupId = 0 ∧
          record.fromUserId ≠ record.toUserId ∧ record.conversationId =
            ConversationId.single record.fromUserId record.toUserId ∧
          owners = [record.fromUserId, record.toUserId]) ∨
        (D.kinds .group ∧ record.groupId ≠ 0 ∧
          record.conversationId = ConversationId.group record.groupId))

end Send

/-! ### What an answer names -/

section Answers

variable {tid : Nat} {start : Db} {past : Calls}

theorem Found.stored {fromUserId : UInt64} {clientSequenceId : UInt32}
    {row : MessageRecord} (h : Found fromUserId clientSequenceId past row)
    (hkeyed : w.db.Keyed) (hrecorded : Recorded D tid start past w) :
    row.fromUserId = fromUserId ∧ row.clientSequenceId = clientSequenceId ∧
      ∃ now, w.db.messages.lookup row.messageId = some now ∧ now.origin = row.origin := by
  rcases h.returned with ⟨id, hmem, hfrom, hsequence⟩ | hmem
  · obtain ⟨now, hnow, horigin, _⟩ := hrecorded.evidence _ hmem
    have hid : row.messageId = id := by
      have hcolumn := congrArg MessageRecord.messageId horigin
      exact hcolumn.symm.trans (hkeyed.messages id now hnow)
    exact ⟨hfrom, hsequence, now, hid ▸ hnow, horigin⟩
  · exact hrecorded.evidence _ hmem

theorem Stores.stored {record : MessageRecord} {owners : List UInt64}
    (h : Stores D record owners past) (hrecorded : Recorded D tid start past w) :
    ∃ now, w.db.messages.lookup record.messageId = some now ∧ now.origin = record.origin := by
  obtain ⟨event, earlier, hcommit, hstaged, hwork⟩ := h
  have hnodup := hwork.owners_nodup fun exchange hmem =>
    hrecorded.evidence exchange (hcommit.subset (List.mem_cons_of_mem _ hmem))
  rw [listedOwners_sendCalls] at hnodup
  obtain ⟨db, tx, hruns, _, hgrown⟩ := hrecorded.committed hcommit hstaged
  have hsends := hruns.sends hnodup
  have hrow : (applyAll (D := dialect) db tx.writes).messages.lookup
      record.messageId = some record := by
    rw [hsends.tables.1, lookup_insertMessage, if_pos ⟨rfl, hsends.fresh⟩]
  obtain ⟨now, hnow, horigin, _⟩ := hgrown _ _ hrow
  exact ⟨now, hnow, horigin⟩

end Answers

/-! ### Acknowledgements and pulls -/

section Copies

variable {start db : Db} {tx : Tx dialect}
variable {userId messageId : UInt64}

theorem Runs.acks {now : Int64}
    (h : Runs D.same start db {} [⟨.upsertDelivered messageId userId now, true⟩,
      ⟨.markAsAcked userId messageId, true⟩] tx) :
    ∃ receipt, tx.writes = [.putReceipt receipt] ∨
      ∃ old at_, db.offline.lookup (userId, messageId) = some old ∧
        tx.writes = [.putReceipt receipt,
          .putOffline { old with status := .acked, updatedAt := at_ }] := by
  obtain ⟨choice, locked, base, _, _, _, _, _, hrest⟩ := h.uncons
  obtain ⟨choice', locked', base', _, hkeyed, _, _, hsame, hdone⟩ := hrest.uncons
  have hwrites : tx.writes = .putReceipt (base.delivered messageId userId now) ::
      (base'.ackedOffline userId messageId choice'.clock).toList.map .putOffline := by
    rw [hdone.writes_nil]
    rfl
  refine ⟨base.delivered messageId userId now, ?_⟩
  cases hold : base'.offline.lookup (userId, messageId) with
  | none => exact .inl (by rw [hwrites, Db.ackedOffline, hold]; rfl)
  | some old =>
    refine .inr ⟨old, choice'.clock, ?_, by rw [hwrites, Db.ackedOffline, hold]; rfl⟩
    have hlocked : Key.offline userId messageId ∈
        ((base'.ackedOffline userId messageId choice'.clock).toList.map
          Write.putOffline).flatMap Write.touches := by
      obtain ⟨huser, hmessage⟩ := Prod.mk.inj (hkeyed.offline _ old hold)
      simp [Db.ackedOffline, hold, Write.touches, huser, hmessage]
    have hagree : db.offline.lookup (userId, messageId) =
        base'.offline.lookup (userId, messageId) :=
      D.same_agree hsame _ (List.mem_append_left _ hlocked)
    exact hagree.trans hold

theorem Runs.pulls {messageIds : List UInt64}
    (h : Runs D.same start db {} [⟨.markBatchAsPulled userId messageIds, true⟩] tx) :
    ∃ (rows : List OfflineMessage) (at_ : Int64),
      (tx.writes = rows.map fun row =>
        .putOffline { row with status := .pulled, updatedAt := at_ }) ∧
      ∀ row ∈ rows, db.offline.lookup (row.userId, row.messageId) = some row ∧
        row.Pullable := by
  obtain ⟨choice, locked, base, _, hkeyed, _, _, hsame, hdone⟩ := h.uncons
  refine ⟨(Table.rows base.offline).filter fun row => row.userId = userId ∧
    row.messageId ∈ messageIds ∧ row.Pullable, choice.clock, ?_, fun old hold => ?_⟩
  · rw [hdone.writes_nil]
    simp [extend, Stmt.plan, Db.pulledOffline, writing, Function.comp_def, applyAll]
  · obtain ⟨hrows, hcolumns⟩ := List.mem_filter.mp hold
    have hlocked : Key.offline old.userId old.messageId ∈
        ((base.pulledOffline userId messageIds choice.clock).map
          Write.putOffline).flatMap Write.touches :=
      List.mem_flatMap.mpr ⟨_, List.mem_map_of_mem (List.mem_map_of_mem hold),
        List.mem_singleton.mpr rfl⟩
    have hagree : db.offline.lookup (old.userId, old.messageId) =
        base.offline.lookup (old.userId, old.messageId) :=
      D.same_agree hsame _ (List.mem_append_left _ hlocked)
    obtain ⟨key, hkey⟩ := Table.mem_rows.mp hrows
    cases hkeyed.offline key old hkey
    exact ⟨hagree.trans hkey, (of_decide_eq_true hcolumns).2.2⟩

end Copies

end NebulaIM.Chat
