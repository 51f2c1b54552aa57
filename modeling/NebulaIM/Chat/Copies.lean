import NebulaIM.Chat.Commits
import NebulaIM.Backend.Offline

/-!
# Offline copies until they are acknowledged

Saves run outside transactions, pulls and acknowledgements inside them.  A
transaction has locked the copies it marks, so at its commit it finds them as it
has read them.  The rows follow what the log says: the saves and acknowledgements
in the order of their commits.
-/

namespace NebulaIM.Chat

open Foundation Foundation.Store
open Backend Protocol Message
open Foundation.Wire (Bytes)

variable {stmt : Stmt} {ctx : RpcContext}
variable {db : Db} {userId messageId : UInt64}

/-! ## The requests on copies -/

def Request.OnCopies : Request → Prop
  | .insertOfflineMessage _ _ _ _ | .pullOfflineMessages _ _ | .ackMessage _ _ => True
  | _ => False

instance : DecidablePred Request.OnCopies := by
  intro request
  unfold Request.OnCopies
  split <;> infer_instance

def copyRules : Rules where
  spawn _ request := request.OnCopies

instance (w : World) (request : Request) : Decidable (copyRules.spawn w request) :=
  inferInstanceAs (Decidable request.OnCopies)

instance (w : World) (client : Nat) (op : Op) (choice : Choice) :
    Decidable (copyRules.call w client op choice) := inferInstanceAs (Decidable True)

instance (w : World) (event : Env) : Decidable (copyRules.env w event) :=
  inferInstanceAs (Decidable True)

def Saving : Request → Stmt → Prop
  | .insertOfflineMessage userId messageId payload createdAt, stmt =>
    stmt = .insertOfflineMessage
      { userId := userId, messageId := messageId, payload := payload,
        createdAt := createdAt, updatedAt := createdAt }
  | _, _ => False

/-- The statements of the transaction of a request. -/
def Marking : Request → Stmt → Prop
  | .ackMessage _ request, stmt =>
    (∃ now, stmt = .upsertDelivered request.messageId request.userId now) ∨
      stmt = .markAsAcked request.userId request.messageId
  | .pullOfflineMessages _ request, stmt =>
    ∃ messageIds, stmt = .markBatchAsPulled request.userId messageIds
  | _, _ => False

def CopyCall (request : Request) : Op → Prop
  | .begin | .commit | .rollback | .nowMs => True
  | .exec stmt => Marking request stmt
  | .query stmt => Plain (fun _ => False) (fun _ => False) stmt ∨ Saving request stmt
  | _ => False

variable {request : Request}

theorem only_read {α : Type} {f : stmt.Res → Service α}
    (hplain : Plain (fun _ => False) (fun _ => False) stmt)
    (hf : ∀ answer, (f answer).Only (CopyCall request)) :
    (query stmt >>= f).Only (CopyCall request) :=
  ⟨.inl hplain, hf⟩

theorem only_transaction {α : Type} {unavailable : α}
    {body : Service α} (hbody : body.Only (CopyCall request)) :
    (transaction unavailable body).Only (CopyCall request) := by
  refine ⟨trivial, fun ok => ?_⟩
  cases ok with
  | false => trivial
  | true => exact hbody.bind fun value => ⟨trivial, fun _ => trivial⟩

theorem ackMessage_only (ctx : RpcContext) (request : AckMessageRequest) :
    (ackMessage ctx request).Only (CopyCall (.ackMessage ctx request)) := by
  simp only [ackMessage]
  split
  · trivial
  split
  · trivial
  refine only_read trivial fun user => ?_
  split
  · trivial
  refine only_read trivial fun found => ?_
  split
  · next record =>
    have hreceive : (canReceiveMessage request.userId record).Only
        (CopyCall (.ackMessage ctx request)) := by
      simp only [canReceiveMessage, canReadConversation]
      repeat' split
      all_goals first | exact trivial | exact ⟨.inl trivial, fun _ => trivial⟩
    refine hreceive.bind fun ok => ?_
    split
    · trivial
    refine only_transaction ⟨trivial, fun now => ?_⟩
    refine ⟨.inl ⟨now, rfl⟩, fun ok => ?_⟩
    cases ok with
    | false => trivial
    | true =>
      refine ⟨.inr rfl, fun ok => ?_⟩
      cases ok with
      | false => trivial
      | true =>
        refine ⟨trivial, fun ok => ?_⟩
        cases ok <;> trivial
  · trivial

theorem pullOfflineMessages_only (options : MessageServiceOptions)
    (ctx : RpcContext) (request : PullOfflineMessagesRequest) :
    (pullOfflineMessages options ctx request).Only
      (CopyCall (.pullOfflineMessages ctx request)) := by
  simp only [pullOfflineMessages]
  split
  · trivial
  split
  · trivial
  refine only_read trivial fun user => ?_
  split
  · trivial
  refine only_read trivial fun rows => ?_
  refine only_transaction ?_
  have hmark : (markBatchAsPulled request.userId ((deliverable rows).map Prod.fst)).Only
        (CopyCall (.pullOfflineMessages ctx request)) := by
    simp only [markBatchAsPulled]
    split
    · trivial
    · exact ⟨⟨_, rfl⟩, fun _ => trivial⟩
  refine hmark.bind fun ok => ?_
  cases ok with
  | false => trivial
  | true =>
    refine ⟨trivial, fun ok => ?_⟩
    cases ok <;> trivial

theorem handle_only {config : Config} (h : request.OnCopies) :
    (handle config request).Only (CopyCall request) := by
  cases request with
  | insertOfflineMessage userId messageId payload createdAt => exact ⟨.inr rfl, fun _ => trivial⟩
  | ackMessage ctx request => exact (ackMessage_only ctx request).bind fun _ => trivial
  | pullOfflineMessages ctx request =>
    exact (pullOfflineMessages_only config.message ctx request).bind fun _ => trivial
  | _ => exact h.elim

/-! ## What the log says about a copy -/

/-- A copy as its saves and acknowledgements see it. -/
structure Copy where
  payload : Option Bytes := none
  acked : Bool := false
  deriving DecidableEq, Repr

/-- A save counts until the copy is acknowledged. -/
def Copy.save (copy : Copy) (payload : Bytes) : Copy :=
  if copy.acked then copy else { copy with payload := some payload }

def Copy.ack (copy : Copy) : Copy := { copy with acked := true }

def Copy.ofRow : Option OfflineMessage → Copy
  | none => {}
  | some row => ⟨some row.payload, row.status == .acked⟩

def onCopy (userId messageId : UInt64) : Write → Bool
  | .putOffline row => row.userId == userId && row.messageId == messageId
  | _ => false

/-- The committed saves and acknowledgements of a copy, the newest first.  An
acknowledgement counts if there was a copy to mark. -/
def copyOf (requests : List Request) (userId messageId : UInt64) : List (Nat × List Write) → Copy
  | [] => {}
  | (tid, writes) :: log =>
    if writes.any (onCopy userId messageId) then
      match requests[tid]? with
      | some (.insertOfflineMessage _ _ payload _) =>
        (copyOf requests userId messageId log).save payload
      | some (.ackMessage _ _) => (copyOf requests userId messageId log).ack
      | _ => copyOf requests userId messageId log
    else copyOf requests userId messageId log

theorem any_onCopy {writes : List Write} : writes.any (onCopy userId messageId) = true ↔
      ∃ row, .putOffline row ∈ writes ∧ (row.userId, row.messageId) = (userId, messageId) := by
  rw [List.any_eq_true]
  constructor
  · rintro ⟨write, hmem, hcopy⟩
    cases write with
    | putOffline row =>
      simp only [onCopy, Bool.and_eq_true, beq_iff_eq] at hcopy
      exact ⟨row, hmem, Prod.ext hcopy.1 hcopy.2⟩
    | _ => cases hcopy
  · rintro ⟨row, hmem, hkey⟩
    obtain ⟨huser, hmessage⟩ := Prod.mk.inj hkey
    exact ⟨_, hmem, by simp [onCopy, huser, hmessage]⟩

theorem copyOf_append {requests : List Request} (request : Request) {log : List (Nat × List Write)}
    (hknown : ∀ entry ∈ log, entry.1 < requests.length) :
    copyOf (requests ++ [request]) userId messageId log =
      copyOf requests userId messageId log := by
  induction log with
  | nil => rfl
  | cons entry log ih =>
    simp only [copyOf, ih fun other hmem => hknown other (List.mem_cons_of_mem _ hmem),
      List.getElem?_append_left (hknown entry List.mem_cons_self)]

/-! ## Transactions on copies -/

section Drafts

variable {request : Request} {requests : List Request} {writes : List Write}
variable {row : OfflineMessage} {tid : Nat} {log : List (Nat × List Write)}

def MarksCopy (db : Db) (row : OfflineMessage) (request : Request) : Prop :=
  ∃ old, db.offline.lookup (row.userId, row.messageId) = some old ∧ row.payload = old.payload ∧
    match request with
    | .ackMessage _ _ => row.status = .acked
    | .pullOfflineMessages _ _ => row.status = .pulled ∧ old.Pullable
    | _ => False

structure Draft (db : Db) (request : Request) (writes : List Write) : Prop where
  marks : ∀ {row}, .putOffline row ∈ writes → MarksCopy db row request
  keeps : ∀ {userId messageId}, .removeOffline userId messageId ∉ writes

theorem Draft.nil (db : Db) (request : Request) : Draft db request [] :=
  ⟨fun hmem => absurd hmem List.not_mem_nil, List.not_mem_nil⟩

theorem Draft.kept {before after : Db} (h : Draft before request writes)
    (hsame : ∀ row, .putOffline row ∈ writes → after.offline.lookup (row.userId, row.messageId) =
        before.offline.lookup (row.userId, row.messageId)) :
    Draft after request writes := by
  refine ⟨fun {row} hmem => ?_, h.keeps⟩
  have hmarked := h.marks hmem
  rw [MarksCopy, ← hsame row hmem] at hmarked
  exact hmarked

/-- What the transaction sees of a copy: it is in the table, or it is marked
there. -/
theorem Draft.view (h : Draft db request writes)
    (hrow : (applyAll (D := dialect) db writes).offline.lookup (userId, messageId) = some row) :
    db.offline.lookup (userId, messageId) = some row ∨
      ((row.userId, row.messageId) = (userId, messageId) ∧ MarksCopy db row request) := by
  obtain ⟨hsame, _⟩ | ⟨put, hmem, hkey, hput⟩ :=
    lookup_offline_applyAll db writes (userId, messageId) h.keeps
  · exact .inl (hsame.symm.trans hrow)
  · cases hrow.symm.trans hput
    exact .inr ⟨hkey, h.marks hmem⟩

theorem Draft.ack {ack : AckMessageRequest} (h : Draft db (.ackMessage ctx ack) writes)
    (hkeyed : db.Keyed) (now : Int64)
    (hrow : row ∈ (applyAll (D := dialect) db writes).ackedOffline userId messageId now) :
    MarksCopy db row (.ackMessage ctx ack) := by
  obtain ⟨seen, hseen, rfl⟩ := Option.map_eq_some_iff.mp hrow
  obtain ⟨rfl, rfl⟩ := Prod.mk.inj ((hkeyed.applyAll writes).offline _ _ hseen)
  rcases h.view hseen with hold | ⟨_, old, hold, hpayload, _⟩
  · exact ⟨seen, hold, rfl, rfl⟩
  · exact ⟨old, hold, hpayload, rfl⟩

theorem Draft.pull {pull : PullOfflineMessagesRequest}
    (h : Draft db (.pullOfflineMessages ctx pull) writes) (hkeyed : db.Keyed)
    {messageIds : List UInt64} (now : Int64)
    (hrow : row ∈ (applyAll (D := dialect) db writes).pulledOffline userId messageIds now) :
    MarksCopy db row (.pullOfflineMessages ctx pull) := by
  obtain ⟨seen, hmem, rfl⟩ := List.mem_map.mp hrow
  obtain ⟨hrows, hcolumns⟩ := List.mem_filter.mp hmem
  obtain ⟨_, _, hpullable⟩ := of_decide_eq_true hcolumns
  obtain ⟨key, hseen⟩ := Table.mem_rows.mp hrows
  cases (hkeyed.applyAll writes).offline key seen hseen
  rcases h.view hseen with hold | ⟨_, old, hold, hpayload, _, hopen⟩
  · exact ⟨seen, hold, rfl, rfl, hpullable⟩
  · exact ⟨old, hold, hpayload, rfl, hopen⟩

theorem Draft.exec (h : Draft db request writes) (hkeyed : db.Keyed)
    (hmarking : Marking request stmt) (choice : Choice) (locked : List Key) :
    Draft db request (writes ++
      (stmt.plan choice (applyAll (D := dialect) db writes) locked).writes) where
  marks {row} hmem := by
    rcases List.mem_append.mp hmem with hold | hnew
    · exact h.marks hold
    cases request with
    | ackMessage ctx ack =>
      rcases hmarking with ⟨now, rfl⟩ | rfl
      · cases List.mem_singleton.mp hnew
      · obtain ⟨marked, hmarked, heq⟩ := List.mem_map.mp hnew
        cases heq
        exact h.ack hkeyed choice.clock (Option.mem_toList.mp hmarked)
    | pullOfflineMessages ctx pull =>
      obtain ⟨messageIds, rfl⟩ := hmarking
      obtain ⟨marked, hmarked, heq⟩ := List.mem_map.mp hnew
      cases heq
      exact h.pull hkeyed choice.clock hmarked
    | _ => exact hmarking.elim
  keeps {userId messageId} hmem := by
    rcases List.mem_append.mp hmem with hold | hnew
    · exact h.keeps hold
    obtain ⟨_, _, _, rfl⟩ := removeOffline_of_mem_plan hnew
    cases request with
    | ackMessage ctx ack => rcases hmarking with ⟨now, hstmt⟩ | hstmt <;> cases hstmt
    | pullOfflineMessages ctx pull =>
      obtain ⟨_, hstmt⟩ := hmarking
      cases hstmt
    | _ => exact hmarking

/-! ## Units of work on a copy -/

theorem copyOf_commit (h : Draft db request writes) (hrequest : requests[tid]? = some request)
    (hlog : copyOf requests userId messageId log =
      Copy.ofRow (db.offline.lookup (userId, messageId))) :
    copyOf requests userId messageId ((tid, writes) :: log) =
      Copy.ofRow ((applyAll (D := dialect) db writes).offline.lookup (userId, messageId)) := by
  obtain ⟨hsame, hnone⟩ | ⟨row, hmem, hkey, hrow⟩ :=
    lookup_offline_applyAll db writes (userId, messageId) h.keeps
  · have hany : ¬ writes.any (onCopy userId messageId) = true := by
      rw [any_onCopy]
      rintro ⟨row, hmem, hkey⟩
      exact hnone row hmem hkey
    rw [copyOf, if_neg hany, hlog, hsame]
  · obtain ⟨old, hold, hpayload, hmark⟩ := h.marks hmem
    rw [hkey] at hold
    rw [copyOf, if_pos (any_onCopy.mpr ⟨row, hmem, hkey⟩), hrequest, hrow, hlog, hold]
    cases request with
    | ackMessage ctx ack => simp [Copy.ofRow, Copy.ack, hpayload, hmark]
    | pullOfflineMessages ctx pull =>
      obtain ⟨hpulled, hpullable⟩ := hmark
      have hopen : old.status ≠ .acked := by
        intro hacked
        simp [OfflineMessage.Pullable, hacked] at hpullable
      simp [Copy.ofRow, hpayload, hpulled, hopen]
    | _ => exact hmark.elim

theorem ofRow_savedOffline {message : OfflineMessage} (hunread : message.status = .unread) :
    Copy.ofRow (some (db.savedOffline message)) =
      (Copy.ofRow (db.offline.lookup (message.userId, message.messageId))).save
        message.payload := by
  simp only [Db.savedOffline]
  cases db.offline.lookup (message.userId, message.messageId) with
  | none => simp [Copy.ofRow, Copy.save, hunread]
  | some old =>
    by_cases hacked : old.status = .acked
    · simp [Copy.ofRow, Copy.save, OfflineMessage.upsert, hacked]
    · simp [Copy.ofRow, Copy.save, OfflineMessage.upsert, hacked, hunread]

theorem copyOf_save (hkeyed : db.Keyed) {user id : UInt64} {payload : Bytes}
    {createdAt : Int64} {message : OfflineMessage}
    (hmessage : message =
      { userId := user, messageId := id, payload := payload,
        createdAt := createdAt, updatedAt := createdAt })
    (hrequest : requests[tid]? = some (.insertOfflineMessage user id payload createdAt))
    (hlog : copyOf requests userId messageId log =
      Copy.ofRow (db.offline.lookup (userId, messageId))) :
    copyOf requests userId messageId ((tid, [.putOffline (db.savedOffline message)]) :: log) =
      Copy.ofRow ((applyAll (D := dialect) db
        [.putOffline (db.savedOffline message)]).offline.lookup (userId, messageId)) := by
  have hkey := savedOffline_key hkeyed message
  obtain ⟨hsame, hnone⟩ | ⟨row, hmem, hrow, hlookup⟩ := lookup_offline_applyAll db
    [.putOffline (db.savedOffline message)] (userId, messageId) (by simp)
  · have hany : ¬ [Write.putOffline (db.savedOffline message)].any
        (onCopy userId messageId) = true := by
      rw [any_onCopy]
      rintro ⟨row, hmem, hrow⟩
      exact hnone row hmem hrow
    rw [copyOf, if_neg hany, hlog, hsame]
  · rw [copyOf, if_pos (any_onCopy.mpr ⟨row, hmem, hrow⟩), hrequest, hlookup, hlog]
    cases List.mem_singleton.mp hmem
    rw [hkey] at hrow
    rw [ofRow_savedOffline (by rw [hmessage]), hrow]
    rw [hmessage]

end Drafts

/-! ## Whole runs -/

/-- The rows and open transactions, against the requests so far. -/
structure Traced (requests : List Request) (w : World) : Prop where
  sound : Sound w
  known : ∀ entry ∈ w.log, entry.1 < requests.length
  drafts : ∀ {tid tx}, w.sql.txs.lookup tid = some tx →
    ∃ request, requests[tid]? = some request ∧ Draft w.db request tx.writes
  copies : ∀ userId messageId, copyOf requests userId messageId w.log =
    Copy.ofRow (w.db.offline.lookup (userId, messageId))

section Traced

variable {requests : List Request} {request : Request} {w : World} {tid : Nat}

variable (h : Traced requests w)

include h

theorem Traced.spawn (request : Request) : Traced (requests ++ [request]) w where
  sound := h.sound
  known entry hmem := by
    have hlt := h.known entry hmem
    rw [List.length_append]
    omega
  drafts htx := by
    obtain ⟨own, hown, hdraft⟩ := h.drafts htx
    obtain ⟨hlt, _⟩ := List.getElem?_eq_some_iff.mp hown
    exact ⟨own, (List.getElem?_append_left hlt).trans hown, hdraft⟩
  copies userId messageId := (copyOf_append request h.known).trans (h.copies userId messageId)

theorem Traced.others (op : Op) (choice : Choice) {other : Nat} (hne : other ≠ tid)
    {tx : Tx dialect} (htx : (w.exec tid op choice).1.sql.txs.lookup other = some tx) :
    ∃ request, requests[other]? = some request ∧
      Draft (w.exec tid op choice).1.db request tx.writes := by
  have hmoves := w.exec_moves tid op choice
  obtain ⟨hopen, hagree⟩ := (hmoves.rely h.sound.engine hne.symm).keeps htx
  obtain ⟨request, hrequest, hdraft⟩ := h.drafts hopen
  refine ⟨request, hrequest, hdraft.kept fun row hmem => ?_⟩
  exact hagree _ (h.sound.engine.covered hopen _ hmem _ (List.mem_singleton.mpr rfl))

section Own

variable (hrequest : requests[tid]? = some request)

include hrequest

theorem Traced.of_own (op : Op) (choice : Choice) (hdb : (w.exec tid op choice).1.db = w.db)
    (hlog : (w.exec tid op choice).1.log = w.log)
    (hown : ∀ {tx}, (w.exec tid op choice).1.sql.txs.lookup tid = some tx →
      Draft w.db request tx.writes) :
    Traced requests (w.exec tid op choice).1 where
  sound := h.sound.exec tid op choice
  known := by
    rw [hlog]
    exact h.known
  drafts {other tx} htx := by
    by_cases hne : other = tid
    · subst hne
      exact ⟨request, hrequest, hdb.symm ▸ hown htx⟩
    · exact h.others op choice hne htx
  copies userId messageId := by
    rw [hdb, hlog]
    exact h.copies userId messageId

theorem Traced.of_write (op : Op) (choice : Choice) {writes : List Write}
    (hdb : (w.exec tid op choice).1.db = applyAll (D := dialect) w.db writes)
    (hlog : (w.exec tid op choice).1.log = (tid, writes) :: w.log)
    (hcopies : ∀ userId messageId, copyOf requests userId messageId ((tid, writes) :: w.log) =
        Copy.ofRow ((applyAll (D := dialect) w.db writes).offline.lookup (userId, messageId)))
    (hown : ∀ {tx}, (w.exec tid op choice).1.sql.txs.lookup tid = some tx →
      Draft (w.exec tid op choice).1.db request tx.writes) :
    Traced requests (w.exec tid op choice).1 where
  sound := h.sound.exec tid op choice
  known := by
    rw [hlog]
    intro entry hmem
    rcases List.mem_cons.mp hmem with rfl | hold
    · exact (List.getElem?_eq_some_iff.mp hrequest).1
    · exact h.known entry hold
  drafts {other tx} htx := by
    by_cases hne : other = tid
    · subst hne
      exact ⟨request, hrequest, hown htx⟩
    · exact h.others op choice hne htx
  copies userId messageId := by
    rw [hdb, hlog]
    exact hcopies userId messageId

theorem Traced.draft
    {tx : Tx dialect} (htx : w.sql.txs.lookup tid = some tx) : Draft w.db request tx.writes := by
  obtain ⟨own, hown, hdraft⟩ := h.drafts htx
  cases hrequest.symm.trans hown
  exact hdraft

theorem Traced.save (hsaving : Saving request stmt) (choice : Choice) :
    Traced requests (w.exec tid (.query stmt) choice).1 := by
  have hcases := w.query_cases tid stmt choice
  cases request with
  | insertOfflineMessage user id payload createdAt =>
    cases hsaving
    have hdrafts {tx : Tx dialect} (htx : w.sql.txs.lookup tid = some tx) (after : Db) :
        Draft after (.insertOfflineMessage user id payload createdAt) tx.writes := by
      have hdraft := h.draft hrequest htx
      refine hdraft.kept fun row hmem => ?_
      obtain ⟨_, _, _, hnone⟩ := hdraft.marks hmem
      exact hnone.elim
    rcases hcases with hcase | ⟨_, hwrites, _⟩ | ⟨_, _, _, _, hcase⟩
    · rw [hcase]
      exact h
    · cases hwrites
    · refine h.of_write hrequest _ choice (by rw [hcase]; rfl) (by rw [hcase]; rfl)
        (fun userId messageId => ?_) fun {tx} htx => ?_
      · exact copyOf_save h.sound.keyed rfl hrequest (h.copies userId messageId)
      · rw [hcase] at htx
        exact hdrafts htx _
  | _ => exact hsaving.elim

theorem Traced.exec {op : Op} (hcall : CopyCall request op) (choice : Choice) :
    Traced requests (w.exec tid op choice).1 := by
  have hquiet (hop : Quiet op)
      (hown : ∀ {tx}, (w.exec tid op choice).1.sql.txs.lookup tid = some tx →
        Draft w.db request tx.writes) : Traced requests (w.exec tid op choice).1 :=
    h.of_own hrequest op choice (quiet_same op hop w choice).1 (quiet_same op hop w choice).2 hown
  cases op with
  | begin =>
    refine hquiet trivial fun {tx} htx => ?_
    simp only [World.exec, Engine.begin] at htx
    split at htx
    · rw [Engine.open_, AList.lookup_insert] at htx
      cases htx
      exact .nil _ _
    · exact h.draft hrequest htx
  | rollback =>
    refine hquiet trivial fun {tx} htx => ?_
    exact h.draft hrequest ((Engine.close_rely tid tid w.sql).keeps htx).1
  | nowMs => exact hquiet trivial fun htx => h.draft hrequest htx
  | commit =>
    rcases w.commit_cases tid choice with hcase | ⟨tx, ok, hopen, hcase⟩
    · rw [hcase]
      exact h
    · refine h.of_write hrequest .commit choice (by rw [hcase]; rfl)
        (by rw [hcase]; rfl) (fun userId messageId => ?_) fun {tx} htx => ?_
      · exact copyOf_commit (h.draft hrequest hopen) hrequest (h.copies userId messageId)
      · rw [hcase] at htx
        simp [Engine.write, Engine.close] at htx
  | exec stmt =>
    refine hquiet trivial fun {later} htx => ?_
    simp only [World.exec] at htx
    rcases w.sql.statement_cases tid (stmt.plan choice) stmt.failed choice.fault
      with hcase | hcase | ⟨tx, hopen, hcase⟩ <;> rw [hcase] at htx
    · exact h.draft hrequest htx
    · exact h.draft hrequest ((Engine.close_rely tid tid w.sql).keeps htx).1
    · rw [Engine.stage, AList.lookup_insert] at htx
      cases htx
      exact (h.draft hrequest hopen).exec h.sound.keyed hcall choice _
  | query stmt =>
    rcases hcall with hread | hsave
    · rw [query_unchanged hread tid w choice]
      exact h
    · exact h.save hrequest hsave choice
  | _ => exact hcall.elim

end Own

theorem Traced.env (event : Env) : Traced requests (w.env event) := by
  have hsound := env_sound h.sound event
  have hdrafts {tid : Nat} {tx : Tx dialect} (htx : (w.env event).sql.txs.lookup tid = some tx) :=
    h.drafts (env_lookup htx)
  cases event with
  | redis key value => cases value <;> exact ⟨hsound, h.known, hdrafts, h.copies⟩
  | disconnect client => exact ⟨hsound, h.known, hdrafts, h.copies⟩
  | accounts users friendships =>
    refine ⟨hsound, h.known, fun htx => ?_, h.copies⟩
    obtain ⟨request, hrequest, hdraft⟩ := hdrafts htx
    exact ⟨request, hrequest, hdraft.kept fun _ _ => rfl⟩

end Traced

theorem traced_run {config : Config} {pool : Pool} (hwithin : pool.Within CopyCall)
    (htraced : Traced (pool.threads.map Thread.req) pool.world) {actions : List Action}
    (hrun : copyRules.AdmitsRun (chat config) pool actions) :
    Traced (((chat config).run pool actions).threads.map Thread.req)
      ((chat config).run pool actions).world :=
  System.run_calls (fun hspawn => handle_only hspawn) (fun request h => h.spawn request)
    (fun hrequest hcall _ h => h.exec hrequest hcall _) (fun h => h.env _) hwithin
    htraced hrun

/-! ### From the log to the rows -/

def PullableCopy (db : Db) (userId messageId : UInt64) : Prop :=
  ∃ row, db.offline.lookup (userId, messageId) = some row ∧ row.Pullable

def AckedCopy (db : Db) (userId messageId : UInt64) : Prop :=
  ∃ row, db.offline.lookup (userId, messageId) = some row ∧ row.status = .acked

section Rows

variable {requests : List Request} {w : World}

theorem Traced.pullable (h : Traced requests w) : PullableCopy w.db userId messageId ↔
      (copyOf requests userId messageId w.log).payload.isSome ∧
        (copyOf requests userId messageId w.log).acked = false := by
  rw [h.copies, PullableCopy]
  cases w.db.offline.lookup (userId, messageId) with
  | none => simp [Copy.ofRow]
  | some row => cases hstatus : row.status <;>
      simp [Copy.ofRow, OfflineMessage.Pullable, hstatus]

theorem Traced.acked (h : Traced requests w) : AckedCopy w.db userId messageId ↔
      (copyOf requests userId messageId w.log).acked = true := by
  rw [h.copies, AckedCopy]
  cases w.db.offline.lookup (userId, messageId) with
  | none => simp [Copy.ofRow]
  | some row => simp [Copy.ofRow]

theorem mem_pending_iff (hkeyed : db.Keyed) {limit : Nat}
    (hlimit : (Table.rows db.offline).length ≤ limit) {row : OfflineMessage} :
    (row ∈ db.pending userId limit ∧ row.messageId = messageId) ↔
      db.offline.lookup (userId, messageId) = some row ∧ row.Pullable := by
  rw [mem_pending hlimit]
  constructor
  · rintro ⟨⟨hrow, rfl, hpullable⟩, rfl⟩
    obtain ⟨key, hkey⟩ := Table.mem_rows.mp hrow
    cases hkeyed.offline key row hkey
    exact ⟨hkey, hpullable⟩
  · rintro ⟨hrow, hpullable⟩
    obtain ⟨huser, hmessage⟩ := Prod.mk.inj (hkeyed.offline _ _ hrow)
    exact ⟨⟨Table.mem_rows.mpr ⟨_, hrow⟩, huser, hpullable⟩, hmessage⟩

/-- What is acknowledged stays so, whatever is committed later. -/
theorem acked_append {log : List (Nat × List Write)} (later : List (Nat × List Write))
    (h : (copyOf requests userId messageId log).acked = true) :
    (copyOf requests userId messageId (later ++ log)).acked = true := by
  induction later with
  | nil => exact h
  | cons entry later ih =>
    rw [List.cons_append, copyOf]
    split
    · split
      · simp [Copy.save, ih]
      · rfl
      · exact ih
    · exact ih

theorem copyOf_pull {tid : Nat} {request : PullOfflineMessagesRequest}
    (hrequest : requests[tid]? = some (.pullOfflineMessages ctx request))
    (writes : List Write) (log : List (Nat × List Write)) :
    copyOf requests userId messageId ((tid, writes) :: log) =
      copyOf requests userId messageId log := by
  rw [copyOf, hrequest]
  split <;> rfl

end Rows

section Runs

variable {config : Config} {pool : Pool} {actions : List Action}

theorem acked_run (hwithin : pool.Within CopyCall)
    (htraced : Traced (pool.threads.map Thread.req) pool.world)
    (hacked : AckedCopy pool.world.db userId messageId)
    (hrun : copyRules.AdmitsRun (chat config) pool actions) :
    AckedCopy ((chat config).run pool actions).world.db userId messageId := by
  have hfinal := System.run_calls
    (p := fun requests w => Traced requests w ∧
      (copyOf requests userId messageId w.log).acked = true)
    (fun hspawn => handle_only hspawn)
    (fun request h => ⟨h.1.spawn request, by rw [copyOf_append request h.1.known]; exact h.2⟩)
    (fun {requests w tid request op choice} hrequest hcall _ h => by
      refine ⟨h.1.exec hrequest hcall _, ?_⟩
      obtain ⟨later, hlater⟩ := exec_log w tid op choice
      change (copyOf requests userId messageId (w.exec tid op choice).1.log).acked = true
      rw [← hlater]
      exact acked_append later h.2)
    (fun {requests w event} h => ⟨h.1.env _, by
      change (copyOf requests userId messageId (w.env event).log).acked = true
      rw [(env_messages w event).2]
      exact h.2⟩)
    hwithin ⟨htraced, htraced.acked.mp hacked⟩ hrun
  exact hfinal.1.acked.mpr hfinal.2

theorem pull_step (hwithin : pool.Within CopyCall)
    (htraced : Traced (pool.threads.map Thread.req) pool.world) {tid : Nat}
    {request : PullOfflineMessagesRequest}
    (hrequest : pool.request tid = some (.pullOfflineMessages ctx request)) (choice : Choice) :
    PullableCopy ((chat config).step pool (.step tid choice)).world.db userId
        messageId ↔ PullableCopy pool.world.db userId messageId := by
  have hadmits : copyRules.AdmitsRun (chat config) pool [.step tid choice] := by
    refine ⟨?_, trivial⟩
    simp only [Guard.Admits]
    split <;> trivial
  have hown : (pool.threads.map Thread.req)[tid]? = some (.pullOfflineMessages ctx request) := by
    rw [List.getElem?_map]
    exact hrequest
  have hnext := traced_run hwithin htraced hadmits
  simp only [System.run_cons, System.run_nil] at hnext
  rw [System.step_requests, Action.request, Option.toList_none, List.append_nil] at hnext
  have hlog : copyOf (pool.threads.map Thread.req) userId messageId
      ((chat config).step pool (.step tid choice)).world.log =
        copyOf (pool.threads.map Thread.req) userId messageId pool.world.log := by
    simp only [System.step, System.stepThread]
    split
    · rfl
    split
    · rfl
    next op next _ =>
      rcases pool.world.exec_effect tid op choice with ⟨_, hsame⟩ | ⟨writes, _, hnew⟩
      · exact congrArg _ hsame
      · exact (congrArg _ hnew).trans (copyOf_pull hown writes _)
  rw [hnext.pullable, htraced.pullable, hlog]

end Runs

/-! ## The rows of a user -/

/-- Any rows, but nothing to be pulled and no request yet. -/
structure Uncopied (pool : Pool) : Prop where
  keyed : pool.world.db.Keyed
  idle : pool.world.sql.txs = ∅
  log : pool.world.log = []
  offline : pool.world.db.offline = ∅
  threads : pool.threads = []

theorem Uncopied.traced {pool : Pool} (h : Uncopied pool) :
    Traced (pool.threads.map Thread.req) pool.world where
  sound := by
    refine ⟨?_, h.keyed⟩
    obtain ⟨⟨⟨db, txs, log⟩, redis, produced, tokens⟩, threads⟩ := pool
    cases h.idle
    exact Engine.wellFormed_of_no_tx
  known := by
    rw [h.log]
    exact fun _ hmem => absurd hmem List.not_mem_nil
  drafts htx := by
    rw [h.idle] at htx
    exact absurd htx Table.lookup_empty_ne
  copies userId messageId := by
    rw [h.log, h.offline]
    rfl

theorem Uncopied.within {pool : Pool} (h : Uncopied pool) : pool.Within CopyCall := by
  intro thread hmem
  rw [h.threads] at hmem
  exact absurd hmem List.not_mem_nil

/-! ### From the answers to the log -/

/-- What was committed stays in the log. -/
def logging (config : Config) : Contract (chat config) copyRules where
  inv := Sound
  rely _ w w' := w.log <:+ w'.log
  guar _ w w' := w.log <:+ w'.log
  rely_refl _ w := List.suffix_refl w.log
  rely_trans := List.IsSuffix.trans
  guar_rely _ _ h := h
  env_inv hsound _ := env_sound hsound _
  env_rely _ _ := (env_messages _ _).2 ▸ List.suffix_refl _

/-- A save that was answered with success is in the log. -/
def SaveLogged (tid : Nat) (w : World) : Request → Reply → Prop
  | .insertOfflineMessage userId messageId _ _, .done true =>
    ∃ writes, (tid, writes) ∈ w.log ∧ writes.any (onCopy userId messageId) = true
  | _, _ => True

theorem handle_logged {config : Config} (tid : Nat) (h : request.OnCopies) :
    Triple (logging config) tid (fun _ => True) (handle config request)
      fun reply w => SaveLogged tid w request reply := by
  have hcalls (op : Op) : CallSpec (logging config) tid (fun _ => True) op fun _ _ => True :=
    fun w choice hsound _ _ => ⟨hsound.exec tid op choice, exec_log w tid op choice, trivial⟩
  cases request with
  | insertOfflineMessage userId messageId payload createdAt =>
    refine Triple.call (Stable.const True) (?_ : CallSpec _ _ _ _ fun (ok : Bool) w =>
        SaveLogged tid w (.insertOfflineMessage userId messageId payload createdAt) (.done ok))
      fun ok => .ret ?_ fun _ h => h
    · intro w choice hsound _ hrules
      obtain ⟨hnext, hlog, _⟩ := hcalls _ w choice hsound trivial hrules
      refine ⟨hnext, hlog, ?_⟩
      simp only [chat]
      rcases w.query_cases tid _ choice with hcall | ⟨_, hnone, _⟩ |
        ⟨_, ok, _, _, hcall⟩
      · rw [hcall]
        trivial
      · cases hnone
      · rw [hcall]
        cases ok with
        | false => trivial
        | true =>
          exact ⟨_, List.mem_cons_self, any_onCopy.mpr
            ⟨_, List.mem_singleton.mpr rfl, savedOffline_key hsound.keyed _⟩⟩
    · intro w w' h _ hrely _
      cases ok with
      | false => trivial
      | true =>
        obtain ⟨writes, hmem, hcopy⟩ := h
        exact ⟨writes, hrely.mem hmem, hcopy⟩
  | ackMessage ctx request
  | pullOfflineMessages ctx request => exact (Triple.of_calls hcalls).mono id fun _ => trivial
  | _ => exact h.elim

/-- A copy is listed if and only if it was saved and has not been acknowledged
since, with the payload of its latest save; it stays acknowledged, and pulls
change nothing about it.  A save that was answered with success counts. -/
theorem copies_pulled_until_acked (config : Config) {pool : Pool} (hpool : Uncopied pool)
    {actions : List Action} (hrun : copyRules.AdmitsRun (chat config) pool actions)
    (userId messageId : UInt64) :
    let final := (chat config).run pool actions
    let copy := copyOf (actions.filterMap Action.request) userId messageId final.world.log
    (∀ limit, (Table.rows final.world.db.offline).length ≤ limit →
      ((∃ row ∈ final.world.db.pending userId limit, row.messageId = messageId) ↔
        copy.payload.isSome ∧ copy.acked = false) ∧
      ∀ row ∈ final.world.db.pending userId limit, row.messageId = messageId →
        copy.payload = some (fromHex (toHex row.payload))) ∧
    (∀ later, copyRules.AdmitsRun (chat config) final later →
      AckedCopy final.world.db userId messageId →
      AckedCopy ((chat config).run final later).world.db userId messageId) ∧
    (∀ tid ctx request choice, final.request tid = some (.pullOfflineMessages ctx request) →
      (PullableCopy ((chat config).step final (.step tid choice)).world.db userId
          messageId ↔ PullableCopy final.world.db userId messageId)) ∧
    ∀ tid payload createdAt, final.request tid =
        some (.insertOfflineMessage userId messageId payload createdAt) →
      final.reply tid = some (.done true) → ∃ writes, (tid, writes) ∈ final.world.log ∧
        writes.any (onCopy userId messageId) = true := by
  intro final copy
  have hwithin : final.Within CopyCall := hpool.within.run (fun hspawn => handle_only hspawn) hrun
  have htraced := traced_run hpool.within hpool.traced hrun
  have hrequests : final.threads.map Thread.req = actions.filterMap Action.request := by
    rw [(chat config).run_requests, hpool.threads]
    rfl
  refine ⟨fun limit hlimit => ⟨?_, ?_⟩, fun later hlater hacked => ?_, ?_, ?_⟩
  · have hpullable : PullableCopy final.world.db userId messageId ↔ _ := htraced.pullable
    rw [hrequests] at hpullable
    rw [← hpullable]
    exact exists_congr fun row => mem_pending_iff htraced.sound.keyed hlimit
  · intro row hrow hmessage
    obtain ⟨hlookup, _⟩ := (mem_pending_iff htraced.sound.keyed hlimit).mp ⟨hrow, hmessage⟩
    have hcopy := htraced.copies userId messageId
    rw [hrequests, hlookup] at hcopy
    rw [fromHex_toHex]
    exact congrArg Copy.payload hcopy
  · exact acked_run hwithin htraced hacked hlater
  · intro tid ctx request choice hrequest
    exact pull_step hwithin htraced hrequest choice
  · intro tid payload createdAt hrequest hreply
    have hstart : PoolSafe (logging config)
        (fun tid request _ reply w => SaveLogged tid w request reply) pool := by
      refine ⟨hpool.traced.sound, fun tid thread hthread => ?_⟩
      rw [hpool.threads] at hthread
      cases hthread
    have hsafe := (logging config).run_safe (fun {w _} tid hinv hspawn =>
      handle_logged tid hspawn w hinv trivial) hstart hrun
    exact (hsafe.answer hrequest hreply).elim fun _ h => h

def written : Pool where
  world := { sql := { db := friends.world.db.apply (.insertMessage
    { messageId := 50, fromUserId := 1, toUserId := 2, createdAt := 5 }) } }

def savedTwice : List Action :=
  runAlone 0 (.insertOfflineMessage 2 50 [1] 6) {} ++
    runAlone 1 (.insertOfflineMessage 2 50 [50, 200] 7) {} ++
    runAlone 2 (.pullOfflineMessages {} { userId := 2 }) { clock := 8 }

def savedAndAcked : List Action :=
  savedTwice ++ runAlone 3 (.ackMessage {} { userId := 2, messageId := 50 }) { clock := 9 }

/-- The copy is listed with the payload of the second save, until it is
acknowledged. -/
theorem savedAndAcked_unlisted :
    let saved := (chat {}).run written savedTwice
    let final := (chat {}).run written savedAndAcked
    (saved.reply 1 = some (.done true) ∧ (∃ row ∈ saved.world.db.pending 2 10, row.messageId = 50) ∧
      ∀ row ∈ saved.world.db.pending 2 10, row.messageId = 50 →
        fromHex (toHex row.payload) = [50, 200]) ∧
    copyRules.AdmitsRun (chat {}) written savedAndAcked ∧
      final.reply 3 = some (.acked (ackReply [] .ok "OK")) ∧
      ¬ ∃ row ∈ final.world.db.pending 2 10, row.messageId = 50 := by
  have hwritten : Uncopied written :=
    ⟨friends_initial.sound.keyed.apply (.insertMessage _), rfl, rfl, rfl, rfl⟩
  have hrun : copyRules.AdmitsRun (chat {}) written savedAndAcked := by
    decide +kernel
  have htwice : copyRules.AdmitsRun (chat {}) written savedTwice := by
    decide +kernel
  obtain ⟨hlisted, hpayload⟩ :=
    (copies_pulled_until_acked {} hwritten htwice 2 50).1 10 (by decide +kernel)
  have hcopy : copyOf (savedTwice.filterMap Action.request) 2 50
      ((chat {}).run written savedTwice).world.log = ⟨some [50, 200], false⟩ := by
    decide +kernel
  rw [hcopy] at hlisted hpayload
  refine ⟨⟨by decide +kernel, hlisted.mpr ⟨rfl, rfl⟩, fun row hrow hmessage =>
    (Option.some.inj (hpayload row hrow hmessage)).symm⟩, hrun, by decide +kernel,
    fun hlisted => ?_⟩
  have hlaw := (copies_pulled_until_acked {} hwritten hrun 2 50).1 10 (by decide +kernel)
  exact absurd (hlaw.1.mp hlisted) (by decide +kernel)

end NebulaIM.Chat
