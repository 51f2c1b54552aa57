import NebulaIM.Backend.Offline
import NebulaIM.Message.Receipts

/-!
# Acknowledging again

What `AckMessage` leaves behind, and what a repeated acknowledgement changes for
the sender: the delivery time is the greatest time of all acknowledgements.
-/

namespace NebulaIM.Message

open Foundation Foundation.Store
open Backend Protocol
open Foundation.Wire (Bytes)

variable {ctx : RpcContext} {request : AckMessageRequest} {answer : AckMessageResponse}
variable {userId messageId : UInt64} {now : Int64}
variable {client : Nat} {guard : World → Op → Choice → Prop} {db db' : Db} {w : World}

/-- All checks of `AckMessage`. -/
def acknowledges (ctx : RpcContext) (db : Db) (request : AckMessageRequest) : Bool :=
  ctx.authorized && request.userId ≠ 0 && request.messageId ≠ 0 && request.userId ∈ db.users &&
    (db.messages.lookup request.messageId).any (receivesMessage db request.userId)

/-- The rows after the transaction of an acknowledgement at `now`. -/
def Acknowledged (db : Db) (userId messageId : UInt64) (now : Int64) (db' : Db) : Prop :=
  ∃ choice : Choice, db' = applyAll (D := dialect)
    (ReceiptOp.run db (.upsertDelivered messageId userId now))
    ((Stmt.markAsAcked userId messageId).plan choice
      (ReceiptOp.run db (.upsertDelivered messageId userId now)) []).writes

def AckOk (answer : AckMessageResponse) : Prop :=
  ∃ common, answer.response = some common ∧ Ok common

theorem not_ackOk {requestId : Bytes} {code : ErrorCode} (hcode : code ≠ .ok)
    {message : String} : ¬ AckOk (ackReply requestId code message) := by
  rintro ⟨common, hcommon, hok⟩
  cases hcommon
  exact not_ok hcode hok

variable (guard) in
/-- The acknowledgement took effect, at a time that the clock could show. -/
def TakesEffect (ctx : RpcContext) (db : Db) (request : AckMessageRequest) (db' : Db) : Prop :=
  acknowledges ctx db request = true ∧ ∃ world choice, guard world .nowMs choice ∧
    Acknowledged db request.userId request.messageId choice.clock db'

variable (guard) in
/-- Where a call of `AckMessage` ends. -/
structure AckLeaves (ctx : RpcContext) (db : Db) (request : AckMessageRequest)
    (answer : AckMessageResponse) (db' : Db) : Prop where
  rows : db' = db ∨ TakesEffect guard ctx db request db'
  ok : AckOk answer → TakesEffect guard ctx db request db'
  calm : (∀ world op choice, guard world op choice → choice.fault = .none) →
    acknowledges ctx db request = true → TakesEffect guard ctx db request db'

theorem AckLeaves.refused (hanswer : ¬ AckOk answer)
    (hrefused : acknowledges ctx db request ≠ true) :
    AckLeaves guard ctx db request answer db :=
  ⟨.inl rfl, fun hok => absurd hok hanswer, fun _ hack => absurd hack hrefused⟩

theorem AckLeaves.failed (hanswer : ¬ AckOk answer) {op : Op} {choice : Choice}
    (hguard : guard w op choice) (hfault : choice.fault ≠ .none)
    (hrows : db' = db ∨ TakesEffect guard ctx db request db') :
    AckLeaves guard ctx db request answer db' :=
  ⟨hrows, fun hok => absurd hok hanswer, fun hcalm => absurd (hcalm w op choice hguard) hfault⟩

theorem alone_ackMessage (ctx : RpcContext) (request : AckMessageRequest) (h : Rests client db w) :
    Alone client guard (AckLeaves guard ctx db request) (ackMessage ctx request) w := by
  have hcode {code : ErrorCode} (hcode : code ≠ .ok) (message : String) :
      ¬ AckOk (ackReply request.requestId code message) := not_ackOk hcode
  unfold ackMessage
  split
  · next hauth =>
    refine h.alone_ret (.refused (hcode (by decide) _) ?_)
    simp only [Bool.not_eq_true'] at hauth
    simp [acknowledges, hauth]
  next hauth =>
  split
  · next hzero =>
    refine h.alone_ret (.refused (hcode (by decide) _) ?_)
    rcases hzero with hzero | hzero <;> simp [acknowledges, hzero]
  next hnonzero =>
  refine h.alone_query (fun _ _ => rfl) (fun _ hguard hfault =>
    h.alone_ret (.failed (hcode (by decide) _) hguard hfault (.inl rfl))) ?_
  split
  · next huser =>
    refine h.alone_ret (.refused (hcode (by decide) _) ?_)
    simp only [Bool.not_eq_true', decide_eq_false_iff_not] at huser
    simp [acknowledges, huser]
  next huser =>
  refine h.alone_query (fun _ _ => rfl) (fun _ hguard hfault =>
    h.alone_ret (.failed (hcode (by decide) _) hguard hfault (.inl rfl))) ?_
  split
  case h_2 hnone =>
    refine h.alone_ret (.refused (hcode (by decide) _) ?_)
    cases hrow : db.messages.lookup request.messageId with
    | none => simp [acknowledges, hrow]
    | some record => exact absurd hrow (hnone record)
  case h_1 record hrecord =>
    refine alone_canReceiveMessage h (fun _ _ hguard hfault =>
      h.alone_ret (.failed (hcode (by decide) _) hguard hfault (.inl rfl))) ?_
    split
    · next hreceives =>
      refine h.alone_ret (.refused (hcode (by decide) _) ?_)
      simp only [Bool.not_eq_true'] at hreceives
      simp [acknowledges, hrecord, hreceives]
    next hreceives =>
    have hack : acknowledges ctx db request = true := by
      obtain ⟨hid, hmessage⟩ := not_or.mp hnonzero
      simp only [Bool.not_eq_true', Bool.not_eq_false, decide_eq_false_iff_not,
        not_not] at hauth huser hreceives
      simp [acknowledges, hauth, hid, hmessage, huser, hrecord, hreceives]
    refine h.alone_transaction (fun _ hguard hfault =>
      .failed (hcode (by decide) _) hguard hfault (.inl rfl)) fun next hnext => ?_
    refine alone_call fun clock hclock => ?_
    refine hnext.alone_exec (fun _ _ hguard hfault hrests =>
      hrests.alone_ret (.failed (hcode (by decide) _) hguard hfault (.inl rfl))) ?_
    intro delivering staged _ _ hstaged
    refine hstaged.alone_exec (fun _ _ hguard hfault hrests =>
      hrests.alone_ret (.failed (hcode (by decide) _) hguard hfault (.inl rfl))) ?_
    intro acking drafted _ _ hdrafted
    have heffect : TakesEffect guard ctx db request (applyAll (D := dialect) db
        ([] ++ ((Stmt.upsertDelivered request.messageId request.userId clock.clock).plan
          delivering db []).writes ++ ((Stmt.markAsAcked request.userId
            request.messageId).plan acking (ReceiptOp.run db (.upsertDelivered
              request.messageId request.userId clock.clock)) []).writes)) :=
      ⟨hack, _, clock, hclock, acking, applyAll_append _ _ _⟩
    refine hdrafted.alone_commit (fun _ later hguard hfault hlater => ?_)
      fun _ later _ _ hlater => ?_
    · rcases hlater with hlater | hlater
      · exact hlater.alone_ret (.failed (hcode (by decide) _) hguard hfault (.inl rfl))
      · exact hlater.alone_ret (.failed (hcode (by decide) _) hguard hfault
          (.inr heffect))
    · exact hlater.alone_ret ⟨.inr heffect, fun _ => heffect, fun _ _ => heffect⟩

/-! ## The rows behind an acknowledgement -/

/-- What `GetMessageReadState` reports of a message and a user. -/
def reported (db : Db) (messageId userId : UInt64) : List MessageReadState :=
  (db.readStates messageId).filter fun state => state.userId = userId

def offlineStatus (db : Db) (userId messageId : UInt64) : Option OfflineStatus :=
  (db.offline.lookup (userId, messageId)).map OfflineMessage.status

theorem reported_eq (hkeyed : db.Keyed) (messageId userId : UInt64) : reported db messageId userId =
      (db.receiptTimes messageId userId).toList.map fun times =>
        ⟨messageId, userId, times.deliveredAt, times.readAt⟩ := by
  have hrows := hkeyed.receipts.filter_rows (messageId, userId)
  have hsplit : reported db messageId userId =
      ((Table.rows db.receipts).filter fun row =>
        (row.messageId, row.userId) = (messageId, userId)).map fun row =>
          ⟨row.messageId, row.userId, row.deliveredAt, row.readAt⟩ := by
    simp only [reported, Db.readStates, List.filter_map, List.filter_filter]
    congr 2
    funext row
    simp [Bool.and_comm, Prod.mk.injEq, Bool.decide_and]
  rw [hsplit, hrows, Db.receiptTimes]
  cases hrow : db.receipts.lookup (messageId, userId) with
  | none => rfl
  | some row =>
    have hkey := hkeyed.receipts _ row hrow
    simp only [Prod.mk.injEq] at hkey
    simp [hkey.1, hkey.2]

/-- The user has a receipt of the message, and no copy of it that waits. -/
structure Receipted (db : Db) (userId messageId : UInt64) : Prop where
  receipt : (db.receiptTimes messageId userId).isSome
  copy : ∀ status ∈ offlineStatus db userId messageId, status = .acked

section Acknowledged

variable (h : Acknowledged db userId messageId now db') (hkeyed : db.Keyed)

include h hkeyed

theorem Acknowledged.keyed : db'.Keyed := by
  obtain ⟨choice, rfl⟩ := h
  exact (ReceiptOp.run_keyed hkeyed _).applyAll _

/-- The delivery time is the greater one, and the read time stays. -/
theorem Acknowledged.receiptTimes_eq (message user : UInt64) : db'.receiptTimes message user =
      if (message, user) = (messageId, userId) then
        some ((ReceiptOp.upsertDelivered messageId userId now).merge (db.receiptTimes message user))
      else db.receiptTimes message user := by
  obtain ⟨choice, rfl⟩ := h
  have hreceipts : ∀ db : Db, (applyAll (D := dialect) db
      ((Stmt.markAsAcked userId messageId).plan choice db []).writes).receipts =
        db.receipts := by
    intro db
    refine applyAll_kept (D := dialect) Db.receipts (fun write hmem db => ?_) db
    obtain ⟨row, _, rfl⟩ := List.mem_map.mp hmem
    rfl
  rw [Db.receiptTimes, hreceipts, ← Db.receiptTimes, ReceiptOp.receiptTimes_run hkeyed]
  simp only [ReceiptOp.covers, decide_eq_true_eq]

theorem Acknowledged.offlineStatus_eq (user message : UInt64) : offlineStatus db' user message =
      if (user, message) = (userId, messageId) then
        (offlineStatus db user message).map fun _ => .acked
      else offlineStatus db user message := by
  obtain ⟨choice, rfl⟩ := h
  generalize hbase : ReceiptOp.run db (.upsertDelivered messageId userId now) = base
  have hoffline : base.offline = db.offline := by
    rw [← hbase]
    exact ReceiptOp.run_kept Db.offline (fun _ _ => rfl) db _
  cases hrow : db.offline.lookup (userId, messageId) with
  | none =>
    have hwrites : ((Stmt.markAsAcked userId messageId).plan choice base []).writes = [] := by
      simp [Stmt.plan, writing, Db.ackedOffline, hoffline, hrow]
    rw [hwrites, applyAll_nil, offlineStatus, offlineStatus, hoffline]
    split
    · next heq => rw [heq, hrow, Option.map_none, Option.map_none]
    · rfl
  | some row =>
    have hwrites : ((Stmt.markAsAcked userId messageId).plan choice base []).writes =
        [.putOffline { row with status := .acked, updatedAt := choice.clock }] := by
      simp [Stmt.plan, writing, Db.ackedOffline, hoffline, hrow]
    have hkey : (row.userId, row.messageId) = (userId, messageId) := hkeyed.offline _ row hrow
    have hafter : (applyAll (D := dialect) base [.putOffline
        { row with status := .acked, updatedAt := choice.clock }]).offline =
        db.offline.insert (userId, messageId)
          { row with status := .acked, updatedAt := choice.clock } := by
      rw [← hkey, ← hoffline]
      rfl
    rw [hwrites, offlineStatus, hafter, offlineStatus]
    split
    · next heq =>
      rw [heq, hrow, AList.lookup_insert]
      rfl
    · next hne => rw [AList.lookup_insert_ne hne]

theorem Acknowledged.settles : Receipted db' userId messageId := by
  constructor
  · rw [h.receiptTimes_eq hkeyed, if_pos rfl]
    rfl
  · rw [h.offlineStatus_eq hkeyed, if_pos rfl]
    intro status hstatus
    obtain ⟨_, _, rfl⟩ := Option.map_eq_some_iff.mp hstatus
    rfl

theorem Acknowledged.keeps {user message : UInt64} (hsettled : Receipted db user message) :
    Receipted db' user message := by
  by_cases heq : (user, message) = (userId, messageId)
  · cases heq
    exact h.settles hkeyed
  · have hne : (message, user) ≠ (messageId, userId) := by
      rintro ⟨⟩
      exact heq rfl
    constructor
    · rw [h.receiptTimes_eq hkeyed, if_neg hne]
      exact hsettled.receipt
    · rw [h.offlineStatus_eq hkeyed, if_neg heq]
      exact hsettled.copy

end Acknowledged

/-! ## Histories -/

inductive ReceiptCall where
  | ackMessage (ctx : RpcContext) (request : AckMessageRequest)
  | markMessageRead (ctx : RpcContext) (request : MarkMessageReadRequest)
  | pullOfflineMessages (options : MessageServiceOptions) (ctx : RpcContext)
      (request : PullOfflineMessagesRequest)

def ReceiptCall.code : ReceiptCall → Service Unit
  | .ackMessage ctx request => do
      let _ ← Message.ackMessage ctx request
  | .markMessageRead ctx request => do
      let _ ← Message.markMessageRead ctx request
  | .pullOfflineMessages options ctx request => do
      let _ ← Message.pullOfflineMessages options ctx request

/-- The world after the calls, each with the choices that resolve it. -/
def serve (client : Nat) (w : World) (calls : List (ReceiptCall × (Nat → Choice))) :
    World :=
  calls.foldl (fun w call => (call.1.code.solo (fun w : World => w.exec client) w call.2).1) w

/-- Acknowledged messages stay acknowledged. -/
structure Keeps (db db' : Db) : Prop where
  keyed : db'.Keyed
  settled : ∀ {userId messageId}, Receipted db userId messageId → Receipted db' userId messageId

theorem Keeps.refl (hkeyed : db.Keyed) : Keeps db db := ⟨hkeyed, id⟩

theorem MarkedBy.keeps {op : ReceiptOp} (h : MarkedBy op db db') (hkeyed : db.Keyed) :
    Keeps db db' := by
  refine ⟨h.keyed, fun hsettled => ⟨?_, ?_⟩⟩
  · rw [Db.receiptTimes, h.receipts, ← Db.receiptTimes, op.receiptTimes_run hkeyed]
    split
    · rfl
    · exact hsettled.receipt
  · rw [offlineStatus, h.offline]
    exact hsettled.copy

theorem AckLeaves.keeps (h : AckLeaves guard ctx db request answer db')
    (hkeyed : db.Keyed) : Keeps db db' := by
  rcases h.rows with rfl | ⟨_, _, choice, _, hack⟩
  · exact .refl hkeyed
  · exact ⟨hack.keyed hkeyed, hack.keeps hkeyed⟩

theorem alone_markMessageRead (hkeyed : db.Keyed) (ctx : RpcContext)
    (request : MarkMessageReadRequest) (h : Rests client db w) :
    Alone client guard (fun _ => Keeps db) (markMessageRead ctx request) w := by
  have hsame := Keeps.refl hkeyed
  unfold markMessageRead
  split
  · exact h.alone_ret hsame
  split
  · exact h.alone_ret hsame
  refine h.alone_query (fun _ _ => rfl) (fun _ _ _ => h.alone_ret hsame) ?_
  split
  case h_2 => exact h.alone_ret hsame
  case h_1 record _ =>
    refine alone_canReceiveMessage h (fun _ _ _ _ => h.alone_ret hsame) ?_
    split
    · exact h.alone_ret hsame
    refine h.alone_transaction (fun _ _ _ => hsame) fun next hnext => ?_
    refine alone_call fun clock _ => ?_
    refine hnext.alone_exec (fun _ _ _ _ hrests => hrests.alone_ret hsame) ?_
    intro choice staged _ _ hstaged
    refine alone_recount hkeyed (.markRead request.messageId request.userId clock.clock)
      (fun db' hmarked => ?_) (fun db' hmarked => hmarked.keeps hkeyed) hstaged
    rcases hmarked with rfl | hmarked
    · exact hsame
    · exact hmarked.keeps hkeyed

theorem keeps_pulled (hkeyed : db.Keyed) (userId : UInt64) (messageIds : List UInt64)
    (now : Int64) :
    Keeps db (applyAll (D := dialect) db
      ((db.pulledOffline userId messageIds now).map .putOffline)) := by
  have hreceipts : (applyAll (D := dialect) db
      ((db.pulledOffline userId messageIds now).map .putOffline)).receipts =
        db.receipts := by
    refine applyAll_kept (D := dialect) Db.receipts (fun write hmem db => ?_) db
    obtain ⟨row, _, rfl⟩ := List.mem_map.mp hmem
    rfl
  refine ⟨hkeyed.applyAll _, fun {user message} hsettled => ⟨?_, ?_⟩⟩
  · rw [Db.receiptTimes, hreceipts, ← Db.receiptTimes]
    exact hsettled.receipt
  · obtain ⟨hsame, _⟩ | ⟨row, hput, hkey, _⟩ := lookup_offline_applyAll db
      ((db.pulledOffline userId messageIds now).map .putOffline) (user, message)
      (by simp)
    · rw [offlineStatus, hsame]
      exact hsettled.copy
    · -- the copy was waiting before, so that it was not settled
      simp only [List.mem_map, Write.putOffline.injEq, exists_eq_right,
        Db.pulledOffline, List.mem_filter, decide_eq_true_eq] at hput
      obtain ⟨old, ⟨hold, _, _, hpullable⟩, rfl⟩ := hput
      obtain ⟨key, hlookup⟩ := Table.mem_rows.mp hold
      rw [← hkeyed.offline _ _ hlookup] at hlookup
      have hacked := hsettled.copy old.status (by
        rw [offlineStatus, ← hkey, hlookup]
        rfl)
      rw [OfflineMessage.Pullable, hacked] at hpullable
      exact absurd hpullable (by decide)

theorem alone_pullOfflineMessages (hkeyed : db.Keyed) (options : MessageServiceOptions)
    (ctx : RpcContext) (request : PullOfflineMessagesRequest) (h : Rests client db w) :
    Alone client guard (fun _ => Keeps db) (pullOfflineMessages options ctx request)
      w := by
  have hsame := Keeps.refl hkeyed
  unfold pullOfflineMessages
  split
  · exact h.alone_ret hsame
  split
  · exact h.alone_ret hsame
  refine h.alone_query (fun _ _ => rfl) (fun _ _ _ => h.alone_ret hsame) ?_
  split
  · exact h.alone_ret hsame
  have htransaction (limit : Nat) (rows : List OfflineMessage) :
      Alone client guard (fun _ => Keeps db) (pullTransaction request limit rows) w := by
    refine h.alone_transaction (fun _ _ _ => hsame) fun next hnext => ?_
    have hcommit {writes : List Write} {next : World}
        (hkeeps : Keeps db (applyAll (D := dialect) db writes))
        (hnext : Staged client db writes next) {failed ok : PullOfflineMessagesResponse} :
        Alone client guard (fun _ => Keeps db) (do
          if !(← commit) then return failed
          return ok) next := by
      refine hnext.alone_commit (fun _ later _ _ hlater => ?_)
        fun _ later _ _ hlater => hlater.alone_ret hkeeps
      rcases hlater with hlater | hlater
      · exact hlater.alone_ret hsame
      · exact hlater.alone_ret hkeeps
    unfold markBatchAsPulled
    dsimp only
    split
    · exact @hcommit [] next hsame hnext _ _
    · refine hnext.alone_exec (fun _ _ _ _ hrests => hrests.alone_ret hsame) ?_
      intro choice staged _ _ hstaged
      exact hcommit (keeps_pulled hkeyed _ _ choice.clock) hstaged
  exact h.alone_query (fun _ _ => rfl) (fun _ _ _ => htransaction _ _) (htransaction _ _)

theorem ReceiptCall.alone_code (hkeyed : db.Keyed) (call : ReceiptCall) (h : Rests client db w) :
    Alone client guard (fun _ => Keeps db) call.code w := by
  cases call with
  | ackMessage ctx request =>
    exact (alone_ackMessage ctx request h).bind fun _ next hnext => ⟨hnext.1, hnext.2.keeps hkeyed⟩
  | markMessageRead ctx request =>
    exact (alone_markMessageRead hkeyed ctx request h).bind fun _ next hnext => hnext
  | pullOfflineMessages options ctx request =>
    exact (alone_pullOfflineMessages hkeyed options ctx request h).bind fun _ next hnext => hnext

theorem serve_keeps (hundisturbed : Undisturbed client w) (hkeyed : w.db.Keyed)
    (calls : List (ReceiptCall × (Nat → Choice))) :
    Undisturbed client (serve client w calls) ∧ Keeps w.db (serve client w calls).db := by
  induction calls generalizing w with
  | nil => exact ⟨hundisturbed, .refl hkeyed⟩
  | cons call calls ih =>
    obtain ⟨hundisturbed', hkeeps⟩ :=
      (call.1.alone_code hkeyed ⟨hundisturbed, rfl⟩).sound (call.1.code.meets_true w call.2)
    obtain ⟨hlast, hlater⟩ := ih hundisturbed' hkeeps.keyed
    exact ⟨hlast, hlater.keyed, fun hsettled => hlater.settled (hkeeps.settled hsettled)⟩

/-! ## The repeated acknowledgement -/

def ClockShows (now : Int64) : World → Op → Choice → Prop
  | _, .nowMs, choice => choice.clock = now
  | _, _, _ => True

/-- The sender sees the same receipt, and the copy of the recipient has the same
status. -/
structure SameView (db db' : Db) (userId messageId : UInt64) : Prop where
  reported : reported db' messageId userId = reported db messageId userId
  copy : offlineStatus db' userId messageId = offlineStatus db userId messageId

/-- The acknowledgement is refused, or the delivery time is not behind the clock. -/
def NotLater (ctx : RpcContext) (db : Db) (request : AckMessageRequest) (now : Int64) : Prop :=
  acknowledges ctx db request = true →
    ∀ times ∈ db.receiptTimes request.messageId request.userId, now ≤ times.deliveredAt

theorem merge_delivered_eq_iff (times : ReceiptTimes) :
    (ReceiptOp.upsertDelivered messageId userId now).merge (some times) = times ↔
      now ≤ times.deliveredAt := by
  obtain ⟨deliveredAt, readAt⟩ := times
  simp only [ReceiptOp.merge, ReceiptOp.time, ReceiptOp.reads, Bool.false_eq_true,
    if_false, ReceiptTimes.mk.injEq, and_true, ← Int64.toInt_inj, ReceiptOp.toInt_max,
    Int64.le_iff_toInt_le]
  omega

theorem Acknowledged.sameView_iff (h : Acknowledged db userId messageId now db')
    (hkeyed : db.Keyed) (hsettled : Receipted db userId messageId) :
    SameView db db' userId messageId ↔
      ∀ times ∈ db.receiptTimes messageId userId, now ≤ times.deliveredAt := by
  obtain ⟨times, htimes⟩ := Option.isSome_iff_exists.mp hsettled.receipt
  have hafter := h.receiptTimes_eq hkeyed messageId userId
  rw [if_pos rfl, htimes] at hafter
  have hcopy : offlineStatus db' userId messageId = offlineStatus db userId messageId := by
    rw [h.offlineStatus_eq hkeyed, if_pos rfl]
    cases hstatus : offlineStatus db userId messageId with
    | none => rfl
    | some status => rw [hsettled.copy status hstatus, Option.map_some]
  have hview : SameView db db' userId messageId ↔
      (ReceiptOp.upsertDelivered messageId userId now).merge (some times) = times := by
    constructor
    · intro hview
      have heq := hview.reported
      rw [reported_eq (h.keyed hkeyed), reported_eq hkeyed, hafter, htimes] at heq
      simp only [Option.toList_some, List.map_cons, List.map_nil, List.cons.injEq,
        MessageReadState.mk.injEq, true_and, and_true] at heq
      exact congrArg₂ ReceiptTimes.mk heq.1 heq.2
    · intro heq
      refine ⟨?_, hcopy⟩
      rw [reported_eq (h.keyed hkeyed), reported_eq hkeyed, hafter, htimes, heq]
  rw [hview, merge_delivered_eq_iff, htimes]
  constructor
  · rintro hle _ ⟨⟩
    exact hle
  · exact fun hle => hle times rfl

theorem sameView_iff (hundisturbed : Undisturbed client w) (hkeyed : w.db.Keyed)
    (ctx : RpcContext) (request : AckMessageRequest) (now : Int64)
    (hsettled : Receipted w.db request.userId request.messageId) :
    (∀ choices, (ackMessage ctx request).Meets (fun w : World => w.exec client)
        (ClockShows now) w choices →
      SameView w.db ((ackMessage ctx request).solo (fun w : World => w.exec client) w
        choices).1.db request.userId request.messageId) ↔
      NotLater ctx w.db request now := by
  constructor
  · intro hsame hack
    -- without failures the acknowledgement takes effect
    let calm : World → Op → Choice → Prop := fun w op choice =>
      choice.fault = .none ∧ ClockShows now w op choice
    have hcalm (world : World) (op : Op) : calm world op { clock := now } := by
      refine ⟨rfl, ?_⟩
      cases op <;> first | rfl | trivial
    have hmeets : (ackMessage ctx request).Meets (fun w : World => w.exec client)
        (ClockShows now) w fun _ => { clock := now } :=
      Prog.meets_const (fun world op => (hcalm world op).2) _ w
    have hleaves : Alone client calm (AckLeaves calm ctx w.db request)
        (ackMessage ctx request) w := alone_ackMessage ctx request ⟨hundisturbed, rfl⟩
    have hend := (hleaves.sound (Prog.meets_const hcalm _ w)).2
    obtain ⟨_, _, choice, ⟨_, hclock⟩, heffect⟩ := hend.calm (fun _ _ _ hguard => hguard.1) hack
    rw [hclock] at heffect
    exact (heffect.sameView_iff hkeyed hsettled).mp (hsame _ hmeets)
  · intro hnot choices hmeets
    have hleaves : Alone client (ClockShows now) (AckLeaves (ClockShows now) ctx w.db
        request) (ackMessage ctx request) w :=
      alone_ackMessage ctx request ⟨hundisturbed, rfl⟩
    have hend := (hleaves.sound hmeets).2
    rcases hend.rows with hsame | ⟨hack, _, choice, hclock, heffect⟩
    · rw [hsame]
      exact ⟨rfl, rfl⟩
    · rw [show choice.clock = now from hclock] at heffect
      exact (heffect.sameView_iff hkeyed hsettled).mpr (hnot hack)

theorem settled_of_ackOk (hundisturbed : Undisturbed client w) (hkeyed : w.db.Keyed)
    {choices : Nat → Choice}
    (hok : AckOk ((ackMessage ctx request).solo (fun w : World => w.exec client) w choices).2) :
    let first := ((ackMessage ctx request).solo (fun w : World => w.exec client) w choices).1
    Undisturbed client first ∧ first.db.Keyed ∧
      Receipted first.db request.userId request.messageId := by
  have hleaves : Alone client (fun _ _ _ => True) (AckLeaves (fun _ _ _ => True) ctx w.db
      request) (ackMessage ctx request) w :=
    alone_ackMessage ctx request ⟨hundisturbed, rfl⟩
  obtain ⟨hundisturbed', hend⟩ := hleaves.sound ((ackMessage ctx request).meets_true w choices)
  obtain ⟨_, _, choice, _, heffect⟩ := hend.ok hok
  exact ⟨hundisturbed', heffect.keyed hkeyed, heffect.settles hkeyed⟩

/-- Once the acknowledgement was answered with OK, a repetition of it changes the
view of the sender exactly if it comes through at a time behind the delivery time. -/
theorem repeated_ack_sameView_iff (hundisturbed : Undisturbed client w)
    (hkeyed : w.db.Keyed) (before after : List (ReceiptCall × (Nat → Choice)))
    (ctx : RpcContext) (request : AckMessageRequest) (choices : Nat → Choice)
    (hok : AckOk ((ackMessage ctx request).solo (fun w : World => w.exec client)
      (serve client w before) choices).2) :
    let first := ((ackMessage ctx request).solo (fun w : World => w.exec client)
      (serve client w before) choices).1
    let later := serve client first after
    ∀ (ctx' : RpcContext) (again : AckMessageRequest) (now : Int64),
      again.userId = request.userId → again.messageId = request.messageId →
      ((∀ choices, (ackMessage ctx' again).Meets (fun w : World => w.exec client)
          (ClockShows now) later choices →
        SameView later.db ((ackMessage ctx' again).solo (fun w : World => w.exec client)
          later choices).1.db again.userId again.messageId) ↔
        NotLater ctx' later.db again now) := by
  intro first later ctx' again now huser hmessage
  obtain ⟨hstart, hkeeps⟩ := serve_keeps hundisturbed hkeyed before
  obtain ⟨hfirst, hkeyed', hsettled⟩ := settled_of_ackOk hstart hkeeps.keyed hok
  obtain ⟨hlater, hkeeps'⟩ := serve_keeps hfirst hkeyed' after
  refine sameView_iff hlater hkeeps'.keyed ctx' again now ?_
  rw [huser, hmessage]
  exact hkeeps'.settled hsettled

/-! ### User 2 acknowledges message 50 -/

instance (answer : AckMessageResponse) : Decidable (AckOk answer) :=
  decidable_of_iff (answer.response.any fun common => decide (Ok common)) (by
    simp only [AckOk, Option.any_eq_true, decide_eq_true_eq])

instance (ctx : RpcContext) (db : Db) (request : AckMessageRequest) (now : Int64) :
    Decidable (NotLater ctx db request now) :=
  @instDecidableForall _ _ inferInstance (Option.decidableForallMem _)

def ackFifty : AckMessageRequest := { userId := 2, messageId := 50 }

def ackedAt (w : World) (now : Int64) : World × AckMessageResponse :=
  (ackMessage {} ackFifty).solo (fun w : World => w.exec 0) w fun _ => { clock := now }

theorem ack_behind_delivery_sameView :
    let first := ackedAt twoMessages 5
    AckOk first.2 ∧ ∀ choices, (ackMessage {} ackFifty).Meets
      (fun w : World => w.exec 0) (ClockShows 3) first.1 choices →
        SameView first.1.db ((ackMessage {} ackFifty).solo (fun w : World => w.exec 0)
          first.1 choices).1.db 2 50 := by
  have hok : AckOk (ackedAt twoMessages 5).2 := by decide +kernel
  have hnot : NotLater {} (ackedAt twoMessages 5).1.db ackFifty 3 := by decide +kernel
  exact ⟨hok, (repeated_ack_sameView_iff (twoMessages_undisturbed 0) twoMessages_keyed
    [] [] {} ackFifty _ hok {} ackFifty 3 rfl rfl).mpr hnot⟩

/-- The second acknowledgement moves the delivery time that the sender sees. -/
theorem second_ack_moves_delivery :
    let first := ackedAt twoMessages 5
    let second := ackedAt first.1 9
    AckOk first.2 ∧ AckOk second.2 ∧ reported first.1.db 50 2 = [⟨50, 2, 5, 0⟩] ∧
      reported second.1.db 50 2 = [⟨50, 2, 9, 0⟩] := by
  decide +kernel

end NebulaIM.Message
