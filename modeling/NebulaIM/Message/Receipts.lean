import NebulaIM.Backend.Alone
import NebulaIM.Backend.Counts
import NebulaIM.Backend.Receipts
import NebulaIM.Message.ReadState
import Mathlib.Data.Set.Finite.Lemmas

/-!
# Receipts over whole calls

Calls of the handlers that write receipts, one after another.  Any of their
statements may fail, and the clock may show anything positive.
-/

namespace NebulaIM.Message

open Foundation Foundation.Store
open Backend Protocol
open Foundation.Wire (Bytes)

variable {message : MessageRecord}
variable {client : Nat} {guard : World → Op → Choice → Prop} {α : Type}
variable {post : α → Db → Prop} {db : Db} {w : World}

/-! ## The checks -/

def ownsConversation (db : Db) (userId conversationId : UInt64) : Bool :=
  (db.conversations.lookup (userId, conversationId)).any fun row => !row.deleted

/-- What `canReadConversation` answers if its statement succeeds. -/
def readsConversation (db : Db) (userId conversationId : UInt64) : Bool :=
  userId ≠ 0 && conversationId ≠ 0 && ownsConversation db userId conversationId

/-- What `canReceiveMessage` answers if its statement succeeds. -/
def receivesMessage (db : Db) (userId : UInt64) (record : MessageRecord) : Bool :=
  userId ≠ 0 && record.fromUserId ≠ userId &&
    if record.groupId ≠ 0 then readsConversation db userId record.conversationId
    else record.toUserId = userId

variable {userId conversationId : UInt64}

theorem alone_canReadConversation (h : Rests client db w) {f : Bool → Service α}
    (hfail : ∀ op choice, guard w op choice → choice.fault ≠ .none →
      Alone client guard post (f false) w)
    (hread : Alone client guard post (f (readsConversation db userId conversationId)) w) :
    Alone client guard post (canReadConversation userId conversationId >>= f) w := by
  unfold canReadConversation readsConversation at *
  split
  · next hzero =>
    have hfalse : (decide (userId ≠ 0) && decide (conversationId ≠ 0)) = false := by
      simp only [Bool.and_eq_false_iff, decide_eq_false_iff_not, not_not]
      exact hzero
    rw [hfalse] at hread
    exact hread
  · next hnonzero =>
    obtain ⟨huser, hconversation⟩ := not_or.mp hnonzero
    refine h.alone_query (fun _ _ => rfl) (fun choice => hfail _ choice) ?_
    simpa [huser, hconversation, ownsConversation] using hread

theorem alone_canReceiveMessage (h : Rests client db w) {userId : UInt64}
    {record : MessageRecord} {f : Bool → Service α}
    (hfail : ∀ op choice, guard w op choice → choice.fault ≠ .none →
      Alone client guard post (f false) w)
    (hread : Alone client guard post (f (receivesMessage db userId record)) w) :
    Alone client guard post (canReceiveMessage userId record >>= f) w := by
  unfold canReceiveMessage receivesMessage at *
  split
  · next hrefused =>
    have hfalse : (decide (userId ≠ 0) && decide (record.fromUserId ≠ userId)) =
        false := by
      simp only [Bool.and_eq_false_iff, decide_eq_false_iff_not, not_not]
      exact hrefused
    rw [hfalse] at hread
    exact hread
  · next hallowed =>
    obtain ⟨huser, hsender⟩ := not_or.mp hallowed
    simp only [ne_eq, huser, hsender, not_false_eq_true, decide_true, Bool.true_and] at hread
    split
    · next hgroup =>
      rw [if_pos hgroup] at hread
      exact alone_canReadConversation h hfail hread
    · next hsingle =>
      rw [if_neg hsingle] at hread
      exact hread

/-! ## The end of a mark -/

/-- The rows after the receipts of a mark and the new count of unread messages. -/
structure MarkedBy (op : ReceiptOp) (db db' : Db) : Prop where
  keyed : db'.Keyed
  messages : db'.messages = db.messages
  receipts : db'.receipts = (op.run db).receipts
  offline : db'.offline = db.offline

theorem recount_writes {now : Int64} {choice : Choice} {locked : List Key} :
    ∀ write ∈ ((Stmt.recalculateUnread userId conversationId now).plan choice db
      locked).writes, ∃ row, write = .putConversation row := by
  intro write hmem
  obtain ⟨row, _, rfl⟩ := List.mem_map.mp hmem
  exact ⟨_, rfl⟩

/-- The receipts are staged and the messages are counted again. -/
theorem MarkedBy.of_recount (hkeyed : db.Keyed) (op : ReceiptOp) {conversations : List Write}
    (hwrites : ∀ write ∈ conversations, ∃ row, write = .putConversation row) :
    MarkedBy op db (applyAll (D := dialect) (op.run db) conversations) := by
  have hkept {Part : Type} (part : Db → Part)
      (hpart : ∀ db row, part (db.apply (.putConversation row)) = part db) :
      part (applyAll (D := dialect) (op.run db) conversations) = part (op.run db) := by
    refine applyAll_kept (D := dialect) part (fun write hmem db => ?_) _
    obtain ⟨row, rfl⟩ := hwrites write hmem
    exact hpart db row
  exact ⟨(op.run_keyed hkeyed).applyAll _,
    (hkept Db.messages fun _ _ => rfl).trans (op.run_messages db),
    hkept Db.receipts fun _ _ => rfl,
    (hkept Db.offline fun _ _ => rfl).trans (op.run_kept Db.offline (fun _ _ => rfl) db)⟩

theorem alone_recount (hkeyed : db.Keyed) (op : ReceiptOp) {requestId : Bytes} {now : Int64}
    {post : CommonResponse → Db → Prop}
    (hfail : ∀ db', db' = db ∨ MarkedBy op db db' → post (fillResponse requestId .dbError "") db')
    (hok : ∀ db', MarkedBy op db db' → post (fillResponse requestId .ok "OK") db')
    (h : Staged client db (op.stmt.plan {} db []).writes w) :
    Alone client guard post (recount requestId userId conversationId now) w := by
  unfold recount
  refine h.alone_exec (fun _ next _ _ hnext => hnext.alone_ret (hfail _ (.inl rfl))) ?_
  intro choice next _ _ hnext
  have hmarked := MarkedBy.of_recount hkeyed op (@recount_writes (op.run db) userId
    conversationId now choice [])
  rw [ReceiptOp.run, ← applyAll_append] at hmarked
  refine hnext.alone_commit (fun _ later _ _ hlater => ?_) fun _ later _ _ hlater => ?_
  · rcases hlater with hlater | hlater
    · exact hlater.alone_ret (hfail _ (.inl rfl))
    · exact hlater.alone_ret (hfail _ (.inr hmarked))
  · exact hlater.alone_ret (hok _ hmarked)

/-! ## Marking a conversation -/

def PositiveClock : World → Op → Choice → Prop
  | _, .nowMs, choice => 0 < choice.clock
  | _, _, _ => True

def Ok (response : CommonResponse) : Prop := response.code = ErrorCode.ok.toInt32

theorem not_ok {requestId : Bytes} {code : ErrorCode} (hcode : code ≠ .ok)
    {message : String} : ¬ Ok (fillResponse requestId code message) :=
  ErrorCode.toInt32_ne hcode

/-- What a mark that was answered with OK has done. -/
def MarksUpTo (db : Db) (request : MarkConversationReadRequest)
    (answer : CommonResponse) (db' : Db) : Prop :=
  Ok answer → ∃ cursor now, db.messages.lookup request.upToMessageId = some cursor ∧
    cursor.conversationId = request.conversationId ∧ 0 < now ∧
    MarkedBy (.markConversationRead request.conversationId request.userId
      request.upToMessageId cursor.createdAt now) db db'

theorem alone_markConversationRead (hkeyed : db.Keyed) (ctx : RpcContext)
    (request : MarkConversationReadRequest) (h : Rests client db w) :
    Alone client PositiveClock (MarksUpTo db request) (markConversationRead ctx request) w := by
  have hfail {db' : Db} {code : ErrorCode} (hcode : code ≠ .ok) (message : String) :
      MarksUpTo db request (fillResponse request.requestId code message) db' :=
    fun hok => absurd hok (not_ok hcode)
  unfold markConversationRead
  split
  · exact h.alone_ret (hfail (by decide) _)
  split
  · exact h.alone_ret (hfail (by decide) _)
  refine alone_canReadConversation h (fun _ _ _ _ => h.alone_ret (hfail (by decide) _)) ?_
  split
  · exact h.alone_ret (hfail (by decide) _)
  refine h.alone_query (fun _ _ => rfl) (fun _ _ _ => h.alone_ret (hfail (by decide) _)) ?_
  split
  case h_2 => exact h.alone_ret (hfail (by decide) _)
  case h_1 cursor hcursor =>
    split
    · exact h.alone_ret (hfail (by decide) _)
    next hsame =>
      refine alone_call fun clock hclock => ?_
      refine h.alone_transaction (fun _ _ _ => hfail (by decide) _) fun next hnext => ?_
      refine hnext.alone_exec (fun _ _ _ _ hrests => hrests.alone_ret (hfail (by decide) _)) ?_
      intro choice staged _ _ hstaged
      exact alone_recount hkeyed (.markConversationRead request.conversationId
        request.userId request.upToMessageId cursor.createdAt clock.clock)
        (fun _ _ => hfail (by decide) _)
        (fun db' hmarked _ => ⟨cursor, _, hcursor, not_not.mp hsame, hclock, hmarked⟩)
        hstaged

/-- The user may read the message, and it comes at or before the cursor. -/
def ReadableUpTo (userId : UInt64) (message cursor : MessageRecord) : Prop :=
  message.fromUserId ≠ userId ∧ message.recalled = false ∧ position message ≤ position cursor

theorem covers_markConversationRead (hkeyed : db.Keyed) {cursor : MessageRecord}
    (hmessage : db.messages.lookup message.messageId = some message) {upToMessageId : UInt64}
    (hcursor : db.messages.lookup upToMessageId = some cursor) (userId : UInt64) (readAt : Int64) :
    (ReceiptOp.markConversationRead message.conversationId userId upToMessageId
      cursor.createdAt readAt).covers db message.messageId userId = true ↔
      ReadableUpTo userId message cursor := by
  have hid : cursor.messageId = upToMessageId := hkeyed.messages _ _ hcursor
  subst hid
  simp only [ReceiptOp.covers, Db.readable, ReadableUpTo, position_le, Bool.and_eq_true,
    decide_eq_true_eq, List.any_eq_true, List.mem_filter, Bool.or_eq_true, beq_iff_eq,
    bne_iff_ne, ne_eq, Bool.not_eq_true']
  constructor
  · rintro ⟨-, row, ⟨hrow, ⟨⟨-, hbefore⟩, hfrom⟩, hrecalled⟩, hsame⟩
    obtain ⟨key, hkey⟩ := Table.mem_rows.mp hrow
    -- a message has one row
    have heq : row = message := by
      rw [← hkeyed.messages _ _ hkey, hsame, hmessage] at hkey
      exact (Option.some.inj hkey).symm
    subst heq
    exact ⟨hfrom, hrecalled, hbefore⟩
  · rintro ⟨hfrom, hrecalled, hbefore⟩
    exact ⟨trivial, message, ⟨Table.mem_rows.mpr ⟨_, hmessage⟩, ⟨⟨rfl, hbefore⟩,
      hfrom⟩, hrecalled⟩, rfl⟩

theorem readBy_run (hkeyed : db.Keyed) (op : ReceiptOp) (hreads : op.reads = true)
    (htime : 0 < op.time) (messageId userId : UInt64) :
    (op.run db).readBy messageId userId = true ↔
      db.readBy messageId userId = true ∨ op.covers db messageId userId = true := by
  have htime := ReceiptOp.toInt_pos htime
  have hmarked : (op.receipt db messageId userId).readAt ≠ 0 := by
    have hmerge := congrArg ReceiptTimes.readAt (op.receipt_times db messageId userId)
    dsimp only at hmerge
    rw [hmerge, ne_eq, ← Int64.toInt_inj, Int64.toInt_zero]
    cases db.receiptTimes messageId userId with
    | none =>
      simp only [ReceiptOp.merge, hreads, if_true]
      omega
    | some old =>
      simp only [ReceiptOp.merge, hreads, if_true, ReceiptOp.toInt_max]
      omega
  unfold Db.readBy
  rw [op.lookup_run hkeyed]
  split
  · next hcovers => simp [hcovers, hmarked]
  · next hcovers => simp [hcovers]

theorem readBy_marksUpTo (hkeyed : db.Keyed) {request : MarkConversationReadRequest}
    {answer : CommonResponse} {db' : Db} (hmarks : MarksUpTo db request answer db')
    (hok : Ok answer) :
    db'.Keyed ∧ db'.messages = db.messages ∧
      ∃ cursor, db.messages.lookup request.upToMessageId = some cursor ∧
        ∀ message, db.messages.lookup message.messageId = some message →
          message.conversationId = request.conversationId →
          (db'.readBy message.messageId request.userId = true ↔
            db.readBy message.messageId request.userId = true ∨
              ReadableUpTo request.userId message cursor) := by
  obtain ⟨cursor, now, hcursor, _, hnow, hmarked⟩ := hmarks hok
  refine ⟨hmarked.keyed, hmarked.messages, cursor, hcursor, ?_⟩
  intro message hmessage hconversation
  rw [← hconversation] at hmarked
  rw [Db.readBy, hmarked.receipts, ← Db.readBy,
    ← covers_markConversationRead hkeyed hmessage hcursor request.userId now]
  exact readBy_run hkeyed (.markConversationRead _ _ _ _ now) rfl hnow _ _

/-- One call of `MarkConversationRead` for a given user and conversation. -/
structure MarkCall where
  ctx : RpcContext := {}
  requestId : Bytes := []
  upToMessageId : UInt64
  choices : Nat → Choice

section Marks

variable (client : Nat) (userId conversationId : UInt64)

def MarkCall.request (call : MarkCall) : MarkConversationReadRequest :=
  ⟨call.requestId, userId, conversationId, call.upToMessageId⟩

def MarkCall.run (w : World) (call : MarkCall) : World × CommonResponse :=
  (markConversationRead call.ctx (call.request userId conversationId)).solo
    (fun w : World => w.exec client) w call.choices

/-- The calls one after another: each is answered with OK, at a positive time. -/
def Succeed : World → List MarkCall → Prop
  | _, [] => True
  | w, call :: calls =>
    ((markConversationRead call.ctx (call.request userId conversationId)).Meets
      (fun w : World => w.exec client) PositiveClock w call.choices ∧
      Ok (call.run client userId conversationId w).2) ∧
    Succeed (call.run client userId conversationId w).1 calls

def markAll (w : World) (calls : List MarkCall) : World :=
  calls.foldl (fun w call => (call.run client userId conversationId w).1) w

end Marks

def cursors (db : Db) (calls : List MarkCall) : List MessageRecord :=
  calls.filterMap fun call => db.messages.lookup call.upToMessageId

section Marks

variable {userId conversationId : UInt64}

theorem MarkCall.run_read (hundisturbed : Undisturbed client w) (hkeyed : w.db.Keyed)
    {call : MarkCall} {next : World}
    (hnext : (call.run client userId conversationId w).1 = next)
    (hmeets : (markConversationRead call.ctx (call.request userId
      conversationId)).Meets (fun w : World => w.exec client) PositiveClock w call.choices)
    (hok : Ok (call.run client userId conversationId w).2) :
    Undisturbed client next ∧ next.db.Keyed ∧ next.db.messages = w.db.messages ∧
      ∃ cursor, w.db.messages.lookup call.upToMessageId = some cursor ∧
        ∀ message, w.db.messages.lookup message.messageId = some message →
          message.conversationId = conversationId →
          (next.db.readBy message.messageId userId = true ↔
            w.db.readBy message.messageId userId = true ∨ ReadableUpTo userId message cursor) := by
  subst hnext
  have hdone := (alone_markConversationRead hkeyed call.ctx
    (call.request userId conversationId) ⟨hundisturbed, rfl⟩).sound hmeets
  exact ⟨hdone.1, readBy_marksUpTo hkeyed hdone.2 hok⟩

theorem readBy_markAll (hundisturbed : Undisturbed client w) (hkeyed : w.db.Keyed)
    {calls : List MarkCall} (hsucceed : Succeed client userId conversationId w calls)
    (hmessage : w.db.messages.lookup message.messageId = some message)
    (hconversation : message.conversationId = conversationId) :
    (markAll client userId conversationId w calls).db.readBy message.messageId userId = true ↔
      w.db.readBy message.messageId userId = true ∨
        ∃ cursor ∈ cursors w.db calls, ReadableUpTo userId message cursor := by
  induction calls generalizing w with
  | nil => simp [markAll, cursors]
  | cons call calls ih =>
    obtain ⟨⟨hmeets, hok⟩, hrest⟩ := hsucceed
    generalize hnext : (call.run client userId conversationId w).1 = next at hrest
    obtain ⟨hundisturbed', hkeyed', hmessages, cursor, hcursor, hread⟩ :=
      MarkCall.run_read hundisturbed hkeyed hnext hmeets hok
    have hlater := ih hundisturbed' hkeyed' hrest (by rw [hmessages]; exact hmessage)
    have hcursors : cursors next.db calls = cursors w.db calls := by
      simp only [cursors, hmessages]
    have hfirst : cursors w.db (call :: calls) = cursor :: cursors w.db calls :=
      List.filterMap_cons_some hcursor
    rw [markAll, List.foldl_cons, hnext, ← markAll, hlater,
      hread message hmessage hconversation, hcursors, hfirst, List.exists_mem_cons_iff,
      or_assoc]

/-- The last of the messages in the order of `ListConversationMessages`. -/
def Greatest (messages : List MessageRecord) (top : MessageRecord) : Prop :=
  top ∈ messages ∧ ∀ other ∈ messages, position other ≤ position top

theorem exists_greatest {messages : List MessageRecord} (hne : messages ≠ []) :
    ∃ top, Greatest messages top :=
  Set.exists_max_image {message | message ∈ messages} position messages.finite_toSet
    (List.exists_mem_of_ne_nil _ hne)

theorem exists_readableUpTo_iff {messages : List MessageRecord} :
    (∃ cursor ∈ messages, ReadableUpTo userId message cursor) ↔
      ∃ top, Greatest messages top ∧ ReadableUpTo userId message top := by
  constructor
  · rintro ⟨cursor, hmem, hfrom, hrecalled, hbefore⟩
    obtain ⟨top, htop⟩ := exists_greatest (List.ne_nil_of_mem hmem)
    exact ⟨top, htop, hfrom, hrecalled, hbefore.trans (htop.2 cursor hmem)⟩
  · rintro ⟨top, htop, hread⟩
    exact ⟨top, htop.1, hread⟩

/-- After any successful marks a message of the conversation is read if it was
before, or if it is one of others that was not recalled and comes at or before the
greatest cursor. -/
theorem read_up_to_greatest_cursor (hundisturbed : Undisturbed client w) (hkeyed : w.db.Keyed)
    {calls : List MarkCall} (hsucceed : Succeed client userId conversationId w calls)
    {message : MessageRecord} (hmessage : w.db.messages.lookup message.messageId = some message)
    (hconversation : message.conversationId = conversationId) :
    (markAll client userId conversationId w calls).db.readBy message.messageId userId = true ↔
      w.db.readBy message.messageId userId = true ∨
        ∃ top, Greatest (cursors w.db calls) top ∧ ReadableUpTo userId message top := by
  rw [readBy_markAll hundisturbed hkeyed hsucceed hmessage hconversation, exists_readableUpTo_iff]

end Marks

/-! ### Two messages to user 2 -/

def sentToTwo (messageId : UInt64) : MessageRecord where
  messageId := messageId
  conversationId := 7
  fromUserId := 1
  toUserId := 2
  createdAt := 3

def twoMessages : World where
  sql :=
    { db := applyAll (D := dialect) { users := [1, 2] }
        [.insertMessage (sentToTwo 50), .insertMessage (sentToTwo 51),
          .putConversation { ownerUserId := 2, conversationId := 7 }] }

theorem twoMessages_undisturbed (client : Nat) : Undisturbed client twoMessages := fun _ _ => rfl

theorem twoMessages_keyed : twoMessages.db.Keyed :=
  Db.Keyed.applyAll ⟨.empty, .empty, .empty, .empty, .empty, .empty⟩ _

instance (w : World) (op : Op) (choice : Choice) : Decidable (PositiveClock w op choice) := by
  unfold PositiveClock
  split <;> infer_instance

instance (response : CommonResponse) : Decidable (Ok response) :=
  inferInstanceAs (Decidable (_ = _))

instance decidableSucceed (client : Nat) (userId conversationId : UInt64) :
    (w : World) → (calls : List MarkCall) → Decidable (Succeed client userId conversationId w calls)
  | _, [] => .isTrue trivial
  | w, call :: calls =>
    have := decidableSucceed client userId conversationId
      (call.run client userId conversationId w).1 calls
    inferInstanceAs (Decidable ((_ ∧ _) ∧ _))

/-- The later mark has the older cursor, and both messages stay read. -/
theorem older_cursor_keeps_read :
    let calls : List MarkCall := [⟨{}, [], 51, fun _ => { clock := 9 }⟩,
      ⟨{}, [], 50, fun _ => { clock := 4 }⟩]
    ∀ messageId ∈ ([50, 51] : List UInt64),
      (markAll 0 2 7 twoMessages calls).db.readBy messageId 2 = true := by
  intro calls messageId hmem
  have hsucceed : Succeed 0 2 7 twoMessages calls := by decide +kernel
  have hcursors : cursors twoMessages.db calls = [sentToTwo 51, sentToTwo 50] := by
    decide +kernel
  have hread (hmessage : twoMessages.db.messages.lookup messageId = some (sentToTwo messageId)) :=
    @read_up_to_greatest_cursor 0 twoMessages 2 7 (twoMessages_undisturbed 0)
      twoMessages_keyed calls hsucceed (sentToTwo messageId) hmessage rfl
  have hgreatest : Greatest (cursors twoMessages.db calls) (sentToTwo 51) := by
    rw [hcursors]
    refine ⟨List.mem_cons_self, ?_⟩
    simp only [List.forall_mem_cons]
    exact ⟨by decide, by decide,
      fun _ hmem => absurd hmem List.not_mem_nil⟩
  simp only [List.mem_cons, List.not_mem_nil, or_false] at hmem
  rcases hmem with rfl | rfl
  · exact (hread (by decide +kernel)).mpr (.inr ⟨_, hgreatest, by decide, rfl, by decide⟩)
  · exact (hread (by decide +kernel)).mpr (.inr ⟨_, hgreatest, by decide, rfl, by decide⟩)

end NebulaIM.Message
