import NebulaIM.Backend.Rows
import NebulaIM.Foundation.Merging

/-!
# Receipts merge

The three statements of `MessageReceiptDao` that write receipts.  Each puts a row
for every pair of a message and a user that it covers, and what it does to the
columns of such a pair is a maximum: statements that come again, or in another
order, change nothing.
-/

namespace NebulaIM.Backend

open Foundation Foundation.Store

inductive ReceiptOp where
  | upsertDelivered (messageId userId : UInt64) (deliveredAt : Int64)
  | markRead (messageId userId : UInt64) (readAt : Int64)
  | markConversationRead (conversationId userId upToMessageId : UInt64)
      (upToCreatedAt readAt : Int64)
  deriving DecidableEq, Repr

variable {db : Db} {op : ReceiptOp}

/-- `delivered_at` and `read_at` -/
structure ReceiptTimes where
  deliveredAt : Int64
  readAt : Int64
  deriving DecidableEq, Repr

def Db.receiptTimes (db : Db) (messageId userId : UInt64) : Option ReceiptTimes :=
  (db.receipts.lookup (messageId, userId)).map fun row => ⟨row.deliveredAt, row.readAt⟩

namespace ReceiptOp

def stmt : ReceiptOp → Stmt
  | .upsertDelivered messageId userId deliveredAt => .upsertDelivered messageId userId deliveredAt
  | .markRead messageId userId readAt => .markRead messageId userId readAt
  | .markConversationRead conversationId userId upToMessageId upToCreatedAt readAt =>
    .markConversationRead conversationId userId upToMessageId upToCreatedAt readAt

def time : ReceiptOp → Int64
  | .upsertDelivered _ _ time | .markRead _ _ time
  | .markConversationRead _ _ _ _ time => time

def reads : ReceiptOp → Bool
  | .upsertDelivered _ _ _ => false
  | .markRead _ _ _ | .markConversationRead _ _ _ _ _ => true

def run (db : Db) (op : ReceiptOp) : Db :=
  applyAll (D := dialect) db (op.stmt.plan {} db []).writes

def covers (db : Db) (messageId userId : UInt64) : ReceiptOp → Bool
  | .upsertDelivered message user _ | .markRead message user _ =>
    (messageId, userId) = (message, user)
  | .markConversationRead conversationId user upToMessageId upToCreatedAt _ =>
    userId = user && (db.readable conversationId user upToMessageId
      upToCreatedAt).any fun row => row.messageId = messageId

def receipt (db : Db) (messageId userId : UInt64) (op : ReceiptOp) :
    MessageReceipt :=
  if op.reads then db.markedRead messageId userId op.time
  else db.delivered messageId userId op.time

/-- The columns of a receipt that the statement covers. -/
def merge (op : ReceiptOp) : Option ReceiptTimes → ReceiptTimes
  | none => ⟨op.time, if op.reads then op.time else 0⟩
  | some old =>
    ⟨max old.deliveredAt op.time,
      if op.reads then max old.readAt op.time else old.readAt⟩

/-! ## One statement -/

theorem mem_writes {write : Write} : write ∈ (op.stmt.plan {} db []).writes ↔
      ∃ messageId userId, op.covers db messageId userId = true ∧
        write = .putReceipt (op.receipt db messageId userId) := by
  cases op with
  | markConversationRead conversationId user upToMessageId upToCreatedAt readAt =>
    simp only [stmt, Stmt.plan, writing, List.mem_map, covers, Bool.and_eq_true,
      decide_eq_true_eq, List.any_eq_true]
    constructor
    · rintro ⟨row, hrow, rfl⟩
      exact ⟨row.messageId, user, ⟨rfl, row, hrow, rfl⟩, rfl⟩
    · rintro ⟨_, _, ⟨rfl, row, hrow, rfl⟩, rfl⟩
      exact ⟨row, hrow, rfl⟩
  | _ =>
    simp only [stmt, Stmt.plan, writing, List.mem_singleton, covers,
      decide_eq_true_eq]
    constructor
    · rintro rfl
      exact ⟨_, _, rfl, rfl⟩
    · rintro ⟨_, _, ⟨⟩, rfl⟩
      rfl

theorem receipt_key (hkeyed : db.Keyed) (op : ReceiptOp) (messageId userId : UInt64) :
    ((op.receipt db messageId userId).messageId,
      (op.receipt db messageId userId).userId) = (messageId, userId) := by
  unfold receipt Db.markedRead Db.delivered
  cases hrow : db.receipts.lookup (messageId, userId) with
  | none =>
    dsimp only
    split <;> rfl
  | some row =>
    dsimp only
    split <;> exact hkeyed.receipts _ row hrow

theorem receipt_times (db : Db) (op : ReceiptOp) (messageId userId : UInt64) :
    (⟨(op.receipt db messageId userId).deliveredAt,
      (op.receipt db messageId userId).readAt⟩ : ReceiptTimes) =
      op.merge (db.receiptTimes messageId userId) := by
  unfold receipt Db.markedRead Db.delivered Db.receiptTimes merge
  cases hrow : db.receipts.lookup (messageId, userId) <;>
    cases op.reads <;> rfl

theorem run_keyed (hkeyed : db.Keyed) (op : ReceiptOp) : (op.run db).Keyed := hkeyed.applyAll _

theorem run_kept {Part : Type} (part : Db → Part)
    (hpart : ∀ db row, part (db.apply (.putReceipt row)) = part db) (db : Db)
    (op : ReceiptOp) : part (op.run db) = part db := by
  refine applyAll_kept (D := dialect) part (fun write hmem db => ?_) db
  obtain ⟨_, _, _, rfl⟩ := mem_writes.mp hmem
  exact hpart db _

theorem run_messages (db : Db) (op : ReceiptOp) : (op.run db).messages = db.messages :=
  run_kept Db.messages (fun _ _ => rfl) db op

theorem covers_congr {db' : Db} (hmessages : db'.messages = db.messages)
    (messageId userId : UInt64) (op : ReceiptOp) :
    op.covers db' messageId userId = op.covers db messageId userId := by
  cases op with
  | markConversationRead conversationId user upToMessageId upToCreatedAt readAt =>
    simp only [covers, Db.readable, hmessages]
  | _ => rfl

theorem lookup_run (hkeyed : db.Keyed) (op : ReceiptOp) (messageId userId : UInt64) :
    (op.run db).receipts.lookup (messageId, userId) =
      if op.covers db messageId userId then some (op.receipt db messageId userId)
      else db.receipts.lookup (messageId, userId) := by
  split
  · next hcovers =>
    have hput : .putReceipt (op.receipt db messageId userId) ∈
        (op.stmt.plan {} db []).writes := mem_writes.mpr ⟨_, _, hcovers, rfl⟩
    have hkey := receipt_key hkeyed op messageId userId
    have hthere : ((op.run db).receipts.lookup (messageId, userId)).isSome :=
      isSome_receipts_applyAll (fun id user hremove => by
        obtain ⟨_, _, _, heq⟩ := mem_writes.mp hremove
        cases heq) (.inr ⟨_, hput, hkey⟩)
    obtain ⟨row, hrow⟩ := Option.isSome_iff_exists.mp hthere
    rcases lookup_receipts_applyAll hrow with ⟨_, hnot⟩ | ⟨hmem, hown⟩
    · exact absurd hkey (hnot _ hput)
    · obtain ⟨message, user, _, heq⟩ := mem_writes.mp hmem
      cases heq
      rw [receipt_key hkeyed] at hown
      cases hown
      exact hrow
  · next hcovers =>
    apply lookup_receipts_frame
    intro write hmem htouch
    obtain ⟨message, user, hcovered, rfl⟩ := mem_writes.mp hmem
    have hkey := receipt_key hkeyed op message user
    simp only [Write.touches, List.mem_singleton, Key.receipt.injEq] at htouch
    rw [← htouch.1, ← htouch.2] at hkey
    cases hkey
    exact hcovers hcovered

theorem receiptTimes_run (hkeyed : db.Keyed) (op : ReceiptOp) (messageId userId : UInt64) :
    (op.run db).receiptTimes messageId userId =
      if op.covers db messageId userId then
        some (op.merge (db.receiptTimes messageId userId))
      else db.receiptTimes messageId userId := by
  unfold Db.receiptTimes
  rw [lookup_run hkeyed]
  split
  · exact congrArg some (receipt_times db op messageId userId)
  · rfl

/-! ## Maxima -/

theorem toInt_max (a b : Int64) : (max a b).toInt = max a.toInt b.toInt := by
  simp only [max]
  split
  · next hle =>
    have := Int64.le_iff_toInt_le.mp hle
    omega
  · next hlt =>
    have := Int64.lt_iff_toInt_lt.mp (Int64.not_le.mp hlt)
    omega

theorem toInt_pos {time : Int64} (h : 0 < time) : 0 < time.toInt := by
  simpa using Int64.lt_iff_toInt_lt.mp h

theorem merge_comm (old : Option ReceiptTimes) {first second : ReceiptOp}
    (hfirst : 0 < first.time) (hsecond : 0 < second.time) :
    second.merge (some (first.merge old)) = first.merge (some (second.merge old)) := by
  have hfirst := toInt_pos hfirst
  have hsecond := toInt_pos hsecond
  have hzero : (0 : Int64).toInt = 0 := rfl
  cases old <;> cases hread : first.reads <;> cases hread' : second.reads <;>
    simp only [merge, hread, hread', if_true, Bool.false_eq_true, if_false,
      ReceiptTimes.mk.injEq, ← Int64.toInt_inj, toInt_max, and_true] <;>
    omega

theorem merge_idem (old : Option ReceiptTimes) : op.merge (some (op.merge old)) = op.merge old := by
  cases old <;> cases hread : op.reads <;>
    simp only [merge, hread, if_true, Bool.false_eq_true, if_false,
      ReceiptTimes.mk.injEq, ← Int64.toInt_inj, toInt_max, and_true] <;>
    omega

/-- What an operation does to the columns of one receipt, while the messages are
those of `db`. -/
def mergeAt (db : Db) (messageId userId : UInt64) (old : Option ReceiptTimes)
    (op : ReceiptOp) : Option ReceiptTimes :=
  if op.covers db messageId userId then some (op.merge old) else old

theorem mergeAt_merging (db : Db) (messageId userId : UInt64) :
    Merging (mergeAt db messageId userId) fun op => 0 < op.time where
  comm old first second hfirst hsecond := by
    unfold mergeAt
    split
    · split
      · exact congrArg some (merge_comm old hfirst hsecond)
      · rfl
    · rfl
  idem old op _ := by
    unfold mergeAt
    split
    · exact congrArg some (merge_idem old)
    · rfl

/-! ## All statements -/

theorem foldl_run (hkeyed : db.Keyed) (ops : List ReceiptOp) :
    (ops.foldl run db).Keyed ∧ (ops.foldl run db).messages = db.messages ∧
      ∀ messageId userId, (ops.foldl run db).receiptTimes messageId userId =
        ops.foldl (mergeAt db messageId userId) (db.receiptTimes messageId userId) := by
  induction ops generalizing db with
  | nil => exact ⟨hkeyed, rfl, fun _ _ => rfl⟩
  | cons op ops ih =>
    obtain ⟨hafter, hmessages, htimes⟩ := ih (run_keyed hkeyed op)
    have hsame := run_messages db op
    refine ⟨hafter, hmessages.trans hsame, fun messageId userId => ?_⟩
    have hstep : mergeAt (op.run db) messageId userId =
        mergeAt db messageId userId := by
      funext old other
      simp only [mergeAt, covers_congr hsame]
    rw [List.foldl_cons, htimes, hstep, receiptTimes_run hkeyed, List.foldl_cons]
    rfl

/-- A read message was delivered, and a receipt has a delivery time. -/
def Sound (times : ReceiptTimes) : Prop :=
  times.readAt ≤ times.deliveredAt ∧ 0 ≤ times.readAt ∧ 0 < times.deliveredAt

theorem merge_sound (hop : 0 < op.time) {old : Option ReceiptTimes}
    (hold : ∀ times ∈ old, Sound times) : Sound (op.merge old) := by
  have hop := toInt_pos hop
  have hzero : (0 : Int64).toInt = 0 := rfl
  cases old with
  | none =>
    cases hread : op.reads <;>
      simp only [merge, hread, Sound, Int64.le_iff_toInt_le, Int64.lt_iff_toInt_lt,
        if_true, Bool.false_eq_true, if_false] <;>
      omega
  | some times =>
    have hold := hold times rfl
    cases hread : op.reads <;>
      simp only [merge, hread, Sound, Int64.le_iff_toInt_le, Int64.lt_iff_toInt_lt,
        if_true, Bool.false_eq_true, if_false, toInt_max] at hold ⊢ <;>
      omega

theorem foldl_mergeAt_sound {messageId userId : UInt64} {ops : List ReceiptOp}
    (hops : ∀ op ∈ ops, 0 < op.time) {old : Option ReceiptTimes}
    (hold : ∀ times ∈ old, Sound times) :
    ∀ times ∈ ops.foldl (mergeAt db messageId userId) old, Sound times := by
  induction ops generalizing old with
  | nil => exact hold
  | cons op ops ih =>
    refine ih (fun other hmem => hops other (List.mem_cons_of_mem _ hmem)) ?_
    intro times htimes
    unfold mergeAt at htimes
    split at htimes
    · cases htimes
      exact merge_sound (hops op List.mem_cons_self) hold
    · exact hold times htimes

/-- Receipt statements with positive times leave the same columns behind in any
order and with any repetitions, and they keep the columns sound. -/
theorem receipts_merge {db : Db} (hkeyed : db.Keyed) {ops ops' : List ReceiptOp}
    (hpositive : ∀ op ∈ ops, 0 < op.time) (hsame : ∀ op, op ∈ ops ↔ op ∈ ops')
    (messageId userId : UInt64) :
    (ops.foldl run db).receiptTimes messageId userId =
        (ops'.foldl run db).receiptTimes messageId userId ∧
      ((∀ times ∈ db.receiptTimes messageId userId, Sound times) →
        ∀ times ∈ (ops.foldl run db).receiptTimes messageId userId, Sound times) := by
  obtain ⟨_, _, htimes⟩ := foldl_run hkeyed ops
  obtain ⟨_, _, htimes'⟩ := foldl_run hkeyed ops'
  rw [htimes, htimes']
  exact ⟨(mergeAt_merging db messageId userId).foldl_congr hpositive hsame _,
    foldl_mergeAt_sound hpositive⟩

/-- A read mark that overtakes the acknowledgement and is repeated. -/
theorem overtaken_merge :
    let acked := ReceiptOp.upsertDelivered 1 2 5
    let marked := ReceiptOp.markRead 1 2 7
    ([acked, marked].foldl run {}).receiptTimes 1 2 =
      ([marked, acked, marked].foldl run {}).receiptTimes 1 2 :=
  (receipts_merge .empty (by decide) (by
    intro op
    simp only [List.mem_cons, List.not_mem_nil, or_false]
    tauto) 1 2).1

end ReceiptOp

end NebulaIM.Backend
