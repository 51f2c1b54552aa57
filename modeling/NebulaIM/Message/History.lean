import NebulaIM.Foundation.Paging
import NebulaIM.Message.Receipts

/-!
# Reading a conversation page by page

A client asks `ListConversationMessages` for the newest page, then for the page
before the cursor of each answer until `has_more` is false, while others send to
the conversation.
-/

namespace NebulaIM.Message

open Foundation Foundation.Store Foundation.Paging
open Backend Protocol
open Foundation.Wire (Bytes)

def conversationRows (db : Db) (conversationId : UInt64) : List MessageRecord :=
  (Table.rows db.messages).filter fun row => row.conversationId = conversationId

/-! ## One statement -/

theorem history_eq (db : Db) (conversationId : UInt64) (beforeTime : Int64)
    (beforeMessageId : UInt64) {cursor : Option (Int ×ₗ Nat)}
    (hcursor : ∀ row, Db.beforeCursor beforeTime beforeMessageId row =
      cursor.all fun bound => position row < bound) (limit : Nat) :
    db.history conversationId beforeTime beforeMessageId limit =
      newest position (conversationRows db conversationId) cursor limit := by
  have horder : (fun a b : MessageRecord => b.createdAt < a.createdAt ∨
      (b.createdAt = a.createdAt ∧ b.messageId ≤ a.messageId)) =
      fun a b => position b ≤ position a := by
    funext a b
    exact propext position_le.symm
  simp only [Db.history, newest, conversationRows, List.filter_filter, hcursor, Bool.and_comm]
  congr 1
  simp only [horder]

theorem history_start (db : Db) (conversationId : UInt64) (limit : Nat) :
    db.history conversationId 0 0 limit =
      newest position (conversationRows db conversationId) none limit :=
  history_eq db conversationId 0 0 (fun _ => rfl) limit

theorem history_after (db : Db) (conversationId : UInt64) {cursor : MessageRecord}
    (htime : 0 < cursor.createdAt) (hid : 0 < cursor.messageId) (limit : Nat) :
    db.history conversationId cursor.createdAt cursor.messageId limit =
      newest position (conversationRows db conversationId) (some (position cursor))
        limit := by
  refine history_eq db conversationId _ _ (fun row => ?_) limit
  rw [Db.beforeCursor, if_pos (by simp [htime, hid]), Option.all_some, Bool.eq_iff_iff]
  simp only [Bool.or_eq_true, Bool.and_eq_true, decide_eq_true_eq, beq_iff_eq]
  exact position_lt.symm

theorem conversationRows_nodup {db : Db} (hkeyed : db.Keyed) (conversationId : UInt64) :
    (conversationRows db conversationId).Nodup :=
  (List.Nodup.of_map MessageRecord.messageId hkeyed.messages.nodup).filter _

theorem position_nodup {db : Db} (hkeyed : db.Keyed) (conversationId : UInt64) :
    ((conversationRows db conversationId).map position).Nodup := by
  have hids : ((conversationRows db conversationId).map MessageRecord.messageId).Nodup :=
    (List.filter_sublist.map _).nodup hkeyed.messages.nodup
  refine List.pairwise_map.mpr ((List.pairwise_map.mp hids).imp fun hne heq => hne ?_)
  exact UInt64.toNat_inj.mp (congrArg Prod.snd (toLex.injective heq))

/-! ## The calls -/

/-- The limit of `ListConversationMessages`. -/
def pageLimit (pageSize : UInt32) : Nat :=
  if pageSize = 0 then 50 else min pageSize.toNat 100

theorem solo_listConversationMessages {client : Nat} {w : World} {ctx : RpcContext}
    {request : ListConversationMessagesRequest} {choices : Nat → Choice}
    (hauthorized : ctx.authorized = true)
    (hreads : readsConversation w.db request.requesterUserId request.conversationId = true)
    (hfaults : ∀ n, (choices n).fault = .none) :
    ((listConversationMessages ctx request).solo (fun w : World => w.exec client) w choices).2 =
      historyPage request.requestId ((ctx.threadTraceId.map TraceId.bytes).getD [])
        (pageLimit request.pageSize)
        (w.db.history request.conversationId request.beforeTime request.beforeMessageId
          (pageLimit request.pageSize + 1)) := by
  simp only [readsConversation, Bool.and_eq_true, decide_eq_true_eq] at hreads
  obtain ⟨⟨huser, hconversation⟩, howns⟩ := hreads
  have hzero : ¬ (request.requesterUserId = 0 ∨ request.conversationId = 0) :=
    not_or.mpr ⟨huser, hconversation⟩
  have howner : ((w.db.conversations.lookup (request.requesterUserId,
      request.conversationId)).any fun row => !row.deleted) = true := howns
  unfold listConversationMessages canReadConversation
  rw [if_neg (by simp [hauthorized]), if_neg hzero, if_neg hzero,
    solo_query (hfaults 0) fun _ _ => rfl]
  rw [if_neg (by simp [howner]), solo_query (hfaults 1) fun _ _ => rfl]
  rfl

/-- One call of `ListConversationMessages` on the rows that it finds. -/
structure Fetch where
  ctx : RpcContext := {}
  requestId : Bytes := []
  pageSize : UInt32
  world : World
  choices : Nat → Choice

namespace Fetch

variable (client : Nat) (userId conversationId : UInt64)

def request (fetch : Fetch) (before : Int64 × UInt64) : ListConversationMessagesRequest where
  requestId := fetch.requestId
  requesterUserId := userId
  conversationId := conversationId
  beforeTime := before.1
  pageSize := fetch.pageSize
  beforeMessageId := before.2

def respond (fetch : Fetch) (before : Int64 × UInt64) :
    ListConversationMessagesResponse :=
  ((listConversationMessages fetch.ctx (fetch.request userId conversationId before)).solo
    (fun w : World => w.exec client) fetch.world fetch.choices).2

def traceId (fetch : Fetch) : Bytes := (fetch.ctx.threadTraceId.map TraceId.bytes).getD []

/-- The user may read the conversation, and no statement fails. -/
structure Answered (fetch : Fetch) : Prop where
  authorized : fetch.ctx.authorized = true
  pageSize : 0 < fetch.pageSize
  keyed : fetch.world.db.Keyed
  reads : readsConversation fetch.world.db userId conversationId = true
  faults : ∀ n, (fetch.choices n).fault = .none

variable {client userId conversationId}

theorem Answered.limit_pos {fetch : Fetch}
    (h : fetch.Answered userId conversationId) : 0 < pageLimit fetch.pageSize := by
  have hpositive : 0 < fetch.pageSize.toNat := UInt32.lt_iff_toNat_lt.mp h.pageSize
  unfold pageLimit
  split <;> omega

theorem respond_eq {fetch : Fetch} (h : fetch.Answered userId conversationId)
    (before : Int64 × UInt64) :
    fetch.respond client userId conversationId before =
      historyPage fetch.requestId fetch.traceId (pageLimit fetch.pageSize)
        (fetch.world.db.history conversationId before.1 before.2 (pageLimit fetch.pageSize + 1)) :=
  solo_listConversationMessages h.authorized h.reads h.faults

end Fetch

section Reading

variable (client : Nat) (userId conversationId : UInt64) (fetches : Nat → Fetch)

/-- The cursor of call `n`: none at first, then that of the answer before. -/
def beforeAt : Nat → Int64 × UInt64
  | 0 => (0, 0)
  | n + 1 =>
    let answer := (fetches n).respond client userId conversationId (beforeAt n)
    (answer.nextBeforeTime, answer.nextBeforeMessageId)

def answerAt (n : Nat) : ListConversationMessagesResponse :=
  (fetches n).respond client userId conversationId (beforeAt client userId conversationId fetches n)

/-- What the statement of call `n` selects. -/
def selectAt (n : Nat) (before : Int64 × UInt64) (limit : Nat) : List MessageRecord :=
  (fetches n).world.db.history conversationId before.1 before.2 limit

def cursorOf (row : MessageRecord) : Int64 × UInt64 := (row.createdAt, row.messageId)

abbrev pageAt (n : Nat) : List MessageRecord :=
  page (selectAt conversationId fetches) (0, 0) cursorOf (fun n => pageLimit (fetches n).pageSize) n

variable {client userId conversationId fetches}

theorem nextBefore_historyPage (requestId traceId : Bytes) (limit : Nat)
    (rows : List MessageRecord) :
    ((historyPage requestId traceId limit rows).nextBeforeTime,
      (historyPage requestId traceId limit rows).nextBeforeMessageId) =
      ((rows.take limit).getLast?.map cursorOf).getD (0, 0) := by
  simp only [historyPage, List.head?_reverse]
  cases (rows.take limit).getLast? <;> rfl

theorem beforeAt_eq (hanswered : ∀ n, (fetches n).Answered userId conversationId) (n : Nat) :
    beforeAt client userId conversationId fetches n =
      cursorAt (selectAt conversationId fetches) (0, 0) cursorOf
        (fun n => pageLimit (fetches n).pageSize) n := by
  induction n with
  | zero => rfl
  | succ n ih =>
    rw [beforeAt, cursorAt, Fetch.respond_eq (hanswered n), nextBefore_historyPage, ih]
    rfl

/-- The answer to call `n` in terms of the rows that it found. -/
theorem answerAt_eq (hanswered : ∀ n, (fetches n).Answered userId conversationId) (n : Nat) :
    (answerAt client userId conversationId fetches n).messages =
        ((pageAt conversationId fetches n).reverse.map (toMessageData (fetches n).traceId)) ∧
      (answerAt client userId conversationId fetches n).hasMore =
        more (selectAt conversationId fetches) (0, 0) cursorOf
          (fun n => pageLimit (fetches n).pageSize) n := by
  rw [answerAt, Fetch.respond_eq (hanswered n), beforeAt_eq hanswered]
  exact ⟨rfl, rfl⟩

/-- The rows of the first call are still there, and others are newer. -/
structure GrowsAbove (conversationId : UInt64) (db db' : Db) : Prop where
  kept : ∀ row ∈ conversationRows db conversationId, row ∈ conversationRows db' conversationId
  added : ∀ row ∈ conversationRows db' conversationId, row ∈ conversationRows db conversationId ∨
      ∀ old ∈ conversationRows db conversationId, position old < position row

/-- The pages hold every message of the first call once, each page from the oldest
on and below the page before it, and the last page says that there are no more. -/
theorem pages_hold_conversation (hanswered : ∀ n, (fetches n).Answered userId conversationId)
    (hpositive : ∀ row ∈ conversationRows (fetches 0).world.db conversationId,
      0 < row.createdAt ∧ 0 < row.messageId)
    (hgrows : ∀ n, GrowsAbove conversationId (fetches 0).world.db (fetches n).world.db) :
    ∃ (last : Nat) (rowsOf : Nat → List MessageRecord),
      (∀ n < last, (answerAt client userId conversationId fetches n).hasMore = true) ∧
      (answerAt client userId conversationId fetches last).hasMore = false ∧
      (∀ n ≤ last, (answerAt client userId conversationId fetches n).messages =
        (rowsOf n).map (toMessageData (fetches n).traceId)) ∧
      ((List.range (last + 1)).flatMap rowsOf).Perm
        (conversationRows (fetches 0).world.db conversationId) ∧
      ((List.range (last + 1)).flatMap rowsOf).Nodup ∧
      (∀ n ≤ last, (rowsOf n).Pairwise fun row newer => position row < position newer) ∧
      ∀ n m, n < m → m ≤ last → ∀ row ∈ rowsOf m, ∀ newer ∈ rowsOf n,
        position row < position newer := by
  have hkeyed := (hanswered 0).keyed
  have hnodup (n : Nat) := conversationRows_nodup (hanswered n).keyed conversationId
  generalize hsorted : (conversationRows (fetches 0).world.db conversationId).insertionSort
    (fun row older => position older ≤ position row) = sorted
  have hdescending : Descending position sorted := by
    rw [← hsorted]
    exact descending_insertionSort (position_nodup hkeyed conversationId)
  have hperm : sorted.Perm (conversationRows (fetches 0).world.db conversationId) := by
    rw [← hsorted]
    exact List.perm_insertionSort _ _
  have hstart (limit : Nat) : selectAt conversationId fetches 0 (0, 0) limit =
      sorted.take limit := by
    rw [selectAt, history_start]
    exact newest_none hdescending (hnodup 0) (fun row => hperm.mem_iff.symm) limit
  have hafter (n : Nat) (newer : List MessageRecord) (cursor : MessageRecord)
      (older : List MessageRecord) (hsplit : sorted = newer ++ cursor :: older)
      (limit : Nat) : selectAt conversationId fetches (n + 1) (cursorOf cursor) limit =
        older.take limit := by
    subst hsplit
    obtain ⟨htime, hid⟩ := hpositive cursor (hperm.mem_iff.mp (by simp))
    rw [selectAt, cursorOf, history_after _ _ htime hid]
    refine newest_after hdescending (hnodup (n + 1)) (fun row hrow => ?_) (fun row hrow => ?_) limit
    · exact (hgrows (n + 1)).kept row (hperm.mem_iff.mp hrow)
    · refine ((hgrows (n + 1)).added row hrow).imp hperm.mem_iff.mpr ?_
      exact fun hnew old hold => hnew old (hperm.mem_iff.mp hold)
  obtain ⟨last, hpages, hmores, hend⟩ := reads_all (fun n => (hanswered n).limit_pos) hstart hafter
  have hreversed : ((List.range (last + 1)).flatMap fun n =>
      (pageAt conversationId fetches n).reverse).Perm sorted := by
    rw [← hpages]
    exact List.Perm.flatMap_left _ fun n _ => List.reverse_perm _
  obtain ⟨hwithin, hacross⟩ := List.pairwise_flatMap.mp (hpages.symm ▸ hdescending)
  refine ⟨last, fun n => (pageAt conversationId fetches n).reverse, ?_, ?_, ?_,
    hreversed.trans hperm, ?_, ?_, ?_⟩
  · intro n hn
    rw [(answerAt_eq hanswered n).2]
    exact hmores n hn
  · rw [(answerAt_eq hanswered last).2]
    exact hend
  · exact fun n _ => (answerAt_eq hanswered n).1
  · exact (hreversed.trans hperm).nodup_iff.mpr (hnodup 0)
  · intro n hn
    exact List.pairwise_reverse.mpr (hwithin n (List.mem_range.mpr (by omega)))
  · intro n m hlt hle row hrow newer hnewer
    have hordered := List.pairwise_iff_getElem.mp hacross n m (by simp; omega) (by simp; omega) hlt
    simp only [List.getElem_range] at hordered
    exact hordered newer (List.mem_reverse.mp hnewer) row (List.mem_reverse.mp hrow)

end Reading

def oneByOne (_ : Nat) : Fetch where
  pageSize := 1
  world := twoMessages
  choices := fun _ => {}

theorem oneByOne_reads_both : ∃ (last : Nat) (rowsOf : Nat → List MessageRecord),
    (answerAt 0 2 7 oneByOne last).hasMore = false ∧
      ((List.range (last + 1)).flatMap rowsOf).Perm (conversationRows twoMessages.db 7) := by
  have hreads : readsConversation twoMessages.db 2 7 = true := by decide +kernel
  have hanswered (n : Nat) : (oneByOne n).Answered 2 7 :=
    ⟨rfl, (by decide : (0 : UInt32) < 1), twoMessages_keyed, hreads, fun _ => rfl⟩
  have hrows : conversationRows twoMessages.db 7 = [sentToTwo 51, sentToTwo 50] := by
    decide +kernel
  have hpositive : ∀ row ∈ conversationRows (oneByOne 0).world.db 7,
      0 < row.createdAt ∧ 0 < row.messageId := by
    intro row hrow
    have hmem : row ∈ [sentToTwo 51, sentToTwo 50] := hrows ▸ hrow
    simp only [List.mem_cons, List.not_mem_nil, or_false] at hmem
    rcases hmem with rfl | rfl <;> decide
  obtain ⟨last, rowsOf, _, hend, _, hperm, _⟩ :=
    @pages_hold_conversation 0 2 7 oneByOne hanswered hpositive
      fun _ => ⟨fun _ hrow => hrow, fun _ hrow => .inl hrow⟩
  exact ⟨last, rowsOf, hend, hperm⟩

end NebulaIM.Message
