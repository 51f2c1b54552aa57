import NebulaIM.Relation.Service
import NebulaIM.Backend.Alone
import NebulaIM.Foundation.Paging
import Mathlib.Data.Prod.Lex

/-!
# The conversation list of a user

`ListConversations` reads the list page by page; `DeleteConversation`,
`PinConversation` and `MuteConversation` change one row of it and answer from the
number of rows that the `UPDATE` has changed.
-/

namespace NebulaIM.ConversationService

open Foundation Foundation.Store Foundation.Paging
open Backend Protocol Message
open Foundation.Wire (Bytes)

/-! ## Listing -/

structure ListConversationsRequest where
  requestId : Bytes := []
  userId : UInt64 := 0
  page : UInt32 := 0
  pageSize : UInt32 := 0

/-- The columns of the row and the `group_name` that is joined to it. -/
structure ConversationInfo where
  row : Conversation
  groupName : Bytes

structure ListConversationsResponse where
  response : CommonResponse
  conversations : List ConversationInfo := []
  page : UInt32 := 0
  pageSize : UInt32 := 0
  total : Nat := 0

section Listing

variable (db : Db)

/-- The rows that the query selects. -/
def listed (userId : UInt64) : List Conversation :=
  (Table.rows db.conversations).filter fun row => row.ownerUserId = userId && !row.deleted

/-- The columns of the `ORDER BY`, both descending. -/
def rank (row : Conversation) : Bool ×ₗ Int := toLex (row.pinned, row.updatedAt.toInt)

/-- `ConversationDao::listConversations`, where the query has the rows in `order`. -/
def ConversationDao.listConversations (order : List Conversation)
    (limit offset : Nat) : List ConversationInfo :=
  ((order.drop offset).take limit).map fun row =>
    ⟨row, ((db.groups.lookup row.groupId).map GroupRecord.groupName).getD []⟩

def listConversations (order : List Conversation) (ctx : RpcContext)
    (request : ListConversationsRequest) : ListConversationsResponse :=
  if !ctx.authorized then
    { response := RpcContext.unauthenticated request.requestId }
  else if request.userId = 0 then
    { response := fillResponse request.requestId .invalidArgument "" }
  else
    let pageSize := if request.pageSize = 0 then 50 else request.pageSize.toNat
    let pageSize := if 200 < pageSize then 200 else pageSize
    let page := if request.page = 0 then 1 else request.page.toNat
    let rows := ConversationDao.listConversations db order pageSize ((page - 1) * pageSize)
    { response := fillResponse request.requestId .ok "OK"
      conversations := rows
      page := .ofNat page
      pageSize := .ofNat pageSize
      total := rows.length }

variable (ctx : RpcContext) (userId : UInt64) (size : UInt32)

/-- The rows of page `k + 1`, when query number `k` has the rows in `orders k`. -/
def pageRows (orders : Nat → List Conversation) (k : Nat) : List Conversation :=
  (listConversations db (orders k) ctx
    { userId := userId, page := .ofNat (k + 1), pageSize := size }).conversations.map
      ConversationInfo.row

/-- However the queries order rows of equal rank, the pages up to the first short one
hold every listed row once. -/
def ListsAll : Prop :=
  ∀ orders, (∀ k, Arranges rank (listed db userId) (orders k)) →
    ∃ result, ReadsUntilShort (pageRows db ctx userId size orders) size.toNat result ∧
      result.Perm (listed db userId)

/-- There is nothing to list, or no page boundary falls between rows of equal rank and
the field `page` can name all pages. -/
def Pageable : Prop :=
  listed db userId = [] ∨ ctx.authorized = true ∧ userId ≠ 0 ∧
    (listed db userId).length < (2 ^ 32 - 1) * size.toNat ∧
    ∀ k, Clean rank (listed db userId) (k * size.toNat)

variable {db ctx userId size}

theorem nodup_listed
    (hkeyed : Table.Keyed (fun row : Conversation => (row.ownerUserId, row.conversationId))
      db.conversations) : (listed db userId).Nodup :=
  (List.Nodup.of_map _ hkeyed.nodup).filter _

theorem exists_arranges (rows : List Conversation) : ∃ order, Arranges rank rows order :=
  ⟨_, List.perm_insertionSort (fun row older => rank older ≤ rank row) rows,
    List.pairwise_insertionSort _ rows⟩

theorem pageRows_refused {orders : Nat → List Conversation}
    (h : ¬ (ctx.authorized = true ∧ userId ≠ 0)) (k : Nat) :
    pageRows db ctx userId size orders k = [] := by
  unfold pageRows listConversations
  split
  · rfl
  · next hauthorized =>
    rw [if_pos (not_not.mp fun huser => h ⟨by simpa using hauthorized, huser⟩)]
    rfl

section Served

variable (hauthorized : ctx.authorized = true) (huser : userId ≠ 0)
variable (hsize : 0 < size.toNat) (hmax : size.toNat ≤ 200)
variable (db) (orders : Nat → List Conversation) {k : Nat}
include hauthorized huser hsize hmax

/-- The handler serves the page whose number the request can hold. -/
theorem pageRows_eq (k : Nat) : ∃ page, 0 < page ∧ page < 2 ^ 32 ∧
    (k + 1 < 2 ^ 32 → page = k + 1) ∧ pageRows db ctx userId size orders k =
      ((orders k).drop ((page - 1) * size.toNat)).take size.toNat := by
  have hnonzero : size ≠ 0 := by
    rintro rfl
    cases hsize
  have hname : (UInt32.ofNat (k + 1)).toNat = (k + 1) % 2 ^ 32 := UInt32.toNat_ofNat'
  refine ⟨if UInt32.ofNat (k + 1) = 0 then 1 else (UInt32.ofNat (k + 1)).toNat, ?_, ?_, ?_, ?_⟩
  · split
    · exact Nat.one_pos
    · next hzero => exact Nat.pos_of_ne_zero fun h => hzero (UInt32.toNat_inj.mp h)
  · split
    · decide
    · exact UInt32.toNat_lt _
  · intro hk
    rw [Nat.mod_eq_of_lt hk] at hname
    refine if_neg (fun hzero => ?_) |>.trans hname
    rw [hzero] at hname
    cases hname
  · simp [pageRows, listConversations, ConversationDao.listConversations, hauthorized,
      huser, hnonzero, Nat.not_lt.mpr hmax, List.map_map, Function.comp_def]

theorem pageRows_of_lt (hk : k + 1 < 2 ^ 32) : pageRows db ctx userId size orders k =
    ((orders k).drop (k * size.toNat)).take size.toNat := by
  obtain ⟨page, _, _, hpage, hrows⟩ := pageRows_eq db hauthorized huser hsize hmax orders k
  rw [hrows, hpage hk, Nat.add_sub_cancel]

end Served

theorem listsAll_of_refused (h : ¬ (ctx.authorized = true ∧ userId ≠ 0)) (hsize : 0 < size.toNat) :
    ListsAll db ctx userId size ↔ listed db userId = [] := by
  constructor
  · intro hall
    obtain ⟨order, horder⟩ := exists_arranges (listed db userId)
    obtain ⟨result, ⟨last, _, _, hresult⟩, hperm⟩ := hall (fun _ => order) fun _ => horder
    have hnil : result = [] := by
      rw [hresult, List.flatMap_eq_nil_iff]
      exact fun k _ => pageRows_refused h k
    exact (hnil ▸ hperm).symm.eq_nil
  · intro hnil orders _
    refine ⟨[], ⟨0, fun k hk => absurd hk (Nat.not_lt_zero k), ?_, ?_⟩, by rw [hnil]⟩
    · rw [pageRows_refused h]
      exact hsize
    · rw [List.range_one, List.flatMap_singleton, pageRows_refused h]

/-- With more rows than the pages that can be named, no page is short. -/
theorem not_listsAll_of_le (hauthorized : ctx.authorized = true) (huser : userId ≠ 0)
    (hsize : 0 < size.toNat) (hmax : size.toNat ≤ 200)
    (hmany : (2 ^ 32 - 1) * size.toNat ≤ (listed db userId).length) :
    ¬ ListsAll db ctx userId size := by
  intro hall
  obtain ⟨order, horder⟩ := exists_arranges (listed db userId)
  obtain ⟨result, ⟨last, _, hshort, _⟩, _⟩ := hall (fun _ => order) fun _ => horder
  obtain ⟨page, hpos, hlt, _, hrows⟩ :=
    pageRows_eq db hauthorized huser hsize hmax (fun _ => order) last
  have hpage : (page - 1) * size.toNat + size.toNat ≤ (2 ^ 32 - 1) * size.toNat := by
    rw [← Nat.succ_mul]
    exact Nat.mul_le_mul_right _ (by omega)
  rw [hrows, List.length_take, List.length_drop, horder.perm.length_eq] at hshort
  omega

/-- The pages of a conversation list hold each row once, whatever the queries do with
rows of equal rank, exactly if no page boundary falls between two such rows. -/
theorem listsAll_iff_pageable
    (hkeyed : Table.Keyed (fun row : Conversation => (row.ownerUserId, row.conversationId))
      db.conversations) (hsize : 1 ≤ size.toNat) (hmax : size.toNat ≤ 200) :
    ListsAll db ctx userId size ↔ Pageable db ctx userId size := by
  by_cases hserved : ctx.authorized = true ∧ userId ≠ 0
  case neg =>
    rw [listsAll_of_refused hserved hsize, Pageable]
    exact ⟨.inl, fun h => h.resolve_right fun h => hserved ⟨h.1, h.2.1⟩⟩
  obtain ⟨hauthorized, huser⟩ := hserved
  by_cases hfits : (listed db userId).length < (2 ^ 32 - 1) * size.toNat
  case neg =>
    refine iff_of_false (not_listsAll_of_le hauthorized huser hsize hmax (Nat.not_lt.mp hfits)) ?_
    rintro (hnil | ⟨_, _, hlt, _⟩)
    · refine hfits ?_
      rw [hnil, List.length_nil]
      exact Nat.mul_pos (by decide) hsize
    · exact hfits hlt
  have hpage (orders : Nat → List Conversation) (k : Nat)
      (hk : k ≤ (listed db userId).length / size.toNat) :
      pageRows db ctx userId size orders k =
        ((orders k).drop (k * size.toNat)).take size.toNat := by
    have hlast := (Nat.div_lt_iff_lt_mul hsize).mpr hfits
    exact pageRows_of_lt db hauthorized huser hsize hmax orders (by omega)
  constructor
  · intro hall
    refine .inr ⟨hauthorized, huser, hfits, fun k => ?_⟩
    by_contra hclean
    obtain ⟨orders, horders, hrepeated⟩ := exists_repeated (exists_arranges _) hsize hclean
    obtain ⟨result, hreads, hperm⟩ := hall orders horders
    rw [readsUntilShort_iff hsize horders (hpage orders)] at hreads
    have hrows := List.flatMap_congr fun k hk =>
      hpage orders k (Nat.le_of_lt_succ (List.mem_range.mp hk))
    rw [← hrows, ← hreads] at hrepeated
    exact hrepeated (hperm.nodup_iff.mpr (nodup_listed hkeyed))
  · intro h orders horders
    have hclean (k : Nat) : Clean rank (listed db userId) (k * size.toNat) := by
      rcases h with hnil | ⟨_, _, _, hclean⟩
      · rw [hnil]
        exact fun row hrow => absurd hrow List.not_mem_nil
      · exact hclean k
    exact ⟨_, (readsUntilShort_iff hsize horders (hpage orders)).mpr rfl,
      flatMap_page_perm hsize horders (hpage orders) hclean⟩

/-! ### Two conversations of the same moment -/

def twin (conversationId : UInt64) : Conversation :=
  { conversationId := conversationId, ownerUserId := 1, updatedAt := 5 }

def twins : Db :=
  applyAll (D := dialect) {} [.putConversation (twin 8), .putConversation (twin 9)]

/-- The second query has the rows in the other order. -/
def turned (k : Nat) : List Conversation :=
  if k = 1 then [twin 9, twin 8] else [twin 8, twin 9]

theorem listed_twins : listed twins 1 = [twin 9, twin 8] := by decide +kernel

theorem arranges_turned (k : Nat) : Arranges rank (listed twins 1) (turned k) := by
  rw [listed_twins, turned]
  split
  · exact ⟨.refl _, by decide +kernel⟩
  · exact ⟨.swap _ _ _, by decide +kernel⟩

theorem twins_repeated : ¬ ListsAll twins {} 1 1 := by
  intro hall
  obtain ⟨result, ⟨last, hfull, hshort, rfl⟩, hperm⟩ := hall turned arranges_turned
  have hlengths : (pageRows twins {} 1 1 turned 0).length = 1 ∧
      (pageRows twins {} 1 1 turned 1).length = 1 ∧
      (pageRows twins {} 1 1 turned 2).length = 0 := by decide +kernel
  obtain rfl : last = 2 := by
    obtain hlt | rfl | hgt := Nat.lt_trichotomy last 2
    · obtain rfl | rfl : last = 0 ∨ last = 1 := by omega
      · exact absurd hlengths.1 hshort.ne
      · exact absurd hlengths.2.1 hshort.ne
    · rfl
    · exact absurd (hfull 2 hgt) (by rw [hlengths.2.2]; decide)
  -- both full pages show the first conversation
  have hpages : (List.range 3).flatMap (pageRows twins {} 1 1 turned) =
      [twin 8, twin 8] := by decide +kernel
  rw [hpages, listed_twins] at hperm
  exact absurd (hperm.mem_iff.mpr List.mem_cons_self) (by decide)

theorem twins_on_one_page : ListsAll twins {} 1 2 := by
  have hkeyed : twins.Keyed := Db.Keyed.empty.applyAll _
  refine (listsAll_iff_pageable hkeyed.conversations (by decide) (by decide)).mpr (.inr
    ⟨rfl, by decide, by rw [listed_twins]; decide, fun k row _ => ?_⟩)
  cases k with
  | zero => exact .inl (Nat.zero_le _)
  | succ k =>
    refine .inr (List.countP_le_length.trans ?_)
    rw [listed_twins]
    exact Nat.le_mul_of_pos_left _ (Nat.succ_pos k)

end Listing

/-! ## Changing a row -/

inductive FlagRequest where
  | delete (ctx : RpcContext) (request : ConversationDeleteRequest)
  | pin (ctx : RpcContext) (request : ConversationPinRequest)
  | mute (ctx : RpcContext) (request : ConversationMuteRequest)

namespace FlagRequest

def handle : FlagRequest → Service CommonResponse
  | .delete ctx request => deleteConversation ctx request
  | .pin ctx request => pinConversation ctx request
  | .mute ctx request => muteConversation ctx request

def ctx : FlagRequest → RpcContext
  | .delete ctx _ | .pin ctx _ | .mute ctx _ => ctx

/-- The key of the row that the request names. -/
def key : FlagRequest → UInt64 × UInt64
  | .delete _ request => (request.userId, request.conversationId)
  | .pin _ request => (request.userId, request.conversationId)
  | .mute _ request => (request.userId, request.conversationId)

/-- The row has the flag that the request asks for, and was written at `now`. -/
def Repeats (now : Int64) (row : Conversation) : FlagRequest → Prop
  | .delete _ _ => row.deleted = true ∧ row.updatedAt = now
  | .pin _ request => row.pinned = request.pinned ∧ row.updatedAt = now
  | .mute _ request => row.muted = request.muted ∧ row.updatedAt = now

variable (client : Nat) (w : World) (request : FlagRequest) (now : Int64)

/-- The request is authorised, and the `UPDATE` changes the row if there is one. -/
def Fresh : Prop :=
  request.ctx.authorized = true ∧
    ∀ row, w.db.conversations.lookup request.key = some row → ¬ request.Repeats now row

/-- OK if the user has a row for the conversation, and CONVERSATION_NOT_FOUND
otherwise. -/
def Truthful (response : CommonResponse) : Prop :=
  response.code = ErrorCode.toInt32
    (if (w.db.conversations.lookup request.key).isSome then .ok else .conversationNotFound)

/-- The request is served alone, at the clock reading `now`, without failures. -/
def serve : World × CommonResponse :=
  request.handle.solo (fun w : World => w.exec client) w fun _ => { clock := now }

end FlagRequest

open FlagRequest

variable (client : Nat)

/-- Every request of the sequence is answered truthfully. -/
def AllTruthful : World → List (FlagRequest × Int64) → Prop
  | _, [] => True
  | w, (request, now) :: calls =>
    request.Truthful w (request.serve client w now).2 ∧
      AllTruthful (request.serve client w now).1 calls

/-- Every request of the sequence is fresh where it is served. -/
def AllFresh : World → List (FlagRequest × Int64) → Prop
  | _, [] => True
  | w, (request, now) :: calls =>
    request.Fresh w now ∧ AllFresh (request.serve client w now).1 calls

variable {client} {w : World}

/-- The answer of a statement that runs alone is that of its plan. -/
theorem exec_query_alone (h : Undisturbed client w) (stmt : Stmt) (now : Int64) :
    (w.exec client (.query stmt) { clock := now }).2 =
      (stmt.plan { clock := now } w.db []).result := by
  simp [World.exec, Engine.autocommit, h.foreignLocks, World.db]

theorem undisturbed_solo {α : Type} (h : Undisturbed client w) (p : Service α)
    (choices : Nat → Choice) :
    Undisturbed client (p.solo (fun w : World => w.exec client) w choices).1 := by
  induction p generalizing w choices with
  | ret value => exact h
  | call op next ih => exact ih _ (h.moves (w.exec_moves client op _)) _

namespace FlagRequest

/-- The `UPDATE` of the request, with whether it has changed a row. -/
def update (now : Int64) : FlagRequest → Service Bool
  | .delete _ request => query (.deleteConversation request.userId request.conversationId now)
  | .pin _ request =>
    query (.pinConversation request.userId request.conversationId request.pinned now)
  | .mute _ request =>
    query (.muteConversation request.userId request.conversationId request.muted now)

theorem update_changes (h : Undisturbed client w) (request : FlagRequest) (now : Int64) :
    ((request.update now).solo (fun w : World => w.exec client) w
        fun _ => { clock := now }).2 = true ↔
      ∃ row, w.db.conversations.lookup request.key = some row ∧ ¬ request.Repeats now row := by
  cases request
  all_goals
    refine (Eq.congr_left (exec_query_alone h _ now)).trans ?_
    simp only [Stmt.plan, key, Repeats]
    cases w.db.conversations.lookup _ with
    | none => simp [Backend.read]
    | some row => simp [writing, imp_iff_not_or]

theorem serve_code (request : FlagRequest) (now : Int64) :
    (request.serve client w now).2.code = ErrorCode.toInt32
      (if request.ctx.authorized = true then
        if ((request.update now).solo (fun w : World => w.exec client) w
          fun _ => { clock := now }).2 = true then .ok else .conversationNotFound
      else .authFailed) := by
  have hanswer {answer : Bool} {requestId : Bytes} {w' : World} :
      ((if answer = true then pure (fillResponse requestId .ok "OK")
        else pure (fillResponse requestId .conversationNotFound "") :
          Service CommonResponse).solo (fun w : World => w.exec client) w'
        fun _ => { clock := now }).2.code =
      ErrorCode.toInt32 (if answer = true then .ok else .conversationNotFound) := by
    cases answer <;> rfl
  rcases request with ⟨⟨authorized, _, _⟩, _⟩ | ⟨⟨authorized, _, _⟩, _⟩ |
    ⟨⟨authorized, _, _⟩, _⟩
  all_goals
    cases authorized with
    | false => rfl
    | true => exact hanswer

theorem truthful_iff_fresh (h : Undisturbed client w) (request : FlagRequest) (now : Int64) :
    request.Truthful w (request.serve client w now).2 ↔ request.Fresh w now := by
  have hcodes : ErrorCode.conversationNotFound.toInt32 ≠ ErrorCode.ok.toInt32 ∧
      ErrorCode.authFailed.toInt32 ≠ ErrorCode.ok.toInt32 ∧
      ErrorCode.authFailed.toInt32 ≠ ErrorCode.conversationNotFound.toInt32 := by decide
  have hupdate := update_changes h request now
  rw [Truthful, Fresh, serve_code]
  cases hrow : w.db.conversations.lookup request.key with
  | none =>
    rw [hrow] at hupdate
    by_cases hauthorized : request.ctx.authorized = true <;>
      simp [hupdate, hauthorized, hcodes]
  | some row =>
    rw [hrow] at hupdate
    by_cases hauthorized : request.ctx.authorized = true <;>
      by_cases hrepeats : request.Repeats now row <;>
        simp [hupdate, hauthorized, hrepeats, hcodes]

end FlagRequest

/-- For every table of conversations, all answers are truthful exactly if every request
changes the row that it names. -/
theorem allTruthful_iff_allFresh (db : Db) (calls : List (FlagRequest × Int64)) :
    AllTruthful client { sql := { db := db } } calls ↔
      AllFresh client { sql := { db := db } } calls := by
  have hstart : Undisturbed client { sql := { db := db } } := fun _ _ => rfl
  generalize ({ sql := { db := db } } : World) = w at hstart ⊢
  induction calls generalizing w with
  | nil => rfl
  | cons call calls ih =>
    exact and_congr (call.1.truthful_iff_fresh hstart call.2) (ih _ (undisturbed_solo hstart _ _))

/-! ### Pinning twice within a millisecond -/

def pinTwin : FlagRequest := .pin {} { userId := 1, conversationId := 8, pinned := true }

/-- The second of two equal requests is told that there is no such conversation. -/
theorem pinnedTwice_missing :
    (pinTwin.serve 0 { sql := { db := twins } } 6).2 = fillResponse [] .ok "OK" ∧
      (pinTwin.serve 0 (pinTwin.serve 0 { sql := { db := twins } } 6).1 6).2 =
        fillResponse [] .conversationNotFound "" := by
  constructor <;> decide +kernel

end NebulaIM.ConversationService
