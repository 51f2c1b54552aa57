import NebulaIM.Services.Runs

/-!
# A message is sent once

However often a client repeats a send with one client sequence id, at most one
row is ever committed for it, and every successful answer names that row.
-/

namespace NebulaIM.Message

open Foundation Foundation.Store
open Backend Protocol Services

variable {row : MessageRecord} {w : World}
variable {config : Config} {user : UInt64} {sequence : UInt32}

/-- The row that the write inserts for the sender and the sequence id. -/
def sentRow (user : UInt64) (sequence : UInt32) : Write → Option MessageRecord
  | .insertMessage row =>
    if row.fromUserId = user ∧ row.clientSequenceId = sequence then some row
    else none
  | _ => none

/-- All rows ever committed for the sender and the sequence id, the latest
first. -/
def committedRows (log : List (Nat × List Write)) (user : UInt64)
    (sequence : UInt32) : List MessageRecord :=
  log.flatMap fun unit => unit.2.filterMap (sentRow user sequence)

/-- The request is a send with the sender and the sequence id. -/
def sendsAs (user : UInt64) (sequence : UInt32) : Request → Bool
  | .sendSingleMessage _ request _ =>
    request.fromUserId = user && request.clientSequenceId = sequence
  | .sendGroupMessage _ request _ =>
    request.fromUserId = user && request.clientSequenceId = sequence
  | _ => false

theorem sentRow_eq_some {write : Write} : sentRow user sequence write = some row ↔
      write = .insertMessage row ∧ row.fromUserId = user ∧ row.clientSequenceId = sequence := by
  cases write with
  | insertMessage inserted =>
    simp only [sentRow, Write.insertMessage.injEq]
    split
    · next hsent =>
      constructor
      · rintro ⟨⟩
        exact ⟨rfl, hsent⟩
      · rintro ⟨rfl, _⟩
        rfl
    · next hsent =>
      constructor
      · intro h
        cases h
      · rintro ⟨rfl, hrow⟩
        exact absurd hrow hsent
  | _ => simp [sentRow]

theorem mem_committedRows {log : List (Nat × List Write)} : row ∈ committedRows log user sequence ↔
      Committed log (.insertMessage row) ∧ row.fromUserId = user ∧
        row.clientSequenceId = sequence := by
  simp only [committedRows, List.mem_flatMap, List.mem_filterMap, sentRow_eq_some, Committed]
  constructor
  · rintro ⟨unit, hunit, _, hwrite, rfl, hrow⟩
    exact ⟨⟨unit, hunit, hwrite⟩, hrow⟩
  · rintro ⟨⟨unit, hunit, hwrite⟩, hrow⟩
    exact ⟨unit, hunit, _, hwrite, rfl, hrow⟩

/-! ## One unit of work -/

theorem work_sentRows {client : Nat} {writes : List Write}
    (hwork : Work config w client writes) (hsequence : sequence ≠ 0) :
    writes.filterMap (sentRow user sequence) = [] ∨
      ∃ row, writes.filterMap (sentRow user sequence) = [row] ∧
        (∀ id, ¬ w.db.SentAs user sequence id) ∧
        (applyAll (D := dialect) w.db writes).messages.lookup row.messageId =
          some row := by
  cases hwork with
  | @send row event convs message_free sequence_free =>
    have hrest : (convs.map Write.putConversation ++
        [Write.insertEvent event]).filterMap (sentRow user sequence) = [] := by
      simp [List.filterMap_append, List.filterMap_map, Function.comp_def, sentRow]
    rw [List.filterMap_cons, hrest]
    by_cases hsent : row.fromUserId = user ∧ row.clientSequenceId = sequence
    · obtain ⟨rfl, rfl⟩ := hsent
      refine .inr ⟨row, ?_, sequence_free hsequence, ?_⟩
      · simp [sentRow]
      · rw [lookup_messages_send message_free, if_pos rfl]
    · left
      simp [sentRow, hsent]
  | _ =>
    left
    simp [List.filterMap_map, Function.comp_def, sentRow]

/-! ## Whole runs -/

/-- At most one row was committed, and it is still there. -/
structure SentOnce (user : UInt64) (sequence : UInt32) (w : World) : Prop where
  length_le : (committedRows w.log user sequence).length ≤ 1
  stored : ∀ row ∈ committedRows w.log user sequence, Stored row w

theorem SentOnce.mono {w' : World} (h : SentOnce user sequence w)
    (hrows : committedRows w'.log user sequence = committedRows w.log user sequence)
    (hgrows : Grows w w') :
    SentOnce user sequence w' where
  length_le := hrows ▸ h.length_le
  stored row hrow := (h.stored row (hrows ▸ hrow)).mono hgrows

theorem SentOnce.step (hsequence : sequence ≠ 0) {tid : Nat} {w' : World}
    (h : SentOnce user sequence w) (hstep : Step config tid w w') :
    SentOnce user sequence w' := by
  rcases hstep.effect with ⟨_, hlog⟩ | ⟨writes, hwork, hdb, hlog, _, _⟩
  · exact h.mono (by rw [hlog]) hstep.grows
  · have hrows : committedRows w'.log user sequence = writes.filterMap (sentRow user sequence) ++
          committedRows w.log user sequence := by
      rw [hlog]
      rfl
    rcases work_sentRows hwork hsequence with hnone | ⟨row, hone, hfree, hrow⟩
    · exact h.mono (by rw [hrows, hnone, List.nil_append]) hstep.grows
    · -- a row committed before would still be there
      have hempty : committedRows w.log user sequence = [] := by
        rw [List.eq_nil_iff_forall_not_mem]
        intro old hold
        obtain ⟨-, rfl, rfl⟩ := mem_committedRows.mp hold
        obtain ⟨found, hfound, horigin⟩ := h.stored old hold
        simp only [MessageRecord.origin, MessageRecord.mk.injEq] at horigin
        obtain ⟨-, -, hfrom, hseq, -⟩ := horigin
        exact hfree old.messageId ⟨found, hfound, hfrom, hseq⟩
      rw [hone, hempty] at hrows
      constructor
      · simp [hrows]
      · intro found hfound
        rw [hrows, List.append_nil, List.mem_singleton] at hfound
        subst hfound
        exact ⟨found, hdb ▸ hrow, rfl⟩

theorem SentOnce.reachable (hsequence : sequence ≠ 0) {pool : Pool}
    (hpool : Reachable config pool) : SentOnce user sequence pool.world := by
  refine hpool.induct ?_ (fun _ _ h hstep => h.step hsequence hstep) ?_
  · intro start hstart
    obtain ⟨⟨users, friendships, hsql⟩, -⟩ := hstart
    have hlog : start.world.log = [] := congrArg Engine.log hsql
    constructor <;> simp [hlog, committedRows]
  · intro w event h
    refine h.mono ?_ (env_rely 0 w event).grows
    cases event with
    | redis key value => cases value <;> rfl
    | _ => rfl

theorem exists_committedRow (hinv : Inv config w) {id : UInt64}
    (hrow : w.db.messages.lookup id = some row) :
    ∃ inserted ∈ committedRows w.log row.fromUserId row.clientSequenceId,
      inserted.messageId = id ∧ inserted.createdAt = row.createdAt := by
  obtain ⟨event, hevent, htype⟩ := hinv.messages.announced hrow
  obtain ⟨inserted, found, hcommitted, _, hfound, horigin⟩ := hinv.messages.carries hevent htype
  cases hrow.symm.trans hfound
  have hid : row.messageId = id := hinv.keyed.messages id row hrow
  simp only [MessageRecord.origin, MessageRecord.mk.injEq] at horigin
  obtain ⟨hmessage, -, hfrom, hseq, -, -, -, -, -, -, -, hat, -⟩ := horigin
  exact ⟨inserted, mem_committedRows.mpr ⟨hcommitted, hfrom.symm, hseq.symm⟩,
    hmessage.symm.trans hid, hat.symm⟩

/-- The answers of both send handlers, as one. -/
theorem answered_of_sendsAs {pool : Pool} (hpool : Reachable config pool) {tid : Nat}
    {response : SendMessageResponse} (hsend : (pool.request tid).any (sendsAs user sequence) = true)
    (hreply : pool.reply tid = some (.sent response)) :
    Answered user sequence response pool.world := by
  obtain ⟨request, hrequest, hsends⟩ := (Option.any_eq_true _ _).mp hsend
  obtain ⟨_, hpost⟩ := hpool.answer hrequest hreply
  cases request with
  | sendSingleMessage ctx request text | sendGroupMessage ctx request text =>
    simp only [sendsAs, Bool.and_eq_true, decide_eq_true_eq] at hsends
    obtain ⟨rfl, rfl⟩ := hsends
    exact hpost
  | _ => cases hsends

/-- In every reachable state at most one row has ever been committed for a sender
and a nonzero client sequence id, and every successful answer to a send carries
the id and the creation time of that row. -/
theorem send_commits_once {pool : Pool} (hpool : Reachable config pool)
    (user : UInt64) (sequence : UInt32) (hsequence : sequence ≠ 0) :
    (committedRows pool.world.log user sequence).length ≤ 1 ∧
    (∀ id other, pool.world.db.SentAs user sequence id →
      pool.world.db.SentAs user sequence other → id = other) ∧
    ∀ tid response common, (pool.request tid).any (sendsAs user sequence) = true →
      pool.reply tid = some (.sent response) →
      response.response = some common →
      common.code = ErrorCode.ok.toInt32 →
      ∃ row, committedRows pool.world.log user sequence = [row] ∧
        response.messageId = row.messageId ∧
        response.serverTimestamp = row.createdAt := by
  have honce : SentOnce user sequence pool.world := .reachable hsequence hpool
  refine ⟨honce.length_le, fun id other => hpool.inv.messages.unique hsequence, ?_⟩
  intro tid response common hsend hreply hcommon hcode
  have hanswered := answered_of_sendsAs hpool hsend hreply
  obtain ⟨found, hfound, rfl, rfl, hat⟩ := hanswered common hcommon hcode
  obtain ⟨row, hrow, hid, hcreated⟩ := exists_committedRow hpool.inv hfound
  exact ⟨row, eq_singleton_of_mem honce.length_le hrow, hid.symm, hat.symm.trans hcreated.symm⟩

/-! ### Two requests with one sequence id -/

/-- The second request has looked for the message before the first commits it,
and is answered after its own insert has failed. -/
def raceActions : List Action :=
  [.spawn greeting, .spawn greeting] ++ List.replicate 10 (.step 1 { id := 43, clock := 6 }) ++
    List.replicate 20 (.step 0 { id := 42, clock := 5 }) ++
    List.replicate 10 (.step 1 { id := 43, clock := 6 })

def race : Pool := (services {}).run twoFriends raceActions

theorem race_reachable : Reachable {} race := ⟨twoFriends, raceActions, twoFriends_initial, rfl⟩

theorem race_commits_once : ∃ row, committedRows race.world.log 1 7 = [row] ∧ 42 = row.messageId ∧
      5 = row.createdAt := by
  obtain ⟨_, _, hanswer⟩ := send_commits_once race_reachable 1 7 (by decide)
  exact hanswer 1 (replayed [] { messageId := 42, createdAt := 5 }) _
    (by decide +kernel) (by decide +kernel) rfl rfl

end NebulaIM.Message
