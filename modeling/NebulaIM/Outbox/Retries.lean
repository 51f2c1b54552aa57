import NebulaIM.Outbox.Ledger

/-!
# Retries are counted exactly

A worker writes back a counter it read when it claimed the event, perhaps long
after its lease has ended.  The token in the row decides: while the row carries
the token of a claim, nobody else has written it since, so the counter read at
the claim is the one in the row.
-/

namespace NebulaIM.Outbox

open Foundation Foundation.Store
open Backend Protocol
open Services (TokensDistinct exec_tokens)

variable {row event : OutboxEvent} {options : OutboxWorkerOptions}
variable {limit : Int} {tid : Nat} {l : Ledger}

/-! ## Calls that commit nothing -/

theorem countP_called (op : Op) (hop : Quiet op) (choice : Choice) (answer : op.Res) (id : UInt64) :
    (Ledger.called op choice answer).countP (Called.marksFailed id) = 0 := by
  cases op with
  | query stmt => cases hop
  | _ => rfl

theorem quiet_records (op : Op) (hop : Quiet op) (l : Ledger) (choice : Choice) :
    Records limit tid l (l.exec tid op choice).1 := by
  obtain ⟨hdb, hlog⟩ := @quiet_same tid op hop l.world choice
  exact .of_same _ (congrArg Db.outbox hdb) hlog rfl (exec_tokens op l.world choice)
    (countP_called op hop choice _)

theorem quiet_keeps (op : Op) (hop : Quiet op) (l : Ledger) (choice : Choice) :
    Keeps tid l (l.exec tid op choice).1 := by
  obtain ⟨hdb, hlog⟩ := @quiet_same tid op hop l.world choice
  exact .of_same (congrArg Db.outbox hdb) hlog (List.suffix_append _ _)
    (exec_tokens op l.world choice)

theorem ledger_serves : Serves (ledgerContract limit) tid Ledger.world where
  world _ _ _ := rfl
  answer _ _ _ := rfl
  keyed hinv := hinv.keyed
  rely hrely := hrely.engine
  quiet {l op choice} hop hinv hfresh :=
    hinv.exec tid op choice hfresh (quiet_records op hop l choice)

theorem steady_of_keeps {fact : Ledger → Prop}
    (h : ∀ {l l' : Ledger}, fact l → Keeps tid l l' → fact l') :
    Steady (ledgerContract limit) tid fact where
  stable _ _ hfact _ hrely _ := h hfact hrely.keeps
  quiet {l op} choice hop hfact := h hfact (quiet_keeps op hop l choice)

/-! ## Claiming -/

def Generated (tid : Nat) (token : TraceId) (l : Ledger) : Prop := (tid, token) ∈ l.world.tokens

/-- The thread's claim of the event: while the row carries the token, its counter
is the one that was read. -/
structure Held (tid : Nat) (event : OutboxEvent) (l : Ledger) : Prop where
  generated : ∃ token, Generated tid token l ∧ event.claimToken = token.bytes
  topic : ∃ row, l.outbox.lookup event.eventId = some row ∧ row.topic = event.topic
  count : ∀ {row}, l.outbox.lookup event.eventId = some row →
    row.status = .publishing → row.claimToken = event.claimToken →
    row.retryCount = event.retryCount

theorem Held.own {l' : Ledger} (h : Held tid event l) (hkeeps : Keeps tid l l')
    (hrow : l'.outbox.lookup event.eventId = some row) (hpublishing : row.status = .publishing)
    (htoken : row.claimToken = event.claimToken) :
    l.outbox.lookup event.eventId = some row ∧
      l'.applied event.eventId = l.applied event.eventId := by
  obtain ⟨token, hgenerated, hclaimed⟩ := h.generated
  exact hkeeps.own hgenerated hrow hpublishing (htoken.trans hclaimed)

theorem Held.kept {l' : Ledger} (h : Held tid event l) (hkeeps : Keeps tid l l') :
    Held tid event l' where
  generated := by
    obtain ⟨token, hgenerated, htoken⟩ := h.generated
    exact ⟨token, hkeeps.tokens.subset hgenerated, htoken⟩
  topic := by
    obtain ⟨row, hrow, htopic⟩ := h.topic
    obtain ⟨row', hrow', htopic'⟩ := hkeeps.rows hrow
    exact ⟨row', hrow', htopic'.trans htopic⟩
  count hrow hpublishing htoken :=
    h.count (h.own hkeeps hrow hpublishing htoken).1 hpublishing htoken

theorem claim_records {writes : List Write} {ids : List UInt64} {leaseUntil now : Int64}
    {token : TraceId} {sql : Engine dialect} (hgenerated : Generated tid token l)
    (hwrites : writes = ids.map fun id => .claimEvent id leaseUntil token.bytes now)
    (hdb : sql.db = applyAll (D := dialect) l.world.db writes)
    (hlog : sql.log = (tid, writes) :: l.world.log) :
    Records limit tid l { l with world := { l.world with sql := sql } } where
  calls := List.suffix_refl _
  tokens := List.suffix_refl _
  rows id := by
    subst hwrites
    refine ⟨0, ?_, .of [_] [] hlog rfl (by simp [recordsFailure]) fun _ => rfl⟩
    have hlookup := lookup_outbox_claim l.world.db ids id leaseUntil now token.bytes
    rw [← hdb] at hlookup
    split at hlookup
    · cases hrow : l.outbox.lookup id with
      | none => exact .same (hlookup.trans (by rw [hrow]; rfl))
      | some row => exact .claimed hrow (hlookup.trans (by rw [hrow]; rfl)) hgenerated
    · exact .same hlookup

theorem spec_commitClaims {leaseUntil now : Int64} {token : TraceId} {events : List OutboxEvent} :
    Triple (ledgerContract limit) tid (fun l => Generated tid token l ∧
        Holding tid (ClaimDraft events (events.map OutboxEvent.eventId)
          leaseUntil token.bytes now) l.world) commit
      fun ok l => ok = true → ∀ event ∈ events,
        Held tid { event with claimToken := token.bytes } l := by
  have hheld : Steady (ledgerContract limit) tid fun l => ∀ event ∈ events,
      Held tid { event with claimToken := token.bytes } l :=
    .all fun event => .imp _ (steady_of_keeps Held.kept)
  have hgenerated : Steady (ledgerContract limit) tid (Generated tid token) :=
    steady_of_keeps fun h hkeeps => hkeeps.tokens.subset h
  refine Triple.perform (hgenerated.stable.and
    (ledger_serves.holding (ClaimDraft.local ..))) ?_ fun ok => (hheld.imp _).stable
  intro l choice hinv hl hfresh
  have hexec := hinv.exec tid .commit choice hfresh
  simp only [workers, Ledger.exec] at hexec ⊢
  rcases l.world.commit_cases tid choice with h | ⟨tx, ok, hopen, h⟩ <;>
    rw [h] at hexec ⊢
  · obtain ⟨hexact, hstep⟩ := hexec (.of_same [] rfl rfl rfl (List.suffix_refl _) fun _ => rfl)
    exact ⟨hexact, hstep, fun hok => absurd hok Bool.false_ne_true⟩
  · have hdraft := hl.2 tx hopen
    obtain ⟨hexact, hstep⟩ := hexec (claim_records hl.1 hdraft.writes rfl rfl)
    refine ⟨hexact, hstep, fun _ event hevent => ?_⟩
    have hrow : (applyAll (D := dialect) l.world.db tx.writes).outbox.lookup
        event.eventId = some (event.claim leaseUntil token.bytes now) := by
      rw [hdraft.writes, lookup_outbox_claim, if_pos (List.mem_map_of_mem hevent),
        hdraft.present event hevent]
      rfl
    refine ⟨⟨token, hl.1, rfl⟩, ⟨_, hrow, rfl⟩, fun hrow' _ _ => ?_⟩
    cases hrow.symm.trans hrow'
    rfl

theorem ledger_claims :
    Claimant (ledgerContract limit) tid Ledger.world (Generated tid) (Held tid) where
  serves := ledger_serves
  fresh_steady _ := steady_of_keeps fun h hkeeps => hkeeps.tokens.subset h
  steady _ := steady_of_keeps Held.kept
  generate _ _ := List.mem_cons_self
  commit := spec_commitClaims

/-! ## Marking -/

/-- After a failed attempt of the claim: the attempt is not yet counted in the
row. -/
structure Due (tid : Nat) (event : OutboxEvent) (l : Ledger) : Prop where
  held : Held tid event l
  attempt : ∀ {row}, l.outbox.lookup event.eventId = some row →
    row.status = .publishing → row.claimToken = event.claimToken →
    l.applied event.eventId < l.failures event.eventId event.topic

theorem Due.kept {l' : Ledger} (h : Due tid event l) (hkeeps : Keeps tid l l') :
    Due tid event l' := by
  refine ⟨h.held.kept hkeeps, fun hrow hpublishing htoken => ?_⟩
  obtain ⟨hbefore, happlied⟩ := h.held.own hkeeps hrow hpublishing htoken
  rw [happlied]
  exact lt_of_lt_of_le (h.attempt hbefore hpublishing htoken) (hkeeps.calls.sublist.count_le _)

/-- What the counter of a row that still carries the token comes to. -/
theorem Due.counter (h : Due tid event l) (hinv : Exact limit l)
    (hrow : l.outbox.lookup event.eventId = some row) (hpublishing : row.status = .publishing)
    (htoken : row.claimToken = event.claimToken) :
    event.retryCount = min limit (l.applied event.eventId) ∧
      l.applied event.eventId < l.failures event.eventId row.topic := by
  have hcount := h.held.count hrow hpublishing htoken
  obtain ⟨found, hfound, htopic⟩ := h.held.topic
  cases hrow.symm.trans hfound
  refine ⟨hcount ▸ (hinv.counted hrow).count, ?_⟩
  rw [htopic]
  exact h.attempt hrow hpublishing htoken

/-- What a worker knows when it marks an event. -/
def Earned (limit : Int) (tid : Nat) (event : OutboxEvent) : Mark → Ledger → Prop
  | .published, l => Held tid event l
  | .failed retryCount _, l => Due tid event l ∧ ∀ applied : Nat,
      event.retryCount = min limit applied → retryCount = min limit (applied + 1)
  | .dead, l => Due tid event l ∧ ¬ event.retryCount + 1 ≤ limit

theorem Earned.steady (event : OutboxEvent) (mark : Mark) :
    Steady (ledgerContract limit) tid (Earned limit tid event mark) := by
  cases mark with
  | published => exact steady_of_keeps Held.kept
  | failed retryCount nextRetryAt | dead => exact (steady_of_keeps Due.kept).and (.const _)

theorem Earned.allows {mark : Mark} (h : Earned limit tid event mark l) (hinv : Exact limit l)
    (hrow : l.outbox.lookup event.eventId = some row) (hpublishing : row.status = .publishing)
    (htoken : row.claimToken = event.claimToken) :
    Allows limit l event.eventId row mark := by
  cases mark with
  | published => trivial
  | failed retryCount nextRetryAt =>
    obtain ⟨hcount, hattempt⟩ := h.1.counter hinv hrow hpublishing htoken
    exact ⟨h.2 _ hcount, hattempt⟩
  | dead =>
    obtain ⟨hcount, hattempt⟩ := h.1.counter hinv hrow hpublishing htoken
    have hmore := h.2
    simp only [Allows]
    omega

theorem mark_tally {eventId : UInt64} {mark : Mark} {now : Int64} {fault : Fault}
    {ok : Bool} (hok : fault ≠ .lost → ok = true) {l' : Ledger}
    (hlog : l'.world.log = [(tid, [.markEvent eventId mark now])] ++ l.world.log)
    (hcalls : l'.calls = [.mark eventId mark fault ok] ++ l.calls) (id : UInt64) :
    Tally l l' id (if eventId == id && isFailed mark then 1 else 0) := by
  refine .of _ _ hlog hcalls (by simp [List.countP_cons, recordsFailure]) ?_
  intro hanswered
  have hok : (eventId == id) = true → ok = true := by
    intro hid
    refine hok fun hlost => ?_
    simp [Called.losesReply, hid, hlost] at hanswered
  cases hid : eventId == id with
  | false => simp [Called.marksFailed, hid]
  | true => simp [Called.marksFailed, hid, hok hid, List.countP_cons]

theorem mark_records {eventId : UInt64} {mark : Mark} {now : Int64} {fault : Fault} {ok : Bool}
    (hok : fault ≠ .lost → ok = true) (hrow : l.outbox.lookup eventId = some row)
    (hallows : Allows limit l eventId row mark) :
    Records limit tid l
      ⟨{ l.world with sql := l.world.sql.write tid [.markEvent eventId mark now] },
        .mark eventId mark fault ok :: l.calls⟩ where
  calls := List.suffix_cons _ _
  tokens := List.suffix_refl _
  rows id := by
    refine ⟨_, ?_, mark_tally hok rfl rfl id⟩
    have hlookup := lookup_markEvent l.world.db eventId id mark now
    split at hlookup
    · next heq =>
      subst heq
      rw [beq_self_eq_true, Bool.true_and]
      exact .marked hrow (hlookup.trans (congrArg (Option.map _) hrow)) hallows
    · next hne =>
      rw [beq_eq_false_iff_ne.mpr (Ne.symm hne)]
      exact .same hlookup

theorem spec_mark (event : OutboxEvent) (mark : Mark) :
    Triple (ledgerContract limit) tid (Earned limit tid event mark)
      (markEvent event.eventId event.claimToken mark) fun _ _ => True := by
  have hearned : Steady (ledgerContract limit) tid (Earned limit tid event mark) :=
    Earned.steady event mark
  unfold markEvent
  split
  · exact .ret hearned.stable fun _ _ => trivial
  refine (ledger_serves.keep .nowMs trivial hearned).bind fun now => ?_
  refine Triple.perform hearned.stable ?_ fun _ => Stable.const _
  intro l choice hinv hl hfresh
  have hexec := hinv.exec tid (.query (.markEvent event.eventId event.claimToken mark
    now)) choice hfresh
  simp only [workers, Ledger.exec] at hexec ⊢
  rcases mark_outcome l.world tid event.eventId event.claimToken mark now choice with
    h | ⟨row, ok, hrow, hpublishing, htoken, hok, h⟩ <;> rw [h] at hexec ⊢
  · have hsame := hexec (.of_same [_] rfl rfl rfl (List.suffix_refl _) fun id => by
      simp [Called.marksFailed])
    exact ⟨hsame.1, hsame.2, trivial⟩
  · have hmarked := hexec (mark_records hok hrow (hl.allows hinv hrow hpublishing htoken))
    exact ⟨hmarked.1, hmarked.2, trivial⟩

/-! ## The worker -/

theorem spec_attempt (event : OutboxEvent) : Triple (ledgerContract limit) tid (Held tid event)
      (produce event.eventId event.topic event.eventKey event.payload) fun ok l =>
        (ok = true → Held tid event l) ∧ (ok = false → Due tid event l) := by
  have hheld : Steady (ledgerContract limit) tid (Held tid event) := steady_of_keeps Held.kept
  have hdue : Steady (ledgerContract limit) tid (Due tid event) := steady_of_keeps Due.kept
  refine ledger_serves.call (.produce ..) trivial hheld.stable
    (fun ok => ((hheld.imp _).and (hdue.imp _)).stable) ?_
  intro l choice hinv hl
  let op : Op := .produce event.eventId event.topic event.eventKey event.payload
  have hkeeps : Keeps tid l (l.exec tid op choice).1 := quiet_keeps op trivial l choice
  refine ⟨fun _ => hl.kept hkeeps, fun hfailed => ⟨hl.kept hkeeps, ?_⟩⟩
  intro row hrow hpublishing htoken
  obtain ⟨hbefore, happlied⟩ := hl.own hkeeps hrow hpublishing htoken
  obtain ⟨found, hfound, htopic⟩ := hl.topic
  cases hbefore.symm.trans hfound
  have hlt : (l.exec tid op choice).1.applied event.eventId <
      (l.exec tid op choice).1.failures event.eventId event.topic := by
    rw [happlied, Ledger.failures_produce hfailed, ← htopic]
    exact Nat.lt_succ_of_le (hinv.counted hbefore).attempts
  exact hlt

theorem ledger_works (hlimit : options.maxRetryCount = limit) :
    Works (ledgerContract limit) tid options (Held tid) (Due tid) (Earned limit tid) where
  due_steady _ := steady_of_keeps Due.kept
  attempt := spec_attempt
  retry _ _ h := by
    rw [hlimit]
    -- At the limit the counter is written back as it was read.
    split <;> exact ⟨h, fun applied hcount => by omega⟩
  bury {event} hmore := by
    have hdue : Steady (ledgerContract limit) tid (Due tid event) := steady_of_keeps Due.kept
    rw [hlimit] at hmore
    refine ledger_serves.call (.produce ..) trivial hdue.stable
      (fun ok => (((Earned.steady event .dead).imp _).and (hdue.imp _)).stable) ?_
    intro l choice _ h
    exact ⟨fun _ => ⟨hdue.quiet choice trivial h, hmore⟩, fun _ => hdue.quiet choice trivial h⟩
  mark := spec_mark

/-! ## New events -/

theorem insert_records (event : OutboxEvent) {sql : Engine dialect}
    (hfree : l.outbox.lookup event.eventId = none) (hpending : event.status = .pending)
    (hcount : event.retryCount = min limit 0) (hdb : sql.db = l.world.db.apply (.insertEvent event))
    (hlog : sql.log = (tid, [.insertEvent event]) :: l.world.log) :
    Records limit tid l { l with world := { l.world with sql := sql } } where
  calls := List.suffix_refl _
  tokens := List.suffix_refl _
  rows id := by
    refine ⟨0, ?_, .of [_] [] hlog rfl (by simp [recordsFailure]) fun _ => rfl⟩
    have hlookup := lookup_insertEvent l.world.db event id
    rw [← hdb] at hlookup
    split at hlookup
    · next heq =>
      obtain ⟨rfl, _⟩ := heq
      exact .inserted hfree hlookup hpending hcount
    · exact .same hlookup

theorem spec_insertEvent (hlimit : 0 ≤ limit)
    (hevent : event.status = .pending ∧ event.retryCount = 0) :
    Triple (ledgerContract limit) tid (fun _ => True)
      (query (.insertEvent event)) fun _ _ => True := by
  refine Triple.perform (Stable.const _) ?_ fun _ => Stable.const _
  intro l choice hinv _ hfresh
  have hexec := hinv.exec tid (.query (.insertEvent event)) choice hfresh
  have hsame : Records limit tid l l := .of_same [] rfl rfl rfl (List.suffix_refl _) fun _ => rfl
  simp only [workers, Ledger.exec] at hexec ⊢
  rcases l.world.query_cases tid (.insertEvent event) choice with
    h | ⟨_, _, h⟩ | ⟨locked, ok, hwrites, _, h⟩ <;> rw [h] at hexec ⊢
  · exact ⟨(hexec hsame).1, (hexec hsame).2, trivial⟩
  · exact ⟨(hexec hsame).1, (hexec hsame).2, trivial⟩
  · have hfree : l.outbox.lookup event.eventId = none := by
      by_contra htaken
      exact hwrites (congrArg Plan.writes (if_neg htaken))
    let new : OutboxEvent := { event with id := choice.id }
    have hplan : Stmt.plan (.insertEvent event) choice l.world.db locked =
      writing [.insertEvent new] true := if_pos hfree
    have hcount : new.retryCount = min limit 0 := hevent.2.trans (min_eq_right hlimit).symm
    rw [hplan] at hexec ⊢
    have hinserted := hexec (insert_records new hfree hevent.1 hcount rfl rfl)
    exact ⟨hinserted.1, hinserted.2, trivial⟩

/-! ## Runs -/

theorem spec_perform (hlimit : 0 ≤ limit) {task : Task} (htask : Admissible limit task) :
    Triple (ledgerContract limit) tid (fun _ => True) (perform task) fun _ _ => True := by
  cases task with
  | worker options =>
    exact (ledger_works htask).runRounds ledger_serves ledger_claims options.batchSize
  | insertEvent event =>
    refine (spec_insertEvent hlimit htask).bind fun _ => ?_
    exact .ret (Stable.const _) fun _ _ => trivial

theorem Unstarted.toExact {pool : WorkerPool} (h : Unstarted pool) : Exact limit pool.world where
  engine := by
    have hnone {client : Nat} {tx : Tx dialect}
        (htx : pool.world.world.sql.txs.lookup client = some tx) : False := by
      rw [h.txs, AList.lookup_empty] at htx
      cases htx
    exact ⟨fun _ hfirst => (hnone hfirst).elim, fun htx => (hnone htx).elim⟩
  keyed := h.keyed
  distinct := by
    rw [TokensDistinct, h.tokens]
    exact List.nodup_nil
  counted hrow := by
    rw [h.outbox, AList.lookup_empty] at hrow
    cases hrow
  absent _ := by
    rw [Ledger.applied, h.log]
    rfl
  marked _ := by
    rw [Ledger.marked, Ledger.applied, h.calls, h.log]
    rfl

theorem run_exact (hlimit : 0 ≤ limit) {pool : WorkerPool} (hpool : Unstarted pool)
    {actions : List WorkerAction} (hrun : (sameLimit limit).AdmitsRun workers pool actions) :
    Exact limit (workers.run pool actions).world := by
  have hsafe : PoolSafe (ledgerContract limit) (fun _ _ _ _ _ => True) pool := by
    refine ⟨hpool.toExact, fun tid thread hthread => ?_⟩
    rw [hpool.threads] at hthread
    cases hthread
  have hspawn {l : Ledger} {task : Task} (tid : Nat) (hinv : Exact limit l)
      (htask : Admissible limit task) :
      Safe (ledgerContract limit) tid (fun _ _ => True) (perform task) l :=
    spec_perform hlimit htask l hinv trivial
  exact ((ledgerContract limit).run_safe hspawn hsafe hrun).1

/-- In every run of any number of workers with one retry limit: the retry counter
of an event is the number of its `markFailed` calls that returned true, up to the
limit, and an event is dead only after more than `limit` attempts to produce it to
its own topic have failed. -/
theorem retries_counted (hlimit : 0 ≤ limit) {pool : WorkerPool} (hpool : Unstarted pool)
    {actions : List WorkerAction} (hrun : (sameLimit limit).AdmitsRun workers pool actions)
    {id : UInt64} {row : OutboxEvent}
    (hrow : (workers.run pool actions).world.outbox.lookup id = some row) :
    ((workers.run pool actions).world.Answered id →
      row.retryCount = min limit ((workers.run pool actions).world.marked id)) ∧
    (row.status = .dead → limit + 1 ≤ (workers.run pool actions).world.failures id row.topic) := by
  have hexact := run_exact hlimit hpool hrun
  have hcounted := hexact.counted hrow
  refine ⟨fun hanswered => ?_, hcounted.dead⟩
  rw [hexact.marked hanswered]
  exact hcounted.count

/-! ### An event that dies -/

def noEvents : WorkerPool := { world := { world := { sql := { db := {} } } } }

theorem noEvents_unstarted : Unstarted noEvents := ⟨.empty, rfl, rfl, rfl, rfl, rfl, rfl⟩

def laterToken : TraceId := ⟨List.replicate 32 51, by decide⟩

def doomedActions : List WorkerAction :=
  [.spawn (.insertEvent { eventId := 7, topic := lit "t" }), .step 0 {},
    .spawn (.worker { maxRetryCount := 1, batchSize := 1 }),
    .spawn (.worker { maxRetryCount := 1, batchSize := 1 })] ++
    List.replicate 7 (.step 1 { clock := 5 }) ++ [.step 1 { fault := .refused }] ++
    List.replicate 3 (.step 1 { clock := 5 }) ++
    List.replicate 7 (.step 2 { clock := 9000, token := laterToken }) ++
    [.step 2 { fault := .refused }] ++ List.replicate 3 (.step 2 { clock := 9000 })

theorem doomed_counted : ∃ row,
    (workers.run noEvents doomedActions).world.outbox.lookup 7 = some row ∧ row.retryCount = 1 ∧
      2 ≤ (workers.run noEvents doomedActions).world.failures 7 row.topic := by
  have hadmits : (sameLimit 1).AdmitsRun workers noEvents doomedActions := by
    decide +kernel
  have hdead : ((workers.run noEvents doomedActions).world.outbox.lookup 7).map
      OutboxEvent.status = some .dead := by decide +kernel
  have hmarked : (workers.run noEvents doomedActions).world.marked 7 = 1 := by
    decide +kernel
  obtain ⟨row, hrow, hstatus⟩ := Option.map_eq_some_iff.mp hdead
  obtain ⟨hcount, hfailures⟩ := retries_counted (by decide) noEvents_unstarted
    hadmits hrow
  refine ⟨row, hrow, ?_, by exact_mod_cast hfailures hstatus⟩
  rw [hcount (by decide +kernel), hmarked]
  rfl

end NebulaIM.Outbox
