import NebulaIM.Outbox.Worker
import NebulaIM.Backend.Rows

/-!
# The worker under a contract

What a worker does is proved once, for every contract over a state that holds a
world: it claims rows under the locks of its `SELECT`, with a token of its own, and
marks an event after it has tried to produce it.  What a claim and an attempt are
worth is up to the contract.
-/

namespace NebulaIM.Outbox

open Foundation Foundation.Store
open Backend Protocol
open Foundation.Wire (Bytes)

variable {Req S γ : Type} {sys : System Req Op Op.Res S Choice Env γ}
variable {guard : Guard Req Op S Choice Env}

/-- The calls act on the world in the state, and those that commit nothing are
within the contract. -/
structure Serves (contract : Contract sys guard) (tid : Nat) (view : S → World) : Prop where
  world : ∀ s op choice, view (sys.exec s tid op choice).1 = ((view s).exec tid op choice).1
  answer : ∀ s op choice, (sys.exec s tid op choice).2 = ((view s).exec tid op choice).2
  keyed : ∀ {s}, contract.inv s → (view s).db.Keyed
  rely : ∀ {s s'}, contract.rely tid s s' → Engine.Rely tid (view s).sql (view s').sql
  quiet : ∀ {s op choice}, Quiet op → contract.inv s →
    guard.call s tid op choice → contract.inv (sys.exec s tid op choice).1 ∧
      contract.guar tid s (sys.exec s tid op choice).1

/-- Neither the other threads nor own calls that commit nothing falsify the fact. -/
structure Steady (contract : Contract sys guard) (tid : Nat) (fact : S → Prop) : Prop where
  stable : Stable contract tid fact
  quiet : ∀ {s op} choice, Quiet op → fact s → fact (sys.exec s tid op choice).1

variable {contract : Contract sys guard} {tid : Nat} {view : S → World}
variable {fact : S → Prop}

theorem Steady.const (p : Prop) : Steady contract tid fun _ => p := ⟨.const p, fun _ _ h => h⟩

theorem Steady.and {other : S → Prop} (h₁ : Steady contract tid fact)
    (h₂ : Steady contract tid other) : Steady contract tid fun s => fact s ∧ other s :=
  ⟨h₁.stable.and h₂.stable, fun choice hop h => ⟨h₁.quiet choice hop h.1, h₂.quiet choice hop h.2⟩⟩

theorem Steady.all {ι : Sort*} {facts : ι → S → Prop} (h : ∀ i, Steady contract tid (facts i)) :
    Steady contract tid fun s => ∀ i, facts i s :=
  ⟨fun _ _ hfact hinv hrely hinv' i => (h i).stable _ _ (hfact i) hinv hrely hinv',
    fun choice hop hfact i => (h i).quiet choice hop (hfact i)⟩

theorem Steady.imp (p : Prop) (h : Steady contract tid fact) :
    Steady contract tid fun s => p → fact s :=
  .all fun _ => h

/-! ## Transactions -/

def Holding (tid : Nat) (draft : Tx dialect → World → Prop) (w : World) : Prop :=
  ∀ tx, w.sql.txs.lookup tid = some tx → draft tx w

/-- The rows that the transaction has locked carry the assertion. -/
def Local (draft : Tx dialect → World → Prop) : Prop :=
  ∀ ⦃tx : Tx dialect⦄ ⦃w w' : World⦄, draft tx w →
    (∀ key ∈ tx.locks, Key.Agree w.db w'.db key) → draft tx w'

theorem Local.imp (p : Prop) {draft : Tx dialect → World → Prop} (h : Local draft) :
    Local fun tx w => p → draft tx w :=
  fun _ _ _ hdraft hagree hp => h (hdraft hp) hagree

def Empty (tx : Tx dialect) (_ : World) : Prop := tx.writes = []

theorem Empty.local : Local Empty := fun _ _ _ h _ => h

namespace Serves

variable (hserves : Serves contract tid view) {draft : Tx dialect → World → Prop}
include hserves

theorem holding (h : Local draft) : Stable contract tid fun s => Holding tid draft (view s) := by
  intro s s' hholding _ hrely _ tx htx
  obtain ⟨hopen, hagree⟩ := (hserves.rely hrely).keeps htx
  exact h (hholding tx hopen) hagree

theorem call (op : Op) (hop : Quiet op) {pre : S → Prop} {post : op.Res → S → Prop}
    (hpre : Stable contract tid pre) (hpost : ∀ answer, Stable contract tid (post answer))
    (hcall : ∀ {s} choice, contract.inv s → pre s →
      post (sys.exec s tid op choice).2 (sys.exec s tid op choice).1) :
    Triple contract tid pre (Backend.call op) post := by
  refine Triple.perform hpre (fun s choice hinv hs hguard => ?_) hpost
  obtain ⟨hinv', hguar⟩ := hserves.quiet hop hinv hguard
  exact ⟨hinv', hguar, hcall choice hinv hs⟩

theorem keep (op : Op) (hop : Quiet op) (hfact : Steady contract tid fact) :
    Triple contract tid fact (Backend.call op) fun _ => fact :=
  hserves.call op hop hfact.stable (fun _ => hfact.stable)
    fun choice _ hs => hfact.quiet choice hop hs

theorem begin (hfact : Steady contract tid fact) :
    Triple contract tid fact Backend.begin fun ok s => fact s ∧
      Holding tid (fun tx w => ok = true → Empty tx w) (view s) := by
  refine hserves.call .begin trivial hfact.stable
    (fun ok => hfact.stable.and (hserves.holding (Empty.local.imp _))) ?_
  intro s choice hinv hs
  refine ⟨hfact.quiet choice trivial hs, fun tx htx hok => ?_⟩
  rw [hserves.world] at htx
  rw [hserves.answer] at hok
  simp only [World.exec, Engine.begin] at hok htx
  split at htx
  · rw [Engine.open_, AList.lookup_insert] at htx
    cases htx
    rfl
  · next hfault =>
    rw [if_neg hfault] at hok
    cases hok

theorem exec (hfact : Steady contract tid fact) (hdraft : Local draft) {stmt : Stmt}
    {next : stmt.Res → Tx dialect → World → Prop} (hnext : ∀ answer, Local (next answer))
    (hfailed : ∀ {tx w}, draft tx w → next stmt.failed tx w)
    (hstaged : ∀ {tx w} choice locked, w.db.Keyed → draft tx w →
      let planned := stmt.plan choice (applyAll (D := dialect) w.db tx.writes) locked
      next planned.result ⟨tx.writes ++ planned.writes, planned.locks ++ tx.locks⟩ w) :
    Triple contract tid (fun s => fact s ∧ Holding tid draft (view s)) (Backend.exec stmt)
      fun answer s => fact s ∧ Holding tid (next answer) (view s) := by
  refine hserves.call (.exec stmt) trivial (hfact.stable.and (hserves.holding hdraft))
    (fun answer => hfact.stable.and (hserves.holding (hnext answer))) ?_
  intro s choice hinv hs
  refine ⟨hfact.quiet choice trivial hs.1, fun tx htx => ?_⟩
  rw [hserves.world] at htx ⊢
  rw [hserves.answer]
  simp only [World.exec] at htx ⊢
  rcases (view s).sql.statement_cases tid (stmt.plan choice) stmt.failed choice.fault
    with h | h | ⟨open_, hopen, h⟩ <;> rw [h] at htx ⊢
  · exact hfailed (hs.2 tx htx)
  · rw [Engine.close, AList.lookup_erase] at htx
    cases htx
  · rw [Engine.stage, AList.lookup_insert] at htx
    cases htx
    exact hnext _ (hstaged choice _ (hserves.keyed hinv) (hs.2 open_ hopen))
      fun key _ => dialect.agree_refl key (view s).db

theorem transaction (hfact : Steady contract tid fact) {α : Type} {unavailable : α}
    {body : Service α} {post : α → S → Prop} (hpost : ∀ result, Steady contract tid (post result))
    (hunavailable : ∀ {s}, fact s → post unavailable s)
    (hbody : Triple contract tid (fun s => fact s ∧ Holding tid Empty (view s)) body post) :
    Triple contract tid fact (Backend.transaction unavailable body) post := by
  refine (hserves.begin hfact).bind fun ok => ?_
  cases ok with
  | false =>
    have hret : Triple contract tid fact (.ret unavailable) post :=
      .ret hfact.stable fun _ h => hunavailable h
    exact hret.strengthen fun h => h.1
  | true =>
    refine (hbody.strengthen fun h => ⟨h.1, fun tx htx => h.2 tx htx rfl⟩).bind fun result => ?_
    refine (hserves.keep .rollback trivial (hpost result)).bind fun _ => ?_
    exact .ret (hpost result).stable fun _ h => h

end Serves

/-! ## Claiming -/

section Claiming

variable {w : World} {events : List OutboxEvent} {claimed : List UInt64}
variable {leaseUntil now : Int64} {token : Bytes} {tx : Tx dialect}

/-- The selected rows are locked, and some of them are claimed. -/
structure ClaimDraft (events : List OutboxEvent) (claimed : List UInt64) (leaseUntil : Int64)
    (token : Bytes) (now : Int64) (tx : Tx dialect) (w : World) : Prop where
  writes : tx.writes = claimed.map fun id => .claimEvent id leaseUntil token now
  locked : ∀ event ∈ events, Key.event event.eventId ∈ tx.locks
  present : ∀ event ∈ events, w.db.outbox.lookup event.eventId = some event
  claimable : ∀ event ∈ events, event.status ∈ [.pending, .failed, .publishing]

theorem ClaimDraft.local (events : List OutboxEvent) (claimed : List UInt64)
    (leaseUntil : Int64) (token : Bytes) (now : Int64) :
    Local (ClaimDraft events claimed leaseUntil token now) := by
  intro tx w w' h hagree
  refine { h with present := fun event hevent => ?_ }
  have hsame : w'.db.outbox.lookup event.eventId = _ := hagree _ (h.locked event hevent)
  rw [hsame]
  exact h.present event hevent

theorem mem_claimable {db : Db} (hkeyed : db.Keyed) {locked : List Key}
    {event : OutboxEvent} (hevent : event ∈ db.claimable now locked) :
    db.outbox.lookup event.eventId = some event ∧ event.Claimable now := by
  simp only [Db.claimable, List.mem_insertionSort, List.mem_filter,
    decide_eq_true_eq] at hevent
  obtain ⟨hrow, hclaimable, _⟩ := hevent
  obtain ⟨key, hkey⟩ := Table.mem_rows.mp hrow
  exact ⟨hkeyed.outbox key event hkey ▸ hkey, hclaimable⟩

theorem ClaimDraft.selected (hkeyed : w.db.Keyed) (hempty : Empty tx w) (limit : Nat)
    (choice : Choice) (locked : List Key) :
    let planned := Stmt.plan (.selectClaimable limit now) choice
      (applyAll (D := dialect) w.db tx.writes) locked
    ClaimDraft planned.result [] leaseUntil token now
      ⟨tx.writes ++ planned.writes, planned.locks ++ tx.locks⟩ w := by
  obtain ⟨writes, locks⟩ := tx
  cases hempty
  have hmem {event : OutboxEvent} (hevent : event ∈ (w.db.claimable now locked).take limit) :=
    mem_claimable hkeyed (List.mem_of_mem_take hevent)
  refine ⟨rfl, fun event hevent => ?_, fun event hevent => (hmem hevent).1,
    fun event hevent => (hmem hevent).2.1⟩
  exact List.mem_append_left _ (List.mem_map_of_mem hevent)

theorem ClaimDraft.claim (h : ClaimDraft events claimed leaseUntil token now tx w)
    (eventId : UInt64) (choice : Choice) (locked : List Key) :
    let planned := Stmt.plan (.claimEvent eventId leaseUntil token now) choice
      (applyAll (D := dialect) w.db tx.writes) locked
    ClaimDraft events (claimed ++ [eventId]) leaseUntil token now
      ⟨tx.writes ++ planned.writes, planned.locks ++ tx.locks⟩ w := by
  refine { h with writes := ?_, locked := ?_ }
  · simp [h.writes, Stmt.plan, writing]
  · exact fun event hevent => List.mem_append_right _ (h.locked event hevent)

/-- What a generated token and a committed claim are worth. -/
structure Claimant (contract : Contract sys guard) (tid : Nat) (view : S → World)
    (fresh : TraceId → S → Prop) (claimed : OutboxEvent → S → Prop) : Prop where
  serves : Serves contract tid view
  fresh_steady : ∀ token, Steady contract tid (fresh token)
  steady : ∀ event, Steady contract tid (claimed event)
  generate : ∀ {s} choice, contract.inv s → fresh (sys.exec s tid .generateTraceId choice).2
      (sys.exec s tid .generateTraceId choice).1
  commit : ∀ {events token leaseUntil now}, Triple contract tid
    (fun s => fresh token s ∧ Holding tid (ClaimDraft events
      (events.map OutboxEvent.eventId) leaseUntil token.bytes now) (view s)) commit
    fun ok s => ok = true → ∀ event ∈ events, claimed { event with claimToken := token.bytes } s

namespace Claimant

variable {fresh : TraceId → S → Prop} {claim : OutboxEvent → S → Prop}
variable (h : Claimant contract tid view fresh claim)
include h

theorem each (leaseUntil now : Int64) (token : TraceId)
    (events rest : List OutboxEvent) (claimed : List UInt64) :
    Triple contract tid (fun s => fresh token s ∧
        Holding tid (ClaimDraft events claimed leaseUntil token.bytes now) (view s))
      (claimEach leaseUntil token now rest) fun ok s => fresh token s ∧
        Holding tid (fun tx w => ok = true → ClaimDraft events
          (claimed ++ rest.map OutboxEvent.eventId) leaseUntil token.bytes now
          tx w) (view s) := by
  have hfresh := (h.fresh_steady token).stable
  have hlocal (claimed : List UInt64) :
      Local (ClaimDraft events claimed leaseUntil token.bytes now) :=
    ClaimDraft.local events claimed leaseUntil token.bytes now
  induction rest generalizing claimed with
  | nil =>
    refine .ret (hfresh.and (h.serves.holding (hlocal claimed))) fun _ hs =>
      ⟨hs.1, fun tx htx _ => ?_⟩
    simpa using hs.2 tx htx
  | cons event rest ih =>
    have hone : Triple contract tid _
        (exec (.claimEvent event.eventId leaseUntil token.bytes now)) fun ok s =>
        fresh token s ∧ Holding tid (fun tx w => ok = true → ClaimDraft events
          (claimed ++ [event.eventId]) leaseUntil token.bytes now tx w) (view s) :=
      h.serves.exec (h.fresh_steady token) (hlocal claimed)
        (fun ok => Local.imp _ (hlocal _)) (fun _ hok => Bool.noConfusion hok)
        fun choice locked _ hdraft _ => hdraft.claim event.eventId choice locked
    refine hone.bind fun ok => ?_
    cases ok with
    | false =>
      exact .ret (hfresh.and (h.serves.holding (Local.imp _ (hlocal _))))
        fun _ hs => ⟨hs.1, fun _ _ hok => Bool.noConfusion hok⟩
    | true =>
      have hclaimed : claimed ++ (event :: rest).map OutboxEvent.eventId =
          (claimed ++ [event.eventId]) ++ rest.map OutboxEvent.eventId := by
        simp
      rw [hclaimed]
      exact (ih _).strengthen fun hs => ⟨hs.1, fun tx htx => hs.2 tx htx rfl⟩

theorem newToken {draft : Tx dialect → World → Prop} (hdraft : Local draft) :
    Triple contract tid (fun s => True ∧ Holding tid draft (view s)) generateTraceId
      fun token s => fresh token s ∧ Holding tid draft (view s) := by
  have hholding := h.serves.holding hdraft
  refine h.serves.call .generateTraceId trivial ((Stable.const True).and hholding)
    (fun token => (h.fresh_steady token).stable.and hholding) ?_
  intro s choice hinv hs
  refine ⟨h.generate choice hinv, ?_⟩
  rw [h.serves.world]
  exact fun tx htx => hdraft (hs.2 tx htx) fun key _ => dialect.agree_refl key _

theorem pendingEvents (limit : Nat) (now leaseMs : Int64) :
    Triple contract tid (fun _ => True) (claimPendingEvents limit now leaseMs)
      fun events s => ∀ event ∈ events, claim event s := by
  have hclaimed (events : List OutboxEvent) :
      Steady contract tid fun s => ∀ event ∈ events, claim event s :=
    .all fun event => (h.steady event).imp _
  refine h.serves.transaction (.const True) hclaimed (fun _ _ h => nomatch h) ?_
  have hselect : Triple contract tid (fun s => True ∧ Holding tid Empty (view s))
      (exec (.selectClaimable limit now)) fun events s => True ∧ Holding tid
        (ClaimDraft events [] (now + if 0 < leaseMs then leaseMs else 30000) [] now)
        (view s) := by
    refine h.serves.exec (.const True) Empty.local
      (fun events => ClaimDraft.local events [] _ [] now)
      (fun hs => ⟨hs, nofun, nofun, nofun⟩) fun choice locked hkeyed hempty => ?_
    exact ClaimDraft.selected hkeyed hempty limit choice locked
  refine hselect.bind fun events => ?_
  refine (h.newToken (ClaimDraft.local events [] _ [] now)).bind fun token => ?_
  refine ((h.each _ now token events events []).strengthen fun hs => ⟨hs.1,
    fun tx htx => { hs.2 tx htx with writes := (hs.2 tx htx).writes }⟩).bind fun ok => ?_
  have hfresh := (h.fresh_steady token).stable
  cases ok with
  | false =>
    exact .ret (hfresh.and (h.serves.holding (Local.imp _ (ClaimDraft.local ..))))
      fun _ _ _ h => nomatch h
  | true =>
  refine (h.commit.strengthen fun hs => ⟨hs.1, fun tx htx => hs.2 tx htx rfl⟩).bind fun ok => ?_
  have hdone : Steady contract tid fun s => ok = true → ∀ event ∈ events,
      claim { event with claimToken := token.bytes } s :=
    .imp _ (.all fun event => (h.steady _).imp _)
  cases ok with
  | false => exact .ret hdone.stable fun _ _ _ h => nomatch h
  | true =>
    refine .ret hdone.stable fun _ hs event hevent => ?_
    obtain ⟨selected, hselected, rfl⟩ := List.mem_map.mp hevent
    exact hs rfl selected hselected

end Claimant

end Claiming

/-! ## Marking -/

theorem plan_markEvent (db : Db) (eventId : UInt64) (token : Bytes) (mark : Mark)
    (now : Int64) (choice : Choice) (locked : List Key) :
    (∃ row, db.outbox.lookup eventId = some row ∧ row.status = .publishing ∧
      row.claimToken = token ∧ Stmt.plan (.markEvent eventId token mark now) choice db
        locked = writing [.markEvent eventId mark now] true) ∨
    Stmt.plan (.markEvent eventId token mark now) choice db locked = read false := by
  simp only [Stmt.plan]
  cases hrow : db.outbox.lookup eventId with
  | none => exact .inr rfl
  | some row =>
    by_cases hholder : row.status = .publishing ∧ row.claimToken = token
    · exact .inl ⟨row, rfl, hholder.1, hholder.2, if_pos hholder⟩
    · exact .inr (if_neg hholder)

/-- A mark finds the row claimed with its token and changes it, or changes nothing
and reports a failure; only a lost reply hides that it has changed the row. -/
theorem mark_outcome (w : World) (tid : Nat) (eventId : UInt64) (token : Bytes)
    (mark : Mark) (now : Int64) (choice : Choice) :
    (w.exec tid (.query (.markEvent eventId token mark now)) choice = (w, false)) ∨
    ∃ row ok, w.db.outbox.lookup eventId = some row ∧ row.status = .publishing ∧
      row.claimToken = token ∧ (choice.fault ≠ .lost → ok = true) ∧
      w.exec tid (.query (.markEvent eventId token mark now)) choice =
        ({ w with sql := w.sql.write tid [.markEvent eventId mark now] }, ok) := by
  rcases w.query_cases tid (.markEvent eventId token mark now) choice with
    h | ⟨locked, hwrites, h⟩ | ⟨locked, ok, hwrites, hok, h⟩
  · exact .inl h
  all_goals
    rcases plan_markEvent w.db eventId token mark now choice locked with
      ⟨row, hrow, hpublishing, htoken, hplan⟩ | hplan <;> rw [hplan] at hwrites h
  · cases hwrites
  · exact .inl h
  · rw [hplan] at hok
    exact .inr ⟨row, ok, hrow, hpublishing, htoken, fun hfault =>
      hok.resolve_left fun hlost => hfault hlost.1, h⟩
  · exact absurd rfl hwrites

/-! ## The worker -/

/-- What the attempts and the marks of a claimed event are worth. -/
structure Works (contract : Contract sys guard) (tid : Nat) (options : OutboxWorkerOptions)
    (claimed due : OutboxEvent → S → Prop) (marks : OutboxEvent → Mark → S → Prop) : Prop where
  due_steady : ∀ event, Steady contract tid (due event)
  attempt : ∀ event, Triple contract tid (claimed event)
    (produce event.eventId event.topic event.eventKey event.payload)
    fun ok s => (ok = true → marks event .published s) ∧ (ok = false → due event s)
  retry : ∀ {event} nextRetryAt {s}, due event s →
    if event.retryCount + 1 ≤ options.maxRetryCount then
      marks event (.failed (event.retryCount + 1) nextRetryAt) s
    else marks event (.failed event.retryCount nextRetryAt) s
  bury : ∀ {event}, ¬ event.retryCount + 1 ≤ options.maxRetryCount → Triple contract tid (due event)
      (produce event.eventId options.dlqTopic event.eventKey event.payload)
      fun ok s => (ok = true → marks event .dead s) ∧ (ok = false → due event s)
  mark : ∀ event mark, Triple contract tid (marks event mark)
    (markEvent event.eventId event.claimToken mark) fun _ _ => True

namespace Works

variable {options : OutboxWorkerOptions} {claimed due : OutboxEvent → S → Prop}
variable {marks : OutboxEvent → Mark → S → Prop} {event : OutboxEvent}
variable (h : Works contract tid options claimed due marks)
variable (hserves : Serves contract tid view)
include h hserves

theorem retryLater (event : OutboxEvent) (retryCount backoffCount : Int)
    (hmarks : ∀ nextRetryAt {s}, due event s → marks event (.failed retryCount nextRetryAt) s) :
    Triple contract tid (due event)
      (Outbox.retryLater options event retryCount backoffCount) fun _ _ => True := by
  refine (hserves.keep .nowMs trivial (h.due_steady event)).bind fun now => ?_
  exact (h.mark event _).strengthen fun hs => hmarks _ hs

theorem handleFailure (event : OutboxEvent) :
    Triple contract tid (due event) (Outbox.handleFailure options event) fun _ _ => True := by
  simp only [Outbox.handleFailure]
  split
  · next hless =>
    exact h.retryLater hserves event _ _ fun at_ _ hs => (if_pos hless).mp (h.retry at_ hs)
  next hmore =>
  have hagain := h.retryLater hserves event event.retryCount (event.retryCount + 1)
    fun at_ _ hs => (if_neg hmore).mp (h.retry at_ hs)
  split
  · exact hagain
  refine (h.bury hmore).bind fun ok => ?_
  cases ok with
  | false => exact hagain.strengthen fun hs => hs.2 rfl
  | true => exact (h.mark event .dead).strengthen fun hs => hs.1 rfl

theorem handleEvent (event : OutboxEvent) :
    Triple contract tid (claimed event) (Outbox.handleEvent options event) fun _ _ => True := by
  refine (h.attempt event).bind fun ok => ?_
  cases ok with
  | false => exact (h.handleFailure hserves event).strengthen fun hs => hs.2 rfl
  | true => exact (h.mark event .published).strengthen fun hs => hs.1 rfl

theorem runRounds {fresh : TraceId → S → Prop}
    (hclaims : Claimant contract tid view fresh claimed) (rounds : Nat) :
    Triple contract tid (fun _ => True) (Outbox.runRounds options rounds) fun _ _ => True := by
  induction rounds with
  | zero => exact .ret (.const True) fun _ _ => trivial
  | succ rounds ih =>
    refine (hserves.keep .nowMs trivial (.const True)).bind fun now => ?_
    refine (hclaims.pendingEvents 1 now _).bind fun events => ?_
    cases events with
    | nil => exact .ret (fun _ _ _ _ _ _ _ h => nomatch h) fun _ _ => trivial
    | cons event events =>
      refine ((h.handleEvent hserves event).strengthen fun hs =>
        hs event List.mem_cons_self).bind fun _ => ?_
      exact ih

end Works

end NebulaIM.Outbox
