import NebulaIM.Services.Publishing

/-!
# Outbox workers and the record of their calls

Any number of workers over the shared world, while other services add events.
A ledger records what the producer and the marks answered, so that the columns
of an event can be compared with the calls that were made for it.
-/

namespace NebulaIM.Outbox

open Foundation Foundation.Store
open Backend Protocol
open Services (TokensDistinct)
open Foundation.Wire (Bytes)

/-- A recorded call and its answer. -/
inductive Called where
  | produce (eventId : UInt64) (topic : Bytes) (ok : Bool)
  | mark (eventId : UInt64) (mark : Mark) (fault : Fault) (ok : Bool)
  deriving DecidableEq

def isFailed : Mark → Bool
  | .failed _ _ => true
  | .published | .dead => false

namespace Called

def marksFailed (id : UInt64) : Called → Bool
  | .mark eventId outcome _ ok => eventId == id && isFailed outcome && ok
  | .produce _ _ _ => false

def losesReply (id : UInt64) : Called → Bool
  | .mark eventId _ fault _ => eventId == id && fault == .lost
  | .produce _ _ _ => false

end Called

structure Ledger where
  world : World
  calls : List Called := []

variable {l l' : Ledger} {tid : Nat} {limit : Int}

def recordsFailure (id : UInt64) : Write → Bool
  | .markEvent eventId mark _ => eventId == id && isFailed mark
  | _ => false

namespace Ledger

abbrev outbox (l : Ledger) : Table UInt64 OutboxEvent := l.world.db.outbox

def called : (op : Op) → Choice → op.Res → List Called
  | .produce eventId topic _ _, _, ok => [.produce eventId topic ok]
  | .query (.markEvent eventId _ mark _), choice, ok => [.mark eventId mark choice.fault ok]
  | _, _, _ => []

def exec (l : Ledger) (client : Nat) (op : Op) (choice : Choice) : Ledger × op.Res :=
  let (world, answer) := l.world.exec client op choice
  (⟨world, called op choice answer ++ l.calls⟩, answer)

def env (l : Ledger) (event : Env) : Ledger := { l with world := l.world.env event }

def failures (l : Ledger) (id : UInt64) (topic : Bytes) : Nat :=
  l.calls.count (.produce id topic false)

def marked (l : Ledger) (id : UInt64) : Nat := l.calls.countP (Called.marksFailed id)

def Answered (l : Ledger) (id : UInt64) : Prop := ∀ call ∈ l.calls, call.losesReply id = false

instance decidableAnswered (l : Ledger) (id : UInt64) : Decidable (l.Answered id) :=
  inferInstanceAs (Decidable (∀ call ∈ l.calls, call.losesReply id = false))

/-- How many `markFailed` calls on the event have changed its row. -/
def applied (l : Ledger) (id : UInt64) : Nat :=
  l.world.log.countP fun unit => unit.2.any (recordsFailure id)

theorem failures_produce {client : Nat} {id : UInt64} {topic key payload : Bytes} {choice : Choice}
    (hfailed : (l.exec client (.produce id topic key payload) choice).2 = false) :
    (l.exec client (.produce id topic key payload) choice).1.failures id topic =
      l.failures id topic + 1 := by
  have hcalls : (l.exec client (.produce id topic key payload) choice).1.calls =
      .produce id topic (l.exec client (.produce id topic key payload) choice).2 ::
        l.calls := rfl
  rw [failures, hcalls, hfailed, List.count_cons_self]
  rfl

end Ledger

/-! ## The system -/

inductive Task where
  | worker (options : OutboxWorkerOptions)
  /-- Another service commits a new event. -/
  | insertEvent (event : OutboxEvent)

def perform : Task → Service Unit
  | .worker options => runOnce options
  | .insertEvent event => do
      let _ ← query (.insertEvent event)
      return ()

def workers : System Task Op Op.Res Ledger Choice Env Unit where
  code := perform
  exec := Ledger.exec
  env := Ledger.env

/-- A generated token is a new one. -/
def Fresh (l : Ledger) : Op → Choice → Prop
  | .generateTraceId, choice => choice.token ∉ l.world.tokens.map Prod.snd
  | _, _ => True

/-- A new event is pending and has not been tried. -/
def Admissible (limit : Int) : Task → Prop
  | .worker options => options.maxRetryCount = limit
  | .insertEvent event => event.status = .pending ∧ event.retryCount = 0

/-- All workers have the same retry limit, and tokens are distinct. -/
def sameLimit (limit : Int) : Guard Task Op Ledger Choice Env where
  spawn _ := Admissible limit
  call l _ := Fresh l

instance decidableFresh (l : Ledger) (op : Op) (choice : Choice) :
    Decidable (Fresh l op choice) := by
  unfold Fresh
  split <;> infer_instance

instance decidableAdmissible (limit : Int) (task : Task) : Decidable (Admissible limit task) := by
  unfold Admissible
  split <;> infer_instance

instance sameLimit.decidableSpawn (limit : Int) (l : Ledger) (task : Task) :
    Decidable ((sameLimit limit).spawn l task) := decidableAdmissible limit task

instance sameLimit.decidableCall (limit : Int) (l : Ledger) (tid : Nat) (op : Op)
    (choice : Choice) : Decidable ((sameLimit limit).call l tid op choice) :=
  decidableFresh l op choice

instance sameLimit.decidableEnv (limit : Int) (l : Ledger) (event : Env) :
    Decidable ((sameLimit limit).env l event) := .isTrue trivial

abbrev WorkerPool := Foundation.Pool Task Op Op.Res Ledger Unit

abbrev WorkerAction := Foundation.Action Task Choice Env

/-- A deployment whose outbox is empty and whose workers have not started. -/
structure Unstarted (pool : WorkerPool) : Prop where
  keyed : pool.world.world.db.Keyed
  outbox : pool.world.outbox = ∅
  txs : pool.world.world.sql.txs = ∅
  log : pool.world.world.log = []
  tokens : pool.world.world.tokens = []
  calls : pool.world.calls = []
  threads : pool.threads = []

/-! ## The invariant -/

/-- How the row of an event stands to the calls made for it. -/
structure Counted (limit : Int) (l : Ledger) (id : UInt64) (row : OutboxEvent) : Prop where
  count : row.retryCount = min limit (l.applied id)
  attempts : l.applied id ≤ l.failures id row.topic
  dead : row.status = .dead → limit < l.failures id row.topic

structure Exact (limit : Int) (l : Ledger) : Prop where
  engine : l.world.sql.WellFormed
  keyed : l.world.db.Keyed
  distinct : TokensDistinct l.world
  counted : ∀ {id row}, l.outbox.lookup id = some row → Counted limit l id row
  absent : ∀ {id}, l.outbox.lookup id = none → l.applied id = 0
  marked : ∀ {id}, l.Answered id → l.marked id = l.applied id

/-- What has to hold when the row of an event is marked. -/
def Allows (limit : Int) (l : Ledger) (id : UInt64) (row : OutboxEvent) : Mark → Prop
  | .published => True
  | .failed retryCount _ => retryCount = min limit (l.applied id + 1) ∧
      l.applied id < l.failures id row.topic
  | .dead => limit < l.failures id row.topic

/-- What a call of the thread does to the row of one event, and how many failures
it records there. -/
inductive RowStep (limit : Int) (tid : Nat) (l l' : Ledger) (id : UInt64) : Nat → Prop
  | same (row : l'.outbox.lookup id = l.outbox.lookup id) : RowStep limit tid l l' id 0
  | inserted {event : OutboxEvent} (before : l.outbox.lookup id = none)
      (after : l'.outbox.lookup id = some event) (pending : event.status = .pending)
      (untried : event.retryCount = min limit 0) : RowStep limit tid l l' id 0
  | claimed {row : OutboxEvent} {leaseUntil now : Int64} {token : TraceId}
      (before : l.outbox.lookup id = some row)
      (after : l'.outbox.lookup id = some (row.claim leaseUntil token.bytes now))
      (generated : (tid, token) ∈ l.world.tokens) : RowStep limit tid l l' id 0
  | marked {row : OutboxEvent} {mark : Mark} {now : Int64} (before : l.outbox.lookup id = some row)
      (after : l'.outbox.lookup id = some (row.mark now mark))
      (allows : Allows limit l id row mark) :
      RowStep limit tid l l' id (if isFailed mark then 1 else 0)

/-- The counts of an event go up together. -/
structure Tally (l l' : Ledger) (id : UInt64) (failures : Nat) : Prop where
  applied : l'.applied id = l.applied id + failures
  marked : l'.Answered id → l'.marked id = l.marked id + failures

/-- What a call does to the rows, the counts and the record. -/
structure Records (limit : Int) (tid : Nat) (l l' : Ledger) : Prop where
  calls : l.calls <:+ l'.calls
  tokens : l.world.tokens <:+ l'.world.tokens
  rows : ∀ id, ∃ failures, RowStep limit tid l l' id failures ∧ Tally l l' id failures

structure LedgerStep (limit : Int) (tid : Nat) (l l' : Ledger) : Prop where
  moves : Engine.Moves tid l.world.sql l'.world.sql
  records : Records limit tid l l'

/-- What a thread may rely on besides its transaction: a row that carries one of
its tokens is as the thread left it. -/
structure Keeps (tid : Nat) (l l' : Ledger) : Prop where
  calls : l.calls <:+ l'.calls
  tokens : l.world.tokens <:+ l'.world.tokens
  rows : ∀ {id row}, l.outbox.lookup id = some row →
    ∃ row', l'.outbox.lookup id = some row' ∧ row'.topic = row.topic
  own : ∀ {token id row}, (tid, token) ∈ l.world.tokens →
    l'.outbox.lookup id = some row → row.status = .publishing →
    row.claimToken = token.bytes →
    l.outbox.lookup id = some row ∧ l'.applied id = l.applied id

structure LedgerRely (tid : Nat) (l l' : Ledger) : Prop where
  engine : Engine.Rely tid l.world.sql l'.world.sql
  keeps : Keeps tid l l'

theorem Tally.of {id : UInt64} {failures : Nat} (units : List (Nat × List Write))
    (calls : List Called) (hlog : l'.world.log = units ++ l.world.log)
    (hcalls : l'.calls = calls ++ l.calls)
    (happlied : units.countP (fun unit => unit.2.any (recordsFailure id)) = failures)
    (hmarked : (∀ call ∈ calls, call.losesReply id = false) →
      calls.countP (Called.marksFailed id) = failures) : Tally l l' id failures where
  applied := by
    rw [Ledger.applied, hlog, List.countP_append, happlied, Nat.add_comm]
    rfl
  marked hanswered := by
    rw [Ledger.marked, hcalls, List.countP_append, Nat.add_comm, hmarked]
    · rfl
    · intro call hcall
      exact hanswered call (hcalls ▸ List.mem_append_left _ hcall)

/-- A change that touches no event. -/
theorem Records.of_same (calls : List Called) (houtbox : l'.outbox = l.outbox)
    (hlog : l'.world.log = l.world.log) (hcalls : l'.calls = calls ++ l.calls)
    (htokens : l.world.tokens <:+ l'.world.tokens)
    (hmarked : ∀ id, calls.countP (Called.marksFailed id) = 0) :
    Records limit tid l l' where
  calls := hcalls ▸ List.suffix_append _ _
  tokens := htokens
  rows id := ⟨0, .same (by rw [houtbox]), .of [] calls hlog hcalls rfl
    fun _ => hmarked id⟩

theorem mark_status_ne (row : OutboxEvent) (now : Int64) (mark : Mark) :
    (row.mark now mark).status ≠ .publishing := by
  cases mark <;> exact fun h => nomatch h

theorem mark_topic (row : OutboxEvent) (now : Int64) (mark : Mark) :
    (row.mark now mark).topic = row.topic := by
  cases mark <;> rfl

/-! ### The invariant holds on -/

theorem Counted.step {id : UInt64} {row : OutboxEvent} {failures : Nat}
    (h : Exact limit l) (hcalls : l.calls <:+ l'.calls)
    (hstep : RowStep limit tid l l' id failures) (htally : Tally l l' id failures)
    (hrow : l'.outbox.lookup id = some row) : Counted limit l' id row := by
  have happlied := htally.applied
  have hfailures (topic : Bytes) : l.failures id topic ≤ l'.failures id topic :=
    hcalls.sublist.count_le _
  cases hstep with
  | same hsame =>
    have hold := h.counted (hsame ▸ hrow)
    have hle := hfailures row.topic
    exact ⟨happlied ▸ hold.count, happlied ▸ hold.attempts.trans hle,
      fun hdead => lt_of_lt_of_le (hold.dead hdead) (Int.ofNat_le.mpr hle)⟩
  | inserted before after pending untried =>
    cases after.symm.trans hrow
    rw [h.absent before] at happlied
    refine ⟨happlied ▸ untried, happlied ▸ Nat.zero_le _, fun hdead => ?_⟩
    cases pending.symm.trans hdead
  | @claimed old _ _ _ before after _ =>
    cases after.symm.trans hrow
    have hold := h.counted before
    exact ⟨happlied ▸ hold.count, happlied ▸ hold.attempts.trans (hfailures old.topic),
      fun hdead => OutboxStatus.noConfusion hdead⟩
  | @marked old mark _ before after allows =>
    cases after.symm.trans hrow
    have hold := h.counted before
    have hle := hfailures old.topic
    cases mark with
    | published => exact ⟨happlied ▸ hold.count, happlied ▸ hold.attempts.trans hle, nofun⟩
    | dead =>
      exact ⟨happlied ▸ hold.count, happlied ▸ hold.attempts.trans hle,
        fun _ => lt_of_lt_of_le allows (Int.ofNat_le.mpr hle)⟩
    | failed retryCount nextRetryAt =>
      refine ⟨?_, ?_, nofun⟩
      · rw [happlied]
        exact allows.1
      · rw [happlied]
        exact allows.2.trans_le hle

theorem Exact.step (h : Exact limit l) (hengine : l'.world.sql.WellFormed)
    (hkeyed : l'.world.db.Keyed) (hdistinct : TokensDistinct l'.world)
    (hrecords : Records limit tid l l') : Exact limit l' where
  engine := hengine
  keyed := hkeyed
  distinct := hdistinct
  counted {id row} hrow := by
    obtain ⟨failures, hstep, htally⟩ := hrecords.rows id
    exact .step h hrecords.calls hstep htally hrow
  absent {id} hnone := by
    obtain ⟨failures, hstep, htally⟩ := hrecords.rows id
    cases hstep with
    | same hsame => exact htally.applied.trans (h.absent (hsame ▸ hnone))
    | inserted _ after | claimed _ after | marked _ after => cases after.symm.trans hnone
  marked {id} hanswered := by
    obtain ⟨failures, -, htally⟩ := hrecords.rows id
    rw [htally.marked hanswered, htally.applied, h.marked]
    exact fun call hcall => hanswered call (hrecords.calls.subset hcall)

theorem exec_distinct {op : Op} {choice : Choice}
    (hfresh : Fresh l op choice) (h : TokensDistinct l.world) :
    TokensDistinct (l.exec tid op choice).1.world := by
  cases op with
  | generateTraceId => exact List.nodup_cons.mpr ⟨hfresh, h⟩
  | redisSetEx key ttlSeconds value | produce eventId topic key payload =>
    simp only [Ledger.exec, World.exec]
    split <;> exact h
  | _ => exact h

theorem Exact.exec (h : Exact limit l) (tid : Nat) (op : Op) (choice : Choice)
    (hfresh : Fresh l op choice) (hrecords : Records limit tid l (l.exec tid op choice).1) :
    Exact limit (l.exec tid op choice).1 ∧ LedgerStep limit tid l (l.exec tid op choice).1 := by
  have hmoves := l.world.exec_moves tid op choice
  have hkeyed : (l.world.exec tid op choice).1.db.Keyed := by
    rcases l.world.exec_effect tid op choice with ⟨hdb, _⟩ | ⟨writes, hdb, _⟩
    · exact hdb ▸ h.keyed
    · exact hdb ▸ h.keyed.applyAll writes
  exact ⟨h.step (hmoves.wellFormed h.engine) hkeyed (exec_distinct hfresh h.distinct)
    hrecords, hmoves, hrecords⟩

/-! ### The contract -/

theorem Keeps.of_same (houtbox : l'.outbox = l.outbox)
    (hlog : l'.world.log = l.world.log) (hcalls : l.calls <:+ l'.calls)
    (htokens : l.world.tokens <:+ l'.world.tokens) : Keeps tid l l' where
  calls := hcalls
  tokens := htokens
  rows {_ row} hrow := ⟨row, houtbox ▸ hrow, rfl⟩
  own _ hrow _ _ := ⟨houtbox ▸ hrow, by simp only [Ledger.applied, hlog]⟩

theorem Keeps.refl (tid : Nat) (l : Ledger) : Keeps tid l l :=
  .of_same rfl rfl (List.suffix_refl _) (List.suffix_refl _)

theorem Keeps.trans {first second third : Ledger} (h₁ : Keeps tid first second)
    (h₂ : Keeps tid second third) :
    Keeps tid first third where
  calls := h₁.calls.trans h₂.calls
  tokens := h₁.tokens.trans h₂.tokens
  rows hrow := by
    obtain ⟨row', hrow', htopic⟩ := h₁.rows hrow
    obtain ⟨row'', hrow'', htopic'⟩ := h₂.rows hrow'
    exact ⟨row'', hrow'', htopic'.trans htopic⟩
  own hgenerated hrow hpublishing htoken := by
    obtain ⟨hrow', happlied'⟩ := h₂.own (h₁.tokens.subset hgenerated) hrow hpublishing htoken
    obtain ⟨hrow'', happlied⟩ := h₁.own hgenerated hrow' hpublishing htoken
    exact ⟨hrow'', happlied'.trans happlied⟩

theorem Records.keeps {other : Nat} (h : Records limit tid l l')
    (hdistinct : TokensDistinct l.world) (hne : tid ≠ other) : Keeps other l l' where
  calls := h.calls
  tokens := h.tokens
  rows {id row} hrow := by
    obtain ⟨failures, hstep, -⟩ := h.rows id
    cases hstep with
    | same hsame => exact ⟨row, hsame ▸ hrow, rfl⟩
    | inserted before => cases before.symm.trans hrow
    | claimed before after =>
      cases before.symm.trans hrow
      exact ⟨_, after, rfl⟩
    | marked before after =>
      cases before.symm.trans hrow
      exact ⟨_, after, mark_topic _ _ _⟩
  own {token id row} hgenerated hrow hpublishing htoken := by
    obtain ⟨failures, hstep, htally⟩ := h.rows id
    cases hstep with
    | same hsame => exact ⟨hsame ▸ hrow, htally.applied⟩
    | inserted _ after pending =>
      cases after.symm.trans hrow
      cases pending.symm.trans hpublishing
    | claimed _ after generated =>
      cases after.symm.trans hrow
      cases TraceId.ext htoken
      have hsame := List.inj_on_of_nodup_map hdistinct generated hgenerated rfl
      exact absurd (congrArg Prod.fst hsame) hne
    | marked _ after =>
      cases after.symm.trans hrow
      exact absurd hpublishing (mark_status_ne _ _ _)

theorem env_exact (h : Exact limit l) (event : Env) : Exact limit (l.env event) := by
  have hrecords {l' : Ledger} (houtbox : l'.outbox = l.outbox)
      (hlog : l'.world.log = l.world.log) (hcalls : l'.calls = l.calls)
      (htokens : l'.world.tokens = l.world.tokens) : Records limit 0 l l' :=
    .of_same [] houtbox hlog hcalls (htokens ▸ List.suffix_refl _) fun _ => rfl
  cases event with
  | disconnect client =>
    exact h.step ((Engine.Moves.closed l.world.sql).wellFormed h.engine) h.keyed
      h.distinct (hrecords rfl rfl rfl rfl)
  | redis key value =>
    cases value <;>
      exact h.step h.engine h.keyed h.distinct (hrecords rfl rfl rfl rfl)
  | accounts users friendships =>
    exact h.step ⟨h.engine.exclusive, h.engine.covered⟩
      ⟨h.keyed.messages, h.keyed.outbox, h.keyed.conversations,
        h.keyed.offline, h.keyed.members, h.keyed.receipts⟩ h.distinct
      (hrecords rfl rfl rfl rfl)

theorem env_ledgerRely (tid : Nat) (l : Ledger) (event : Env) : LedgerRely tid l (l.env event) := by
  have hkeeps {l' : Ledger} (houtbox : l'.outbox = l.outbox)
      (hlog : l'.world.log = l.world.log) (hcalls : l'.calls = l.calls)
      (htokens : l'.world.tokens = l.world.tokens) : Keeps tid l l' :=
    .of_same houtbox hlog (hcalls ▸ List.suffix_refl _) (htokens ▸ List.suffix_refl _)
  cases event with
  | disconnect other => exact ⟨Engine.close_rely other tid l.world.sql, hkeeps rfl rfl rfl rfl⟩
  | redis key value =>
    cases value <;>
      exact ⟨.refl tid l.world.sql, hkeeps rfl rfl rfl rfl⟩
  | accounts users friendships =>
    refine ⟨⟨fun htx => ⟨htx, fun key _ => ?_⟩, List.suffix_refl _⟩, hkeeps rfl rfl rfl rfl⟩
    exact Key.Agree.accounts key l.world.db users friendships

def ledgerContract (limit : Int) : Contract workers (sameLimit limit) where
  inv := Exact limit
  rely := LedgerRely
  guar := LedgerStep limit
  rely_refl tid l := ⟨.refl tid l.world.sql, .refl tid l⟩
  rely_trans h₁ h₂ := ⟨h₁.engine.trans h₂.engine, h₁.keeps.trans h₂.keeps⟩
  guar_rely hne hinv hstep :=
    ⟨hstep.moves.rely hinv.engine hne, hstep.records.keeps hinv.distinct hne⟩
  env_inv hinv _ := env_exact hinv _
  env_rely _ _ := env_ledgerRely _ _ _

end NebulaIM.Outbox
