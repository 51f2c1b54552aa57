import NebulaIM.Services.Runs

/-!
# No event is lost, no stale worker marks one

What holds of the outbox in every run of any number of workers, with workers
stopping at any step.
-/

namespace NebulaIM.Outbox

open Foundation Foundation.Store
open Backend Protocol Services
open Foundation.Wire (Bytes)

variable {config : Config}

/-! ## Delivery -/

theorem evolves_grows {w w' : World} (h : (contract config).Evolves w w') : Grows w w' := by
  refine h.preserves ?_ ?_ (Grows.refl w)
  · intro tid a b _ _ hgrows hstep
    exact hgrows.trans hstep.grows
  · intro a event _ hgrows
    exact hgrows.trans (env_rely 0 a event).grows

theorem mem_claimable_of {db : Db} {id : UInt64} {event : OutboxEvent}
    (hevent : db.outbox.lookup id = some event) {now : Int64} {locked : List Key}
    (hclaimable : event.Claimable now) (hfree : Key.event event.eventId ∉ locked) :
    event ∈ db.claimable now locked := by
  simp only [Db.claimable, List.mem_insertionSort, List.mem_filter,
    decide_eq_true_eq]
  exact ⟨Table.mem_rows.mpr ⟨id, hevent⟩, hclaimable, hfree⟩

/-- What is known of a committed event, now and at any later time. -/
structure Accounted (config : Config) (pool : Pool) (id : UInt64) (event : OutboxEvent) : Prop where
  published : event.status = .published →
    ⟨id, event.topic, event.eventKey, event.payload⟩ ∈ pool.world.produced
  dead : event.status = .dead → ⟨id, config.worker.dlqTopic, event.eventKey, event.payload⟩ ∈
      pool.world.produced
  otherwise : event.status ∉ [.published, .dead] → event.status ∈ [.pending, .failed, .publishing] ∧
      ∀ now locked, event.nextRetryAt ≤ now → Key.event id ∉ locked →
        event ∈ pool.world.db.claimable now locked
  /-- The event stays, and a final status is never left. -/
  kept : ∀ actions, ∃ event', ((services config).run pool actions).world.db.outbox.lookup id =
      some event' ∧ event'.origin = event.origin ∧
      (event.status ∈ [.published, .dead] → event'.status = event.status)

theorem event_accounted {pool : Pool} (hpool : Reachable config pool) {id : UInt64}
    {event : OutboxEvent} (hevent : pool.world.db.outbox.lookup id = some event) :
    Accounted config pool id event := by
  have hid : event.eventId = id := hpool.inv.keyed.outbox id event hevent
  constructor
  case published => exact hpool.inv.outbox.published hevent
  case dead => exact hpool.inv.outbox.dead hevent
  case otherwise =>
    intro hopen
    have hstatus : event.status ∈ [.pending, .failed, .publishing] := by
      cases hcase : event.status <;> simp_all
    refine ⟨hstatus, fun now locked hdue hfree => ?_⟩
    exact mem_claimable_of hevent ⟨hstatus, hdue⟩ (hid ▸ hfree)
  case kept =>
    intro actions
    exact (evolves_grows (hpool.evolves actions)).events hevent

/-! ### A worker that stops, and one that takes over -/

def firstToken : TraceId := ⟨List.replicate 32 49, by decide⟩

def secondToken : TraceId := ⟨List.replicate 32 50, by decide⟩

def takeoverActions : List Action :=
  .spawn greeting :: List.replicate 20 (.step 0 { id := 42, clock := 5 }) ++
    [.spawn .runOutboxWorker, .spawn .runOutboxWorker] ++
    List.replicate 7 (.step 1 { clock := 6, token := firstToken }) ++
    List.replicate 7 (.step 2 { clock := 40000, token := secondToken })

def publishActions : List Action := List.replicate 3 (.step 2 { clock := 40000 })

def takeover : Pool := (services {}).run twoFriends takeoverActions

def published : Pool := (services {}).run takeover publishActions

theorem takeover_reachable : Reachable {} takeover :=
  ⟨twoFriends, takeoverActions, twoFriends_initial, rfl⟩

theorem published_accounted : ∃ event, published.world.db.outbox.lookup 42 = some event ∧
      ⟨42, event.topic, event.eventKey, event.payload⟩ ∈
        published.world.produced := by
  have hpublished : (published.world.db.outbox.lookup 42).map
      OutboxEvent.status = some .published := by decide +kernel
  obtain ⟨event, hevent, hstatus⟩ := Option.map_eq_some_iff.mp hpublished
  have haccounted := event_accounted (takeover_reachable.run publishActions) hevent
  exact ⟨event, hevent, haccounted.published hstatus⟩

/-! ## Fencing -/

/-- If the row still carries the token, the claim with the token is the latest
one. -/
theorem no_newer_claim {w : World} (hinv : Inv config w) (hdistinct : TokensDistinct w)
    {eventId : UInt64} {token : Bytes} {later earlier : List (Nat × List Write)}
    {unit : Nat × List Write} (hlog : w.log = later ++ unit :: earlier)
    (hclaim : Claims unit eventId token) {row : OutboxEvent}
    (hrow : w.db.outbox.lookup eventId = some row) (hpublishing : row.status = .publishing)
    (htoken : row.claimToken = token) :
    ∀ newer ∈ later, ∀ other, ¬ Claims newer eventId other := by
  obtain ⟨later', unit', earlier', hlog', hclaim', hlatest⟩ := hinv.outbox.holder hrow hpublishing
  rw [htoken] at hclaim'
  have hsame : later = later' := by
    refine split_unique (hinv.outbox.distinct hdistinct) hlog hlog' ?_ ?_
    · exact fun h => h token hclaim.claimsWith hclaim'.claimsWith
    · exact fun h => h token hclaim'.claimsWith hclaim.claimsWith
  rw [hsame]
  exact hlatest

/-- A mark with the token of a claim succeeds only while that claim is the latest
one of the event; after a later claim it changes nothing and reports a failure,
whoever issues it and whatever happens to the call. -/
theorem mark_fenced {pool : Pool} (hpool : Reachable config pool)
    (hdistinct : TokensDistinct pool.world) {eventId : UInt64} {token : Bytes}
    {later earlier : List (Nat × List Write)} {unit : Nat × List Write}
    (hlog : pool.world.log = later ++ unit :: earlier) (hclaim : Claims unit eventId token)
    (tid : Nat) (mark : Mark) (now : Int64) (choice : Choice) :
    ((pool.world.exec tid (.query (.markEvent eventId token mark now)) choice).2 = true →
      ∀ newer ∈ later, ∀ other, ¬ Claims newer eventId other) ∧
    ((∃ newer ∈ later, ∃ other, Claims newer eventId other) →
      (pool.world.exec tid (.query (.markEvent eventId token mark now)) choice).2 = false ∧
      (pool.world.exec tid (.query (.markEvent eventId token mark now))
        choice).1.db = pool.world.db) := by
  rcases mark_outcome pool.world tid eventId token mark now choice with
    h | ⟨row, _, hrow, hpublishing, htoken, _⟩
  · rw [h]
    exact ⟨fun htrue => absurd htrue Bool.false_ne_true, fun _ => ⟨rfl, rfl⟩⟩
  · have hlatest := no_newer_claim hpool.inv hdistinct hlog hclaim hrow hpublishing htoken
    refine ⟨fun _ => hlatest, ?_⟩
    rintro ⟨newer, hnewer, other, hclaims⟩
    exact absurd hclaims (hlatest newer hnewer other)

/-- The worker that stopped comes back and fails to mark the event. -/
theorem takeover_mark_fails :
    (takeover.world.exec 1 (.query (.markEvent 42 firstToken.bytes .published 6)) {}).2 = false ∧
      (takeover.world.exec 1 (.query (.markEvent 42 firstToken.bytes .published 6)) {}).1.db =
        takeover.world.db := by
  have hlog : takeover.world.log = takeover.world.log.take 1 ++
      (1, [.claimEvent 42 30006 firstToken.bytes 6]) ::
        takeover.world.log.drop 2 := by decide +kernel
  have hnewer : (2, [.claimEvent 42 70000 secondToken.bytes 40000]) ∈
      takeover.world.log.take 1 := by decide +kernel
  have hfenced := mark_fenced takeover_reachable (by decide +kernel) hlog
    ⟨30006, 6, List.mem_singleton_self _⟩ 1 .published 6 {}
  exact hfenced.2 ⟨_, hnewer, secondToken.bytes, 70000, 40000, List.mem_singleton_self _⟩

end NebulaIM.Outbox
