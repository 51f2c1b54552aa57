import NebulaIM.Services.Calls

/-!
# Publishing events

A worker claims rows with a token of its own, and marks an event only with the
acknowledged record in hand.
-/

namespace NebulaIM.Services

open Foundation Foundation.Store
open Backend Protocol NebulaIM.Outbox

variable {w : World} {event : OutboxEvent} {config : Config} {tid : Nat}

/-! ## Tokens -/

/-- The thread has generated the token and no claim has used it. -/
structure FreshToken (tid : Nat) (token : TraceId) (w : World) : Prop where
  generated : (tid, token) ∈ w.tokens
  unused : TokensDistinct w → ∀ unit ∈ w.log, ¬ ClaimsWith unit token.bytes

theorem Outbox.claimer (h : Outbox config w) (hdistinct : TokensDistinct w)
    {token : TraceId} (hgenerated : (tid, token) ∈ w.tokens) {unit : Nat × List Write}
    (hunit : unit ∈ w.log) (hclaims : ClaimsWith unit token.bytes) : unit.1 = tid := by
  obtain ⟨traceId, hbytes, hmem⟩ := h.generated hunit hclaims
  cases TraceId.ext hbytes
  have hsame := List.inj_on_of_nodup_map hdistinct hmem hgenerated rfl
  exact congrArg Prod.fst hsame

theorem FreshToken.steady (token : TraceId) :
    Steady (contract config) tid (FreshToken tid token) where
  stable w w' h hinv hrely hinv' := by
    have hgenerated := hrely.grows.tokens.subset h.generated
    refine ⟨hgenerated, fun hdistinct unit hunit hclaims => ?_⟩
    have howner := hinv'.outbox.claimer hdistinct hgenerated hunit hclaims
    obtain ⟨client, writes⟩ := unit
    cases howner
    exact h.unused (hdistinct.of_suffix hrely.grows.tokens) _ (hrely.own hunit) hclaims
  quiet {w op} choice hop h := by
    have hlog : (w.exec tid op choice).1.log = w.log := (quiet_same op hop w choice).2
    have htokens : w.tokens <:+ (w.exec tid op choice).1.tokens := exec_tokens op w choice
    exact ⟨htokens.subset h.generated, fun hdistinct unit hunit =>
      h.unused (hdistinct.of_suffix htokens) unit (hlog ▸ hunit)⟩

theorem Inv.freshToken (hinv : Inv config w) (choice : Choice) :
    FreshToken tid (w.exec tid .generateTraceId choice).2
      (w.exec tid .generateTraceId choice).1 := by
  refine ⟨List.mem_cons_self, fun hdistinct unit hunit hclaims => ?_⟩
  obtain ⟨traceId, hbytes, hmem⟩ := hinv.outbox.generated hunit hclaims
  cases TraceId.ext hbytes
  have hfresh := (List.nodup_cons.mp hdistinct).1
  exact hfresh (List.mem_map.mpr ⟨_, hmem, rfl⟩)

/-! ## Claiming -/

def Claimed (event : OutboxEvent) (w : World) : Prop :=
  ∃ row, w.db.outbox.lookup event.eventId = some row ∧ row.origin = event.origin

theorem Claimed.mono {w' : World} (h : Claimed event w) (hgrows : Grows w w') :
    Claimed event w' := by
  obtain ⟨row, hrow, horigin⟩ := h
  obtain ⟨row', hrow', horigin', _⟩ := hgrows.events hrow
  exact ⟨row', hrow', horigin'.trans horigin⟩

theorem spec_commitClaim {events : List OutboxEvent} {token : TraceId} {leaseUntil now : Int64} :
    Triple (contract config) tid (fun w => FreshToken tid token w ∧
        Holding tid (ClaimDraft events (events.map OutboxEvent.eventId)
          leaseUntil token.bytes now) w) commit
      fun ok w => ok = true → ∀ event ∈ events,
        Claimed { event with claimToken := token.bytes } w := by
  have hclaimed : Steady (contract config) tid fun w => ∀ event ∈ events,
      Claimed { event with claimToken := token.bytes } w :=
    .all fun event => .imp _ (steady_of_grows Claimed.mono)
  refine Triple.perform ((FreshToken.steady token).stable.and
    (serves.holding (ClaimDraft.local ..))) ?_ fun ok => (hclaimed.imp _).stable
  intro w choice hinv ⟨hfresh, hdraft⟩ _
  have hstep : Step config tid w (w.exec tid .commit choice).1 := by
    refine commit_step choice fun {tx} hopen => ?_
    have h := hdraft tx hopen
    rw [h.writes]
    refine .claim _ leaseUntil now token ?_ hfresh.generated hfresh.unused
    intro id hid
    obtain ⟨event, hevent, rfl⟩ := List.mem_map.mp hid
    exact ⟨event, h.present event hevent, h.claimable event hevent⟩
  refine ⟨hinv.step hstep, hstep, ?_⟩
  simp only [services]
  rcases w.commit_cases tid choice with h | ⟨tx, ok, hopen, h⟩ <;> rw [h]
  · exact fun hok => absurd hok Bool.false_ne_true
  · intro _ event hevent
    have h := hdraft tx hopen
    refine ⟨event.claim leaseUntil token.bytes now, ?_, rfl⟩
    change AList.lookup event.eventId (applyAll (D := dialect) w.db tx.writes).outbox = _
    rw [h.writes, lookup_outbox_claim, if_pos (List.mem_map_of_mem hevent), h.present event hevent]
    rfl

theorem claims : Claimant (contract config) tid id (FreshToken tid) Claimed where
  serves := serves
  fresh_steady := FreshToken.steady
  steady _ := steady_of_grows Claimed.mono
  generate choice hinv := hinv.freshToken choice
  commit := spec_commitClaim

/-! ## Marking -/

/-- What a worker knows when it marks an event. -/
structure Marks (config : Config) (event : OutboxEvent) (mark : Mark) (w : World) : Prop where
  claimed : Claimed event w
  published : mark = .published →
    ⟨event.eventId, event.topic, event.eventKey, event.payload⟩ ∈ w.produced
  dead : mark = .dead → ⟨event.eventId, config.worker.dlqTopic, event.eventKey, event.payload⟩ ∈
      w.produced

theorem Marks.steady (event : OutboxEvent) (mark : Mark) :
    Steady (contract config) tid (Marks config event mark) :=
  steady_of_grows fun h hgrows =>
    ⟨h.claimed.mono hgrows, fun hmark => hgrows.produced.subset (h.published hmark),
      fun hmark => hgrows.produced.subset (h.dead hmark)⟩

theorem Marks.work {row : OutboxEvent} {mark : Mark} (h : Marks config event mark w) (now : Int64)
    (hrow : w.db.outbox.lookup event.eventId = some row) (hpublishing : row.status = .publishing) :
    Work config w tid [.markEvent event.eventId mark now] := by
  obtain ⟨found, hfound, horigin⟩ := h.claimed
  cases hrow.symm.trans hfound
  simp only [OutboxEvent.origin, OutboxEvent.mk.injEq] at horigin
  obtain ⟨-, -, -, -, htopic, hkey, hpayload, -⟩ := horigin
  refine .mark mark now hrow hpublishing ?_ ?_
  · rw [htopic, hkey, hpayload]
    exact h.published
  · rw [hkey, hpayload]
    exact h.dead

theorem spec_markEvent (event : OutboxEvent) (mark : Mark) :
    Triple (contract config) tid (Marks config event mark)
      (markEvent event.eventId event.claimToken mark) fun _ _ => True := by
  have hmarks : Steady (contract config) tid (Marks config event mark) := Marks.steady event mark
  unfold markEvent
  split
  · exact .ret hmarks.stable fun _ _ => trivial
  refine (serves.keep .nowMs trivial hmarks).bind fun now => ?_
  refine spec_query hmarks.stable ?_ (fun _ _ _ => trivial) fun _ => Stable.const _
  intro w choice locked hinv h hwrites
  rcases plan_markEvent w.db event.eventId event.claimToken mark now choice locked with
    ⟨row, hrow, hpublishing, _, hplan⟩ | hplan <;> rw [hplan] at hwrites ⊢
  · exact h.work now hrow hpublishing
  · exact absurd rfl hwrites

/-! ## The worker -/

theorem spec_produce (event : OutboxEvent) (topic : Foundation.Wire.Bytes) (mark : Mark)
    (hmark : ∀ {w}, Claimed event w →
      ⟨event.eventId, topic, event.eventKey, event.payload⟩ ∈ w.produced →
      Marks config event mark w) :
    Triple (contract config) tid (Claimed event)
      (produce event.eventId topic event.eventKey event.payload) fun ok w =>
        (ok = true → Marks config event mark w) ∧ (ok = false → Claimed event w) := by
  have hclaimed : Steady (contract config) tid (Claimed event) := steady_of_grows Claimed.mono
  refine serves.call (.produce ..) trivial hclaimed.stable
    (fun ok => ((Marks.steady event mark).imp _ |>.and (hclaimed.imp _)).stable) ?_
  intro w choice _ hw
  have hw' : Claimed event (w.exec tid (.produce event.eventId topic event.eventKey
      event.payload) choice).1 := hclaimed.quiet choice trivial hw
  refine ⟨fun hok => hmark hw' ?_, fun _ => hw'⟩
  simp only [services, World.exec] at hok ⊢
  split at hok
  · next hacked => simp [hacked]
  · cases hok

theorem works : Works (contract config) tid config.worker Claimed Claimed (Marks config) where
  due_steady _ := steady_of_grows Claimed.mono
  attempt event :=
    spec_produce event event.topic .published fun h hproduced => ⟨h, fun _ => hproduced, nofun⟩
  retry _ _ h := by split <;> exact ⟨h, nofun, nofun⟩
  bury {event} _ :=
    spec_produce event config.worker.dlqTopic .dead fun h hproduced =>
      ⟨h, nofun, fun _ => hproduced⟩
  mark := spec_markEvent

theorem spec_runOnce : Triple (contract config) tid (fun _ => True) (runOnce config.worker)
      fun _ _ => True :=
  works.runRounds serves claims config.worker.batchSize

end NebulaIM.Services
