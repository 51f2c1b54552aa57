import NebulaIM.Services.Messages

/-!
# The life of an outbox event

What a unit of work can do to one row of `outbox_events`, and the invariant that
follows: an event is published or dead only with an acknowledged record to show
for it, and the token of an event being published is that of its latest claim.
-/

namespace NebulaIM.Backend

open Foundation.Store

theorem OutboxEvent.claim_claim (event : OutboxEvent) (leaseUntil now : Int64)
    (token : Foundation.Wire.Bytes) :
    (event.claim leaseUntil token now).claim leaseUntil token now =
      event.claim leaseUntil token now := rfl

theorem lookup_claimEvent (db : Db) (eventId id : UInt64)
    (leaseUntil now : Int64) (token : Foundation.Wire.Bytes) :
    (db.apply (.claimEvent eventId leaseUntil token now)).outbox.lookup id =
      if id = eventId then
        (db.outbox.lookup id).map fun event => event.claim leaseUntil token now
      else db.outbox.lookup id := by
  split
  · next heq =>
    subst heq
    exact Table.lookup_modify_self id _
  · next hne => exact Table.lookup_modify_ne _ hne

theorem lookup_outbox_claim (db : Db) (eventIds : List UInt64) (id : UInt64)
    (leaseUntil now : Int64) (token : Foundation.Wire.Bytes) :
    (applyAll (D := dialect) db (eventIds.map fun id =>
      .claimEvent id leaseUntil token now)).outbox.lookup id =
      if id ∈ eventIds then
        (db.outbox.lookup id).map fun event => event.claim leaseUntil token now
      else db.outbox.lookup id := by
  induction eventIds generalizing db with
  | nil =>
    rw [if_neg List.not_mem_nil]
    rfl
  | cons eventId eventIds ih =>
    rw [List.map_cons, applyAll_cons, ih]
    rw [show dialect.apply db (.claimEvent eventId leaseUntil token now) =
      db.apply (.claimEvent eventId leaseUntil token now) from rfl]
    rw [lookup_claimEvent]
    by_cases heq : id = eventId
    · simp [heq, Function.comp_def, OutboxEvent.claim_claim]
    · simp [heq]

theorem lookup_markEvent (db : Db) (eventId id : UInt64) (mark : Mark) (now : Int64) :
    (db.apply (.markEvent eventId mark now)).outbox.lookup id =
      if id = eventId then
        (db.outbox.lookup id).map fun event => event.mark now mark
      else db.outbox.lookup id := by
  split
  · next heq =>
    subst heq
    exact Table.lookup_modify_self id _
  · next hne => exact Table.lookup_modify_ne _ hne

end NebulaIM.Backend

namespace NebulaIM.Services

open Foundation Foundation.Store
open Backend Protocol
open Foundation.Wire (Bytes)

def Claims (unit : Nat × List Write) (eventId : UInt64) (token : Bytes) : Prop :=
  ∃ leaseUntil now, .claimEvent eventId leaseUntil token now ∈ unit.2

theorem Claims.claimsWith {unit : Nat × List Write} {eventId : UInt64}
    {token : Bytes} (h : Claims unit eventId token) : ClaimsWith unit token := by
  obtain ⟨leaseUntil, now, hmem⟩ := h
  exact ⟨eventId, leaseUntil, now, hmem⟩

/-- What a unit of work does to the row of one event. -/
inductive EventChange (config : Config) (w : World) (unit : Nat × List Write)
    (id : UInt64) : Option OutboxEvent → Option OutboxEvent → Prop
  | untouched (row : Option OutboxEvent) (unclaimed : ∀ token, ¬ Claims unit id token) :
      EventChange config w unit id row row
  | inserted {event : OutboxEvent} (pending : event.status = .pending) :
      EventChange config w unit id none (some event)
  | claimed {event : OutboxEvent} {leaseUntil now : Int64} {token : Bytes}
      (claimable : event.status ∈ [.pending, .failed, .publishing])
      (claims : Claims unit id token) :
      EventChange config w unit id (some event) (some (event.claim leaseUntil token now))
  | marked {event : OutboxEvent} {mark : Mark} {now : Int64}
      (publishing : event.status = .publishing)
      (published : mark = .published →
        ⟨id, event.topic, event.eventKey, event.payload⟩ ∈ w.produced)
      (dead : mark = .dead → ⟨id, config.worker.dlqTopic, event.eventKey, event.payload⟩ ∈
          w.produced) :
      EventChange config w unit id (some event) (some (event.mark now mark))

variable {config : Config} {writes : List Write}

theorem Work.eventChange {w : World} {client : Nat}
    (hwork : Work config w client writes) (id : UInt64) :
    EventChange config w (client, writes) id (w.db.outbox.lookup id)
      ((applyAll (D := dialect) w.db writes).outbox.lookup id) := by
  cases hwork with
  | send convs message_free sequence_free event_free not_recalled type pending announces shown =>
      rw [lookup_outbox_send (announces.eventId ▸ event_free)]
      split
      · next heq =>
        rw [heq, announces.eventId, event_free]
        exact .inserted pending
      · refine .untouched _ ?_
        rintro token ⟨leaseUntil, now, hmem⟩
        simp at hmem
  | recallMessage recalledAt convs present not_recalled event_free type pending aggregate updates =>
      rw [lookup_outbox_recall recalledAt event_free]
      split
      · next heq =>
        rw [heq, event_free]
        exact .inserted pending
      · refine .untouched _ ?_
        rintro token ⟨leaseUntil, now, hmem⟩
        simp at hmem
  | claim eventIds leaseUntil now token claimable generated unused =>
    rw [lookup_outbox_claim]
    split
    · next hmem =>
      obtain ⟨event, hevent, hstatus⟩ := claimable id hmem
      rw [hevent]
      exact .claimed hstatus ⟨leaseUntil, now, List.mem_map_of_mem hmem⟩
    · next hnot =>
      refine .untouched _ ?_
      rintro token ⟨leaseUntil, now, hmem⟩
      simp only [List.mem_map, Write.claimEvent.injEq] at hmem
      obtain ⟨other, hother, rfl, -⟩ := hmem
      exact hnot hother
  | mark mark now present publishing published dead =>
    rw [applyAll_cons, applyAll_nil]
    rw [show dialect.apply w.db _ = w.db.apply _ from rfl, lookup_markEvent]
    split
    · next heq =>
      subst heq
      rw [present]
      exact .marked publishing published dead
    · refine .untouched _ ?_
      rintro token ⟨leaseUntil, now, hmem⟩
      simp at hmem
  | _ =>
    rw [lookup_outbox_frame]
    · refine .untouched _ ?_
      rintro token ⟨leaseUntil, now, hmem⟩
      simp at hmem
    · intro write hwrite
      simp only [List.mem_cons, List.mem_map, List.not_mem_nil, or_false] at hwrite
      grind [Write.touches]

/-! ## The invariant -/

/-- The latest claim of the event used the token. -/
def LastClaim (log : List (Nat × List Write)) (eventId : UInt64) (token : Bytes) : Prop :=
  ∃ later unit earlier, log = later ++ unit :: earlier ∧ Claims unit eventId token ∧
    ∀ newer ∈ later, ∀ other, ¬ Claims newer eventId other

theorem LastClaim.cons {log : List (Nat × List Write)} {eventId : UInt64}
    {token : Bytes} (h : LastClaim log eventId token)
    {unit : Nat × List Write} (hunit : ∀ other, ¬ Claims unit eventId other) :
    LastClaim (unit :: log) eventId token := by
  obtain ⟨later, claim, earlier, rfl, hclaim, hlater⟩ := h
  refine ⟨unit :: later, claim, earlier, rfl, hclaim, ?_⟩
  intro newer hnewer
  rcases List.mem_cons.mp hnewer with rfl | hold
  · exact hunit
  · exact hlater newer hold

structure Outbox (config : Config) (w : World) : Prop where
  published : ∀ {id event}, w.db.outbox.lookup id = some event → event.status = .published →
    ⟨id, event.topic, event.eventKey, event.payload⟩ ∈ w.produced
  dead : ∀ {id event}, w.db.outbox.lookup id = some event → event.status = .dead →
    ⟨id, config.worker.dlqTopic, event.eventKey, event.payload⟩ ∈ w.produced
  holder : ∀ {id event}, w.db.outbox.lookup id = some event →
    event.status = .publishing → LastClaim w.log id event.claimToken
  generated : ∀ {unit token}, unit ∈ w.log → ClaimsWith unit token →
    ∃ traceId : TraceId, traceId.bytes = token ∧ (unit.1, traceId) ∈ w.tokens
  distinct : TokensDistinct w → w.log.Pairwise fun later earlier =>
    ∀ token, ClaimsWith later token → ¬ ClaimsWith earlier token

theorem TokensDistinct.of_suffix {w w' : World} (h : TokensDistinct w')
    (hsuffix : w.tokens <:+ w'.tokens) : TokensDistinct w :=
  h.sublist (hsuffix.sublist.map Prod.snd)

theorem Outbox.mono {w w' : World} (h : Outbox config w) (hdb : w'.db.outbox = w.db.outbox)
    (hlog : w'.log = w.log) (hproduced : w.produced <:+ w'.produced)
    (htokens : w.tokens <:+ w'.tokens) : Outbox config w' where
  published hevent hstatus := hproduced.subset (h.published (hdb ▸ hevent) hstatus)
  dead hevent hstatus := hproduced.subset (h.dead (hdb ▸ hevent) hstatus)
  holder hevent hstatus := hlog ▸ h.holder (hdb ▸ hevent) hstatus
  generated hunit hclaims := by
    obtain ⟨traceId, hbytes, hmem⟩ := h.generated (hlog ▸ hunit) hclaims
    exact ⟨traceId, hbytes, htokens.subset hmem⟩
  distinct hdistinct := hlog ▸ h.distinct (hdistinct.of_suffix htokens)

theorem Work.claimsWith {w : World} {client : Nat} (hwork : Work config w client writes)
    {token : Bytes} (hclaims : ClaimsWith (client, writes) token) :
    ∃ traceId : TraceId, traceId.bytes = token ∧ (client, traceId) ∈ w.tokens ∧
      (TokensDistinct w → ∀ unit ∈ w.log, ¬ ClaimsWith unit token) := by
  obtain ⟨eventId, leaseUntil, now, hmem⟩ := hclaims
  cases hwork with
  | claim eventIds leaseUntil now traceId claimable generated unused =>
    simp only [List.mem_map, Write.claimEvent.injEq] at hmem
    obtain ⟨_, _, -, -, rfl, -⟩ := hmem
    exact ⟨traceId, rfl, generated, unused⟩
  | _ => simp at hmem

theorem Outbox.work {w w' : World} {client : Nat} (h : Outbox config w)
    (hwork : Work config w client writes) (hdb : w'.db = applyAll (D := dialect) w.db writes)
    (hlog : w'.log = (client, writes) :: w.log) (hproduced : w'.produced = w.produced)
    (htokens : w'.tokens = w.tokens) :
    Outbox config w' := by
  have hchange {id : UInt64} {event : OutboxEvent} (hevent : w'.db.outbox.lookup id = some event) :
      EventChange config w (client, writes) id (w.db.outbox.lookup id) (some event) := by
    rw [← hevent, hdb]
    exact hwork.eventChange id
  constructor
  case published =>
    intro id event hevent hstatus
    rw [hproduced]
    have hcases := hchange hevent
    generalize hbefore : w.db.outbox.lookup id = before at hcases
    cases hcases with
    | untouched _ _ => exact h.published hbefore hstatus
    | inserted pending => cases pending.symm.trans hstatus
    | claimed _ _ => cases hstatus
    | @marked event mark now _ published _ =>
      cases mark with
      | published => exact published rfl
      | failed _ _ => cases hstatus
      | dead => cases hstatus
  case dead =>
    intro id event hevent hstatus
    rw [hproduced]
    have hcases := hchange hevent
    generalize hbefore : w.db.outbox.lookup id = before at hcases
    cases hcases with
    | untouched _ _ => exact h.dead hbefore hstatus
    | inserted pending => cases pending.symm.trans hstatus
    | claimed _ _ => cases hstatus
    | @marked event mark now _ _ dead =>
      cases mark with
      | published => cases hstatus
      | failed _ _ => cases hstatus
      | dead => exact dead rfl
  case holder =>
    intro id event hevent hstatus
    rw [hlog]
    have hcases := hchange hevent
    generalize hbefore : w.db.outbox.lookup id = before at hcases
    cases hcases with
    | untouched _ unclaimed => exact (h.holder hbefore hstatus).cons unclaimed
    | inserted pending => cases pending.symm.trans hstatus
    | claimed _ claims => exact ⟨[], _, w.log, rfl, claims, fun _ hmem => nomatch hmem⟩
    | @marked event mark now _ _ _ => cases mark <;> cases hstatus
  case generated =>
    intro unit token hunit hclaims
    rw [hlog] at hunit
    rw [htokens]
    rcases List.mem_cons.mp hunit with rfl | hold
    · obtain ⟨traceId, hbytes, hmem, _⟩ := hwork.claimsWith hclaims
      exact ⟨traceId, hbytes, hmem⟩
    · exact h.generated hold hclaims
  case distinct =>
    intro hdistinct
    have hbefore : TokensDistinct w := by
      rw [TokensDistinct, htokens] at hdistinct
      exact hdistinct
    rw [hlog, List.pairwise_cons]
    refine ⟨fun earlier hearlier token hclaims => ?_, h.distinct hbefore⟩
    obtain ⟨_, _, _, hunused⟩ := hwork.claimsWith hclaims
    exact hunused hbefore earlier hearlier

/-! ## What never changes -/

/-- Messages and events stay, with the columns they were made with; a recall and
a final status stay too. -/
structure Grows (w w' : World) : Prop where
  messages : ∀ {id row}, w.db.messages.lookup id = some row →
    ∃ row', w'.db.messages.lookup id = some row' ∧
      row'.origin = row.origin ∧ (row.recalled = true → row'.recalled = true)
  events : ∀ {id event}, w.db.outbox.lookup id = some event →
    ∃ event', w'.db.outbox.lookup id = some event' ∧ event'.origin = event.origin ∧
      (event.status ∈ [.published, .dead] → event'.status = event.status)
  log : w.log <:+ w'.log
  produced : w.produced <:+ w'.produced
  tokens : w.tokens <:+ w'.tokens

theorem Grows.of_eq {w w' : World} (hmessages : w'.db.messages = w.db.messages)
    (houtbox : w'.db.outbox = w.db.outbox) (hlog : w.log <:+ w'.log)
    (hproduced : w.produced <:+ w'.produced) (htokens : w.tokens <:+ w'.tokens) : Grows w w' where
  messages {_ row} hrow := ⟨row, hmessages ▸ hrow, rfl, fun h => h⟩
  events {_ event} hevent := ⟨event, houtbox ▸ hevent, rfl, fun _ => rfl⟩
  log := hlog
  produced := hproduced
  tokens := htokens

theorem Grows.refl (w : World) : Grows w w :=
  .of_eq rfl rfl (List.suffix_refl _) (List.suffix_refl _) (List.suffix_refl _)

theorem Grows.trans {first second third : World} (h₁ : Grows first second)
    (h₂ : Grows second third) : Grows first third where
  messages hrow := by
    obtain ⟨row', hrow', horigin', hrecalled'⟩ := h₁.messages hrow
    obtain ⟨row'', hrow'', horigin'', hrecalled''⟩ := h₂.messages hrow'
    exact ⟨row'', hrow'', horigin''.trans horigin', fun h => hrecalled'' (hrecalled' h)⟩
  events {_ event} hevent := by
    obtain ⟨event', hevent', horigin', hstatus'⟩ := h₁.events hevent
    obtain ⟨event'', hevent'', horigin'', hstatus''⟩ := h₂.events hevent'
    refine ⟨event'', hevent'', horigin''.trans horigin', fun h => ?_⟩
    have hsame := hstatus' h
    exact (hstatus'' (hsame.symm ▸ h)).trans hsame
  log := h₁.log.trans h₂.log
  produced := h₁.produced.trans h₂.produced
  tokens := h₁.tokens.trans h₂.tokens

/-- What a unit of work does to the row of one message. -/
theorem Work.event_kept {w : World} {client : Nat} (hwork : Work config w client writes)
    {id : UInt64} {event : OutboxEvent} (hevent : w.db.outbox.lookup id = some event) :
    ∃ event', (applyAll (D := dialect) w.db writes).outbox.lookup id = some event' ∧
      event'.origin = event.origin ∧
      (event.status ∈ [.published, .dead] → event'.status = event.status) := by
  have hcases := hwork.eventChange id
  rw [hevent] at hcases
  generalize (applyAll (D := dialect) w.db writes).outbox.lookup id = after at hcases
  cases hcases with
  | untouched _ _ => exact ⟨event, rfl, rfl, fun _ => rfl⟩
  | @claimed _ leaseUntil now token claimable _ =>
    refine ⟨event.claim leaseUntil token now, rfl, rfl, fun hfinal => ?_⟩
    simp only [List.mem_cons, List.not_mem_nil, or_false] at claimable hfinal
    grind
  | @marked _ mark now publishing _ _ =>
    refine ⟨event.mark now mark, rfl, by cases mark <;> rfl, fun hfinal => ?_⟩
    simp [publishing] at hfinal

end NebulaIM.Services
