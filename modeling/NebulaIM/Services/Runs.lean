import NebulaIM.Services.Handlers
import NebulaIM.Services.Publishing
import NebulaIM.Services.Queries

/-!
# Runs of the services

Every handler meets the contract, so the invariant holds in every reachable
state, whatever the interleaving, the faults, the clocks and the generated ids,
and the answer of every finished request is right.
-/

namespace NebulaIM.Services

open Foundation Foundation.Store
open Backend Protocol
open NebulaIM.Outbox (Steady)

variable {pool : Pool}
variable {config : Config}

/-- What is known of the reply to a request that came when the log was `start`. -/
def Post (tid : Nat) (start : List (Nat × List Write)) : Request → Reply → World → Prop
  | .sendSingleMessage _ request _, .sent response, w =>
    Answered request.fromUserId request.clientSequenceId response w
  | .sendGroupMessage _ request _, .sent response, w =>
    Answered request.fromUserId request.clientSequenceId response w
  | .recallMessage _ request, .recalled response, w =>
    RecallAnswered tid request.messageId response w
  | .listConversationMessages _ request, .history response, w =>
    HistoryAnswered start request.requesterUserId request.conversationId response w
  | .saveOffline userId message _, .saved ok, w => ok = true → SavedBy tid userId message w
  | _, _, _ => True

theorem spec_reply {tid : Nat} {α : Type} {p : Service α} {post : α → World → Prop}
    {pre : World → Prop} {final : Reply → World → Prop} (f : α → Reply)
    (h : Triple (contract config) tid pre p post)
    (hpost : ∀ value, Steady (contract config) tid (post value))
    (hfinal : ∀ {value w}, post value w → final (f value) w) :
    Triple (contract config) tid pre (do return f (← p)) final :=
  h.bind fun value => .ret (hpost value).stable fun _ hw => hfinal hw

theorem spec_handle (tid : Nat) (start : List (Nat × List Write)) (request : Request) :
    Triple (contract config) tid (fun w => start <:+ w.log) (handle config request)
      (Post tid start request) := by
  cases request with
  | sendSingleMessage ctx request text =>
    exact spec_history .sent (fun _ => Chat.sendSingleMessage_along config.message
      ctx request trivial fun _ _ _ _ => announced_of_stamped text rfl)
      fun hanswers h => h.answered hanswers fun _ _ => ⟨rfl, rfl⟩
  | sendGroupMessage ctx request text =>
    exact spec_history .sent (fun _ => Chat.sendGroupMessage_along config.message
      ctx request trivial fun hgroup _ _ _ _ => announced_of_stamped text (if_neg hgroup).symm)
      fun hanswers h => h.answered hanswers fun _ _ => ⟨rfl, rfl⟩
  | recallMessage ctx request =>
    exact spec_history .recalled (fun _ => Chat.recallMessage_along trivial
      config.message ctx request) fun hexplained h => h.recallAnswered hexplained
  | listConversationMessages ctx request =>
    exact spec_reply .history (spec_listConversationMessages ctx request)
      (HistoryAnswered.steady _ _) id
  | ackMessage ctx request =>
    exact spec_history .acked (fun _ => Chat.ackMessage_along trivial ctx request)
      fun _ _ => trivial
  | pullOfflineMessages ctx request =>
    exact spec_history .pulled (fun _ => Chat.pullOfflineMessages_along trivial
      config.message ctx request) fun _ _ => trivial
  | createGroup ctx request =>
    exact spec_history .group (fun _ => Chat.createGroup_along trivial ctx request)
      fun _ _ => trivial
  | joinGroup ctx request =>
    exact spec_history .common (fun _ => Chat.along_of_only
      (Chat.joinGroup_only trivial ctx request) rfl) fun _ _ => trivial
  | leaveGroup ctx request =>
    exact spec_history .common (fun _ => Chat.along_of_only
      (Chat.leaveGroup_only trivial ctx request) rfl) fun _ _ => trivial
  | deleteConversation ctx request =>
    exact spec_reply .common ((spec_deleteConversation ctx request).strengthen fun _ => trivial)
      (fun _ => .const True) fun _ => trivial
  | runOutboxWorker =>
    exact spec_reply (fun _ => .workerDone) (spec_runOnce.strengthen fun _ => trivial)
      (fun _ => .const True) fun _ => trivial
  | saveOffline userId message wellFormed =>
    exact spec_reply .saved ((spec_saveOffline userId wellFormed).strengthen fun _ => trivial)
      (SavedBy.steady userId message) id

/-! ## Reachable states -/

def Reachable (config : Config) (pool : Pool) : Prop :=
  ∃ start actions, Initial start ∧ pool = (services config).run start actions

theorem Initial.inv (h : Initial pool) : Inv config pool.world := by
  obtain ⟨⟨users, friendships, hsql⟩, hproduced, htokens, _⟩ := h
  obtain ⟨⟨sql, redis, produced, tokens⟩, threads⟩ := pool
  cases hsql
  have hnone {K V : Type} [DecidableEq K] {key : K} {row : V}
      (hrow : (∅ : Table K V).lookup key = some row) : False := by
    rw [AList.lookup_empty] at hrow
    cases hrow
  have horigin {id : UInt64} {event : OutboxEvent}
      (hevent : Db.eventOrigin { users := users, friendships := friendships } id =
        some event) : False := by
    simp [Db.eventOrigin] at hevent
  constructor
  case engine => exact Engine.wellFormed_of_no_tx
  case keyed => constructor <;> exact fun key row hrow => (hnone hrow).elim
  case messages =>
    constructor
    case unique =>
      rintro user sequence id other _ ⟨row, hrow, _⟩
      exact (hnone hrow).elim
    case announced => exact fun hrow => (hnone hrow).elim
    case carries => exact fun hevent => (horigin hevent).elim
    case recall_announced => exact fun hrow => (hnone hrow).elim
    case recall_carries => exact fun hevent => (horigin hevent).elim
    case recall_unique => exact fun hevent => (horigin hevent).elim
    case recall_logged => exact fun hrow => (hnone hrow).elim
    case recall_effect => exact fun hunit => absurd hunit List.not_mem_nil
    case recall_once => exact .nil
  case outbox =>
    constructor
    case published => exact fun hrow => (hnone hrow).elim
    case dead => exact fun hrow => (hnone hrow).elim
    case holder => exact fun hrow => (hnone hrow).elim
    case generated => exact fun hunit => absurd hunit List.not_mem_nil
    case distinct => exact fun _ => .nil
  case conversations => exact ⟨fun hrow => (hnone hrow).elim, fun hrow => (hnone hrow).elim⟩

theorem Initial.safe (h : Initial pool) :
    PoolSafe (contract config) (fun tid request start => Post tid start.log request)
      pool := by
  refine ⟨h.inv, fun tid thread hget => ?_⟩
  rw [h.threads] at hget
  cases hget

theorem handle_safe {world : World} {request : Request} {tid : Nat} (hinv : Inv config world) :
    Safe (contract config) tid (Post tid world.log request) (handle config request)
      world :=
  spec_handle tid world.log request world hinv (List.suffix_refl _)

theorem Reachable.safe (h : Reachable config pool) :
    PoolSafe (contract config) (fun tid request start => Post tid start.log request)
      pool := by
  obtain ⟨start, actions, hstart, rfl⟩ := h
  exact (contract config).run_safe (fun _ hinv _ => handle_safe hinv) hstart.safe
    (Guard.admitsRun_trivial _ start actions)

theorem Reachable.inv (h : Reachable config pool) : Inv config pool.world := h.safe.1

theorem Reachable.answer (h : Reachable config pool) {tid : Nat} {request : Request}
    (hrequest : pool.request tid = some request) {reply : Reply}
    (hreply : pool.reply tid = some reply) :
    ∃ start : World, Post tid start.log request reply pool.world :=
  h.safe.answer hrequest hreply

theorem Reachable.run (h : Reachable config pool) (actions : List Action) :
    Reachable config ((services config).run pool actions) := by
  obtain ⟨start, before, hstart, rfl⟩ := h
  refine ⟨start, before ++ actions, hstart, ?_⟩
  simp [System.run]

/-- Every run is a sequence of units of work and of steps that commit nothing. -/
theorem Reachable.evolves (h : Reachable config pool) (actions : List Action) :
    (contract config).Evolves pool.world ((services config).run pool actions).world := by
  exact (contract config).run_evolves (fun _ hinv _ => handle_safe hinv) h.safe
    (Guard.admitsRun_trivial _ pool actions)

/-- What holds at the start and is kept by every step holds in every reachable
state. -/
theorem Reachable.induct (h : Reachable config pool) {p : World → Prop}
    (hstart : ∀ {start : Pool}, Initial start → p start.world)
    (hstep : ∀ {tid w w'}, Inv config w → Inv config w' → p w → Step config tid w w' → p w')
    (henv : ∀ {w} event, p w → p (w.env event)) :
    p pool.world := by
  obtain ⟨start, actions, hinitial, rfl⟩ := h
  have hreachable : Reachable config start := ⟨start, [], hinitial, rfl⟩
  exact (hreachable.evolves actions).preserves hstep (fun _ hp => henv _ hp) (hstart hinitial)

theorem eq_singleton_of_mem {α : Type} {l : List α} (hlength : l.length ≤ 1)
    {a : α} (ha : a ∈ l) : l = [a] := by
  cases l with
  | nil => cases ha
  | cons first rest =>
    have hrest : rest = [] := List.length_eq_zero_iff.mp (by simpa using hlength)
    subst hrest
    rw [List.mem_singleton.mp ha]

/-! ### A deployment to look at -/

def twoFriends : Pool :=
  { world := { sql := { db :=
      { users := [1, 2], friendships := [(1, 2), (2, 1)] } } } }

def greeting : Request :=
  .sendSingleMessage {}
    { fromUserId := 1, toUserId := 2, content := [104, 105],
      clientSequenceId := 7 } ⟨by decide, by decide⟩

theorem twoFriends_initial : Initial twoFriends := ⟨⟨[1, 2], [(1, 2), (2, 1)], rfl⟩, rfl, rfl, rfl⟩

end NebulaIM.Services
