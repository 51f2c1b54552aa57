import NebulaIM.Chat.Handlers

/-!
# Runs of the chat system

Every handler keeps to the calls it is allowed, so in every run that meets the
conditions of a discipline each step extends the history of a request, and the
answer of a finished request is one that its history explains.
-/

namespace NebulaIM.Chat

open Foundation Foundation.Store
open Backend Protocol Message RelationService ConversationService Admin Push

variable {request : Request} {tid : Nat}
variable {D : Discipline} {config : Config} {start : Db}

def Explained (D : Discipline) : Request → Calls → Reply → Prop
  | .sendSingleMessage _ request, past, .sent response =>
    Answers D (singleRecord request) past response ∧
      ∀ messageId now event, D.sent (singleRecord request messageId now) event
  | .sendGroupMessage _ request, past, .sent response =>
    Answers D (groupRecord request) past response ∧
      ∀ messageId now event, D.sent (groupRecord request messageId now) event
  | .pullOfflineMessages _ request, past, .pulled response => Pulls request past response
  | .markMessageRead _ request, past, .common response => MarksMessage request past response
  | .markConversationRead _ request, past, .common response =>
    MarksConversation request past response
  | _, _, _ => True

def Admissible (D : Discipline) (config : Config) (start : Db) : Request → Prop
  | .sendSingleMessage _ request =>
    ∀ messageId now event, D.sent (singleRecord request messageId now) event
  | .sendGroupMessage _ request =>
    ∀ messageId now event, D.sent (groupRecord request messageId now) event
  | .insertOfflineMessage userId messageId payload createdAt =>
    D.saved start
      { userId := userId, messageId := messageId, payload := payload,
        createdAt := createdAt, updatedAt := createdAt }
  | .handleKafkaMessage _ record =>
    ∀ data userId, MessageData.parse record.payload = (data, true) →
      Recipient config record.topic data userId →
      ∀ now, D.saved start (offlineCopy userId data now)
  | _ => True

section Replies

variable {α : Type} {p : Service α} {post : Calls → α → Prop} {past : Calls}
variable {final : Calls → Reply → Prop}

theorem reply_along (f : α → Reply) (h : p.Along (Allowed D start) post past)
    (hfinal : ∀ now value, post now value → final now (f value)) :
    (do return f (← p) : Service Reply).Along (Allowed D start) final past :=
  h.bind hfinal

theorem reply_only (f : α → Reply) (h : p.Only (Loose D start))
    (hfinal : ∀ now value, final now (f value)) :
    (do return f (← p) : Service Reply).Along (Allowed D start) final [] :=
  reply_along f (along_of_only h rfl) fun now value _ => hfinal now value

end Replies

theorem handle_along (hkind : D.kinds request.kind)
    (hadmissible : Admissible D config start request) :
    (handle config request).Along (Allowed D start) (Explained D request) [] := by
  cases request with
  | sendSingleMessage ctx request =>
    exact reply_along .sent (sendSingleMessage_along config.message ctx request
      hkind fun messageId now _ event _ => hadmissible messageId now event)
      fun _ _ h => ⟨h, hadmissible⟩
  | sendGroupMessage ctx request =>
    exact reply_along .sent (sendGroupMessage_along config.message ctx request
      hkind fun _ messageId now _ event _ => hadmissible messageId now event)
      fun _ _ h => ⟨h, hadmissible⟩
  | recallMessage ctx request =>
    exact reply_along .recalled (recallMessage_along hkind config.message ctx
      request) fun _ _ _ => trivial
  | ackMessage ctx request =>
    exact reply_along .acked (ackMessage_along hkind ctx request) fun _ _ _ => trivial
  | pullOfflineMessages ctx request =>
    exact reply_along .pulled (pullOfflineMessages_along hkind config.message
      ctx request) fun _ _ h => h
  | markMessageRead ctx request =>
    exact reply_along .common (markMessageRead_along hkind ctx request) fun _ _ h => h
  | markConversationRead ctx request =>
    exact reply_along .common (markConversationRead_along hkind ctx request) fun _ _ h => h
  | getMessageReadState ctx request =>
    exact reply_only .readState (getMessageReadState_only ctx request) fun _ _ => trivial
  | createGroup ctx request =>
    exact reply_along .group (createGroup_along hkind ctx request) fun _ _ _ => trivial
  | joinGroup ctx request =>
    exact reply_only .common (joinGroup_only hkind ctx request) fun _ _ => trivial
  | leaveGroup ctx request =>
    exact reply_only .common (leaveGroup_only hkind ctx request) fun _ _ => trivial
  | deleteConversation ctx request | pinConversation ctx request | muteConversation ctx request =>
    refine reply_only .common ?_ fun _ _ => trivial
    refine flag_only (fun _ => hkind) fun now answer => ?_
    split <;> trivial
  | runCleanup options ctx request =>
    exact reply_only .cleaned (runCleanup_only hkind options ctx request) fun _ _ => trivial
  | insertOfflineMessage userId messageId payload createdAt =>
    exact reply_only .done ⟨⟨hkind, rfl, hadmissible⟩, fun _ => trivial⟩ fun _ _ => trivial
  | handleKafkaMessage around record =>
    refine reply_only .done (handleKafkaMessage_only ?_) fun _ _ => trivial
    exact fun data userId hdata hrecipient => ⟨hkind, hadmissible data userId hdata hrecipient⟩

/-! ## Whole runs -/

variable (D config) in
def Grants : Prop := ∀ w request, D.rules.spawn w request → Admissible D config w.db request

theorem Grants.of_sent (hsaved : ∀ start copy, D.saved start copy)
    (hsingle : ∀ {w ctx request}, D.rules.spawn w (.sendSingleMessage ctx request) →
      ∀ messageId now event, D.sent (singleRecord request messageId now) event)
    (hgroup : ∀ {w ctx request}, D.rules.spawn w (.sendGroupMessage ctx request) →
      ∀ messageId now event, D.sent (groupRecord request messageId now) event) :
    Grants D config := by
  intro w request hspawn
  cases request with
  | sendSingleMessage ctx request => exact hsingle hspawn
  | sendGroupMessage ctx request => exact hgroup hspawn
  | insertOfflineMessage userId messageId payload createdAt => exact hsaved _ _
  | handleKafkaMessage around record => exact fun _ _ _ _ _ => hsaved _ _
  | _ => trivial

def Post (D : Discipline) (tid : Nat) (request : Request) (start : World)
    (reply : Reply) (w : World) : Prop :=
  ∃ past, Explained D request past reply ∧ Recorded D tid start.db past w

theorem Recorded.nil (tid : Nat) (w : World) : Recorded D tid w.db [] w where
  grown := .refl _
  evidence _ hmem := nomatch hmem
  draft hstaged := nomatch hstaged
  committed hpast := nomatch List.suffix_nil.mp hpast

theorem handle_safe (hgrants : Grants D config) {w : World} (tid : Nat) (hinv : Sound w)
    (hspawn : D.rules.spawn w request) :
    Safe (contract D config) tid (Post D tid request w) (handle config request)
      w := by
  exact Triple.of_along (fun past a b h _ hrely _ => h.stable hrely)
    (fun past op hallowed => recorded_call hallowed)
    (handle_along (D.kinds_spawn hspawn) (hgrants w request hspawn)) w hinv
    (.nil tid w)

theorem Initial.sound {pool : Pool} (h : Initial pool) : Sound pool.world := by
  obtain ⟨⟨users, friendships, groups, members, hsql⟩, hmembers, _⟩ := h
  obtain ⟨⟨sql, redis, produced, tokens⟩, threads⟩ := pool
  cases hsql
  exact ⟨Engine.wellFormed_of_no_tx, ⟨.empty, .empty, .empty, .empty, hmembers, .empty⟩⟩

section Runs

variable {pool : Pool} {actions : List Action}

theorem Initial.safe (hinitial : Initial pool) : PoolSafe (contract D config) (Post D) pool := by
  refine ⟨hinitial.sound, fun tid thread hget => ?_⟩
  rw [hinitial.threads] at hget
  cases hget

theorem run_safe (hgrants : Grants D config) (hsafe : PoolSafe (contract D config) (Post D) pool)
    (hrun : D.rules.AdmitsRun (chat config) pool actions) :
    PoolSafe (contract D config) (Post D) ((chat config).run pool actions) :=
  (contract D config).run_safe
    (fun tid hinv hspawn => handle_safe hgrants tid hinv hspawn) hsafe hrun

theorem run_induct (hgrants : Grants D config) (hsafe : PoolSafe (contract D config) (Post D) pool)
    (hrun : D.rules.AdmitsRun (chat config) pool actions) {p : World → Prop} (hstart : p pool.world)
    (hstep : ∀ {client w w'}, Sound w → p w → Step D client w w' → p w')
    (henv : ∀ {w} event, p w → p (w.env event)) :
    p ((chat config).run pool actions).world := by
  have hevolves := (contract D config).run_evolves
    (fun tid hinv hspawn => handle_safe hgrants tid hinv hspawn) hsafe hrun
  exact hevolves.preserves (fun hinv _ hp hguar => hstep hinv hp hguar)
    (fun _ hp => henv _ hp) hstart

theorem run_answer (hgrants : Grants D config) (hinitial : Initial pool)
    (hrun : D.rules.AdmitsRun (chat config) pool actions) {reply : Reply}
    (hrequest : ((chat config).run pool actions).request tid = some request)
    (hreply : ((chat config).run pool actions).reply tid = some reply) :
    ∃ start, Post D tid request start reply ((chat config).run pool actions).world :=
  (run_safe hgrants hinitial.safe hrun).answer hrequest hreply

end Runs

/-! ## Evidence for one purpose -/

/-- An invariant, and what answers say as long as it holds. -/
structure Clue (D : Discipline) where
  inv : World → Prop
  seen : World → Exchange Op Op.Res → Prop
  step : ∀ {client w w'}, Sound w → inv w → Step D client w w' →
    inv w' ∧ ∀ exchange, seen w exchange → seen w' exchange
  env : ∀ {w event}, inv w →
    inv (w.env event) ∧ ∀ exchange, seen w exchange → seen (w.env event) exchange
  answer : ∀ {w : World} {client op choice}, Sound w → inv w →
    seen w ⟨op, (w.exec client op choice).2⟩

namespace Clue

variable (clue : Clue D)

def contract (config : Config) : Contract (chat config) D.rules where
  inv w := Sound w ∧ clue.inv w
  rely tid w w' := Rely D tid w w' ∧ ∀ exchange, clue.seen w exchange → clue.seen w' exchange
  guar := Step D
  rely_refl tid w := ⟨.refl tid w, fun _ h => h⟩
  rely_trans h₁ h₂ := ⟨h₁.1.trans h₂.1, fun _ h => h₂.2 _ (h₁.2 _ h)⟩
  guar_rely hne hinv hstep :=
    ⟨(Chat.contract D config).guar_rely hne hinv.1 hstep, (clue.step hinv.1 hinv.2 hstep).2⟩
  env_inv hinv _ := ⟨env_sound hinv.1 _, (clue.env hinv.2).1⟩
  env_rely hinv hrules := ⟨env_rely hrules _, (clue.env hinv.2).2⟩

def Recorded (tid : Nat) (start : Db) (past : Calls) (w : World) : Prop :=
  Chat.Recorded D tid start past w ∧ ∀ exchange ∈ past, clue.seen w exchange

theorem recorded_call {past : Calls} {op : Op} (hallowed : Allowed D start past op) :
    CallSpec (clue.contract config) tid (clue.Recorded tid start past) op
      fun answer => clue.Recorded tid start (⟨op, answer⟩ :: past) := by
  intro w choice hinv h hrules
  have hcall : CallSpec (Chat.contract D config) tid _ op _ := Chat.recorded_call hallowed
  obtain ⟨hsound, hstep, hrecorded⟩ := hcall w choice hinv.1 h.1 hrules
  obtain ⟨hinv', hseen⟩ := clue.step hinv.1 hinv.2 hstep
  refine ⟨⟨hsound, hinv'⟩, hstep, hrecorded, fun exchange hmem => ?_⟩
  rcases List.mem_cons.mp hmem with rfl | hold
  · exact hseen _ (clue.answer hinv.1 hinv.2)
  · exact hseen _ (h.2 exchange hold)

theorem handle_safe (hgrants : Grants D config) {w : World} (tid : Nat)
    (hinv : Sound w ∧ clue.inv w) (hspawn : D.rules.spawn w request) :
    Safe (clue.contract config) tid
      (fun reply later => ∃ past, Explained D request past reply ∧
        clue.Recorded tid w.db past later) (handle config request) w := by
  refine Triple.of_along (fun past a b h _ hrely _ => ⟨h.1.stable hrely.1,
      fun exchange hmem => hrely.2 exchange (h.2 exchange hmem)⟩)
    (fun past op hallowed => clue.recorded_call hallowed)
    (handle_along (D.kinds_spawn hspawn) (hgrants w request hspawn)) w hinv ?_
  exact ⟨.nil tid w, fun _ hmem => absurd hmem List.not_mem_nil⟩

theorem run_answer (hgrants : Grants D config) {pool : Pool} (hinitial : Initial pool)
    (hinv : clue.inv pool.world) {actions : List Action}
    (hrun : D.rules.AdmitsRun (chat config) pool actions) {reply : Reply}
    (hrequest : ((chat config).run pool actions).request tid = some request)
    (hreply : ((chat config).run pool actions).reply tid = some reply) :
    ∃ past, Explained D request past reply ∧ ∀ exchange ∈ past,
      clue.seen ((chat config).run pool actions).world exchange := by
  have hsafe : PoolSafe (clue.contract config)
      (fun tid request start reply later => ∃ past, Explained D request past reply ∧
        clue.Recorded tid start.db past later) pool := by
    refine ⟨⟨hinitial.sound, hinv⟩, fun tid thread hget => ?_⟩
    rw [hinitial.threads] at hget
    cases hget
  obtain ⟨_, past, hexplained, hrecorded⟩ := ((clue.contract config).run_safe
    (fun tid hinv hspawn => clue.handle_safe hgrants tid hinv hspawn) hsafe
    hrun).answer hrequest hreply
  exact ⟨past, hexplained, hrecorded.2⟩

end Clue

end NebulaIM.Chat
