import NebulaIM.Foundation.Program
import NebulaIM.Push.Worker

/-!
# What a handled Kafka record has achieved

`handleKafkaMessage` as a program over its calls to Redis, MySQL, Kafka and the
gateways.  An oracle answers the calls of one run, so that every pattern of
success and failure is one oracle; no call is issued twice in a run, apart from
readings of the clock and flushes.  The results relate the value that the worker
acknowledges to the calls that were made.
-/

namespace NebulaIM.Push

open Foundation
open Backend Protocol
open Foundation.Wire (Bytes)

inductive PushOp where
  | nowMs
  | insertOfflineMessage (row : OfflineMessage)
  | smembers (key : Bytes)
  | get (key : Bytes)
  | srem (key member : Bytes)
  | incr (key : Bytes)
  | expire (key : Bytes) (seconds : Int32)
  | del (key : Bytes)
  | deliverToConnection (requestId : Bytes) (userId : UInt64)
      (status : OnlineStatus) (message : MessageData)
  | listMembers (groupId : UInt64)
  | produce (topic key payload : Bytes)
  | flush (timeoutMs : Int32)
  deriving DecidableEq

abbrev PushOp.Res : PushOp → Type
  | .nowMs => Int64
  | .insertOfflineMessage _ => Bool
  | .smembers _ => List Bytes
  | .get _ => Option Bytes
  | .srem _ _ => Bool
  | .incr _ => Int64
  | .expire _ _ => Bool
  | .del _ => Bool
  | .deliverToConnection _ _ _ _ => Bool
  | .listMembers _ => List UInt64
  | .produce _ _ _ => Bool
  | .flush _ => Unit

abbrev Pushing := Prog PushOp PushOp.Res

@[simps]
def pushEnv : PushEnv Pushing where
  nowMs := .call .nowMs .ret
  insertOfflineMessage row := .call (.insertOfflineMessage row) .ret
  smembers key := .call (.smembers key) .ret
  get key := .call (.get key) .ret
  srem key member := .call (.srem key member) .ret
  incr key := .call (.incr key) .ret
  expire key seconds := .call (.expire key seconds) .ret
  del key := .call (.del key) .ret
  deliverToConnection requestId userId status message :=
    .call (.deliverToConnection requestId userId status message) .ret
  listMembers groupId := .call (.listMembers groupId) .ret
  produce topic key payload := .call (.produce topic key payload) .ret
  flush timeoutMs := .call (.flush timeoutMs) .ret

/-- The answers of one run, and what the statements did to `offline_messages`: a
statement may take effect although its answer reports a failure. -/
structure Outcomes where
  answer : (op : PushOp) → op.Res
  existing : UInt64 → UInt64 → Bool
  applied : OfflineMessage → Bool
  applied_of_ok : ∀ row, answer (.insertOfflineMessage row) = true → applied row = true

def Outcomes.acked (outcomes : Outcomes) (topic key payload : Bytes) : Bool :=
  outcomes.answer (.produce topic key payload)

/-! ## Whom a record is for -/

inductive Intent where
  | invalid (key payload : Bytes)
  | toUser (requestId : Bytes) (userId : UInt64) (data : MessageData)
  | toGroup (requestId : Bytes) (groupId : UInt64) (data : MessageData)
  deriving DecidableEq

/-- A record that does not parse, lacks an id or has an unknown topic is invalid. -/
def intent (worker : PushWorkerOptions) (message : KafkaMessage) : Intent :=
  match MessageData.parse message.payload with
  | (_, false) => .invalid message.key message.payload
  | (data, true) =>
    let malformed := Intent.invalid (decimal data.messageId.toNat) data.serialize
    if message.topic = worker.topicSingle then
      if data.messageId = 0 ∨ data.fromUserId = 0 ∨ data.toUserId = 0 then
        malformed
      else .toUser (lit "kafka-single") data.toUserId data
    else if message.topic = worker.topicGroup then
      if data.messageId = 0 ∨ data.fromUserId = 0 ∨ data.groupId = 0 then
        malformed
      else .toGroup (lit "kafka-group") data.groupId data
    else if message.topic = worker.topicRetry then
      if data.toUserId ≠ 0 then .toUser (lit "kafka-retry") data.toUserId data
      else if data.groupId ≠ 0 then
        .toGroup (lit "kafka-retry") data.groupId data
      else malformed
    else .invalid message.key message.payload

/-- Carry out an intent. -/
def Intent.perform (options : PushOptions) (retry : PushRetryOptions)
    (worker : PushWorkerOptions) : Intent → Pushing Bool
  | .invalid key payload => pushEnv.produce worker.topicDlq key payload
  | .toUser requestId userId data => pushToUser pushEnv options retry requestId userId data
  | .toGroup requestId groupId data => do
      let result ← pushToGroup pushEnv options retry requestId groupId data
      return result.failedCount = 0

theorem handleKafkaMessage_eq (options : PushOptions) (retry : PushRetryOptions)
    (worker : PushWorkerOptions) (message : KafkaMessage) :
    handleKafkaMessage pushEnv options retry worker message =
      (intent worker message).perform options retry worker := by
  unfold handleKafkaMessage intent
  obtain ⟨data, ok⟩ := MessageData.parse message.payload
  cases ok with
  | false => rfl
  | true =>
    simp only [handleSingleMessage, handleGroupMessage, handleRetryMessage]
    split_ifs <;> rfl

/-! ## The calls that matter -/

/-- Deliveries, produced records and offline copies. -/
def PushOp.isEffect : PushOp → Bool
  | .deliverToConnection _ _ _ _ => true
  | .produce _ _ _ => true
  | .insertOfflineMessage _ => true
  | _ => false

def effects {α : Type} (answer : (op : PushOp) → op.Res) (p : Pushing α) :
    List PushOp :=
  (p.trace answer).filter PushOp.isEffect

section

variable {α β : Type} (answer : (op : PushOp) → op.Res)

@[simp] theorem effects_call (op : PushOp) (next : op.Res → Pushing α) :
    effects answer (.call op next) =
      (if op.isEffect then [op] else []) ++ effects answer (next (answer op)) := by
  cases h : op.isEffect <;> simp [effects, h]

@[simp] theorem effects_ret (value : α) :
    effects answer (.ret value : Pushing α) = [] := rfl

@[simp] theorem effects_bind (p : Pushing α) (f : α → Pushing β) :
    effects answer (p >>= f) = effects answer p ++ effects answer (f (p.eval answer)) := by
  simp [effects]

theorem mem_trace_iff {op : PushOp} (hop : op.isEffect = true) (p : Pushing α) :
    op ∈ p.trace answer ↔ op ∈ effects answer p := by
  simp [effects, hop]

end

/-! ## One recipient -/

/-- One message that is dispatched under given answers. -/
structure Dispatch where
  outcomes : Outcomes
  options : PushOptions
  retry : PushRetryOptions
  requestId : Bytes
  data : MessageData

namespace Dispatch

variable (d : Dispatch) (userId : UInt64)

/-- The device as `getOnlineStatuses` finds it in Redis. -/
def device (deviceId : Bytes) : Option OnlineStatus :=
  match d.outcomes.answer (.get (onlineKey userId deviceId)),
    d.outcomes.answer (.get (connKey userId deviceId)) with
  | some gatewayId, some connectionId => some ⟨gatewayId, connectionId, deviceId⟩
  | _, _ => none

def statuses : List OnlineStatus :=
  (d.outcomes.answer (.smembers (devicesKey userId))).filterMap (d.device userId)

def delivery (status : OnlineStatus) : PushOp :=
  .deliverToConnection d.requestId userId status d.data

def copy : MessageData := messageForRecipient userId d.data

def row : OfflineMessage := offlineCopy userId d.data (d.outcomes.answer .nowMs)

def copySaved : Bool := d.outcomes.answer (.insertOfflineMessage (d.row userId))

/-- One more failure is over the retry limit. -/
def exhausted : Bool :=
  !decide ((d.outcomes.answer (.incr (retryKey d.data.messageId userId))).toInt32 ≤ d.retry.limit)

/-- Where the message goes after a failed delivery. -/
def failureTopic : Bytes :=
  if d.exhausted userId then d.options.topicDlq else d.options.topicRetry

/-- The record that is produced after a failed delivery. -/
def failureRecord : PushOp :=
  .produce (d.failureTopic userId) (decimal userId.toNat) (d.copy userId).serialize

def published : Bool :=
  d.outcomes.acked (d.failureTopic userId) (decimal userId.toNat) (d.copy userId).serialize

def reached : Bool :=
  (d.statuses userId).any fun status =>
    d.outcomes.answer (.deliverToConnection d.requestId userId status d.data)

/-- Devices are online and none of them has taken the message. -/
def Failed : Prop := d.statuses userId ≠ [] ∧ d.reached userId = false

/-- The dispatch to the recipient reports a failure. -/
def Rejected : Prop :=
  userId = 0 ∨ d.data.messageId = 0 ∨ (d.statuses userId = [] ∧ d.copySaved userId = false) ∨
    (d.Failed userId ∧ d.published userId = false)

instance : Decidable (d.Failed userId) := inferInstanceAs (Decidable (_ ∧ _))

instance : Decidable (d.Rejected userId) :=
  inferInstanceAs (Decidable (_ ∨ _))

def push : Pushing Bool := pushToUser pushEnv d.options d.retry d.requestId userId d.data

/-- The value and the effects of a program. -/
def Gives {α : Type} (p : Pushing α) (value : α) (calls : List PushOp) : Prop :=
  p.eval d.outcomes.answer = value ∧ effects d.outcomes.answer p = calls

theorem gives_onlineStatuses (devices : List Bytes) :
    d.Gives (onlineStatuses pushEnv userId devices) (devices.filterMap (d.device userId)) [] := by
  induction devices with
  | nil => exact ⟨rfl, rfl⟩
  | cons deviceId devices ih =>
    cases hgateway : d.outcomes.answer (.get (onlineKey userId deviceId)) <;>
      cases hconn : d.outcomes.answer (.get (connKey userId deviceId)) <;>
      simp [Gives, onlineStatuses, device, PushOp.isEffect, hgateway, hconn, ih.1, ih.2]

theorem gives_getOnlineStatuses (huser : userId ≠ 0) :
    d.Gives (getOnlineStatuses pushEnv userId) (d.statuses userId) [] := by
  have h := d.gives_onlineStatuses userId
  simp [Gives, getOnlineStatuses, statuses, PushOp.isEffect, huser, (h _).1, (h _).2]

theorem gives_deliverToAll (statuses : List OnlineStatus) (delivered : Bool) :
    d.Gives (deliverToAll pushEnv d.requestId userId d.data statuses delivered)
      (delivered || statuses.any fun status =>
        d.outcomes.answer (.deliverToConnection d.requestId userId status d.data))
      (statuses.map (d.delivery userId)) := by
  induction statuses generalizing delivered with
  | nil => simp [Gives, deliverToAll]
  | cons status statuses ih =>
    simp [Gives, deliverToAll, PushOp.isEffect, delivery, (ih _).1, (ih _).2,
      Bool.or_assoc, Bool.or_left_comm]

theorem gives_saveOffline :
    d.Gives (saveOffline pushEnv.toOfflineStore userId d.data) (d.copySaved userId)
      [.insertOfflineMessage (d.row userId)] := ⟨rfl, rfl⟩

theorem gives_increaseRetryCount (messageId : UInt64) :
    d.Gives (increaseRetryCount pushEnv d.retry messageId userId)
      (d.outcomes.answer (.incr (retryKey messageId userId))).toInt32 [] := by
  simp only [Gives, increaseRetryCount, pushEnv_incr, pushEnv_expire, Prog.call_bind,
    Prog.ret_bind, Prog.eval_call, effects_call, PushOp.isEffect, Bool.false_eq_true,
    if_false, List.nil_append]
  split_ifs <;> exact ⟨rfl, rfl⟩

theorem exhausted_eq_false_iff : d.exhausted userId = false ↔
    (d.outcomes.answer (.incr (retryKey d.data.messageId userId))).toInt32 ≤
      d.retry.limit := by
  simp [exhausted]

theorem exhausted_eq_true_iff : d.exhausted userId = true ↔
    ¬ (d.outcomes.answer (.incr (retryKey d.data.messageId userId))).toInt32 ≤
      d.retry.limit := by
  simp [exhausted]

theorem gives_handlePushFailure :
    d.Gives (handlePushFailure pushEnv d.options d.retry userId d.data)
      (d.published userId) (d.failureRecord userId ::
        if d.exhausted userId then [.insertOfflineMessage (d.row userId)] else []) := by
  have hcounted := d.gives_increaseRetryCount userId d.data.messageId
  cases hcount : d.exhausted userId with
  | false =>
    have hle := (d.exhausted_eq_false_iff userId).mp hcount
    simp [Gives, handlePushFailure, hcounted.1, hcounted.2, hle, published,
      failureRecord, failureTopic, hcount, sendToRetryTopic, copy, PushOp.isEffect]
    rfl
  | true =>
    have hgt := (d.exhausted_eq_true_iff userId).mp hcount
    simp [Gives, handlePushFailure, hcounted.1, hcounted.2, hgt, published,
      failureRecord, failureTopic, hcount, sendToDlqTopic, copy, PushOp.isEffect,
      (d.gives_saveOffline userId).2]
    rfl

def userEffects : List PushOp :=
  if userId = 0 ∨ d.data.messageId = 0 then []
  else if d.statuses userId = [] then [.insertOfflineMessage (d.row userId)]
  else
    (d.statuses userId).map (d.delivery userId) ++
      if d.reached userId then []
      else d.failureRecord userId ::
        if d.exhausted userId then [.insertOfflineMessage (d.row userId)] else []

theorem gives_push :
    d.Gives (d.push userId) (!decide (d.Rejected userId)) (d.userEffects userId) := by
  unfold push pushToUser userEffects Gives
  by_cases hids : userId = 0 ∨ d.data.messageId = 0
  · have hrejected : d.Rejected userId := hids.imp_right .inl
    simp [hids, hrejected]
  · obtain ⟨huser, hmessage⟩ := not_or.mp hids
    have honline := d.gives_getOnlineStatuses userId huser
    simp only [hids, if_false, Prog.eval_bind, effects_bind, honline.1, honline.2, List.nil_append]
    by_cases hstatuses : d.statuses userId = []
    · simp [hstatuses, (d.gives_saveOffline userId).1, (d.gives_saveOffline userId).2,
        Rejected, Failed, huser, hmessage]
    · have hdelivered := d.gives_deliverToAll userId (d.statuses userId) false
      have hfailure := d.gives_handlePushFailure userId
      simp only [hstatuses, if_false, Prog.eval_bind, effects_bind, hdelivered.1,
        hdelivered.2, Bool.false_or, ← reached.eq_1]
      cases hreached : d.reached userId <;>
        simp [Rejected, Failed, huser, hmessage, hstatuses, hreached, clearRetry,
          PushOp.isEffect, hfailure.1, hfailure.2]

/-! ## The members of a group -/

/-- The member is not the skipped sender. -/
def addressed : Bool := !decide (d.options.skipSenderForGroup ∧ userId = d.data.fromUserId)

theorem gives_pushToMembers (members : List UInt64) (result : PushResult) :
    let pushed := pushToMembers pushEnv d.options d.retry d.requestId d.data members result
    (pushed.eval d.outcomes.answer).failedCount = result.failedCount +
        (members.filter d.addressed).countP (fun userId => decide (d.Rejected userId)) ∧
      effects d.outcomes.answer pushed = (members.filter d.addressed).flatMap d.userEffects := by
  induction members generalizing result with
  | nil => exact ⟨rfl, rfl⟩
  | cons userId members ih =>
    by_cases hskip : d.options.skipSenderForGroup ∧ userId = d.data.fromUserId
    · have haddressed : ¬ d.addressed userId = true := by
        simp [addressed, hskip.1, hskip.2]
      rw [List.filter_cons_of_neg haddressed, pushToMembers, if_pos hskip]
      exact ih result
    · have haddressed : d.addressed userId = true := by
        rw [addressed, decide_eq_false hskip, Bool.not_false]
      have hpush := d.gives_push userId
      unfold push Gives at hpush
      simp only [pushToMembers, hskip, if_false, Prog.eval_bind, effects_bind,
        (ih _).1, (ih _).2, hpush.1, hpush.2, List.filter_cons_of_pos haddressed,
        List.countP_cons, List.flatMap_cons, and_true]
      by_cases hrejected : d.Rejected userId
      · simp only [hrejected, decide_true, Bool.not_true, Bool.false_eq_true, if_false, if_true]
        omega
      · simp [hrejected]

end Dispatch

/-! ## The handled record -/

namespace Intent

variable (outcomes : Outcomes) (options : PushOptions) (retry : PushRetryOptions)
variable (worker : PushWorkerOptions)

def dispatch : Intent → Dispatch
  | .invalid _ _ => ⟨outcomes, options, retry, [], {}⟩
  | .toUser requestId _ data => ⟨outcomes, options, retry, requestId, data⟩
  | .toGroup requestId _ data => ⟨outcomes, options, retry, requestId, data⟩

def recipients (intent : Intent) : List UInt64 :=
  match intent with
  | .invalid _ _ => []
  | .toUser _ userId _ => [userId]
  | .toGroup _ groupId _ =>
    (outcomes.answer (.listMembers groupId)).filter
      (intent.dispatch outcomes options retry).addressed

def Valid : Intent → Prop
  | .invalid _ _ => False
  | .toUser _ _ _ => True
  | .toGroup _ groupId _ => groupId ≠ 0

variable {outcomes options retry worker}

theorem effects_perform {intent : Intent} (hvalid : intent.Valid) :
    effects outcomes.answer (intent.perform options retry worker) =
      (intent.recipients outcomes options retry).flatMap
        (intent.dispatch outcomes options retry).userEffects := by
  cases intent with
  | invalid key payload => exact hvalid.elim
  | toUser requestId userId data =>
    rw [recipients, List.flatMap_singleton]
    exact (Dispatch.gives_push ⟨outcomes, options, retry, requestId, data⟩ userId).2
  | toGroup requestId groupId data =>
    have hgroup : groupId ≠ 0 := hvalid
    simp only [perform, pushToGroup, hgroup, if_false, pushEnv_listMembers,
      effects_bind, Prog.call_bind, Prog.ret_bind, effects_call,
      PushOp.isEffect, Bool.false_eq_true, List.nil_append, List.append_nil,
      effects_ret, Prog.pure_eq_ret]
    split
    · next hmembers => simp [recipients, hmembers]
    · exact (Dispatch.gives_pushToMembers ⟨outcomes, options, retry, requestId, data⟩ _ {}).2

/-- The record has somebody to be pushed to: a group whose members cannot be read
has not. -/
def addressees (outcomes : Outcomes) : Intent → List UInt64
  | .invalid _ _ => []
  | .toUser _ userId _ => [userId]
  | .toGroup _ groupId _ => outcomes.answer (.listMembers groupId)

theorem eval_perform {intent : Intent} (hvalid : intent.Valid) :
    (intent.perform options retry worker).eval outcomes.answer = true ↔
      intent.addressees outcomes ≠ [] ∧ ∀ userId ∈ intent.recipients outcomes options retry,
          ¬ (intent.dispatch outcomes options retry).Rejected userId := by
  cases intent with
  | invalid key payload => exact hvalid.elim
  | toUser requestId userId data =>
    have hpush := (Dispatch.gives_push ⟨outcomes, options, retry, requestId, data⟩ userId).1
    rw [perform, ← Dispatch.push.eq_1 ⟨outcomes, options, retry, requestId, data⟩, hpush]
    simp [addressees, recipients, dispatch]
  | toGroup requestId groupId data =>
    have hgroup : groupId ≠ 0 := hvalid
    simp only [perform, pushToGroup, hgroup, if_false, pushEnv_listMembers,
      Prog.eval_bind, Prog.call_bind, Prog.ret_bind, Prog.eval_call,
      Prog.eval_ret, Prog.pure_eq_ret, decide_eq_true_eq, addressees]
    split
    · next hmembers => simp [hmembers]
    · next hmembers =>
      have hcount := (Dispatch.gives_pushToMembers ⟨outcomes, options, retry, requestId, data⟩
        (outcomes.answer (.listMembers groupId)) {}).1
      simp only [Nat.zero_add] at hcount
      rw [hcount, List.countP_eq_zero]
      simp [recipients, dispatch, hmembers]

end Intent

theorem intent_valid_or (worker : PushWorkerOptions) (message : KafkaMessage) :
    (∃ key payload, intent worker message = .invalid key payload) ∨
      (intent worker message).Valid := by
  unfold intent
  obtain ⟨data, ok⟩ := MessageData.parse message.payload
  cases ok with
  | false => exact .inl ⟨_, _, rfl⟩
  | true =>
    simp only
    split_ifs with _ _ _ hids
    · exact .inl ⟨_, _, rfl⟩
    · exact .inr trivial
    · exact .inl ⟨_, _, rfl⟩
    · exact .inr fun hzero => hids (.inr (.inr hzero))
    · exact .inr trivial
    · exact .inr ‹_›
    · exact .inl ⟨_, _, rfl⟩
    · exact .inl ⟨_, _, rfl⟩

/-! ## Recipients that are provided for -/

/-- The ways in which a recipient does not lose the message. -/
inductive ProvidedFor (d : Dispatch) (calls : List PushOp) (userId : UInt64) : Prop
  | delivered (requestId : Bytes) (status : OnlineStatus)
      (hcall : .deliverToConnection requestId userId status d.data ∈ calls)
      (hok : d.outcomes.answer (.deliverToConnection requestId userId status d.data) = true)
  | requeued (recipient : UInt64) (hscope : (d.copy recipient).toUserId = userId)
      (hcall : .produce d.options.topicRetry (decimal recipient.toNat)
        (d.copy recipient).serialize ∈ calls)
      (hok : d.outcomes.acked d.options.topicRetry (decimal recipient.toNat)
        (d.copy recipient).serialize = true)
  | existing (hrow : d.outcomes.existing userId d.data.messageId = true)
  | saved (row : OfflineMessage) (hcall : .insertOfflineMessage row ∈ calls)
      (happlied : d.outcomes.applied row = true) (huser : row.userId = userId)
      (hmessage : row.messageId = d.data.messageId)

/-- The retries of the recipient are exhausted: its record is in the dead letter
topic and its offline copy is saved. -/
structure Buried (d : Dispatch) (calls : List PushOp) (userId : UInt64) : Prop where
  produced : .produce d.options.topicDlq (decimal userId.toNat) (d.copy userId).serialize ∈ calls
  acked : d.outcomes.acked d.options.topicDlq (decimal userId.toNat)
    (d.copy userId).serialize = true
  inserted : .insertOfflineMessage (d.row userId) ∈ calls
  saved : d.copySaved userId = true

namespace Dispatch

variable (d : Dispatch)

/-- A failed delivery was put on the retry topic. -/
def Requeued (userId : UInt64) : Prop :=
  d.Failed userId ∧ d.failureTopic userId = d.options.topicRetry ∧ d.published userId = true

/--
A recipient with online devices that all fail, and nothing else to rely on: its
retries are exhausted and the offline copy is not saved, or its record goes to the
retry topic under the id of another user.
-/
def Abandoned (recipients : List UInt64) (userId : UInt64) : Prop :=
  d.Failed userId ∧
    if d.exhausted userId then d.copySaved userId = false
    else
      (d.copy userId).toUserId ≠ userId ∧ d.outcomes.existing userId d.data.messageId = false ∧
        ¬ ∃ other ∈ recipients, d.Requeued other ∧ (d.copy other).toUserId = userId

variable {d} {recipients : List UInt64} {userId : UInt64}

theorem mem_userEffects {op : PushOp} :
    op ∈ d.userEffects userId ↔ (userId ≠ 0 ∧ d.data.messageId ≠ 0) ∧
      (op = .insertOfflineMessage (d.row userId) ∧
          (d.statuses userId = [] ∨ d.Failed userId ∧ d.exhausted userId = true) ∨
        op = d.failureRecord userId ∧ d.Failed userId ∨
        ∃ status ∈ d.statuses userId, op = d.delivery userId status) := by
  unfold userEffects Failed
  by_cases hids : userId = 0 ∨ d.data.messageId = 0
  · simp only [hids, if_true, List.not_mem_nil, false_iff]
    tauto
  · have := not_or.mp hids
    by_cases hstatuses : d.statuses userId = []
    · simp [this, hstatuses]
    · cases d.reached userId <;> cases d.exhausted userId <;>
        simp [this, hstatuses, eq_comm, or_comm, or_left_comm, or_assoc]

theorem mem_userEffects_insert {row : OfflineMessage} :
    .insertOfflineMessage row ∈ d.userEffects userId ↔
      (userId ≠ 0 ∧ d.data.messageId ≠ 0) ∧ row = d.row userId ∧
        (d.statuses userId = [] ∨ d.Failed userId ∧ d.exhausted userId = true) := by
  simp [mem_userEffects, failureRecord, delivery]

theorem mem_userEffects_produce {topic key payload : Bytes} :
    .produce topic key payload ∈ d.userEffects userId ↔ (userId ≠ 0 ∧ d.data.messageId ≠ 0) ∧
        .produce topic key payload = d.failureRecord userId ∧ d.Failed userId := by
  simp [mem_userEffects, delivery]

theorem mem_userEffects_deliver {requestId : Bytes} {user : UInt64}
    {status : OnlineStatus} {data : MessageData} :
    .deliverToConnection requestId user status data ∈ d.userEffects userId ↔
      (userId ≠ 0 ∧ d.data.messageId ≠ 0) ∧ status ∈ d.statuses userId ∧
        requestId = d.requestId ∧ user = userId ∧ data = d.data := by
  simp [mem_userEffects, failureRecord, delivery]

/-- What is known of a recipient that is not rejected. -/
structure Accepted (d : Dispatch) (userId : UInt64) : Prop where
  ids : userId ≠ 0 ∧ d.data.messageId ≠ 0
  saved : d.statuses userId = [] → d.copySaved userId = true
  published : d.Failed userId → d.published userId = true

theorem accepted_of_not_rejected (h : ¬ d.Rejected userId) : d.Accepted userId where
  ids := ⟨fun hzero => h (.inl hzero), fun hzero => h (.inr (.inl hzero))⟩
  saved hempty := by
    by_contra hsaved
    exact h (.inr (.inr (.inl ⟨hempty, Bool.eq_false_iff.mpr hsaved⟩)))
  published hfailed := by
    by_contra hpublished
    exact h (.inr (.inr (.inr ⟨hfailed, Bool.eq_false_iff.mpr hpublished⟩)))

variable {calls : List PushOp}

/-- The calls of a dispatch to all recipients. -/
def CallsOf (d : Dispatch) (recipients : List UInt64) (calls : List PushOp) :
    Prop :=
  ∀ op, op.isEffect = true → (op ∈ calls ↔ ∃ userId ∈ recipients, op ∈ d.userEffects userId)

theorem settled_of_copySaved (hcalls : d.CallsOf recipients calls) (huser : userId ∈ recipients)
    (haccepted : d.Accepted userId)
    (hcopied : d.statuses userId = [] ∨ d.Failed userId ∧ d.exhausted userId = true)
    (hsaved : d.copySaved userId = true) : ProvidedFor d calls userId := by
  refine .saved (d.row userId) ?_ (d.outcomes.applied_of_ok _ hsaved) rfl ?_
  · exact (hcalls _ rfl).mpr ⟨userId, huser,
      mem_userEffects_insert.mpr ⟨haccepted.ids, rfl, hcopied⟩⟩
  · simp only [row, offlineCopy, messageForRecipient]
    split_ifs <;> rfl

theorem buried_of_copySaved (hcalls : d.CallsOf recipients calls)
    (huser : userId ∈ recipients) (haccepted : d.Accepted userId)
    (hfailed : d.Failed userId) (hexhausted : d.exhausted userId = true)
    (hsaved : d.copySaved userId = true) : Buried d calls userId := by
  have htopic : d.failureTopic userId = d.options.topicDlq := by
    simp [failureTopic, hexhausted]
  refine ⟨?_, htopic ▸ haccepted.published hfailed, ?_, hsaved⟩
  · exact (hcalls _ rfl).mpr ⟨userId, huser, mem_userEffects_produce.mpr
      ⟨haccepted.ids, by rw [failureRecord, htopic], hfailed⟩⟩
  · exact (hcalls _ rfl).mpr ⟨userId, huser, mem_userEffects_insert.mpr
      ⟨haccepted.ids, rfl, .inr ⟨hfailed, hexhausted⟩⟩⟩

theorem settled_of_requeued (hcalls : d.CallsOf recipients calls)
    {other : UInt64} (hother : other ∈ recipients) (haccepted : d.Accepted other)
    (hrequeued : d.Requeued other) (hscope : (d.copy other).toUserId = userId) :
    ProvidedFor d calls userId := by
  obtain ⟨hfailed, htopic, hpublished⟩ := hrequeued
  refine .requeued other hscope ?_ (htopic ▸ hpublished)
  exact (hcalls _ rfl).mpr ⟨other, hother, mem_userEffects_produce.mpr
    ⟨haccepted.ids, by rw [failureRecord, htopic], hfailed⟩⟩

theorem settled_of_reached (hcalls : d.CallsOf recipients calls)
    (huser : userId ∈ recipients) (haccepted : d.Accepted userId)
    (hreached : d.reached userId = true) : ProvidedFor d calls userId := by
  obtain ⟨status, hstatus, hok⟩ := List.any_eq_true.mp hreached
  refine .delivered d.requestId status ?_ hok
  exact (hcalls _ rfl).mpr ⟨userId, huser, mem_userEffects_deliver.mpr
    ⟨haccepted.ids, hstatus, rfl, rfl, rfl⟩⟩

/-- A recipient whose failed delivery is retried is settled only by a row that
exists or by a record in the retry topic under its id. -/
theorem requeued_of_settled (hcalls : d.CallsOf recipients calls) (hfailed : d.Failed userId)
    (hretry : d.exhausted userId = false) (h : ProvidedFor d calls userId) :
    d.outcomes.existing userId d.data.messageId = true ∨
      ∃ other ∈ recipients, d.Requeued other ∧ (d.copy other).toUserId = userId := by
  cases h with
  | delivered requestId status hcall hok =>
    obtain ⟨other, _, heffect⟩ := (hcalls _ rfl).mp hcall
    obtain ⟨_, hstatus, rfl, rfl, _⟩ := mem_userEffects_deliver.mp heffect
    have hreached : d.reached userId = true := List.any_eq_true.mpr ⟨status, hstatus, hok⟩
    exact absurd hreached (Bool.eq_false_iff.mp hfailed.2)
  | requeued recipient hscope hcall hok =>
    obtain ⟨other, hother, heffect⟩ := (hcalls _ rfl).mp hcall
    obtain ⟨_, hrecord, hotherFailed⟩ := mem_userEffects_produce.mp heffect
    simp only [failureRecord, PushOp.produce.injEq] at hrecord
    obtain ⟨htopic, hkey, _⟩ := hrecord
    obtain rfl : recipient = other := UInt64.toNat_inj.mp (decimal_injective hkey)
    refine .inr ⟨recipient, hother, ⟨hotherFailed, htopic.symm, ?_⟩, hscope⟩
    rw [published, ← htopic]
    exact hok
  | existing hrow => exact .inl hrow
  | saved row hcall happlied huser hmessage =>
    obtain ⟨other, _, heffect⟩ := (hcalls _ rfl).mp hcall
    obtain ⟨_, rfl, hcopied⟩ := mem_userEffects_insert.mp heffect
    obtain rfl : other = userId := huser
    obtain hempty | ⟨_, hexhausted⟩ := hcopied
    · exact absurd hempty hfailed.1
    · exact absurd hexhausted (Bool.eq_false_iff.mp hretry)

/-- Among accepted recipients, exactly the abandoned ones are not provided for. -/
theorem provided_iff (hcalls : d.CallsOf recipients calls)
    (haccepted : ∀ other ∈ recipients, d.Accepted other) (huser : userId ∈ recipients) :
    (ProvidedFor d calls userId ∧
      (d.Failed userId → d.exhausted userId = true → Buried d calls userId)) ↔
      ¬ d.Abandoned recipients userId := by
  have huserAccepted := haccepted userId huser
  by_cases hfailed : d.Failed userId
  · cases hexhausted : d.exhausted userId with
    | true =>
      simp only [Abandoned, hfailed, hexhausted, if_true, true_and, forall_const, Bool.not_eq_false]
      constructor
      · exact fun h => h.2.saved
      · intro hsaved
        exact ⟨settled_of_copySaved hcalls huser huserAccepted (.inr ⟨hfailed, hexhausted⟩) hsaved,
          buried_of_copySaved hcalls huser huserAccepted hfailed hexhausted hsaved⟩
    | false =>
      simp only [Abandoned, hfailed, hexhausted, Bool.false_eq_true, if_false,
        true_and, false_imp_iff, implies_true, and_true]
      constructor
      · intro hsettled ⟨_, hexisting, hnone⟩
        obtain hrow | hrequeued := requeued_of_settled hcalls hfailed hexhausted hsettled
        · exact absurd hrow (Bool.eq_false_iff.mp hexisting)
        · exact hnone hrequeued
      · intro hnot
        by_contra hsettled
        refine hnot ⟨fun hscope => hsettled ?_, ?_, ?_⟩
        · refine settled_of_requeued hcalls huser huserAccepted
            ⟨hfailed, ?_, huserAccepted.published hfailed⟩ hscope
          simp [failureTopic, hexhausted]
        · exact Bool.eq_false_iff.mpr fun hrow => hsettled (.existing hrow)
        · rintro ⟨other, hother, hrequeued, hscope⟩
          exact hsettled (settled_of_requeued hcalls hother
            (haccepted other hother) hrequeued hscope)
  · have hsettled : ProvidedFor d calls userId := by
      by_cases hempty : d.statuses userId = []
      · exact settled_of_copySaved hcalls huser huserAccepted (.inl hempty)
          (huserAccepted.saved hempty)
      · refine settled_of_reached hcalls huser huserAccepted ?_
        by_contra hreached
        exact hfailed ⟨hempty, Bool.eq_false_iff.mpr hreached⟩
    simp [Abandoned, hfailed, hsettled]

end Dispatch

/-! ## Acknowledged records -/

theorem Intent.callsOf {intent : Intent} (hvalid : intent.Valid) {outcomes : Outcomes}
    {options : PushOptions} {retry : PushRetryOptions} {worker : PushWorkerOptions} :
    (intent.dispatch outcomes options retry).CallsOf (intent.recipients outcomes options retry)
      ((intent.perform options retry worker).trace outcomes.answer) := by
  intro op hop
  rw [mem_trace_iff outcomes.answer hop, Intent.effects_perform hvalid, List.mem_flatMap]

theorem Intent.provided_iff {intent : Intent} (hvalid : intent.Valid) {outcomes : Outcomes}
    {options : PushOptions} {retry : PushRetryOptions} {worker : PushWorkerOptions} :
    let d := intent.dispatch outcomes options retry
    let recipients := intent.recipients outcomes options retry
    let handled := intent.perform options retry worker
    (handled.eval outcomes.answer = true → ∀ userId ∈ recipients,
      ProvidedFor d (handled.trace outcomes.answer) userId ∧
        (d.Failed userId → d.exhausted userId = true →
          Buried d (handled.trace outcomes.answer) userId)) ↔
      ∀ userId ∈ recipients, d.Abandoned recipients userId →
        ∃ other ∈ recipients, d.Rejected other := by
  intro d recipients handled
  have hcalls : d.CallsOf recipients (handled.trace outcomes.answer) := Intent.callsOf hvalid
  by_cases hrejected : ∃ other ∈ recipients, d.Rejected other
  · -- the record is not acknowledged
    have heval : ¬ handled.eval outcomes.answer = true := by
      intro h
      obtain ⟨other, hother, hreject⟩ := hrejected
      exact ((Intent.eval_perform hvalid).mp h).2 other hother hreject
    exact iff_of_true (fun h => absurd h heval) fun _ _ _ => hrejected
  · have hnone : ∀ other ∈ recipients, ¬ d.Rejected other :=
      fun other hother h => hrejected ⟨other, hother, h⟩
    have haccepted : ∀ other ∈ recipients, d.Accepted other :=
      fun other hother => Dispatch.accepted_of_not_rejected (hnone other hother)
    have heval : ∀ userId ∈ recipients, handled.eval outcomes.answer = true := by
      intro userId huser
      refine (Intent.eval_perform hvalid).mpr ⟨?_, hnone⟩
      cases intent with
      | invalid _ _ => exact hvalid.elim
      | toUser _ _ _ => exact List.cons_ne_nil _ _
      | toGroup _ _ _ => exact List.ne_nil_of_mem (List.mem_filter.mp huser).1
    constructor
    · intro h userId huser habandoned
      have hprovided := h (heval userId huser) userId huser
      exact absurd habandoned ((Dispatch.provided_iff hcalls haccepted huser).mp hprovided)
    · intro h _ userId huser
      exact (Dispatch.provided_iff hcalls haccepted huser).mpr
        fun habandoned => hrejected (h userId huser habandoned)

/-- What the worker takes for granted when it commits the offset of a record. -/
def SafeToCommit (outcomes : Outcomes) (options : PushOptions) (retry : PushRetryOptions)
    (worker : PushWorkerOptions) (message : KafkaMessage) : Prop :=
  let handled := handleKafkaMessage pushEnv options retry worker message
  let calls := handled.trace outcomes.answer
  handled.eval outcomes.answer = true →
    match intent worker message with
    | .invalid key payload =>
      .produce worker.topicDlq key payload ∈ calls ∧
        outcomes.acked worker.topicDlq key payload = true
    | valid =>
      let d := valid.dispatch outcomes options retry
      ∀ userId ∈ valid.recipients outcomes options retry, ProvidedFor d calls userId ∧
          (d.Failed userId → d.exhausted userId = true → Buried d calls userId)

/--
Committing is safe exactly when no recipient is abandoned, unless another one is
rejected and the record is therefore not acknowledged.
-/
theorem safeToCommit_iff (outcomes : Outcomes) (options : PushOptions) (retry : PushRetryOptions)
    (worker : PushWorkerOptions) (message : KafkaMessage) :
    SafeToCommit outcomes options retry worker message ↔
      ∀ userId ∈ (intent worker message).recipients outcomes options retry,
        ((intent worker message).dispatch outcomes options retry).Abandoned
            ((intent worker message).recipients outcomes options retry) userId →
          ∃ other ∈ (intent worker message).recipients outcomes options retry,
            ((intent worker message).dispatch outcomes options retry).Rejected
              other := by
  unfold SafeToCommit
  simp only [handleKafkaMessage_eq]
  obtain ⟨key, payload, hinvalid⟩ | hvalid := intent_valid_or worker message
  · rw [hinvalid]
    simp [Intent.recipients, Intent.perform, Outcomes.acked]
  · have hiff := @Intent.provided_iff _ hvalid outcomes options retry worker
    generalize intent worker message = valid at hvalid hiff ⊢
    cases valid with
    | invalid _ _ => exact hvalid.elim
    | toUser _ _ _ => exact hiff
    | toGroup _ _ _ => exact hiff

/-! A single message for a user whose only device does not answer, with the retries
used up and MySQL failing: the dead letter is acknowledged, the offline copy is
not stored, and the record is acknowledged all the same. -/

def unreachable : Outcomes where
  answer
    | .nowMs => 0
    | .insertOfflineMessage _ => false
    | .smembers _ => [[100]]
    | .get _ => some [103]
    | .srem _ _ => true
    | .incr _ => 4
    | .expire _ _ => true
    | .del _ => true
    | .deliverToConnection _ _ _ _ => false
    | .listMembers _ => []
    | .produce _ _ _ => true
    | .flush _ => ()
  existing _ _ := false
  applied _ := false
  applied_of_ok _ h := h

def fourthFailure : MessageData :=
  { messageId := 1, conversationId := 2, fromUserId := 7, toUserId := 8 }

def fourthFailureRecord : KafkaMessage where
  topic := lit "nebula.message.single"
  key := decimal 2
  payload := fourthFailure.serialize
  partition := 0
  offset := 0

def PushOp.topic : PushOp → Option Bytes
  | .produce topic _ _ => some topic
  | _ => none

theorem fourthFailure_lost : (handleKafkaMessage pushEnv {} {} {} fourthFailureRecord).eval
        unreachable.answer = true ∧
      ¬ ProvidedFor ⟨unreachable, {}, {}, lit "kafka-single", fourthFailure⟩
        ((handleKafkaMessage pushEnv {} {} {} fourthFailureRecord).trace unreachable.answer) 8 ∧
      ¬ SafeToCommit unreachable {} {} {} fourthFailureRecord := by
  have heval : (handleKafkaMessage pushEnv {} {} {} fourthFailureRecord).eval
      unreachable.answer = true := by decide +kernel
  have hintent : intent {} fourthFailureRecord =
      .toUser (lit "kafka-single") 8 fourthFailure := by decide +kernel
  have htopics : ((handleKafkaMessage pushEnv {} {} {} fourthFailureRecord).trace
      unreachable.answer).filterMap PushOp.topic = [lit "nebula.message.dlq"] := by
    decide +kernel
  have hlost : ¬ ProvidedFor ⟨unreachable, {}, {}, lit "kafka-single", fourthFailure⟩
      ((handleKafkaMessage pushEnv {} {} {} fourthFailureRecord).trace unreachable.answer) 8 := by
    intro h
    cases h with
    | delivered _ _ _ hok => exact Bool.false_ne_true hok
    | requeued _ _ hcall _ =>
      have htopic : lit "nebula.message.retry" ∈ [lit "nebula.message.dlq"] :=
        htopics ▸ List.mem_filterMap.mpr ⟨_, hcall, rfl⟩
      exact absurd htopic (by decide)
    | existing hrow => exact Bool.false_ne_true hrow
    | saved _ _ happlied _ _ => exact Bool.false_ne_true happlied
  refine ⟨heval, hlost, fun hsafe => ?_⟩
  have hsettled := hsafe heval
  rw [hintent] at hsettled
  exact hlost (hsettled 8 (List.mem_singleton.mpr rfl)).1

end NebulaIM.Push
