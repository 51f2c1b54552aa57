import NebulaIM.Foundation.Sequential
import NebulaIM.Push.Handling
import Mathlib.Data.List.Induction

/-!
# The retry budget

Kafka records are consumed one after another against the retry counters in Redis.  The
budget of a message and a user is kept if Redis answers every increment of a counter that
has not left the range of `int`: between two resets of the counter the records on the
retry topic are counted by it.
-/

namespace NebulaIM.Push

open Foundation
open Foundation.Store (Fault)
open Backend Protocol
open Foundation.Wire (Bytes)

/-! ## Retry keys -/

theorem colon_notMem_decimal (n : Nat) : 58 ∉ decimal n := fun hcolon =>
  absurd (digit_of_mem_decimal hcolon).2 (by decide)

theorem retryKey_inj {messageId userId otherMessage otherUser : UInt64} :
    retryKey messageId userId = retryKey otherMessage otherUser ↔
      messageId = otherMessage ∧ userId = otherUser := by
  constructor
  · intro h
    simp only [retryKey, List.append_assoc] at h
    have hcolon : lit ":" = [58] := by decide
    rw [List.append_right_inj, hcolon, List.singleton_append, List.singleton_append,
      List.append_cons_inj_of_notMem (colon_notMem_decimal _) (colon_notMem_decimal _)] at h
    exact ⟨UInt64.toNat_inj.mp (decimal_injective h.1),
      UInt64.toNat_inj.mp (decimal_injective h.2.2)⟩
  · rintro ⟨rfl, rfl⟩
    rfl

/-! ## Counters and calls -/

inductive RetryEvent where
  /-- A call, and whether it took effect. -/
  | called (op : PushOp) (applied : Bool)
  /-- The counter under the key expired. -/
  | expired (key : Bytes)
  deriving DecidableEq

structure RetryWorld where
  /-- The counters in Redis, 0 where there is no entry. -/
  counters : Bytes → Nat := fun _ => 0
  /-- The latest event comes first. -/
  events : List RetryEvent := []

/-- What the schedule decides for one call: whether it fails, and the answer of a call that
is neither to a counter nor to Kafka. -/
structure PushChoice where
  fault : Fault := .none
  answer : (op : PushOp) → op.Res

namespace RetryWorld

/-- The counters after a command that took effect; `INCR` refuses to leave 64 bits. -/
def countersAfter (w : RetryWorld) : PushOp → Bytes → Nat
  | .incr key =>
    if w.counters key + 1 < 2 ^ 63 then
      Function.update w.counters key (w.counters key + 1)
    else w.counters
  | .del key => Function.update w.counters key 0
  | _ => w.counters

/-- The results of the client functions: `RedisClient::incr` returns -1 for a failure. -/
def reply (w : RetryWorld) (choice : PushChoice) : (op : PushOp) → op.Res
  | .incr key =>
    if choice.fault = .none ∧ w.counters key + 1 < 2 ^ 63 then
      Int64.ofNat (w.counters key + 1)
    else -1
  | .del _ => decide (choice.fault = .none)
  | .produce _ _ _ => decide (choice.fault = .none)
  | op => choice.answer op

def exec (w : RetryWorld) (op : PushOp) (choice : PushChoice) : RetryWorld × op.Res :=
  ({ counters := if choice.fault = .refused then w.counters else w.countersAfter op
     events := .called op (decide (choice.fault ≠ .refused)) :: w.events },
    w.reply choice op)

def expire (w : RetryWorld) (key : Bytes) : RetryWorld :=
  { counters := Function.update w.counters key 0, events := .expired key :: w.events }

end RetryWorld

/-- Redis answers the increment, and the counter fits into an `int`. -/
def Counted (w : RetryWorld) (op : PushOp) (choice : PushChoice) : Prop :=
  match op with
  | .incr key => choice.fault = .none ∧ w.counters key + 1 < 2 ^ 31
  | _ => True

instance decidableCounted (w : RetryWorld) (op : PushOp) (choice : PushChoice) :
    Decidable (Counted w op choice) := by
  unfold Counted
  split <;> infer_instance

/-! ## Consuming records -/

inductive RetryStep where
  | consume (message : KafkaMessage) (choices : Nat → PushChoice)
  | expire (key : Bytes)

section

variable (options : PushOptions) (retry : PushRetryOptions) (worker : PushWorkerOptions)

def RetryStep.apply (w : RetryWorld) : RetryStep → RetryWorld
  | .consume message choices =>
    ((handleKafkaMessage pushEnv options retry worker message).solo RetryWorld.exec w choices).1
  | .expire key => w.expire key

/-- Every increment of the step is counted. -/
def RetryStep.Counted (w : RetryWorld) : RetryStep → Prop
  | .consume message choices =>
    (handleKafkaMessage pushEnv options retry worker message).Meets RetryWorld.exec
      Push.Counted w choices
  | .expire _ => True

instance RetryStep.decidableCounted (w : RetryWorld) :
    (step : RetryStep) → Decidable (step.Counted options retry worker w)
  | .consume _ _ => inferInstanceAs (Decidable (Prog.Meets _ _ _ _ _))
  | .expire _ => .isTrue trivial

def consumed (steps : List RetryStep) : RetryWorld :=
  steps.foldl (RetryStep.apply options retry worker) {}

end

/-! ## The budget -/

/-- The event ends the window of the counter: `clearRetry` after a delivery, or its TTL. -/
def RetryEvent.resets (key : Bytes) : RetryEvent → Bool
  | .called (.del other) _ => other = key
  | .expired other => other = key
  | _ => false

section

variable (options : PushOptions) (retry : PushRetryOptions) (messageId userId : UInt64)

/-- The event writes a record of the message and the user to the retry topic. -/
def RetryEvent.retries : RetryEvent → Bool
  | .called (.produce topic key payload) true =>
    topic = options.topicRetry ∧ key = decimal userId.toNat ∧
      (MessageData.parse payload).1.messageId = messageId
  | _ => false

/-- The records written to the retry topic since the counter was reset. -/
def retriesSince (events : List RetryEvent) : Nat :=
  (events.takeWhile fun event => !event.resets (retryKey messageId userId)).countP
    (RetryEvent.retries options messageId userId)

/-- The failed delivery that `later` follows went to the DLQ and to the offline store. -/
def GoesToDlq (later : List RetryEvent) : Prop :=
  ∃ rest payload row produced flushed read inserted,
    later = rest ++ [.called (.insertOfflineMessage row) inserted, .called .nowMs read,
      .called (.flush 5000) flushed,
      .called (.produce options.topicDlq (decimal userId.toNat) payload) produced] ∧
    row.userId = userId ∧ row.messageId = messageId ∧ row.payload = payload

/-- A delivery that fails when the budget is spent goes to the DLQ. -/
def Diverted (events : List RetryEvent) : Prop :=
  ∀ later applied earlier,
    events = later ++ .called (.incr (retryKey messageId userId)) applied :: earlier →
    retriesSince options messageId userId earlier = retry.limit.toInt.toNat →
    GoesToDlq options messageId userId later

def Bounded (events : List RetryEvent) : Prop :=
  ∀ earlier, earlier <:+ events →
    retriesSince options messageId userId earlier ≤ retry.limit.toInt.toNat

structure Budget (w : RetryWorld) : Prop where
  counted : retriesSince options messageId userId w.events ≤ w.counters (retryKey messageId userId)
  bounded : Bounded options retry messageId userId w.events
  diverted : Diverted options retry messageId userId w.events

end

section

variable {options : PushOptions} {retry : PushRetryOptions} {messageId userId : UInt64}
  {w : RetryWorld}

variable (options messageId userId) in
theorem retriesSince_cons (event : RetryEvent) (events : List RetryEvent) :
    retriesSince options messageId userId (event :: events) =
      if event.resets (retryKey messageId userId) then 0
      else retriesSince options messageId userId events +
        if event.retries options messageId userId then 1 else 0 := by
  unfold retriesSince
  rw [List.takeWhile_cons]
  cases event.resets (retryKey messageId userId) with
  | true => simp
  | false => simp [List.countP_cons]

variable {events : List RetryEvent}

theorem Bounded.cons (h : Bounded options retry messageId userId events) {event : RetryEvent}
    (hevent : retriesSince options messageId userId (event :: events) ≤ retry.limit.toInt.toNat) :
    Bounded options retry messageId userId (event :: events) := by
  intro earlier hearlier
  rcases List.suffix_cons_iff.mp hearlier with rfl | hold
  · exact hevent
  · exact h earlier hold

theorem Bounded.quiet (h : Bounded options retry messageId userId events) {event : RetryEvent}
    (hevent : event.retries options messageId userId = false) :
    Bounded options retry messageId userId (event :: events) := by
  refine h.cons ?_
  rw [retriesSince_cons, hevent]
  split_ifs
  · exact Nat.zero_le _
  · contradiction
  · exact h events (List.suffix_refl events)

theorem GoesToDlq.cons {later : List RetryEvent} (h : GoesToDlq options messageId userId later)
    (event : RetryEvent) : GoesToDlq options messageId userId (event :: later) := by
  obtain ⟨rest, payload, row, produced, flushed, read, inserted, rfl, hrow⟩ := h
  exact ⟨event :: rest, payload, row, produced, flushed, read, inserted, rfl, hrow⟩

theorem Diverted.cons (h : Diverted options retry messageId userId events) {event : RetryEvent}
    (hevent : ∀ applied, event ≠ .called (.incr (retryKey messageId userId)) applied) :
    Diverted options retry messageId userId (event :: events) := by
  intro later applied earlier hevents hspent
  cases later with
  | nil => exact absurd (List.cons.inj hevents).1 (hevent applied)
  | cons head later => exact (h later applied earlier (List.cons.inj hevents).2 hspent).cons head

theorem Diverted.incr (h : Diverted options retry messageId userId events)
    (hleft : retriesSince options messageId userId events ≠ retry.limit.toInt.toNat)
    (applied : Bool) :
    Diverted options retry messageId userId
      (.called (.incr (retryKey messageId userId)) applied :: events) := by
  intro later other earlier hevents hspent
  cases later with
  | nil =>
    obtain ⟨-, rfl⟩ := List.cons.inj hevents
    exact absurd hspent hleft
  | cons head later => exact (h later other earlier (List.cons.inj hevents).2 hspent).cons head

/-! ### Calls that are not about the pair -/

variable (options messageId userId) in
/-- Neither an increment of the counter nor a record for the retry topic. -/
def Unrelated (op : PushOp) : Prop :=
  op ≠ .incr (retryKey messageId userId) ∧
    (RetryEvent.called op true).retries options messageId userId = false

def PushOp.isOther : PushOp → Bool
  | .incr _ | .produce _ _ _ => false
  | _ => true

variable {op : PushOp}

theorem unrelated_of_isOther (h : op.isOther = true) :
    Unrelated options messageId userId op := by
  cases op with
  | incr key => cases h
  | produce topic key payload => cases h
  | _ => exact ⟨nofun, rfl⟩

theorem unrelated_produce {topic : Bytes} (htopic : options.topicRetry ≠ topic)
    (key payload : Bytes) :
    Unrelated options messageId userId (.produce topic key payload) :=
  ⟨nofun, by simp [RetryEvent.retries, htopic.symm]⟩

theorem Unrelated.retries (h : Unrelated options messageId userId op) (applied : Bool) :
    (RetryEvent.called op applied).retries options messageId userId = false := by
  cases applied with
  | true => exact h.2
  | false => cases op <;> rfl

theorem Unrelated.counters (h : Unrelated options messageId userId op) {applied : Bool}
    (hreset : (RetryEvent.called op applied).resets (retryKey messageId userId) = false) :
    w.countersAfter op (retryKey messageId userId) = w.counters (retryKey messageId userId) := by
  cases op with
  | incr key =>
    have hkey : retryKey messageId userId ≠ key := fun heq => h.1 (by rw [heq])
    simp only [RetryWorld.countersAfter]
    split_ifs
    · rw [Function.update_of_ne hkey]
    · rfl
  | del key =>
    have hkey : key ≠ retryKey messageId userId := by
      simpa [RetryEvent.resets] using hreset
    exact Function.update_of_ne hkey.symm _ _
  | _ => rfl

theorem Budget.call (h : Budget options retry messageId userId w)
    (hop : Unrelated options messageId userId op) (choice : PushChoice) :
    Budget options retry messageId userId (w.exec op choice).1 := by
  have hdiverted : Diverted options retry messageId userId
      (.called op (decide (choice.fault ≠ .refused)) :: w.events) := by
    refine h.diverted.cons fun applied heq => ?_
    cases heq
    exact hop.1 rfl
  have hbounded : Bounded options retry messageId userId
      (.called op (decide (choice.fault ≠ .refused)) :: w.events) :=
    h.bounded.quiet (hop.retries _)
  refine ⟨?_, hbounded, hdiverted⟩
  have hsince := retriesSince_cons options messageId userId
    (.called op (decide (choice.fault ≠ .refused))) w.events
  rw [hop.retries] at hsince
  cases hreset : (RetryEvent.called op (decide (choice.fault ≠ .refused))).resets
      (retryKey messageId userId) with
  | true =>
    rw [hreset, if_pos rfl] at hsince
    exact hsince ▸ Nat.zero_le _
  | false =>
    have hcounters : (w.exec op choice).1.counters (retryKey messageId userId) =
        w.counters (retryKey messageId userId) := by
      simp only [RetryWorld.exec]
      split_ifs
      · rfl
      · exact hop.counters hreset
    rw [hreset, if_neg Bool.false_ne_true, if_neg Bool.false_ne_true, Nat.add_zero] at hsince
    rw [hcounters]
    exact hsince.trans_le h.counted

/-! ### Programs that keep the budget -/

variable (options retry messageId userId) in
def Keeps {α : Type} (p : Pushing α) : Prop :=
  ∀ w, Budget options retry messageId userId w → Ensures RetryWorld.exec Counted
      (fun _ => Budget options retry messageId userId) p w

theorem Keeps.ret {α : Type} (value : α) :
    Keeps options retry messageId userId (.ret value : Pushing α) := fun _ h => h

theorem Keeps.bind {α β : Type} {p : Pushing α} {f : α → Pushing β}
    (hp : Keeps options retry messageId userId p)
    (hf : ∀ value, Keeps options retry messageId userId (f value)) :
    Keeps options retry messageId userId (p >>= f) :=
  fun w h => (hp w h).bind fun value next hnext => hf value next hnext

theorem Keeps.of_only {α : Type} {p : Pushing α}
    (hp : p.Only (Unrelated options messageId userId)) :
    Keeps options retry messageId userId p := by
  intro w h
  exact Ensures.keeps (fun {_ _ choice} hop _ hbudget => hbudget.call hop choice) hp h

theorem keeps_other (h : op.isOther = true) :
    Keeps options retry messageId userId (.call op .ret) :=
  .of_only ⟨unrelated_of_isOther h, fun _ => trivial⟩

theorem keeps_onlineStatuses (user : UInt64) (devices : List Bytes) :
    Keeps options retry messageId userId (onlineStatuses pushEnv user devices) := by
  induction devices with
  | nil => exact .ret _
  | cons deviceId devices ih =>
    refine (keeps_other rfl).bind fun gateway => ?_
    refine (keeps_other rfl).bind fun conn => ?_
    split
    · exact ih.bind fun _ => .ret _
    · exact (keeps_other rfl).bind fun _ => ih

theorem keeps_getOnlineStatuses (user : UInt64) :
    Keeps options retry messageId userId (getOnlineStatuses pushEnv user) := by
  unfold getOnlineStatuses
  split
  · exact .ret _
  · exact (keeps_other rfl).bind fun devices => keeps_onlineStatuses user devices

theorem keeps_deliverToAll (requestId : Bytes) (user : UInt64) (data : MessageData)
    (statuses : List OnlineStatus) (delivered : Bool) :
    Keeps options retry messageId userId
      (deliverToAll pushEnv requestId user data statuses delivered) := by
  induction statuses generalizing delivered with
  | nil => exact .ret _
  | cons status statuses ih => exact (keeps_other rfl).bind fun ok => ih _

theorem keeps_saveOffline (user : UInt64) (data : MessageData) :
    Keeps options retry messageId userId (saveOffline pushEnv.toOfflineStore user data) :=
  (keeps_other rfl).bind fun _ => keeps_other rfl

/-! ### A failed delivery -/

theorem limit_pos (retry : PushRetryOptions) : 0 < retry.limit.toInt := by
  unfold PushRetryOptions.limit
  split_ifs with hpos
  · exact Int32.lt_iff_toInt_lt.mp hpos
  · decide

theorem toInt_count {n : Nat} (h : n < 2 ^ 31) : (Int64.ofNat n).toInt32.toInt = n := by
  have hwide : (Int64.ofNat n).toInt = n := Int64.toInt_ofNat_of_lt (by omega)
  rw [Int64.toInt_toInt32, hwide]
  exact Int.bmod_eq_of_le (by omega) (by omega)

theorem exec_incr {choice : PushChoice} {key : Bytes} (h : Counted w (.incr key) choice) :
    w.exec (.incr key) choice =
      ({ counters := Function.update w.counters key (w.counters key + 1)
         events := .called (.incr key) true :: w.events },
        Int64.ofNat (w.counters key + 1)) := by
  obtain ⟨hfault, hlt⟩ := h
  have hwide : w.counters key + 1 < 2 ^ 63 := hlt.trans (by decide)
  simp only [RetryWorld.exec, RetryWorld.countersAfter, RetryWorld.reply, if_pos hwide,
    if_pos (And.intro hfault hwide)]
  simp [hfault]

theorem messageForRecipient_messageId (user : UInt64) (data : MessageData) :
    (messageForRecipient user data).messageId = data.messageId := by
  unfold messageForRecipient
  split_ifs <;> rfl

variable {data : MessageData}

theorem unrelated_failure (hdata : data.WellFormed) {user : UInt64}
    (hother : ¬ (data.messageId = messageId ∧ user = userId)) :
    Unrelated options messageId userId (.incr (retryKey data.messageId user)) ∧
      Unrelated options messageId userId (.produce options.topicRetry (decimal user.toNat)
        (messageForRecipient user data).serialize) := by
  have hcopy : (messageForRecipient user data).WellFormed := by
    unfold messageForRecipient
    split_ifs
    · exact hdata
    · exact hdata
  have hid := messageForRecipient_messageId user data
  refine ⟨⟨?_, rfl⟩, nofun, ?_⟩
  · intro heq
    exact hother (retryKey_inj.mp (PushOp.incr.inj heq))
  · simp only [RetryEvent.retries, MessageData.parse_serialize hcopy, hid]
    refine decide_eq_false fun ⟨_, hkey, hmessage⟩ => hother ⟨hmessage, ?_⟩
    exact UInt64.toNat_inj.mp (decimal_injective hkey)

variable (retry messageId userId) in
/-- What an increment leaves behind: the count, and an `EXPIRE` for a new counter. -/
structure Incremented (w : RetryWorld) (count : Int32) (next : RetryWorld) : Prop where
  value : count.toInt = (w.counters (retryKey messageId userId) + 1 : Nat)
  counter : next.counters (retryKey messageId userId) = w.counters (retryKey messageId userId) + 1
  events : next.events = .called (.incr (retryKey messageId userId)) true :: w.events ∨
    w.counters (retryKey messageId userId) = 0 ∧ ∃ applied,
      next.events = .called (.expire (retryKey messageId userId) retry.ttl) applied ::
        .called (.incr (retryKey messageId userId)) true :: w.events

theorem ensures_increaseRetryCount (w : RetryWorld) :
    Ensures RetryWorld.exec Counted (Incremented retry messageId userId w)
      (increaseRetryCount pushEnv retry messageId userId) w := by
  unfold increaseRetryCount
  simp only [pushEnv_incr, pushEnv_expire, Prog.call_bind, Prog.ret_bind]
  intro choice hcounted
  have hfits := toInt_count hcounted.2
  rw [exec_incr hcounted]
  dsimp only
  by_cases hone : Int64.ofNat (w.counters (retryKey messageId userId) + 1) = 1
  · have hzero : w.counters (retryKey messageId userId) = 0 := by
      have hunit : (1 : Int64).toInt32.toInt = 1 := by decide
      rw [hone, hunit] at hfits
      omega
    rw [if_pos hone]
    intro choice _
    refine ⟨hfits, ?_, .inr ⟨hzero, _, rfl⟩⟩
    simp [RetryWorld.exec, RetryWorld.countersAfter]
  · rw [if_neg hone]
    exact ⟨hfits, Function.update_self .., .inl rfl⟩

variable (htopics : options.topicRetry ≠ options.topicDlq)

include htopics

theorem Budget.spent (h : Budget options retry messageId userId w) {next : RetryWorld}
    (hcounter : w.counters (retryKey messageId userId) ≤
      next.counters (retryKey messageId userId))
    {payload : Bytes} {row : OfflineMessage} {produced flushed read inserted : Bool}
    (hevents : next.events = .called (.insertOfflineMessage row) inserted ::
      .called .nowMs read :: .called (.flush 5000) flushed ::
      .called (.produce options.topicDlq (decimal userId.toNat) payload) produced ::
      .called (.incr (retryKey messageId userId)) true :: w.events)
    (hrow : row.userId = userId ∧ row.messageId = messageId ∧ row.payload = payload) :
    Budget options retry messageId userId next := by
  have hdlq : (RetryEvent.called (.produce options.topicDlq (decimal userId.toNat) payload)
      produced).retries options messageId userId = false :=
    (unrelated_produce htopics _ _).retries produced
  have hsince : retriesSince options messageId userId next.events =
      retriesSince options messageId userId w.events := by
    simp only [hevents, retriesSince_cons, hdlq]
    simp [RetryEvent.resets, RetryEvent.retries]
  have hbounded : Bounded options retry messageId userId next.events := by
    have hincr := h.bounded.quiet
      (show (RetryEvent.called (.incr (retryKey messageId userId)) true).retries
        options messageId userId = false from rfl)
    rw [hevents]
    refine (((hincr.quiet hdlq).quiet ?_).quiet ?_).quiet ?_
    · cases flushed <;> rfl
    · cases read <;> rfl
    · cases inserted <;> rfl
  refine ⟨hsince.trans_le (h.counted.trans hcounter), hbounded, ?_⟩
  -- the only increment that is new is followed by the record and the copy
  intro later applied earlier hsplit hspent
  rw [hevents] at hsplit
  rcases later with _ | ⟨first, _ | ⟨second, _ | ⟨third, _ | ⟨fourth, later⟩⟩⟩⟩
  · simp at hsplit
  · simp at hsplit
  · simp at hsplit
  · simp at hsplit
  · simp only [List.cons_append, List.cons.injEq] at hsplit
    obtain ⟨rfl, rfl, rfl, rfl, hsplit⟩ := hsplit
    cases later with
    | nil => exact ⟨[], payload, row, produced, flushed, read, inserted, rfl, hrow⟩
    | cons fifth later =>
      obtain ⟨-, hold⟩ := List.cons.inj hsplit
      exact ((((h.diverted later applied earlier hold hspent).cons _).cons _).cons
        _).cons _ |>.cons _

theorem keeps_ownFailure (hid : data.messageId = messageId) :
    Keeps options retry messageId userId (handlePushFailure pushEnv options retry userId data) := by
  subst hid
  intro w h
  refine (ensures_increaseRetryCount w).bind fun count next hnext => ?_
  obtain ⟨hcount, hcounter, hevents⟩ := hnext
  have hlimit := limit_pos retry
  have hle : count ≤ retry.limit ↔
      w.counters (retryKey data.messageId userId) + 1 ≤ retry.limit.toInt.toNat := by
    rw [Int32.le_iff_toInt_le, hcount]
    omega
  have hcounted := h.counted
  by_cases hleft : count ≤ retry.limit
  · -- the record goes to the retry topic
    rw [if_pos hleft]
    have hroom := hle.mp hleft
    have hsince : retriesSince options data.messageId userId next.events =
        retriesSince options data.messageId userId w.events := by
      rcases hevents with hevents | ⟨_, applied, hevents⟩ <;>
        simp [hevents, retriesSince_cons, RetryEvent.resets, RetryEvent.retries]
    have hbounded : Bounded options retry data.messageId userId next.events := by
      have hincr := h.bounded.quiet
        (show (RetryEvent.called (.incr (retryKey data.messageId userId)) true).retries
          options data.messageId userId = false from rfl)
      rcases hevents with hevents | ⟨_, applied, hevents⟩ <;> rw [hevents]
      · exact hincr
      · exact hincr.quiet (by cases applied <;> rfl)
    have hdiverted : Diverted options retry data.messageId userId next.events := by
      have hincr := h.diverted.incr (by omega) true
      rcases hevents with hevents | ⟨_, applied, hevents⟩ <;> rw [hevents]
      · exact hincr
      · exact hincr.cons nofun
    intro choice _
    have hwritten := retriesSince_cons options data.messageId userId
      (.called (.produce options.topicRetry (decimal userId.toNat)
        (messageForRecipient userId data).serialize) (decide (choice.fault ≠ .refused)))
      next.events
    have hone : retriesSince options data.messageId userId
        (next.exec (.produce options.topicRetry (decimal userId.toNat)
          (messageForRecipient userId data).serialize) choice).1.events ≤
        retriesSince options data.messageId userId w.events + 1 := by
      rw [← hsince]
      refine hwritten.trans_le ?_
      split_ifs <;> omega
    refine ⟨hone.trans ?_, hbounded.cons (hone.trans (by omega)), hdiverted.cons nofun⟩
    simp only [RetryWorld.exec, RetryWorld.countersAfter, ite_self, hcounter]
    omega
  · -- the budget is spent, so that the counter is not new
    rw [if_neg hleft]
    have hspent : retry.limit.toInt.toNat ≤ w.counters (retryKey data.messageId userId) := by
      have hover := mt hle.mpr hleft
      omega
    have hincr : next.events =
        .called (.incr (retryKey data.messageId userId)) true :: w.events := by
      rcases hevents with hevents | ⟨hnew, _⟩
      · exact hevents
      · omega
    intro produced _ flushed _ read _ inserted _
    refine Budget.spent htopics h ?_ (congrArg (List.cons _ <| List.cons _ <| List.cons _ <|
      List.cons _ ·) hincr) ⟨rfl, ?_, rfl⟩
    · simp only [RetryWorld.exec, RetryWorld.countersAfter, ite_self, hcounter]
      omega
    · exact messageForRecipient_messageId userId data

theorem keeps_otherFailure (hdata : data.WellFormed) {user : UInt64}
    (hother : ¬ (data.messageId = messageId ∧ user = userId)) :
    Keeps options retry messageId userId (handlePushFailure pushEnv options retry user data) := by
  obtain ⟨hincr, hproduce⟩ := @unrelated_failure options messageId userId data hdata user hother
  have hcount : Keeps options retry messageId userId
      (increaseRetryCount pushEnv retry data.messageId user) := by
    refine .of_only ⟨hincr, fun count => ?_⟩
    change Prog.Only _ (if count = 1 then _ else _)
    split_ifs
    · exact ⟨unrelated_of_isOther rfl, fun _ => trivial⟩
    · trivial
  refine hcount.bind fun count => ?_
  split_ifs
  · exact .of_only ⟨hproduce, fun _ => trivial⟩
  · refine Keeps.bind ?_ fun _ => (keeps_saveOffline user data).bind fun _ => .ret _
    exact .of_only ⟨unrelated_produce htopics _ _, fun _ =>
      ⟨unrelated_of_isOther rfl, fun _ => trivial⟩⟩

theorem keeps_pushToUser (hdata : data.WellFormed) (requestId : Bytes) (user : UInt64) :
    Keeps options retry messageId userId
      (pushToUser pushEnv options retry requestId user data) := by
  unfold pushToUser
  split_ifs with hinvalid
  · exact .ret _
  refine (keeps_getOnlineStatuses user).bind fun statuses => ?_
  split_ifs with hoffline
  · exact (keeps_saveOffline user data).bind fun _ => .ret _
  refine (keeps_deliverToAll requestId user data statuses false).bind fun delivered => ?_
  cases delivered with
  | true => exact (keeps_other rfl).bind fun _ => .ret _
  | false =>
    by_cases hpair : data.messageId = messageId ∧ user = userId
    · obtain ⟨hid, rfl⟩ := hpair
      exact keeps_ownFailure htopics hid
    · exact keeps_otherFailure htopics hdata hpair

theorem keeps_pushToMembers
    (hdata : data.WellFormed) (requestId : Bytes) (members : List UInt64) (result : PushResult) :
    Keeps options retry messageId userId
      (pushToMembers pushEnv options retry requestId data members result) := by
  induction members generalizing result with
  | nil => exact .ret _
  | cons user members ih =>
    unfold pushToMembers
    split_ifs with hsender
    · exact ih result
    · exact (keeps_pushToUser htopics hdata requestId user).bind fun ok => ih _

theorem keeps_pushToGroup (hdata : data.WellFormed) (requestId : Bytes) (groupId : UInt64) :
    Keeps options retry messageId userId
      (pushToGroup pushEnv options retry requestId groupId data) := by
  unfold pushToGroup
  split_ifs with hgroup
  · exact .ret _
  refine (keeps_other rfl).bind fun members => ?_
  split_ifs with hempty
  · exact .ret _
  · exact keeps_pushToMembers htopics hdata requestId members {}

end

/-! ## Runs -/

section

variable {options : PushOptions} {retry : PushRetryOptions} {worker : PushWorkerOptions}
  {messageId userId : UInt64}

theorem wellFormed_intent {message : KafkaMessage} :
    match intent worker message with
    | .invalid _ _ => True
    | .toUser _ _ data | .toGroup _ _ data => data.WellFormed := by
  unfold intent
  rcases hparse : MessageData.parse message.payload with ⟨data, ok⟩
  cases ok with
  | false => trivial
  | true =>
    have hdata := MessageData.wellFormed_of_parse hparse
    dsimp only
    split_ifs <;> trivial

section Topics

variable (htopics : options.topicRetry ≠ options.topicDlq)
  (hworker : options.topicRetry ≠ worker.topicDlq)

include htopics hworker

theorem keeps_handleKafkaMessage (message : KafkaMessage) : Keeps options retry messageId userId
      (handleKafkaMessage pushEnv options retry worker message) := by
  rw [handleKafkaMessage_eq]
  have hdata := @wellFormed_intent worker message
  generalize intent worker message = meant at hdata
  cases meant with
  | invalid key payload => exact .of_only ⟨unrelated_produce hworker _ _, fun _ => trivial⟩
  | toUser requestId user data => exact keeps_pushToUser htopics hdata requestId user
  | toGroup requestId groupId data =>
    exact (keeps_pushToGroup htopics hdata requestId groupId).bind fun _ => .ret _

/-- One step keeps the budget if its increments are counted. -/
theorem Budget.step {w : RetryWorld} (h : Budget options retry messageId userId w)
    {step : RetryStep} (hstep : step.Counted options retry worker w) :
    Budget options retry messageId userId (step.apply options retry worker w) := by
  cases step with
  | consume message choices =>
    exact (keeps_handleKafkaMessage htopics hworker message w h).sound hstep
  | expire key =>
    have hsince := retriesSince_cons options messageId userId (.expired key) w.events
    have hdiverted : Diverted options retry messageId userId (.expired key :: w.events) :=
      h.diverted.cons nofun
    have hbounded : Bounded options retry messageId userId (.expired key :: w.events) :=
      h.bounded.quiet rfl
    refine ⟨?_, hbounded, hdiverted⟩
    by_cases hkey : key = retryKey messageId userId
    · have hzero : retriesSince options messageId userId (.expired key :: w.events) = 0 := by
        rw [hsince, if_pos (by simp [RetryEvent.resets, hkey])]
      exact hzero ▸ Nat.zero_le _
    · have hsame : retriesSince options messageId userId (.expired key :: w.events) =
          retriesSince options messageId userId w.events := by
        rw [hsince, if_neg (by simp [RetryEvent.resets, hkey])]
        simp [RetryEvent.retries]
      have hcounter : (w.expire key).counters (retryKey messageId userId) =
          w.counters (retryKey messageId userId) :=
        Function.update_of_ne (Ne.symm hkey) _ _
      exact hsame.trans_le (hcounter.symm ▸ h.counted)

theorem budget_consumed {steps : List RetryStep}
    (hcounted : ∀ before step after, steps = before ++ step :: after →
      step.Counted options retry worker (consumed options retry worker before)) :
    Budget options retry messageId userId (consumed options retry worker steps) := by
  induction steps using List.reverseRecOn with
  | nil =>
    refine ⟨Nat.zero_le _, fun earlier hearlier => ?_, fun later applied earlier hnil => ?_⟩
    · rw [List.suffix_nil.mp hearlier]
      exact Nat.zero_le _
    · simp [consumed] at hnil
  | append_singleton steps step ih =>
    have hbefore := ih fun before other after hsteps =>
      hcounted before other (after ++ [step]) (by simp [hsteps])
    have hrun : consumed options retry worker (steps ++ [step]) =
        step.apply options retry worker (consumed options retry worker steps) := by
      simp [consumed]
    rw [hrun]
    exact hbefore.step htopics hworker (hcounted steps step [] rfl)

end Topics

/-- However Redis, the gateways and Kafka fail, as long as every increment is answered: at
every moment at most the limit of records for the message and the user stand on the retry
topic since the counter was reset, and a delivery that fails when they have been written
goes to the DLQ and to the offline store. -/
theorem retries_bounded_of_counted (htopics : options.topicRetry ≠ options.topicDlq)
    (hworker : options.topicRetry ≠ worker.topicDlq) (messageId userId : UInt64)
    (steps : List RetryStep)
    (hcounted : ∀ before step after, steps = before ++ step :: after →
      step.Counted options retry worker (consumed options retry worker before)) :
    Bounded options retry messageId userId (consumed options retry worker steps).events ∧
      Diverted options retry messageId userId (consumed options retry worker steps).events :=
  have hbudget := budget_consumed htopics hworker hcounted
  ⟨hbudget.bounded, hbudget.diverted⟩

end

def deadGateway (fault : Fault) : PushChoice where
  fault := fault
  answer
    | .nowMs => 0
    | .insertOfflineMessage _ => true
    | .smembers _ => [[100]]
    | .get _ => some [103]
    | .srem _ _ => true
    | .incr _ => 0
    | .expire _ _ => true
    | .del _ => true
    | .deliverToConnection _ _ _ _ => false
    | .listMembers _ => []
    | .produce _ _ _ => true
    | .flush _ => ()

def ninth : KafkaMessage where
  topic := lit "nebula.message.single"
  key := []
  payload := ({ messageId := 9, fromUserId := 1, toUserId := 2 } : MessageData).serialize
  partition := 0
  offset := 0

/-- A failed delivery: the calls 0 to 3 end at the gateway, and call 4 is the increment. -/
def failure (fault : Fault) : RetryStep :=
  .consume ninth fun n => deadGateway (if n = 4 then fault else .none)

def fourFailures (fault : Fault) : List RetryStep := List.replicate 4 (failure fault)

theorem fourFailures_bounded :
    retriesSince {} 9 2 (consumed {} {} {} (fourFailures .none)).events = 3 ∧
      Bounded {} {} 9 2 (consumed {} {} {} (fourFailures .none)).events ∧
      Diverted {} {} 9 2 (consumed {} {} {} (fourFailures .none)).events := by
  refine ⟨by decide +kernel, retries_bounded_of_counted (by decide +kernel)
    (by decide +kernel) 9 2 _ fun before step after hsteps => ?_⟩
  have hcounted : ∀ n < 4, (failure .none).Counted {} {} {}
      (consumed {} {} {} (List.replicate n (failure .none))) := by decide +kernel
  obtain ⟨hlength, hbefore, -⟩ := List.append_eq_replicate_iff.mp hsteps.symm
  have hmem : step ∈ fourFailures .none := by simp [hsteps]
  have hstep : step = failure .none := List.eq_of_mem_replicate hmem
  rw [hstep, hbefore]
  refine hcounted _ ?_
  rw [List.length_cons] at hlength
  omega

/-- Redis refuses the increments: a fourth record goes to the retry topic. -/
theorem refusedIncrements_unbounded :
    retriesSince {} 9 2 (consumed {} {} {} (fourFailures .refused)).events = 4 ∧
      ¬ Bounded {} {} 9 2 (consumed {} {} {} (fourFailures .refused)).events := by
  have hfour : retriesSince {} 9 2 (consumed {} {} {} (fourFailures .refused)).events = 4 := by
    decide +kernel
  refine ⟨hfour, fun hbounded => ?_⟩
  have hlimit := hbounded _ (List.suffix_refl _)
  rw [hfour] at hlimit
  exact absurd hlimit (by decide)

end NebulaIM.Push
