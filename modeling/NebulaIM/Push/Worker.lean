import NebulaIM.Push.Dispatcher

/-!
# The push worker

The handlers of `PushWorker` for one Kafka record, and its loop over the records
that the consumer polls.
-/

namespace NebulaIM.Push

open Backend Protocol
open Foundation.Wire (Bytes)

structure PushWorkerOptions where
  topicSingle : Bytes := lit "nebula.message.single"
  topicGroup : Bytes := lit "nebula.message.group"
  topicRetry : Bytes := lit "nebula.message.retry"
  topicDlq : Bytes := lit "nebula.message.dlq"

structure KafkaMessage where
  topic : Bytes
  key : Bytes
  payload : Bytes
  partition : Nat
  offset : Nat
  deriving DecidableEq, Repr

section

variable {m : Type → Type} [Monad m]

/-! ## One record -/

def handleSingleMessage (env : PushEnv m) (options : PushOptions) (retry : PushRetryOptions)
    (worker : PushWorkerOptions) (data : MessageData) : m Bool :=
  if data.messageId = 0 ∨ data.fromUserId = 0 ∨ data.toUserId = 0 then
    env.produce worker.topicDlq (decimal data.messageId.toNat) data.serialize
  else
    pushToUser env options retry (lit "kafka-single") data.toUserId data

def handleGroupMessage (env : PushEnv m) (options : PushOptions) (retry : PushRetryOptions)
    (worker : PushWorkerOptions) (data : MessageData) : m Bool :=
  if data.messageId = 0 ∨ data.fromUserId = 0 ∨ data.groupId = 0 then
    env.produce worker.topicDlq (decimal data.messageId.toNat) data.serialize
  else do
    let result ← pushToGroup env options retry (lit "kafka-group") data.groupId data
    return result.failedCount = 0

def handleRetryMessage (env : PushEnv m) (options : PushOptions) (retry : PushRetryOptions)
    (worker : PushWorkerOptions) (data : MessageData) : m Bool :=
  if data.toUserId ≠ 0 then
    pushToUser env options retry (lit "kafka-retry") data.toUserId data
  else if data.groupId ≠ 0 then do
    let result ← pushToGroup env options retry (lit "kafka-retry") data.groupId data
    return result.failedCount = 0
  else
    env.produce worker.topicDlq (decimal data.messageId.toNat) data.serialize

def handleKafkaMessage (env : PushEnv m) (options : PushOptions) (retry : PushRetryOptions)
    (worker : PushWorkerOptions) (message : KafkaMessage) : m Bool :=
  match MessageData.parse message.payload with
  | (_, false) => env.produce worker.topicDlq message.key message.payload
  | (data, true) =>
    if message.topic = worker.topicSingle then
      handleSingleMessage env options retry worker data
    else if message.topic = worker.topicGroup then
      handleGroupMessage env options retry worker data
    else if message.topic = worker.topicRetry then
      handleRetryMessage env options retry worker data
    else
      env.produce worker.topicDlq message.key message.payload

/-! ## The loop -/

/-- What `PushWorker::run` calls; `halt` stores `false` in `running_`. -/
structure WorkerEnv (m : Type → Type) where
  running : m Bool
  poll : m (Option KafkaMessage)
  handleKafkaMessage : KafkaMessage → m Bool
  commit : KafkaMessage → m Bool
  seek : KafkaMessage → m Bool
  halt : m Unit

/-- Rewind to the record; when this fails the worker stops. -/
def rewind (env : WorkerEnv m) (message : KafkaMessage) : m Bool := do
  if ← env.seek message then return true
  env.halt
  return false

/-- The body of the loop for a valid record; `false` leaves the loop. -/
def acknowledge (env : WorkerEnv m) (message : KafkaMessage) : m Bool := do
  if ← env.handleKafkaMessage message then
    if ← env.commit message then return true
    rewind env message
  else
    rewind env message

/-- At most `rounds` rounds of `PushWorker::run`. -/
def run (env : WorkerEnv m) : Nat → m Unit
  | 0 => pure ()
  | rounds + 1 => do
      if !(← env.running) then return
      let polled ← env.poll
      if !(← env.running) then return
      match polled with
      | none => run env rounds
      | some message =>
        if ← acknowledge env message then run env rounds

end

end NebulaIM.Push
