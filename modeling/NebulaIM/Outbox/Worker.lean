import NebulaIM.Backend.World

/-!
# The outbox worker

`OutboxDao::claimPendingEvents`, the three marks and `OutboxWorker::runOnce`.
-/

namespace NebulaIM.Outbox

open Backend Protocol
open Foundation.Wire (Bytes)

structure OutboxWorkerOptions where
  batchSize : Nat := 100
  maxRetryCount : Int := 5
  retryBackoffMs : Int64 := 1000
  claimLeaseMs : Int64 := 30000
  dlqTopic : Bytes := lit "nebula.message.dlq"

/-! ## The data access functions -/

/-- The updates of a claim, one event after the other. -/
def claimEach (leaseUntil : Int64) (token : TraceId) (now : Int64) : List OutboxEvent → Service Bool
  | [] => pure true
  | event :: events => do
      if !(← exec (.claimEvent event.eventId leaseUntil token.bytes now)) then
        return false
      claimEach leaseUntil token now events

def claimPendingEvents (limit : Nat) (now leaseMs : Int64) : Service (List OutboxEvent) :=
  transaction [] do
    let events ← exec (.selectClaimable limit now)
    let leaseUntil := now + if 0 < leaseMs then leaseMs else 30000
    let token ← generateTraceId
    if !(← claimEach leaseUntil token now events) then return []
    if !(← commit) then return []
    return events.map fun event => { event with claimToken := token.bytes }

/-- The common form of `markPublished`, `markFailed` and `markDead`. -/
def markEvent (eventId : UInt64) (claimToken : Bytes) (mark : Mark) :
    Service Bool := do
  if claimToken.isEmpty then return false
  let now ← nowMs
  query (.markEvent eventId claimToken mark now)

def markPublished (eventId : UInt64) (claimToken : Bytes) : Service Bool :=
  markEvent eventId claimToken .published

def markFailed (eventId : UInt64) (claimToken : Bytes) (retryCount : Int)
    (nextRetryAt : Int64) : Service Bool :=
  markEvent eventId claimToken (.failed retryCount nextRetryAt)

def markDead (eventId : UInt64) (claimToken : Bytes) : Service Bool :=
  markEvent eventId claimToken .dead

/-! ## The worker -/

variable (options : OutboxWorkerOptions)

def retryLater (event : OutboxEvent) (retryCount backoffCount : Int) :
    Service Bool := do
  let backoff := options.retryBackoffMs * Int64.ofInt backoffCount
  let now ← nowMs
  markFailed event.eventId event.claimToken retryCount (now + backoff)

/-- What the worker does with an event that could not be produced. -/
def handleFailure (event : OutboxEvent) : Service Bool := do
  let retryCount := event.retryCount + 1
  if retryCount ≤ options.maxRetryCount then
    retryLater options event retryCount retryCount
  else if options.dlqTopic.isEmpty then
    retryLater options event event.retryCount retryCount
  else if ← produce event.eventId options.dlqTopic event.eventKey event.payload then
    markDead event.eventId event.claimToken
  else
    retryLater options event event.retryCount retryCount

def handleEvent (event : OutboxEvent) : Service Bool := do
  if ← produce event.eventId event.topic event.eventKey event.payload then
    markPublished event.eventId event.claimToken
  else
    handleFailure options event

/-- The loop of `runOnce` for the given number of rounds; the results of the
marks are only logged. -/
def runRounds : Nat → Service Unit
  | 0 => pure ()
  | rounds + 1 => do
      let now ← nowMs
      match ← claimPendingEvents 1 now options.claimLeaseMs with
      | [] => return ()
      | event :: _ =>
        let _ ← handleEvent options event
        runRounds rounds

def runOnce : Service Unit := runRounds options options.batchSize

end NebulaIM.Outbox
