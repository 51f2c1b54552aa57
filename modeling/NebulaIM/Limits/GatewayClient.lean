import NebulaIM.Foundation.Framing
import NebulaIM.Limits.CircuitBreaker
import NebulaIM.Protocol.Messages

/-!
# The client of a gateway

`GatewayClient` sends four kinds of requests to a gateway, all behind one circuit
breaker.  A call succeeds if the RPC completes and the gateway answers with code zero;
everything else is recorded as a failure.
-/

namespace NebulaIM.Limits

open Protocol
open Foundation.Wire (Bytes)

inductive GatewayRequest where
  | deliverToConnection (requestId : Bytes) (userId : UInt64) (connectionId : Bytes)
      (message : MessageData)
  | kickUser (requestId : Bytes) (userId : UInt64) (reason : Bytes)
  | kickConnection (requestId : Bytes) (userId : UInt64) (connectionId deviceId reason : Bytes)
  | getOnlineStatus (requestId : Bytes) (userId : UInt64)
  deriving DecidableEq

/-- The status of an RPC and what the gateway answers. -/
structure GatewayAnswer where
  statusOk : Bool := true
  code : Int32 := 0
  online : Bool := false
  gatewayId : Bytes := []
  connectionId : Bytes := []
  deriving DecidableEq

/-- What a call meets: the clock when it asks the breaker and when it records the
outcome, and the gateway. -/
structure Exchange where
  began : Int
  ended : Int
  gateway : GatewayRequest → GatewayAnswer

structure GatewayClient where
  breaker : CircuitBreaker := .make
  stub : Bool := true
  deriving DecidableEq

namespace GatewayClient

variable (client : GatewayClient) (exchange : Exchange)

/-- The answer of a successful call. -/
def perform (request : GatewayRequest) : Option GatewayAnswer × GatewayClient :=
  if !client.stub then (none, client)
  else
    let (allowed, breaker) := client.breaker.allowRequest exchange.began
    if !allowed then (none, { client with breaker })
    else
      let answer := exchange.gateway request
      if !answer.statusOk || answer.code != 0 then
        (none, { client with breaker := breaker.recordFailure exchange.ended })
      else (some answer, { client with breaker := breaker.recordSuccess })

def deliverToConnection (requestId : Bytes) (userId : UInt64) (connectionId : Bytes)
    (message : MessageData) : Bool × GatewayClient :=
  let (answer, client) := client.perform exchange
    (.deliverToConnection requestId userId connectionId message)
  (answer.isSome, client)

def kickUser (requestId : Bytes) (userId : UInt64) (reason : Bytes) : Bool × GatewayClient :=
  let (answer, client) := client.perform exchange (.kickUser requestId userId reason)
  (answer.isSome, client)

def kickConnection (requestId : Bytes) (userId : UInt64)
    (connectionId deviceId reason : Bytes) : Bool × GatewayClient :=
  let (answer, client) := client.perform exchange
    (.kickConnection requestId userId connectionId deviceId reason)
  (answer.isSome, client)

/-- `online`, `gateway_id` and `connection_id` of a successful call. -/
def getOnlineStatus (requestId : Bytes) (userId : UInt64) :
    Option (Bool × Bytes × Bytes) × GatewayClient :=
  let (answer, client) := client.perform exchange (.getOnlineStatus requestId userId)
  (answer.map fun answer => (answer.online, answer.gatewayId, answer.connectionId), client)

def serve : GatewayRequest → GatewayClient
  | .deliverToConnection requestId userId connectionId message =>
    (client.deliverToConnection exchange requestId userId connectionId message).2
  | .kickUser requestId userId reason => (client.kickUser exchange requestId userId reason).2
  | .kickConnection requestId userId connectionId deviceId reason =>
    (client.kickConnection exchange requestId userId connectionId deviceId reason).2
  | .getOnlineStatus requestId userId => (client.getOnlineStatus exchange requestId userId).2

theorem serve_eq (request : GatewayRequest) :
    client.serve exchange request = (client.perform exchange request).2 := by
  cases request <;> rfl

def after (calls : List (Exchange × GatewayRequest)) : GatewayClient :=
  calls.foldl (fun client call => client.serve call.1 call.2) client

theorem after_snoc (calls : List (Exchange × GatewayRequest)) (call : Exchange × GatewayRequest) :
    client.after (calls ++ [call]) = (client.after calls).serve call.1 call.2 := by
  simp [after]

end GatewayClient

def answered (call : Exchange × GatewayRequest) : GatewayAnswer := call.1.gateway call.2

def negativeAnswers (calls : List (Exchange × GatewayRequest)) : Nat :=
  (calls.reverse.takeWhile fun call => (answered call).code != 0).length

theorem negativeAnswers_snoc (calls : List (Exchange × GatewayRequest))
    (call : Exchange × GatewayRequest) :
    negativeAnswers (calls ++ [call]) =
      if (answered call).code = 0 then 0 else negativeAnswers calls + 1 := by
  unfold negativeAnswers
  by_cases hcode : (answered call).code = 0 <;> simp [hcode]

/-- The breaker is closed and has counted the negative answers. -/
structure Steady (calls : List (Exchange × GatewayRequest)) (client : GatewayClient) : Prop where
  stub : client.stub = true
  threshold : client.breaker.failureThreshold = 5
  state : client.breaker.state = .closed
  failureCount : client.breaker.failureCount = negativeAnswers calls

namespace Steady

variable {calls : List (Exchange × GatewayRequest)} {client : GatewayClient}

theorem serve (h : Steady calls client) {call : Exchange × GatewayRequest}
    (hstatus : (answered call).statusOk = true) :
    if negativeAnswers (calls ++ [call]) < 5 then
      Steady (calls ++ [call]) (client.serve call.1 call.2)
    else (client.serve call.1 call.2).breaker.state = .opened := by
  have hstatus' : (call.1.gateway call.2).statusOk = true := hstatus
  have hperform : client.serve call.1 call.2 = { client with
      breaker := if (answered call).code = 0 then client.breaker.recordSuccess
        else client.breaker.recordFailure call.1.ended } := by
    rw [GatewayClient.serve_eq, GatewayClient.perform, CircuitBreaker.allowRequest, h.state]
    by_cases hcode : (answered call).code = 0
    · have hcode' : (call.1.gateway call.2).code = 0 := hcode
      simp [h.stub, hstatus', hcode, hcode']
    · have hcode' : (call.1.gateway call.2).code ≠ 0 := hcode
      simp [h.stub, hstatus', hcode, hcode']
  rw [hperform, negativeAnswers_snoc]
  by_cases hcode : (answered call).code = 0
  · rw [if_pos hcode, if_pos (by omega), if_pos hcode]
    refine ⟨h.stub, h.threshold, rfl, ?_⟩
    rw [negativeAnswers_snoc, if_pos hcode]
    rfl
  · rw [if_neg hcode, if_neg hcode]
    have htrips : (client.breaker.state = .halfOpen ∨
        client.breaker.failureThreshold ≤ client.breaker.failureCount + 1) ↔
        ¬ negativeAnswers calls + 1 < 5 := by
      rw [h.state, h.threshold, h.failureCount]
      simp
    unfold CircuitBreaker.recordFailure
    by_cases hfew : negativeAnswers calls + 1 < 5
    · rw [if_pos hfew, if_neg fun h => htrips.mp h hfew]
      refine ⟨h.stub, h.threshold, h.state, ?_⟩
      rw [negativeAnswers_snoc, if_neg hcode, ← h.failureCount]
    · rw [if_neg hfew, if_pos (htrips.mpr hfew)]

end Steady

/-- The breaker is never opened, and no call would be refused. -/
def NeverOpens (calls : List (Exchange × GatewayRequest)) : Prop :=
  ∀ part, part <+: calls → (({} : GatewayClient).after part).breaker.state ≠ .opened ∧
      ∀ now, ((({} : GatewayClient).after part).breaker.allowRequest now).1 = true

/--
With all RPCs completing, the breaker of a client never opens exactly if the gateway
never gives five negative answers in a row.
-/
theorem neverOpens_iff {calls : List (Exchange × GatewayRequest)}
    (hstatus : ∀ call ∈ calls, (answered call).statusOk = true) :
    NeverOpens calls ↔
      ∀ part call, part ++ [call] <+: calls → negativeAnswers (part ++ [call]) < 5 := by
  refine @Foundation.Framing.forall_prefix_iff _ calls _
    (fun part => Steady part (({} : GatewayClient).after part))
    (fun part call => negativeAnswers (part ++ [call]) < 5)
    ⟨rfl, rfl, rfl, rfl⟩ ?_ ?_
  · intro part hsteady
    refine ⟨by simp [hsteady.state], fun now => ?_⟩
    rw [CircuitBreaker.allowRequest, hsteady.state]
  · intro part call hpart hsteady
    have hserve := hsteady.serve (hstatus call (hpart.subset (by simp)))
    rw [GatewayClient.after_snoc]
    constructor
    · intro hholds
      by_contra hmany
      rw [if_neg hmany] at hserve
      exact hholds.1 hserve
    · intro hfew
      rwa [if_pos hfew] at hserve

/-! The connections of user 7 are gone, those of the others are there. -/

def staleGateway : GatewayRequest → GatewayAnswer
  | .deliverToConnection _ userId _ _ => { code := if userId = 7 then 10005 else 0 }
  | _ => {}

def delivery (time : Int) (userId : UInt64) : Exchange × GatewayRequest :=
  (⟨time, time, staleGateway⟩, .deliverToConnection [] userId [99] {})

theorem negativeAnswers_le (calls : List (Exchange × GatewayRequest)) :
    negativeAnswers calls ≤ calls.length := by
  have hle := (List.takeWhile_prefix (fun call => (answered call).code != 0)
    (l := calls.reverse)).length_le
  rwa [List.length_reverse] at hle

theorem fourStale_neverOpens :
    NeverOpens [delivery 0 7, delivery 1 7, delivery 2 7, delivery 3 7] := by
  refine (neverOpens_iff (by decide)).mpr fun part call hpart => ?_
  have hle := negativeAnswers_le (part ++ [call])
  have hlength := hpart.length_le
  simp only [List.length_cons, List.length_nil] at hlength
  omega

/-- Five stale connections of user 7 suppress the delivery to user 8. -/
theorem fiveStale_suppress :
    (∀ call ∈ [delivery 0 7, delivery 1 7, delivery 2 7, delivery 3 7, delivery 4 7],
      (answered call).statusOk = true) ∧
      (({} : GatewayClient).after
        [delivery 0 7, delivery 1 7, delivery 2 7, delivery 3 7, delivery 4 7]).breaker.state =
          .opened ∧
      ((({} : GatewayClient).after [delivery 0 7, delivery 1 7, delivery 2 7, delivery 3 7,
          delivery 4 7]).deliverToConnection ⟨5, 5, staleGateway⟩ [] 8 [99] {}).1 = false ∧
      (({} : GatewayClient).deliverToConnection ⟨5, 5, staleGateway⟩ [] 8 [99] {}).1 =
        true := by
  decide +kernel

end NebulaIM.Limits
