import NebulaIM.Push.Handling
import Mathlib.Data.List.Induction

/-!
# The trace id of a thread

`TraceContext` keeps the trace id in a thread-local string.  Handlers set it from the request
they work on: those of the message service and of the push worker under a `Scope`, which is
to restore the string, the gateway without one.  The argument of the scope is evaluated before
the scope saves the string, and that evaluation changes it already.
-/

namespace NebulaIM.Trace

open Protocol Push
open Foundation.Wire (Bytes)

/-! ## The thread-local string -/

/-- `TraceContext::ensureTraceId`: the string afterwards, which is also returned. -/
def ensureTraceId (generated : TraceId) (current candidate : Bytes) : Bytes :=
  if isValidTraceId candidate then candidate
  else if current.isEmpty then generated.bytes
  else current

def ensureAll (generated : TraceId) (current : Bytes) : List Bytes → List Bytes
  | [] => []
  | candidate :: candidates =>
    let id := ensureTraceId generated current candidate
    id :: ensureAll generated id candidates

/-- What a handler does with the string: the ids it runs under, logs or forwards, and the
string that it leaves. -/
structure Outcome where
  used : List Bytes
  after : Bytes
  deriving DecidableEq

/-- `TraceContext::Scope trace(TraceContext::ensureTraceId(candidate))` around a block with
more calls of `ensureTraceId`. -/
def underScope (generated : TraceId) (current candidate : Bytes) (inner : List Bytes) : Outcome :=
  let id := ensureTraceId generated current candidate
  -- the constructor saves the string after the call above
  let previous := id
  { used := id :: ensureAll generated id inner, after := previous }

/-- Calls of `ensureTraceId` without a scope. -/
def withoutScope (generated : TraceId) (current : Bytes) (candidates : List Bytes) : Outcome :=
  let used := ensureAll generated current candidates
  { used := used, after := used.getLast?.getD current }

/-! ## Requests -/

/-- What a thread handles.  `authorized` and `admitted` are the checks that are made before the
trace id is set; a span calls `ensureTraceId` with an empty candidate. -/
inductive Handled where
  /-- `SendSingleMessage` and `SendGroupMessage` -/
  | send (authorized : Bool) (inboundTrace requestId : Bytes)
  | recallMessage (authorized : Bool) (inboundTrace requestId : Bytes)
  /-- `PushWorker::handleKafkaMessage`, with the number of its calls to gateways. -/
  | kafkaMessage (message : KafkaMessage) (deliveries : Nat)
  /-- A handler of `GatewayRouter`, with or without a span. -/
  | gateway (admitted : Bool) (requestId : Bytes) (span : Bool)
  /-- The task that a handler of `GatewayRouter` submits. -/
  | rpcTask (requestId : Bytes)

def inboundCandidate (inboundTrace requestId : Bytes) : Bytes :=
  if inboundTrace.isEmpty then requestId else inboundTrace

/-- The request ids that the push worker gives to the gateway client. -/
def pushRequestId (worker : PushWorkerOptions) (message : KafkaMessage) : Bytes :=
  match intent worker message with
  | .invalid _ _ => []
  | .toUser requestId _ _ | .toGroup requestId _ _ => requestId

/-- The candidate for the trace id, if the handler gets as far as setting it. -/
def Handled.candidate : Handled → Option Bytes
  | .send authorized inboundTrace requestId
  | .recallMessage authorized inboundTrace requestId =>
    if authorized then some (inboundCandidate inboundTrace requestId) else none
  | .kafkaMessage message _ =>
    match MessageData.parse message.payload with
    | (_, false) => none
    | (data, true) => some data.traceId
  | .gateway admitted requestId _ => if admitted then some requestId else none
  | .rpcTask requestId => some requestId

def Handled.run (worker : PushWorkerOptions) (generated : TraceId) (current : Bytes)
    (handled : Handled) : Outcome :=
  match handled.candidate with
  | none => { used := [], after := current }
  | some candidate =>
    match handled with
    | .send _ _ _ => underScope generated current candidate [[]]
    | .recallMessage _ _ _ => underScope generated current candidate []
    | .kafkaMessage message deliveries =>
      underScope generated current candidate
        ([] :: List.replicate deliveries (pushRequestId worker message))
    | .gateway _ _ span => withoutScope generated current (candidate :: if span then [[]] else [])
    | .rpcTask _ => withoutScope generated current [candidate]

/-! ## A thread -/

structure ThreadTrace where
  traceId : Bytes := []
  /-- The ids that the requests so far ran under. -/
  earlier : List Bytes := []

variable (worker : PushWorkerOptions)

def ThreadTrace.handle (thread : ThreadTrace) (request : Handled × TraceId) : ThreadTrace :=
  let outcome := request.1.run worker request.2 thread.traceId
  { traceId := outcome.after, earlier := outcome.used ++ thread.earlier }

def traced (requests : List (Handled × TraceId)) : ThreadTrace :=
  requests.foldl (ThreadTrace.handle worker) {}

/-- The request carries a valid trace id. -/
def Handled.Carries (handled : Handled) : Prop :=
  ∃ candidate, handled.candidate = some candidate ∧ isValidTraceId candidate = true

/-- The handler restores the string, and without a valid trace id of its own the request does
not run under the id of an earlier one. -/
def Kept (thread : ThreadTrace) (request : Handled × TraceId) : Prop :=
  (thread.handle worker request).traceId = thread.traceId ∧
    (¬ request.1.Carries →
      ∀ id ∈ (request.1.run worker request.2 thread.traceId).used, id ∉ thread.earlier)

variable {worker}

theorem ensureTraceId_ne_nil (generated : TraceId) (current candidate : Bytes) :
    ensureTraceId generated current candidate ≠ [] := by
  have hvalid {bytes : Bytes} (h : isValidTraceId bytes = true) : bytes ≠ [] := by
    rintro rfl
    cases h
  unfold ensureTraceId
  split_ifs with hcandidate hempty
  · exact hvalid hcandidate
  · exact hvalid generated.valid
  · intro hnil
    simp [hnil] at hempty

theorem underScope_after_ne_nil (generated : TraceId) (current candidate : Bytes)
    (inner : List Bytes) : (underScope generated current candidate inner).after ≠ [] :=
  ensureTraceId_ne_nil generated current candidate

theorem withoutScope_after_ne_nil (generated : TraceId) (current candidate : Bytes)
    (candidates : List Bytes) :
    (withoutScope generated current (candidate :: candidates)).after ≠ [] := by
  have hall (current : Bytes) (candidates : List Bytes) :
      ∀ id ∈ ensureAll generated current candidates, id ≠ [] := by
    induction candidates generalizing current with
    | nil => simp [ensureAll]
    | cons candidate candidates ih =>
      simp only [ensureAll, List.forall_mem_cons]
      exact ⟨ensureTraceId_ne_nil generated current candidate, ih _⟩
  have hlast : (ensureAll generated current (candidate :: candidates)).getLast? ≠ none := by
    simp [ensureAll]
  obtain ⟨last, hsome⟩ := Option.ne_none_iff_exists'.mp hlast
  simp only [withoutScope, hsome, Option.getD_some]
  exact hall current _ last (List.mem_of_getLast? hsome)

theorem run_after_ne_nil {handled : Handled} {candidate : Bytes}
    (h : handled.candidate = some candidate) (generated : TraceId) (current : Bytes) :
    (handled.run worker generated current).after ≠ [] := by
  unfold Handled.run
  rw [h]
  cases handled with
  | send authorized inboundTrace requestId
  | recallMessage authorized inboundTrace requestId
  | kafkaMessage message deliveries => exact underScope_after_ne_nil _ _ _ _
  | gateway admitted requestId span | rpcTask requestId => exact withoutScope_after_ne_nil _ _ _ _

theorem run_of_none {handled : Handled} (h : handled.candidate = none) (generated : TraceId)
    (current : Bytes) :
    handled.run worker generated current = { used := [], after := current } := by
  unfold Handled.run
  rw [h]

/-- Requests that set no trace id leave the thread as it was. -/
theorem traced_of_refused {requests : List (Handled × TraceId)}
    (h : ∀ request ∈ requests, request.1.candidate = none) :
    traced worker requests = {} := by
  induction requests with
  | nil => rfl
  | cons request requests ih =>
    have hstart : ThreadTrace.handle worker {} request = {} := by
      simp [ThreadTrace.handle, run_of_none (h request List.mem_cons_self)]
    rw [traced, List.foldl_cons, hstart]
    exact ih fun other hother => h other (List.mem_cons_of_mem _ hother)

/-- Along the requests of a thread the trace id is kept if and only if every request is refused
before its handler sets a trace id. -/
theorem kept_iff_refused (worker : PushWorkerOptions) (requests : List (Handled × TraceId)) :
    (∀ before request after, requests = before ++ request :: after →
      Kept worker (traced worker before) request) ↔
      ∀ request ∈ requests, request.1.candidate = none := by
  constructor
  · intro hkept
    induction requests using List.reverseRecOn with
    | nil => simp
    | append_singleton requests request ih =>
      have hbefore := ih fun before other after hrequests =>
        hkept before other (after ++ [request]) (by simp [hrequests])
      have hlast := (hkept requests request [] rfl).1
      rw [traced_of_refused hbefore] at hlast
      intro other hother
      rcases List.mem_append.mp hother with hold | hnew
      · exact hbefore other hold
      · rw [List.mem_singleton.mp hnew]
        by_contra hset
        obtain ⟨candidate, hcandidate⟩ := Option.ne_none_iff_exists'.mp hset
        exact run_after_ne_nil hcandidate request.2 [] hlast
  · rintro hrefused before request after rfl
    have hcandidate := hrefused request (by simp)
    constructor
    · simp [ThreadTrace.handle, run_of_none hcandidate]
    · intro _ id hid
      simp [run_of_none hcandidate] at hid

def firstTrace : TraceId := ⟨lit "00000000000000000000000000000001", by decide +kernel⟩

def secondTrace : TraceId := ⟨lit "00000000000000000000000000000002", by decide +kernel⟩

/-- A first request with a trace id, and a second one without: the string stays changed, and
the second request runs under the id of the first, in each kind of handler. -/
theorem second_runs_under_first :
    (traced {} [(.send true firstTrace.bytes [], secondTrace)]).traceId = firstTrace.bytes ∧
      (Handled.run {} secondTrace
        (traced {} [(.send true firstTrace.bytes [], secondTrace)]).traceId
        (.send true [] (lit "r-2"))).used = [firstTrace.bytes, firstTrace.bytes] ∧
      (Handled.run {} secondTrace (traced {} [(.rpcTask firstTrace.bytes, secondTrace)]).traceId
        (.rpcTask (lit "r-2"))).used = [firstTrace.bytes] := by
  decide +kernel

end NebulaIM.Trace
