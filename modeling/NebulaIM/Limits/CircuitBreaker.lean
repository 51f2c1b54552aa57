import Mathlib.Data.List.Induction
import Mathlib.Data.List.Infix

/-!
# The circuit breaker

`CircuitBreaker` has three states, and passes from open to half-open inside a query.
Its verdicts are those of a rule over the calls made so far, which knows no states.
Times are milliseconds of the steady clock.
-/

namespace NebulaIM.Limits

inductive CircuitBreakerState where
  | closed
  | opened
  | halfOpen
  deriving DecidableEq, Repr

structure CircuitBreaker where
  failureThreshold : Nat
  openTimeoutMs : Int
  state : CircuitBreakerState := .closed
  /-- A `size_t`, without its wrap after 2⁶⁴ failures. -/
  failureCount : Nat := 0
  openedAtMs : Int := 0
  deriving DecidableEq, Repr

inductive BreakerCall where
  | allowRequest
  | recordSuccess
  | recordFailure
  deriving DecidableEq, Repr

/-- A call and the reading of the clock during it. -/
structure TimedCall where
  time : Int
  call : BreakerCall
  deriving DecidableEq, Repr

namespace CircuitBreaker

/-- The constructor, with the values it puts for a missing threshold or timeout. -/
def make (failureThreshold : Nat := 5) (openTimeoutMs : Int := 30000) : CircuitBreaker where
  failureThreshold := if failureThreshold = 0 then 1 else failureThreshold
  openTimeoutMs := if 0 < openTimeoutMs then openTimeoutMs else 30000

def allowRequest (b : CircuitBreaker) (now : Int) : Bool × CircuitBreaker :=
  match b.state with
  | .closed => (true, b)
  | .halfOpen => (true, b)
  | .opened =>
    if b.openTimeoutMs ≤ now - b.openedAtMs then (true, { b with state := .halfOpen })
    else (false, b)

def recordSuccess (b : CircuitBreaker) : CircuitBreaker :=
  { b with state := .closed, failureCount := 0, openedAtMs := 0 }

def recordFailure (b : CircuitBreaker) (now : Int) : CircuitBreaker :=
  let counted := { b with failureCount := b.failureCount + 1 }
  if b.state = .halfOpen ∨ b.failureThreshold ≤ counted.failureCount then
    { counted with state := .opened, openedAtMs := now }
  else counted

def apply (b : CircuitBreaker) (entry : TimedCall) : CircuitBreaker :=
  match entry.call with
  | .allowRequest => (b.allowRequest entry.time).2
  | .recordSuccess => b.recordSuccess
  | .recordFailure => b.recordFailure entry.time

def after (b : CircuitBreaker) (history : List TimedCall) : CircuitBreaker := history.foldl apply b

theorem after_snoc (b : CircuitBreaker) (history : List TimedCall) (entry : TimedCall) :
    b.after (history ++ [entry]) = (b.after history).apply entry := by
  simp [after]

end CircuitBreaker

/-! ## The rule -/

/-- The failures since the last success. -/
def failuresSince (history : List TimedCall) : Nat :=
  (history.reverse.takeWhile (·.call ≠ .recordSuccess)).countP (·.call = .recordFailure)

/-- The time of the last failure. -/
def lastFailure (history : List TimedCall) : Option Int :=
  (history.reverse.find? (·.call = .recordFailure)).map TimedCall.time

/-- The rule that the breaker stands for: too many failures in a row, and the last of
them not long ago. -/
def Tripped (threshold : Nat) (timeout : Int) (history : List TimedCall) (now : Int) :
    Prop :=
  threshold ≤ failuresSince history ∧ ∃ last ∈ lastFailure history, now - last < timeout

section Rule

variable (history : List TimedCall) (time : Int)

theorem failuresSince_allowRequest :
    failuresSince (history ++ [⟨time, .allowRequest⟩]) = failuresSince history := by
  simp [failuresSince]

theorem failuresSince_recordSuccess : failuresSince (history ++ [⟨time, .recordSuccess⟩]) = 0 := by
  simp [failuresSince]

theorem failuresSince_recordFailure :
    failuresSince (history ++ [⟨time, .recordFailure⟩]) = failuresSince history + 1 := by
  simp [failuresSince]

theorem lastFailure_allowRequest :
    lastFailure (history ++ [⟨time, .allowRequest⟩]) = lastFailure history := by
  simp [lastFailure]

theorem lastFailure_recordFailure :
    lastFailure (history ++ [⟨time, .recordFailure⟩]) = some time := by
  simp [lastFailure]

end Rule

/-! ## The states -/

/-- What the state says about the calls made so far. -/
structure Tracks (threshold : Nat) (timeout : Int) (history : List TimedCall)
    (b : CircuitBreaker) : Prop where
  failureThreshold : b.failureThreshold = threshold
  openTimeoutMs : b.openTimeoutMs = timeout
  failureCount : b.failureCount = failuresSince history
  closed : b.state = .closed → failuresSince history < threshold
  tripped : b.state ≠ .closed → threshold ≤ failuresSince history ∧
    lastFailure history = some b.openedAtMs
  halfOpen : b.state = .halfOpen → ∃ entry ∈ history, timeout ≤ entry.time - b.openedAtMs

namespace Tracks

variable {threshold : Nat} {timeout : Int} {history : List TimedCall}
  {b : CircuitBreaker}

theorem make (hthreshold : 1 ≤ threshold) (htimeout : 0 < timeout) :
    Tracks threshold timeout [] (.make threshold timeout) where
  failureThreshold := if_neg (by omega)
  openTimeoutMs := if_pos htimeout
  failureCount := rfl
  closed _ := hthreshold
  tripped h := absurd rfl h
  halfOpen h := by cases h

theorem query (h : Tracks threshold timeout history b) (now : Int) :
    Tracks threshold timeout (history ++ [⟨now, .allowRequest⟩]) b where
  failureThreshold := h.failureThreshold
  openTimeoutMs := h.openTimeoutMs
  failureCount := by rw [failuresSince_allowRequest, h.failureCount]
  closed hstate := by
    rw [failuresSince_allowRequest]
    exact h.closed hstate
  tripped hstate := by
    rw [failuresSince_allowRequest, lastFailure_allowRequest]
    exact h.tripped hstate
  halfOpen hstate := by
    obtain ⟨entry, hentry, hlong⟩ := h.halfOpen hstate
    exact ⟨entry, List.mem_append_left _ hentry, hlong⟩

theorem allowRequest (h : Tracks threshold timeout history b) (now : Int) :
    Tracks threshold timeout (history ++ [⟨now, .allowRequest⟩]) (b.allowRequest now).2 := by
  have hquery := h.query now
  unfold CircuitBreaker.allowRequest
  split
  · exact hquery
  · exact hquery
  · next hopened =>
    split_ifs with hlong
    · refine ⟨hquery.failureThreshold, hquery.openTimeoutMs, hquery.failureCount,
        fun hstate => ?_, fun _ => hquery.tripped (by simp [hopened]), fun _ => ?_⟩
      · cases hstate
      · refine ⟨⟨now, .allowRequest⟩, by simp, ?_⟩
        rw [← h.openTimeoutMs]
        exact hlong
    · exact hquery

theorem recordSuccess (h : Tracks threshold timeout history b)
    (hthreshold : 1 ≤ threshold) (now : Int) :
    Tracks threshold timeout (history ++ [⟨now, .recordSuccess⟩]) b.recordSuccess where
  failureThreshold := h.failureThreshold
  openTimeoutMs := h.openTimeoutMs
  failureCount := (failuresSince_recordSuccess history now).symm
  closed _ := by rwa [failuresSince_recordSuccess]
  tripped hstate := absurd rfl hstate
  halfOpen hstate := by cases hstate

theorem recordFailure (h : Tracks threshold timeout history b) (now : Int) :
    Tracks threshold timeout (history ++ [⟨now, .recordFailure⟩]) (b.recordFailure now) := by
  have hcount : b.failureCount + 1 = failuresSince history + 1 := by rw [h.failureCount]
  unfold CircuitBreaker.recordFailure
  dsimp only
  split_ifs with htrips
  · -- a half-open breaker has already seen enough failures
    have henough : threshold ≤ failuresSince history + 1 := by
      obtain hhalf | hmany := htrips
      · have := (h.tripped (by simp [hhalf])).1
        omega
      · rw [h.failureThreshold] at hmany
        omega
    constructor
    · exact h.failureThreshold
    · exact h.openTimeoutMs
    · rw [failuresSince_recordFailure]
      exact hcount
    · intro hstate
      cases hstate
    · intro _
      rw [failuresSince_recordFailure, lastFailure_recordFailure]
      exact ⟨henough, rfl⟩
    · intro hstate
      cases hstate
  · obtain ⟨hnotHalf, hfew⟩ := not_or.mp htrips
    rw [h.failureThreshold] at hfew
    have hclosed : b.state = .closed := by
      by_contra hstate
      have := (h.tripped hstate).1
      omega
    constructor
    · exact h.failureThreshold
    · exact h.openTimeoutMs
    · rw [failuresSince_recordFailure]
      exact hcount
    · intro _
      rw [failuresSince_recordFailure]
      omega
    · exact fun hstate => absurd hclosed hstate
    · exact fun hstate => absurd hstate hnotHalf

theorem after (hthreshold : 1 ≤ threshold) (htimeout : 0 < timeout) (history : List TimedCall) :
    Tracks threshold timeout history ((CircuitBreaker.make threshold timeout).after history) := by
  induction history using List.reverseRecOn with
  | nil => exact .make hthreshold htimeout
  | append_singleton history entry ih =>
    rw [CircuitBreaker.after_snoc]
    obtain ⟨time, call⟩ := entry
    cases call with
    | allowRequest => exact ih.allowRequest time
    | recordSuccess => exact ih.recordSuccess hthreshold time
    | recordFailure => exact ih.recordFailure time

theorem verdict (h : Tracks threshold timeout history b) {now : Int}
    (hclock : ∀ entry ∈ history, entry.time ≤ now) :
    (b.allowRequest now).1 = false ↔ Tripped threshold timeout history now := by
  unfold CircuitBreaker.allowRequest Tripped
  cases hstate : b.state with
  | closed =>
    have hfew := h.closed hstate
    exact iff_of_false (by simp) fun htripped => by omega
  | halfOpen =>
    obtain ⟨_, hlast⟩ := h.tripped (by simp [hstate])
    obtain ⟨entry, hentry, hlong⟩ := h.halfOpen hstate
    have hnow := hclock entry hentry
    refine iff_of_false (by simp) ?_
    rintro ⟨_, last, hmem, hrecent⟩
    rw [hlast] at hmem
    cases hmem
    omega
  | opened =>
    obtain ⟨henough, hlast⟩ := h.tripped (by simp [hstate])
    rw [hlast, h.openTimeoutMs]
    simp only [henough, true_and, Option.mem_def, Option.some.injEq, exists_eq_left']
    split_ifs with hlong
    · exact iff_of_false (by simp) (by omega)
    · exact iff_of_true rfl (by omega)

end Tracks

/--
A request is refused exactly if at least `threshold` failures have been recorded since
the last success and the last of them less than `timeout` ago.
-/
theorem allowRequest_refuses_iff {threshold : Nat} {timeout : Int}
    (hthreshold : 1 ≤ threshold) (htimeout : 0 < timeout) (history : List TimedCall)
    (now : Int) (hclock : (history.map TimedCall.time ++ [now]).Pairwise (· ≤ ·)) :
    (((CircuitBreaker.make threshold timeout).after history).allowRequest now).1 = false ↔
      Tripped threshold timeout history now := by
  refine (Tracks.after hthreshold htimeout history).verdict fun entry hentry => ?_
  exact (List.pairwise_append.mp hclock).2.2 _ (List.mem_map_of_mem hentry) now
    (List.mem_singleton_self now)

/-- The second of two failures opens a breaker of threshold two: it refuses for the
next 50 ms, and no longer. -/
theorem twoFailures_refused :
    (((CircuitBreaker.make 2 50).after
      [⟨0, .recordFailure⟩, ⟨10, .recordFailure⟩]).allowRequest 59).1 = false ∧
      ¬ (((CircuitBreaker.make 2 50).after
        [⟨0, .recordFailure⟩, ⟨10, .recordFailure⟩]).allowRequest 60).1 = false :=
  ⟨(allowRequest_refuses_iff (by decide) (by decide) _ 59 (by decide)).mpr
      ⟨by decide, 10, rfl, by decide⟩,
    fun h => by
      obtain ⟨_, last, hlast, hrecent⟩ :=
        (allowRequest_refuses_iff (by decide) (by decide) _ 60 (by decide)).mp h
      cases hlast
      exact absurd hrecent (by decide)⟩

end NebulaIM.Limits
