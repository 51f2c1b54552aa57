import Mathlib.Data.List.Nodup

/-!
# Calls on the executor's threads

`RpcExecutor::submit` counts a task and offers it to the `ThreadPool`, whose workers
take the tasks from one queue.  The callback of a submit is queued on its loop by the
worker that has run the task, or by the submit itself if the pool has refused it.
-/

namespace NebulaIM.Async

/-- The submits are numbered in the order in which they begin; each list holds those
that are at one point of their way. -/
structure RpcExecutor (ε α : Type) where
  maxQueueSize : Nat
  threads : Nat
  running : Bool
  stopping : Bool := false
  /-- The call of `stop` has returned. -/
  returned : Bool := false
  idle : Nat
  exited : Nat := 0
  pending : Nat := 0
  submitted : Nat := 0
  failed : Nat := 0
  /-- Before `pool_.submit`. -/
  counted : List Nat := []
  tasks : List Nat := []
  /-- Refused by the pool, still counted in `pending_`. -/
  refused : List Nat := []
  /-- Refused and no longer counted. -/
  uncounted : List Nat := []
  /-- Taken by a worker. -/
  busy : List Nat := []
  /-- Run, but still counted in `pending_`. -/
  ended : List Nat := []
  /-- All tasks that the pool has accepted, in this order. -/
  accepted : List Nat := []
  /-- All tasks that the workers have taken, in this order. -/
  taken : List Nat := []
  /-- The callbacks that workers have queued, with what the function gave. -/
  results : List (Nat × Except ε α) := []
  /-- The callbacks that were queued with the error of the pool. -/
  rejections : List Nat := []

namespace RpcExecutor

variable {ε α : Type}

/-- After `start`, or before it. -/
def new (threadNum maxQueueSize : Nat) (started : Bool) : RpcExecutor ε α where
  maxQueueSize := maxQueueSize
  threads := if started then max threadNum 1 else 0
  idle := if started then max threadNum 1 else 0
  running := started

inductive Step where
  | submit
  /-- `ThreadPool::submit` under its mutex. -/
  | offer (id : Nat)
  | uncount (id : Nat)
  | reject (id : Nat)
  /-- A worker takes the front of the queue. -/
  | take
  /-- The function is called and the callback queued. -/
  | run (id : Nat)
  | finish (id : Nat)
  /-- `workerLoop` returns. -/
  | exit
  | stop
  /-- `stop` has joined all workers. -/
  | join
  deriving DecidableEq

variable (outcome : Nat → Except ε α)

/-- A step that cannot be taken changes nothing; `outcome` is what the functions give. -/
def step (s : RpcExecutor ε α) : Step → RpcExecutor ε α
  | .submit =>
    { s with
      pending := s.pending + 1, submitted := s.submitted + 1
      counted := s.submitted :: s.counted }
  | .offer id =>
    if id ∈ s.counted then
      if s.running = false ∨ s.stopping = true ∨
          0 < s.maxQueueSize ∧ s.maxQueueSize ≤ s.tasks.length then
        { s with counted := s.counted.erase id, refused := id :: s.refused }
      else
        { s with
          counted := s.counted.erase id
          tasks := s.tasks ++ [id]
          accepted := s.accepted ++ [id] }
    else s
  | .uncount id =>
    if id ∈ s.refused then
      { s with
        pending := s.pending - 1, failed := s.failed + 1
        refused := s.refused.erase id, uncounted := id :: s.uncounted }
    else s
  | .reject id =>
    if id ∈ s.uncounted then
      { s with uncounted := s.uncounted.erase id, rejections := id :: s.rejections }
    else s
  | .take =>
    match s.tasks with
    | id :: tasks =>
      if 0 < s.idle then
        { s with
          idle := s.idle - 1, tasks := tasks
          busy := id :: s.busy, taken := s.taken ++ [id] }
      else s
    | [] => s
  | .run id =>
    if id ∈ s.busy then
      { s with
        failed := s.failed + if (outcome id).isOk then 0 else 1
        busy := s.busy.erase id
        results := (id, outcome id) :: s.results, ended := id :: s.ended }
    else s
  | .finish id =>
    if id ∈ s.ended then
      { s with pending := s.pending - 1, ended := s.ended.erase id, idle := s.idle + 1 }
    else s
  | .exit =>
    if 0 < s.idle ∧ s.stopping = true ∧ s.tasks = [] then
      { s with idle := s.idle - 1, exited := s.exited + 1 }
    else s
  | .stop => { s with stopping := true }
  | .join =>
    if s.stopping = true ∧ s.exited = s.threads then
      { s with running := false, returned := true }
    else s

def run (s : RpcExecutor ε α) (steps : List Step) : RpcExecutor ε α := steps.foldl (step outcome) s

/-! ## Every step -/

variable {outcome} {s : RpcExecutor ε α}

/-- How often a callback of the submit was queued by a worker. -/
def ran (results : List (Nat × Except ε α)) (id : Nat) : Nat := (results.map Prod.fst).count id

structure Good (outcome : Nat → Except ε α) (s : RpcExecutor ε α) : Prop where
  /-- A submit is at one point of its way, or its callback was queued once. -/
  once : ∀ id, s.counted.count id + s.tasks.count id + s.refused.count id +
    s.uncounted.count id + s.busy.count id + ran s.results id + s.rejections.count id =
      (List.range s.submitted).count id
  taken : ∀ id, s.busy.count id + ran s.results id = s.taken.count id
  order : s.accepted = s.taken ++ s.tasks
  results : ∀ result ∈ s.results, result.2 = outcome result.1
  pending : s.pending = s.counted.length + s.tasks.length + s.refused.length +
    s.busy.length + s.ended.length
  workers : s.idle + s.exited + s.busy.length + s.ended.length = s.threads
  exited : 0 < s.exited → s.stopping = true ∧ s.tasks = []
  started : s.running = true ∨ s.tasks ≠ [] → 0 < s.threads
  returned : s.returned = true → s.stopping = true ∧ s.exited = s.threads

theorem count_erase_of_mem {id : Nat} {l : List Nat} (h : id ∈ l) (other : Nat) :
    (l.erase id).count other + (if id = other then 1 else 0) = l.count other := by
  by_cases heq : id = other
  · subst heq
    have hpos := List.count_pos_iff.mpr h
    rw [List.count_erase_self, if_pos rfl]
    omega
  · rw [List.count_erase_of_ne (Ne.symm heq), if_neg heq]
    rfl

theorem length_erase_of_mem {id : Nat} {l : List Nat} (h : id ∈ l) :
    (l.erase id).length + 1 = l.length := by
  have := List.length_pos_of_mem h
  rw [List.length_erase_of_mem h]
  omega

theorem Good.offer (h : Good outcome s) (id : Nat) : Good outcome (step outcome s (.offer id)) := by
  simp only [step]
  split
  case isFalse => exact h
  next hmem =>
  have hcount := count_erase_of_mem hmem
  have hlength := length_erase_of_mem hmem
  have hpending := h.pending
  split
  · refine { h with once := fun other => ?_, pending := ?_ }
    · have honce := h.once other
      have hother := hcount other
      simp only [List.count_cons, beq_iff_eq]
      omega
    · simp only [List.length_cons]
      omega
  · next hopen =>
    simp only [not_or, Bool.not_eq_false, Bool.not_eq_true] at hopen
    refine
      { h with
        once := fun other => ?_
        order := by rw [h.order, List.append_assoc]
        pending := ?_
        exited := fun hexited => ?_
        started := fun _ => h.started (.inl hopen.1) }
    · have honce := h.once other
      have hother := hcount other
      simp only [List.count_append, List.count_cons, List.count_nil, beq_iff_eq]
      omega
    · simp only [List.length_append, List.length_singleton]
      omega
    · cases hopen.2.1.symm.trans (h.exited hexited).1

theorem Good.take (h : Good outcome s) : Good outcome (step outcome s .take) := by
  simp only [step]
  split
  case h_2 => exact h
  next id tasks htasks =>
  split
  case isFalse => exact h
  next hidle =>
  have hpending := h.pending
  have hworkers := h.workers
  refine
    { h with
      once := fun other => ?_
      taken := fun other => ?_
      order := by rw [h.order, htasks, List.append_assoc]; rfl
      pending := ?_
      workers := ?_
      exited := fun hexited => ?_
      started := fun _ => h.started (.inr (by rw [htasks]; exact List.cons_ne_nil _ _)) }
  · have honce := h.once other
    rw [htasks] at honce
    simp only [List.count_cons, beq_iff_eq] at honce ⊢
    omega
  · have htaken := h.taken other
    simp only [List.count_append, List.count_cons, List.count_nil, beq_iff_eq]
    omega
  · rw [htasks] at hpending
    simp only [List.length_cons] at hpending ⊢
    omega
  · simp only [List.length_cons]
    omega
  · have hnone := (h.exited hexited).2
    rw [htasks] at hnone
    cases hnone

theorem Good.run_one (h : Good outcome s) (id : Nat) : Good outcome (step outcome s (.run id)) := by
  simp only [step]
  split
  case isFalse => exact h
  next hmem =>
  have hcount := count_erase_of_mem hmem
  have hlength := length_erase_of_mem hmem
  have hpending := h.pending
  have hworkers := h.workers
  refine
    { h with
      once := fun other => ?_
      taken := fun other => ?_
      results := ?_
      pending := ?_
      workers := ?_ }
  · have honce := h.once other
    have hother := hcount other
    simp only [ran, List.map_cons, List.count_cons, beq_iff_eq] at honce ⊢
    omega
  · have htaken := h.taken other
    have hother := hcount other
    simp only [ran, List.map_cons, List.count_cons, beq_iff_eq] at htaken ⊢
    omega
  · rintro result (_ | ⟨_, hresult⟩)
    · rfl
    · exact h.results result hresult
  · simp only [List.length_cons]
    omega
  · simp only [List.length_cons]
    omega

theorem Good.step (h : Good outcome s) (next : Step) : Good outcome (step outcome s next) := by
  have hpending := h.pending
  have hworkers := h.workers
  cases next with
  | submit =>
    refine { h with once := fun id => ?_, pending := ?_ }
    · have honce := h.once id
      simp only [RpcExecutor.step, List.range_succ, List.count_append, List.count_cons,
        List.count_nil, beq_iff_eq]
      omega
    · simp only [RpcExecutor.step, List.length_cons]
      omega
  | offer id => exact h.offer id
  | uncount id =>
    simp only [RpcExecutor.step]
    split
    case isFalse => exact h
    next hmem =>
    have hlength := length_erase_of_mem hmem
    refine { h with once := fun other => ?_, pending := by dsimp only; omega }
    have honce := h.once other
    have hother := count_erase_of_mem hmem other
    simp only [List.count_cons, beq_iff_eq]
    omega
  | reject id =>
    simp only [RpcExecutor.step]
    split
    case isFalse => exact h
    next hmem =>
    refine { h with once := fun other => ?_ }
    have honce := h.once other
    have hother := count_erase_of_mem hmem other
    simp only [List.count_cons, beq_iff_eq]
    omega
  | take => exact h.take
  | run id => exact h.run_one id
  | finish id =>
    simp only [RpcExecutor.step]
    split
    case isFalse => exact h
    next hmem =>
    have hlength := length_erase_of_mem hmem
    exact { h with
      pending := by dsimp only; omega
      workers := by dsimp only; omega }
  | exit =>
    simp only [RpcExecutor.step]
    split
    case isFalse => exact h
    next hexit =>
    refine { h with
      workers := by dsimp only; omega
      exited := fun _ => hexit.2
      returned := fun hreturned => ?_ }
    have hall := (h.returned hreturned).2
    omega
  | stop =>
    exact { h with
      exited := fun hexited => ⟨rfl, (h.exited hexited).2⟩
      returned := fun hreturned => ⟨rfl, (h.returned hreturned).2⟩ }
  | join =>
    simp only [RpcExecutor.step]
    split
    case isFalse => exact h
    next hjoined =>
    refine { h with started := fun htasks => h.started (.inr ?_), returned := fun _ => hjoined }
    exact htasks.resolve_left Bool.false_ne_true

theorem Good.new (threadNum maxQueueSize : Nat) (started : Bool) :
    Good outcome (new threadNum maxQueueSize started) where
  once id := rfl
  taken id := rfl
  order := rfl
  results := fun _ hresult => absurd hresult List.not_mem_nil
  pending := rfl
  workers := rfl
  exited := fun hexited => absurd hexited (Nat.lt_irrefl 0)
  started htasks := by
    cases started with
    | false => simp [RpcExecutor.new] at htasks
    | true => exact Nat.lt_of_lt_of_le Nat.one_pos (Nat.le_max_right threadNum 1)
  returned := fun hreturned => Bool.noConfusion hreturned

theorem Good.run (h : Good outcome s) (steps : List Step) : Good outcome (run outcome s steps) := by
  induction steps generalizing s with
  | nil => exact h
  | cons next steps ih => exact ih (h.step next)

theorem run_submitted (s : RpcExecutor ε α) (steps : List Step) :
    (RpcExecutor.run outcome s steps).submitted = s.submitted + steps.count .submit := by
  have hstep (s : RpcExecutor ε α) (next : Step) : (RpcExecutor.step outcome s next).submitted =
      s.submitted + if next = .submit then 1 else 0 := by
    cases next <;> simp only [RpcExecutor.step]
    all_goals repeat' split
    all_goals first | rfl | contradiction
  induction steps generalizing s with
  | nil => rfl
  | cons next steps ih =>
    refine (ih _).trans ?_
    rw [hstep, List.count_cons, Nat.add_assoc, Nat.add_comm (steps.count _)]
    simp only [beq_iff_eq]

/-! ## The callbacks come -/

/-- How far the submits are from their callbacks. -/
def distance (s : RpcExecutor ε α) : Nat :=
  5 * s.counted.length + 3 * s.tasks.length + 2 * s.refused.length + s.uncounted.length +
    2 * s.busy.length + s.ended.length

theorem Good.exists_closer (h : Good outcome s) (hdistance : 0 < distance s) :
    ∃ next, (RpcExecutor.step outcome s next).submitted = s.submitted ∧
      distance (RpcExecutor.step outcome s next) < distance s := by
  by_cases hcounted : s.counted = []
  case neg =>
    obtain ⟨id, hid⟩ := List.exists_mem_of_ne_nil _ hcounted
    have hlength := length_erase_of_mem hid
    refine ⟨.offer id, ?_⟩
    simp only [RpcExecutor.step, if_pos hid]
    split
    · refine ⟨rfl, ?_⟩
      simp only [distance, List.length_cons]
      omega
    · refine ⟨rfl, ?_⟩
      simp only [distance, List.length_append, List.length_singleton]
      omega
  by_cases hrefused : s.refused = []
  case neg =>
    obtain ⟨id, hid⟩ := List.exists_mem_of_ne_nil _ hrefused
    have hlength := length_erase_of_mem hid
    refine ⟨.uncount id, ?_⟩
    simp only [RpcExecutor.step, if_pos hid, distance, List.length_cons, true_and]
    omega
  by_cases huncounted : s.uncounted = []
  case neg =>
    obtain ⟨id, hid⟩ := List.exists_mem_of_ne_nil _ huncounted
    have hlength := length_erase_of_mem hid
    refine ⟨.reject id, ?_⟩
    simp only [RpcExecutor.step, if_pos hid, distance, true_and]
    omega
  by_cases hbusy : s.busy = []
  case neg =>
    obtain ⟨id, hid⟩ := List.exists_mem_of_ne_nil _ hbusy
    have hlength := length_erase_of_mem hid
    refine ⟨.run id, ?_⟩
    simp only [RpcExecutor.step, if_pos hid, distance, List.length_cons, true_and]
    omega
  by_cases hended : s.ended = []
  case neg =>
    obtain ⟨id, hid⟩ := List.exists_mem_of_ne_nil _ hended
    have hlength := length_erase_of_mem hid
    refine ⟨.finish id, ?_⟩
    simp only [RpcExecutor.step, if_pos hid, distance, true_and]
    omega
  -- all that is left are tasks, and a worker is idle
  cases htasks : s.tasks with
  | nil => simp [distance, hcounted, hrefused, huncounted, hbusy, hended, htasks] at hdistance
  | cons id tasks =>
    have hnonempty : s.tasks ≠ [] := by
      rw [htasks]
      exact List.cons_ne_nil _ _
    have hexited : ¬ 0 < s.exited := fun hexited => hnonempty (h.exited hexited).2
    have hthreads := h.started (.inr hnonempty)
    have hworkers := h.workers
    simp only [hbusy, hended, List.length_nil] at hworkers
    refine ⟨.take, ?_⟩
    have hidle : 0 < s.idle := by omega
    simp only [RpcExecutor.step, htasks, if_pos hidle, distance, List.length_cons, true_and]
    omega

/-- Without further submits, the steps of the submits and workers lead to a state in
which all callbacks have been queued. -/
theorem Good.completes (h : Good outcome s) :
    ∃ steps, (RpcExecutor.run outcome s steps).submitted = s.submitted ∧
      distance (RpcExecutor.run outcome s steps) = 0 := by
  induction hdistance : distance s using Nat.strongRecOn generalizing s with
  | _ n ih =>
    by_cases hzero : n = 0
    · exact ⟨[], rfl, hdistance.trans hzero⟩
    obtain ⟨next, hsubmitted, hcloser⟩ := h.exists_closer (by omega)
    obtain ⟨steps, hsame, hdone⟩ := ih _ (hdistance ▸ hcloser) (h.step next) rfl
    exact ⟨next :: steps, hsame.trans hsubmitted, hdone⟩

/-- What holds of an executor at every moment. -/
structure Faithful (outcome : Nat → Except ε α) (s : RpcExecutor ε α) : Prop where
  /-- Each submit is still on its way, or its callback was queued exactly once. -/
  once : ∀ id < s.submitted,
    (id ∈ s.counted ∨ id ∈ s.tasks ∨ id ∈ s.refused ∨ id ∈ s.uncounted ∨ id ∈ s.busy) ∧
        ran s.results id + s.rejections.count id = 0 ∨
      ran s.results id + s.rejections.count id = 1
  results : ∀ result ∈ s.results, result.2 = outcome result.1
  /-- The rejected are those that were not accepted. -/
  rejected : ∀ id ∈ s.rejections, id ∉ s.accepted
  /-- Tasks are taken in the order of their acceptance, and run once. -/
  order : s.accepted = s.taken ++ s.tasks
  taken : ∀ id ∈ s.taken, s.busy.count id + ran s.results id = 1
  stopped : s.returned = true → ∀ id ∈ s.accepted, ran s.results id = 1
  pending : s.counted = [] → s.refused = [] → s.uncounted = [] → s.busy = [] →
    s.ended = [] → s.pending = s.tasks.length
  completes : ∃ steps, (run outcome s steps).submitted = s.submitted ∧
    distance (run outcome s steps) = 0

theorem submits_answered (threadNum maxQueueSize : Nat) (started : Bool) (steps : List Step) :
    (run outcome (new threadNum maxQueueSize started) steps).submitted = steps.count .submit ∧
      Faithful outcome (run outcome (new threadNum maxQueueSize started) steps) := by
  refine ⟨(run_submitted _ steps).trans (Nat.zero_add _), ?_⟩
  have hnew : Good outcome (new threadNum maxQueueSize started) := .new ..
  have h := hnew.run steps
  generalize run outcome (new threadNum maxQueueSize started) steps = s at h
  have htaken {id : Nat} (hid : id ∈ s.taken) : s.busy.count id + ran s.results id = 1 := by
    have hpos := List.count_pos_iff.mpr hid
    have honce := h.once id
    have hsame := h.taken id
    have hle := List.nodup_iff_count_le_one.mp (List.nodup_range (n := s.submitted)) id
    omega
  constructor
  case once =>
    intro id hid
    have honce := h.once id
    rw [List.count_eq_one_of_mem List.nodup_range (List.mem_range.mpr hid)] at honce
    by_cases hqueued : ran s.results id + s.rejections.count id = 1
    · exact .inr hqueued
    · refine .inl ⟨?_, by omega⟩
      simp only [← List.count_pos_iff]
      omega
  case results => exact h.results
  case rejected =>
    intro id hid haccepted
    have hpos := List.count_pos_iff.mpr hid
    have honce := h.once id
    have hsame := h.taken id
    rw [h.order, List.mem_append, ← List.count_pos_iff, ← List.count_pos_iff] at haccepted
    have hle := List.nodup_iff_count_le_one.mp (List.nodup_range (n := s.submitted)) id
    omega
  case order => exact h.order
  case taken => exact fun id hid => htaken hid
  case stopped =>
    intro hreturned id hid
    have hall := (h.returned hreturned).2
    have hworkers := h.workers
    have hbusy : s.busy = [] := List.length_eq_zero_iff.mp (by omega)
    have htasks : s.tasks = [] := by
      by_contra hne
      have hthreads := h.started (.inr hne)
      exact hne (h.exited (by omega)).2
    rw [h.order, htasks, List.append_nil] at hid
    simpa [hbusy] using htaken hid
  case pending =>
    intro hcounted hrefused _ hbusy hended
    simpa [hcounted, hrefused, hbusy, hended] using h.pending
  case completes => exact h.completes

end RpcExecutor

end NebulaIM.Async
