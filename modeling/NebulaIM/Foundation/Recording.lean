import NebulaIM.Foundation.History
import Mathlib.Data.List.Induction

/-!
# Runs with a log

The log of a pool is the list of all calls with their answers, in the order in
which they were carried out.  What `Along` says of a program holds of the part of
the log that its thread has written, whatever the other threads do; facts about
the shared world can be stated over the whole log.
-/

namespace Foundation

variable {Req Op : Type} {Res : Op → Type} {World Choice Env α : Type}
variable {tid : Nat} {exchange : Exchange Op Res} {log : List (Nat × Exchange Op Res)}

/-- A world with the log of the calls, newest first. -/
structure Logged (World Op : Type) (Res : Op → Type) where
  world : World
  log : List (Nat × Exchange Op Res) := []

def pastOf (log : List (Nat × Exchange Op Res)) (tid : Nat) : Past Op Res :=
  (log.filter fun entry => entry.1 == tid).map Prod.snd

@[simp] theorem pastOf_cons_self (tid : Nat) (exchange : Exchange Op Res)
    (log : List (Nat × Exchange Op Res)) :
    pastOf ((tid, exchange) :: log) tid = exchange :: pastOf log tid := by
  simp [pastOf]

theorem pastOf_cons_ne {other : Nat} (hne : other ≠ tid) (exchange : Exchange Op Res)
    (log : List (Nat × Exchange Op Res)) :
    pastOf ((other, exchange) :: log) tid = pastOf log tid := by
  simp [pastOf, hne]

theorem pastOf_eq_nil (h : ∀ entry ∈ log, entry.1 ≠ tid) : pastOf log tid = [] := by
  rw [pastOf, List.filter_eq_nil_iff.mpr]
  · rfl
  · exact fun entry hentry => by simpa using h entry hentry

theorem pastOf_suffix {earlier : List (Nat × Exchange Op Res)}
    (h : earlier <:+ log) (tid : Nat) : pastOf earlier tid <:+ pastOf log tid :=
  (h.filter _).map _

theorem mem_pastOf : exchange ∈ pastOf log tid ↔ (tid, exchange) ∈ log := by
  simp [pastOf]

theorem pastOf_split {later earlier : Past Op Res}
    (h : pastOf log tid = later ++ exchange :: earlier) :
    ∃ later' earlier', log = later' ++ (tid, exchange) :: earlier' ∧
      pastOf earlier' tid = earlier := by
  induction log generalizing later with
  | nil => simp [pastOf] at h
  | cons entry log ih =>
    have hskip {later : Past Op Res} (h : pastOf log tid = later ++ exchange :: earlier) :
        ∃ later' earlier', entry :: log = later' ++ (tid, exchange) :: earlier' ∧
          pastOf earlier' tid = earlier := by
      obtain ⟨later', earlier', rfl, hpast⟩ := ih h
      exact ⟨entry :: later', earlier', rfl, hpast⟩
    obtain ⟨other, own⟩ := entry
    by_cases hother : other = tid
    · subst hother
      rw [pastOf_cons_self] at h
      cases later with
      | nil =>
        cases h
        exact ⟨[], log, rfl, rfl⟩
      | cons first later => exact hskip (List.cons.inj h).2
    · rw [pastOf_cons_ne hother] at h
      exact hskip h

namespace System

variable (sys : System Req Op Res World Choice Env α)
variable {pool : Pool Req Op Res World α} {schedule : Nat → Action Req Choice Env}

def logged : System Req Op Res (Logged World Op Res) Choice Env α where
  code := sys.code
  exec l tid op choice :=
    let (world, answer) := sys.exec l.world tid op choice
    (⟨world, (tid, ⟨op, answer⟩) :: l.log⟩, answer)
  env l event := { l with world := sys.env l.world event }

theorem run_keeps {p : World → Prop}
    (hexec : ∀ {world} tid op choice, p world → p (sys.exec world tid op choice).1)
    (henv : ∀ {world} event, p world → p (sys.env world event))
    (hp : p pool.world) (actions : List (Action Req Choice Env)) :
    p (sys.run pool actions).world := by
  induction actions generalizing pool with
  | nil => exact hp
  | cons action actions ih =>
    refine ih ?_
    have heffect := sys.step_effect pool action
    generalize sys.step pool action = next at heffect ⊢
    cases heffect with
    | spawn | idle => exact hp
    | env event => exact henv event hp
    | call _ choice => exact hexec _ _ choice hp

theorem thread_call {req : Req} {start : World} {op : Op} {next : Res op → Prog Op Res α}
    (hget : pool.threads[tid]? = some ⟨req, start, .call op next⟩) (choice : Choice) :
    (sys.step pool (.step tid choice)).threads[tid]? =
      some ⟨req, start, next (sys.exec pool.world tid op choice).2⟩ := by
  have htid := (List.getElem?_eq_some_iff.mp hget).1
  simp only [step, stepThread, hget]
  exact List.getElem?_set_self htid

theorem thread_step {thread : Thread Req Op Res World α} (hget : pool.threads[tid]? = some thread)
    {action : Action Req Choice Env} (hother : ∀ choice, action ≠ .step tid choice) :
    (sys.step pool action).threads[tid]? = some thread := by
  have heffect := sys.step_effect pool action
  generalize sys.step pool action = next at heffect ⊢
  cases heffect with
  | idle | env => exact hget
  | spawn req => exact (List.getElem?_append_left (List.getElem?_eq_some_iff.mp hget).1).trans hget
  | @call other _ _ _ _ _ choice =>
    have hne : other ≠ tid := fun heq => hother choice (heq ▸ rfl)
    exact (List.getElem?_set_ne hne).trans hget

def Fair (tid : Nat) (schedule : Nat → Action Req Choice Env) : Prop :=
  ∀ n, ∃ m ≥ n, ∃ choice, schedule m = .step tid choice

theorem Fair.tail (h : Fair tid schedule) : Fair tid fun n => schedule (n + 1) := by
  intro n
  obtain ⟨m, hm, choice, hstep⟩ := h (n + 1)
  cases m with
  | zero => omega
  | succ m => exact ⟨m, Nat.le_of_succ_le_succ hm, choice, hstep⟩

def Returns (pool : Pool Req Op Res World α) (tid : Nat)
    (schedule : Nat → Action Req Choice Env) : Prop :=
  ∃ count value, (sys.run pool ((List.range count).map schedule)).reply tid = some value

theorem Returns.cons (h : sys.Returns (sys.step pool (schedule 0)) tid fun n => schedule (n + 1)) :
    sys.Returns pool tid schedule := by
  obtain ⟨count, value, hreply⟩ := h
  refine ⟨count + 1, value, ?_⟩
  rw [List.range_succ_eq_map, List.map_cons, List.map_map]
  exact hreply

/-- Under a fair schedule a thread returns, whatever its calls are answered. -/
theorem finishes {req : Req} (hreq : pool.request tid = some req) (hfair : Fair tid schedule) :
    sys.Returns pool tid schedule := by
  obtain ⟨⟨request, start, prog⟩, hget, -⟩ := Option.map_eq_some_iff.mp hreq
  clear hreq
  induction prog generalizing pool schedule with
  | ret value =>
    refine ⟨0, value, ?_⟩
    simp [Pool.reply, hget]
  | call op next ih =>
    -- Inside, induction on the distance to a later step of the thread.
    obtain ⟨m, -, choice, hm⟩ := hfair 0
    induction m generalizing pool schedule with
    | zero =>
      have hanswered := sys.thread_call hget choice
      rw [← hm] at hanswered
      exact Returns.cons sys (ih _ hfair.tail hanswered)
    | succ m ihm =>
      by_cases hfirst : ∃ choice, schedule 0 = .step tid choice
      · obtain ⟨choice, hfirst⟩ := hfirst
        have hanswered := sys.thread_call hget choice
        rw [← hfirst] at hanswered
        exact Returns.cons sys (ih _ hfair.tail hanswered)
      · have hrests := sys.thread_step hget fun choice hstep => hfirst ⟨choice, hstep⟩
        exact Returns.cons sys (ihm hfair.tail hrests hm)

end System

/-! ## Where the entries of a log come from -/

theorem System.log_step (sys : System Req Op Res World Choice Env α)
    (pool : Pool Req Op Res (Logged World Op Res) α) (action : Action Req Choice Env) :
    (sys.logged.step pool action).world.log = pool.world.log ∨
      ∃ tid choice op, action = .step tid choice ∧ (pool.request tid).isSome ∧
        (sys.logged.step pool action).world.log =
          (tid, ⟨op, (sys.exec pool.world.world tid op choice).2⟩) ::
            pool.world.log := by
  have heffect := sys.logged.step_effect pool action
  generalize sys.logged.step pool action = next at heffect ⊢
  cases heffect with
  | spawn | idle | env => exact .inl rfl
  | call hthread choice => exact .inr ⟨_, choice, _, rfl, by simp [Pool.request, hthread], rfl⟩

/-- An entry was written by a step of its thread, in the state that the actions
before it lead to. -/
theorem System.log_entry (sys : System Req Op Res World Choice Env α)
    {pool : Pool Req Op Res (Logged World Op Res) α} (hlog : pool.world.log = [])
    {actions : List (Action Req Choice Env)} {later earlier : List (Nat × Exchange Op Res)}
    (hsplit : (sys.logged.run pool actions).world.log = later ++ (tid, exchange) :: earlier) :
    ∃ before choice, before ++ [.step tid choice] <+: actions ∧
      (sys.logged.run pool before).world.log = earlier ∧
      ((sys.logged.run pool before).request tid).isSome ∧
      exchange.answer = (sys.exec (sys.logged.run pool before).world.world tid
        exchange.op choice).2 := by
  induction actions using List.reverseRecOn generalizing later with
  | nil => simp [hlog] at hsplit
  | append_singleton actions action ih =>
    have hstep : sys.logged.run pool (actions ++ [action]) =
        sys.logged.step (sys.logged.run pool actions) action := by
      simp [System.run]
    have hgrows := List.prefix_append actions [action]
    rw [hstep] at hsplit
    rcases sys.log_step (sys.logged.run pool actions) action with
      hsame | ⟨tid', choice, op, rfl, hstarted, hwritten⟩
    · obtain ⟨before, choice, hbefore, hrest⟩ := ih (hsame.symm.trans hsplit)
      exact ⟨before, choice, hbefore.trans hgrows, hrest⟩
    · rw [hwritten] at hsplit
      cases later with
      | nil =>
        cases hsplit
        exact ⟨actions, choice, List.prefix_refl _, rfl, hstarted, rfl⟩
      | cons first later =>
        obtain ⟨before, choice, hbefore, hrest⟩ := ih (List.cons.inj hsplit).2
        exact ⟨before, choice, hbefore.trans hgrows, hrest⟩

/-! ## What programs do in a logged pool -/

/-- Every thread goes on as its program allows after its part of the log, and
every call of the log was allowed when it was made. -/
structure Recorded (allowed : Req → Past Op Res → Op → Prop) (post : Req → Past Op Res → α → Prop)
    (pool : Pool Req Op Res (Logged World Op Res) α) : Prop where
  threads : ∀ {tid : Nat} {thread}, pool.threads[tid]? = some thread →
    thread.prog.Along (allowed thread.req) (post thread.req) (pastOf pool.world.log tid)
  started : ∀ entry ∈ pool.world.log, entry.1 < pool.threads.length
  calls : ∀ {later tid exchange earlier}, pool.world.log = later ++ (tid, exchange) :: earlier →
    ∃ req, pool.request tid = some req ∧ allowed req (pastOf earlier tid) exchange.op

theorem System.request_step (sys : System Req Op Res World Choice Env α)
    {pool : Pool Req Op Res World α} {req : Req}
    (h : pool.request tid = some req) (action : Action Req Choice Env) :
    (sys.step pool action).request tid = some req := by
  rw [Pool.request, ← List.getElem?_map] at h ⊢
  rw [sys.step_requests]
  exact List.getElem?_append_left (List.getElem?_eq_some_iff.mp h).1 |>.trans h

namespace Recorded

variable {sys : System Req Op Res World Choice Env α}
variable {allowed : Req → Past Op Res → Op → Prop}
variable {post : Req → Past Op Res → α → Prop}
variable {pool : Pool Req Op Res (Logged World Op Res) α}

theorem initial (hthreads : pool.threads = []) (hlog : pool.world.log = []) :
    Recorded allowed post pool where
  threads hthread := by
    rw [hthreads] at hthread
    cases hthread
  started entry hentry := by
    rw [hlog] at hentry
    cases hentry
  calls hsplit := by
    rw [hlog] at hsplit
    simp at hsplit

theorem step (h : Recorded allowed post pool)
    (hcode : ∀ req, (sys.code req).Along (allowed req) (post req) [])
    (action : Action Req Choice Env) :
    Recorded allowed post (sys.logged.step pool action) := by
  have heffect := sys.logged.step_effect pool action
  have hlength := sys.logged.length_le_step pool action
  have hrequests {tid : Nat} {req : Req} (hreq : pool.request tid = some req) :=
    sys.logged.request_step hreq action
  generalize sys.logged.step pool action = next at heffect hlength hrequests ⊢
  cases heffect with
  | idle => exact h
  | env => exact ⟨h.threads, h.started, h.calls⟩
  | spawn req =>
    refine ⟨fun {tid thread} hthread => ?_, fun entry hentry =>
      Nat.lt_of_lt_of_le (h.started entry hentry) hlength, fun hsplit => ?_⟩
    · rcases getElem?_append_singleton hthread with hold | ⟨rfl, rfl⟩
      · exact h.threads hold
      · rw [pastOf_eq_nil fun entry hentry htid => absurd (h.started entry hentry) (by omega)]
        exact hcode req
    · obtain ⟨req', hreq, hallowed⟩ := h.calls hsplit
      exact ⟨req', hrequests hreq, hallowed⟩
  | @call tid req start op next hget choice =>
    have halong := h.threads hget
    refine ⟨fun {other thread} hother => ?_, fun entry hentry => ?_,
      fun {later other exchange earlier} hsplit => ?_⟩
    · rcases getElem?_set_cases hother with ⟨rfl, rfl⟩ | ⟨hne, hold⟩
      · simp only [System.logged, pastOf_cons_self]
        exact halong.2 _
      · simp only [System.logged, pastOf_cons_ne hne]
        exact h.threads hold
    · rw [List.length_set]
      rcases List.mem_cons.mp hentry with rfl | hold
      · exact (List.getElem?_eq_some_iff.mp hget).1
      · exact h.started entry hold
    · cases later with
      | nil =>
        cases hsplit
        exact ⟨req, hrequests (by rw [Pool.request, hget]; rfl), halong.1⟩
      | cons first later =>
        obtain ⟨req', hreq, hallowed⟩ := h.calls (List.cons.inj hsplit).2
        exact ⟨req', hrequests hreq, hallowed⟩

theorem run (h : Recorded allowed post pool)
    (hcode : ∀ req, (sys.code req).Along (allowed req) (post req) [])
    (actions : List (Action Req Choice Env)) :
    Recorded allowed post (sys.logged.run pool actions) := by
  induction actions generalizing pool with
  | nil => exact h
  | cons action actions ih => exact ih (h.step hcode action)

theorem finished (h : Recorded allowed post pool) {req : Req} (hreq : pool.request tid = some req)
    {value : α} (hreply : pool.reply tid = some value) :
    post req (pastOf pool.world.log tid) value := by
  obtain ⟨thread, hget, rfl⟩ := Option.map_eq_some_iff.mp hreq
  obtain ⟨finished, hfinished, hvalue⟩ := Pool.reply_eq_some hreply
  cases hget.symm.trans hfinished
  have halong := h.threads hget
  rw [hvalue] at halong
  exact halong

end Recorded

end Foundation
