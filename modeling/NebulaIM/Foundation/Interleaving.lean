import NebulaIM.Foundation.Sequential
import Mathlib.Logic.Relation

/-!
# Interleaved programs over one shared world

A pool runs any number of programs against one world.  A scheduler spawns
requests, lets one thread issue its next call, or lets the environment act.
`exec` is total: the scheduler's `Choice` resolves every nondeterministic
answer (faults, clock readings, generated names), so every list of actions is a
run.

Proofs are thread local.  `Safe` says that a program keeps its guarantee and
reaches its postcondition while the other threads change the world only within
the rely relation; `Contract.run_safe` lifts this to every run of the pool.
-/

namespace Foundation

structure System (Req Op : Type) (Res : Op → Type) (World Choice Env α : Type) where
  code : Req → Prog Op Res α
  exec : World → Nat → (op : Op) → Choice → World × Res op
  env : World → Env → World

/-- A thread remembers its request and the world in which it was spawned. -/
structure Thread (Req Op : Type) (Res : Op → Type) (World α : Type) where
  req : Req
  start : World
  prog : Prog Op Res α

structure Pool (Req Op : Type) (Res : Op → Type) (World α : Type) where
  world : World
  threads : List (Thread Req Op Res World α) := []

variable {Req Op : Type} {Res : Op → Type} {World Choice Env α : Type}

def Pool.request (pool : Pool Req Op Res World α) (tid : Nat) : Option Req :=
  pool.threads[tid]?.map Thread.req

def Pool.reply (pool : Pool Req Op Res World α) (tid : Nat) : Option α :=
  pool.threads[tid]?.bind fun thread =>
    match thread.prog with
    | .ret value => some value
    | .call _ _ => none

theorem Pool.reply_eq_some {pool : Pool Req Op Res World α} {tid : Nat} {value : α}
    (h : pool.reply tid = some value) :
    ∃ thread, pool.threads[tid]? = some thread ∧ thread.prog = .ret value := by
  obtain ⟨thread, hthread, hprog⟩ := Option.bind_eq_some_iff.mp h
  refine ⟨thread, hthread, ?_⟩
  cases hthread : thread.prog with
  | ret result =>
    rw [hthread] at hprog
    rw [Option.some.inj hprog]
  | call op next =>
    rw [hthread] at hprog
    cases hprog

inductive Action (Req Choice Env : Type) where
  | spawn (req : Req)
  | step (tid : Nat) (choice : Choice)
  | env (event : Env)

def Action.request : Action Req Choice Env → Option Req
  | .spawn req => some req
  | .step _ _ | .env _ => none

namespace System

variable (sys : System Req Op Res World Choice Env α)

/-- Let thread `tid` issue its next call; a missing or finished thread idles. -/
def stepThread (pool : Pool Req Op Res World α) (tid : Nat) (choice : Choice) :
    Pool Req Op Res World α :=
  match pool.threads[tid]? with
  | none => pool
  | some thread =>
    match thread.prog with
    | .ret _ => pool
    | .call op next =>
      let (world, answer) := sys.exec pool.world tid op choice
      ⟨world, pool.threads.set tid { thread with prog := next answer }⟩

def step (pool : Pool Req Op Res World α) : Action Req Choice Env → Pool Req Op Res World α
  | .spawn req =>
    { pool with
      threads := pool.threads ++ [⟨req, pool.world, sys.code req⟩] }
  | .step tid choice => sys.stepThread pool tid choice
  | .env event => { pool with world := sys.env pool.world event }

def run (pool : Pool Req Op Res World α)
    (actions : List (Action Req Choice Env)) : Pool Req Op Res World α :=
  actions.foldl sys.step pool

@[simp] theorem run_nil (pool : Pool Req Op Res World α) :
    sys.run pool [] = pool := rfl

@[simp] theorem run_cons (pool : Pool Req Op Res World α)
    (action : Action Req Choice Env) (actions : List (Action Req Choice Env)) :
    sys.run pool (action :: actions) = sys.run (sys.step pool action) actions := rfl

/-- The kinds of steps; a missing or finished thread idles. -/
inductive Effect (pool : Pool Req Op Res World α) :
    Action Req Choice Env → Pool Req Op Res World α → Prop where
  | spawn (req : Req) : Effect pool (.spawn req)
      { pool with threads := pool.threads ++ [⟨req, pool.world, sys.code req⟩] }
  | idle {tid : Nat} (hidle : ∀ req start op next,
        pool.threads[tid]? ≠ some ⟨req, start, .call op next⟩) (choice : Choice) :
      Effect pool (.step tid choice) pool
  | call {tid : Nat} {req : Req} {start : World} {op : Op} {next : Res op → Prog Op Res α}
      (hthread : pool.threads[tid]? = some ⟨req, start, .call op next⟩)
      (choice : Choice) : Effect pool (.step tid choice)
        ⟨(sys.exec pool.world tid op choice).1, pool.threads.set tid
          ⟨req, start, next (sys.exec pool.world tid op choice).2⟩⟩
  | env (event : Env) : Effect pool (.env event) { pool with world := sys.env pool.world event }

theorem step_effect (pool : Pool Req Op Res World α) (action : Action Req Choice Env) :
    sys.Effect pool action (sys.step pool action) := by
  cases action with
  | spawn req => exact .spawn req
  | env event => exact .env event
  | step tid choice =>
    simp only [step, stepThread]
    cases hthread : pool.threads[tid]? with
    | none => exact .idle (by simp [hthread]) choice
    | some thread =>
      obtain ⟨req, start, prog⟩ := thread
      cases prog with
      | ret value => exact .idle (by simp [hthread]) choice
      | call op next => exact .call hthread choice

theorem length_le_step (pool : Pool Req Op Res World α) (action : Action Req Choice Env) :
    pool.threads.length ≤ (sys.step pool action).threads.length := by
  have heffect := sys.step_effect pool action
  generalize sys.step pool action = next at heffect ⊢
  cases heffect <;> simp

theorem step_requests (pool : Pool Req Op Res World α) (action : Action Req Choice Env) :
    (sys.step pool action).threads.map Thread.req =
      pool.threads.map Thread.req ++ action.request.toList := by
  have heffect := sys.step_effect pool action
  generalize sys.step pool action = next at heffect ⊢
  cases heffect with
  | @call tid req start op next hthread choice =>
    have hget : (pool.threads.map Thread.req)[tid]? = some req := by
      rw [List.getElem?_map, hthread]
      rfl
    obtain ⟨hlt, hself⟩ := List.getElem?_eq_some_iff.mp hget
    simp only [Action.request, Option.toList_none, List.append_nil, List.map_set]
    rw [← hself]
    exact List.set_getElem_self hlt
  | _ => simp [Action.request]

theorem run_requests (pool : Pool Req Op Res World α) (actions : List (Action Req Choice Env)) :
    (sys.run pool actions).threads.map Thread.req =
      pool.threads.map Thread.req ++ actions.filterMap Action.request := by
  induction actions generalizing pool with
  | nil => simp
  | cons action actions ih =>
    rw [run_cons, ih, step_requests, List.append_assoc]
    cases hrequest : action.request <;> simp [hrequest]

theorem run_request {pool : Pool Req Op Res World α} (hpool : pool.threads = [])
    (actions : List (Action Req Choice Env)) (tid : Nat) :
    (sys.run pool actions).request tid = (actions.filterMap Action.request)[tid]? := by
  have hrequests := sys.run_requests pool actions
  rw [hpool] at hrequests
  rw [Pool.request, ← List.getElem?_map, hrequests]
  rfl

end System

/--
Side conditions on the single steps of a run: which requests are spawned, which
answers a call may get, which environment events happen.
-/
structure Guard (Req Op World Choice Env : Type) where
  spawn : World → Req → Prop := fun _ _ => True
  call : World → Nat → Op → Choice → Prop := fun _ _ _ _ => True
  env : World → Env → Prop := fun _ _ => True

namespace Guard

def Admits (guard : Guard Req Op World Choice Env)
    (pool : Pool Req Op Res World α) : Action Req Choice Env → Prop
  | .spawn req => guard.spawn pool.world req
  | .step tid choice =>
    match pool.threads[tid]? with
    | some ⟨_, _, .call op _⟩ => guard.call pool.world tid op choice
    | _ => True
  | .env event => guard.env pool.world event

def AdmitsRun (guard : Guard Req Op World Choice Env) (sys : System Req Op Res World Choice Env α) :
    Pool Req Op Res World α → List (Action Req Choice Env) → Prop
  | _, [] => True
  | pool, action :: actions =>
    guard.Admits pool action ∧ guard.AdmitsRun sys (sys.step pool action) actions

section Decidable

variable (guard : Guard Req Op World Choice Env)
variable [∀ world req, Decidable (guard.spawn world req)]
variable [∀ world tid op choice, Decidable (guard.call world tid op choice)]
variable [∀ world event, Decidable (guard.env world event)]

instance decidableAdmits (pool : Pool Req Op Res World α) :
    (action : Action Req Choice Env) → Decidable (guard.Admits pool action)
  | .spawn req => inferInstanceAs (Decidable (guard.spawn pool.world req))
  | .env event => inferInstanceAs (Decidable (guard.env pool.world event))
  | .step tid choice =>
    match h : pool.threads[tid]? with
    | none => .isTrue (by simp only [Admits, h])
    | some ⟨_, _, .ret _⟩ => .isTrue (by simp only [Admits, h])
    | some ⟨_, _, .call op _⟩ =>
      decidable_of_iff (guard.call pool.world tid op choice) (by simp only [Admits, h])

instance decidableAdmitsRun (sys : System Req Op Res World Choice Env α) :
    (pool : Pool Req Op Res World α) → (actions : List (Action Req Choice Env)) →
      Decidable (guard.AdmitsRun sys pool actions)
  | _, [] => .isTrue trivial
  | pool, action :: actions =>
    have := decidableAdmitsRun sys (sys.step pool action) actions
    inferInstanceAs (Decidable (_ ∧ _))

end Decidable

theorem admitsRun_trivial (sys : System Req Op Res World Choice Env α)
    (pool : Pool Req Op Res World α) (actions : List (Action Req Choice Env)) :
    ({} : Guard Req Op World Choice Env).AdmitsRun sys pool actions := by
  induction actions generalizing pool with
  | nil => trivial
  | cons action actions ih =>
    refine ⟨?_, ih _⟩
    cases action with
    | step tid choice =>
      simp only [Admits]
      split <;> trivial
    | _ => trivial

end Guard

/--
A contract between the threads of a pool: an invariant of the world, what each
thread guarantees of its own steps, and what it may rely on from all others.
-/
structure Contract (sys : System Req Op Res World Choice Env α)
    (guard : Guard Req Op World Choice Env) where
  inv : World → Prop
  rely : Nat → World → World → Prop
  guar : Nat → World → World → Prop
  rely_refl : ∀ tid world, rely tid world world
  rely_trans : ∀ {tid first second third},
    rely tid first second → rely tid second third → rely tid first third
  guar_rely : ∀ {tid other world next},
    tid ≠ other → inv world → guar tid world next → rely other world next
  env_inv : ∀ {world event}, inv world → guard.env world event → inv (sys.env world event)
  env_rely : ∀ {tid world event}, inv world → guard.env world event →
    rely tid world (sys.env world event)

variable {sys : System Req Op Res World Choice Env α}
variable {guard : Guard Req Op World Choice Env} {contract : Contract sys guard}
variable {tid : Nat}

section Safe

variable {β : Type}

/--
From `world` on, and however the others act within the rely relation, every
call of the program keeps the invariant and the guarantee, and the value it
returns satisfies `post` for as long as the world evolves.
-/
def Safe (contract : Contract sys guard) (tid : Nat)
    (post : β → World → Prop) : Prog Op Res β → World → Prop
  | .ret value, world =>
    ∀ later, contract.rely tid world later → contract.inv later → post value later
  | .call op next, world =>
    ∀ later, contract.rely tid world later → contract.inv later →
      ∀ choice, guard.call later tid op choice → contract.inv (sys.exec later tid op choice).1 ∧
        contract.guar tid later (sys.exec later tid op choice).1 ∧
        Safe contract tid post (next (sys.exec later tid op choice).2)
          (sys.exec later tid op choice).1

variable {post : β → World → Prop} {world later : World} {p : Prog Op Res β}

theorem Safe.stable (h : Safe contract tid post p world) (hrely : contract.rely tid world later) :
    Safe contract tid post p later := by
  cases p with
  | ret value =>
    intro next hnext hinv
    exact h next (contract.rely_trans hrely hnext) hinv
  | call op next =>
    intro final hfinal hinv choice hchoice
    exact h final (contract.rely_trans hrely hfinal) hinv choice hchoice

theorem Safe.bind {γ : Type} {mid : γ → World → Prop} {p : Prog Op Res γ} {f : γ → Prog Op Res β}
    (hp : Safe contract tid mid p world)
    (hf : ∀ {value a}, mid value a → contract.inv a → Safe contract tid post (f value) a)
    (hinv : contract.inv world) :
    Safe contract tid post (p >>= f) world := by
  induction p generalizing world with
  | ret value => exact hf (hp world (contract.rely_refl tid world) hinv) hinv
  | call op next ih =>
    intro later hrely hlater choice hchoice
    obtain ⟨hinv', hguar, hnext⟩ := hp later hrely hlater choice hchoice
    exact ⟨hinv', hguar, ih _ hnext hinv'⟩

theorem Safe.mono {weaker : β → World → Prop} (h : Safe contract tid post p world)
    (himp : ∀ {value a}, post value a → weaker value a) :
    Safe contract tid weaker p world := by
  induction p generalizing world with
  | ret value =>
    intro later hrely hinv
    exact himp (h later hrely hinv)
  | call op next ih =>
    intro later hrely hinv choice hchoice
    obtain ⟨hinv', hguar, hnext⟩ := h later hrely hinv choice hchoice
    exact ⟨hinv', hguar, ih _ hnext⟩

end Safe

/-! ## Triples -/

section Triple

variable {β γ : Type}

def Stable (contract : Contract sys guard) (tid : Nat) (assertion : World → Prop) : Prop :=
  ∀ before after, assertion before → contract.inv before →
    contract.rely tid before after → contract.inv after → assertion after

def Triple (contract : Contract sys guard) (tid : Nat) (pre : World → Prop)
    (p : Prog Op Res β) (post : β → World → Prop) : Prop :=
  ∀ world, contract.inv world → pre world → Safe contract tid post p world

variable {pre stronger : World → Prop} {post : β → World → Prop} {p : Prog Op Res β}

theorem Stable.and {first second : World → Prop}
    (h₁ : Stable contract tid first) (h₂ : Stable contract tid second) :
    Stable contract tid fun world => first world ∧ second world := by
  intro before after h hinv hrely hinv'
  exact ⟨h₁ _ _ h.1 hinv hrely hinv', h₂ _ _ h.2 hinv hrely hinv'⟩

theorem Stable.const (fact : Prop) : Stable contract tid fun _ => fact := fun _ _ h _ _ _ => h

theorem Triple.ret {value : β} (hstable : Stable contract tid pre)
    (hpost : ∀ {world}, contract.inv world → pre world → post value world) :
    Triple contract tid pre (.ret value) post := by
  intro world hinv hpre later hrely hlater
  exact hpost hlater (hstable _ _ hpre hinv hrely hlater)

def CallSpec (contract : Contract sys guard) (tid : Nat) (pre : World → Prop)
    (op : Op) (mid : Res op → World → Prop) : Prop :=
  ∀ world choice, contract.inv world → pre world → guard.call world tid op choice →
    contract.inv (sys.exec world tid op choice).1 ∧
    contract.guar tid world (sys.exec world tid op choice).1 ∧
    mid (sys.exec world tid op choice).2 (sys.exec world tid op choice).1

theorem Triple.call {op : Op} {next : Res op → Prog Op Res β} {mid : Res op → World → Prop}
    (hstable : Stable contract tid pre) (hcall : CallSpec contract tid pre op mid)
    (hnext : ∀ answer, Triple contract tid (mid answer) (next answer) post) :
    Triple contract tid pre (.call op next) post := by
  intro world hinv hpre later hrely hlater choice hchoice
  obtain ⟨hinv', hguar, hmid⟩ := hcall _ _ hlater (hstable _ _ hpre hinv hrely hlater) hchoice
  exact ⟨hinv', hguar, hnext _ _ hinv' hmid⟩

theorem Triple.perform {op : Op} {mid : Res op → World → Prop} (hstable : Stable contract tid pre)
    (hcall : CallSpec contract tid pre op mid) (hmid : ∀ answer, Stable contract tid (mid answer)) :
    Triple contract tid pre (Prog.perform op) mid :=
  Triple.call hstable hcall fun answer => Triple.ret (hmid answer) fun _ h => h

theorem Triple.bind {q : Prog Op Res γ} {f : γ → Prog Op Res β}
    {mid : γ → World → Prop} (hq : Triple contract tid pre q mid)
    (hf : ∀ value, Triple contract tid (mid value) (f value) post) :
    Triple contract tid pre (q >>= f) post := by
  intro world hinv hpre
  exact (hq _ hinv hpre).bind (fun hmid hinv' => hf _ _ hinv' hmid) hinv

theorem Triple.mono {weaker : β → World → Prop} (h : Triple contract tid pre p post)
    (hpre : ∀ {world}, stronger world → pre world)
    (hpost : ∀ {value world}, post value world → weaker value world) :
    Triple contract tid stronger p weaker := by
  intro world hinv hstronger
  exact (h _ hinv (hpre hstronger)).mono hpost

theorem Triple.strengthen (h : Triple contract tid pre p post)
    (hpre : ∀ {world}, stronger world → pre world) :
    Triple contract tid stronger p post :=
  h.mono hpre id

theorem Triple.exists_pre {ι : Type} {family : ι → World → Prop}
    (h : ∀ index, Triple contract tid (family index) p post) :
    Triple contract tid (fun world => ∃ index, family index world) p post := by
  rintro world hinv ⟨index, hpre⟩
  exact h index world hinv hpre

/-- An assertion that no step falsifies, of this thread or of another, holds
along every program. -/
theorem Triple.frame {frame : World → Prop} (hstable : Stable contract tid frame)
    (hguar : ∀ {before after}, contract.inv before → frame before →
      contract.guar tid before after → frame after)
    (h : Triple contract tid pre p post) :
    Triple contract tid (fun world => frame world ∧ pre world) p
      fun value world => frame world ∧ post value world := by
  rintro world hinv ⟨hframe, hpre⟩
  have hsafe := h world hinv hpre
  clear h hpre
  induction p generalizing world with
  | ret value =>
    intro later hrely hlater
    exact ⟨hstable _ _ hframe hinv hrely hlater, hsafe later hrely hlater⟩
  | call op next ih =>
    intro later hrely hlater choice hchoice
    obtain ⟨hinv', hstep, hnext⟩ := hsafe later hrely hlater choice hchoice
    have hframe' := hstable _ _ hframe hinv hrely hlater
    exact ⟨hinv', hstep, ih _ _ hinv' (hguar hlater hframe' hstep) hnext⟩

/-- A program whose calls keep the invariant and the guarantee is safe. -/
theorem Triple.of_calls (hcall : ∀ op, CallSpec contract tid (fun _ => True) op fun _ _ => True) :
    Triple contract tid (fun _ => True) p fun _ _ => True := by
  induction p with
  | ret value => exact Triple.ret (Stable.const True) fun _ h => h
  | call op next ih => exact Triple.call (Stable.const True) (hcall op) ih

end Triple

section Run

variable {post : Nat → Req → World → α → World → Prop} {pool : Pool Req Op Res World α}
variable {action : Action Req Choice Env} {actions : List (Action Req Choice Env)}

def PoolSafe (contract : Contract sys guard) (post : Nat → Req → World → α → World → Prop)
    (pool : Pool Req Op Res World α) : Prop :=
  contract.inv pool.world ∧ ∀ tid thread, pool.threads[tid]? = some thread →
      Safe contract tid (post tid thread.req thread.start) thread.prog pool.world

theorem getElem?_append_singleton {β : Type} {l : List β} {x y : β} {i : Nat}
    (h : (l ++ [x])[i]? = some y) : l[i]? = some y ∨ i = l.length ∧ y = x := by
  rw [List.getElem?_append] at h
  split at h
  · exact .inl h
  · simp only [List.getElem?_singleton] at h
    split at h
    · cases h
      exact .inr ⟨by omega, rfl⟩
    · cases h

theorem getElem?_set_cases {β : Type} {l : List β} {x y : β} {i j : Nat}
    (h : (l.set i x)[j]? = some y) : j = i ∧ y = x ∨ i ≠ j ∧ l[j]? = some y := by
  rw [List.getElem?_set] at h
  split at h
  · next heq =>
    split at h
    · cases h
      exact .inl ⟨heq.symm, rfl⟩
    · cases h
  · next hne => exact .inr ⟨hne, h⟩

/-- A call of a thread in a safe pool. -/
theorem PoolSafe.call (hsafe : PoolSafe contract post pool) {req : Req} {start : World}
    {op : Op} {next : Res op → Prog Op Res α} {choice : Choice}
    (hthread : pool.threads[tid]? = some ⟨req, start, .call op next⟩)
    (hmeets : guard.Admits pool (.step tid choice)) :
    contract.inv (sys.exec pool.world tid op choice).1 ∧
      contract.guar tid pool.world (sys.exec pool.world tid op choice).1 ∧
      Safe contract tid (post tid req start) (next (sys.exec pool.world tid op choice).2)
        (sys.exec pool.world tid op choice).1 := by
  simp only [Guard.Admits, hthread] at hmeets
  exact hsafe.2 tid _ hthread pool.world (contract.rely_refl tid pool.world) hsafe.1 choice hmeets

theorem PoolSafe.step
    (hspawn : ∀ {req}, contract.inv pool.world → guard.spawn pool.world req →
      Safe contract pool.threads.length
        (post pool.threads.length req pool.world) (sys.code req) pool.world)
    (hsafe : PoolSafe contract post pool) (hmeets : guard.Admits pool action) :
    PoolSafe contract post (sys.step pool action) := by
  have hinv := hsafe.1
  have hthreads := hsafe.2
  have heffect := sys.step_effect pool action
  generalize sys.step pool action = next at heffect ⊢
  cases heffect with
  | idle => exact hsafe
  | spawn req =>
    refine ⟨hinv, fun tid thread hget => ?_⟩
    rcases getElem?_append_singleton hget with hold | ⟨rfl, rfl⟩
    · exact hthreads tid thread hold
    · exact hspawn hinv hmeets
  | env event =>
    refine ⟨contract.env_inv hinv hmeets, fun tid thread hget => ?_⟩
    exact (hthreads tid thread hget).stable (contract.env_rely hinv hmeets)
  | call hthread choice =>
    obtain ⟨hinv', hguar, hnext⟩ := hsafe.call hthread hmeets
    refine ⟨hinv', fun other thread hother => ?_⟩
    rcases getElem?_set_cases hother with ⟨rfl, rfl⟩ | ⟨hne, hold⟩
    · exact hnext
    · exact (hthreads other thread hold).stable (contract.guar_rely hne hinv hguar)

/-- The interleaving rule: a pool of safe requests is safe in every run. -/
theorem Contract.run_safe (contract : Contract sys guard)
    (hspawn : ∀ {world req} tid, contract.inv world → guard.spawn world req →
      Safe contract tid (post tid req world) (sys.code req) world)
    (hsafe : PoolSafe contract post pool)
    (hrun : guard.AdmitsRun sys pool actions) :
    PoolSafe contract post (sys.run pool actions) := by
  induction actions generalizing pool with
  | nil => exact hsafe
  | cons action actions ih => exact ih (hsafe.step (hspawn _) hrun.1) hrun.2

theorem PoolSafe.step_rely (hsafe : PoolSafe contract post pool)
    (hmeets : guard.Admits pool action) (htid : pool.threads.length ≤ tid) :
    contract.rely tid pool.world (sys.step pool action).world := by
  have heffect := sys.step_effect pool action
  generalize sys.step pool action = next at heffect ⊢
  cases heffect with
  | spawn | idle => exact contract.rely_refl tid pool.world
  | env event => exact contract.env_rely hsafe.1 hmeets
  | call hthread choice =>
    have hother := (List.getElem?_eq_some_iff.mp hthread).1
    exact contract.guar_rely (by omega) hsafe.1 (hsafe.call hthread hmeets).2.1

/-- A thread finds its own part of the world as it was at the beginning, since
only the steps of other threads came before it. -/
theorem Contract.run_safe_blank (contract : Contract sys guard) {blank : Nat → World → Prop}
    (hblank : ∀ tid, Stable contract tid (blank tid))
    (hspawn : ∀ {world req} tid, contract.inv world → blank tid world → guard.spawn world req →
      Safe contract tid (post tid req world) (sys.code req) world)
    (hsafe : PoolSafe contract post pool)
    (hpool : ∀ tid, pool.threads.length ≤ tid → blank tid pool.world)
    (hrun : guard.AdmitsRun sys pool actions) :
    PoolSafe contract post (sys.run pool actions) ∧
      ∀ tid, (sys.run pool actions).threads.length ≤ tid →
        blank tid (sys.run pool actions).world := by
  induction actions generalizing pool with
  | nil => exact ⟨hsafe, hpool⟩
  | cons action actions ih =>
    have hnext : PoolSafe contract post (sys.step pool action) :=
      hsafe.step (fun hinv => hspawn _ hinv (hpool _ (Nat.le_refl _))) hrun.1
    refine ih hnext ?_ hrun.2
    intro tid htid
    have hlength := Nat.le_trans (sys.length_le_step pool action) htid
    exact hblank tid _ _ (hpool tid hlength) hsafe.1 (hsafe.step_rely hrun.1 hlength) hnext.1

def Contract.Transition (contract : Contract sys guard) (before after : World) :
    Prop :=
  contract.inv before ∧ contract.inv after ∧
    ((∃ tid, contract.guar tid before after) ∨
      ∃ event, guard.env before event ∧ after = sys.env before event)

def Contract.Evolves (contract : Contract sys guard) : World → World → Prop :=
  Relation.ReflTransGen contract.Transition

theorem Contract.Evolves.preserves {p : World → Prop} {before after : World}
    (h : contract.Evolves before after)
    (hstep : ∀ {tid a b}, contract.inv a → contract.inv b → p a → contract.guar tid a b → p b)
    (henv : ∀ {a event}, contract.inv a → p a → p (sys.env a event)) (hp : p before) : p after := by
  induction h with
  | refl => exact hp
  | tail _ htransition ih =>
    obtain ⟨hinv, hinv', ⟨tid, hguar⟩ | ⟨event, _, rfl⟩⟩ := htransition
    · exact hstep hinv hinv' ih hguar
    · exact henv hinv ih

theorem PoolSafe.step_evolves (hsafe : PoolSafe contract post pool)
    (hmeets : guard.Admits pool action) :
    contract.Evolves pool.world (sys.step pool action).world := by
  have heffect := sys.step_effect pool action
  generalize sys.step pool action = next at heffect ⊢
  cases heffect with
  | spawn | idle => exact .refl
  | env event =>
    exact .single ⟨hsafe.1, contract.env_inv hsafe.1 hmeets, .inr ⟨event, hmeets, rfl⟩⟩
  | @call tid _ _ _ _ hthread choice =>
    obtain ⟨hinv, hguar, _⟩ := hsafe.call hthread hmeets
    exact .single ⟨hsafe.1, hinv, .inl ⟨tid, hguar⟩⟩

theorem Contract.run_evolves (contract : Contract sys guard)
    (hspawn : ∀ {world req} tid, contract.inv world → guard.spawn world req →
      Safe contract tid (post tid req world) (sys.code req) world)
    (hsafe : PoolSafe contract post pool)
    (hrun : guard.AdmitsRun sys pool actions) :
    contract.Evolves pool.world (sys.run pool actions).world := by
  induction actions generalizing pool with
  | nil => exact .refl
  | cons action actions ih =>
    exact (hsafe.step_evolves hrun.1).trans (ih (hsafe.step (hspawn _) hrun.1) hrun.2)

theorem PoolSafe.returned (hsafe : PoolSafe contract post pool) {thread : Thread Req Op Res World α}
    (hthread : pool.threads[tid]? = some thread) {value : α} (hvalue : thread.prog = .ret value) :
    post tid thread.req thread.start value pool.world := by
  have h := hsafe.2 tid thread hthread
  rw [hvalue] at h
  exact h pool.world (contract.rely_refl tid pool.world) hsafe.1

theorem PoolSafe.answer (hsafe : PoolSafe contract post pool) {req : Req}
    (hreq : pool.request tid = some req) {value : α}
    (hreply : pool.reply tid = some value) :
    ∃ start, post tid req start value pool.world := by
  obtain ⟨thread, hget, rfl⟩ := Option.map_eq_some_iff.mp hreq
  obtain ⟨finished, hfinished, hvalue⟩ := Pool.reply_eq_some hreply
  rw [hget] at hfinished
  cases hfinished
  exact ⟨thread.start, hsafe.returned hget hvalue⟩

end Run

/-! ## Programs that stay within the calls of their requests -/

section Within

variable {allowed : Req → Op → Prop} {pool : Pool Req Op Res World α}

def Pool.Within (allowed : Req → Op → Prop) (pool : Pool Req Op Res World α) :
    Prop :=
  ∀ thread ∈ pool.threads, thread.prog.Only (allowed thread.req)

theorem Pool.Within.step {action : Action Req Choice Env} (h : pool.Within allowed)
    (hcode : ∀ {world req}, guard.spawn world req → (sys.code req).Only (allowed req))
    (hadmits : guard.Admits pool action) : (sys.step pool action).Within allowed := by
  intro thread hthread
  have heffect := sys.step_effect pool action
  generalize sys.step pool action = next at heffect hthread
  cases heffect with
  | idle | env => exact h thread hthread
  | spawn req =>
    rcases List.mem_append.mp hthread with hold | hnew
    · exact h thread hold
    · cases List.mem_singleton.mp hnew
      exact hcode hadmits
  | call hcall choice =>
    rcases List.mem_or_eq_of_mem_set hthread with hmem | rfl
    · exact h thread hmem
    · exact (h _ (List.mem_of_getElem? hcall)).2 _

theorem Pool.Within.run (h : pool.Within allowed)
    (hcode : ∀ {world req}, guard.spawn world req → (sys.code req).Only (allowed req))
    {actions : List (Action Req Choice Env)} (hrun : guard.AdmitsRun sys pool actions) :
    (sys.run pool actions).Within allowed := by
  induction actions generalizing pool with
  | nil => exact h
  | cons action actions ih => exact ih (h.step hcode hrun.1) hrun.2

/-- An invariant of the world and of the requests so far, kept by every call that
a request allows. -/
theorem System.run_calls {p : List Req → World → Prop}
    (hcode : ∀ {world req}, guard.spawn world req → (sys.code req).Only (allowed req))
    (hspawn : ∀ {reqs world} req, p reqs world → p (reqs ++ [req]) world)
    (hcall : ∀ {reqs world tid req op choice}, reqs[tid]? = some req →
      allowed req op → guard.call world tid op choice → p reqs world →
      p reqs (sys.exec world tid op choice).1)
    (henv : ∀ {reqs world event}, p reqs world → p reqs (sys.env world event))
    (hwithin : pool.Within allowed)
    (hp : p (pool.threads.map Thread.req) pool.world)
    {actions : List (Action Req Choice Env)}
    (hrun : guard.AdmitsRun sys pool actions) :
    p ((sys.run pool actions).threads.map Thread.req) (sys.run pool actions).world := by
  induction actions generalizing pool with
  | nil => exact hp
  | cons action actions ih =>
    refine ih (hwithin.step hcode hrun.1) ?_ hrun.2
    have hadmits := hrun.1
    rw [sys.step_requests]
    have heffect := sys.step_effect pool action
    generalize sys.step pool action = next at heffect ⊢
    cases heffect with
    | spawn req => exact hspawn req hp
    | idle => simpa [Action.request] using hp
    | env event => simpa [Action.request] using henv hp
    | call hthread choice =>
      simp only [Guard.Admits, hthread] at hadmits
      simp only [Action.request, Option.toList_none, List.append_nil]
      refine hcall (by rw [List.getElem?_map, hthread]; rfl) ?_ hadmits hp
      exact (hwithin _ (List.mem_of_getElem? hthread)).1

end Within

end Foundation
