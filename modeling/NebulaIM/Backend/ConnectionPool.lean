import Mathlib.Data.List.Nodup
import Mathlib.Logic.Function.Basic

/-!
# The pool of MySQL connections

`MySqlConnectionPool` owns its connections and queues the idle ones.  `acquire`
works on a connection that it has taken out of the queue without the lock, and
guards give their connections back whenever they end, also after a `stop`.
-/

namespace NebulaIM.Backend.MySqlConnectionPool

/-- What can hold a connection: a call of `acquire` or a guard. -/
inductive User where
  | acquire (id : Nat)
  | guard (id : Nat)
  deriving DecidableEq

/-- Every connection that is made gets a number of its own. -/
structure Pool where
  connections : List Nat := []
  idle : List Nat := []
  stopped : Bool := false
  held : User → Option Nat := fun _ => none
  made : Nat := 0

namespace Pool

variable (s : Pool)

def stop : Pool := { s with stopped := true, idle := [], connections := [] }

/-- The loop of `init`, over what the calls of `connect` return. -/
def fill : Pool → List Bool → Pool
  | s, [] => s
  | s, true :: outcomes =>
    fill
      { s with
        connections := s.connections ++ [s.made]
        idle := s.idle ++ [s.made]
        made := s.made + 1 } outcomes
  | s, false :: _ => { s with connections := [], idle := [], stopped := true }

/-- `init` after its call of `stop`. -/
def init (outcomes : List Bool) : Pool := fill { s with stopped := false } outcomes

/-- `release`, and the end of an `acquire` whose connection is unusable. -/
def release (conn : Nat) : Pool :=
  if s.stopped then s else { s with idle := s.idle ++ [conn] }

/-- The user gives its connection back. -/
def letGo (user : User) : Pool :=
  match s.held user with
  | none => s
  | some conn => { s.release conn with held := Function.update s.held user none }

/-- The first part of `acquire`, under the lock. -/
def pop (id : Nat) : Pool :=
  match s.idle with
  | [] => s
  | conn :: idle =>
    if s.stopped ∨ (s.held (.acquire id)).isSome then s
    else
      { s with
        idle := idle
        held := Function.update s.held (.acquire id) (some conn) }

/-- A connection goes from one user to another. -/
def pass (source target : User) : Pool :=
  { s with
    held := Function.update (Function.update s.held target (s.held source)) source none }

end Pool

inductive Step where
  | stop
  | init (outcomes : List Bool)
  | pop (id : Nat)
  /-- The end of an `acquire` that returns a new guard; `usable` says whether the ping
  or the reconnect has succeeded. -/
  | finish (id : Nat) (usable : Bool) (guard : Nat)
  /-- Move construction, for a new target, or move assignment. -/
  | move (source target : Nat)
  | destroy (guard : Nat)

def step (s : Pool) : Step → Pool
  | .stop => s.stop
  | .init outcomes => s.init outcomes
  | .pop id => s.pop id
  | .finish id usable guard =>
    if usable then
      if (s.held (.guard guard)).isSome then s else s.pass (.acquire id) (.guard guard)
    else s.letGo (.acquire id)
  | .move source target =>
    if source = target then s
    else (s.letGo (.guard target)).pass (.guard source) (.guard target)
  | .destroy guard => s.letGo (.guard guard)

def run (s : Pool) (steps : List Step) : Pool := steps.foldl step s

/-! ## The conditions -/

/-- The queue holds connections of the pool that nobody uses, each once, and what an
`acquire` is about to hand out belongs to the pool and to no one else. -/
structure Proper (s : Pool) : Prop where
  owned : ∀ conn ∈ s.idle, conn ∈ s.connections
  nodup : s.idle.Nodup
  unused : ∀ {user conn}, s.held user = some conn → conn ∉ s.idle
  single : ∀ {user other conn}, s.held user = some conn → s.held other = some conn → user = other
  current : ∀ {id conn}, s.held (.acquire id) = some conn → conn ∈ s.connections

def Acquiring (s : Pool) : Prop := ∃ id, s.held (.acquire id) ≠ none

/-- The connections are not dropped during an `acquire`, and the pool is not filled
while a connection is held that it no longer owns. -/
def Tidy (s : Pool) : Step → Prop
  | .stop => ¬ Acquiring s
  | .init outcomes => (∀ user conn, s.held user = some conn → conn ∈ s.connections) ∧
      (false ∈ outcomes → ¬ Acquiring s)
  | _ => True

def TidyRun (s : Pool) : List Step → Prop
  | [] => True
  | next :: steps => Tidy s next ∧ TidyRun (step s next) steps

/-! ## Every step -/

structure Sound (s : Pool) : Prop extends Proper s where
  below : ∀ conn ∈ s.connections, conn < s.made
  held_below : ∀ {user conn}, s.held user = some conn → conn < s.made
  guarded : s.stopped = false → ∀ {user conn}, s.held user = some conn → conn ∈ s.connections

variable {s : Pool}

theorem held_update_none {held : User → Option Nat} {user other : User} {conn : Nat}
    (h : Function.update held user none other = some conn) :
    other ≠ user ∧ held other = some conn := by
  by_cases heq : other = user
  · subst heq
    rw [Function.update_self] at h
    cases h
  · exact ⟨heq, by rwa [Function.update_of_ne heq] at h⟩

theorem Sound.dropped (h : Sound s) (hnone : ¬ Acquiring s) :
    Sound { s with stopped := true, idle := [], connections := [] } where
  owned _ hconn := absurd hconn List.not_mem_nil
  nodup := .nil
  unused _ := List.not_mem_nil
  single := h.single
  current {id conn} hheld := absurd ⟨id, by rw [hheld]; exact Option.some_ne_none conn⟩ hnone
  below _ hconn := absurd hconn List.not_mem_nil
  held_below := h.held_below
  guarded hstopped := absurd hstopped (Bool.noConfusion)

theorem Sound.fill (h : Sound s) {outcomes : List Bool}
    (hfail : false ∈ outcomes → ¬ Acquiring s) : Sound (s.fill outcomes) := by
  induction outcomes generalizing s with
  | nil => exact h
  | cons outcome outcomes ih =>
    cases outcome with
    | false => exact h.dropped (hfail List.mem_cons_self)
    | true =>
      refine ih ?_ fun hmem => hfail (List.mem_cons_of_mem _ hmem)
      have hnew : s.made ∉ s.idle := fun hmem => Nat.lt_irrefl _ (h.below _ (h.owned _ hmem))
      refine
        { owned := fun conn hconn => ?_
          nodup := List.nodup_append.mpr ⟨h.nodup, List.nodup_singleton _, ?_⟩
          unused := fun hheld hmem => ?_
          single := h.single
          current := fun hheld => List.mem_append_left _ (h.current hheld)
          below := fun conn hconn => ?_
          held_below := fun hheld => Nat.lt_succ_of_lt (h.held_below hheld)
          guarded := fun hstopped _ _ hheld => List.mem_append_left _ (h.guarded hstopped hheld) }
      · exact (List.mem_append.mp hconn).elim
          (fun hold => List.mem_append_left _ (h.owned conn hold))
          fun hnew => List.mem_append_right _ hnew
      · rintro conn hconn other hother rfl
        rw [List.mem_singleton.mp hother] at hconn
        exact hnew hconn
      · rcases List.mem_append.mp hmem with hold | hmade
        · exact h.unused hheld hold
        · exact Nat.lt_irrefl _ (List.mem_singleton.mp hmade ▸ h.held_below hheld)
      · rcases List.mem_append.mp hconn with hold | hmade
        · exact Nat.lt_succ_of_lt (h.below conn hold)
        · exact List.mem_singleton.mp hmade ▸ Nat.lt_succ_self _

theorem Sound.letGo (h : Sound s) (user : User) : Sound (s.letGo user) := by
  unfold Pool.letGo
  split
  · exact h
  next conn hconn =>
  unfold Pool.release
  split
  · exact
      { h with
        unused := fun hheld => h.unused (held_update_none hheld).2
        single := fun hheld hother =>
          h.single (held_update_none hheld).2 (held_update_none hother).2
        current := fun hheld => h.current (held_update_none hheld).2
        held_below := fun hheld => h.held_below (held_update_none hheld).2
        guarded := fun hstopped _ _ hheld => h.guarded hstopped (held_update_none hheld).2 }
  · next hrunning =>
    have hrunning : s.stopped = false := by simpa using hrunning
    refine
      { owned := fun other hother => ?_
        nodup := List.nodup_append.mpr ⟨h.nodup, List.nodup_singleton _, ?_⟩
        unused := fun hheld hmem => ?_
        single := fun hheld hother =>
          h.single (held_update_none hheld).2 (held_update_none hother).2
        current := fun hheld => h.current (held_update_none hheld).2
        below := h.below
        held_below := fun hheld => h.held_below (held_update_none hheld).2
        guarded := fun hstopped _ _ hheld => h.guarded hstopped (held_update_none hheld).2 }
    · rcases List.mem_append.mp hother with hold | hback
      · exact h.owned other hold
      · rw [List.mem_singleton.mp hback]
        exact h.guarded hrunning hconn
    · rintro other hother _ hback rfl
      exact h.unused hconn (List.mem_singleton.mp hback ▸ hother)
    · obtain ⟨hne, hheld⟩ := held_update_none hheld
      rcases List.mem_append.mp hmem with hold | hback
      · exact h.unused hheld hold
      · rw [List.mem_singleton.mp hback] at hheld
        exact hne (h.single hheld hconn)

/-- After a pass the connections are those held before, by other users. -/
theorem held_pass {source target user : User} {conn : Nat}
    (hheld : (s.pass source target).held user = some conn) :
    s.held (if user = target then source else user) = some conn ∧ user ≠ source := by
  obtain ⟨hne, hheld⟩ := held_update_none hheld
  by_cases heq : user = target
  · subst heq
    rw [Function.update_self] at hheld
    exact ⟨by rwa [if_pos rfl], hne⟩
  · rw [Function.update_of_ne heq] at hheld
    exact ⟨by rwa [if_neg heq], hne⟩

theorem Sound.pass (h : Sound s) (source : User) (guard : Nat) :
    Sound (s.pass source (.guard guard)) where
  owned := h.owned
  nodup := h.nodup
  unused hheld := h.unused (held_pass hheld).1
  single {user other conn} hheld hother := by
    obtain ⟨hfirst, hsource⟩ := held_pass hheld
    obtain ⟨hsecond, hsource'⟩ := held_pass hother
    have hsame := h.single hfirst hsecond
    split at hsame <;> split at hsame
    · next heq heq' => exact heq.trans heq'.symm
    · exact absurd hsame.symm hsource'
    · exact absurd hsame hsource
    · exact hsame
  current {id conn} hheld := by
    have hfirst := (held_pass hheld).1
    rw [if_neg User.noConfusion] at hfirst
    exact h.current hfirst
  below := h.below
  held_below hheld := h.held_below (held_pass hheld).1
  guarded hstopped _ _ hheld := h.guarded hstopped (held_pass hheld).1

theorem Sound.pop (h : Sound s) (id : Nat) : Sound (s.pop id) := by
  unfold Pool.pop
  split
  · exact h
  next conn idle hidle =>
  split
  · exact h
  have hmem : conn ∈ s.idle := hidle ▸ List.mem_cons_self
  have hsub {other : Nat} (hother : other ∈ idle) : other ∈ s.idle :=
    hidle ▸ List.mem_cons_of_mem _ hother
  obtain ⟨hnew, hnodup⟩ := List.nodup_cons.mp (hidle ▸ h.nodup)
  have hcases {user : User} {other : Nat}
      (hheld : Function.update s.held (.acquire id) (some conn) user = some other) :
      user = .acquire id ∧ other = conn ∨ s.held user = some other := by
    by_cases heq : user = .acquire id
    · subst heq
      rw [Function.update_self] at hheld
      exact .inl ⟨rfl, (Option.some.inj hheld).symm⟩
    · exact .inr (by rwa [Function.update_of_ne heq] at hheld)
  refine
    { owned := fun other hother => h.owned other (hsub hother)
      nodup := hnodup
      unused := fun hheld hother => ?_
      single := fun {user other shared} hheld hother => ?_
      current := fun hheld => ?_
      below := h.below
      held_below := fun hheld => ?_
      guarded := fun hstopped _ _ hheld => ?_ }
  · rcases hcases hheld with ⟨_, rfl⟩ | hold
    · exact hnew hother
    · exact h.unused hold (hsub hother)
  · rcases hcases hheld with ⟨rfl, rfl⟩ | hold <;>
      rcases hcases hother with ⟨rfl, heq⟩ | hold'
    · rfl
    · exact absurd hmem (h.unused hold')
    · exact absurd (heq ▸ hmem) (h.unused hold)
    · exact h.single hold hold'
  · rcases hcases hheld with ⟨_, rfl⟩ | hold
    · exact h.owned _ hmem
    · exact h.current hold
  · rcases hcases hheld with ⟨_, rfl⟩ | hold
    · exact h.below _ (h.owned _ hmem)
    · exact h.held_below hold
  · rcases hcases hheld with ⟨_, rfl⟩ | hold
    · exact h.owned _ hmem
    · exact h.guarded hstopped hold

theorem Sound.step (h : Sound s) {next : Step} (htidy : Tidy s next) : Sound (step s next) := by
  cases next with
  | stop => exact h.dropped htidy
  | init outcomes =>
    refine Sound.fill ?_ htidy.2
    exact { h with guarded := fun _ _ _ hheld => htidy.1 _ _ hheld }
  | pop id => exact h.pop id
  | finish id usable guard =>
    simp only [MySqlConnectionPool.step]
    repeat' split
    · exact h
    · exact h.pass _ _
    · exact h.letGo _
  | move source target =>
    simp only [MySqlConnectionPool.step]
    split
    · exact h
    · exact (h.letGo _).pass _ _
  | destroy guard => exact h.letGo _

/-- In every run whose steps are tidy, every state is proper. -/
theorem tidyRun_proper {steps : List Step} (hsteps : TidyRun {} steps) : Proper (run {} steps) := by
  have hstart : Sound {} := by
    refine ⟨⟨?_, .nil, ?_, ?_, ?_⟩, ?_, ?_, ?_⟩ <;> simp
  generalize ({} : Pool) = s at hsteps hstart ⊢
  induction steps generalizing s with
  | nil => exact hstart.toProper
  | cons next steps ih => exact ih (step s next) hsteps.2 (hstart.step hsteps.1)

/-! ### One connection -/

def usedOnce : List Step := [.stop, .init [true], .pop 0, .finish 0 true 0, .move 0 1, .destroy 1]

theorem usedOnce_proper : Proper (run {} usedOnce) := by
  refine tidyRun_proper ⟨?_, ⟨?_, ?_⟩, trivial, trivial, trivial, trivial, trivial⟩
  · rintro ⟨id, hheld⟩
    exact hheld rfl
  · rintro user conn ⟨⟩
  · exact fun hmem => absurd hmem (by decide)

/-- The guard 0 outlives a second `init`. -/
def outlived : List Step :=
  [.stop, .init [true], .pop 0, .finish 0 true 0, .stop, .init [true], .destroy 0, .pop 1,
    .finish 1 true 1, .pop 2]

/-- The connection that it gives back is on its way to another user. -/
theorem outlived_handed_out : (run {} outlived).held (.acquire 2) = some 0 ∧
    ¬ Proper (run {} outlived) := by
  have hheld : (run {} outlived).held (.acquire 2) = some 0 := by decide +kernel
  have howned : (run {} outlived).connections = [1] := by decide +kernel
  refine ⟨hheld, fun hproper => ?_⟩
  have hmem := hproper.current hheld
  rw [howned] at hmem
  cases List.mem_singleton.mp hmem

end NebulaIM.Backend.MySqlConnectionPool
