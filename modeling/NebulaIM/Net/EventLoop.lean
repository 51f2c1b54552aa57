import Mathlib.Tactic.Ring

/-!
# Functors queued in an event loop

`EventLoop::loop` polls, runs the handlers of the active channels and then the
functors that are pending.  Other threads push functors at any time and write the
eventfd afterwards; the loop's own thread writes it only while it runs functors.
-/

namespace NebulaIM.Net.EventLoop

/-- Where the thread of the loop is. -/
inductive Phase where
  | polling
  | handling
  /-- In `doPendingFunctors` before the swap. -/
  | calling
  /-- In `doPendingFunctors` after the swap. -/
  | running
  | left
  deriving DecidableEq

/-- The functors are numbered in the order in which they are pushed. -/
structure Loop where
  phase : Phase := .polling
  quit : Bool := false
  callingPendingFunctors : Bool := false
  pendingFunctors : List Nat := []
  /-- What is left of the vector that was swapped out. -/
  functors : List Nat := []
  executed : List Nat := []
  pushed : Nat := 0
  /-- Pushed by calls of `queueInLoop` that have not returned yet. -/
  returning : List Nat := []
  /-- The call of `queueInLoop` in which the loop's own thread is. -/
  own : Option Nat := none
  /-- The counter of the eventfd. -/
  unread : Nat := 0
  /-- How often `doPendingFunctors` has ended. -/
  rounds : Nat := 0

namespace Loop

variable (s : Loop)

/-- A write of 1 to the eventfd, refused when its counter is full. -/
def wakeup : Loop := { s with unread := if s.unread < 2 ^ 64 - 2 then s.unread + 1 else s.unread }

def push : Loop :=
  { s with pendingFunctors := s.pendingFunctors ++ [s.pushed], pushed := s.pushed + 1 }

end Loop

inductive Step where
  /-- Another thread pushes a functor. -/
  | push
  /-- The call of another thread writes the eventfd and returns. -/
  | wakeup (functor : Nat)
  /-- A handler or a functor calls `queueInLoop`. -/
  | queue
  | wakeupOwn
  /-- The handler of the wakeup channel. -/
  | read
  | quit
  /-- The write of `quit()`. -/
  | wakeupQuit
  | poll
  | call
  | swap
  | execute
  | finish

/-- A step that cannot be taken changes nothing. -/
def step (s : Loop) : Step → Loop
  | .push => { s.push with returning := s.pushed :: s.returning }
  | .wakeup functor =>
    if functor ∈ s.returning then
      { s.wakeup with returning := s.returning.filter (· ≠ functor) }
    else s
  | .queue =>
    if s.own ≠ none then s
    else if s.callingPendingFunctors then
      if s.phase = .running then { s.push with own := some s.pushed } else s
    else if s.phase = .handling then s.push
    else s
  | .wakeupOwn => if s.own = none then s else { s.wakeup with own := none }
  | .read => if s.phase = .handling then { s with unread := 0 } else s
  | .quit => { s with quit := true }
  | .wakeupQuit => s.wakeup
  | .poll => if s.phase = .polling then { s with phase := .handling } else s
  | .call =>
    if s.phase = .handling then
      { s with phase := .calling, callingPendingFunctors := true }
    else s
  | .swap =>
    if s.phase = .calling then
      { s with phase := .running, functors := s.pendingFunctors, pendingFunctors := [] }
    else s
  | .execute =>
    match s.functors with
    | functor :: functors =>
      if s.phase = .running ∧ s.own = none then
        { s with functors := functors, executed := s.executed ++ [functor] }
      else s
    | [] => s
  | .finish =>
    if s.phase = .running ∧ s.own = none ∧ s.functors = [] then
      { s with
        phase := if s.quit then .left else .polling
        callingPendingFunctors := false
        rounds := s.rounds + 1 }
    else s

def run (s : Loop) (steps : List Step) : Loop := steps.foldl step s

/-- Another thread can always push, the loop's own thread in a handler or functor. -/
def Step.Pushes (s : Loop) : Step → Prop
  | .push => True
  | .queue => s.own = none ∧ (s.phase = .handling ∨ s.phase = .running)
  | _ => False

instance (s : Loop) : DecidablePred (Step.Pushes s)
  | .push => .isTrue trivial
  | .queue => inferInstanceAs (Decidable (_ ∧ _))
  | .wakeup _ | .wakeupOwn | .read | .quit | .wakeupQuit | .poll | .call | .swap
  | .execute | .finish => .isFalse id

/-- How often the steps push a functor. -/
def pushes (s : Loop) : List Step → Nat
  | [] => 0
  | next :: steps => (if next.Pushes s then 1 else 0) + pushes (step s next) steps

/-- Some functor waits whose call has returned. -/
def Waiting (s : Loop) : Prop :=
  ∃ functor ∈ s.pendingFunctors, functor ∉ s.returning ∧ s.own ≠ some functor

/-! ## Every step -/

structure Good (s : Loop) : Prop where
  ordered : s.executed ++ s.functors ++ s.pendingFunctors = List.range s.pushed
  settled : s.phase ≠ .running → s.functors = [] ∧ s.own = none
  calling : s.callingPendingFunctors = decide (s.phase = .calling ∨ s.phase = .running)
  awake : s.phase = .polling ∨ s.phase = .running → Waiting s → 0 < s.unread
  left : s.phase = .left → s.quit = true

variable {s : Loop}

theorem unread_wakeup (s : Loop) : 0 < s.wakeup.unread := by
  simp only [Loop.wakeup]
  split <;> omega

theorem Good.pushed (h : Good s) : s.executed ++ s.functors ++ (s.pendingFunctors ++ [s.pushed]) =
      List.range (s.pushed + 1) := by
  rw [← List.append_assoc, h.ordered, List.range_succ]

theorem not_awake {phase : Phase} (hphase : phase = .handling ∨ phase = .calling) :
    ¬ (phase = .polling ∨ phase = .running) := by
  rcases hphase with rfl | rfl <;> decide

theorem Good.step (h : Good s) (next : Step) : Good (step s next) := by
  cases next with
  | push =>
    refine { h with ordered := h.pushed, awake := fun hphase hwaiting => h.awake hphase ?_ }
    obtain ⟨functor, hmem, hreturned, hown⟩ := hwaiting
    have hnew : functor ∉ [s.pushed] := fun hnew =>
      hreturned (List.mem_singleton.mp hnew ▸ List.mem_cons_self)
    exact ⟨functor, (List.mem_append.mp hmem).resolve_right hnew,
      fun hmem => hreturned (List.mem_cons_of_mem _ hmem), hown⟩
  | wakeup functor =>
    simp only [EventLoop.step]
    split
    · exact { h with awake := fun _ _ => unread_wakeup s }
    · exact h
  | queue =>
    simp only [EventLoop.step]
    split
    · exact h
    next hown =>
    split
    · split
      · next hrunning =>
        refine { h with
          ordered := h.pushed, settled := fun hphase => absurd hrunning hphase
          awake := fun hphase hwaiting => h.awake hphase ?_ }
        obtain ⟨functor, hmem, hreturned, hcalled⟩ := hwaiting
        have hnew : functor ∉ [s.pushed] := fun hnew =>
          hcalled (congrArg some (List.mem_singleton.mp hnew).symm)
        exact ⟨functor, (List.mem_append.mp hmem).resolve_right hnew, hreturned,
          fun hsome => hown (hsome ▸ Option.some_ne_none functor)⟩
      · exact h
    · split
      · next hhandling =>
        exact { h with
          ordered := h.pushed
          awake := fun hphase => absurd hphase (not_awake (.inl hhandling)) }
      · exact h
  | wakeupOwn =>
    simp only [EventLoop.step]
    split
    · exact h
    · exact { h with
        settled := fun hphase => ⟨(h.settled hphase).1, rfl⟩
        awake := fun _ _ => unread_wakeup s }
  | read =>
    simp only [EventLoop.step]
    split
    · next hhandling =>
      exact { h with
        awake := fun hphase => absurd hphase (not_awake (.inl hhandling)) }
    · exact h
  | quit => exact { h with left := fun _ => rfl }
  | wakeupQuit => exact { h with awake := fun _ _ => unread_wakeup s }
  | poll =>
    simp only [EventLoop.step]
    split
    · next hpolling =>
      have hcalling := h.calling
      rw [hpolling] at hcalling
      exact { h with
        settled := fun _ => h.settled (by rw [hpolling]; decide)
        calling := hcalling
        awake := fun hphase => absurd hphase (not_awake (.inl rfl))
        left := fun hphase => Phase.noConfusion hphase }
    · exact h
  | call =>
    simp only [EventLoop.step]
    split
    · next hhandling =>
      exact { h with
        settled := fun _ => h.settled (by rw [hhandling]; decide)
        calling := rfl
        awake := fun hphase => absurd hphase (not_awake (.inr rfl))
        left := fun hphase => Phase.noConfusion hphase }
    · exact h
  | swap =>
    simp only [EventLoop.step]
    split
    · next hcalling =>
      have hordered := h.ordered
      rw [(h.settled (by rw [hcalling]; decide)).1] at hordered
      refine
        { ordered := by simpa using hordered
          settled := fun hphase => absurd rfl hphase
          calling := by rw [h.calling, hcalling]; rfl
          awake := fun _ hwaiting => ?_
          left := fun hphase => Phase.noConfusion hphase }
      obtain ⟨functor, hmem, _⟩ := hwaiting
      cases hmem
    · exact h
  | execute =>
    simp only [EventLoop.step]
    split
    · next functor functors hfunctors =>
      split
      · next hrunning =>
        have hordered := h.ordered
        rw [hfunctors] at hordered
        exact { h with
          ordered := by simpa using hordered
          settled := fun hphase => absurd hrunning.1 hphase }
      · exact h
    · exact h
  | finish =>
    simp only [EventLoop.step]
    split
    · next hdone =>
      refine { h with
        settled := fun _ => ⟨hdone.2.2, hdone.2.1⟩
        calling := ?_
        awake := fun _ hwaiting => h.awake (.inr hdone.1) hwaiting
        left := ?_ }
      all_goals cases s.quit
      · rfl
      · rfl
      · exact fun hphase => Phase.noConfusion hphase
      · exact fun _ => rfl
    · exact h

theorem Good.run (h : Good s) (steps : List Step) : Good (run s steps) := by
  induction steps generalizing s with
  | nil => exact h
  | cons next steps ih => exact ih (h.step next)

theorem Good.step_pushed (h : Good s) (next : Step) :
    (EventLoop.step s next).pushed = s.pushed + if next.Pushes s then 1 else 0 := by
  cases next with
  | push => rfl
  | queue =>
    have hcalling := h.calling
    simp only [EventLoop.step, Step.Pushes]
    by_cases hown : s.own = none
    case neg => simp [hown]
    by_cases hrunning : s.phase = .running
    · simp [hown, hcalling, hrunning, Loop.push]
    · by_cases hhandling : s.phase = .handling
      · simp [hown, hcalling, hhandling, Loop.push]
      · simp [hown, hrunning, hhandling]
  | execute =>
    simp only [EventLoop.step, Step.Pushes]
    split
    · split <;> rfl
    · rfl
  | quit => rfl
  | wakeupQuit => rfl
  | _ =>
    simp only [EventLoop.step, Step.Pushes]
    split <;> rfl

theorem Good.run_pushed (h : Good s) (steps : List Step) :
    (EventLoop.run s steps).pushed = s.pushed + pushes s steps := by
  induction steps generalizing s with
  | nil => rfl
  | cons next steps ih =>
    have hrest := ih (h.step next)
    rw [h.step_pushed next, Nat.add_assoc] at hrest
    exact hrest

/-! ## Rounds -/

/-- After `n` pushes and `r` rounds: the next round may have swapped before, but the one
after it runs all `n` functors. -/
structure Kept (n r : Nat) (s : Loop) : Prop where
  rounds : r ≤ s.rounds
  pushed : n ≤ s.pushed
  taken : r < s.rounds → s.phase = .running → n ≤ s.executed.length + s.functors.length
  served : r + 1 < s.rounds → n ≤ s.executed.length

variable {n r : Nat}

theorem Kept.step (h : Kept n r s) (hgood : Good s) (next : Step) :
    Kept n r (EventLoop.step s next) := by
  cases next with
  | push => exact { h with pushed := Nat.le_succ_of_le h.pushed }
  | queue =>
    simp only [EventLoop.step]
    repeat' split
    all_goals first
      | exact h
      | exact { h with pushed := Nat.le_succ_of_le h.pushed }
  | poll | call =>
    simp only [EventLoop.step]
    split
    · exact { h with taken := fun _ hphase => Phase.noConfusion hphase }
    · exact h
  | swap =>
    simp only [EventLoop.step]
    split
    · next hcalling =>
      have hlength := congrArg List.length hgood.ordered
      rw [(hgood.settled (by rw [hcalling]; decide)).1] at hlength
      simp only [List.append_nil, List.length_append, List.length_range] at hlength
      exact { h with taken := fun _ _ => hlength ▸ h.pushed }
    · exact h
  | execute =>
    simp only [EventLoop.step]
    split
    · next functor functors hfunctors =>
      split
      · have hlength : s.functors.length = functors.length + 1 := by
          rw [hfunctors, List.length_cons]
        refine { h with taken := fun hrounds hphase => ?_, served := fun hrounds => ?_ }
        · have := h.taken hrounds hphase
          simp only [List.length_append, List.length_singleton]
          omega
        · have := h.served hrounds
          simp only [List.length_append, List.length_singleton]
          omega
      · exact h
    · exact h
  | finish =>
    simp only [EventLoop.step]
    split
    · next hdone =>
      refine
        { rounds := Nat.le_succ_of_le h.rounds
          pushed := h.pushed
          taken := fun _ hphase => ?_
          served := fun hrounds => ?_ }
      · cases hquit : s.quit <;> simp [hquit] at hphase
      · have htaken := h.taken (Nat.lt_of_succ_lt_succ hrounds) hdone.1
        rwa [hdone.2.2, List.length_nil, Nat.add_zero] at htaken
    · exact h
  | wakeup functor | read =>
    simp only [EventLoop.step]
    split
    · exact { h with }
    · exact h
  | wakeupOwn =>
    simp only [EventLoop.step]
    split
    · exact h
    · exact { h with }
  | quit => exact { h with }
  | wakeupQuit => exact { h with }

theorem Kept.run (h : Kept n r s) (hgood : Good s) (steps : List Step) :
    Kept n r (EventLoop.run s steps) := by
  induction steps generalizing s with
  | nil => exact h
  | cons next steps ih => exact ih (h.step hgood next) (hgood.step next)

/-- The steps that the thread of the loop takes by itself. -/
def Step.OfLoop : Step → Prop
  | .poll | .call | .swap | .execute | .finish | .wakeupOwn => True
  | _ => False

/-- The thread of the loop alone can end the round. -/
def EndsRound (s : Loop) : Prop :=
  ∃ steps, (∀ next ∈ steps, next.OfLoop) ∧ (run s steps).rounds = s.rounds + 1

theorem EndsRound.of_step (next : Step) (hloop : next.OfLoop) {s' : Loop}
    (hstep : step s next = s') (hrounds : s'.rounds = s.rounds) (h : EndsRound s') :
    EndsRound s := by
  obtain ⟨steps, hsteps, hend⟩ := h
  refine ⟨next :: steps, ?_, ?_⟩
  · rintro other (_ | ⟨_, hother⟩)
    · exact hloop
    · exact hsteps other hother
  · rw [run, List.foldl_cons, hstep, ← run, hend, hrounds]

theorem ends_of_running (hphase : s.phase = .running) (hown : s.own = none) : EndsRound s := by
  induction hfunctors : s.functors generalizing s with
  | nil =>
    refine ⟨[.finish], fun next hnext => ?_, ?_⟩
    · cases List.mem_singleton.mp hnext
      trivial
    · simp [run, step, hphase, hown, hfunctors]
  | cons functor functors ih =>
    have hstep : step s .execute =
        { s with functors := functors, executed := s.executed ++ [functor] } := by
      simp only [step, hfunctors, if_pos (And.intro hphase hown)]
    exact .of_step .execute trivial hstep rfl (ih hphase hown rfl)

theorem Good.ends (h : Good s) (hleft : s.phase ≠ .left) : EndsRound s := by
  have hcalling {s : Loop} (hphase : s.phase = .calling) (hown : s.own = none) : EndsRound s :=
    .of_step .swap trivial (if_pos hphase) rfl (ends_of_running rfl hown)
  have hhandling {s : Loop} (hphase : s.phase = .handling) (hown : s.own = none) : EndsRound s :=
    .of_step .call trivial (if_pos hphase) rfl (hcalling rfl hown)
  cases hphase : s.phase with
  | polling =>
    have hown := (h.settled (by rw [hphase]; decide)).2
    exact .of_step .poll trivial (if_pos hphase) rfl (hhandling rfl hown)
  | handling => exact hhandling hphase (h.settled (by rw [hphase]; decide)).2
  | calling => exact hcalling hphase (h.settled (by rw [hphase]; decide)).2
  | running =>
    by_cases hown : s.own = none
    · exact ends_of_running hphase hown
    · exact .of_step .wakeupOwn trivial (if_neg hown) rfl (ends_of_running hphase rfl)
  | left => exact absurd hphase hleft

/-- What the loop does for the functors queued so far. -/
structure Served (s : Loop) : Prop where
  /-- They are run in the order of the pushes, each once. -/
  ordered : s.executed ++ s.functors ++ s.pendingFunctors = List.range s.pushed
  /-- A poll does not overlook them. -/
  awake : s.phase = .polling → Waiting s → 0 < s.unread
  /-- Two rounds later all of them have been run. -/
  executed : ∀ later, s.rounds + 1 < (run s later).rounds →
    ∀ functor < s.pushed, functor ∈ (run s later).executed
  /-- The loop goes from round to round until it is left, which takes a `quit`. -/
  ends : s.phase ≠ .left → EndsRound s
  left : s.phase = .left → s.quit = true

theorem functors_served (unread : Nat) (steps : List Step) :
    (run { unread := unread } steps).pushed = pushes { unread := unread } steps ∧
      Served (run { unread := unread } steps) := by
  have hstart : Good { unread := unread } :=
    ⟨rfl, fun _ => ⟨rfl, rfl⟩, rfl, fun _ hwaiting => absurd hwaiting (by simp [Waiting]),
      fun hphase => Phase.noConfusion hphase⟩
  have hgood := hstart.run steps
  refine ⟨(hstart.run_pushed steps).trans (Nat.zero_add _), ?_⟩
  constructor
  case ordered => exact hgood.ordered
  case awake => exact fun hphase => hgood.awake (.inl hphase)
  case executed =>
    intro later hrounds functor hfunctor
    generalize run { unread := unread } steps = s at hgood hrounds hfunctor ⊢
    have hkept : Kept s.pushed s.rounds s :=
      ⟨le_rfl, le_rfl, fun h => absurd h (Nat.lt_irrefl _),
        fun h => absurd h (Nat.not_lt.mpr (Nat.le_succ _))⟩
    have hlater := (hkept.run hgood later).served hrounds
    have hordered := (hgood.run later).ordered
    have hmem : functor ∈ (List.range (run s later).pushed).take (run s later).executed.length := by
      rw [List.take_range, List.mem_range]
      have hlength := congrArg List.length hordered
      simp only [List.length_append, List.length_range] at hlength
      omega
    rwa [← hordered, List.append_assoc, List.take_left] at hmem
  case ends => exact hgood.ends
  case left => exact hgood.left

end NebulaIM.Net.EventLoop
