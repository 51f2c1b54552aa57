import NebulaIM.Foundation.Program

/-!
# Programs that run alone

Without other threads a program is a function of the world and of the choices
that resolve its calls, one after another.  `Ensures` is the weakest
precondition of such a run: it follows the program call by call, and `guard`
limits the choices.
-/

namespace Foundation

variable {Op : Type} {Res : Op → Type} {World Choice α β : Type}
variable {exec : World → (op : Op) → Choice → World × Res op}
variable {guard : World → Op → Choice → Prop}

/-- The world and the value at the end; the call number `n` gets `choices n`. -/
def Prog.solo (exec : World → (op : Op) → Choice → World × Res op) :
    Prog Op Res α → World → (Nat → Choice) → World × α
  | .ret value, world, _ => (world, value)
  | .call op next, world, choices =>
    (next (exec world op (choices 0)).2).solo exec
      (exec world op (choices 0)).1 fun n => choices (n + 1)

/-- Every call of the run meets the guard. -/
def Prog.Meets (exec : World → (op : Op) → Choice → World × Res op)
    (guard : World → Op → Choice → Prop) :
    Prog Op Res α → World → (Nat → Choice) → Prop
  | .ret _, _, _ => True
  | .call op next, world, choices =>
    guard world op (choices 0) ∧ (next (exec world op (choices 0)).2).Meets exec guard
        (exec world op (choices 0)).1 fun n => choices (n + 1)

instance Prog.decidableMeets [∀ world op choice, Decidable (guard world op choice)] :
    (p : Prog Op Res α) → (world : World) → (choices : Nat → Choice) →
      Decidable (p.Meets exec guard world choices)
  | .ret _, _, _ => .isTrue trivial
  | .call op next, world, choices =>
    have := decidableMeets (next (exec world op (choices 0)).2)
      (exec world op (choices 0)).1 fun n => choices (n + 1)
    inferInstanceAs (Decidable (_ ∧ _))

theorem Prog.meets_true (p : Prog Op Res α) (world : World)
    (choices : Nat → Choice) : p.Meets exec (fun _ _ _ => True) world choices := by
  induction p generalizing world choices with
  | ret value => trivial
  | call op next ih => exact ⟨trivial, ih _ _ _⟩

theorem Prog.meets_const {choice : Choice} (h : ∀ world op, guard world op choice)
    (p : Prog Op Res α) (world : World) :
    p.Meets exec guard world fun _ => choice := by
  induction p generalizing world with
  | ret value => trivial
  | call op next ih => exact ⟨h world op, ih _ _⟩

/-- Every run from `world` whose calls meet the guard ends in `post`. -/
def Ensures (exec : World → (op : Op) → Choice → World × Res op)
    (guard : World → Op → Choice → Prop) (post : α → World → Prop) :
    Prog Op Res α → World → Prop
  | .ret value, world => post value world
  | .call op next, world =>
    ∀ choice, guard world op choice → Ensures exec guard post (next (exec world op choice).2)
        (exec world op choice).1

variable {p : Prog Op Res α}

namespace Ensures

variable {post : α → World → Prop} {world : World}

theorem sound (h : Ensures exec guard post p world)
    {choices : Nat → Choice} (hmeets : p.Meets exec guard world choices) :
    post (p.solo exec world choices).2 (p.solo exec world choices).1 := by
  induction p generalizing world choices with
  | ret value => exact h
  | call op next ih => exact ih _ (h (choices 0) hmeets.1) hmeets.2

theorem bind {mid : β → World → Prop} {p : Prog Op Res β}
    {f : β → Prog Op Res α} (hp : Ensures exec guard mid p world)
    (hf : ∀ value next, mid value next → Ensures exec guard post (f value) next) :
    Ensures exec guard post (p >>= f) world := by
  induction p generalizing world with
  | ret value => exact hf value world hp
  | call op next ih => exact fun choice hchoice => ih _ (hp choice hchoice)

theorem mono {weaker : α → World → Prop} (h : Ensures exec guard post p world)
    (himp : ∀ value next, post value next → weaker value next) :
    Ensures exec guard weaker p world := by
  induction p generalizing world with
  | ret value => exact himp value world h
  | call op next ih => exact fun choice hchoice => ih _ (h choice hchoice)

theorem and {other : α → World → Prop} (h₁ : Ensures exec guard post p world)
    (h₂ : Ensures exec guard other p world) :
    Ensures exec guard (fun value next => post value next ∧ other value next) p
      world := by
  induction p generalizing world with
  | ret value => exact ⟨h₁, h₂⟩
  | call op next ih => exact fun choice hchoice => ih _ (h₁ choice hchoice) (h₂ choice hchoice)

end Ensures

/-! ## Watching the guard

`Ensures` speaks of the runs that meet the guard.  To tell them from the others,
the calls are watched: a flag stays set as long as each of them meets it. -/

section Watched

variable [∀ world op choice, Decidable (guard world op choice)]

variable (exec guard) in
def watched (state : World × Bool) (op : Op) (choice : Choice) : (World × Bool) × Res op :=
  (((exec state.1 op choice).1,
    state.2 && decide (guard state.1 op choice)), (exec state.1 op choice).2)

theorem solo_watched (p : Prog Op Res α) (world : World) (flag : Bool) (choices : Nat → Choice) :
    p.solo (watched exec guard) (world, flag) choices =
      (((p.solo exec world choices).1, flag && decide (p.Meets exec guard world choices)),
        (p.solo exec world choices).2) := by
  induction p generalizing world flag choices with
  | ret value =>
    have hmeets : decide ((Prog.ret value).Meets exec guard world choices) = true :=
      decide_eq_true trivial
    simp only [Prog.solo, hmeets, Bool.and_true]
  | call op next ih =>
    have hmeets : decide ((Prog.call op next).Meets exec guard world choices) =
        (decide (guard world op (choices 0)) &&
          decide ((next (exec world op (choices 0)).2).Meets exec guard
            (exec world op (choices 0)).1 fun n => choices (n + 1))) := by
      rw [← Bool.decide_and]
      exact decide_eq_decide.mpr Iff.rfl
    simp only [Prog.solo, watched, ih, hmeets, Bool.and_assoc]

theorem Ensures.watched {post : α → World × Bool → Prop} {world : World}
    (h : Ensures (Foundation.watched exec guard) (fun _ _ _ => True) post p (world, true))
    (choices : Nat → Choice) :
    post (p.solo exec world choices).2
      ((p.solo exec world choices).1,
        decide (p.Meets exec guard world choices)) := by
  have hsound := h.sound (p.meets_true (world, true) choices)
  rw [solo_watched, Bool.true_and] at hsound
  exact hsound

end Watched

/-! ## Programs that stay within some calls -/

/-- The program issues no call outside `allowed`, whatever it is answered. -/
def Prog.Only (allowed : Op → Prop) : Prog Op Res α → Prop
  | .ret _ => True
  | .call op next => allowed op ∧ ∀ answer, (next answer).Only allowed

theorem Prog.Only.bind {allowed : Op → Prop} {p : Prog Op Res β} {f : β → Prog Op Res α}
    (hp : p.Only allowed) (hf : ∀ value, (f value).Only allowed) : (p >>= f).Only allowed := by
  induction p with
  | ret value => exact hf value
  | call op next ih => exact ⟨hp.1, fun answer => ih answer (hp.2 answer)⟩

theorem Prog.Only.mono {allowed weaker : Op → Prop}
    (h : p.Only allowed) (himp : ∀ {op}, allowed op → weaker op) : p.Only weaker := by
  induction p with
  | ret value => trivial
  | call op next ih => exact ⟨himp h.1, fun answer => ih answer (h.2 answer)⟩

theorem Ensures.keeps {allowed : Op → Prop} {inv : World → Prop}
    (hcall : ∀ {world op choice}, allowed op → guard world op choice →
      inv world → inv (exec world op choice).1)
    (hp : p.Only allowed) {world : World}
    (hworld : inv world) :
    Ensures exec guard (fun _ => inv) p world := by
  induction p generalizing world with
  | ret value => exact hworld
  | call op next ih =>
    intro choice hchoice
    exact ih _ (hp.2 _) (hcall hp.1 hchoice hworld)

theorem Prog.only_true (p : Prog Op Res α) : p.Only fun _ => True := by
  induction p with
  | ret value => trivial
  | call op next ih => exact ⟨trivial, ih⟩

end Foundation
