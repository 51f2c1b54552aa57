import NebulaIM.Foundation.Interleaving
import NebulaIM.Foundation.Sequential

/-!
# Programs and the history of their calls

`Along` judges a program by the calls it issues after what it has been answered
before, whatever the answers are and without a world.  `Triple.of_along` turns
this into safety in a pool: it is enough to say what a recorded history means for
the world, that the other threads leave that meaning alone, and that every call
that is allowed extends it.  `Records` draws another conclusion from such a meaning:
whatever it implies of the next call holds in every run.
-/

namespace Foundation

variable {Op : Type} {Res : Op → Type} {α β : Type}

/-- A call with its answer. -/
structure Exchange (Op : Type) (Res : Op → Type) where
  op : Op
  answer : Res op

/-- Newest first. -/
abbrev Past (Op : Type) (Res : Op → Type) := List (Exchange Op Res)

/-- After `past`, every call is allowed at its time, and a returned value
satisfies `post` together with the history at the end. -/
def Prog.Along (allowed : Past Op Res → Op → Prop) (post : Past Op Res → α → Prop) :
    Prog Op Res α → Past Op Res → Prop
  | .ret value, past => post past value
  | .call op next, past =>
    allowed past op ∧ ∀ answer, (next answer).Along allowed post (⟨op, answer⟩ :: past)

namespace Prog.Along

variable {allowed : Past Op Res → Op → Prop} {past : Past Op Res}
variable {post : Past Op Res → α → Prop}

theorem bind {mid : Past Op Res → β → Prop} {p : Prog Op Res β}
    {f : β → Prog Op Res α} (hp : p.Along allowed mid past)
    (hf : ∀ now value, mid now value → (f value).Along allowed post now) :
    (p >>= f).Along allowed post past := by
  induction p generalizing past with
  | ret value => exact hf past value hp
  | call op next ih => exact ⟨hp.1, fun answer => ih answer (hp.2 answer)⟩

theorem mono {weaker : Past Op Res → α → Prop} {p : Prog Op Res α} (h : p.Along allowed post past)
    (himp : ∀ now value, post now value → weaker now value) :
    p.Along allowed weaker past := by
  induction p generalizing past with
  | ret value => exact himp past value h
  | call op next ih => exact ⟨h.1, fun answer => ih answer (h.2 answer)⟩

end Prog.Along

/-- The calls meet one more condition. -/
def Guard.and {Req World Choice Env : Type} (guard : Guard Req Op World Choice Env)
    (more : World → Op → Prop) : Guard Req Op World Choice Env :=
  { guard with call := fun world tid op choice =>
      guard.call world tid op choice ∧ more world op }

/-! ## Safety -/

section Safety

variable {Req World Choice Env γ : Type}
variable {sys : System Req Op Res World Choice Env γ}
variable {guard : Guard Req Op World Choice Env}
variable {contract : Contract sys guard} {tid : Nat}
variable {allowed : Past Op Res → Op → Prop}
variable {recorded : Past Op Res → World → Prop}
variable {post : Past Op Res → α → Prop}

theorem Triple.of_along (hstable : ∀ past, Stable contract tid (recorded past))
    (hcall : ∀ past op, allowed past op → CallSpec contract tid (recorded past) op fun answer =>
        recorded (⟨op, answer⟩ :: past))
    {p : Prog Op Res α} {past : Past Op Res}
    (hp : p.Along allowed post past) :
    Triple contract tid (recorded past) p fun value world =>
      ∃ now, post now value ∧ recorded now world := by
  induction p generalizing past with
  | ret value => exact Triple.ret (hstable past) fun _ hworld => ⟨past, hp, hworld⟩
  | call op next ih =>
    exact Triple.call (hstable past) (hcall past op hp.1) fun answer => ih answer (hp.2 answer)

end Safety

/-! ## Conditions that the code meets by itself -/

/-- What the history of each thread means for the world is kept by the calls that are
allowed, and implies `more` of the next one. -/
structure Records {Req World Choice Env γ : Type} (sys : System Req Op Res World Choice Env γ)
    (guard : Guard Req Op World Choice Env) (allowed : Past Op Res → Op → Prop) (inv : World → Prop)
    (recorded : Nat → Past Op Res → World → Prop) (more : World → Op → Prop) :
    Prop where
  code : ∀ req, (sys.code req).Along allowed (fun _ _ => True) []
  nil : ∀ tid world, recorded tid [] world
  more : ∀ {world tid past op}, inv world → recorded tid past world → allowed past op →
    more world op
  call : ∀ {world tid past op choice}, inv world → recorded tid past world →
    allowed past op → guard.call world tid op choice →
    inv (sys.exec world tid op choice).1 ∧
      recorded tid (⟨op, (sys.exec world tid op choice).2⟩ :: past)
        (sys.exec world tid op choice).1 ∧
      ∀ other history, other ≠ tid → recorded other history world →
        recorded other history (sys.exec world tid op choice).1
  env : ∀ {world event}, inv world → inv (sys.env world event) ∧
    ∀ tid past, recorded tid past world → recorded tid past (sys.env world event)

namespace Records

variable {Req World Choice Env γ : Type}
variable {sys : System Req Op Res World Choice Env γ}
variable {guard : Guard Req Op World Choice Env}
variable {allowed : Past Op Res → Op → Prop} {inv : World → Prop}
variable {recorded : Nat → Past Op Res → World → Prop} {more : World → Op → Prop}

/-- Every thread goes on along its history. -/
structure Goes (_ : Records sys guard allowed inv recorded more)
    (pool : Pool Req Op Res World γ) : Prop where
  inv : inv pool.world
  along : ∀ {tid thread}, pool.threads[tid]? = some thread → ∃ past,
    thread.prog.Along allowed (fun _ _ => True) past ∧ recorded tid past pool.world

variable (h : Records sys guard allowed inv recorded more)
include h

theorem step {pool : Pool Req Op Res World γ} (hpool : h.Goes pool)
    {action : Action Req Choice Env} (hadmits : guard.Admits pool action) :
    (guard.and more).Admits pool action ∧ h.Goes (sys.step pool action) := by
  have heffect := sys.step_effect pool action
  generalize sys.step pool action = next at heffect ⊢
  cases heffect with
  | idle hidle choice => exact ⟨by simp only [Guard.Admits], hpool⟩
  | spawn req =>
    refine ⟨hadmits, hpool.inv, fun {tid thread} hthread => ?_⟩
    rcases getElem?_append_singleton hthread with hold | ⟨rfl, rfl⟩
    · exact hpool.along hold
    · exact ⟨[], h.code req, h.nil _ _⟩
  | env event =>
    refine ⟨hadmits, (h.env hpool.inv).1, fun hthread => ?_⟩
    obtain ⟨past, halong, hrecorded⟩ := hpool.along hthread
    exact ⟨past, halong, (h.env hpool.inv).2 _ past hrecorded⟩
  | call hthread choice =>
    simp only [Guard.Admits, hthread] at hadmits ⊢
    obtain ⟨past, halong, hrecorded⟩ := hpool.along hthread
    obtain ⟨hinv, hown, hothers⟩ := h.call hpool.inv hrecorded halong.1 hadmits
    refine ⟨⟨hadmits, h.more hpool.inv hrecorded halong.1⟩, hinv, fun {other found} hfound => ?_⟩
    rcases getElem?_set_cases hfound with ⟨rfl, rfl⟩ | ⟨hne, hold⟩
    · exact ⟨_, halong.2 _, hown⟩
    · obtain ⟨history, hprog, hold⟩ := hpool.along hold
      exact ⟨history, hprog, hothers other history (Ne.symm hne) hold⟩

theorem run {pool : Pool Req Op Res World γ} (hpool : h.Goes pool)
    {actions : List (Action Req Choice Env)} (hrun : guard.AdmitsRun sys pool actions) :
    (guard.and more).AdmitsRun sys pool actions ∧ h.Goes (sys.run pool actions) := by
  induction actions generalizing pool with
  | nil => exact ⟨trivial, hpool⟩
  | cons action actions ih =>
    obtain ⟨hadmits, hnext⟩ := h.step hpool hrun.1
    exact ⟨⟨hadmits, (ih hnext hrun.2).1⟩, (ih hnext hrun.2).2⟩

/-- The same for a program that runs alone. -/
theorem solo {tid : Nat} {p : Prog Op Res α} {past : Past Op Res}
    (hp : p.Along allowed (fun _ _ => True) past) {world : World} (hinv : inv world)
    (hrecorded : recorded tid past world) {choices : Nat → Choice}
    (hmeets : p.Meets (fun world => sys.exec world tid)
      (fun world op choice => guard.call world tid op choice) world choices) :
    p.Meets (fun world => sys.exec world tid)
        (fun world op choice => (guard.and more).call world tid op choice) world choices ∧
      inv (p.solo (fun world => sys.exec world tid) world choices).1 := by
  induction p generalizing past world choices with
  | ret value => exact ⟨trivial, hinv⟩
  | call op next ih =>
    obtain ⟨hnext, hown, _⟩ := h.call hinv hrecorded hp.1 hmeets.1
    have hrest := ih _ (hp.2 _) hnext hown hmeets.2
    exact ⟨⟨⟨hmeets.1, h.more hinv hrecorded hp.1⟩, hrest.1⟩, hrest.2⟩

end Records

end Foundation
