import Mathlib.Data.List.Perm.Basic

/-!
# Operations that merge

Operations that commute and absorb their own repetition leave the same state
behind in every order and however often each is repeated: only the set of the
operations counts.
-/

namespace Foundation

variable {State Op : Type} {step : State → Op → State} {ok : Op → Prop}

/-- The operations that satisfy `ok` commute, and repeating one changes nothing. -/
structure Merging (step : State → Op → State) (ok : Op → Prop) : Prop where
  comm : ∀ state {first second}, ok first → ok second →
    step (step state first) second = step (step state second) first
  idem : ∀ state {op}, ok op → step (step state op) op = step state op

namespace Merging

theorem foldl_absorb (h : Merging step ok) {ops : List Op} (hok : ∀ op ∈ ops, ok op)
    {op : Op} (hmem : op ∈ ops) (state : State) :
    ops.foldl step (step state op) = ops.foldl step state := by
  induction ops generalizing state with
  | nil => exact absurd hmem List.not_mem_nil
  | cons first ops ih =>
    have hfirst := hok first List.mem_cons_self
    rcases List.mem_cons.mp hmem with rfl | hrest
    · rw [List.foldl_cons, List.foldl_cons, h.idem state hfirst]
    · rw [List.foldl_cons, List.foldl_cons, h.comm state (hok op hmem) hfirst]
      exact ih (fun other hother => hok other (List.mem_cons_of_mem _ hother)) hrest _

theorem foldl_step (h : Merging step ok) {ops : List Op} (hok : ∀ op ∈ ops, ok op)
    {op : Op} (hop : ok op) (state : State) :
    step (ops.foldl step state) op = ops.foldl step (step state op) := by
  induction ops generalizing state with
  | nil => rfl
  | cons first ops ih =>
    have hfirst := hok first List.mem_cons_self
    rw [List.foldl_cons, List.foldl_cons, h.comm state hop hfirst]
    exact ih (fun other hother => hok other (List.mem_cons_of_mem _ hother)) _

theorem foldl_repeat (h : Merging step ok) {ops : List Op} (hok : ∀ op ∈ ops, ok op)
    {again : List Op} (hsub : again ⊆ ops) (state : State) :
    again.foldl step (ops.foldl step state) = ops.foldl step state := by
  induction again with
  | nil => rfl
  | cons op again ih =>
    obtain ⟨hmem, hrest⟩ := List.cons_subset.mp hsub
    rw [List.foldl_cons, h.foldl_step hok (hok op hmem), h.foldl_absorb hok hmem]
    exact ih hrest

theorem foldl_congr (h : Merging step ok) {ops ops' : List Op}
    (hok : ∀ op ∈ ops, ok op) (hsame : ∀ op, op ∈ ops ↔ op ∈ ops') (state : State) :
    ops.foldl step state = ops'.foldl step state := by
  have hok' : ∀ op ∈ ops', ok op := fun op hmem => hok op ((hsame op).mpr hmem)
  have hcomm : ∀ first ∈ ops ++ ops', ∀ second ∈ ops ++ ops', ∀ state,
      step (step state first) second = step (step state second) first := by
    intro first hfirst second hsecond state
    exact h.comm state ((List.mem_append.mp hfirst).elim (hok first) (hok' first))
      ((List.mem_append.mp hsecond).elim (hok second) (hok' second))
  calc
    ops.foldl step state = (ops ++ ops').foldl step state := by
      rw [List.foldl_append, h.foldl_repeat hok fun op => (hsame op).mpr]
    _ = (ops' ++ ops).foldl step state := List.perm_append_comm.foldl_eq' hcomm state
    _ = ops'.foldl step state := by
      rw [List.foldl_append, h.foldl_repeat hok' fun op => (hsame op).mp]

end Merging

end Foundation
