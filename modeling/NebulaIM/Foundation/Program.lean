import Mathlib.Data.List.Basic
import Mathlib.Logic.Basic

/-!
# Programs that call an environment

A program either returns or issues one call and continues with the answer.
The calls are left uninterpreted here: an oracle answers them in a single run
(`eval`, `trace`), and `Foundation.Interleaving` runs many programs against one
shared world.
-/

namespace Foundation

/-- A program over the calls `Op`, whose call `op` is answered in `Res op`. -/
inductive Prog (Op : Type) (Res : Op → Type) (α : Type) where
  | ret (value : α)
  | call (op : Op) (next : Res op → Prog Op Res α)

namespace Prog

variable {Op : Type} {Res : Op → Type} {α β : Type}

def bind : Prog Op Res α → (α → Prog Op Res β) → Prog Op Res β
  | .ret value, f => f value
  | .call op next, f => .call op fun answer => (next answer).bind f

instance : Monad (Prog Op Res) where
  pure := .ret
  bind := .bind

def perform (op : Op) : Prog Op Res (Res op) := .call op .ret

@[simp] theorem pure_eq_ret (value : α) :
    (pure value : Prog Op Res α) = .ret value := rfl

@[simp] theorem ret_bind (value : α) (f : α → Prog Op Res β) :
    (Prog.ret value >>= f) = f value := rfl

@[simp] theorem call_bind (op : Op) (next : Res op → Prog Op Res α) (f : α → Prog Op Res β) :
    (Prog.call op next >>= f) = .call op fun answer => next answer >>= f := rfl

theorem perform_bind (op : Op) (f : Res op → Prog Op Res β) : (perform op >>= f) = .call op f := rfl

/-! ## A single run under an oracle -/

/-- The value returned when `answer` answers every call. -/
def eval (answer : (op : Op) → Res op) : Prog Op Res α → α
  | .ret value => value
  | .call op next => (next (answer op)).eval answer

/-- The calls issued, in order, when `answer` answers every call. -/
def trace (answer : (op : Op) → Res op) : Prog Op Res α → List Op
  | .ret _ => []
  | .call op next => op :: (next (answer op)).trace answer

@[simp] theorem eval_ret (answer : (op : Op) → Res op) (value : α) :
    (Prog.ret value : Prog Op Res α).eval answer = value := rfl

@[simp] theorem eval_call (answer : (op : Op) → Res op) (op : Op) (next : Res op → Prog Op Res α) :
    (Prog.call op next).eval answer = (next (answer op)).eval answer := rfl

@[simp] theorem trace_ret (answer : (op : Op) → Res op) (value : α) :
    (Prog.ret value : Prog Op Res α).trace answer = [] := rfl

@[simp] theorem trace_call (answer : (op : Op) → Res op) (op : Op) (next : Res op → Prog Op Res α) :
    (Prog.call op next).trace answer = op :: (next (answer op)).trace answer := rfl

@[simp] theorem eval_bind (answer : (op : Op) → Res op) (p : Prog Op Res α)
    (f : α → Prog Op Res β) :
    (p >>= f).eval answer = (f (p.eval answer)).eval answer := by
  induction p with
  | ret value => rfl
  | call op next ih => exact ih (answer op)

@[simp] theorem trace_bind (answer : (op : Op) → Res op) (p : Prog Op Res α)
    (f : α → Prog Op Res β) :
    (p >>= f).trace answer = p.trace answer ++ (f (p.eval answer)).trace answer := by
  induction p with
  | ret value => rfl
  | call op next ih =>
    simp only [call_bind, trace_call, eval_call, List.cons_append]
    exact congrArg (List.cons op) (ih (answer op))

end Prog

end Foundation
