import NebulaIM.Services.Contract
import NebulaIM.Outbox.Rules

/-!
# Specifications of the calls

Calls that commit nothing are steps; a commit and a statement outside a
transaction are steps if they commit a unit of work.
-/

namespace NebulaIM.Services

open Foundation Foundation.Store
open Backend Protocol
open NebulaIM.Outbox (Steady Serves)

variable {config : Config} {tid : Nat}

/-! ## Calls that commit nothing -/

theorem exec_produced (op : Op) (w : World) (choice : Choice) :
    w.produced <:+ (w.exec tid op choice).1.produced := by
  cases op with
  | produce eventId topic key payload =>
    simp only [World.exec]
    split
    · exact List.suffix_cons _ _
    · exact List.suffix_refl _
  | redisSetEx key ttlSeconds value =>
    simp only [World.exec]
    split <;> exact List.suffix_refl _
  | _ => exact List.suffix_refl _

theorem exec_tokens (op : Op) (w : World) (choice : Choice) :
    w.tokens <:+ (w.exec tid op choice).1.tokens := by
  cases op with
  | generateTraceId => exact List.suffix_cons _ _
  | redisSetEx key ttlSeconds value | produce eventId topic key payload =>
    simp only [World.exec]
    split <;> exact List.suffix_refl _
  | _ => exact List.suffix_refl _

theorem quiet_step (op : Op) (hop : Quiet op) (w : World) (choice : Choice) :
    Step config tid w (w.exec tid op choice).1 where
  moves := w.exec_moves tid op choice
  effect := .inl (quiet_same op hop w choice)
  produced := exec_produced op w choice
  tokens := exec_tokens op w choice

theorem serves : Serves (contract config) tid id where
  world _ _ _ := rfl
  answer _ _ _ := rfl
  keyed hinv := hinv.keyed
  rely hrely := hrely.engine
  quiet hop hinv _ := ⟨hinv.step (quiet_step _ hop _ _), quiet_step _ hop _ _⟩

theorem steady_of_grows {fact : World → Prop}
    (h : ∀ {w w' : World}, fact w → Grows w w' → fact w') :
    Steady (contract config) tid fact where
  stable _ _ hfact _ hrely _ := h hfact hrely.grows
  quiet {w op} choice hop hfact := by
    have hstep : Step config tid w (w.exec tid op choice).1 := quiet_step op hop w choice
    exact h hfact hstep.grows

/-! ## Commits -/

theorem commit_step {w : World} (choice : Choice)
    (hwork : ∀ {tx}, w.sql.txs.lookup tid = some tx → Work config w tid tx.writes) :
    Step config tid w (w.exec tid .commit choice).1 := by
  have hmoves := w.exec_moves tid .commit choice
  rcases w.commit_cases tid choice with h | ⟨tx, ok, hopen, h⟩ <;> rw [h] at hmoves ⊢
  · exact .refl config tid w
  · exact ⟨hmoves, .inr ⟨_, hwork hopen, rfl, rfl, rfl, rfl⟩, List.suffix_refl _,
      List.suffix_refl _⟩

theorem query_step {w : World} {stmt : Stmt} (choice : Choice)
    (hwork : ∀ locked, (stmt.plan choice w.db locked).writes ≠ [] →
      Work config w tid (stmt.plan choice w.db locked).writes) :
    Step config tid w (w.exec tid (.query stmt) choice).1 := by
  have hmoves := w.exec_moves tid (.query stmt) choice
  rcases w.query_cases tid stmt choice with h | ⟨locked, _, h⟩ |
    ⟨locked, answer, hwrites, _, h⟩ <;> rw [h] at hmoves ⊢
  · exact .refl config tid w
  · exact .refl config tid w
  · exact ⟨hmoves, .inr ⟨_, hwork locked hwrites, rfl, rfl, rfl, rfl⟩,
      List.suffix_refl _, List.suffix_refl _⟩

/-! ## Statements outside transactions -/

section Queries

variable {pre : World → Prop} {stmt : Stmt} {mid : stmt.Res → World → Prop}

theorem spec_query (hpre : Stable (contract config) tid pre)
    (hwork : ∀ {w} choice locked, Inv config w → pre w →
      (stmt.plan choice w.db locked).writes ≠ [] →
      Work config w tid (stmt.plan choice w.db locked).writes)
    (hmid : ∀ {w} choice, Inv config w → pre w →
      mid (w.exec tid (.query stmt) choice).2 (w.exec tid (.query stmt) choice).1)
    (hstable : ∀ answer, Stable (contract config) tid (mid answer)) :
    Triple (contract config) tid pre (query stmt) mid := by
  refine Triple.perform hpre (fun w choice hinv hw _ => ?_) hstable
  have hstep : Step config tid w (w.exec tid (.query stmt) choice).1 :=
    query_step choice fun locked => hwork choice locked hinv hw
  exact ⟨hinv.step hstep, hstep, hmid choice hinv hw⟩

theorem spec_read (hreads : ∀ choice db locked, (stmt.plan choice db locked).writes = [])
    (hpre : Stable (contract config) tid pre) (hfailed : ∀ {w}, pre w → mid stmt.failed w)
    (hmid : ∀ {w} choice locked, Inv config w → pre w → mid (stmt.plan choice w.db locked).result w)
    (hstable : ∀ answer, Stable (contract config) tid (mid answer)) :
    Triple (contract config) tid pre (query stmt) mid := by
  refine spec_query hpre (fun _ _ _ _ h => absurd (hreads _ _ _) h) ?_ hstable
  intro w choice hinv hw
  rcases w.query_cases tid stmt choice with h | ⟨locked, _, h⟩ | ⟨_, _, hwrites, _⟩
  · rw [h]
    exact hfailed hw
  · rw [h]
    exact hmid choice locked hinv hw
  · exact absurd (hreads _ _ _) hwrites

end Queries

end NebulaIM.Services
