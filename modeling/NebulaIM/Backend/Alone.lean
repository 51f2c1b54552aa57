import NebulaIM.Backend.Rows

/-!
# Handlers that run alone

Rules for a handler whose client is the only one with a transaction: it is
followed call by call, and each call either fails or does what its plan says.
What is proved of the end speaks of the answer and of the committed rows.
-/

namespace NebulaIM.Backend

open Foundation Foundation.Store

variable {stmt : Stmt}
variable {client : Nat} {guard : World → Op → Choice → Prop} {α : Type}
variable {post : α → Db → Prop} {db : Db} {w : World} {writes : List Write}

/-- Nobody but the client has a transaction open. -/
def Undisturbed (client : Nat) (w : World) : Prop :=
  ∀ other, other ≠ client → w.sql.txs.lookup other = none

/-- Every run of the client whose calls meet the guard ends with an answer and
rows in `post`. -/
abbrev Alone (client : Nat) (guard : World → Op → Choice → Prop)
    (post : α → Db → Prop) (p : Service α) (w : World) : Prop :=
  Ensures (fun w : World => w.exec client) guard
    (fun answer next => Undisturbed client next ∧ post answer next.db) p w

/-- The client is undisturbed, and the committed rows are `db`. -/
structure Rests (client : Nat) (db : Db) (w : World) : Prop where
  undisturbed : Undisturbed client w
  rows : w.db = db

/-- The client has a transaction open that has staged `writes`. -/
structure Staged (client : Nat) (db : Db) (writes : List Write) (w : World) : Prop
    extends Rests client db w where
  draft : ∃ locks, w.sql.txs.lookup client = some ⟨writes, locks⟩

theorem Undisturbed.foreignLocks (h : Undisturbed client w) : w.sql.foreignLocks client = [] := by
  have hnone : (w.sql.txs.erase client).entries = [] := by
    apply List.eq_nil_iff_forall_not_mem.mpr
    rintro ⟨other, tx⟩ hentry
    have hlookup : (w.sql.txs.erase client).lookup other = some tx :=
      AList.mem_lookup_iff.mpr hentry
    by_cases heq : other = client
    · subst heq
      rw [AList.lookup_erase] at hlookup
      cases hlookup
    · rw [AList.lookup_erase_ne heq, h other heq] at hlookup
      cases hlookup
  rw [Engine.foreignLocks, hnone, List.flatMap_nil]

theorem Undisturbed.moves {w' : World} (h : Undisturbed client w)
    (hmoves : Engine.Moves client w.sql w'.sql) : Undisturbed client w' :=
  fun other hne => (hmoves.lookup_ne hne).trans (h other hne)

theorem Rests.alone_ret {answer : α} (h : Rests client db w) (hpost : post answer db) :
    Alone client guard post (pure answer) w :=
  ⟨h.undisturbed, h.rows.symm ▸ hpost⟩

theorem alone_call {op : Op} {f : op.Res → Service α}
    (h : ∀ choice, guard w op choice → Alone client guard post (f (w.exec client op choice).2)
        (w.exec client op choice).1) :
    Alone client guard post (call op >>= f) w :=
  h

/-- A `SELECT` outside of any transaction needs no locks. -/
theorem exec_read {result : stmt.Res} {choice : Choice}
    (hplan : ∀ locked, stmt.plan choice w.db locked = read result) :
    w.exec client (.query stmt) choice =
      (w, if choice.fault = .none then result else stmt.failed) := by
  have hplan : ∀ locked, stmt.plan choice w.sql.db locked = read result := hplan
  simp only [World.exec, Engine.autocommit, hplan, read]
  cases choice.fault <;> simp

variable {f : stmt.Res → Service α}

theorem solo_query {result : stmt.Res} {choices : Nat → Choice} (hfault : (choices 0).fault = .none)
    (hplan : ∀ choice locked, stmt.plan choice w.db locked = read result) :
    (query stmt >>= f).solo (fun w : World => w.exec client) w choices =
      (f result).solo (fun w : World => w.exec client) w fun n => choices (n + 1) := by
  change (f (w.exec client (.query stmt) (choices 0)).2).solo _
    (w.exec client (.query stmt) (choices 0)).1 _ = _
  rw [exec_read (hplan (choices 0)), if_pos hfault]

theorem Rests.alone_query {result : stmt.Res} (h : Rests client db w)
    (hplan : ∀ choice locked, stmt.plan choice db locked = read result)
    (hfail : ∀ choice, guard w (.query stmt) choice → choice.fault ≠ .none →
      Alone client guard post (f stmt.failed) w)
    (hread : Alone client guard post (f result) w) :
    Alone client guard post (query stmt >>= f) w := by
  refine alone_call fun choice hguard => ?_
  rw [exec_read (by rw [h.rows]; exact hplan choice)]
  dsimp only
  split
  · exact hread
  · next hfault => exact hfail choice hguard hfault

theorem Staged.alone_exec (h : Staged client db writes w)
    (hfail : ∀ choice next, guard w (.exec stmt) choice → choice.fault ≠ .none →
      Rests client db next → Alone client guard post (f stmt.failed) next)
    (hok : ∀ choice next, guard w (.exec stmt) choice → choice.fault = .none →
      Staged client db (writes ++
        (stmt.plan choice (applyAll (D := dialect) db writes) []).writes) next →
      Alone client guard post
        (f (stmt.plan choice (applyAll (D := dialect) db writes) []).result) next) :
    Alone client guard post (exec stmt >>= f) w := by
  refine alone_call fun choice hguard => ?_
  have hmoves : Engine.Moves client w.sql (w.exec client (.exec stmt) choice).1.sql :=
    w.sql.statement_moves client (stmt.plan_covered choice) stmt.failed choice.fault
  have hundisturbed := h.undisturbed.moves hmoves
  obtain ⟨locks, hopen⟩ := h.draft
  have hdb : w.sql.db = db := h.rows
  cases hfault : choice.fault with
  | none =>
    have hexec : w.exec client (.exec stmt) choice =
        ({ w with
            sql := w.sql.stage client ⟨writes, locks⟩
              (stmt.plan choice (applyAll (D := dialect) db writes) []) },
          (stmt.plan choice (applyAll (D := dialect) db writes) []).result) := by
      simp [World.exec, Engine.statement, hopen, hfault, hdb, h.undisturbed.foreignLocks]
    rw [hexec] at hundisturbed ⊢
    exact hok choice _ hguard hfault ⟨⟨hundisturbed, hdb⟩, _, AList.lookup_insert _⟩
  | refused =>
    have hexec : w.exec client (.exec stmt) choice = (w, stmt.failed) := by
      simp [World.exec, Engine.statement, hopen, hfault]
    rw [hexec]
    exact hfail choice _ hguard (by simp [hfault]) h.toRests
  | lost =>
    have hexec : w.exec client (.exec stmt) choice =
        ({ w with sql := w.sql.close client }, stmt.failed) := by
      simp [World.exec, Engine.statement, hopen, hfault]
    rw [hexec] at hundisturbed ⊢
    exact hfail choice _ hguard (by simp [hfault]) ⟨hundisturbed, hdb⟩

/-- A commit fails, succeeds, or takes effect although its reply is lost. -/
theorem Staged.alone_commit {f : Bool → Service α} (h : Staged client db writes w)
    (hfail : ∀ choice next, guard w .commit choice → choice.fault ≠ .none →
      Rests client db next ∨ Rests client (applyAll (D := dialect) db writes) next →
      Alone client guard post (f false) next)
    (hok : ∀ choice next, guard w .commit choice → choice.fault = .none →
      Rests client (applyAll (D := dialect) db writes) next →
      Alone client guard post (f true) next) :
    Alone client guard post (commit >>= f) w := by
  refine alone_call fun choice hguard => ?_
  have hmoves : Engine.Moves client w.sql (w.exec client .commit choice).1.sql :=
    w.sql.commit_moves client choice.fault
  have hundisturbed := h.undisturbed.moves hmoves
  obtain ⟨locks, hopen⟩ := h.draft
  have hwritten : applyAll (D := dialect) w.sql.db writes =
      applyAll (D := dialect) db writes := congrArg (applyAll (D := dialect) · _) h.rows
  cases hfault : choice.fault with
  | none =>
    have hexec : w.exec client .commit choice =
        ({ w with sql := (w.sql.close client).write client writes }, true) := by
      simp [World.exec, Engine.commit, hopen, hfault]
    rw [hexec] at hundisturbed ⊢
    exact hok choice _ hguard hfault ⟨hundisturbed, hwritten⟩
  | refused =>
    have hexec : w.exec client .commit choice = (w, false) := by
      simp [World.exec, Engine.commit, hopen, hfault]
    rw [hexec]
    exact hfail choice _ hguard (by simp [hfault]) (.inl h.toRests)
  | lost =>
    have hexec : w.exec client .commit choice =
        ({ w with sql := (w.sql.close client).write client writes }, false) := by
      simp [World.exec, Engine.commit, hopen, hfault]
    rw [hexec] at hundisturbed ⊢
    exact hfail choice _ hguard (by simp [hfault]) (.inr ⟨hundisturbed, hwritten⟩)

theorem Rests.alone_transaction {unavailable : α} {body : Service α} (h : Rests client db w)
    (hunavailable : ∀ choice, guard w .begin choice → choice.fault ≠ .none → post unavailable db)
    (hbody : ∀ next, Staged client db [] next → Alone client guard post body next) :
    Alone client guard post (transaction unavailable body) w := by
  refine alone_call fun choice hguard => ?_
  by_cases hfault : choice.fault = .none
  · have hbegin : w.exec client .begin choice = ({ w with sql := w.sql.open_ client }, true) := by
      simp [World.exec, Engine.begin, hfault]
    have hundisturbed : Undisturbed client
        { w with sql := w.sql.open_ client } := h.undisturbed.moves (.opened w.sql)
    rw [hbegin]
    refine Ensures.bind (hbody _ ⟨⟨hundisturbed, h.rows⟩, [], AList.lookup_insert _⟩) ?_
    intro answer next hnext choice _
    exact ⟨hnext.1.moves (.closed next.sql), hnext.2⟩
  · have hbegin : w.exec client .begin choice = (w, false) := by
      simp [World.exec, Engine.begin, hfault]
    rw [hbegin]
    exact h.alone_ret (hunavailable choice hguard hfault)

end NebulaIM.Backend
