import Mathlib.Data.List.AList

/-!
# A transactional store with row locks

An engine holds the committed database, the open transactions of the clients and
the log of everything committed.  A statement is planned against the rows its
client sees: it names the rows it locks, the writes it makes and its result.
Inside a transaction the writes are staged and take effect at the commit; outside
they take effect at once.  A statement that needs a row locked by another client
fails, which is how a lock wait ends that is not resolved in time; a wait that is
resolved is a statement issued later.

The point of the locks is the frame property `Engine.Rely`: whatever other
clients do, the rows that a transaction has locked stay as they are.
-/

namespace Foundation.Store

variable {Res : Type}

/-! ## Tables -/

/-- A table: at most one row for each value of its unique key. -/
abbrev Table (K V : Type) := AList fun _ : K => V

namespace Table

variable {K V : Type} [DecidableEq K] (table : Table K V)

def rows {K V : Type} (table : Table K V) : List V := table.entries.map fun entry => entry.2

def add (key : K) (row : V) : Table K V :=
  if table.lookup key = none then table.insert key row else table

def modify (key : K) (f : V → V) : Table K V :=
  match table.lookup key with
  | none => table
  | some row => table.insert key (f row)

def restrict {K V : Type} (table : Table K V) (keep : K → Bool) : Table K V :=
  ⟨table.entries.filter fun entry => keep entry.1, table.nodupKeys.sublist List.filter_sublist⟩

variable {table}

theorem lookup_restrict {keep : K → Bool} {key : K} {row : V}
    (h : (restrict table keep).lookup key = some row) :
    table.lookup key = some row := by
  have hentry := AList.mem_lookup_iff.mp h
  exact AList.mem_lookup_iff.mpr (List.mem_filter.mp hentry).1

theorem lookup_empty_ne {key : K} {row : V} : (∅ : Table K V).lookup key ≠ some row := by
  rw [AList.lookup_empty]
  exact Option.some_ne_none row |>.symm

theorem mem_rows {row : V} : row ∈ rows table ↔ ∃ key, table.lookup key = some row := by
  simp only [rows, List.mem_map]
  constructor
  · rintro ⟨⟨key, _⟩, hentry, rfl⟩
    exact ⟨key, AList.mem_lookup_iff.mpr hentry⟩
  · rintro ⟨key, hkey⟩
    exact ⟨⟨key, row⟩, AList.mem_lookup_iff.mp hkey, rfl⟩

theorem rows_insert {key : K} (hfree : table.lookup key = none) (row : V) :
    rows (table.insert key row) = row :: rows table := by
  rw [rows, rows, AList.entries_insert_of_notMem (AList.lookup_eq_none.mp hfree), List.map_cons]

theorem length_insert (key : K) (row : V) : (table.insert key row).entries.length =
      if table.lookup key = none then table.entries.length + 1
      else table.entries.length := by
  have hcount (t : Table K V) : t.entries.length = t.keys.length := (List.length_map _).symm
  rw [hcount, hcount, AList.keys_insert, List.length_cons]
  by_cases hnone : table.lookup key = none
  · have hkey : key ∉ table.keys := AList.lookup_eq_none.mp hnone
    rw [if_pos hnone, List.erase_of_not_mem hkey]
  · have hkey : key ∈ table.keys := by
      by_contra hkey
      exact hnone (AList.lookup_eq_none.mpr hkey)
    have hpos := List.length_pos_of_mem hkey
    rw [if_neg hnone, List.length_erase_of_mem hkey]
    omega

/-- Rows are counted by their keys: what `p` counts on one side has a row under
the same key that `q` counts on the other. -/
theorem countP_rows_le {table' : Table K V} {p q : V → Bool}
    (h : ∀ key row, table.lookup key = some row → p row = true →
      ∃ row', table'.lookup key = some row' ∧ q row' = true) :
    (rows table).countP p ≤ (rows table').countP q := by
  have hkeys (t : Table K V) (r : V → Bool) : (rows t).countP r =
      ((t.entries.filter fun entry => r entry.2).map Sigma.fst).length := by
    rw [rows, List.countP_map, List.countP_eq_length_filter, List.length_map]
    rfl
  rw [hkeys, hkeys]
  have hnodup : ((table.entries.filter fun entry => p entry.2).map Sigma.fst).Nodup :=
    (List.filter_sublist.map Sigma.fst).nodup table.nodupKeys
  refine (List.subperm_of_subset hnodup fun key hkey => ?_).length_le
  obtain ⟨⟨key, row⟩, hentry, rfl⟩ := List.mem_map.mp hkey
  obtain ⟨hmem, hp⟩ := List.mem_filter.mp hentry
  obtain ⟨row', hrow', hq⟩ := h key row (AList.mem_lookup_iff.mpr hmem) hp
  exact List.mem_map.mpr ⟨⟨key, row'⟩, List.mem_filter.mpr ⟨AList.mem_lookup_iff.mp hrow', hq⟩, rfl⟩

theorem lookup_add (key other : K) (row : V) : (add table key row).lookup other =
      if other = key ∧ table.lookup key = none then some row
      else table.lookup other := by
  unfold add
  by_cases hfree : table.lookup key = none
  · by_cases heq : other = key
    · subst heq
      simp [hfree]
    · simp [hfree, heq]
  · simp [hfree]

@[simp] theorem lookup_modify_self (key : K) (f : V → V) :
    (modify table key f).lookup key = (table.lookup key).map f := by
  unfold modify
  cases hrow : table.lookup key with
  | none => simp [hrow]
  | some row => simp

theorem lookup_modify_ne {key other : K} (f : V → V) (hne : other ≠ key) :
    (modify table key f).lookup other = table.lookup other := by
  unfold modify
  split
  · rfl
  · exact AList.lookup_insert_ne hne

/-- Every row stands under the key that its columns name. -/
def Keyed (column : V → K) (table : Table K V) : Prop :=
  ∀ key row, table.lookup key = some row → column row = key

variable {column : V → K}

theorem Keyed.empty : Keyed column (∅ : Table K V) := fun _ _ hrow => absurd hrow lookup_empty_ne

theorem Keyed.nodup (h : Keyed column table) : ((rows table).map column).Nodup := by
  have hkeys : (rows table).map column = table.entries.map Sigma.fst := by
    rw [rows, List.map_map]
    apply List.map_congr_left
    rintro ⟨key, row⟩ hentry
    exact h key row (AList.mem_lookup_iff.mpr hentry)
  rw [hkeys]
  exact table.nodupKeys

theorem Keyed.filter_rows (h : Keyed column table) (key : K) :
    ((rows table).filter fun row => column row = key) = (table.lookup key).toList := by
  have hmem (row : V) : row ∈ (rows table).filter (fun row => column row = key) ↔
      table.lookup key = some row := by
    simp only [List.mem_filter, mem_rows, decide_eq_true_eq]
    constructor
    · rintro ⟨⟨other, hother⟩, hkey⟩
      rw [← hkey, h other row hother]
      exact hother
    · exact fun hrow => ⟨⟨key, hrow⟩, h key row hrow⟩
  have hnodup : ((rows table).filter fun row => column row = key).Nodup :=
    (List.Nodup.of_map column h.nodup).filter _
  cases hrow : table.lookup key with
  | none =>
    apply List.eq_nil_iff_forall_not_mem.mpr
    intro row hrow'
    rw [hmem, hrow] at hrow'
    cases hrow'
  | some row =>
    apply List.perm_singleton.mp
    apply (List.perm_ext_iff_of_nodup hnodup (List.nodup_singleton row)).mpr
    intro other
    rw [hmem, hrow, List.mem_singleton, Option.some.injEq, eq_comm]

theorem Keyed.insert (h : Keyed column table) (new : V) :
    Keyed column (table.insert (column new) new) := by
  intro key row hrow
  by_cases heq : key = column new
  · subst heq
    rw [AList.lookup_insert] at hrow
    cases hrow
    rfl
  · rw [AList.lookup_insert_ne heq] at hrow
    exact h key row hrow

theorem Keyed.erase (h : Keyed column table) (target : K) : Keyed column (table.erase target) := by
  intro key row hrow
  by_cases heq : key = target
  · subst heq
    rw [AList.lookup_erase] at hrow
    cases hrow
  · rw [AList.lookup_erase_ne heq] at hrow
    exact h key row hrow

theorem Keyed.add (h : Keyed column table) (new : V) :
    Keyed column (add table (column new) new) := by
  unfold Table.add
  split
  · exact h.insert new
  · exact h

theorem Keyed.modify (h : Keyed column table) {f : V → V}
    (hf : ∀ row, column (f row) = column row) (target : K) :
    Keyed column (modify table target f) := by
  intro key row hrow
  by_cases heq : key = target
  · subst heq
    rw [lookup_modify_self, Option.map_eq_some_iff] at hrow
    obtain ⟨old, hold, rfl⟩ := hrow
    exact (hf old).trans (h key old hold)
  · rw [lookup_modify_ne _ heq] at hrow
    exact h key row hrow

end Table

/-! ## Databases -/

/--
A database and its writes.  `agree key` relates databases that do not differ in
the rows which `key` stands for.
-/
structure Dialect where
  Db : Type
  Key : Type
  Write : Type
  [decEqKey : DecidableEq Key]
  apply : Db → Write → Db
  touches : Write → List Key
  agree : Key → Db → Db → Prop
  agree_refl : ∀ key db, agree key db db
  agree_trans : ∀ {key first second third},
    agree key first second → agree key second third → agree key first third
  apply_agree : ∀ {key} db {write}, key ∉ touches write → agree key db (apply db write)

attribute [instance] Dialect.decEqKey

variable {D : Dialect}

def applyAll (db : D.Db) (writes : List D.Write) : D.Db := writes.foldl D.apply db

@[simp] theorem applyAll_nil (db : D.Db) : applyAll db [] = db := rfl

@[simp] theorem applyAll_cons (db : D.Db) (write : D.Write) (writes : List D.Write) :
    applyAll db (write :: writes) = applyAll (D.apply db write) writes := rfl

theorem applyAll_append (db : D.Db) (first second : List D.Write) :
    applyAll db (first ++ second) = applyAll (applyAll db first) second :=
  List.foldl_append

variable {writes : List D.Write}

theorem applyAll_kept {Part : Type} (part : D.Db → Part)
    (hwrites : ∀ write ∈ writes, ∀ db, part (D.apply db write) = part db)
    (db : D.Db) : part (applyAll db writes) = part db := by
  induction writes generalizing db with
  | nil => rfl
  | cons write writes ih =>
    have hrest := ih (fun other hmem => hwrites other (List.mem_cons_of_mem _ hmem))
      (D.apply db write)
    exact hrest.trans (hwrites write List.mem_cons_self db)

theorem applyAll_agree {key : D.Key} (db : D.Db)
    (hwrites : ∀ write ∈ writes, key ∉ D.touches write) :
    D.agree key db (applyAll db writes) := by
  induction writes generalizing db with
  | nil => exact D.agree_refl key db
  | cons write writes ih =>
    have hfirst := D.apply_agree db (hwrites write List.mem_cons_self)
    exact D.agree_trans hfirst (ih _ fun w hw => hwrites w (List.mem_cons_of_mem _ hw))

/-! ## Where a row comes from -/

/-- A table of the database that changes by rows put under their own keys;
`puts` names the row that a write puts, and other writes add none. -/
structure Puts {K V : Type} [DecidableEq K] (table : D.Db → Table K V)
    (column : V → K) (puts : D.Write → Option V) : Prop where
  put : ∀ db write row, puts write = some row →
    table (D.apply db write) = (table db).insert (column row) row
  other : ∀ db write, puts write = none → ∀ key row,
    (table (D.apply db write)).lookup key = some row →
    (table db).lookup key = some row

section Puts

variable {K V : Type} [DecidableEq K] {table : D.Db → Table K V}
variable {column : V → K} {puts : D.Write → Option V}

theorem Puts.lookup_applyAll (h : Puts table column puts) {db : D.Db} {key : K} {row : V}
    (hrow : (table (applyAll db writes)).lookup key = some row) :
    ((table db).lookup key = some row ∧
      ∀ write ∈ writes, ∀ new, puts write = some new → column new ≠ key) ∨
    ∃ write ∈ writes, puts write = some row ∧ column row = key := by
  induction writes generalizing db with
  | nil => exact .inl ⟨hrow, fun _ hmem => nomatch hmem⟩
  | cons write writes ih =>
    rcases ih hrow with ⟨hold, hnone⟩ | ⟨later, hlater, hput⟩
    · cases hwrite : puts write with
      | none =>
        refine .inl ⟨h.other db write hwrite key row hold, ?_⟩
        intro other hmem new hnew
        rcases List.mem_cons.mp hmem with rfl | hrest
        · rw [hwrite] at hnew
          cases hnew
        · exact hnone other hrest new hnew
      | some new =>
        rw [h.put db write new hwrite] at hold
        by_cases heq : key = column new
        · subst heq
          rw [AList.lookup_insert] at hold
          cases hold
          exact .inr ⟨write, List.mem_cons_self, hwrite, rfl⟩
        · rw [AList.lookup_insert_ne heq] at hold
          refine .inl ⟨hold, fun other hmem other' hother => ?_⟩
          rcases List.mem_cons.mp hmem with rfl | hrest
          · rw [hwrite] at hother
            cases hother
            exact fun h => heq h.symm
          · exact hnone other hrest other' hother
    · exact .inr ⟨later, List.mem_cons_of_mem _ hlater, hput⟩

/-- Writes that remove no row leave every key occupied that had a row or is put
one. -/
theorem Puts.isSome_applyAll (h : Puts table column puts)
    (hkeep : ∀ write ∈ writes, puts write = none → ∀ db, table (D.apply db write) = table db)
    {db : D.Db} {key : K}
    (hkey : ((table db).lookup key).isSome ∨
      ∃ write ∈ writes, ∃ row, puts write = some row ∧ column row = key) :
    ((table (applyAll db writes)).lookup key).isSome := by
  induction writes generalizing db with
  | nil =>
    rcases hkey with hold | ⟨_, hmem, _⟩
    · exact hold
    · cases hmem
  | cons write writes ih =>
    refine ih (fun other hmem => hkeep other (List.mem_cons_of_mem _ hmem)) ?_
    cases hwrite : puts write with
    | none =>
      rw [hkeep write List.mem_cons_self hwrite]
      refine hkey.imp_right ?_
      rintro ⟨other, hmem, row, hrow, hcolumn⟩
      rcases List.mem_cons.mp hmem with rfl | hrest
      · rw [hwrite] at hrow
        cases hrow
      · exact ⟨other, hrest, row, hrow, hcolumn⟩
    | some new =>
      rw [h.put db write new hwrite]
      by_cases heq : key = column new
      · subst heq
        simp
      · rw [AList.lookup_insert_ne heq]
        refine hkey.imp_right ?_
        rintro ⟨other, hmem, row, hrow, hcolumn⟩
        rcases List.mem_cons.mp hmem with rfl | hrest
        · rw [hwrite] at hrow
          cases hrow
          exact absurd hcolumn.symm heq
        · exact ⟨other, hrest, row, hrow, hcolumn⟩

end Puts

/-! ## Engines -/

variable (D) in
structure Tx where
  writes : List D.Write := []
  locks : List D.Key := []

variable (D) in
/-- `log` lists the committed units of work with their clients, newest first. -/
structure Engine where
  db : D.Db
  txs : AList (fun _ : Nat => Tx D) := ∅
  log : List (Nat × List D.Write) := []

variable (D) in
structure Plan (Res : Type) where
  locks : List D.Key := []
  writes : List D.Write := []
  result : Res

def Plan.Covered {Res : Type} (plan : Plan D Res) : Prop :=
  ∀ write ∈ plan.writes, ∀ key ∈ D.touches write, key ∈ plan.locks

/--
How a call to the store can go wrong: refused before it has any effect, or lost
after it took effect, so that the client sees a failure all the same.
-/
inductive Fault where
  | none
  | refused
  | lost
  deriving DecidableEq, Repr

namespace Engine

variable (e : Engine D) (client : Nat)

def foreignLocks : List D.Key := (e.txs.erase client).entries.flatMap fun entry => entry.2.locks

def open_ : Engine D := { e with txs := e.txs.insert client {} }

def close : Engine D := { e with txs := e.txs.erase client }

def stage {Res : Type} (tx : Tx D) (plan : Plan D Res) : Engine D :=
  { e with
    txs := e.txs.insert client ⟨tx.writes ++ plan.writes, plan.locks ++ tx.locks⟩ }

def write (writes : List D.Write) : Engine D :=
  { e with db := applyAll e.db writes, log := (client, writes) :: e.log }

/-! ## Calls of a client -/

def begin (fault : Fault) : Engine D × Bool :=
  if fault = .none then (e.open_ client, true) else (e, false)

def rollback : Engine D := e.close client

/-- A refused commit leaves the transaction open. -/
def commit (fault : Fault) : Engine D × Bool :=
  match e.txs.lookup client with
  | none => (e, false)
  | some tx =>
    match fault with
    | .refused => (e, false)
    | .none => ((e.close client).write client tx.writes, true)
    | .lost => ((e.close client).write client tx.writes, false)

/-- A statement of the client's transaction.  A lost reply ends the connection
and with it the transaction. -/
def statement {Res : Type} (plan : D.Db → List D.Key → Plan D Res)
    (failed : Res) (fault : Fault) : Engine D × Res :=
  match e.txs.lookup client with
  | none => (e, failed)
  | some tx =>
    match fault with
    | .refused => (e, failed)
    | .lost => (e.close client, failed)
    | .none =>
      let planned := plan (applyAll e.db tx.writes) (e.foreignLocks client)
      if ∀ key ∈ planned.locks, key ∉ e.foreignLocks client then
        (e.stage client tx planned, planned.result)
      else
        (e, failed)

def autocommit {Res : Type} (plan : D.Db → List D.Key → Plan D Res)
    (failed : Res) (fault : Fault) : Engine D × Res :=
  if fault = .refused then (e, failed)
  else
    let planned := plan e.db (e.foreignLocks client)
    if ∀ key ∈ planned.locks, key ∉ e.foreignLocks client then
      (if planned.writes.isEmpty then e else e.write client planned.writes,
        if fault = .lost then failed else planned.result)
    else
      (e, failed)

/-! ## What a call can do -/

/-- The transitions of the engine that one client can cause. -/
inductive Moves (client : Nat) : Engine D → Engine D → Prop
  | stay (e : Engine D) : Moves client e e
  | opened (e : Engine D) : Moves client e (e.open_ client)
  | closed (e : Engine D) : Moves client e (e.close client)
  | staged {e : Engine D} {tx : Tx D} {Res : Type} (plan : Plan D Res)
      (hopen : e.txs.lookup client = some tx) (hcovered : plan.Covered)
      (hfree : ∀ key ∈ plan.locks, key ∉ e.foreignLocks client) :
      Moves client e (e.stage client tx plan)
  | wrote {e : Engine D} {Res : Type} (plan : Plan D Res) (hcovered : plan.Covered)
      (hfree : ∀ key ∈ plan.locks, key ∉ e.foreignLocks client) :
      Moves client e (e.write client plan.writes)
  | committed {e : Engine D} {tx : Tx D} (hopen : e.txs.lookup client = some tx) :
      Moves client e ((e.close client).write client tx.writes)

/-- A move leaves the rows alone or applies one logged unit of work. -/
theorem Moves.effect {client : Nat} {e e' : Engine D} (h : Moves client e e') :
    (e'.db = e.db ∧ e'.log = e.log) ∨ ∃ writes, e'.db = applyAll e.db writes ∧
        e'.log = (client, writes) :: e.log := by
  cases h with
  | wrote plan _ _ => exact .inr ⟨plan.writes, rfl, rfl⟩
  | @committed tx _ => exact .inr ⟨tx.writes, rfl, rfl⟩
  | _ => exact .inl ⟨rfl, rfl⟩

theorem Moves.lookup_ne {client other : Nat} {e e' : Engine D}
    (h : Moves client e e') (hne : other ≠ client) :
    e'.txs.lookup other = e.txs.lookup other := by
  cases h with
  | opened | staged plan _ _ _ => exact AList.lookup_insert_ne hne
  | closed | committed _ => exact AList.lookup_erase_ne hne
  | _ => rfl

theorem begin_moves (fault : Fault) : Moves client e (e.begin client fault).1 := by
  unfold begin
  split
  · exact .opened e
  · exact .stay e

theorem rollback_moves : Moves client e (e.rollback client) := .closed e

theorem commit_moves (fault : Fault) : Moves client e (e.commit client fault).1 := by
  unfold commit
  split
  · exact .stay e
  · next tx hopen =>
    cases fault with
    | none => exact .committed hopen
    | refused => exact .stay e
    | lost => exact .committed hopen

theorem statement_moves {plan : D.Db → List D.Key → Plan D Res}
    (hcovered : ∀ db locked, (plan db locked).Covered) (failed : Res) (fault : Fault) :
    Moves client e (e.statement client plan failed fault).1 := by
  unfold statement
  split
  · exact .stay e
  · next tx hopen =>
    cases fault with
    | refused => exact .stay e
    | lost => exact .closed e
    | none =>
      simp only
      split
      · next hfree => exact .staged _ hopen (hcovered _ _) hfree
      · exact .stay e

theorem autocommit_moves {plan : D.Db → List D.Key → Plan D Res}
    (hcovered : ∀ db locked, (plan db locked).Covered) (failed : Res) (fault : Fault) :
    Moves client e (e.autocommit client plan failed fault).1 := by
  unfold autocommit
  split
  · exact .stay e
  · simp only
    split
    · next hfree =>
      split
      · exact .stay e
      · exact .wrote _ (hcovered _ _) hfree
    · exact .stay e

/-! ## Rows and log under the calls that commit nothing -/

theorem begin_same (fault : Fault) :
    (e.begin client fault).1.db = e.db ∧ (e.begin client fault).1.log = e.log := by
  unfold begin
  split <;> exact ⟨rfl, rfl⟩

/-- What a statement of a transaction comes to: it fails and leaves at most the
transaction as it was, or it is staged. -/
theorem statement_cases (plan : D.Db → List D.Key → Plan D Res) (failed : Res) (fault : Fault) :
    (e.statement client plan failed fault = (e, failed)) ∨
    (e.statement client plan failed fault = (e.close client, failed)) ∨
    ∃ tx, e.txs.lookup client = some tx ∧ e.statement client plan failed fault =
        (e.stage client tx (plan (applyAll e.db tx.writes) (e.foreignLocks client)),
        (plan (applyAll e.db tx.writes) (e.foreignLocks client)).result) := by
  unfold statement
  split
  · exact .inl rfl
  · next tx hopen =>
    cases fault with
    | refused => exact .inl rfl
    | lost => exact .inr (.inl rfl)
    | none =>
      simp only
      split
      · exact .inr (.inr ⟨tx, hopen, rfl⟩)
      · exact .inl rfl

theorem commit_cases (fault : Fault) : (e.commit client fault = (e, false)) ∨
    ∃ tx ok, e.txs.lookup client = some tx ∧ e.commit client fault =
        ((e.close client).write client tx.writes, ok) := by
  unfold commit
  split
  · exact .inl rfl
  · next tx hopen =>
    cases fault with
    | refused => exact .inl rfl
    | none => exact .inr ⟨tx, true, hopen, rfl⟩
    | lost => exact .inr ⟨tx, false, hopen, rfl⟩

theorem autocommit_cases (plan : D.Db → List D.Key → Plan D Res) (failed : Res) (fault : Fault) :
    (e.autocommit client plan failed fault = (e, failed)) ∨
    ∃ result,
      (fault = .lost ∧ result = failed ∨ result = (plan e.db (e.foreignLocks client)).result) ∧
      e.autocommit client plan failed fault =
        (if (plan e.db (e.foreignLocks client)).writes.isEmpty then e
          else e.write client (plan e.db (e.foreignLocks client)).writes,
        result) := by
  unfold autocommit
  split
  · exact .inl rfl
  · simp only
    split
    · refine .inr ⟨_, ?_, rfl⟩
      split
      · next hlost => exact .inl ⟨hlost, rfl⟩
      · exact .inr rfl
    · exact .inl rfl

/-! ## Locks -/

variable {e client}

theorem mem_foreignLocks {key : D.Key} : key ∈ e.foreignLocks client ↔
      ∃ other tx, other ≠ client ∧ e.txs.lookup other = some tx ∧ key ∈ tx.locks := by
  simp only [foreignLocks, List.mem_flatMap]
  constructor
  · rintro ⟨⟨other, tx⟩, hentry, hkey⟩
    have hlookup := AList.mem_lookup_iff.mpr hentry
    have hne : other ≠ client := by
      rintro rfl
      rw [AList.lookup_erase] at hlookup
      cases hlookup
    rw [AList.lookup_erase_ne hne] at hlookup
    exact ⟨other, tx, hne, hlookup, hkey⟩
  · rintro ⟨other, tx, hne, hlookup, hkey⟩
    rw [← AList.lookup_erase_ne hne] at hlookup
    exact ⟨⟨other, tx⟩, AList.mem_lookup_iff.mp hlookup, hkey⟩

/-- No row is locked twice, and staged writes stay within their locks. -/
structure WellFormed (e : Engine D) : Prop where
  exclusive : ∀ {first second tx tx' key}, first ≠ second →
    e.txs.lookup first = some tx → e.txs.lookup second = some tx' →
    key ∈ tx.locks → key ∉ tx'.locks
  covered : ∀ {client tx}, e.txs.lookup client = some tx →
    ∀ write ∈ tx.writes, ∀ key ∈ D.touches write, key ∈ tx.locks

/-- What a client may rely on while others act: its transaction stays open or
is ended by a lost connection, the rows it has locked do not change, and nothing
leaves the log. -/
structure Rely (client : Nat) (before after : Engine D) : Prop where
  keeps : ∀ {tx}, after.txs.lookup client = some tx → before.txs.lookup client = some tx ∧
      ∀ key ∈ tx.locks, D.agree key before.db after.db
  history : before.log <:+ after.log

theorem Rely.refl (client : Nat) (e : Engine D) : Rely client e e where
  keeps htx := ⟨htx, fun key _ => D.agree_refl key e.db⟩
  history := List.suffix_refl e.log

theorem Rely.trans {first second third : Engine D}
    (h₁ : Rely client first second) (h₂ : Rely client second third) :
    Rely client first third where
  keeps htx := by
    obtain ⟨hsecond, hagree₂⟩ := h₂.keeps htx
    obtain ⟨hfirst, hagree₁⟩ := h₁.keeps hsecond
    exact ⟨hfirst, fun key hkey => D.agree_trans (hagree₁ key hkey) (hagree₂ key hkey)⟩
  history := h₁.history.trans h₂.history

theorem close_rely (client other : Nat) (e : Engine D) : Rely other e (e.close client) where
  keeps htx := by
    by_cases hne : other = client
    · subst hne
      rw [close, AList.lookup_erase] at htx
      cases htx
    · rw [close, AList.lookup_erase_ne hne] at htx
      exact ⟨htx, fun key _ => D.agree_refl key e.db⟩
  history := List.suffix_refl e.log

private theorem insert_rely {other : Nat} (hne : other ≠ client) (tx : Tx D) :
    Rely other e { e with txs := e.txs.insert client tx } where
  keeps htx := by
    rw [AList.lookup_insert_ne hne] at htx
    exact ⟨htx, fun key _ => D.agree_refl key e.db⟩
  history := List.suffix_refl e.log

private theorem write_rely {other : Nat}
    (hfree : ∀ tx, e.txs.lookup other = some tx → ∀ key ∈ tx.locks,
      ∀ write ∈ writes, key ∉ D.touches write) :
    Rely other e (e.write client writes) where
  keeps htx := ⟨htx, fun key hkey => applyAll_agree e.db (hfree _ htx key hkey)⟩
  history := List.suffix_cons _ e.log

theorem Moves.rely {e' : Engine D} (hmove : Moves client e e')
    (hwf : e.WellFormed) {other : Nat} (hne : client ≠ other) :
    Rely other e e' := by
  cases hmove with
  | stay => exact Rely.refl other e
  | opened | staged plan hopen hcovered hfree => exact insert_rely hne.symm _
  | closed => exact close_rely client other e
  | wrote plan hcovered hfree =>
    refine write_rely fun tx htx key hkey write hwrite htouch => ?_
    refine hfree key (hcovered write hwrite key htouch) ?_
    exact mem_foreignLocks.mpr ⟨other, tx, hne.symm, htx, hkey⟩
  | committed hopen =>
    refine (close_rely client other e).trans (write_rely ?_)
    intro tx htx key hkey write hwrite htouch
    rw [close, AList.lookup_erase_ne hne.symm] at htx
    exact hwf.exclusive hne hopen htx (hwf.covered hopen write hwrite key htouch) hkey

private theorem close_wellFormed (hwf : e.WellFormed) : (e.close client).WellFormed where
  exclusive hne hfirst hsecond hkey :=
    hwf.exclusive hne ((close_rely client _ e).keeps hfirst).1
      ((close_rely client _ e).keeps hsecond).1 hkey
  covered htx := hwf.covered ((close_rely client _ e).keeps htx).1

private theorem insert_wellFormed (hwf : e.WellFormed) (tx : Tx D)
    (hfree : ∀ key ∈ tx.locks, key ∉ e.foreignLocks client)
    (hcovered : ∀ write ∈ tx.writes, ∀ key ∈ D.touches write, key ∈ tx.locks) :
    WellFormed { e with txs := e.txs.insert client tx } where
  exclusive {first second txf txs key} hne hfirst hsecond hkey hkey' := by
    by_cases hf : first = client
    · subst hf
      rw [AList.lookup_insert] at hfirst
      rw [AList.lookup_insert_ne hne.symm] at hsecond
      cases hfirst
      exact hfree key hkey (mem_foreignLocks.mpr ⟨second, txs, hne.symm, hsecond, hkey'⟩)
    · rw [AList.lookup_insert_ne hf] at hfirst
      by_cases hs : second = client
      · subst hs
        rw [AList.lookup_insert] at hsecond
        cases hsecond
        exact hfree key hkey' (mem_foreignLocks.mpr ⟨first, txf, hf, hfirst, hkey⟩)
      · rw [AList.lookup_insert_ne hs] at hsecond
        exact hwf.exclusive hne hfirst hsecond hkey hkey'
  covered {other tx'} htx := by
    by_cases hother : other = client
    · subst hother
      rw [AList.lookup_insert] at htx
      cases htx
      exact hcovered
    · rw [AList.lookup_insert_ne hother] at htx
      exact hwf.covered htx

theorem Moves.wellFormed {e' : Engine D} (hmove : Moves client e e')
    (hwf : e.WellFormed) : e'.WellFormed := by
  cases hmove with
  | stay => exact hwf
  | opened =>
    exact insert_wellFormed hwf {} (fun _ hkey => nomatch hkey) (fun _ hwrite => nomatch hwrite)
  | closed => exact close_wellFormed hwf
  | staged plan hopen hcovered hfree =>
    refine insert_wellFormed hwf _ ?_ ?_
    · intro key hkey hforeign
      rcases List.mem_append.mp hkey with hnew | hold
      · exact hfree key hnew hforeign
      · obtain ⟨other, tx', hne, htx', hkey'⟩ := mem_foreignLocks.mp hforeign
        exact hwf.exclusive hne.symm hopen htx' hold hkey'
    · intro write hwrite key htouch
      rcases List.mem_append.mp hwrite with hold | hnew
      · exact List.mem_append_right _ (hwf.covered hopen write hold key htouch)
      · exact List.mem_append_left _ (hcovered write hnew key htouch)
  | wrote plan hcovered hfree => exact ⟨hwf.exclusive, hwf.covered⟩
  | committed hopen =>
    have hclosed : (e.close client).WellFormed := close_wellFormed hwf
    exact ⟨hclosed.exclusive, hclosed.covered⟩

theorem wellFormed_of_no_tx {db : D.Db} {log : List (Nat × List D.Write)} :
    WellFormed (⟨db, ∅, log⟩ : Engine D) where
  exclusive _ hfirst _ _ := by cases hfirst
  covered htx := by cases htx

end Engine

/-! ## Entries of a log -/

/-- Entries that exclude each other are one entry: a log has one place for
them. -/
theorem split_unique {α : Type} {r : α → α → Prop} {log : List α} (hlog : log.Pairwise r)
    {later later' earlier earlier' : List α} {entry entry' : α}
    (hsplit : log = later ++ entry :: earlier) (hsplit' : log = later' ++ entry' :: earlier')
    (hnot : ¬ r entry entry') (hnot' : ¬ r entry' entry) : later = later' := by
  subst hsplit
  have hafter := (List.pairwise_append.mp hlog).2.1
  have hafter' := (List.pairwise_append.mp (hsplit' ▸ hlog)).2.1
  rcases List.append_eq_append_iff.mp hsplit' with
    ⟨between, rfl, htail⟩ | ⟨between, rfl, htail⟩
  · cases between with
    | nil => simp
    | cons first between =>
      obtain ⟨rfl, rfl⟩ := List.cons.inj htail
      refine absurd (List.rel_of_pairwise_cons hafter ?_) hnot
      exact List.mem_append_right _ List.mem_cons_self
  · cases between with
    | nil => simp
    | cons first between =>
      obtain ⟨rfl, rfl⟩ := List.cons.inj htail
      refine absurd (List.rel_of_pairwise_cons hafter' ?_) hnot'
      exact List.mem_append_right _ List.mem_cons_self

end Foundation.Store
