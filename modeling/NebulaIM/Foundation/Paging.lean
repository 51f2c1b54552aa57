import Mathlib.Data.List.Sort

/-!
# Reading a growing list page by page

Rows are read from the newest on.  A call sees the rows below its cursor, asks
for one row more than it returns to learn whether there are more, and its last
row is the cursor of the next call.  Rows that are added between the calls above
all others do not disturb the reading.
-/

namespace Foundation.Paging

variable {Row K Cursor : Type} [LinearOrder K] {key : Row → K}

/-- From the newest row on, each key once. -/
abbrev Descending (key : Row → K) (rows : List Row) : Prop :=
  rows.Pairwise fun row older => key older < key row

variable (key) in
/-- The newest rows below the cursor. -/
def newest (rows : List Row) (cursor : Option K) (limit : Nat) : List Row :=
  ((rows.filter fun row => cursor.all fun bound => key row < bound).insertionSort
    fun row older => key older ≤ key row).take limit

instance descends_total (key : Row → K) : Std.Total fun row older : Row => key older ≤ key row :=
  ⟨fun _ _ => le_total _ _⟩

instance descends_trans (key : Row → K) : IsTrans Row fun row older => key older ≤ key row :=
  ⟨fun _ _ _ h₁ h₂ => h₂.trans h₁⟩

theorem descending_insertionSort {rows : List Row} (hkeys : (rows.map key).Nodup) :
    Descending key (rows.insertionSort fun row older => key older ≤ key row) := by
  have hperm := List.perm_insertionSort (fun row older : Row => key older ≤ key row) rows
  have hkeys := List.pairwise_map.mp ((hperm.map key).nodup_iff.mpr hkeys)
  have hle := List.pairwise_insertionSort (fun row older : Row => key older ≤ key row) rows
  exact (hle.and hkeys).imp fun h => lt_of_le_of_ne h.1 (Ne.symm h.2)

theorem insertionSort_eq {rows sorted : List Row} (hsorted : Descending key sorted)
    (hnodup : rows.Nodup) (hsame : ∀ row, row ∈ rows ↔ row ∈ sorted) :
    rows.insertionSort (fun row older => key older ≤ key row) = sorted := by
  have hperm : (rows.insertionSort fun row older => key older ≤ key row).Perm sorted := by
    refine (List.perm_insertionSort _ rows).trans ?_
    refine (List.perm_ext_iff_of_nodup hnodup ?_).mpr hsame
    exact hsorted.imp fun hlt heq => absurd (congrArg key heq) hlt.ne'
  -- two rows of a descending list with the same key are the same row
  have hkeys : (sorted.map key).Nodup := List.pairwise_map.mpr (hsorted.imp fun hlt => hlt.ne')
  have hpairwise := List.pairwise_insertionSort (fun row older : Row => key older ≤ key row) rows
  refine hperm.eq_of_pairwise (fun a b ha hb hba hab => ?_) hpairwise
    (hsorted.imp fun hlt => hlt.le)
  exact List.inj_on_of_nodup_map hkeys (hperm.mem_iff.mp ha) hb (le_antisymm hab hba)

theorem newest_none {rows sorted : List Row} (hsorted : Descending key sorted)
    (hnodup : rows.Nodup) (hsame : ∀ row, row ∈ rows ↔ row ∈ sorted) (limit : Nat) :
    newest key rows none limit = sorted.take limit := by
  unfold newest
  rw [insertionSort_eq hsorted (hnodup.filter _)]
  simpa using hsame

theorem newest_after {rows newer older : List Row} {cursor : Row}
    (hsorted : Descending key (newer ++ cursor :: older)) (hnodup : rows.Nodup)
    (hkept : ∀ row ∈ newer ++ cursor :: older, row ∈ rows)
    (hadded : ∀ row ∈ rows, row ∈ newer ++ cursor :: older ∨
      ∀ old ∈ newer ++ cursor :: older, key old < key row) (limit : Nat) :
    newest key rows (some (key cursor)) limit = older.take limit := by
  obtain ⟨_, hcons, habove⟩ := List.pairwise_append.mp hsorted
  obtain ⟨hbelow, holder⟩ := List.pairwise_cons.mp hcons
  unfold newest
  rw [insertionSort_eq holder (hnodup.filter _)]
  intro row
  simp only [List.mem_filter, Option.all_some, decide_eq_true_eq]
  constructor
  · rintro ⟨hrow, hlt⟩
    rcases hadded row hrow with hmem | hnew
    · rcases List.mem_append.mp hmem with hnewer | hrest
      · exact absurd (habove row hnewer cursor List.mem_cons_self) hlt.not_gt
      · rcases List.mem_cons.mp hrest with rfl | hold
        · exact absurd hlt (lt_irrefl _)
        · exact hold
    · exact absurd (hnew cursor (by simp)) hlt.not_gt
  · intro hold
    exact ⟨hkept row (by simp [hold]), hbelow row hold⟩

/-! ## The loop -/

section Loop

variable (fetch : Nat → Cursor → Nat → List Row) (start : Cursor)
variable (after : Row → Cursor) (size : Nat → Nat)

/-- The cursor of call `n`: the last row of the call before it. -/
def cursorAt : Nat → Cursor
  | 0 => start
  | n + 1 => (((fetch n (cursorAt n) (size n + 1)).take (size n)).getLast?.map after).getD start

/-- The rows that call `n` returns, from the newest on. -/
def page (n : Nat) : List Row :=
  (fetch n (cursorAt fetch start after size n) (size n + 1)).take (size n)

def more (n : Nat) : Bool :=
  size n < (fetch n (cursorAt fetch start after size n) (size n + 1)).length

variable {fetch start after size}

theorem reads_rest {sorted : List Row} (hsize : ∀ n, 0 < size n)
    (hafter : ∀ n newer cursor older, sorted = newer ++ cursor :: older →
      ∀ limit, fetch (n + 1) (after cursor) limit = older.take limit)
    {done rest : List Row} (hsorted : sorted = done ++ rest) (k : Nat)
    (hrest : ∀ limit, fetch k (cursorAt fetch start after size k) limit = rest.take limit) :
    ∃ count, (List.range' k (count + 1)).flatMap (page fetch start after size) = rest ∧
      (∀ n < count, more fetch start after size (k + n) = true) ∧
      more fetch start after size (k + count) = false := by
  induction hlength : rest.length using Nat.strong_induction_on generalizing done rest k with
  | _ length ih =>
    have hpage : page fetch start after size k = rest.take (size k) := by
      rw [page, hrest, List.take_take, min_eq_left (Nat.le_succ _)]
    have hmore : more fetch start after size k = decide (size k < rest.length) := by
      rw [more, hrest, List.length_take]
      apply decide_eq_decide.mpr
      omega
    by_cases hlast : rest.length ≤ size k
    · refine ⟨0, ?_, fun n hn => absurd hn (Nat.not_lt_zero n), ?_⟩
      · simp [hpage, List.take_of_length_le hlast]
      · simpa [hmore] using hlast
    · -- the page is full, and its last row is the next cursor
      have hpositive := hsize k
      obtain ⟨shown, cursor, hshown⟩ := List.eq_nil_or_concat' (rest.take (size k))
        |>.resolve_left (by
          intro hnil
          have := congrArg List.length hnil
          simp only [List.length_take, List.length_nil] at this
          omega)
      have hsplit : sorted = (done ++ shown) ++ cursor :: rest.drop (size k) := by
        calc
          sorted = done ++ (rest.take (size k) ++ rest.drop (size k)) := by
            rw [List.take_append_drop, hsorted]
          _ = done ++ shown ++ cursor :: rest.drop (size k) := by
            rw [hshown]
            simp
      have hcursor : cursorAt fetch start after size (k + 1) = after cursor := by
        have hsame := hpage
        rw [page] at hsame
        rw [cursorAt, hsame, hshown]
        simp
      obtain ⟨count, hpages, hmores, hend⟩ := ih (rest.drop (size k)).length
        (by rw [List.length_drop]; omega)
        (by rw [hsorted, List.append_assoc, List.take_append_drop]) (k + 1)
        (by rw [hcursor]; exact hafter k _ cursor _ hsplit) rfl
      refine ⟨count + 1, ?_, ?_, ?_⟩
      · rw [List.range'_succ, List.flatMap_cons, hpages, hpage, List.take_append_drop]
      · intro n hn
        cases n with
        | zero => simpa [hmore] using hlast
        | succ n =>
          rw [Nat.add_succ, ← Nat.succ_add]
          exact hmores n (by omega)
      · rw [Nat.add_succ, ← Nat.succ_add]
        exact hend

/-- The calls return the rows of the first one, in order, and stop. -/
theorem reads_all {sorted : List Row} (hsize : ∀ n, 0 < size n)
    (hstart : ∀ limit, fetch 0 start limit = sorted.take limit)
    (hafter : ∀ n newer cursor older, sorted = newer ++ cursor :: older →
      ∀ limit, fetch (n + 1) (after cursor) limit = older.take limit) :
    ∃ last, (List.range (last + 1)).flatMap (page fetch start after size) = sorted ∧
      (∀ n < last, more fetch start after size n = true) ∧
      more fetch start after size last = false := by
  obtain ⟨count, hpages, hmores, hend⟩ :=
    reads_rest hsize hafter (List.nil_append sorted).symm 0 hstart
  rw [← List.range_eq_range'] at hpages
  simp only [Nat.zero_add] at hmores hend
  exact ⟨count, hpages, hmores, hend⟩

end Loop

/-! ## Pages by offset -/

section Offsets

variable {rows order other : List Row} {size m : Nat}

variable (key) in
/-- A query may return the rows in this order: equal keys come in any order. -/
structure Arranges (rows order : List Row) : Prop where
  perm : order.Perm rows
  sorted : order.Pairwise fun row later => key later ≤ key row

variable (key) in
/-- The position does not divide the rows of one key. -/
def Clean (rows : List Row) (m : Nat) : Prop :=
  ∀ row ∈ rows, m ≤ rows.countP (fun other => key row < key other) ∨
    rows.countP (fun other => key row ≤ key other) ≤ m

/-- One page after the other up to the first that is short. -/
def ReadsUntilShort (page : Nat → List Row) (size : Nat) (result : List Row) : Prop :=
  ∃ last, (∀ k < last, size ≤ (page k).length) ∧ (page last).length < size ∧
    result = (List.range (last + 1)).flatMap page

theorem getElem_iff_lt_countP {p : Row → Bool}
    (h : order.Pairwise fun row later => p later = true → p row = true) {i : Nat}
    (hi : i < order.length) : p order[i] = true ↔ i < order.countP p := by
  induction order generalizing i with
  | nil => cases hi
  | cons first order ih =>
    obtain ⟨hfirst, hrest⟩ := List.pairwise_cons.mp h
    by_cases hp : p first = true
    · rw [List.countP_cons_of_pos hp]
      cases i with
      | zero => simpa using hp
      | succ i => rw [List.getElem_cons_succ, ih hrest, Nat.add_lt_add_iff_right]
    · have hnone : (first :: order).countP p = 0 := by
        rw [List.countP_eq_zero]
        rintro row (_ | ⟨_, hrow⟩)
        · exact hp
        · exact fun hrow' => hp (hfirst row hrow hrow')
      rw [hnone]
      refine iff_of_false (fun hrow => ?_) (Nat.not_lt_zero i)
      exact (List.countP_eq_zero.mp hnone) _ (List.getElem_mem hi) hrow

theorem take_countP {p : Row → Bool}
    (h : order.Pairwise fun row later => p later = true → p row = true) :
    order.take (order.countP p) = order.filter p := by
  induction order with
  | nil => rfl
  | cons first order ih =>
    obtain ⟨hfirst, hrest⟩ := List.pairwise_cons.mp h
    by_cases hp : p first = true
    · rw [List.countP_cons_of_pos hp, List.filter_cons_of_pos hp, List.take_succ_cons, ih hrest]
    · have hnone : ∀ row ∈ first :: order, ¬ p row = true := by
        rintro row (_ | ⟨_, hrow⟩)
        · exact hp
        · exact fun hrow' => hp (hfirst row hrow hrow')
      rw [List.countP_eq_zero.mpr hnone, List.filter_eq_nil_iff.mpr hnone]
      rfl

theorem Arranges.above (h : Arranges key rows order) (bound : K) : order.Pairwise fun row later =>
      decide (bound < key later) = true → decide (bound < key row) = true :=
  h.sorted.imp fun hle hlt => decide_eq_true (lt_of_lt_of_le (of_decide_eq_true hlt) hle)

theorem Arranges.upTo (h : Arranges key rows order) (bound : K) : order.Pairwise fun row later =>
      decide (bound ≤ key later) = true → decide (bound ≤ key row) = true :=
  h.sorted.imp fun hle hlt => decide_eq_true ((of_decide_eq_true hlt).trans hle)

/-- Before a clean position all arrangements have the same rows. -/
theorem Arranges.take_perm (h : Arranges key rows order)
    (hother : Arranges key rows other) (hclean : Clean key rows m) :
    (order.take m).Perm (other.take m) := by
  have hlength : other.length = order.length := hother.perm.length_eq.trans h.perm.length_eq.symm
  by_cases hm : order.length ≤ m
  · rw [List.take_of_length_le hm, List.take_of_length_le (hlength ▸ hm)]
    exact h.perm.trans hother.perm.symm
  · have hm : m < order.length := Nat.lt_of_not_le hm
    -- the block of rows that have the key of the row at the position starts there
    have habove : order.countP (fun row => key order[m] < key row) ≤ m := by
      refine Nat.le_of_not_lt fun hlt => ?_
      simpa using (getElem_iff_lt_countP (h.above (key order[m])) hm).mpr hlt
    have hupTo : m < order.countP (fun row => key order[m] ≤ key row) :=
      (getElem_iff_lt_countP (h.upTo (key order[m])) hm).mp (by simp)
    have hstart : m = order.countP fun row => key order[m] < key row := by
      have hclean := hclean order[m] (h.perm.mem_iff.mp (List.getElem_mem hm))
      rw [← h.perm.countP_eq, ← h.perm.countP_eq] at hclean
      omega
    have hsame : m = other.countP fun row => key order[m] < key row := by
      rw [hother.perm.countP_eq, ← h.perm.countP_eq]
      exact hstart
    have hfirst := take_countP (h.above (key order[m]))
    have hsecond := take_countP (hother.above (key order[m]))
    rw [← hstart] at hfirst
    rw [← hsame] at hsecond
    rw [hfirst, hsecond]
    exact (h.perm.trans hother.perm.symm).filter _

/-- The pages of clean positions are those of one arrangement. -/
theorem flatMap_pages_perm {orders : Nat → List Row} (horders : ∀ k, Arranges key rows (orders k))
    (hclean : ∀ k, Clean key rows (k * size)) (count : Nat) :
    ((List.range count).flatMap fun k => ((orders k).drop (k * size)).take size).Perm
      ((orders count).take (count * size)) := by
  induction count with
  | zero => simp
  | succ count ih =>
    rw [List.range_succ, List.flatMap_append, List.flatMap_singleton]
    refine (ih.append_right _).trans ?_
    rw [← List.take_add, ← Nat.succ_mul]
    exact (horders count).take_perm (horders (count + 1)) (hclean (count + 1))

/-- Two rows of one key at a position that divides them may change places. -/
theorem Arranges.exists_swapped (h : Arranges key rows order) (hclean : ¬ Clean key rows m) :
    ∃ front first second back, front.length + 1 = m ∧ order = front ++ first :: second :: back ∧
      Arranges key rows (front ++ second :: first :: back) := by
  simp only [Clean, not_forall, not_or, not_le] at hclean
  obtain ⟨row, hrow, habove, hupTo⟩ := hclean
  rw [← h.perm.countP_eq] at habove hupTo
  have hm : m < order.length := lt_of_lt_of_le hupTo List.countP_le_length
  -- both neighbours of the position have the key of the row
  have hkey {i : Nat} (hi : i < order.length)
      (hlow : order.countP (fun other => key row < key other) ≤ i)
      (hhigh : i < order.countP fun other => key row ≤ key other) :
      key order[i] = key row := by
    have hle := (getElem_iff_lt_countP (h.upTo (key row)) hi).mpr hhigh
    have hnot := mt (getElem_iff_lt_countP (h.above (key row)) hi).mp (Nat.not_lt.mpr hlow)
    simp only [decide_eq_true_eq, not_lt] at hle hnot
    exact le_antisymm hnot hle
  obtain ⟨n, rfl⟩ : ∃ n, m = n + 1 := ⟨m - 1, by omega⟩
  obtain ⟨front, first, second, back, hlength, hsplit, hsame⟩ :
      ∃ front first second back, front.length = n ∧
        order = front ++ first :: second :: back ∧ key first = key second := by
    refine ⟨order.take n, order[n], order[n + 1], order.drop (n + 2), ?_, ?_, ?_⟩
    · rw [List.length_take_of_le (by omega)]
    · rw [← List.drop_eq_getElem_cons, ← List.drop_eq_getElem_cons, List.take_append_drop]
    · exact (hkey (by omega) (by omega) (by omega)).trans (hkey hm (by omega) hupTo).symm
  refine ⟨front, first, second, back, by rw [hlength], hsplit, ?_, ?_⟩
  · refine List.Perm.trans ?_ h.perm
    rw [hsplit]
    exact (List.Perm.swap _ _ _).append_left _
  · have hkeys : (front ++ second :: first :: back).map key = order.map key := by
      simp only [hsplit, List.map_append, List.map_cons, hsame]
    have hsorted : (order.map key).Pairwise fun first later => later ≤ first :=
      List.pairwise_map.mpr h.sorted
    rw [← hkeys] at hsorted
    exact List.pairwise_map.mp hsorted

section Reading

variable {page orders : Nat → List Row} (hsize : 0 < size)
variable (horders : ∀ k, Arranges key rows (orders k))
variable (hpage : ∀ k ≤ rows.length / size,
  page k = ((orders k).drop (k * size)).take size)
include hsize horders hpage

/-- The first short page is the one after all full pages. -/
theorem readsUntilShort_iff {result : List Row} : ReadsUntilShort page size result ↔
      result = (List.range (rows.length / size + 1)).flatMap page := by
  have hlength {k : Nat} (hk : k ≤ rows.length / size) :
      (page k).length = min size (rows.length - k * size) := by
    rw [hpage k hk, List.length_take, List.length_drop, (horders k).perm.length_eq]
  have hlast : (page (rows.length / size)).length < size := by
    have hmod := Nat.mod_lt rows.length hsize
    have hdiv := Nat.div_add_mod' rows.length size
    rw [hlength le_rfl]
    omega
  have hfull {k : Nat} (hk : k < rows.length / size) : size ≤ (page k).length := by
    have hle : (k + 1) * size ≤ rows.length :=
      (Nat.le_div_iff_mul_le hsize).mp (Nat.succ_le_of_lt hk)
    rw [Nat.succ_mul] at hle
    rw [hlength hk.le]
    omega
  constructor
  · rintro ⟨last, hbefore, hshort, rfl⟩
    obtain hlt | rfl | hgt := Nat.lt_trichotomy last (rows.length / size)
    · exact absurd (hfull hlt) (Nat.not_le.mpr hshort)
    · rfl
    · exact absurd (hbefore _ hgt) (Nat.not_le.mpr hlast)
  · rintro rfl
    exact ⟨_, fun k hk => hfull hk, hlast, rfl⟩

theorem flatMap_page_perm (hclean : ∀ k, Clean key rows (k * size)) :
    ((List.range (rows.length / size + 1)).flatMap page).Perm rows := by
  have hpages : (List.range (rows.length / size + 1)).flatMap page =
      (List.range (rows.length / size + 1)).flatMap fun k =>
        ((orders k).drop (k * size)).take size :=
    List.flatMap_congr fun k hk => hpage k (Nat.le_of_lt_succ (List.mem_range.mp hk))
  have hperm := (horders (rows.length / size + 1)).perm
  have hall : (orders (rows.length / size + 1)).length ≤ (rows.length / size + 1) * size := by
    rw [hperm.length_eq, Nat.succ_mul]
    exact (Nat.lt_div_mul_add hsize).le
  rw [hpages]
  refine (flatMap_pages_perm horders hclean _).trans ?_
  rw [List.take_of_length_le hall]
  exact hperm

end Reading

theorem mem_page {row : Row} {i offset : Nat} (hrow : order[i]? = some row)
    (hlow : offset ≤ i) (hhigh : i < offset + size) :
    row ∈ (order.drop offset).take size := by
  refine List.mem_of_getElem? (i := i - offset) ?_
  rw [List.getElem?_take_of_lt (by omega), List.getElem?_drop, Nat.add_sub_cancel' hlow]
  exact hrow

/-- If a page boundary divides the rows of one key, the queries may show a row
twice. -/
theorem exists_repeated (hrows : ∃ order, Arranges key rows order) (hsize : 0 < size)
    {k : Nat} (hclean : ¬ Clean key rows (k * size)) :
    ∃ orders : Nat → List Row, (∀ k, Arranges key rows (orders k)) ∧
      ¬ ((List.range (rows.length / size + 1)).flatMap fun k =>
        ((orders k).drop (k * size)).take size).Nodup := by
  obtain ⟨order, horder⟩ := hrows
  obtain ⟨front, first, second, back, hfront, hsplit, hswapped⟩ := horder.exists_swapped hclean
  obtain ⟨j, rfl⟩ : ∃ j, k = j + 1 := Nat.exists_eq_succ_of_ne_zero (by
    rintro rfl
    omega)
  refine ⟨fun n => if n ≤ j then order else front ++ second :: first :: back,
    fun n => by dsimp only; split <;> assumption, fun hnodup => ?_⟩
  rw [Nat.succ_mul] at hfront
  -- the row before the boundary is on both pages
  have hfirst : first ∈ (order.drop (j * size)).take size := by
    refine mem_page (i := front.length) ?_ (by omega) (by omega)
    simp [hsplit]
  have hsecond : first ∈ ((front ++ second :: first :: back).drop ((j + 1) * size)).take size := by
    rw [Nat.succ_mul]
    refine mem_page (i := front.length + 1) ?_ (by omega) (by omega)
    simp
  have hlast : j + 1 < rows.length / size + 1 := by
    have hlength := horder.perm.length_eq
    simp only [hsplit, List.length_append, List.length_cons] at hlength
    refine Nat.lt_succ_of_le ((Nat.le_div_iff_mul_le hsize).mpr ?_)
    rw [Nat.succ_mul]
    omega
  have hpairwise := List.pairwise_iff_getElem.mp (List.nodup_flatMap.mp hnodup).2
    j (j + 1) (by simp; omega) (by simpa using hlast) (Nat.lt_succ_self j)
  simp only [List.getElem_range, Function.onFun, le_refl, if_true,
    if_neg (Nat.not_succ_le_self j)] at hpairwise
  exact hpairwise hfirst hsecond

end Offsets

end Foundation.Paging
