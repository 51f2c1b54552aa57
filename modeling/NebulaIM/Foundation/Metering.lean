import Mathlib.Algebra.Order.Field.Basic
import Mathlib.Tactic.Linarith
import Mathlib.Tactic.Ring

/-!
# Token buckets

A meter refills at a constant rate up to its capacity, and a request takes one token if
there is one.  Two facts carry its use: a meter that has been idle long enough is full
whatever it held, and in any interval it admits no more than its capacity and what the
interval refills.
-/

namespace Foundation.Metering

variable {K : Type} [Field K] [LinearOrder K]

structure Meter (K : Type) [Field K] [LinearOrder K] where
  capacity : K
  rate : K
  capacity_nonneg : 0 ≤ capacity
  rate_nonneg : 0 ≤ rate

/-- The tokens that were there at the given time. -/
structure Level (K : Type) where
  tokens : K
  time : K

namespace Meter

variable (m : Meter K) (s : Level K)

def level (now : K) : K := min m.capacity (s.tokens + m.rate * (now - s.time))

def take (now : K) : Bool × Level K :=
  if 1 ≤ m.level s now then (true, ⟨m.level s now - 1, now⟩)
  else (false, ⟨m.level s now, now⟩)

def admitted : Level K → List K → List K
  | _, [] => []
  | s, now :: times =>
    if (m.take s now).1 then now :: admitted (m.take s now).2 times
    else admitted (m.take s now).2 times

/-- The level is one that the meter can have. -/
structure Sound : Prop where
  nonneg : 0 ≤ s.tokens
  le_capacity : s.tokens ≤ m.capacity

variable {m s}

theorem level_le_capacity (now : K) : m.level s now ≤ m.capacity := min_le_left _ _

theorem level_le_refilled (now : K) :
    m.level s now ≤ s.tokens + m.rate * (now - s.time) := min_le_right _ _

theorem level_self (h : m.Sound s) : m.level s s.time = s.tokens := by
  simp [level, h.le_capacity]

theorem level_of_idle {now : K} (hidle : m.capacity ≤ s.tokens + m.rate * (now - s.time)) :
    m.level s now = m.capacity := min_eq_left hidle

theorem take_congr {other : Level K} {now : K} (h : m.level s now = m.level other now) :
    m.take s now = m.take other now := by
  unfold take
  rw [h]

theorem take_time (now : K) : (m.take s now).2.time = now := by
  unfold take
  split_ifs <;> rfl

def admittedWithin (m : Meter K) (s : Level K) (first last : K) (times : List K) : Nat :=
  ((m.admitted s times).filter fun time => first ≤ time ∧ time ≤ last).length

theorem admitted_subset (s : Level K) (times : List K) : m.admitted s times ⊆ times := by
  induction times generalizing s with
  | nil => exact List.Subset.refl _
  | cons now times ih =>
    rw [admitted]
    split_ifs
    · exact List.cons_subset_cons now (ih _)
    · exact List.subset_cons_of_subset now (ih _)

variable {first last : K}

theorem admittedWithin_late {times : List K}
    (hlate : ∀ time ∈ times, last < time) : m.admittedWithin s first last times = 0 := by
  unfold admittedWithin
  rw [List.length_eq_zero_iff, List.filter_eq_nil_iff]
  intro time htime
  have hlt := hlate time (admitted_subset s times htime)
  simp only [decide_eq_true_eq, not_and, not_le]
  exact fun _ => hlt

/-- The tokens that requests between the two times can find: what is there, and what is
refilled. -/
def supply (m : Meter K) (s : Level K) (first last : K) : K :=
  if first ≤ s.time then s.tokens + m.rate * (last - s.time)
  else m.capacity + m.rate * (last - first)

theorem supply_early {first last now : K} (hnow : s.time ≤ now) (hearly : now < first) :
    m.supply (m.take s now).2 first last = m.supply s first last := by
  unfold supply
  rw [take_time, if_neg (not_le.mpr hearly), if_neg (not_le.mpr (lt_of_le_of_lt hnow hearly))]

/-! ## In an ordered field -/

variable [IsStrictOrderedRing K]

theorem level_nonneg (h : m.Sound s) {now : K} (hnow : s.time ≤ now) : 0 ≤ m.level s now := by
  have hrefill : 0 ≤ m.rate * (now - s.time) := mul_nonneg m.rate_nonneg (sub_nonneg.mpr hnow)
  exact le_min m.capacity_nonneg (by linarith [h.nonneg])

theorem sound_take (h : m.Sound s) {now : K} (hnow : s.time ≤ now) : m.Sound (m.take s now).2 := by
  have hle := m.level_le_capacity (s := s) now
  have hnonneg := level_nonneg h hnow
  unfold take
  split_ifs with hone
  · exact ⟨sub_nonneg.mpr hone, by linarith⟩
  · exact ⟨hnonneg, hle⟩

theorem supply_nonneg (h : m.Sound s) (hfirst : first ≤ last)
    (hlast : s.time ≤ last) : 0 ≤ m.supply s first last := by
  unfold supply
  split_ifs
  · have := mul_nonneg m.rate_nonneg (sub_nonneg.mpr hlast)
    linarith [h.nonneg]
  · have := mul_nonneg m.rate_nonneg (sub_nonneg.mpr hfirst)
    linarith [m.capacity_nonneg]

theorem supply_take {first last now : K} (hfirst : first ≤ now) :
    (if (m.take s now).1 then 1 else 0) + m.supply (m.take s now).2 first last ≤
      m.supply s first last := by
  have hspent : (if (m.take s now).1 then 1 else 0) + (m.take s now).2.tokens =
      m.level s now := by
    unfold take
    by_cases hone : 1 ≤ m.level s now <;> simp [hone]
  have hcapacity := m.level_le_capacity (s := s) now
  have hrefilled := m.level_le_refilled (s := s) now
  generalize (if (m.take s now).1 then 1 else 0 : K) = spent at hspent ⊢
  unfold supply
  rw [take_time, if_pos hfirst]
  split_ifs with hbefore
  · have hsplit : m.rate * (last - s.time) =
        m.rate * (last - now) + m.rate * (now - s.time) := by ring
    linarith
  · have hless : m.rate * (last - now) ≤ m.rate * (last - first) :=
      mul_le_mul_of_nonneg_left (by linarith) m.rate_nonneg
    linarith

theorem admittedWithin_le_supply (h : m.Sound s) (hinterval : first ≤ last) (hlast : s.time ≤ last)
    {times : List K} (htimes : (s.time :: times).Pairwise (· ≤ ·)) :
    (m.admittedWithin s first last times : K) ≤ m.supply s first last := by
  induction times generalizing s with
  | nil =>
    simp only [admittedWithin, admitted, List.filter_nil, List.length_nil, Nat.cast_zero]
    exact supply_nonneg h hinterval hlast
  | cons now times ih =>
    obtain ⟨hnow, hlater⟩ := List.pairwise_cons.mp htimes
    have hnow := hnow now List.mem_cons_self
    by_cases hinside : now ≤ last
    · have hrest := ih (sound_take h hnow) (by rwa [take_time])
        (by rw [take_time]; exact hlater)
      by_cases hfirst : first ≤ now
      · have hcount : (m.admittedWithin s first last (now :: times) : K) =
            (if (m.take s now).1 then 1 else 0) +
              m.admittedWithin (m.take s now).2 first last times := by
          unfold admittedWithin
          rw [admitted]
          split_ifs
          · simp [hfirst, hinside, add_comm]
          · simp
        have hspent : (if (m.take s now).1 then 1 else 0) +
            m.supply (m.take s now).2 first last ≤ m.supply s first last :=
          supply_take hfirst
        linarith
      · have hcount : m.admittedWithin s first last (now :: times) =
            m.admittedWithin (m.take s now).2 first last times := by
          unfold admittedWithin
          rw [admitted]
          split_ifs
          · simp [hfirst]
          · rfl
        rw [hcount, ← supply_early hnow (not_le.mp hfirst)]
        exact hrest
    · have hlate : ∀ time ∈ now :: times, last < time := by
        intro time htime
        obtain rfl | htime := List.mem_cons.mp htime
        · exact not_le.mp hinside
        · exact lt_of_lt_of_le (not_le.mp hinside) ((List.pairwise_cons.mp hlater).1 _ htime)
      rw [admittedWithin_late hlate, Nat.cast_zero]
      exact supply_nonneg h hinterval hlast

theorem admittedWithin_le (h : m.Sound s) (hinterval : first ≤ last)
    {times : List K} (htimes : (s.time :: times).Pairwise (· ≤ ·)) :
    (m.admittedWithin s first last times : K) ≤ m.capacity + m.rate * (last - first) := by
  have hnonneg := mul_nonneg m.rate_nonneg (sub_nonneg.mpr hinterval)
  by_cases hlast : s.time ≤ last
  · refine (admittedWithin_le_supply h hinterval hlast htimes).trans ?_
    unfold supply
    split_ifs with hfirst
    · have hless : m.rate * (last - s.time) ≤ m.rate * (last - first) :=
        mul_le_mul_of_nonneg_left (by linarith) m.rate_nonneg
      linarith [h.le_capacity]
    · exact le_rfl
  · have hlate : ∀ time ∈ times, last < time := fun time htime =>
      lt_of_lt_of_le (not_le.mp hlast) ((List.pairwise_cons.mp htimes).1 time htime)
    rw [admittedWithin_late hlate, Nat.cast_zero]
    linarith [m.capacity_nonneg]

end Meter

end Foundation.Metering
