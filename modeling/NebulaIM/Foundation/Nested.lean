import NebulaIM.Foundation.Store

/-!
# Tables of tables

An index with two levels whose inner tables are made by the first entry and
removed with the last one.
-/

namespace Foundation.Store

abbrev Nested (A B V : Type) := Table A (Table B V)

namespace Nested

variable {A B V : Type} [DecidableEq A] [DecidableEq B]

def find (nested : Nested A B V) (a : A) (b : B) : Option V :=
  (nested.lookup a).bind fun inner => inner.lookup b

def put (nested : Nested A B V) (a : A) (b : B) (value : V) : Nested A B V :=
  nested.insert a (((nested.lookup a).getD ∅).insert b value)

/-- Replace an inner table; one without entries is removed. -/
def settle (nested : Nested A B V) (a : A) (rest : Table B V) : Nested A B V :=
  if rest.entries.isEmpty then nested.erase a else nested.insert a rest

/-- Erase the entry if it has the value. -/
def drop [DecidableEq V] (nested : Nested A B V) (a : A) (b : B) (value : V) :
    Nested A B V :=
  match nested.lookup a with
  | none => nested
  | some inner =>
    nested.settle a (if inner.lookup b = some value then inner.erase b else inner)

def Full (nested : Nested A B V) : Prop :=
  ∀ ⦃a inner⦄, nested.lookup a = some inner → inner.entries ≠ []

variable {nested : Nested A B V}

theorem find_put (a a' : A) (b b' : B) (value : V) : (nested.put a b value).find a' b' =
      if a' = a ∧ b' = b then some value else nested.find a' b' := by
  by_cases ha : a' = a
  · subst ha
    rw [find, put, AList.lookup_insert, Option.bind_some]
    by_cases hb : b' = b
    · subst hb
      simp
    · rw [AList.lookup_insert_ne hb, if_neg fun h => hb h.2, find]
      cases nested.lookup a' with
      | none => simp
      | some inner => rfl
  · rw [find, put, AList.lookup_insert_ne ha, if_neg fun h => ha h.1, find]

theorem find_of_entries_nil {inner : Table B V} (h : inner.entries = []) (b : B) :
    inner.lookup b = none := by
  have hempty : inner = ∅ := AList.ext h
  rw [hempty, AList.lookup_empty]

theorem find_settle (a a' : A) (rest : Table B V) (b : B) : (nested.settle a rest).find a' b =
      if a' = a then rest.lookup b else nested.find a' b := by
  rw [settle]
  by_cases ha : a' = a
  · subst ha
    rw [if_pos rfl]
    split
    · next hempty =>
      rw [find_of_entries_nil (List.isEmpty_iff.mp hempty), find, AList.lookup_erase]
      rfl
    · rw [find, AList.lookup_insert]
      rfl
  · rw [if_neg ha]
    split
    · rw [find, AList.lookup_erase_ne ha, find]
    · rw [find, AList.lookup_insert_ne ha, find]

theorem find_drop [DecidableEq V] (a a' : A) (b b' : B) (value : V) :
    (nested.drop a b value).find a' b' =
      if a' = a ∧ b' = b ∧ nested.find a b = some value then none
      else nested.find a' b' := by
  cases hinner : nested.lookup a with
  | none =>
    have hnone : nested.find a b ≠ some value := by simp [find, hinner]
    rw [drop, hinner, if_neg fun h => hnone h.2.2]
  | some inner =>
    have hfind (b : B) : nested.find a b = inner.lookup b := by
      rw [find, hinner]
      rfl
    rw [drop, hinner, find_settle]
    by_cases ha : a' = a
    · subst ha
      simp only [if_true, true_and, hfind]
      by_cases hvalue : inner.lookup b = some value
      · by_cases hb : b' = b
        · subst hb
          simp [hvalue, AList.lookup_erase]
        · simp [hvalue, hb, AList.lookup_erase_ne hb]
      · simp [hvalue]
    · rw [if_neg ha, if_neg fun h => ha h.1]

omit [DecidableEq B] in
theorem Full.empty : Full (∅ : Nested A B V) := by
  intro a inner h
  rw [AList.lookup_empty] at h
  cases h

omit [DecidableEq B] in
theorem Full.insert (h : Full nested) (a : A) {rest : Table B V}
    (hrest : rest.entries ≠ []) : Full (nested.insert a rest) := by
  intro a' inner hinner
  by_cases ha : a' = a
  · subst ha
    rw [AList.lookup_insert] at hinner
    cases hinner
    exact hrest
  · rw [AList.lookup_insert_ne ha] at hinner
    exact h hinner

theorem Full.put (h : Full nested) (a : A) (b : B) (value : V) : Full (nested.put a b value) := by
  refine h.insert a fun hempty => ?_
  have hnone := find_of_entries_nil hempty b
  rw [AList.lookup_insert] at hnone
  cases hnone

omit [DecidableEq B] in
theorem Full.settle (h : Full nested) (a : A) (rest : Table B V) : Full (nested.settle a rest) := by
  rw [Nested.settle]
  split
  · intro a' inner hinner
    by_cases ha : a' = a
    · subst ha
      rw [AList.lookup_erase] at hinner
      cases hinner
    · rw [AList.lookup_erase_ne ha] at hinner
      exact h hinner
  · next hrest =>
    rw [List.isEmpty_iff] at hrest
    exact h.insert a hrest

theorem Full.drop [DecidableEq V] (h : Full nested) (a : A) (b : B) (value : V) :
    Full (nested.drop a b value) := by
  rw [Nested.drop]
  split
  · exact h
  · exact h.settle a _

theorem Full.mem_keys_iff (h : Full nested) (a : A) :
    a ∈ nested.keys ↔ ∃ b value, nested.find a b = some value := by
  rw [← AList.mem_keys, ← AList.lookup_isSome]
  constructor
  · intro hsome
    obtain ⟨inner, hinner⟩ := Option.isSome_iff_exists.mp hsome
    obtain ⟨⟨b, value⟩, hentry⟩ := List.exists_mem_of_ne_nil _ (h hinner)
    refine ⟨b, value, ?_⟩
    rw [find, hinner]
    exact AList.mem_lookup_iff.mpr hentry
  · rintro ⟨b, value, hfind⟩
    obtain ⟨inner, hinner, _⟩ := Option.bind_eq_some_iff.mp hfind
    rw [hinner]
    rfl

end Nested

end Foundation.Store
