import Mathlib.Data.Nat.Bitwise
import Mathlib.Tactic.Ring

/-!
# Message ids

`MessageIdGenerator` packs a millisecond, a node id and a sequence number into
64 bits. The clock is the list of the values that `currentMs` returns; nothing is
assumed about it. A call that waits until the list runs out has not returned.
-/

namespace NebulaIM.Message

def kEpochMs : UInt64 := 1767225600000

def kMaxNodeId : UInt16 := 1023

def kSequenceMask : UInt16 := 4095

/-- `kEpochMs + 2^42`, the first timestamp that has no place in an id. -/
def timestampEnd : UInt64 := kEpochMs + 4398046511104

structure MessageIdGenerator where
  nodeId : UInt16
  lastTimestampMs : UInt64
  sequence : UInt16
  nodeId_le : nodeId ≤ kMaxNodeId
  sequence_le : sequence ≤ kSequenceMask

abbrev Clocked := StateT (List UInt64) Option

def currentMs : Clocked UInt64
  | [] => none
  | now :: readings => some (now, readings)

def waitNextMs (lastMs : UInt64) : Clocked Unit
  | [] => none
  | now :: readings =>
    if now < kEpochMs ∨ lastMs < now then some ((), readings)
    else waitNextMs lastMs readings

variable {clock readings : List UInt64}

theorem Clocked.bind_eq_some {α β : Type} {x : Clocked α} {f : α → Clocked β} {b : β} :
    (x >>= f) clock = some (b, readings) ↔
      ∃ a middle, x clock = some (a, middle) ∧ f a middle = some (b, readings) := by
  change (x clock).bind (fun result => f result.1 result.2) = _ ↔ _
  simp [Option.bind_eq_some_iff]

theorem Clocked.bind_of {α β : Type} {x : Clocked α} {clock middle : List UInt64}
    {a : α} (hx : x clock = some (a, middle)) (f : α → Clocked β) :
    (x >>= f) clock = f a middle := by
  change (x clock).bind (fun result => f result.1 result.2) = _
  rw [hx]
  rfl

theorem Clocked.pure_eq_some {α : Type} {a b : α} :
    (pure a : Clocked α) clock = some (b, readings) ↔ a = b ∧ clock = readings := by
  change some (a, clock) = _ ↔ _
  simp

namespace MessageIdGenerator

def new (nodeId : UInt16) : MessageIdGenerator where
  nodeId := if kMaxNodeId < nodeId then kMaxNodeId else nodeId
  lastTimestampMs := 0
  sequence := 0
  nodeId_le := by
    split
    · exact UInt16.le_refl _
    · next h => exact UInt16.not_lt.mp h
  sequence_le := UInt16.zero_le

/-- The clamp that follows each reading in `nextId`. -/
def clamped (now : UInt64) : UInt64 :=
  if now < kEpochMs then kEpochMs else now

/-- The wait, the second reading and its two clamps, which `nextId` has twice. -/
def laterMs (lastMs : UInt64) : Clocked UInt64 := do
  waitNextMs lastMs
  let now := clamped (← currentMs)
  return if now ≤ lastMs then lastMs + 1 else now

/-- The assignments at the end of `nextId`. -/
def stamped (g : MessageIdGenerator) (now : UInt64) (sequence : UInt16)
    (hle : sequence ≤ kSequenceMask) : MessageIdGenerator :=
  ⟨g.nodeId, now, sequence, g.nodeId_le, hle⟩

def id (g : MessageIdGenerator) : UInt64 :=
  ((g.lastTimestampMs - kEpochMs) <<< 22) ||| (g.nodeId.toUInt64 <<< 12) |||
    g.sequence.toUInt64

/-- `sequence_ = (sequence_ + 1) & kSequenceMask` -/
def nextSequence (g : MessageIdGenerator) : UInt16 := (g.sequence + 1) &&& kSequenceMask

theorem nextSequence_le (g : MessageIdGenerator) : g.nextSequence ≤ kSequenceMask := by
  rw [UInt16.le_iff_toNat_le, nextSequence, UInt16.toNat_and]
  exact Nat.and_le_right

/-- The first reading; a clock that went backward is waited for. -/
def startMs (g : MessageIdGenerator) : Clocked UInt64 := do
  let now := clamped (← currentMs)
  if now < g.lastTimestampMs then laterMs g.lastTimestampMs else return now

def advance (g : MessageIdGenerator) : Clocked MessageIdGenerator := do
  let now ← g.startMs
  if now = g.lastTimestampMs then
    if g.nextSequence = 0 then
      let now ← laterMs g.lastTimestampMs
      return g.stamped now g.nextSequence g.nextSequence_le
    else
      return g.stamped now g.nextSequence g.nextSequence_le
  else
    return g.stamped now 0 UInt16.zero_le

def nextId (g : MessageIdGenerator) : Clocked (UInt64 × MessageIdGenerator) := do
  let g ← g.advance
  return (g.id, g)

/-- Successive calls: what each returned and the generator after it. The mutex
makes the calls of several threads successive. -/
def calls : Nat → MessageIdGenerator → List UInt64 → List (UInt64 × MessageIdGenerator)
  | 0, _, _ => []
  | n + 1, g, clock =>
    match g.nextId clock with
    | none => []
    | some (result, readings) => result :: calls n result.2 readings

/-! ## The packing -/

theorem sequence_lt (g : MessageIdGenerator) : g.sequence.toNat < 2 ^ 12 := by
  have hle := UInt16.le_iff_toNat_le.mp g.sequence_le
  exact Nat.lt_succ_of_le hle

theorem nodeId_lt (g : MessageIdGenerator) : g.nodeId.toNat < 2 ^ 10 := by
  have hle := UInt16.le_iff_toNat_le.mp g.nodeId_le
  exact Nat.lt_succ_of_le hle

theorem toNat_id (g : MessageIdGenerator) :
    g.id.toNat = ((g.lastTimestampMs - kEpochMs).toNat % 2 ^ 42) * 2 ^ 22 +
      g.nodeId.toNat * 2 ^ 12 + g.sequence.toNat := by
  have hsequence := g.sequence_lt
  have hnode := g.nodeId_lt
  have hhigh : ((g.lastTimestampMs - kEpochMs) <<< 22).toNat =
      ((g.lastTimestampMs - kEpochMs).toNat % 2 ^ 42) <<< 22 := by
    rw [UInt64.toNat_shiftLeft, Nat.shiftLeft_eq, Nat.shiftLeft_eq]
    have := Nat.mul_mod_mul_right (2 ^ 22) (g.lastTimestampMs - kEpochMs).toNat (2 ^ 42)
    simpa using this
  have hmiddle : (g.nodeId.toUInt64 <<< 12).toNat = g.nodeId.toNat <<< 12 := by
    rw [UInt64.toNat_shiftLeft, Nat.shiftLeft_eq, Nat.shiftLeft_eq]
    apply Nat.mod_eq_of_lt
    simp
    omega
  have hlow : g.nodeId.toNat <<< 12 ||| g.sequence.toNat =
      g.nodeId.toNat * 2 ^ 12 + g.sequence.toNat := by
    rw [← Nat.shiftLeft_add_eq_or_of_lt hsequence, Nat.shiftLeft_eq]
  rw [id, UInt64.toNat_or, UInt64.toNat_or, hhigh, hmiddle, Nat.or_assoc]
  rw [UInt16.toNat_toUInt64, hlow, ← Nat.shiftLeft_add_eq_or_of_lt (by omega),
    Nat.shiftLeft_eq, Nat.add_assoc]

theorem nodeId_of_id (g : MessageIdGenerator) : g.id.toNat / 2 ^ 12 % 2 ^ 10 = g.nodeId.toNat := by
  have hsequence := g.sequence_lt
  have hnode := g.nodeId_lt
  rw [toNat_id]
  omega

/-- The millisecond and the sequence number, in the order that the ids follow. -/
def Before (g g' : MessageIdGenerator) : Prop :=
  g.lastTimestampMs < g'.lastTimestampMs ∨
    g.lastTimestampMs = g'.lastTimestampMs ∧ g.sequence < g'.sequence

theorem Before.trans {g₁ g₂ g₃ : MessageIdGenerator} (h₁ : g₁.Before g₂)
    (h₂ : g₂.Before g₃) : g₁.Before g₃ := by
  simp only [Before, UInt64.lt_iff_toNat_lt, UInt16.lt_iff_toNat_lt, ← UInt64.toNat_inj] at *
  omega

def InRange (g : MessageIdGenerator) : Prop :=
  kEpochMs ≤ g.lastTimestampMs ∧ g.lastTimestampMs < timestampEnd

variable {g : MessageIdGenerator}

theorem InRange.toNat_id (hrange : g.InRange) :
    g.id.toNat = (g.lastTimestampMs.toNat - kEpochMs.toNat) * 2 ^ 22 +
      g.nodeId.toNat * 2 ^ 12 + g.sequence.toNat := by
  obtain ⟨hepoch, hbound⟩ := hrange
  have hbound := UInt64.lt_iff_toNat_lt.mp hbound
  have htop : timestampEnd.toNat = kEpochMs.toNat + 2 ^ 42 := by decide
  rw [MessageIdGenerator.toNat_id, UInt64.toNat_sub_of_le _ _ hepoch, Nat.mod_eq_of_lt (by omega)]

theorem Before.id_lt {g g' : MessageIdGenerator} (hbefore : g.Before g')
    (hnode : g.nodeId = g'.nodeId) (hrange : g.InRange) (hrange' : g'.InRange) :
    g.id < g'.id := by
  have hsequence := g.sequence_lt
  have hepoch := UInt64.le_iff_toNat_le.mp hrange.1
  rw [UInt64.lt_iff_toNat_lt, hrange.toNat_id, hrange'.toNat_id, hnode]
  simp only [Before, UInt64.lt_iff_toNat_lt, UInt16.lt_iff_toNat_lt, ← UInt64.toNat_inj] at hbefore
  omega

/-! ## One call -/

theorem le_clamped (now : UInt64) : kEpochMs ≤ clamped now := by
  unfold clamped
  split
  · exact UInt64.le_refl _
  · next h => exact UInt64.not_lt.mp h

theorem laterMs_gt {lastMs now : UInt64} (hroom : lastMs.toNat + 1 < 2 ^ 64)
    (hlater : laterMs lastMs clock = some (now, readings)) :
    lastMs < now ∧ kEpochMs ≤ now := by
  simp only [laterMs, Clocked.bind_eq_some, Clocked.pure_eq_some] at hlater
  obtain ⟨_, _, _, reading, _, _, rfl, _⟩ := hlater
  have hepoch := le_clamped reading
  split
  · next hstalled =>
    simp only [UInt64.lt_iff_toNat_lt, UInt64.le_iff_toNat_le, UInt64.toNat_add] at *
    simp only [UInt64.toNat_one]
    omega
  · next hpassed => exact ⟨UInt64.not_le.mp hpassed, hepoch⟩

/-- Without a wrap to zero the sequence number has gone up by one. -/
theorem lt_nextSequence (hwrap : g.nextSequence ≠ 0) : g.sequence < g.nextSequence := by
  have hsequence := g.sequence_lt
  have hnext : g.nextSequence.toNat = (g.sequence.toNat + 1) % 2 ^ 12 := by
    rw [nextSequence, UInt16.toNat_and, UInt16.toNat_add]
    have hmask : kSequenceMask.toNat = 2 ^ 12 - 1 := rfl
    rw [hmask, Nat.and_two_pow_sub_one_eq_mod, UInt16.toNat_one]
    omega
  rw [ne_eq, ← UInt16.toNat_inj, UInt16.toNat_zero] at hwrap
  rw [UInt16.lt_iff_toNat_lt]
  omega

theorem startMs_cases {now : UInt64} (hstart : g.startMs clock = some (now, readings)) :
    (∃ earlier, laterMs g.lastTimestampMs earlier = some (now, readings)) ∨
      kEpochMs ≤ now ∧ g.lastTimestampMs ≤ now := by
  obtain ⟨reading, first, _, hnow⟩ := Clocked.bind_eq_some.mp hstart
  split at hnow
  · exact .inl ⟨first, hnow⟩
  · next hbehind =>
    obtain ⟨rfl, _⟩ := Clocked.pure_eq_some.mp hnow
    exact .inr ⟨le_clamped reading, UInt64.not_lt.mp hbehind⟩

/-- All that a call can do to the fields. -/
theorem advance_cases {g g' : MessageIdGenerator} (hcall : g.advance clock = some (g', readings)) :
    ∃ now sequence, ∃ hle, g' = g.stamped now sequence hle ∧
      ((∃ earlier, laterMs g.lastTimestampMs earlier = some (now, readings)) ∨
        kEpochMs ≤ now ∧ g.lastTimestampMs < now ∨
        kEpochMs ≤ now ∧ now = g.lastTimestampMs ∧ g.sequence < sequence) := by
  obtain ⟨now, second, hstart, hstamp⟩ := Clocked.bind_eq_some.mp hcall
  have hadvanced := startMs_cases hstart
  split at hstamp
  · next hsame =>
    split at hstamp
    · obtain ⟨later, third, hlater, hstamp⟩ := Clocked.bind_eq_some.mp hstamp
      obtain ⟨rfl, rfl⟩ := Clocked.pure_eq_some.mp hstamp
      exact ⟨later, _, _, rfl, .inl ⟨_, hlater⟩⟩
    · next hwrap =>
      obtain ⟨rfl, rfl⟩ := Clocked.pure_eq_some.mp hstamp
      refine ⟨now, _, _, rfl, hadvanced.imp_right fun hnow => .inr ?_⟩
      exact ⟨hnow.1, hsame, lt_nextSequence hwrap⟩
  · next hother =>
    obtain ⟨rfl, rfl⟩ := Clocked.pure_eq_some.mp hstamp
    refine ⟨now, _, _, rfl, hadvanced.imp_right fun hnow => .inl ⟨hnow.1, ?_⟩⟩
    exact UInt64.lt_of_le_of_ne hnow.2 (Ne.symm hother)

theorem advance_nodeId {g g' : MessageIdGenerator}
    (hcall : g.advance clock = some (g', readings)) : g'.nodeId = g.nodeId := by
  obtain ⟨_, _, _, rfl, _⟩ := advance_cases hcall
  rfl

theorem advance_before {g g' : MessageIdGenerator} (hroom : g.lastTimestampMs.toNat + 1 < 2 ^ 64)
    (hcall : g.advance clock = some (g', readings)) :
    g.Before g' ∧ kEpochMs ≤ g'.lastTimestampMs := by
  obtain ⟨now, sequence, hle, rfl, hwaited | ⟨hepoch, hlater⟩ | ⟨hepoch, rfl, hnext⟩⟩ :=
    advance_cases hcall
  · obtain ⟨_, hlater⟩ := hwaited
    obtain ⟨hgt, hepoch⟩ := laterMs_gt hroom hlater
    exact ⟨.inl hgt, hepoch⟩
  · exact ⟨.inl hlater, hepoch⟩
  · exact ⟨.inr ⟨rfl, hnext⟩, hepoch⟩

/-! ## All calls -/

theorem nextId_eq_some {result : UInt64 × MessageIdGenerator}
    (hcall : g.nextId clock = some (result, readings)) :
    g.advance clock = some (result.2, readings) ∧ result.1 = result.2.id := by
  obtain ⟨g', middle, hadvance, hresult⟩ := Clocked.bind_eq_some.mp hcall
  obtain ⟨rfl, rfl⟩ := Clocked.pure_eq_some.mp hresult
  exact ⟨hadvance, rfl⟩

theorem calls_id {n : Nat} {clock : List UInt64}
    {call : UInt64 × MessageIdGenerator} (hmem : call ∈ calls n g clock) :
    call.1 = call.2.id ∧ call.2.nodeId = g.nodeId := by
  induction n generalizing g clock with
  | zero => exact absurd hmem List.not_mem_nil
  | succ n ih =>
    rw [calls] at hmem
    split at hmem
    · exact absurd hmem List.not_mem_nil
    · next result readings hcall =>
      obtain ⟨hadvance, hid⟩ := nextId_eq_some hcall
      have hnode := advance_nodeId hadvance
      rcases List.mem_cons.mp hmem with rfl | hmem
      · exact ⟨hid, hnode⟩
      · obtain ⟨hid, hsame⟩ := ih hmem
        exact ⟨hid, hsame.trans hnode⟩

/-- The timestamps that the calls use stay below the end of the range. -/
def TimestampsBelow (used : List (UInt64 × MessageIdGenerator)) : Prop :=
  ∀ call ∈ used, call.2.lastTimestampMs < timestampEnd

instance (used : List (UInt64 × MessageIdGenerator)) : Decidable (TimestampsBelow used) :=
  List.decidableBAll _ used

theorem room_of_below (hbelow : g.lastTimestampMs < timestampEnd) :
    g.lastTimestampMs.toNat + 1 < 2 ^ 64 := by
  have hbelow := UInt64.lt_iff_toNat_lt.mp hbelow
  have htop : timestampEnd.toNat + 1 < 2 ^ 64 := by decide
  omega

theorem calls_before {n : Nat} {clock : List UInt64} (hstart : g.lastTimestampMs < timestampEnd)
    (hbelow : TimestampsBelow (calls n g clock)) :
    (∀ call ∈ calls n g clock, g.Before call.2 ∧ call.2.InRange) ∧
      (calls n g clock).Pairwise fun call later => call.2.Before later.2 := by
  induction n generalizing g clock with
  | zero => exact ⟨fun call hmem => absurd hmem List.not_mem_nil, .nil⟩
  | succ n ih =>
    rw [calls] at hbelow ⊢
    split at hbelow
    · exact ⟨fun call hmem => absurd hmem List.not_mem_nil, .nil⟩
    · next result readings hcall =>
      obtain ⟨hadvance, _⟩ := nextId_eq_some hcall
      obtain ⟨hbefore, hepoch⟩ := advance_before (room_of_below hstart) hadvance
      obtain ⟨hhere, hrest⟩ := List.forall_mem_cons.mp hbelow
      obtain ⟨hlater, hpairs⟩ := ih hhere hrest
      constructor
      · intro call hmem
        rcases List.mem_cons.mp hmem with rfl | hmem
        · exact ⟨hbefore, hepoch, hhere⟩
        · obtain ⟨hafter, hrange⟩ := hlater call hmem
          exact ⟨hbefore.trans hafter, hrange⟩
      · exact .cons (fun call hmem => (hlater call hmem).1) hpairs

/-- The ids of one generator increase strictly, and two generators with different
node ids have no id in common. -/
theorem ids_increasing_and_distinct :
    (∀ (nodeId : UInt16) (clock : List UInt64) (n : Nat),
      TimestampsBelow (calls n (new nodeId) clock) →
        ((calls n (new nodeId) clock).map Prod.fst).Pairwise (· < ·)) ∧
      ∀ (nodeId nodeId' : UInt16) (clock clock' : List UInt64) (n n' : Nat),
        nodeId ≤ kMaxNodeId → nodeId' ≤ kMaxNodeId → nodeId ≠ nodeId' →
          ∀ call ∈ calls n (new nodeId) clock,
            ∀ call' ∈ calls n' (new nodeId') clock', call.1 ≠ call'.1 := by
  constructor
  · intro nodeId clock n hbelow
    have hstart : (0 : UInt64) < timestampEnd := by decide
    obtain ⟨hrange, hpairs⟩ := @calls_before (new nodeId) n clock hstart hbelow
    rw [List.pairwise_map]
    refine hpairs.imp_of_mem fun {call later} hcall hlater hbefore => ?_
    obtain ⟨hid, hnode⟩ := calls_id hcall
    obtain ⟨hid', hnode'⟩ := calls_id hlater
    rw [hid, hid']
    exact hbefore.id_lt (hnode.trans hnode'.symm) (hrange call hcall).2 (hrange later hlater).2
  · intro nodeId nodeId' clock clock' n n' hle hle' hne call hcall call' hcall' heq
    obtain ⟨hid, hnode⟩ := calls_id hcall
    obtain ⟨hid', hnode'⟩ := calls_id hcall'
    -- the node id can be read back, so that equal ids have equal node ids
    have hread := call.2.nodeId_of_id
    rw [← hid, heq, hid', nodeId_of_id, hnode, hnode'] at hread
    simp only [new, if_neg (UInt16.not_lt.mpr hle), if_neg (UInt16.not_lt.mpr hle')] at hread
    exact hne (UInt16.toNat_inj.mp hread).symm

/-- A clock that stalls and jumps back, and two nodes with one clock. -/
theorem stalled_clock_increasing :
    ((calls 3 (new 7) [1767225600005, 1767225600005, 3, 1767225600009, 1]).map
      Prod.fst).Pairwise (· < ·) ∧
      ∀ call ∈ calls 2 (new 7) [1767225600005, 1767225600005],
        ∀ call' ∈ calls 2 (new 8) [1767225600005, 1767225600005], call.1 ≠ call'.1 :=
  ⟨ids_increasing_and_distinct.1 7 _ 3 (by decide),
    ids_increasing_and_distinct.2 7 8 _ _ 2 2 (by decide) (by decide) (by decide)⟩

/-! ## A call returns -/

theorem waitNextMs_returns {lastMs late now : UInt64}
    (hlate : late < kEpochMs ∨ lastMs < late) (stalled readings : List UInt64) :
    ∃ rest, waitNextMs lastMs (stalled ++ late :: now :: readings) = some ((), rest) ∧
      rest ≠ [] := by
  induction stalled with
  | nil => exact ⟨now :: readings, if_pos hlate, List.cons_ne_nil _ _⟩
  | cons reading stalled ih =>
    by_cases hleaves : reading < kEpochMs ∨ lastMs < reading
    · exact ⟨_, if_pos hleaves, by simp⟩
    · obtain ⟨rest, hwait, hne⟩ := ih
      exact ⟨rest, (if_neg hleaves).trans hwait, hne⟩

theorem laterMs_returns {lastMs late now : UInt64}
    (hlate : late < kEpochMs ∨ lastMs < late) (stalled readings : List UInt64) :
    ∃ later rest, laterMs lastMs (stalled ++ late :: now :: readings) =
      some (later, rest) ∧ later ≠ lastMs := by
  obtain ⟨_, hwait, hne⟩ := @waitNextMs_returns lastMs late now hlate stalled readings
  obtain ⟨next, rest, rfl⟩ := List.exists_cons_of_ne_nil hne
  refine ⟨_, rest, Clocked.bind_of hwait _, ?_⟩
  split
  · simp
  · next hpassed =>
    rintro heq
    exact hpassed (heq ▸ UInt64.le_refl _)

/-- A call waits at most once: it has returned when a reading beyond the last
timestamp, or one before the epoch, has been seen and the clock read once more. -/
theorem advance_returns (g : MessageIdGenerator) {first late now : UInt64}
    (hlate : late < kEpochMs ∨ g.lastTimestampMs < late) (stalled readings : List UInt64) :
    ∃ g' rest, g.advance (first :: (stalled ++ late :: now :: readings)) = some (g', rest) := by
  obtain ⟨later, rest, hlater, hne⟩ := @laterMs_returns _ _ now hlate stalled readings
  have hread : currentMs (first :: (stalled ++ late :: now :: readings)) =
      some (first, stalled ++ late :: now :: readings) := rfl
  by_cases hbehind : clamped first < g.lastTimestampMs
  · have hstart : g.startMs (first :: (stalled ++ late :: now :: readings)) =
        some (later, rest) := by
      rw [startMs, Clocked.bind_of hread, if_pos hbehind, hlater]
    rw [advance, Clocked.bind_of hstart, if_neg hne]
    exact ⟨_, _, rfl⟩
  · have hstart : g.startMs (first :: (stalled ++ late :: now :: readings)) =
        some (clamped first, stalled ++ late :: now :: readings) := by
      rw [startMs, Clocked.bind_of hread, if_neg hbehind]
      rfl
    rw [advance, Clocked.bind_of hstart]
    split
    · split
      · rw [Clocked.bind_of hlater]
        exact ⟨_, _, rfl⟩
      · exact ⟨_, _, rfl⟩
    · exact ⟨_, _, rfl⟩

theorem nextId_returns (g : MessageIdGenerator) {first late now : UInt64}
    (hlate : late < kEpochMs ∨ g.lastTimestampMs < late) (stalled readings : List UInt64) :
    ∃ g' rest, g.nextId (first :: (stalled ++ late :: now :: readings)) =
      some ((g'.id, g'), rest) := by
  obtain ⟨g', rest, hadvance⟩ := @advance_returns g first late now hlate stalled readings
  exact ⟨g', rest, Clocked.bind_of hadvance _⟩

theorem nextId_returns_after_stall : ∃ g' rest,
    (new 7).nextId [3, 0, 1767225600005, 8] = some ((g'.id, g'), rest) :=
  nextId_returns (new 7) (.inr (by decide)) [0] []

end MessageIdGenerator

end NebulaIM.Message
