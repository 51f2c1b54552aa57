import NebulaIM.Foundation.Interleaving
import NebulaIM.Push.Worker

/-!
# Offsets of the push consumers

Any number of push workers of one consumer group poll, handle and commit records
of append-only partition logs.  A worker that has stopped is restarted as a new
thread; a rebalance puts a worker back to the committed offset of a partition.
The invariant relates three offsets: below the committed offset, and below the
position of a worker between two rounds, every record has been handled.
-/

namespace NebulaIM.Push

open Foundation
open Foundation.Store (Fault)
open Foundation.Wire (Bytes)

abbrev Partition := Bytes × Nat

def KafkaMessage.source (record : KafkaMessage) : Partition := (record.topic, record.partition)

/-! ## The brokers and the consumers -/

structure Brokers where
  log : Partition → List KafkaMessage
  /-- The log end offset: later records are appended at or above it. -/
  logEnd : Partition → Nat
  committed : Partition → Nat := fun _ => 0
  /-- The next offset that a worker fetches from a partition. -/
  position : Nat → Partition → Nat := fun _ _ => 0
  stopped : Nat → Bool := fun _ => false
  /-- The records for which `handleKafkaMessage` has returned `true`. -/
  handled : List KafkaMessage := []

namespace Brokers

def seekTo (w : Brokers) (tid : Nat) (source : Partition) (offset : Nat) :
    Brokers :=
  { w with
    position := Function.update w.position tid (Function.update (w.position tid) source offset) }

def commitAt (w : Brokers) (source : Partition) (offset : Nat) : Brokers :=
  { w with committed := Function.update w.committed source offset }

def stop (w : Brokers) (tid : Nat) : Brokers :=
  { w with stopped := Function.update w.stopped tid true }

/-- The record that a producer appends; transactions and compaction leave gaps. -/
def appended (w : Brokers) (source : Partition) (key payload : Bytes) (gap : Nat) : KafkaMessage :=
  { topic := source.1, key, payload, partition := source.2
    offset := w.logEnd source + gap }

/-- The first record at or above the position of the worker. -/
def next (w : Brokers) (tid : Nat) (source : Partition) :
    Option KafkaMessage :=
  (w.log source).find? fun record => decide (w.position tid source ≤ record.offset)

end Brokers

inductive ConsumerOp where
  | subscribe
  | running
  | poll
  | handle (message : KafkaMessage)
  | commit (message : KafkaMessage)
  | seek (message : KafkaMessage)
  | halt

abbrev ConsumerOp.Res : ConsumerOp → Type
  | .subscribe => Unit
  | .running => Bool
  | .poll => Option KafkaMessage
  | .handle _ => Bool
  | .commit _ => Bool
  | .seek _ => Bool
  | .halt => Unit

/-- What the schedule decides for one call: where a poll fetches from, what the
handler returns, and whether a commit or a rewind fails. -/
structure ConsumerChoice where
  source : Partition := ([], 0)
  result : Bool := true
  fault : Fault := .none

inductive ConsumerEvent where
  | append (source : Partition) (key payload : Bytes) (gap : Nat)
  | assign (tid : Nat) (source : Partition)
  | stop (tid : Nat)

/-- An update that may be refused, or applied without its answer arriving. -/
def faulty (fault : Fault) (before after : Brokers) : Brokers × Bool :=
  match fault with
  | .none => (after, true)
  | .refused => (before, false)
  | .lost => (after, false)

def consumerExec (w : Brokers) (tid : Nat) (op : ConsumerOp)
    (choice : ConsumerChoice) : Brokers × op.Res :=
  match op with
  | .subscribe => ({ w with position := Function.update w.position tid w.committed }, ())
  | .running => (w, !w.stopped tid)
  | .poll =>
    match w.next tid choice.source with
    | none => (w, none)
    | some record => (w.seekTo tid choice.source (record.offset + 1), some record)
  | .handle message =>
    (if choice.result then { w with handled := message :: w.handled } else w, choice.result)
  | .commit message => faulty choice.fault w (w.commitAt message.source (message.offset + 1))
  | .seek message => faulty choice.fault w (w.seekTo tid message.source message.offset)
  | .halt => (w.stop tid, ())

def consumerEvent (w : Brokers) : ConsumerEvent → Brokers
  | .append source key payload gap =>
    let record := w.appended source key payload gap
    { w with
      log := Function.update w.log source (w.log source ++ [record])
      logEnd := Function.update w.logEnd source (record.offset + 1) }
  | .assign tid source => w.seekTo tid source (w.committed source)
  | .stop tid => w.stop tid

abbrev Consumer := Prog ConsumerOp ConsumerOp.Res

def consumerCall (op : ConsumerOp) : Consumer op.Res := Prog.perform op

def workerEnv : WorkerEnv Consumer where
  running := consumerCall .running
  poll := consumerCall .poll
  handleKafkaMessage message := consumerCall (.handle message)
  commit message := consumerCall (.commit message)
  seek message := consumerCall (.seek message)
  halt := consumerCall .halt

def startWorker (rounds : Nat) : Consumer Unit := do
  consumerCall .subscribe
  run workerEnv rounds

def consumers : System Nat ConsumerOp ConsumerOp.Res Brokers ConsumerChoice ConsumerEvent Unit where
  code := startWorker
  exec := consumerExec
  env := consumerEvent

/-! ## The invariant -/

/-- Every record of the partition below `offset` has been handled. -/
structure Below (source : Partition) (offset : Nat) (w : Brokers) : Prop where
  within : offset ≤ w.logEnd source
  handled : ∀ record ∈ w.log source, record.offset < offset → record ∈ w.handled

/-- The logs and the committed offsets of a reachable state. -/
structure OffsetsKept (w : Brokers) : Prop where
  sorted : ∀ source, (w.log source).Pairwise fun first second => first.offset < second.offset
  placed : ∀ source, ∀ record ∈ w.log source,
    record.source = source ∧ record.offset < w.logEnd source
  committed : ∀ source, Below source (w.committed source) w

/-- Logs are only appended to, and what has been handled stays handled. -/
structure LogsGrow (before after : Brokers) : Prop where
  kept : ∀ source, before.log source ⊆ after.log source
  appended : ∀ source, ∀ record ∈ after.log source,
    record ∈ before.log source ∨ before.logEnd source ≤ record.offset
  logEnd : ∀ source, before.logEnd source ≤ after.logEnd source
  handled : before.handled ⊆ after.handled

theorem LogsGrow.refl (w : Brokers) : LogsGrow w w :=
  ⟨fun _ _ h => h, fun _ _ h => .inl h, fun _ => Nat.le_refl _, fun _ h => h⟩

theorem LogsGrow.trans {first second third : Brokers}
    (h₁ : LogsGrow first second) (h₂ : LogsGrow second third) :
    LogsGrow first third where
  kept source _ h := h₂.kept source (h₁.kept source h)
  appended source record h := by
    obtain hold | hnew := h₂.appended source record h
    · exact h₁.appended source record hold
    · exact .inr ((h₁.logEnd source).trans hnew)
  logEnd source := (h₁.logEnd source).trans (h₂.logEnd source)
  handled _ h := h₂.handled (h₁.handled h)

variable {source : Partition}

theorem Below.mono {offset : Nat} {before after : Brokers}
    (h : Below source offset before) (hgrow : LogsGrow before after) :
    Below source offset after where
  within := h.within.trans (hgrow.logEnd source)
  handled record hrecord hlt := by
    obtain hold | hnew := hgrow.appended source record hrecord
    · exact hgrow.handled (h.handled record hold hlt)
    -- a record appended later lies above every offset of the earlier log
    · exact absurd (hlt.trans_le h.within) (Nat.not_lt.mpr hnew)

variable {w : Brokers}

theorem OffsetsKept.unique (hinv : OffsetsKept w) {first second : KafkaMessage}
    (hfirst : first ∈ w.log source) (hsecond : second ∈ w.log source)
    (heq : first.offset = second.offset) : first = second := by
  by_contra hne
  have : Std.Symm fun a b : KafkaMessage => a.offset ≠ b.offset := ⟨fun _ _ h => h.symm⟩
  have hdistinct := (hinv.sorted source).imp Nat.ne_of_lt
  exact hdistinct.forall hfirst hsecond hne heq

/-- A handled record extends what has been handled below it. -/
theorem Below.succ {record : KafkaMessage} (hinv : OffsetsKept w) (h : Below source record.offset w)
    (hlog : record ∈ w.log source) (hdone : record ∈ w.handled) :
    Below source (record.offset + 1) w where
  within := (hinv.placed source record hlog).2
  handled other hother hlt := by
    obtain hless | heq := Nat.lt_succ_iff_lt_or_eq.mp hlt
    · exact h.handled other hother hless
    · exact hinv.unique hother hlog heq ▸ hdone

theorem Brokers.next_spec (hinv : OffsetsKept w) {tid : Nat} {record : KafkaMessage}
    (hbelow : Below source (w.position tid source) w) (hnext : w.next tid source = some record) :
    record ∈ w.log source ∧ Below source record.offset w := by
  obtain ⟨_, skipped, rest, hlog, hskipped⟩ := List.find?_eq_some_iff_append.mp hnext
  have hmem : record ∈ w.log source := by simp [hlog]
  refine ⟨hmem, (hinv.placed source record hmem).2.le, ?_⟩
  intro other hother hlt
  have hsorted := hlog ▸ hinv.sorted source
  obtain ⟨hafter, _⟩ := List.pairwise_cons.mp (List.pairwise_append.mp hsorted).2.1
  rw [hlog, List.mem_append, List.mem_cons] at hother
  -- the log is sorted, so a smaller offset stands before the fetched record
  obtain hbefore | rfl | hrest := hother
  · have hposition : other.offset < w.position tid source := by
      simpa using hskipped other hbefore
    exact hbelow.handled other (by simp [hlog, hbefore]) hposition
  · exact absurd hlt (Nat.lt_irrefl _)
  · exact absurd hlt (Nat.lt_asymm (hafter other hrest))

theorem OffsetsKept.frame {before after : Brokers} (hinv : OffsetsKept before)
    (hgrow : LogsGrow before after) (hlog : after.log = before.log)
    (hend : after.logEnd = before.logEnd)
    (hcommitted : ∀ source, after.committed source = before.committed source ∨
      Below source (after.committed source) before) : OffsetsKept after where
  sorted := hlog ▸ hinv.sorted
  placed := hlog ▸ hend ▸ hinv.placed
  committed source := by
    obtain heq | hbelow := hcommitted source
    · exact heq ▸ (hinv.committed source).mono hgrow
    · exact hbelow.mono hgrow

theorem LogsGrow.frame {before after : Brokers} (hlog : after.log = before.log)
    (hend : after.logEnd = before.logEnd)
    (hhandled : before.handled ⊆ after.handled) : LogsGrow before after where
  kept _ := hlog ▸ fun _ h => h
  appended _ _ h := .inl (hlog ▸ h)
  logEnd _ := hend ▸ Nat.le_refl _
  handled := hhandled

theorem LogsGrow.append (w : Brokers) (source : Partition) (key payload : Bytes) (gap : Nat) :
    LogsGrow w (consumerEvent w (.append source key payload gap)) where
  kept other := by
    by_cases h : other = source
    · subst h
      simp [consumerEvent]
    · simp [consumerEvent, h]
  appended other record hrecord := by
    by_cases h : other = source
    · subst h
      simp only [consumerEvent, Function.update_self, List.mem_append,
        List.mem_singleton] at hrecord
      obtain hold | rfl := hrecord
      · exact .inl hold
      · exact .inr (Nat.le_add_right _ _)
    · simp only [consumerEvent, Function.update_of_ne h] at hrecord
      exact .inl hrecord
  logEnd other := by
    by_cases h : other = source
    · subst h
      simp only [consumerEvent, Function.update_self, Brokers.appended]
      omega
    · simp [consumerEvent, h]
  handled := fun _ h => h

theorem OffsetsKept.append (hinv : OffsetsKept w)
    (source : Partition) (key payload : Bytes) (gap : Nat) :
    OffsetsKept (consumerEvent w (.append source key payload gap)) where
  sorted other := by
    by_cases h : other = source
    · subst h
      simp only [consumerEvent, Function.update_self]
      refine List.pairwise_append.mpr ⟨hinv.sorted other, List.pairwise_singleton _ _, ?_⟩
      intro first hfirst second hsecond
      rw [List.mem_singleton.mp hsecond]
      have := (hinv.placed other first hfirst).2
      exact this.trans_le (Nat.le_add_right _ _)
    · simpa only [consumerEvent, Function.update_of_ne h] using hinv.sorted other
  placed other record hrecord := by
    by_cases h : other = source
    · subst h
      simp only [consumerEvent, Function.update_self, List.mem_append,
        List.mem_singleton] at hrecord ⊢
      obtain hold | rfl := hrecord
      · obtain ⟨hsource, hlt⟩ := hinv.placed other record hold
        exact ⟨hsource, by simp only [Brokers.appended]; omega⟩
      · exact ⟨rfl, Nat.lt_succ_self _⟩
    · simp only [consumerEvent, Function.update_of_ne h] at hrecord ⊢
      exact hinv.placed other record hrecord
  committed other := (hinv.committed other).mono (LogsGrow.append w source key payload gap)

/-! ## The contract of the workers -/

/-- What a worker may be told while others act: its position in a partition is
left alone or put where everything below has been handled. -/
def PositionKept (tid : Nat) (before after : Brokers) : Prop :=
  ∀ source, after.position tid source = before.position tid source ∨
    Below source (after.position tid source) after

theorem consumerEvent_inv (hinv : OffsetsKept w) : ∀ event, OffsetsKept (consumerEvent w event)
  | .append source key payload gap => hinv.append source key payload gap
  | .assign _ _ => hinv.frame (.frame rfl rfl fun _ h => h) rfl rfl fun _ => .inl rfl
  | .stop _ => hinv.frame (.frame rfl rfl fun _ h => h) rfl rfl fun _ => .inl rfl

theorem consumerEvent_grows (w : Brokers) : ∀ event, LogsGrow w (consumerEvent w event)
  | .append source key payload gap => .append w source key payload gap
  | .assign _ _ => .frame rfl rfl fun _ h => h
  | .stop _ => .frame rfl rfl fun _ h => h

theorem consumerEvent_position (hinv : OffsetsKept w) (tid : Nat)
    (event : ConsumerEvent) : PositionKept tid w (consumerEvent w event) := by
  intro source
  cases event with
  | append _ _ _ _ => exact .inl rfl
  | stop _ => exact .inl rfl
  | assign other target =>
    by_cases htid : tid = other
    · subst htid
      by_cases hsource : source = target
      -- a rebalance resumes at the committed offset
      · subst hsource
        have heq : (consumerEvent w (.assign tid source)).position tid source =
            w.committed source := by simp [consumerEvent, Brokers.seekTo]
        rw [heq]
        exact .inr ((hinv.committed source).mono (consumerEvent_grows w _))
      · exact .inl (by simp [consumerEvent, Brokers.seekTo, hsource])
    · exact .inl (by simp [consumerEvent, Brokers.seekTo, htid])

def offsets : Contract consumers {} where
  inv := OffsetsKept
  rely tid before after := LogsGrow before after ∧ PositionKept tid before after
  guar tid before after :=
    LogsGrow before after ∧ ∀ other, tid ≠ other → after.position other = before.position other
  rely_refl _ w := ⟨LogsGrow.refl w, fun _ => .inl rfl⟩
  rely_trans := by
    rintro tid first second third ⟨hgrow, hfirst⟩ ⟨hgrow', hsecond⟩
    refine ⟨hgrow.trans hgrow', fun source => ?_⟩
    obtain heq | hbelow := hsecond source
    · rw [heq]
      exact (hfirst source).imp_right fun h => h.mono hgrow'
    · exact .inr hbelow
  guar_rely := by
    rintro tid other w next hne _ ⟨hgrow, hframe⟩
    exact ⟨hgrow, fun source => .inl (congrFun (hframe other hne) source)⟩
  env_inv hinv _ := consumerEvent_inv hinv _
  env_rely hinv _ := ⟨consumerEvent_grows _ _, consumerEvent_position hinv _ _⟩

def Ready (tid : Nat) (w : Brokers) : Prop := ∀ source, Below source (w.position tid source) w

/-- A polled record: only its own partition has been read past what is handled. -/
structure Polled (tid : Nat) (message : KafkaMessage) (w : Brokers) : Prop where
  mem : message ∈ w.log message.source
  below : Below message.source message.offset w
  position : ∀ source, Below source (w.position tid source) w ∨
    source = message.source ∧ w.position tid source = message.offset + 1

theorem Ready.stable (tid : Nat) : Stable offsets tid (Ready tid) := by
  rintro before after hready _ ⟨hgrow, hposition⟩ _ source
  obtain heq | hbelow := hposition source
  · exact heq ▸ (hready source).mono hgrow
  · exact hbelow

theorem Polled.stable (tid : Nat) (message : KafkaMessage) :
    Stable offsets tid (Polled tid message) := by
  rintro before after hpolled _ ⟨hgrow, hposition⟩ _
  refine ⟨hgrow.kept _ hpolled.mem, hpolled.below.mono hgrow, fun source => ?_⟩
  obtain heq | hbelow := hposition source
  · rw [heq]
    exact (hpolled.position source).imp_left fun h => h.mono hgrow
  · exact .inl hbelow

/-- Once the polled record is handled, nothing below the positions is missing. -/
theorem Polled.ready {tid : Nat} {message : KafkaMessage} (hpolled : Polled tid message w)
    (hinv : OffsetsKept w) (hdone : message ∈ w.handled) : Ready tid w := by
  intro source
  obtain hbelow | ⟨rfl, heq⟩ := hpolled.position source
  · exact hbelow
  · exact heq ▸ hpolled.below.succ hinv hpolled.mem hdone

/-! ## The calls -/

theorem Brokers.seekTo_grows (w : Brokers) (tid : Nat) (source : Partition)
    (offset : Nat) : LogsGrow w (w.seekTo tid source offset) :=
  .frame rfl rfl fun _ h => h

theorem OffsetsKept.seekTo (hinv : OffsetsKept w) (tid : Nat) (source : Partition) (offset : Nat) :
    OffsetsKept (w.seekTo tid source offset) :=
  hinv.frame (w.seekTo_grows tid source offset) rfl rfl fun _ => .inl rfl

theorem Brokers.seekTo_others (w : Brokers) (tid : Nat) (source : Partition)
    (offset : Nat) (other : Nat) (hne : tid ≠ other) :
    (w.seekTo tid source offset).position other = w.position other :=
  Function.update_of_ne hne.symm _ _

@[simp] theorem Brokers.seekTo_position (w : Brokers) (tid : Nat)
    (source : Partition) (offset : Nat) (other : Partition) :
    (w.seekTo tid source offset).position tid other =
      if other = source then offset else w.position tid other := by
  simp [Brokers.seekTo, Function.update_apply]

variable {tid : Nat}

theorem spec_consumerCall {op : ConsumerOp} {pre : Brokers → Prop}
    {mid : op.Res → Brokers → Prop} (hpre : Stable offsets tid pre)
    (hmid : ∀ answer, Stable offsets tid (mid answer))
    (hexec : ∀ w choice, OffsetsKept w → pre w → OffsetsKept (consumerExec w tid op choice).1 ∧
      offsets.guar tid w (consumerExec w tid op choice).1 ∧
      mid (consumerExec w tid op choice).2 (consumerExec w tid op choice).1) :
    Triple offsets tid pre (consumerCall op) mid :=
  Triple.perform hpre (fun w choice hinv h _ => hexec w choice hinv h) hmid

theorem spec_running {pre : Brokers → Prop} (hstable : Stable offsets tid pre) :
    Triple offsets tid pre (consumerCall .running) fun _ => pre :=
  spec_consumerCall hstable (fun _ => hstable) fun w _ hinv hpre =>
    ⟨hinv, ⟨.refl w, fun _ _ => rfl⟩, hpre⟩

theorem spec_halt : Triple offsets tid (fun _ => True) (consumerCall .halt) fun _ _ => True := by
  refine spec_consumerCall (.const True) (fun _ => .const True) ?_
  intro w _ hinv _
  have hgrow : LogsGrow w (w.stop tid) := .frame rfl rfl fun _ h => h
  exact ⟨hinv.frame hgrow rfl rfl fun _ => .inl rfl, ⟨hgrow, fun _ _ => rfl⟩, trivial⟩

theorem spec_subscribe : Triple offsets tid (fun _ => True)
    (consumerCall .subscribe) fun _ => Ready tid := by
  refine spec_consumerCall (.const True) (fun _ => Ready.stable tid) ?_
  intro w choice hinv _
  have hgrow : LogsGrow w (consumerExec w tid .subscribe choice).1 := .frame rfl rfl fun _ h => h
  refine ⟨hinv.frame hgrow rfl rfl fun _ => .inl rfl,
    ⟨hgrow, fun other hne => Function.update_of_ne hne.symm _ _⟩, fun source => ?_⟩
  have heq : (consumerExec w tid .subscribe choice).1.position tid source =
      w.committed source := by simp [consumerExec]
  exact heq ▸ (hinv.committed source).mono hgrow

def AfterPoll (tid : Nat) : Option KafkaMessage → Brokers → Prop
  | none, w => Ready tid w
  | some message, w => Polled tid message w

theorem AfterPoll.stable (tid : Nat) : ∀ polled, Stable offsets tid (AfterPoll tid polled)
  | none => Ready.stable tid
  | some message => Polled.stable tid message

theorem spec_poll : Triple offsets tid (Ready tid) (consumerCall .poll) (AfterPoll tid) := by
  refine spec_consumerCall (Ready.stable tid) (AfterPoll.stable tid) ?_
  intro w choice hinv hready
  simp only [consumerExec]
  cases hnext : w.next tid choice.source with
  | none => exact ⟨hinv, ⟨.refl w, fun _ _ => rfl⟩, hready⟩
  | some record =>
    obtain ⟨hmem, hbelow⟩ := w.next_spec hinv (hready choice.source) hnext
    have hsource := (hinv.placed _ _ hmem).1
    have hgrow := w.seekTo_grows tid choice.source (record.offset + 1)
    refine ⟨hinv.seekTo _ _ _, ⟨hgrow, w.seekTo_others _ _ _⟩, ?_, ?_, ?_⟩
    · exact hsource ▸ hmem
    · exact hsource ▸ hbelow.mono hgrow
    · intro source
      by_cases heq : source = choice.source
      · exact .inr ⟨heq.trans hsource.symm, by simp [heq]⟩
      · refine .inl ?_
        rw [Brokers.seekTo_position, if_neg heq]
        exact (hready source).mono hgrow

def AfterHandle (tid : Nat) (message : KafkaMessage) (ok : Bool) (w : Brokers) : Prop :=
  Polled tid message w ∧ (ok = true → message ∈ w.handled)

theorem AfterHandle.stable (tid : Nat) (message : KafkaMessage) (ok : Bool) :
    Stable offsets tid (AfterHandle tid message ok) := by
  intro before after h hinv hrely hinv'
  exact ⟨Polled.stable tid message _ _ h.1 hinv hrely hinv', fun hok => hrely.1.handled (h.2 hok)⟩

theorem spec_handle (message : KafkaMessage) :
    Triple offsets tid (Polled tid message) (consumerCall (.handle message))
      (AfterHandle tid message) := by
  refine spec_consumerCall (Polled.stable tid message) (AfterHandle.stable tid message) ?_
  intro w choice hinv hpolled
  simp only [consumerExec]
  cases hresult : choice.result with
  | false => exact ⟨hinv, ⟨.refl w, fun _ _ => rfl⟩, hpolled, fun h => absurd h Bool.false_ne_true⟩
  | true =>
    have hgrow : LogsGrow w { w with handled := message :: w.handled } :=
      .frame rfl rfl fun _ h => List.mem_cons_of_mem _ h
    refine ⟨hinv.frame hgrow rfl rfl fun _ => .inl rfl,
      ⟨hgrow, fun _ _ => rfl⟩, ⟨hpolled.mem, hpolled.below.mono hgrow, ?_⟩,
      fun _ => List.mem_cons_self⟩
    exact fun source => (hpolled.position source).imp_left fun h => h.mono hgrow

theorem spec_commit (message : KafkaMessage) : Triple offsets tid (AfterHandle tid message true)
      (consumerCall (.commit message)) fun _ => AfterHandle tid message true := by
  refine spec_consumerCall (AfterHandle.stable tid message true)
    (fun _ => AfterHandle.stable tid message true) ?_
  intro w choice hinv ⟨hpolled, hdone⟩
  have hidle : OffsetsKept w ∧ offsets.guar tid w w ∧
      AfterHandle tid message true w :=
    ⟨hinv, ⟨.refl w, fun _ _ => rfl⟩, hpolled, hdone⟩
  -- the commit is sound whether or not its answer arrives
  have hcommit : ∀ w', w' = w.commitAt message.source (message.offset + 1) →
      OffsetsKept w' ∧ offsets.guar tid w w' ∧ AfterHandle tid message true w' := by
    rintro w' rfl
    have hgrow : LogsGrow w (w.commitAt message.source (message.offset + 1)) :=
      .frame rfl rfl fun _ h => h
    refine ⟨hinv.frame hgrow rfl rfl fun source => ?_, ⟨hgrow, fun _ _ => rfl⟩,
      ⟨hpolled.mem, hpolled.below.mono hgrow, fun source =>
        (hpolled.position source).imp_left fun h => h.mono hgrow⟩, hdone⟩
    by_cases heq : source = message.source
    · subst heq
      have hbelow := hpolled.below.succ hinv hpolled.mem (hdone rfl)
      exact .inr (by simpa [Brokers.commitAt] using hbelow)
    · exact .inl (by simp [Brokers.commitAt, heq])
  simp only [consumerExec, faulty]
  cases choice.fault with
  | none => exact hcommit _ rfl
  | refused => exact hidle
  | lost => exact hcommit _ rfl

def AfterSeek (tid : Nat) (ok : Bool) (w : Brokers) : Prop := ok = true → Ready tid w

theorem AfterSeek.stable (tid : Nat) (ok : Bool) : Stable offsets tid (AfterSeek tid ok) :=
  fun _ _ h hinv hrely hinv' hok => Ready.stable tid _ _ (h hok) hinv hrely hinv'

theorem Polled.rewound {message : KafkaMessage} (hpolled : Polled tid message w) :
    Ready tid (w.seekTo tid message.source message.offset) := by
  intro source
  have hgrow := w.seekTo_grows tid message.source message.offset
  rw [Brokers.seekTo_position]
  split
  · next heq => exact heq ▸ hpolled.below.mono hgrow
  · next hne =>
    obtain hbelow | ⟨heq, _⟩ := hpolled.position source
    · exact hbelow.mono hgrow
    · exact absurd heq hne

theorem spec_seek (message : KafkaMessage) :
    Triple offsets tid (Polled tid message) (consumerCall (.seek message)) (AfterSeek tid) := by
  refine spec_consumerCall (Polled.stable tid message) (AfterSeek.stable tid) ?_
  intro w choice hinv hpolled
  have hgrow := w.seekTo_grows tid message.source message.offset
  have hothers := w.seekTo_others tid message.source message.offset
  simp only [consumerExec, faulty]
  cases choice.fault with
  | none => exact ⟨hinv.seekTo _ _ _, ⟨hgrow, hothers⟩, fun _ => hpolled.rewound⟩
  | refused => exact ⟨hinv, ⟨.refl w, fun _ _ => rfl⟩, fun h => absurd h Bool.false_ne_true⟩
  | lost => exact ⟨hinv.seekTo _ _ _, ⟨hgrow, hothers⟩, fun h => absurd h Bool.false_ne_true⟩

/-! ## The loop -/

theorem spec_rewind (message : KafkaMessage) :
    Triple offsets tid (Polled tid message) (rewind workerEnv message) (AfterSeek tid) := by
  refine Triple.bind (spec_seek message) fun ok => ?_
  cases ok with
  | true => exact Triple.ret (AfterSeek.stable tid true) fun _ h => h
  | false =>
    refine Triple.bind (spec_halt.strengthen fun _ => trivial) fun _ => ?_
    exact Triple.ret (.const True) fun _ _ h => absurd h Bool.false_ne_true

theorem spec_acknowledge (message : KafkaMessage) :
    Triple offsets tid (Polled tid message) (acknowledge workerEnv message) (AfterSeek tid) := by
  refine Triple.bind (spec_handle message) fun handled => ?_
  cases handled with
  | false => exact (spec_rewind message).strengthen fun h => h.1
  | true =>
    refine Triple.bind (spec_commit message) fun committed => ?_
    cases committed with
    | false => exact (spec_rewind message).strengthen fun h => h.1
    | true =>
      exact Triple.ret (AfterHandle.stable tid message true)
        fun hinv h _ => h.1.ready hinv (h.2 rfl)

theorem spec_run (rounds : Nat) :
    Triple offsets tid (Ready tid) (run workerEnv rounds) fun _ _ => True := by
  have hstop : ∀ {pre : Brokers → Prop}, Stable offsets tid pre →
      Triple offsets tid pre (.ret ()) fun _ _ => True :=
    fun hstable => Triple.ret hstable fun _ _ => trivial
  induction rounds with
  | zero => exact hstop (Ready.stable tid)
  | succ rounds ih =>
    refine Triple.bind (spec_running (Ready.stable tid)) fun running => ?_
    cases running with
    | false => exact hstop (Ready.stable tid)
    | true =>
      refine Triple.bind spec_poll fun polled => ?_
      refine Triple.bind (spec_running (AfterPoll.stable tid polled)) fun running => ?_
      cases running with
      | false => exact hstop (AfterPoll.stable tid polled)
      | true =>
        cases polled with
        | none => exact ih
        | some message =>
          refine Triple.bind (spec_acknowledge message) fun go => ?_
          cases go with
          | true => exact ih.strengthen fun h => h rfl
          | false => exact hstop (AfterSeek.stable tid false)

theorem spec_startWorker (rounds : Nat) :
    Triple offsets tid (fun _ => True) (startWorker rounds) fun _ _ => True :=
  Triple.bind spec_subscribe fun _ => spec_run rounds

/-! ## Every run -/

/-- Before the first commit: any sorted logs, no worker, nothing handled. -/
structure Brokers.Initial (w : Brokers) : Prop where
  sorted : ∀ source, (w.log source).Pairwise fun first second => first.offset < second.offset
  placed : ∀ source, ∀ record ∈ w.log source,
    record.source = source ∧ record.offset < w.logEnd source
  uncommitted : ∀ source, w.committed source = 0

theorem Brokers.Initial.kept (h : w.Initial) : OffsetsKept w where
  sorted := h.sorted
  placed := h.placed
  committed source := by
    rw [h.uncommitted source]
    exact ⟨Nat.zero_le _, fun _ _ hlt => absurd hlt (Nat.not_lt_zero _)⟩

/--
A record below the committed offset of its partition has been handled, after any
number of starts, stops, rebalances and failures of the workers.
-/
theorem committed_handled {start : Brokers} (hstart : start.Initial)
    (actions : List (Action Nat ConsumerChoice ConsumerEvent))
    {record : KafkaMessage}
    (hlog : record ∈ (consumers.run ⟨start, []⟩ actions).world.log record.source)
    (hcommitted : record.offset <
      (consumers.run ⟨start, []⟩ actions).world.committed record.source) :
    record ∈ (consumers.run ⟨start, []⟩ actions).world.handled := by
  have hsafe : PoolSafe offsets (fun _ _ _ _ _ => True) ⟨start, []⟩ :=
    ⟨hstart.kept, fun _ _ h => absurd h (by simp)⟩
  have hrun := offsets.run_safe
    (fun {w req} tid hinv _ => spec_startWorker req w hinv trivial) hsafe
    (Guard.admitsRun_trivial consumers _ actions)
  exact (hrun.1.committed record.source).handled record hlog hcommitted

/-! One partition with one record: its handling fails, then its commit fails, and
only the third attempt is committed. -/

def oneRecord : KafkaMessage :=
  { topic := [115], key := [49], payload := [], partition := 0, offset := 3 }

def oneLog : Brokers where
  log source := if source = oneRecord.source then [oneRecord] else []
  logEnd source := if source = oneRecord.source then 4 else 0

theorem oneLog_initial : oneLog.Initial where
  sorted source := by
    simp only [oneLog]
    split
    · exact List.pairwise_singleton _ _
    · exact List.Pairwise.nil
  placed source record hrecord := by
    simp only [oneLog] at hrecord ⊢
    split at hrecord
    · next heq =>
      rw [List.mem_singleton.mp hrecord, if_pos heq]
      exact ⟨heq.symm, by decide⟩
    · exact absurd hrecord List.not_mem_nil
  uncommitted _ := rfl

def thirdAttempt : List (Action Nat ConsumerChoice ConsumerEvent) :=
  let call (choice : ConsumerChoice) :
      Action Nat ConsumerChoice ConsumerEvent := .step 0 choice
  let poll := [call {}, call { source := oneRecord.source }, call {}]
  [.spawn 3, call {}] ++ poll ++ [call { result := false }, call {}] ++
    poll ++ [call {}, call { fault := .refused }, call {}] ++
    poll ++ [call {}, call {}]

theorem thirdAttempt_handled :
    oneRecord ∈ (consumers.run ⟨oneLog, []⟩ thirdAttempt).world.handled :=
  committed_handled oneLog_initial thirdAttempt (by decide +kernel)
    (by decide +kernel)

end NebulaIM.Push
