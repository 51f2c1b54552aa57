import NebulaIM.Foundation.Wire

/-!
# The buffer of a connection

`Buffer` keeps its bytes in one vector between a reader and a writer index.  Seen
from outside it is a queue of bytes: what has gone in is what has come out followed
by the readable region.
-/

namespace NebulaIM.Net

open Foundation.Wire (Bytes)

variable {target len : Nat}

structure Buffer where
  buffer : Bytes
  readerIndex : Nat
  writerIndex : Nat

namespace Buffer

def kCheapPrepend : Nat := 8
def kInitialSize : Nat := 1024

/-- The size of `extra_buffer` in `readFd`. -/
def extraSize : Nat := 65536

def new : Buffer where
  buffer := List.replicate (kCheapPrepend + kInitialSize) 0
  readerIndex := kCheapPrepend
  writerIndex := kCheapPrepend

/-- `std::copy` inside one vector, one element after the other. -/
def copyWithin (bytes : Bytes) (source target : Nat) : Nat → Bytes
  | 0 => bytes
  | count + 1 => copyWithin (bytes.set target (bytes.getD source 0)) (source + 1) (target + 1) count

/-- `std::copy` of other bytes into the vector. -/
def copyInto (bytes : Bytes) (target : Nat) : Bytes → Bytes
  | [] => bytes
  | byte :: data => copyInto (bytes.set target byte) (target + 1) data

variable (b : Buffer)

def readableBytes : Nat := b.writerIndex - b.readerIndex
def writableBytes : Nat := b.buffer.length - b.writerIndex
def prependableBytes : Nat := b.readerIndex

/-- The `len` bytes from `peek()` on. -/
def peek (len : Nat) : Bytes := (b.buffer.drop b.readerIndex).take len

def retrieveAll : Buffer := { b with readerIndex := kCheapPrepend, writerIndex := kCheapPrepend }

def retrieve (len : Nat) : Buffer :=
  if len < b.readableBytes then { b with readerIndex := b.readerIndex + len }
  else b.retrieveAll

def retrieveAsString (len : Nat) : Buffer × Bytes := (b.retrieve len, b.peek len)

def makeSpace (len : Nat) : Buffer :=
  if b.writableBytes + b.prependableBytes < len + kCheapPrepend then
    -- `resize` fills with zeros.
    { b with buffer := b.buffer.take (b.writerIndex + len) ++
        List.replicate (b.writerIndex + len - b.buffer.length) 0 }
  else
    { buffer := copyWithin b.buffer b.readerIndex kCheapPrepend b.readableBytes
      readerIndex := kCheapPrepend
      writerIndex := kCheapPrepend + b.readableBytes }

def ensureWritableBytes (len : Nat) : Buffer :=
  if b.writableBytes < len then b.makeSpace len else b

/-- Bytes written at `beginWrite()`, then `hasWritten`. -/
def write (data : Bytes) : Buffer :=
  { b with
    buffer := copyInto b.buffer b.writerIndex data
    writerIndex := b.writerIndex + data.length }

def append (data : Bytes) : Buffer := (b.ensureWritableBytes data.length).write data

/-- The most that `readv` can return. -/
def readLimit : Nat :=
  if b.writableBytes < extraSize then b.writableBytes + extraSize else b.writableBytes

/-- `data` is what `readv` delivers, first into the vector and then into the extra
buffer; `none` is an error. -/
def readFd : Option Bytes → Buffer
  | none => b
  | some data =>
    if data.length ≤ b.writableBytes then b.write data
    else
      (b.write (data.take b.writableBytes)).append (data.drop b.writableBytes)

/-- `accepted` is what `send` takes of the readable bytes. -/
def writeFd : Option Nat → Buffer
  | none => b
  | some accepted => b.retrieve accepted

end Buffer

/-! ## The buffer as a queue -/

inductive BufferOp where
  | append (data : Bytes)
  | ensureWritableBytes (len : Nat)
  | retrieve (len : Nat)
  | retrieveAll
  | retrieveAsString (len : Nat)
  | write (data : Bytes)
  | readFd (result : Option Bytes)
  | writeFd (accepted : Option Nat)

namespace BufferOp

/-- The assertions of the methods, and what the kernel can answer. -/
def Permitted (b : Buffer) : BufferOp → Prop
  | .retrieve len | .retrieveAsString len => len ≤ b.readableBytes
  | .write data => data.length ≤ b.writableBytes
  | .readFd (some data) => data.length ≤ b.readLimit
  | .writeFd (some accepted) => accepted ≤ b.readableBytes
  | _ => True

/-- The bytes that the call puts into the buffer. -/
def arriving : BufferOp → Bytes
  | .append data | .write data | .readFd (some data) => data
  | _ => []

/-- The call, with the bytes that it takes out. -/
def perform (b : Buffer) : BufferOp → Buffer × Bytes
  | .append data => (b.append data, [])
  | .ensureWritableBytes len => (b.ensureWritableBytes len, [])
  | .retrieve len => (b.retrieve len, b.peek len)
  | .retrieveAll => (b.retrieveAll, b.peek b.readableBytes)
  | .retrieveAsString len => b.retrieveAsString len
  | .write data => (b.write data, [])
  | .readFd result => (b.readFd result, [])
  | .writeFd accepted => (b.writeFd accepted, b.peek (accepted.getD 0))

end BufferOp

namespace Buffer

/-- The calls in order, with all bytes taken out. -/
def run (b : Buffer) : List BufferOp → Buffer × Bytes
  | [] => (b, [])
  | op :: ops =>
    let (b, out) := op.perform b
    let (b, rest) := b.run ops
    (b, out ++ rest)

def PermittedRun (b : Buffer) : List BufferOp → Prop
  | [] => True
  | op :: ops => op.Permitted b ∧ (op.perform b).1.PermittedRun ops

structure Ordered (b : Buffer) : Prop where
  reader : kCheapPrepend ≤ b.readerIndex
  writer : b.readerIndex ≤ b.writerIndex
  size : b.writerIndex ≤ b.buffer.length

def readable (b : Buffer) : Bytes := b.peek b.readableBytes

/-! ## Copying -/

theorem take_set_succ {bytes : Bytes} (h : target < bytes.length) (byte : UInt8) :
    (bytes.set target byte).take (target + 1) = bytes.take target ++ [byte] := by
  rw [List.take_add_one, List.take_set_of_le (Nat.le_refl target), List.getElem?_set_self h]
  rfl

theorem copyWithin_eq {bytes : Bytes} {source count : Nat} (htarget : target ≤ source)
    (hsource : source + count ≤ bytes.length) :
    copyWithin bytes source target count =
      bytes.take target ++ (bytes.drop source).take count ++ bytes.drop (target + count) := by
  induction count generalizing bytes source target with
  | zero => simp [copyWithin]
  | succ count ih =>
    have hlt : source < bytes.length := by omega
    rw [copyWithin, ih (by omega) (by rw [List.length_set]; omega),
      take_set_succ (by omega), List.drop_set_of_lt (by omega),
      List.drop_set_of_lt (by omega), List.drop_eq_getElem_cons hlt,
      List.take_succ_cons, List.getD_eq_getElem?_getD, List.getElem?_eq_getElem hlt]
    simp [Nat.add_assoc, Nat.add_comm 1]

theorem copyInto_eq {bytes data : Bytes} (h : target + data.length ≤ bytes.length) :
    copyInto bytes target data =
      bytes.take target ++ data ++ bytes.drop (target + data.length) := by
  induction data generalizing bytes target with
  | nil => simp [copyInto]
  | cons byte data ih =>
    rw [List.length_cons] at h ⊢
    rw [copyInto, ih (by rw [List.length_set]; omega), take_set_succ (by omega),
      List.drop_set_of_lt (by omega)]
    simp [Nat.add_assoc, Nat.add_comm 1]

/-! ## The calls -/

/-- The vector is cut into the bytes before the reader, the readable bytes and the
writable rest. -/
def Holds (b : Buffer) (bytes : Bytes) : Prop :=
  ∃ before after, b.buffer = before ++ bytes ++ after ∧ kCheapPrepend ≤ before.length ∧
    b.readerIndex = before.length ∧ b.writerIndex = before.length + bytes.length

variable {b : Buffer} {bytes : Bytes}

theorem Holds.writableBytes {before after : Bytes} (hbuffer : b.buffer = before ++ bytes ++ after)
    (hwriter : b.writerIndex = before.length + bytes.length) :
    b.writableBytes = after.length := by
  rw [Buffer.writableBytes, hbuffer, hwriter, List.length_append, List.length_append,
    Nat.add_sub_cancel_left]

section Holds

variable (h : b.Holds bytes)

include h

theorem Holds.ordered : b.Ordered := by
  obtain ⟨before, after, hbuffer, hprepend, hreader, hwriter⟩ := h
  constructor
  · omega
  · omega
  · rw [hbuffer, hwriter, List.length_append, List.length_append]
    omega

theorem Holds.readableBytes : b.readableBytes = bytes.length := by
  obtain ⟨before, after, -, -, hreader, hwriter⟩ := h
  rw [Buffer.readableBytes, hreader, hwriter, Nat.add_sub_cancel_left]

theorem Holds.peek (hlen : len ≤ bytes.length) : b.peek len = bytes.take len := by
  obtain ⟨before, after, hbuffer, -, hreader, -⟩ := h
  rw [Buffer.peek, hbuffer, hreader, List.append_assoc, List.drop_left,
    List.take_append_of_le_length hlen]

theorem Holds.readable : b.readable = bytes := by
  rw [Buffer.readable, h.readableBytes, h.peek (Nat.le_refl _), List.take_length]

theorem Holds.retrieveAll : b.retrieveAll.Holds [] := by
  have hsize := h.ordered
  have hprepend : kCheapPrepend ≤ b.buffer.length :=
    Nat.le_trans (Nat.le_trans hsize.reader hsize.writer) hsize.size
  have hlength : (b.buffer.take kCheapPrepend).length = kCheapPrepend :=
    List.length_take_of_le hprepend
  refine ⟨b.buffer.take kCheapPrepend, b.buffer.drop kCheapPrepend, ?_, ?_, ?_, ?_⟩
  · simp [Buffer.retrieveAll]
  · rw [hlength]
  · rw [hlength, Buffer.retrieveAll]
  · rw [hlength, Buffer.retrieveAll, List.length_nil, Nat.add_zero]

theorem Holds.retrieve (hlen : len ≤ bytes.length) : (b.retrieve len).Holds (bytes.drop len) := by
  unfold Buffer.retrieve
  rw [h.readableBytes]
  split
  · obtain ⟨before, after, hbuffer, hprepend, hreader, hwriter⟩ := h
    refine ⟨before ++ bytes.take len, after, ?_, ?_, ?_, ?_⟩
    · rw [hbuffer, List.append_assoc before (bytes.take len), List.take_append_drop]
    · rw [List.length_append]
      omega
    · rw [List.length_append, List.length_take_of_le hlen, hreader]
    · rw [List.length_append, List.length_take_of_le hlen, List.length_drop, hwriter]
      omega
  · rw [List.drop_of_length_le (by omega)]
    exact h.retrieveAll

theorem Holds.write {data : Bytes}
    (hdata : data.length ≤ b.writableBytes) : (b.write data).Holds (bytes ++ data) := by
  obtain ⟨before, after, hbuffer, hprepend, hreader, hwriter⟩ := h
  rw [writableBytes hbuffer hwriter] at hdata
  have hend : (before ++ bytes).length = b.writerIndex := by rw [List.length_append, hwriter]
  refine ⟨before, after.drop data.length, ?_, hprepend, hreader, ?_⟩
  · rw [Buffer.write, copyInto_eq, hbuffer, ← hend, List.take_left, ← List.drop_drop,
      List.drop_left, List.append_assoc before]
    rw [hbuffer, List.length_append, hend]
    omega
  · rw [Buffer.write, List.length_append, hwriter, Nat.add_assoc]

/-- Growth and compaction keep the readable bytes and make the room asked for. -/
theorem Holds.makeSpace (hlen : b.writableBytes < len) :
    (b.makeSpace len).Holds bytes ∧ len ≤ (b.makeSpace len).writableBytes := by
  have hreadable := h.readableBytes
  obtain ⟨before, after, hbuffer, hprepend, hreader, hwriter⟩ := h
  rw [writableBytes hbuffer hwriter] at hlen
  have hsize : b.buffer.length = before.length + bytes.length + after.length := by
    rw [hbuffer, List.length_append, List.length_append]
  unfold Buffer.makeSpace
  split
  · constructor
    · refine ⟨before, after ++ List.replicate (b.writerIndex + len - b.buffer.length) 0, ?_,
        hprepend, hreader, hwriter⟩
      rw [List.take_of_length_le (by omega), hbuffer, List.append_assoc]
    · simp only [Buffer.writableBytes, List.length_append, List.length_take, List.length_replicate]
      omega
  · next hroom =>
    rw [writableBytes hbuffer hwriter, prependableBytes, hreader] at hroom
    have hcopy : copyWithin b.buffer b.readerIndex kCheapPrepend b.readableBytes =
        b.buffer.take kCheapPrepend ++ bytes ++ b.buffer.drop (kCheapPrepend + bytes.length) := by
      rw [copyWithin_eq (hreader ▸ hprepend) (by omega), hreadable, hreader]
      nth_rewrite 2 [hbuffer]
      rw [List.append_assoc before, List.drop_left, List.take_left]
    have hlength : (b.buffer.take kCheapPrepend).length = kCheapPrepend :=
      List.length_take_of_le (by omega)
    constructor
    · refine ⟨_, _, hcopy, Nat.le_of_eq hlength.symm, hlength.symm, ?_⟩
      rw [hlength, hreadable]
    · simp only [Buffer.writableBytes]
      rw [hcopy, hreadable, List.length_append, List.length_append, hlength, List.length_drop]
      omega

theorem Holds.ensureWritableBytes (len : Nat) :
    (b.ensureWritableBytes len).Holds bytes ∧ len ≤ (b.ensureWritableBytes len).writableBytes := by
  unfold Buffer.ensureWritableBytes
  split
  · next hlen => exact h.makeSpace hlen
  · next hroom => exact ⟨h, Nat.le_of_not_lt hroom⟩

theorem Holds.append (data : Bytes) : (b.append data).Holds (bytes ++ data) := by
  obtain ⟨hholds, hroom⟩ := h.ensureWritableBytes data.length
  exact hholds.write hroom

theorem Holds.readFd (data : Bytes) : (b.readFd (some data)).Holds (bytes ++ data) := by
  simp only [Buffer.readFd]
  split
  · next hfits => exact h.write hfits
  · have hfirst : (b.write (data.take b.writableBytes)).Holds
        (bytes ++ data.take b.writableBytes) := h.write (List.length_take_le _ _)
    have hboth := hfirst.append (data.drop b.writableBytes)
    rwa [List.append_assoc, List.take_append_drop] at hboth

/-- Every call takes bytes from the front and adds bytes at the end. -/
theorem Holds.perform {op : BufferOp} (hop : op.Permitted b) :
    ∃ rest, bytes = (op.perform b).2 ++ rest ∧ (op.perform b).1.Holds (rest ++ op.arriving) := by
  have hall : b.peek b.readableBytes = bytes := h.readable
  have htake {len : Nat} (hlen : len ≤ b.readableBytes) : ∃ rest, bytes = b.peek len ++ rest ∧
      (b.retrieve len).Holds (rest ++ []) := by
    rw [h.readableBytes] at hlen
    refine ⟨bytes.drop len, ?_, ?_⟩
    · rw [h.peek hlen, List.take_append_drop]
    · rw [List.append_nil]
      exact h.retrieve hlen
  have hkeep : b.Holds (bytes ++ []) := by rwa [List.append_nil]
  cases op with
  | append data => exact ⟨bytes, rfl, h.append data⟩
  | ensureWritableBytes len => exact ⟨bytes, rfl, (hkeep.ensureWritableBytes len).1⟩
  | retrieve len => exact htake hop
  | retrieveAsString len => exact htake hop
  | retrieveAll => exact ⟨[], by rw [List.append_nil]; exact hall.symm, h.retrieveAll⟩
  | write data => exact ⟨bytes, rfl, h.write hop⟩
  | readFd result =>
    cases result with
    | none => exact ⟨bytes, rfl, hkeep⟩
    | some data => exact ⟨bytes, rfl, h.readFd data⟩
  | writeFd accepted =>
    cases accepted with
    | none => exact ⟨bytes, rfl, hkeep⟩
    | some len => exact htake hop

theorem Holds.run {ops : List BufferOp} (hops : b.PermittedRun ops) :
    ∃ rest, bytes ++ ops.flatMap BufferOp.arriving = (b.run ops).2 ++ rest ∧
      (b.run ops).1.Holds rest := by
  induction ops generalizing b bytes with
  | nil => exact ⟨bytes, by simp [Buffer.run], h⟩
  | cons op ops ih =>
    obtain ⟨rest, rfl, hnext⟩ := h.perform hops.1
    obtain ⟨last, hbytes, hlast⟩ := ih hnext hops.2
    refine ⟨last, ?_, hlast⟩
    rw [List.flatMap_cons, List.append_assoc, ← List.append_assoc rest, hbytes]
    simp [Buffer.run]

end Holds

theorem new_holds : new.Holds [] := by
  refine ⟨List.replicate kCheapPrepend 0, List.replicate kInitialSize 0, ?_, ?_, ?_, ?_⟩
  · rw [new, List.replicate_add, List.append_nil]
  all_goals simp [new]

/-- What has gone into a buffer is what has come out of it, followed by its readable
bytes, and the indices stay in order. -/
theorem buffer_is_queue {ops : List BufferOp} (hops : new.PermittedRun ops) :
    (new.run ops).1.Ordered ∧
      ops.flatMap BufferOp.arriving = (new.run ops).2 ++ (new.run ops).1.readable := by
  obtain ⟨rest, hbytes, hholds⟩ := new_holds.run hops
  exact ⟨hholds.ordered, by rw [hholds.readable, ← hbytes, List.nil_append]⟩

def shortUse : List BufferOp := [.append [1, 2, 3], .retrieve 2, .readFd (some [4])]

theorem shortUse_in_order :
    (new.run shortUse).2 ++ (new.run shortUse).1.readable = [1, 2, 3, 4] := by
  have hpermitted : new.PermittedRun shortUse := by
    simp only [shortUse, PermittedRun, BufferOp.Permitted]
    decide +kernel
  exact (buffer_is_queue hpermitted).2.symm

end Buffer

end NebulaIM.Net
